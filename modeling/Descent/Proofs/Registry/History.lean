import Descent.Proofs.Parser.Registrations

/-! The history of a registry. However registrations, start rules and loads of the character rules
follow each other, a registry is a map in the order of insertion: a name stands for the last rule
that was registered under it, at the place where it was first registered, and the start rule is
inside. -/

namespace Descent.Registry

/-- What changes a registry. The character rules are loaded by a parser, which has a policy, and
perhaps a start rule that its settings ask for. -/
inductive Operation where
  | insert (name : Text) (spec : Spec) (options : Registration)
  | startFrom (name : Text)
  | loadCharacterRules (policy : Whitespace) (requestedStart : Option Text)
      (options : Registration)

/-- The rule that a matching function makes. -/
def matcherRule (options : Registration) (f : Text × Matcher) : Rule :=
  ⟨f.1, .custom f.2, options.whitespace⟩

namespace Operation

/-- The registry that an operation leaves, whatever it answers. -/
def perform (r : Registry) : Operation → Registry
  | insert name spec options => (r.insert name spec options).state
  | startFrom name => (r.startFrom name).state
  | loadCharacterRules policy requestedStart options =>
      ((Parser.mk r policy requestedStart).loadCharacterRules options).state.registry

/-- The rules that an operation registers: none if it is refused, and of the character rules those
whose names are free. -/
def registers (r : Registry) : Operation → List Rule
  | insert name spec options =>
      match (r.insert name spec options).result with
      | .ok _ => [⟨name, spec, options.whitespace⟩]
      | .error _ => []
  | startFrom _ => []
  | loadCharacterRules _ _ options =>
      (CharacterRule.all.filter (!r.contains ·.1)).map (matcherRule options)

/-- The registry that is left by operations in turn. -/
def performAll (r : Registry) : List Operation → Registry
  | [] => r
  | op :: ops => performAll (op.perform r) ops

/-- All rules that operations in turn register, also those that are replaced later. -/
def history (r : Registry) : List Operation → List Rule
  | [] => []
  | op :: ops => op.registers r ++ history (op.perform r) ops

end Operation

/-- The registry holds what was registered: one rule to a name, the last one of that name, and the
names in the order in which they first came. -/
structure Holds (r : Registry) (history : List Rule) : Prop where
  nodup : r.names.Nodup
  names : r.names = (history.map (·.name)).eraseDups
  lookup? : ∀ name, r.lookup? name = (history.filter (·.name = name)).getLast?
  start : ∀ place, r.start = some place → place < r.size

variable {r r' : Registry} {history : List Rule} {name : Text} {rule : Rule} {place : Nat}

theorem size_eq_length_names (r : Registry) : r.size = r.names.length :=
  (List.length_map _).symm

theorem holds_empty : Holds {} [] := ⟨List.nodup_nil, rfl, fun _ => rfl, nofun⟩

theorem eraseDups_concat (xs : List Text) (x : Text) :
    (xs ++ [x]).eraseDups = if x ∈ xs then xs.eraseDups else xs.eraseDups ++ [x] := by
  rw [List.eraseDups_append]
  by_cases h : x ∈ xs
  · simp [List.removeAll, h]
  · simp [List.removeAll, List.eraseDups_cons, h]

theorem getLast?_filter_concat (history : List Rule) (rule : Rule) (name : Text) :
    ((history ++ [rule]).filter (·.name = name)).getLast? =
      if name = rule.name then some rule else (history.filter (·.name = name)).getLast? := by
  by_cases h : name = rule.name
  · simp [List.filter_append, h]
  · simp [List.filter_append, h, Ne.symm h]

/-- A rule is added to what a registry holds. -/
theorem Holds.concat (h : Holds r history)
    (hnames : r'.names = if rule.name ∈ r.names then r.names else r.names ++ [rule.name])
    (hlookup : ∀ other, r'.lookup? other = if other = rule.name then some rule else r.lookup? other)
    (hstart : ∀ place, r'.start = some place → place < r'.size) :
    Holds r' (history ++ [rule]) where
  nodup := by
    rw [hnames]
    split
    · exact h.nodup
    · next hname =>
        refine List.nodup_append.2 ⟨h.nodup, List.pairwise_singleton _ _, ?_⟩
        rintro other hother _ hrule rfl
        exact hname (List.mem_singleton.1 hrule ▸ hother)
  names := by
    have hmem : rule.name ∈ r.names ↔ rule.name ∈ history.map (·.name) := by
      rw [h.names, List.mem_eraseDups]
    rw [List.map_append, List.map_singleton, eraseDups_concat, ← h.names, hnames]
    exact if_congr hmem rfl rfl
  lookup? other := by rw [hlookup, getLast?_filter_concat, h.lookup?]
  start := hstart

/-- A start rule that was inside, or is the rule that was registered, is inside. -/
theorem Inserted.start_lt {options : Registration} (h : Inserted r name options place r')
    (hstart : ∀ first, r.start = some first → first < r.size) {first : Nat}
    (hfirst : r'.start = some first) : first < r'.size := by
  rw [size_eq_length_names]
  rw [h.start, startAfter] at hfirst
  split at hfirst
  · obtain rfl := Option.some.inj hfirst
    exact (List.getElem?_eq_some_iff.1 (getElem?_of_handle? h.handle)).1
  · have hlt := hstart first hfirst
    rw [size_eq_length_names] at hlt
    exact Nat.lt_of_lt_of_le hlt h.grows.length_le

theorem holds_insert (h : Holds r history) (name : Text) (spec : Spec) (options : Registration) :
    Holds (r.insert name spec options).state
      (history ++ (Operation.insert name spec options).registers r) := by
  rw [Operation.registers]
  rcases r.insert_eq_cases name spec options with
    ⟨hfree, hinsert⟩ | ⟨place, hplace, -, hinsert⟩ | ⟨-, -, hinsert⟩
  · rw [hinsert]
    refine h.concat ?_ (lookup?_added hfree _) fun first =>
      (inserted_added spec options hfree).start_lt h.start
    rw [if_neg (handle?_eq_none_iff.1 hfree)]
    exact names_added _ hfree _
  · rw [hinsert]
    refine h.concat ?_ (lookup?_replaced hplace _) fun first =>
      (inserted_replaced spec options hplace).start_lt h.start
    rw [if_pos (mem_names_of_handle? hplace)]
    exact names_replaced _ hplace _
  · rw [hinsert]
    exact (List.append_nil history).symm ▸ h

theorem holds_register {p : Parser} (h : Holds p.registry history)
    (hfree : name ∉ p.registry.names) (spec : Spec) (options : Registration) :
    Holds (p.register name spec options).state.registry
      (history ++ [⟨name, spec, options.whitespace⟩]) := by
  have hholds : ∀ options' : Registration, options'.whitespace = options.whitespace →
      Holds (p.registry.insert name spec options').state
        (history ++ [⟨name, spec, options.whitespace⟩]) := by
    intro options' hoptions
    have hregisters : (Operation.insert name spec options').registers p.registry =
        [⟨name, spec, options.whitespace⟩] := by
      rw [Operation.registers, insert_of_notMem hfree, ← hoptions]
      rfl
    exact hregisters ▸ holds_insert h name spec options'
  unfold Parser.register
  split
  · exact hholds _ rfl
  · exact hholds _ rfl

/-- Another start rule that is inside. -/
theorem Holds.withStart (h : Holds r history) {start : Option Nat}
    (hstart : ∀ place, start = some place → place < r.size) : Holds (r.withStart start) history :=
  ⟨h.nodup, h.names, h.lookup?, hstart⟩

theorem holds_startFrom (h : Holds r history) (name : Text) :
    Holds (r.startFrom name).state history := by
  unfold startFrom
  split
  · next place hplace =>
      refine h.withStart fun first hfirst => ?_
      obtain rfl := Option.some.inj hfirst
      rw [size_eq_length_names]
      exact (List.getElem?_eq_some_iff.1 (getElem?_of_handle? hplace)).1
  · exact h

/-- The matching functions are registered one by one, except those whose names are taken. -/
theorem registers_registerMissing {p : Parser} (options : Registration) {fs : List (Text × Matcher)}
    (hfs : (fs.map Prod.fst).Nodup) :
    (p.registerMissing options fs).result =
        .ok (fs.filter (!p.registry.contains ·.1)).length ∧
      Parser.Registers options p
        ((fs.filter (!p.registry.contains ·.1)).map (matcherRule options))
        (p.registerMissing options fs).state := by
  induction fs generalizing p with
  | nil => exact ⟨rfl, .nil⟩
  | cons f fs ih =>
      obtain ⟨name, matcher⟩ := f
      obtain ⟨hname, hfs⟩ := List.nodup_cons.1 hfs
      rw [Parser.registerMissing]
      by_cases hcontains : p.registry.contains name = true
      · rw [if_pos hcontains, List.filter_cons_of_neg (by simp [hcontains])]
        exact ih hfs
      · rw [if_neg hcontains, List.filter_cons_of_pos (by simp [hcontains])]
        have hfree : name ∉ p.registry.names := fun hmem => hcontains (contains_iff.2 hmem)
        obtain ⟨q, hq, happended⟩ := Parser.register_of_notMem hfree (.custom matcher) options
        -- The names that come later are not the one that has just been taken.
        have hothers : fs.filter (!q.registry.contains ·.1) =
            fs.filter (!p.registry.contains ·.1) := by
          refine List.filter_congr fun f hf => congrArg (!·) ?_
          have hne : f.1 ≠ name := fun heq => hname (List.mem_map.2 ⟨f, hf, heq⟩)
          rw [Bool.eq_iff_iff, contains_iff, contains_iff, happended.names, List.mem_append]
          exact or_iff_left fun hmem => hne (List.mem_singleton.1 hmem)
        obtain ⟨hresult, hrest⟩ := ih (p := q) hfs
        rw [hothers] at hresult hrest
        refine ⟨?_, .cons hfree ?_⟩
        · rw [Parser.registerMatcher, hq]
          exact congrArg (Except.map (· + 1)) hresult
        · rw [Parser.registerMatcher, hq]
          exact hrest

theorem holds_of_registers {p q : Parser} {options : Registration} {rules : List Rule}
    (h : Parser.Registers options p rules q) (hp : Holds p.registry history) :
    Holds q.registry (history ++ rules) := by
  induction h generalizing history with
  | nil => exact (List.append_nil history).symm ▸ hp
  | cons hname _ ih =>
      have hrest := ih (holds_register hp hname _ options)
      rwa [List.append_assoc] at hrest

theorem nodup_characterRules : (CharacterRule.all.map Prod.fst).Nodup := by decide +kernel

/-- The character rules whose names are free stand behind the rules that were there. -/
theorem appended_loadCharacterRules (p : Parser) (options : Registration) :
    (p.loadCharacterRules options).result =
        .ok (CharacterRule.all.filter (!p.registry.contains ·.1)).length ∧
      Parser.Appended p
        ((CharacterRule.all.filter (!p.registry.contains ·.1)).map (matcherRule options))
        (p.loadCharacterRules options).state := by
  obtain ⟨hresult, hregisters⟩ := registers_registerMissing (p := p) options nodup_characterRules
  have happended := hregisters.appended
  rw [Parser.loadCharacterRules, Change.andThen, hresult]
  refine ⟨rfl, ?_⟩
  -- The start rule that is put back is no rule more.
  dsimp only
  split
  · exact happended
  · exact ⟨happended.rules, happended.whitespace, happended.requested⟩

/-- The start rule that was there is inside the rules that are there after the load. -/
theorem holds_loadCharacterRules {p : Parser} (h : Holds p.registry history)
    (options : Registration) :
    Holds (p.loadCharacterRules options).state.registry
      (history ++ (CharacterRule.all.filter (!p.registry.contains ·.1)).map
        (matcherRule options)) := by
  obtain ⟨hresult, hregisters⟩ := registers_registerMissing (p := p) options nodup_characterRules
  have hholds := holds_of_registers hregisters h
  rw [Parser.loadCharacterRules, Change.andThen, hresult]
  by_cases hstart : options.start = true
  · rw [if_pos hstart]
    exact hholds
  · rw [if_neg hstart]
    refine hholds.withStart fun place hplace => ?_
    rw [hregisters.appended.size]
    exact Nat.lt_add_right _ (h.start place hplace)

theorem holds_perform (h : Holds r history) (op : Operation) :
    Holds (op.perform r) (history ++ op.registers r) := by
  cases op with
  | insert name spec options => exact holds_insert h name spec options
  | startFrom name => exact (List.append_nil history).symm ▸ holds_startFrom h name
  | loadCharacterRules policy requestedStart options =>
      exact holds_loadCharacterRules (p := ⟨r, policy, requestedStart⟩) h options

theorem holds_performAll (h : Holds r history) (ops : List Operation) :
    Holds (Operation.performAll r ops) (history ++ Operation.history r ops) := by
  induction ops generalizing r history with
  | nil => exact (List.append_nil history).symm ▸ h
  | cons op ops ih =>
      have hops := ih (holds_perform h op)
      rwa [List.append_assoc] at hops

/-- The names that came first stay in front. -/
theorem Holds.names_prefix {more : List Rule} (h : Holds r history)
    (h' : Holds r' (history ++ more)) : r.names <+: r'.names := by
  rw [h.names, h'.names, List.map_append, List.eraseDups_append]
  exact List.prefix_append _ _

/-- A name is found where it is, because it is nowhere else. -/
theorem Holds.handle?_getElem (h : Holds r history) (hplace : place < r.names.length) :
    r.handle? r.names[place] = some place := by
  rw [handle?_eq_findIdx?]
  exact findIdx?_of_nodup h.nodup (List.getElem?_eq_getElem hplace)

/-- The handles are fewer than the registrations, so 32 bits hold them after fewer than 2 ^ 32. -/
theorem Holds.handle?_lt (h : Holds r history) (hplace : r.handle? name = some place) :
    place < history.length := by
  have hlt : place < r.names.length := size_eq_length_names r ▸ lt_size_of_handle? hplace
  have hsubset : r.names ⊆ history.map (·.name) := fun other hother =>
    List.mem_eraseDups.1 (h.names ▸ hother)
  have hle := (h.nodup.subperm hsubset).length_le
  rw [List.length_map] at hle
  exact Nat.lt_of_lt_of_le hlt hle

theorem get?_of_handle? (h : r.handle? name = some place) :
    ∃ rule, r.get? place = some rule ∧ rule.name = name := by
  have hname := getElem?_of_handle? h
  rw [names, List.getElem?_map] at hname
  exact Option.map_eq_some_iff.1 hname

/-- A registration of one name, also one that is refused, leaves all other names what they were. -/
theorem lookup?_insert_of_ne {other : Text} (h : other ≠ name) (r : Registry) (spec : Spec)
    (options : Registration) :
    (r.insert name spec options).state.lookup? other = r.lookup? other := by
  rcases r.insert_eq_cases name spec options with
    ⟨hfree, hinsert⟩ | ⟨place, hplace, -, hinsert⟩ | ⟨-, -, hinsert⟩
  · rw [hinsert]
    exact (lookup?_added hfree _ other).trans (if_neg h)
  · rw [hinsert]
    exact (lookup?_replaced hplace _ other).trans (if_neg h)
  · rw [hinsert]
    rfl

/-- An operation leaves all names what they were under which it registers nothing. -/
theorem lookup?_perform {op : Operation} (h : ∀ rule ∈ op.registers r, rule.name ≠ name) :
    (op.perform r).lookup? name = r.lookup? name := by
  cases op with
  | insert other spec options =>
      by_cases hname : name = other
      · subst hname
        rcases r.insert_eq_cases name spec options with
          ⟨hfree, hinsert⟩ | ⟨place, hplace, -, hinsert⟩ | ⟨-, -, hinsert⟩
        · rw [Operation.registers, hinsert] at h
          exact absurd rfl (h _ (List.mem_singleton_self _))
        · rw [Operation.registers, hinsert] at h
          exact absurd rfl (h _ (List.mem_singleton_self _))
        · rw [Operation.perform, hinsert]
          rfl
      · exact lookup?_insert_of_ne hname r spec options
  | startFrom other =>
      rw [Operation.perform, startFrom]
      split
      · rfl
      · rfl
  | loadCharacterRules policy requestedStart options =>
      obtain ⟨-, happended⟩ := appended_loadCharacterRules (.mk r policy requestedStart) options
      rw [Operation.perform, happended.lookup?, List.find?_eq_none.2 fun rule hrule => by
        simpa using h rule hrule]
      exact Option.or_none

theorem lookup?_performAll {ops : List Operation}
    (h : ∀ rule ∈ Operation.history r ops, rule.name ≠ name) :
    (Operation.performAll r ops).lookup? name = r.lookup? name := by
  induction ops generalizing r with
  | nil => rfl
  | cons op ops ih =>
      obtain ⟨hop, hops⟩ := List.forall_mem_append.1 h
      exact (ih hops).trans (lookup?_perform hop)

/-- A registration is refused if its name is taken and the rule may not be replaced. -/
theorem insert_eq_error_iff (r : Registry) (name : Text) (spec : Spec) (options : Registration) :
    (∃ err, (r.insert name spec options).result = .error err) ↔
      name ∈ r.names ∧ options.replace = false := by
  rcases r.insert_eq_cases name spec options with
    ⟨hfree, hinsert⟩ | ⟨place, hplace, hreplace, hinsert⟩ | ⟨hname, hreplace, hinsert⟩
  · rw [hinsert]
    refine iff_of_false ?_ fun h => handle?_eq_none_iff.1 hfree h.1
    rintro ⟨err, h⟩
    cases h
  · rw [hinsert, hreplace]
    refine iff_of_false ?_ fun h => Bool.false_ne_true h.2.symm
    rintro ⟨err, h⟩
    cases h
  · rw [hinsert]
    exact iff_of_true ⟨_, rfl⟩ ⟨hname, hreplace⟩

/-- After any operations on the empty registry the two tables belong together: a handle and the name
of its rule stand for each other, and the start rule has a handle. There are at most as many handles
as there were registrations, and more operations keep all of them. A name stands for the last
rule that was registered under it, and the handles are given in the order in which names came
first. One more registration concerns its own name only, and it is refused only where that name is
taken. -/
theorem registry_refines_history (ops : List Operation) :
    let r := Operation.performAll {} ops
    (∀ place < r.size, ∃ rule, r.get? place = some rule ∧ r.handle? rule.name = some place) ∧
    (∀ name place, r.handle? name = some place →
      place < (Operation.history {} ops).length ∧
        ∃ rule, r.get? place = some rule ∧ rule.name = name) ∧
    (∀ place, r.start = some place → ∃ rule, r.get? place = some rule) ∧
    (∀ more name place, r.handle? name = some place →
      (Operation.performAll r more).handle? name = some place) ∧
    (∀ name, r.lookup? name =
      ((Operation.history {} ops).filter (·.name = name)).getLast?) ∧
    r.names = ((Operation.history {} ops).map (·.name)).eraseDups ∧
    (∀ name spec options other, other ≠ name →
      (r.insert name spec options).state.lookup? other = r.lookup? other) ∧
    ∀ name spec options, (∃ err, (r.insert name spec options).result = .error err) ↔
      name ∈ r.names ∧ options.replace = false := by
  intro r
  have h : Holds r (Operation.history {} ops) := holds_performAll holds_empty ops
  refine ⟨fun place hplace => ?_,
    fun _ _ hplace => ⟨h.handle?_lt hplace, get?_of_handle? hplace⟩, fun place hplace => ?_,
    fun more name place => handle?_mono (h.names_prefix (holds_performAll h more)),
    h.lookup?, h.names, fun _ spec options _ hother => lookup?_insert_of_ne hother r spec options,
    insert_eq_error_iff r⟩
  · have hlt : place < r.names.length := size_eq_length_names r ▸ hplace
    have hname : r.names[place] = r.rules[place].name := List.getElem_map _
    exact ⟨_, List.getElem?_eq_getElem hplace, hname ▸ h.handle?_getElem hlt⟩
  · exact ⟨_, List.getElem?_eq_getElem (h.start place hplace)⟩

/-- A rule that is refused and then replaced: the name stands for the third body, at its first
handle, and has that handle also behind the character rules. -/
theorem registry_refines_history_replaced_rule :
    let ops : List Operation :=
      [.insert ['a'] (.literal ['x']) {}, .insert ['b'] (.reference ['a']) {},
       .insert ['a'] (.literal ['y']) {}, .insert ['a'] (.literal ['z']) { replace := true },
       .startFrom ['b']]
    (Operation.performAll {} ops).lookup? ['a'] = some ⟨['a'], .literal ['z'], false⟩ ∧
      (Operation.performAll {} ops).handle? ['a'] = some 0 ∧
      (Operation.performAll (Operation.performAll {} ops)
        [.loadCharacterRules .keep none {}]).handle? ['a'] = some 0 := by
  intro ops
  have hhandle : (Operation.performAll {} ops).handle? ['a'] = some 0 := by cbv
  obtain ⟨-, -, -, hstable, hlookup, -⟩ := registry_refines_history ops
  exact ⟨(hlookup ['a']).trans (by cbv), hhandle, hstable _ ['a'] 0 hhandle⟩

end Descent.Registry
