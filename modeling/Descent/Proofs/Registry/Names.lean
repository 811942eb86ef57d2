import Descent.Registry

/-! The names of a registry, in the order of their handles. A handle is the place of a name, names
stay where they are, and a registration adds at most its own name at the end. -/

namespace Descent.Registry

variable {r r' : Registry} {name : Text} {handle : Nat}

def names (r : Registry) : List Text := r.rules.map (·.name)

theorem name_ne_of_notMem {rule : Rule} (h : name ∉ r.names) (hrule : rule ∈ r.rules) :
    rule.name ≠ name := by
  rintro rfl
  exact h (List.mem_map_of_mem hrule)

theorem handle?_eq_findIdx? (r : Registry) (name : Text) :
    r.handle? name = r.names.findIdx? (· = name) := by
  rw [handle?, r.agree, names, List.findIdx?_map]
  rfl

theorem contains_iff : r.contains name = true ↔ name ∈ r.names := by
  rw [contains, r.agree, List.findIdx?_isSome]
  simp [names]

theorem handle?_eq_none_iff : r.handle? name = none ↔ name ∉ r.names := by
  rw [handle?_eq_findIdx?, List.findIdx?_eq_none_iff]
  constructor
  · intro h hname
    simpa using h name hname
  · rintro h other hother
    refine decide_eq_false ?_
    rintro rfl
    exact h hother

/-- Where no name stands twice, a name is found where it is. -/
theorem findIdx?_of_nodup {names : List Text} (h : names.Nodup) {place : Nat}
    (hplace : names[place]? = some name) : names.findIdx? (· = name) = some place := by
  obtain ⟨hlt, rfl⟩ := List.getElem?_eq_some_iff.1 hplace
  refine List.findIdx?_eq_some_iff_getElem.2 ⟨hlt, decide_eq_true rfl, fun earlier hearlier => ?_⟩
  rw [decide_eq_true_eq]
  exact List.pairwise_iff_getElem.1 h earlier place _ hlt hearlier

theorem getElem?_of_handle? (h : r.handle? name = some handle) : r.names[handle]? = some name := by
  rw [handle?_eq_findIdx?, List.findIdx?_eq_some_iff_getElem] at h
  obtain ⟨hlt, heq, -⟩ := h
  exact List.getElem?_eq_some_iff.2 ⟨hlt, of_decide_eq_true heq⟩

theorem mem_names_of_handle? (h : r.handle? name = some handle) : name ∈ r.names :=
  List.mem_of_getElem? (getElem?_of_handle? h)

theorem handle?_mono (hnames : r.names <+: r'.names) (h : r.handle? name = some handle) :
    r'.handle? name = some handle := by
  rw [handle?_eq_findIdx?] at h ⊢
  exact hnames.findIdx?_eq_some h

theorem getElem?_mono (hnames : r.names <+: r'.names) (h : r.names[handle]? = some name) :
    r'.names[handle]? = some name := by
  obtain ⟨more, hmore⟩ := hnames
  obtain ⟨hlt, -⟩ := List.getElem?_eq_some_iff.1 h
  rw [← hmore, List.getElem?_append_left hlt, h]

theorem lt_size_of_handle? (h : r.handle? name = some handle) : handle < r.size := by
  obtain ⟨hlt, -⟩ := List.getElem?_eq_some_iff.1 (getElem?_of_handle? h)
  rwa [names, List.length_map] at hlt

/-- One more rule has its name behind the names that are there. -/
theorem names_added (rule : Rule) (h : r.handle? rule.name = none) (start : Option Nat) :
    ((r.added rule h).withStart start).names = r.names ++ [rule.name] := List.map_append

/-- A rule that is replaced by one of its name keeps all names where they are. -/
theorem names_replaced (rule : Rule) (h : r.handle? rule.name = some handle)
    (start : Option Nat) : ((r.replaced rule h).withStart start).names = r.names := by
  obtain ⟨hlt, heq⟩ := List.getElem?_eq_some_iff.1 (getElem?_of_handle? h)
  show (r.rules.set handle rule).map (·.name) = r.names
  rw [List.map_set]
  show r.names.set handle rule.name = r.names
  rw [← heq, List.set_getElem_self]

/-- The handles of rules from `place` on. -/
def handlesFrom (place : Nat) : List Rule → List (Text × Nat)
  | [] => []
  | rule :: rules => (rule.name, place) :: handlesFrom (place + 1) rules

theorem lookup_handlesFrom (place : Nat) (rules : List Rule) (name : Text) :
    (handlesFrom place rules).lookup name =
      (rules.findIdx? (·.name = name)).map (place + ·) := by
  induction rules generalizing place with
  | nil => rfl
  | cons rule rules ih =>
      rw [handlesFrom, List.lookup_cons, List.findIdx?_cons, ih]
      by_cases hname : name = rule.name
      · simp [hname]
      · simp [beq_false_of_ne hname, Ne.symm hname, Function.comp_def, Nat.add_comm,
          Nat.add_left_comm]

/-- The registry of some rules, with a start rule. -/
def ofRules (rules : List Rule) (start : Option Nat) : Registry where
  rules := rules
  handles := handlesFrom 0 rules
  start := start
  agree name := by
    rw [lookup_handlesFrom]
    simp

@[simp] theorem rules_ofRules (rules : List Rule) (start : Option Nat) :
    (ofRules rules start).rules = rules := rfl

/-- The start rule has the name at its handle. -/
theorem map_name_start? (r : Registry) :
    r.start?.map (·.name) = r.start.bind fun handle => r.names[handle]? := by
  unfold start? get? names
  cases r.start with
  | none => rfl
  | some handle => exact (List.getElem?_map ..).symm

/-- What a registration makes of a registry if it is not refused. -/
structure Inserted (r : Registry) (name : Text) (options : Registration) (place : Nat)
    (r' : Registry) : Prop where
  grows : r.names <+: r'.names
  mem : ∀ other ∈ r'.names, other ∈ r.names ∨ other = name
  handle : r'.handle? name = some place
  start : r'.start = r.startAfter options place

theorem inserted_replaced (spec : Spec) (options : Registration)
    (h : r.handle? name = some handle) :
    Inserted r name options handle
      ((r.replaced ⟨name, spec, options.whitespace⟩ h).withStart
        (r.startAfter options handle)) := by
  have hnames := names_replaced ⟨name, spec, options.whitespace⟩ h (r.startAfter options handle)
  exact ⟨hnames ▸ List.prefix_refl _, fun other hother => .inl (hnames ▸ hother), h, rfl⟩

theorem inserted_added (spec : Spec) (options : Registration) (h : r.handle? name = none) :
    Inserted r name options r.size
      ((r.added ⟨name, spec, options.whitespace⟩ h).withStart
        (r.startAfter options r.size)) := by
  have hnames := names_added ⟨name, spec, options.whitespace⟩ h (r.startAfter options r.size)
  refine ⟨?_, ?_, ?_, rfl⟩
  · rw [hnames]
    exact List.prefix_append _ _
  · intro other hother
    rw [hnames, List.mem_append] at hother
    exact hother.imp_right List.mem_singleton.1
  · -- The table of names is written in front.
    exact (List.lookup_cons_self : ((name, r.size) :: r.handles).lookup name = some r.size)

/-- A registration is refused because its name is taken, or it is carried out and recorded. -/
theorem insert_cases (r : Registry) (name : Text) (spec : Spec) (options : Registration) :
    (name ∈ r.names ∧ r.insert name spec options = .refused r (.duplicateRule name)) ∨
      ∃ record place r', r.insert name spec options = .noting record (.ok r' place) ∧
        (record = .ruleDefined name ∨ record = .ruleRedefined name) ∧
        Inserted r name options place r' := by
  unfold insert
  split
  · next place h =>
      split
      · exact .inr ⟨_, _, _, rfl, .inr rfl, inserted_replaced spec options h⟩
      · exact .inl ⟨mem_names_of_handle? h, rfl⟩
  · next h => exact .inr ⟨_, _, _, rfl, .inl rfl, inserted_added spec options h⟩

end Descent.Registry
