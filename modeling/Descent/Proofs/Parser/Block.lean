import Mathlib
import Descent.Proofs.Grammar.Entries
import Descent.Proofs.Parser.Requests
import Descent.Proofs.Registry.Insertion

/-! Blocks as a whole. The names of a compiled block are different, and before the first of its rules
is registered none of them is taken; so no registration of the block is refused, and its rules are
appended in order. A request that is answered with an error leaves the parser as it was. -/

namespace Descent

open Grammar (Fresh fresh_cons_iff fresh_congr)

/-- The rule that a definition of a block makes. -/
def Definition.rule (d : Definition) : Rule := ⟨d.name, d.spec, false⟩

namespace Parser

variable {p : Parser} {name : Text} {spec : Spec} {options : Registration} {ds : List Definition}

/-- The rules stand behind those that were there; only the start rule may have changed besides. -/
structure Appended (p : Parser) (rules : List Rule) (q : Parser) : Prop where
  rules : q.registry.rules = p.registry.rules ++ rules
  whitespace : q.whitespace = p.whitespace
  requested : q.requestedStart = p.requestedStart

theorem Appended.names {q : Parser} {rules : List Rule} (h : Appended p rules q) :
    q.registry.names = p.registry.names ++ rules.map (·.name) := by
  rw [Registry.names, h.rules, List.map_append]
  rfl

theorem Appended.lookup? {q : Parser} {rules : List Rule} (h : Appended p rules q) (name : Text) :
    q.registry.lookup? name =
      (p.registry.lookup? name).or (rules.find? (·.name = name)) := by
  rw [Registry.lookup?_eq_find?, Registry.lookup?_eq_find?, h.rules, List.find?_append]

theorem Appended.size {q : Parser} {rules : List Rule} (h : Appended p rules q) :
    q.registry.size = p.registry.size + rules.length := by
  rw [Registry.size, h.rules, List.length_append]
  rfl

/-- The table of names keeps the handles that it had. -/
theorem Appended.handle?_of_handle? {q : Parser} {rules : List Rule} {place : Nat}
    (h : Appended p rules q) (hplace : p.registry.handle? name = some place) :
    q.registry.handle? name = some place := by
  refine Registry.handle?_mono ?_ hplace
  rw [h.names]
  exact List.prefix_append _ _

/-- Free and different names have the handles that follow. -/
theorem Appended.handle?_of_fresh {q : Parser} {d : Definition} {place : Nat}
    (h : Appended p (ds.map Definition.rule) q) (hfresh : Fresh p.registry.names ds)
    (hd : ds[place]? = some d) : q.registry.handle? d.name = some (p.registry.size + place) := by
  have hnames : (ds.map (·.name)).findIdx? (· = d.name) = some place :=
    Registry.findIdx?_of_nodup hfresh.nodup (by rw [List.getElem?_map, hd, Option.map_some])
  have hfree : p.registry.names.findIdx? (· = d.name) = none :=
    (Registry.handle?_eq_findIdx? ..).symm.trans
      (Registry.handle?_eq_none_iff.2 (hfresh.free d (List.mem_of_getElem? hd)))
  rw [Registry.handle?_eq_findIdx?, h.names, List.findIdx?_append, hfree, List.map_map]
  show ((ds.map (·.name)).findIdx? (· = d.name)).map (· + p.registry.names.length) = _
  rw [hnames, Registry.names, List.length_map, Option.map_some, Nat.add_comm]
  rfl

theorem Appended.trans {q q' : Parser} {rules rules' : List Rule} (h : Appended p rules q)
    (h' : Appended q rules' q') : Appended p (rules ++ rules') q' where
  rules := by rw [h'.rules, h.rules, List.append_assoc]
  whitespace := h'.whitespace.trans h.whitespace
  requested := h'.requested.trans h.requested

/-- Behind one more rule the name of that rule is taken too. -/
theorem Appended.fresh_iff {q : Parser} {rule : Rule} (h : Appended p [rule] q) :
    Fresh q.registry.names ds ↔ Fresh (rule.name :: p.registry.names) ds := by
  refine fresh_congr (fun other => ?_) ds
  rw [h.names, List.mem_append, List.mem_cons, or_comm]
  exact or_congr_left List.mem_singleton

theorem register_of_notMem (h : name ∉ p.registry.names) (spec : Spec) (options : Registration) :
    ∃ q, p.register name spec options =
        .noting (.ruleDefined name) (.ok q p.registry.size) ∧
      Appended p [⟨name, spec, options.whitespace⟩] q := by
  unfold register
  rw [Registry.insert_of_notMem h]
  refine ⟨_, rfl, ⟨?_, rfl, rfl⟩⟩
  split <;> rfl

theorem register_of_mem (h : name ∈ p.registry.names) (spec : Spec)
    (hreplace : options.replace = false) :
    p.register name spec options = .refused p (.duplicateRule name) := by
  unfold register
  rw [Registry.insert_of_mem h]
  · rfl
  · split
    · exact hreplace
    · exact hreplace

/-- Definitions of free and different names are all registered, one behind the other. -/
theorem registerAll_of_fresh (h : Fresh p.registry.names ds) :
    (p.registerAll ds).result = .ok (List.range' p.registry.size ds.length) ∧
      Appended p (ds.map Definition.rule) (p.registerAll ds).state := by
  induction ds generalizing p with
  | nil => exact ⟨rfl, (List.append_nil _).symm, rfl, rfl⟩
  | cons d ds ih =>
      obtain ⟨hname, hds⟩ := fresh_cons_iff.1 h
      obtain ⟨q, hq, happended⟩ := register_of_notMem hname d.spec {}
      obtain ⟨hresult, hstate⟩ := ih (happended.fresh_iff.2 hds)
      rw [registerAll, hq]
      refine ⟨?_, happended.trans hstate⟩
      show (q.registerAll ds).result.map (p.registry.size :: ·) = _
      rw [hresult, happended.size]
      rfl

/-- A definition of a taken name is refused, so what is registered had free and different names. -/
theorem fresh_of_registerAll {handles : List Nat} (h : (p.registerAll ds).result = .ok handles) :
    Fresh p.registry.names ds := by
  induction ds generalizing p handles with
  | nil => exact Grammar.fresh_nil _
  | cons d ds ih =>
      rw [registerAll] at h
      by_cases hname : d.name ∈ p.registry.names
      · rw [register_of_mem hname d.spec rfl] at h
        cases h
      · obtain ⟨q, hq, happended⟩ := register_of_notMem hname d.spec {}
        rw [hq] at h
        obtain ⟨rest, hrest, -⟩ := Except.map_eq_ok_iff.1 h
        exact fresh_cons_iff.2 ⟨hname, happended.fresh_iff.1 (ih hrest)⟩

/-- A block is registered as a whole: its rules stand in order behind those that were there, with the
handles that follow, and the table of names has these handles beside those that it had; and where
none of its names is taken, no registration on the way is refused. -/
structure RegistersWhole (p : Parser) (block : Except Error (List Definition))
    (x : Change Parser (List Nat)) : Prop where
  appended : ∀ handles, x.result = .ok handles → ∃ ds, block = .ok ds ∧
    handles = List.range' p.registry.size ds.length ∧
    Appended p (ds.map Definition.rule) x.state ∧
    (∀ place d, ds[place]? = some d →
      x.state.registry.handle? d.name = some (p.registry.size + place)) ∧
    ∀ name place, p.registry.handle? name = some place →
      x.state.registry.handle? name = some place
  accepted : ∀ ds, block = .ok ds → (∀ d ∈ ds, p.registry.contains d.name = false) →
    ∃ handles, (p.registerAll ds).result = .ok handles ∧ x.result = .ok handles

theorem find?_eq_none_iff : ds.find? (p.registry.contains ·.name) = none ↔
    ∀ d ∈ ds, d.name ∉ p.registry.names := by
  rw [List.find?_eq_none]
  exact forall₂_congr fun d _ => not_congr Registry.contains_iff

/-- What loading a block does: nothing, for an error, or all that was asked for. -/
theorem loadCompiled_cases {block : Except Error (List Definition)}
    (h : ∀ ds, block = .ok ds → (ds.map (·.name)).Nodup) :
    (∃ err, (p.loadCompiled block).result = .error err ∧ (p.loadCompiled block).state = p) ∨
    ∃ ds, block = .ok ds ∧ Fresh p.registry.names ds ∧
      (p.loadCompiled block).result = (p.registerAll ds).result ∧
      (p.loadCompiled block).state = (p.registerAll ds).state := by
  cases block with
  | error err => exact .inl ⟨err, rfl, rfl⟩
  | ok ds =>
      rw [loadCompiled, registerTogether]
      cases hfind : ds.find? (p.registry.contains ·.name) with
      | some d => exact .inl ⟨_, rfl, rfl⟩
      | none => exact .inr ⟨ds, rfl, ⟨h ds rfl, find?_eq_none_iff.1 hfind⟩, rfl, rfl⟩

theorem registersWhole_loadCompiled {block : Except Error (List Definition)}
    (h : ∀ ds, block = .ok ds → (ds.map (·.name)).Nodup) :
    RegistersWhole p block (p.loadCompiled block) where
  appended handles hhandles := by
    rcases loadCompiled_cases h with ⟨err, herr, -⟩ | ⟨ds, hds, hfresh, hresult, hstate⟩
    · rw [herr] at hhandles
      cases hhandles
    · obtain ⟨hall, happended⟩ := registerAll_of_fresh hfresh
      rw [hresult, hall] at hhandles
      rw [hstate]
      exact ⟨ds, hds, (Except.ok.inj hhandles).symm, happended,
        fun _ _ => happended.handle?_of_fresh hfresh, fun _ _ => happended.handle?_of_handle?⟩
  accepted ds hds hfree := by
    subst hds
    have hfree' : ∀ d ∈ ds, d.name ∉ p.registry.names := by
      intro d hd hname
      have htaken := hfree d hd
      rw [Registry.contains_iff.2 hname] at htaken
      cases htaken
    obtain ⟨hall, -⟩ := registerAll_of_fresh (p := p) ⟨h ds rfl, hfree'⟩
    refine ⟨_, hall, ?_⟩
    rw [loadCompiled, registerTogether, find?_eq_none_iff.2 hfree']
    exact hall

theorem state_loadCompiled_of_error {block : Except Error (List Definition)} {err : Error}
    (h : ∀ ds, block = .ok ds → (ds.map (·.name)).Nodup)
    (herr : (p.loadCompiled block).result = .error err) : (p.loadCompiled block).state = p := by
  rcases loadCompiled_cases h with ⟨_, -, hstate⟩ | ⟨ds, -, hfresh, hresult, -⟩
  · exact hstate
  · rw [hresult, (registerAll_of_fresh hfresh).1] at herr
    cases herr

theorem state_register_of_error {err : Error}
    (h : (p.register name spec options).result = .error err) :
    (p.register name spec options).state = p := by
  rcases p.register_cases name spec options with ⟨-, hrefused⟩ | ⟨_, _, _, hdone, -⟩
  · rw [hrefused]
    rfl
  · rw [hdone] at h
    cases h

theorem state_define_of_error {body : Text} {err : Error}
    (h : (p.define name body options).result = .error err) :
    (p.define name body options).state = p := by
  unfold define at h ⊢
  by_cases hname : Grammar.isRuleName name = true
  · rw [if_pos hname] at h ⊢
    cases hbody : Grammar.compileBody body with
    | error cause => rfl
    | ok spec =>
        rw [hbody] at h
        exact state_register_of_error h
  · rw [if_neg hname]
    rfl

theorem state_startFrom_of_error {err : Error} (h : (p.startFrom name).result = .error err) :
    (p.startFrom name).state = p := by
  unfold startFrom Registry.startFrom at h ⊢
  cases hplace : p.registry.handle? name with
  | none => rfl
  | some place =>
      rw [hplace] at h
      cases h

theorem loadCharacterRules_succeeds (p : Parser) (options : Registration) :
    ∃ count, (p.loadCharacterRules options).result = .ok count := by
  obtain ⟨count, hcount, -⟩ := p.registerMissing_filled options CharacterRule.all
  refine ⟨count, ?_⟩
  rw [loadCharacterRules, Change.andThen, hcount]
  rfl

end Parser

namespace Grammar

theorem nodup_of_compileEntries {sources : List Text} {ds : List Definition}
    (h : compileEntries 1 [] sources = .ok ds) : (ds.map (·.name)).Nodup :=
  (compileEntries_eq_ok_iff.1 h).2.nodup

end Grammar

namespace Request

open Descent.Parser

theorem state_perform_of_error {p : Parser} {request : Request} {err : Error}
    (h : (request.perform p).result = .error err) : (request.perform p).state = p := by
  cases request with
  | define name body options => exact state_define_of_error (Except.map_eq_error_iff.1 h)
  | register name spec options => exact state_register_of_error (Except.map_eq_error_iff.1 h)
  | registerMatcher name matcher options =>
      exact state_register_of_error (Except.map_eq_error_iff.1 h)
  | load text =>
      exact state_loadCompiled_of_error (fun _ => Grammar.nodup_of_compileEntries)
        (Except.map_eq_error_iff.1 h)
  | loadDelimited text delimiter =>
      exact state_loadCompiled_of_error (fun _ => Grammar.nodup_of_compileEntries)
        (Except.map_eq_error_iff.1 h)
  | loadCharacterRules options =>
      obtain ⟨count, hcount⟩ := p.loadCharacterRules_succeeds options
      rw [Except.map_eq_error_iff.1 h] at hcount
      cases hcount
  | startFrom name => exact state_startFrom_of_error h

end Request

namespace Parser

/-- A request that is answered with an error leaves the parser as it was, whatever its state. A block
is registered as a whole or not at all, and loading the character rules is never refused. -/
theorem requests_atomic (p : Parser) :
    (∀ request err, (Request.perform p request).result = .error err →
      (Request.perform p request).state = p) ∧
    (∀ text, RegistersWhole p (Grammar.compile text) (p.load text)) ∧
    (∀ text delimiter,
      RegistersWhole p (Grammar.compileDelimited text delimiter) (p.loadDelimited text delimiter)) ∧
    ∀ options, ∃ count, (p.loadCharacterRules options).result = .ok count := by
  refine ⟨fun _ _ => Request.state_perform_of_error, fun text => ?_, fun text delimiter => ?_,
    p.loadCharacterRules_succeeds⟩
  · exact registersWhole_loadCompiled fun _ => Grammar.nodup_of_compileEntries
  · exact registersWhole_loadCompiled fun _ => Grammar.nodup_of_compileEntries

/-- The second rule of the first block has a taken name, so its first rule is not registered either.
The rule of the second block is appended. -/
theorem requests_atomic_taken_name :
    let p : Parser := { registry := .ofRules [⟨['b'], .literal ['b'], false⟩] (some 0) }
    (Request.perform p (.load "a := 'a'\nb := 'x'".toList)).result =
        .error (.duplicateRule ['b']) ∧
      (Request.perform p (.load "a := 'a'\nb := 'x'".toList)).state = p ∧
      Appended p [⟨['a'], .literal ['x'], false⟩] (p.load "a := 'x'".toList).state ∧
      (p.load "a := 'x'".toList).state.registry.handle? ['a'] = some 1 := by
  intro p
  have herr : (Request.perform p (.load "a := 'a'\nb := 'x'".toList)).result =
      .error (.duplicateRule ['b']) := by cbv
  refine ⟨herr, (requests_atomic p).1 _ _ herr, ?_⟩
  have hcompile : Grammar.compile "a := 'x'".toList = .ok [⟨['a'], .literal ['x'], 1⟩] := by cbv
  obtain ⟨ds, hds, -, happended, hhandles, -⟩ :=
    ((requests_atomic p).2.1 "a := 'x'".toList).appended [1] (by cbv)
  cases hds.symm.trans hcompile
  exact ⟨happended, hhandles 0 _ rfl⟩

end Parser

end Descent
