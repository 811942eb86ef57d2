import Descent.Parser
import Descent.Proofs.Registry.Names

/-! What a parser is asked for from outside: registrations one by one, in blocks and as character
rules, and a start rule. A request that fails is answered with an error, and the next request is
made to the parser that it left. -/

namespace Descent

/-- The rule that a record of a registration names. -/
def Record.registered? : Record → Option Text
  | ruleDefined name | ruleRedefined name => some name
  | _ => none

/-- The names that were registered while a log was written. -/
def registeredNames (log : List Record) : List Text := log.filterMap Record.registered?

theorem registeredNames_append (first second : List Record) :
    registeredNames (first ++ second) = registeredNames first ++ registeredNames second :=
  List.filterMap_append

inductive Request where
  | define (name body : Text) (options : Registration)
  | register (name : Text) (spec : Spec) (options : Registration)
  | registerMatcher (name : Text) (matcher : Matcher) (options : Registration)
  | load (text : Text)
  | loadDelimited (text delimiter : Text)
  | loadCharacterRules (options : Registration)
  | startFrom (name : Text)

namespace Request

/-- The change that a request makes, whatever it answers. -/
def perform (p : Parser) : Request → Change Parser Unit
  | define name body options => (p.define name body options).map fun _ => ()
  | register name spec options => (p.register name spec options).map fun _ => ()
  | registerMatcher name matcher options => (p.registerMatcher name matcher options).map fun _ => ()
  | load text => (p.load text).map fun _ => ()
  | loadDelimited text delimiter => (p.loadDelimited text delimiter).map fun _ => ()
  | loadCharacterRules options => (p.loadCharacterRules options).map fun _ => ()
  | startFrom name => p.startFrom name

/-- Whether the request itself asks for a start rule. -/
def asksStart : Request → Bool
  | define _ _ options | register _ _ options | registerMatcher _ _ options => options.start
  | loadCharacterRules options => options.start
  | load _ | loadDelimited _ _ => false
  | startFrom _ => true

/-- The parser that is left by requests in turn. -/
def performAll (p : Parser) : List Request → Parser
  | [] => p
  | request :: requests => performAll (request.perform p).state requests

/-- The names that a request registers, other than as character rules. -/
def registersApart (p : Parser) : Request → List Text
  | loadCharacterRules _ => []
  | request => registeredNames (request.perform p).log

/-- The names that requests in turn register, other than as character rules. -/
def registeredApart (p : Parser) : List Request → List Text
  | [] => []
  | request :: requests =>
      request.registersApart p ++ registeredApart (request.perform p).state requests

theorem performAll_append (p : Parser) (requests more : List Request) :
    performAll p (requests ++ more) = performAll (performAll p requests) more := by
  induction requests generalizing p with
  | nil => rfl
  | cons request requests ih => exact ih _

end Request

namespace Parser

/-- A parser with more rules, with names from the list only. -/
structure Filled (p : Parser) (more : List Text) (q : Parser) : Prop where
  requested : q.requestedStart = p.requestedStart
  grows : p.registry.names <+: q.registry.names
  mem : ∀ name ∈ q.registry.names, name ∈ p.registry.names ∨ name ∈ more

theorem Filled.refl (p : Parser) (more : List Text) : Filled p more p :=
  ⟨rfl, List.prefix_refl _, fun _ => .inl⟩

theorem Filled.trans {p q q' : Parser} {more : List Text} (h : Filled p more q)
    (h' : Filled q more q') : Filled p more q' := by
  refine ⟨h'.requested.trans h.requested, h.grows.trans h'.grows, fun name hname => ?_⟩
  rcases h'.mem name hname with hname | hname
  · exact h.mem name hname
  · exact .inr hname

theorem Filled.mono {p q : Parser} {more more' : List Text} (h : Filled p more q)
    (hmore : ∀ name ∈ more, name ∈ more') : Filled p more' q :=
  ⟨h.requested, h.grows, fun name hname => (h.mem name hname).imp_right (hmore name)⟩

/-- A registration is refused, or it is carried out; a name that the settings ask for starts. -/
theorem register_cases (p : Parser) (name : Text) (spec : Spec) (options : Registration) :
    (name ∈ p.registry.names ∧
      p.register name spec options = .refused p (.duplicateRule name)) ∨
      ∃ record place r', p.register name spec options =
          .noting record (.ok { p with registry := r' } place) ∧
        (record = .ruleDefined name ∨ record = .ruleRedefined name) ∧
        Registry.Inserted p.registry name
          (if p.requestedStart = some name then { options with start := true } else options)
          place r' := by
  unfold register
  generalize (if p.requestedStart = some name then { options with start := true }
    else options) = options'
  rcases p.registry.insert_cases name spec options' with
    ⟨hname, h⟩ | ⟨record, place, r', h, hrecord, hinserted⟩
  · rw [h]
    exact .inl ⟨hname, rfl⟩
  · rw [h]
    exact .inr ⟨record, place, r', rfl, hrecord, hinserted⟩

/-- The functions that are registered have free names, so none is refused. -/
theorem registerMissing_filled (p : Parser) (options : Registration) (fs : List (Text × Matcher)) :
    ∃ count, (p.registerMissing options fs).result = .ok count ∧
      Filled p (fs.map Prod.fst) (p.registerMissing options fs).state := by
  induction fs generalizing p with
  | nil => exact ⟨0, rfl, .refl p _⟩
  | cons f fs ih =>
      obtain ⟨name, matcher⟩ := f
      rw [registerMissing]
      split
      · obtain ⟨count, hcount, hfilled⟩ := ih p
        exact ⟨count, hcount, hfilled.mono fun _ => List.mem_cons_of_mem _⟩
      · next hfree =>
          rcases p.register_cases name (.custom matcher) options with
            ⟨hname, -⟩ | ⟨record, place, r', h, -, hinserted⟩
          -- Only a taken name is refused.
          · exact absurd (Registry.contains_iff.2 hname) hfree
          · obtain ⟨count, hcount, hfilled⟩ := ih { p with registry := r' }
            have hfirst : Filled p (name :: fs.map Prod.fst) { p with registry := r' } := by
              refine ⟨rfl, hinserted.grows, fun other hother => ?_⟩
              rcases hinserted.mem other hother with hother | rfl
              · exact .inl hother
              · exact .inr List.mem_cons_self
            rw [registerMatcher, h]
            exact ⟨count + 1, congrArg (Except.map (· + 1)) hcount,
              hfirst.trans (hfilled.mono fun _ => List.mem_cons_of_mem _)⟩

/-- Loading the character rules leaves the start rule, unless the options ask for one. -/
theorem loadCharacterRules_filled (p : Parser) {options : Registration}
    (hstart : options.start = false) :
    Filled p (CharacterRule.all.map Prod.fst) (p.loadCharacterRules options).state ∧
      (p.loadCharacterRules options).state.registry.start = p.registry.start := by
  obtain ⟨count, hcount, hfilled⟩ := p.registerMissing_filled options CharacterRule.all
  have hstate : (p.loadCharacterRules options).state =
      { (p.registerMissing options CharacterRule.all).state with
        registry := (p.registerMissing options CharacterRule.all).state.registry.withStart
          p.registry.start } := by
    rw [loadCharacterRules, Change.andThen, hcount, hstart]
    rfl
  rw [hstate]
  exact ⟨⟨hfilled.requested, hfilled.grows, hfilled.mem⟩, rfl⟩

end Parser

end Descent
