import Descent.Proofs.Evaluation.Lookups
import Descent.Proofs.Registry.History

/-! Additions to the rules. A new rule shows itself only where an evaluation looks up its name, and
there the evaluation without the rule has ended with an error. So a parse that comes to anything
else comes to the same with more rules. -/

namespace Descent

open Outcome (Related)

/-- The evaluation ended at a name without a rule. -/
def Error.Unresolved (stopped : Option Error) : Prop :=
  ∃ name, stopped = some (.unresolvedReference name)

/-- An outcome that is no such end is kept. -/
theorem Outcome.eq_of_related_unresolved {α : Type} {x y : Outcome α}
    (h : Related Error.Unresolved Eq Eq x y) (hx : ∀ name, x ≠ .error (.unresolvedReference name)) :
    y = x := by
  rcases h.eq_or_free id with h | ⟨-, name, h⟩ | ⟨err, herr, name, h⟩
  · exact h
  · cases h
  · cases h
    exact absurd herr (hx name)

namespace Registry

variable {r r' : Registry}

/-- What a name stands for in the first registry it stands for in the second one too. -/
def Extends (r r' : Registry) : Prop :=
  ∀ name rule, r.lookup? name = some rule → r'.lookup? name = some rule

theorem Extends.answer (h : Extends r r') (name : Text) :
    Answer Error.Unresolved Eq (fun _ => True) r r' name := by
  cases hlookup : r.lookup? name with
  | none => exact .free hlookup ⟨name, rfl⟩
  | some rule => exact .rule hlookup (h name rule hlookup) fun _ _ => trivial

theorem extends_performAll {ops : List Operation}
    (h : ∀ rule ∈ Operation.history r ops, rule.name ∉ r.names) :
    Extends r (Operation.performAll r ops) := by
  intro name rule hlookup
  have hname : name ∈ r.names := by
    by_contra hfree
    rw [lookup?_eq_none_iff.2 hfree] at hlookup
    cases hlookup
  rw [lookup?_performAll fun added hadded heq => h added hadded (heq ▸ hname)]
  exact hlookup

/-- After any operations that register only names which were free, every name that stood for a rule
stands for it still, and a rule that is evaluated, or parsed from, comes to what it came to before,
unless it came to a name without a rule then. -/
theorem additions_keep_resolved {ops : List Operation}
    (hnew : ∀ rule ∈ Operation.history r ops, rule.name ∉ r.names) :
    (∀ name rule, r.lookup? name = some rule →
      (Operation.performAll r ops).lookup? name = some rule) ∧
    (∀ policy source rule input,
      (∀ name, ((Evaluation.mk r policy source).rule rule input).outcome ≠
        .error (.unresolvedReference name)) →
      ((Evaluation.mk (Operation.performAll r ops) policy source).rule rule input).outcome =
        ((Evaluation.mk r policy source).rule rule input).outcome) ∧
    ∀ policy requestedStart (options options' : ParseOptions) rule input,
      options'.mayLeaveRest = options.mayLeaveRest →
      r.entry options.start = .ok rule →
      (Operation.performAll r ops).entry options'.start = .ok rule →
      (∀ name, ((Parser.mk r policy requestedStart).parse input options).outcome ≠
        .error (.unresolvedReference name)) →
      ((Parser.mk (Operation.performAll r ops) policy requestedStart).parse input
          options').outcome =
        ((Parser.mk r policy requestedStart).parse input options).outcome := by
  have hextends := extends_performAll hnew
  have herrors : ∀ err : Error, err.blamesInput = true → err = err := fun _ _ => rfl
  have hanswer : ∀ name, True → Answer Error.Unresolved Eq (fun _ => True) r
      (Operation.performAll r ops) name := fun name _ => hextends.answer name
  refine ⟨hextends, fun policy source rule input hresolved => ?_, ?_⟩
  · have hrule : Related Error.Unresolved Eq Eq
        ((Evaluation.mk r policy source).rule rule input).outcome
        ((Evaluation.mk (Operation.performAll r ops) policy source).rule rule input).outcome :=
      Evaluation.rule_answered herrors hanswer (fun _ _ => trivial) input
    exact Outcome.eq_of_related_unresolved hrule hresolved
  · intro policy requestedStart options options' rule input hrest hentry hentry' hresolved
    have hparse := Parser.parse_answered (p := .mk r policy requestedStart)
      (q := .mk (Operation.performAll r ops) policy requestedStart) rfl hrest herrors hanswer
      hentry hentry' (fun _ _ => trivial) input
    exact Outcome.eq_of_related_unresolved hparse hresolved

/-- A letter with two characters behind it, the last of which is a digit, or the letter alone. -/
def letterOrMore : Registry :=
  .ofRules [⟨['w'], .alternation
    [.sequence [.literal ['x'], .literal ['y'], .reference "digit".toList], .literal ['x']],
    false⟩] (some 0)

/-- The letter alone is parsed without a look at the digit, and so it is when digits are known. The
longer text needs them. -/
theorem additions_keep_resolved_letter :
    let ops := [Operation.loadCharacterRules .keep none {}]
    (∀ rule ∈ Operation.history letterOrMore ops, rule.name ∉ letterOrMore.names) ∧
    (∀ name, ((Parser.mk letterOrMore .keep none).parse ['x'] {}).outcome ≠
      .error (.unresolvedReference name)) ∧
    ((Parser.mk (Operation.performAll letterOrMore ops) .keep none).parse ['x'] {}).outcome =
      .ok (.leaf ['w'] ['x']) ∧
    ((Parser.mk letterOrMore .keep none).parse "xy1".toList {}).outcome =
      .error (.unresolvedReference "digit".toList) := by
  intro ops
  have hnames : (Operation.history letterOrMore ops).map (·.name) =
      CharacterRule.all.map Prod.fst := by cbv
  have hnew : ∀ rule ∈ Operation.history letterOrMore ops, rule.name ∉ letterOrMore.names := by
    intro rule hrule hname
    have hmem : rule.name ∈ CharacterRule.all.map Prod.fst :=
      hnames ▸ List.mem_map.2 ⟨rule, hrule, rfl⟩
    rw [List.mem_singleton.1 hname] at hmem
    exact absurd hmem (by decide +kernel)
  have hletter : ((Parser.mk letterOrMore .keep none).parse ['x'] {}).outcome =
      .ok (.leaf ['w'] ['x']) := by cbv
  have hresolved : ∀ name, ((Parser.mk letterOrMore .keep none).parse ['x'] {}).outcome ≠
      .error (.unresolvedReference name) := by
    intro name h
    rw [hletter] at h
    cases h
  obtain ⟨-, -, hparse⟩ := additions_keep_resolved hnew
  have hsame := hparse .keep none {} {} _ ['x'] rfl rfl (by cbv) hresolved
  exact ⟨hnew, hresolved, hsame.trans hletter, by cbv⟩

end Registry

end Descent
