import Descent.Proofs.Evaluation.Contract
import Descent.Proofs.Evaluation.Simulation

/-! Two evaluations of the same rules. The policy and the source are used for skipping and for nothing
else, so two evaluations that skip alike on the ends of a text take the same steps there, at every
depth. What may differ is left open: the errors that the policies end with, and whether the first
evaluation may end early. -/

namespace Descent.Evaluation

open Outcome (Related)

/-- The same end of `base`. -/
def Same (base t t' : Text) : Prop := t = t' ∧ t <:+ base

theorem Agree.eq {base : Text} {a b : Attempt} (h : Agree (Same base) a b) : a = b :=
  Prod.ext h.1 h.2.1

variable {e e' : Evaluation} {free : Option Error → Prop} {errors : Error → Error → Prop}
variable {base t : Text}

/-- On the ends of `base` the first evaluation skips what the second one skips, or both end with an
error, or the first one ends freely. -/
def SkipsAlike (e e' : Evaluation) (free : Option Error → Prop) (errors : Error → Error → Prop)
    (base : Text) : Prop :=
  ∀ t, t <:+ base → Related free errors (Same base) (e.whitespace.skip t e.source).outcome
    (e'.whitespace.skip t e'.source).outcome

theorem skipsAlike_self (e : Evaluation) (free : Option Error → Prop) (base : Text) :
    SkipsAlike e e free Eq base := by
  refine fun t ht => Related.refl (fun _ => rfl) _ fun skipped hskip => ?_
  exact ⟨rfl, (Whitespace.suffix_of_skip hskip).trans ht⟩

/-- On the ends of `base` all names are answered alike. -/
def NamesAlike (free : Option Error → Prop) (errors : Error → Error → Prop) (base : Text)
    (call call' : Text → Text → Run Attempt) : Prop :=
  ∀ name t, t <:+ base →
    Related free errors (Agree (Same base)) (call name t).outcome (call' name t).outcome

theorem literal_of_skips (hskip : SkipsAlike e e' free errors base) (text : Text)
    (ht : t <:+ base) :
    Related free errors (Agree (Same base)) (e.literal text t).outcome
      (e'.literal text t).outcome := by
  by_cases htext : text = []
  · subst htext
    exact .ok ⟨rfl, rfl, ht⟩
  · rw [outcome_literal htext, outcome_literal htext]
    refine (hskip t ht).bind ?_
    rintro skipped _ ⟨rfl, hs⟩
    cases hr : Text.after? text skipped with
    | none => exact .ok ⟨rfl, rfl, ht⟩
    | some rest =>
        have hrest : rest <:+ skipped := ⟨text, (Text.after?_eq_some_iff.1 hr).symm⟩
        exact .ok ⟨rfl, rfl, hrest.trans hs⟩

/-- A matching function is given the input alone. -/
theorem custom_alike (matcher : Matcher) (ht : t <:+ base) :
    Related free errors (Agree (Same base)) (custom matcher t).outcome
      (custom matcher t).outcome := by
  rcases outcome_custom matcher t with ⟨token, rest, -, hrest, h⟩ | h
  · rw [h]
    exact .ok ⟨rfl, rfl, hrest.trans ht⟩
  · rw [h]
    exact .ok ⟨rfl, rfl, ht⟩

theorem start_of_skips (hskip : SkipsAlike e e' free errors base) (rule : Rule) (ht : t <:+ base) :
    Related free errors (Same base) (e.start rule t).outcome (e'.start rule t).outcome := by
  have hsame : Related free errors (Same base) (.ok t) (.ok t) := .ok ⟨rfl, ht⟩
  unfold start
  split
  · split
    · exact hskip t ht
    · exact hsame
  · exact hsame

section

variable {call call' : Text → Text → Run Attempt}

theorem atoms_of_skips (hskip : SkipsAlike e e' free errors base)
    (hcall : NamesAlike free errors base call call') (parts : List Spec) :
    AtomsRelated e e' call call' free errors (Same base) parts := by
  rintro a - ha t _ ⟨rfl, ht⟩
  cases a with
  | literal text => exact literal_of_skips hskip text ht
  | reference name => exact hcall name t ht
  | custom matcher => exact custom_alike matcher ht
  | sequence items => exact absurd ha id
  | alternation branches => exact absurd ha id

theorem apply_of_skips (hskip : SkipsAlike e e' free errors base)
    (hcall : NamesAlike free errors base call call') (rule : Rule) (ht : t <:+ base) :
    Related free errors (Agree (Same base)) (e.apply call rule t).outcome
      (e'.apply call' rule t).outcome :=
  apply_related ⟨rfl, ht⟩ (start_of_skips hskip rule ht) (atoms_of_skips hskip hcall _)

end

section

variable (hskip : SkipsAlike e e' free errors base) (hrules : e'.registry = e.registry)
  (hname : ∀ name, errors (.unresolvedReference name) (.unresolvedReference name))
include hskip hrules hname

/-- At each depth the names of the two evaluations are compared; where the fuel runs out for the one
it runs out for the other. -/
theorem calls_of_skips (n : Nat) : NamesAlike free errors base (e.call n) (e'.call n) := by
  induction n with
  | zero => exact fun _ _ _ => .unfinished
  | succ n ih =>
      intro name t ht
      rw [call_succ, call_succ, hrules]
      cases e.registry.lookup? name with
      | none => exact .error (hname name)
      | some rule => exact apply_of_skips hskip ih rule ht

theorem rule_of_skips (rule : Rule) (ht : t <:+ base) :
    Related free errors Eq (e.rule rule t).outcome (e'.rule rule t).outcome := by
  unfold Evaluation.rule depth
  rw [Run.outcome_bind, Run.outcome_bind, hrules]
  refine (apply_of_skips hskip (calls_of_skips hskip hrules hname _) rule ht).bind ?_
  intro step step' hstep
  exact .ok (congrArg strip hstep.eq)

theorem spec_of_skips (s : Spec) (ht : t <:+ base) :
    Related free errors Eq (e.spec s t).outcome (e'.spec s t).outcome := by
  unfold Evaluation.spec depth
  rw [Run.outcome_bind, Run.outcome_bind, hrules]
  have hcalls := calls_of_skips hskip hrules hname (e.registry.size * (t.length + 1) + 1)
  refine (body_related s t (atoms_of_skips hskip hcalls _) t ⟨rfl, ht⟩).bind ?_
  intro step step' hstep
  exact .ok (congrArg strip hstep.eq)

end

end Descent.Evaluation
