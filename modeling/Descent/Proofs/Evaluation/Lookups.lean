import Descent.Proofs.Evaluation.Fuel

/-! Two registries, one policy and one text. A registry is read only where an evaluation comes to a
name, so two evaluations take the same steps as long as they come to names that both registries
answer alike. Which names these are, and what may happen at a name without a rule, is left open:
the two registries may even be one. -/

namespace Descent

open Outcome (Related)

/-- Both registries answer the name: with one rule, whose names are followed too, or with none.
Where the first one has no rule for it, the name may also end the evaluation freely. -/
inductive Registry.Answer (free : Option Error → Prop) (errors : Error → Error → Prop)
    (followed : Text → Prop) (r r' : Registry) (name : Text) : Prop
  | rule {rule : Rule} : r.lookup? name = some rule → r'.lookup? name = some rule →
      (∀ other ∈ rule.spec.references, followed other) → Answer free errors followed r r' name
  | missing : r.lookup? name = none → r'.lookup? name = none →
      errors (.unresolvedReference name) (.unresolvedReference name) →
      Answer free errors followed r r' name
  | free : r.lookup? name = none → free (some (.unresolvedReference name)) →
      Answer free errors followed r r' name

namespace Evaluation

/-- An error of a policy blames the input. -/
theorem skipsOn_blamesInput (e : Evaluation) (base : Text) :
    e.SkipsOn (·.blamesInput = true) base := by
  refine skipsOn_of_errors fun input err _ herr => ?_
  obtain ⟨phrase, trim, -, -, -, -, rfl⟩ := Whitespace.error_of_skip herr
  exact rfl

section

variable {r r' : Registry} {policy : Whitespace} {source : Text}
variable {call call' : Text → Text → Run Attempt}
variable {free : Option Error → Prop} {errors : Error → Error → Prop} {followed : Text → Prop}
variable {tokens : Token → Token → Prop} {like : Match → Match → Prop}

/-- The followed names are answered alike, whatever text they are met with. -/
def CallsAnswered (free : Option Error → Prop) (errors : Error → Error → Prop)
    (like : Match → Match → Prop) (followed : Text → Prop)
    (call call' : Text → Text → Run Attempt) : Prop :=
  ∀ name, followed name → ∀ t,
    Related free errors (Alike like Eq) (call name t).outcome (call' name t).outcome

theorem atom_answered (herrors : ∀ err : Error, err.blamesInput = true → errors err err)
    (hlike : ∀ m, like m m) (hcall : CallsAnswered free errors like followed call call') {a : Spec}
    (ha : a.IsAtom) (hname : ∀ name, a = .reference name → followed name) :
    BodiesAlike (.mk r policy source) (.mk r' policy source) call call' free errors like Eq a a := by
  have hself : ∀ attempt, Alike like Eq attempt attempt := by
    rintro ⟨m, rest⟩
    cases m with
    | none => exact ⟨.none, rfl⟩
    | some m => exact ⟨.some (hlike m), rfl⟩
  rintro t _ rfl
  cases a with
  | literal text =>
      have h : Contract False (·.blamesInput = true) t
          ((Evaluation.mk r policy source).literal text t).outcome :=
        literal_contract (skipsOn_blamesInput _ t) text (List.suffix_refl t)
      exact Outcome.Ensures.related h herrors fun attempt _ => hself attempt
  | reference name => exact hcall name (hname name rfl) t
  | custom matcher =>
      have h : Contract False (·.blamesInput = true) t (custom matcher t).outcome :=
        custom_contract matcher t
      exact Outcome.Ensures.related h herrors fun attempt _ => hself attempt
  | sequence items => exact absurd ha id
  | alternation branches => exact absurd ha id

theorem body_answered (hc : Congruence tokens like)
    (herrors : ∀ err : Error, err.blamesInput = true → errors err err) (hlike : ∀ m, like m m)
    (hcall : CallsAnswered free errors like followed call call') {s : Spec}
    (hs : ∀ name ∈ s.references, followed name) :
    BodiesAlike (.mk r policy source) (.mk r' policy source) call call' free errors like Eq s s := by
  refine bodiesAlike_of_atoms hc s fun a ha hatom => ?_
  refine atom_answered herrors hlike hcall hatom ?_
  rintro name rfl
  exact hs name (Spec.mem_references_iff.2 ha)

theorem start_answered (herrors : ∀ err : Error, err.blamesInput = true → errors err err)
    (rule : Rule) (t : Text) :
    Related free errors Eq ((Evaluation.mk r policy source).start rule t).outcome
      ((Evaluation.mk r' policy source).start rule t).outcome :=
  Outcome.Ensures.related
    (start_contract (skipsOn_blamesInput (.mk r policy source) t) rule (List.suffix_refl t))
    herrors fun _ _ => rfl

theorem apply_answered (herrors : ∀ err : Error, err.blamesInput = true → errors err err)
    (hcall : CallsAnswered free errors Eq followed call call') {rule : Rule}
    (hrule : ∀ name ∈ rule.spec.references, followed name) (t : Text) :
    Related free errors (Alike Eq Eq) ((Evaluation.mk r policy source).apply call rule t).outcome
      ((Evaluation.mk r' policy source).apply call' rule t).outcome :=
  apply_alike congruence_eq rfl rfl (start_answered herrors rule t)
    (body_answered congruence_eq herrors (fun _ => rfl) hcall hrule)

/-- What one depth answers alike, the next one does, because a rule that is followed names only what
is followed. -/
theorem calls_answered (herrors : ∀ err : Error, err.blamesInput = true → errors err err)
    (hanswer : ∀ name, followed name → Registry.Answer free errors followed r r' name) (n : Nat) :
    CallsAnswered free errors Eq followed ((Evaluation.mk r policy source).call n)
      ((Evaluation.mk r' policy source).call n) := by
  induction n with
  | zero => exact fun _ _ _ => .unfinished
  | succ n ih =>
      intro name hname t
      rw [call_succ, call_succ]
      cases hanswer name hname with
      | rule h h' hrule =>
          rw [h, h']
          exact apply_answered herrors ih hrule t
      | missing h h' herror =>
          rw [h, h']
          exact .error herror
      | free h hfree =>
          rw [h]
          exact .freeError hfree

theorem rule_answered (herrors : ∀ err : Error, err.blamesInput = true → errors err err)
    (hanswer : ∀ name, followed name → Registry.Answer free errors followed r r' name)
    {rule : Rule} (hrule : ∀ name ∈ rule.spec.references, followed name) (input : Text) :
    Related free errors Eq ((Evaluation.mk r policy source).rule rule input).outcome
      ((Evaluation.mk r' policy source).rule rule input).outcome := by
  unfold Evaluation.rule
  -- The two depths may differ; at the greater one both evaluations are what they are at their own.
  rw [Run.outcome_bind, Run.outcome_bind,
    apply_depth_eq (List.suffix_refl input)
      (le_max_left _ ((Evaluation.mk r' policy source).depth input)),
    apply_depth_eq (List.suffix_refl input)
      (le_max_right ((Evaluation.mk r policy source).depth input) _)]
  refine (apply_answered herrors (calls_answered herrors hanswer _) hrule input).bind ?_
  rintro ⟨m, rest⟩ _ h
  obtain ⟨rfl, rfl⟩ := alike_eq_iff.1 h
  exact .ok rfl

end

end Evaluation

namespace Parser

variable {p q : Parser} {free : Option Error → Prop} {errors : Error → Error → Prop}
variable {options options' : ParseOptions} {rule rule' : Rule} {input : Text}

/-- Parses with the same demand on the rest do alike if the rules that they start from do. -/
theorem parse_of_rules {tokens : Token → Token → Prop}
    (hrest : options'.mayLeaveRest = options.mayLeaveRest)
    (herrors : ∀ err : Error, err.blamesInput = true → errors err err)
    (hp : p.registry.entry options.start = .ok rule)
    (hq : q.registry.entry options'.start = .ok rule')
    (h : Related free errors (fun a b => Option.Rel tokens a.1 b.1 ∧ a.2 = b.2)
      ((Evaluation.mk p.registry p.whitespace input).rule rule input).outcome
      ((Evaluation.mk q.registry q.whitespace input).rule rule' input).outcome) :
    Related free errors tokens (p.parse input options).outcome (q.parse input options').outcome := by
  rw [outcome_parse, outcome_parse, hp, hq]
  refine h.bind ?_
  rintro ⟨token, rest⟩ ⟨token', rest'⟩ ⟨htoken, rfl⟩
  cases htoken with
  | none => exact .error (herrors _ rfl)
  | some htoken =>
      dsimp only
      rw [hrest]
      split
      · exact .ok htoken
      · exact .error (herrors _ rfl)

/-- Parses from one rule, with one policy and with the same demand on the rest. -/
theorem parse_answered {followed : Text → Prop} (hpolicy : q.whitespace = p.whitespace)
    (hrest : options'.mayLeaveRest = options.mayLeaveRest)
    (herrors : ∀ err : Error, err.blamesInput = true → errors err err)
    (hanswer : ∀ name, followed name →
      Registry.Answer free errors followed p.registry q.registry name)
    (hp : p.registry.entry options.start = .ok rule)
    (hq : q.registry.entry options'.start = .ok rule)
    (hrule : ∀ name ∈ rule.spec.references, followed name) (input : Text) :
    Related free errors Eq (p.parse input options).outcome (q.parse input options').outcome := by
  refine parse_of_rules hrest herrors hp hq ?_
  rw [hpolicy]
  refine (Evaluation.rule_answered herrors hanswer hrule input).mono ?_
  rintro ⟨token, rest⟩ _ rfl
  cases token with
  | none => exact ⟨.none, rfl⟩
  | some token => exact ⟨.some rfl, rfl⟩

end Parser

end Descent
