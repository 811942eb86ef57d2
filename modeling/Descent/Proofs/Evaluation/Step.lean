import Descent.Evaluation
import Descent.Proofs.Outcome

/-! The outcomes of single steps. Each function of the evaluation has an equation between outcomes,
which leaves the log out; later proofs use these and not the definitions. -/

namespace Descent

namespace Whitespace

variable {policy : Whitespace} {input source skipped : Text}

theorem suffix_of_skip (h : (policy.skip input source).outcome = .ok skipped) :
    skipped <:+ input := by
  cases policy with
  | keep =>
      cases h
      exact List.suffix_refl _
  | ignore =>
      cases h
      exact List.dropWhile_suffix _
  | ignoreSpecific chars =>
      cases h
      exact List.dropWhile_suffix _
  | require phrase trim =>
      simp only [skip, skipPhrase] at h
      split at h
      · split at h
        · next rest hr =>
            cases h
            have hs : rest <:+ input := ⟨phrase, (Text.after?_eq_some_iff.1 hr).symm⟩
            split
            · exact (List.dropWhile_suffix _).trans hs
            · exact hs
        · cases h
      · cases h
        exact List.suffix_refl _
  | custom f =>
      simp only [skip] at h
      split at h
      · next rest hr =>
          cases h
          obtain ⟨hs, rfl⟩ := Text.asSuffix?_eq_some_iff.1 hr
          exact hs
      · cases h
        exact List.suffix_refl _

/-- Only a phrase that is due and does not stand there is an error. -/
theorem error_of_skip {e : Error} (h : (policy.skip input source).outcome = .error e) :
    ∃ phrase trim, policy = .require phrase trim ∧ input.size < source.size ∧ input ≠ [] ∧
      ¬phrase <+: input ∧ e = .delimiter (source.offsetOf input) phrase := by
  cases policy with
  | keep => cases h
  | ignore => cases h
  | ignoreSpecific chars => cases h
  | require phrase trim =>
      simp only [skip, skipPhrase] at h
      split at h
      · next hb =>
          split at h
          · cases h
          · next hr =>
              cases h
              refine ⟨phrase, trim, rfl, hb.1, hb.2, ?_, rfl⟩
              rintro ⟨rest, hp⟩
              rw [Text.after?_eq_some_iff.2 hp.symm] at hr
              cases hr
      · cases h
  | custom f =>
      simp only [skip] at h
      split at h <;> cases h

theorem skip_ne_unfinished : (policy.skip input source).outcome ≠ .unfinished := by
  intro h
  cases policy with
  | keep => cases h
  | ignore => cases h
  | ignoreSpecific chars => cases h
  | require phrase trim =>
      simp only [skip, skipPhrase] at h
      split at h
      · split at h <;> cases h
      · cases h
  | custom f =>
      simp only [skip] at h
      split at h <;> cases h

end Whitespace

namespace Evaluation

variable {e : Evaluation} {call : Text → Text → Run Attempt}

theorem outcome_literal {text : Text} (h : text ≠ []) (input : Text) :
    (e.literal text input).outcome =
      (e.whitespace.skip input e.source).outcome.bind fun skipped =>
        match Text.after? text skipped with
        | some rest => .ok (some ⟨.leaf Token.literalType text, false⟩, rest)
        | none => .ok (none, input) := by
  rw [literal, if_neg h, Run.outcome_bind]
  congr 1
  funext skipped
  cases Text.after? text skipped <;> rfl

/-- A matching function ends with an attempt: never with an error, and never without an end. -/
theorem outcome_custom (matcher : Matcher) (input : Text) :
    (∃ token rest, matcher input = (some token, rest) ∧ rest <:+ input ∧
      (custom matcher input).outcome = .ok (some ⟨token, true⟩, rest)) ∨
    (custom matcher input).outcome = .ok (none, input) := by
  unfold custom
  split
  · next token rest hm =>
      cases hr : Text.asSuffix? input rest with
      | some r =>
          obtain ⟨hs, rfl⟩ := Text.asSuffix?_eq_some_iff.1 hr
          exact .inl ⟨token, rest, hm, hs, rfl⟩
      | none => exact .inr rfl
  · exact .inr rfl

theorem body_reference (name input : Text) :
    e.body call (.reference name) input = call name input := rfl

theorem body_alternation (branches : List Spec) (input : Text) :
    e.body call (.alternation branches) input = e.alternation call branches input := rfl

theorem sequence_nil (input : Text) : e.sequence call [] input = pure (some ([], input)) := rfl

theorem alternation_nil (input : Text) : e.alternation call [] input = pure (none, input) := rfl

theorem outcome_body_sequence (items : List Spec) (input : Text) :
    (e.body call (.sequence items) input).outcome =
      (e.sequence call items input).outcome.bind fun
        | some (tokens, rest) => .ok (some ⟨.node Token.sequenceType tokens, false⟩, rest)
        | none => .ok (none, input) := by
  rw [body, Run.outcome_bind]
  congr 1
  funext r
  cases r <;> rfl

theorem outcome_sequence_cons (item : Spec) (items : List Spec) (input : Text) :
    (e.sequence call (item :: items) input).outcome =
      (e.body call item input).outcome.bind fun
        | (some m, rest) => (e.sequence call items rest).outcome.bind fun
            | some (tokens, rest) => .ok (some (m.token :: tokens, rest))
            | none => .ok none
        | (none, _) => .ok none := by
  rw [sequence, Run.outcome_bind]
  congr 1
  funext ⟨m, rest⟩
  cases m with
  | some m =>
      rw [Run.outcome_bind]
      congr 1
      funext r
      cases r <;> rfl
  | none => rfl

theorem outcome_alternation_cons (branch : Spec) (branches : List Spec) (input : Text) :
    (e.alternation call (branch :: branches) input).outcome =
      (e.body call branch input).outcome.bind fun
        | (some m, rest) => .ok (some m, rest)
        | (none, _) => (e.alternation call branches input).outcome := by
  rw [alternation, Run.outcome_bind]
  congr 1
  funext ⟨m, rest⟩
  cases m <;> rfl

theorem outcome_apply (rule : Rule) (input : Text) :
    (e.apply call rule input).outcome =
      (e.start rule input).outcome.bind fun start =>
        (e.body call rule.spec start).outcome.bind fun
          | (some m, rest) => .ok (some ⟨m.typedAfter rule.name, true⟩, rest)
          | (none, _) => .ok (none, input) := by
  rw [apply, Run.outcome_bind]
  congr 1
  funext start
  rw [Run.outcome_bind]
  congr 1
  funext ⟨m, rest⟩
  cases m <;> rfl

theorem call_succ (n : Nat) (name input : Text) :
    e.call (n + 1) name input =
      match e.registry.lookup? name with
      | some rule => e.apply (e.call n) rule input
      | none => .error (.unresolvedReference name) := rfl

/-- Induction on the recursion of a step: `A` speaks of the branches of a choice and `S` of the
items of a sequence, whose later items are met with a rest that is not known beforehand. -/
@[elab_as_elim]
theorem step_induction {motive : Spec → Text → Prop} {A S : List Spec → Text → Prop}
    (literal : ∀ text input, motive (.literal text) input)
    (reference : ∀ name input, motive (.reference name) input)
    (sequence : ∀ items input, S items input → motive (.sequence items) input)
    (alternation : ∀ branches input, A branches input → motive (.alternation branches) input)
    (custom : ∀ matcher input, motive (.custom matcher) input)
    (noBranch : ∀ input, A [] input)
    (branch : ∀ b bs input, motive b input → A bs input → A (b :: bs) input)
    (noItem : ∀ input, S [] input)
    (item : ∀ i is input, motive i input → (∀ rest, S is rest) → S (i :: is) input)
    (s : Spec) (input : Text) : motive s input :=
  Evaluation.body.induct motive A S literal reference sequence alternation custom noBranch branch
    noItem item s input

/-- Where a rule starts is where the policy has skipped to, or where the rule was met. -/
theorem start_eq (e : Evaluation) (rule : Rule) (input : Text) :
    (∃ matcher, rule.spec = .custom matcher ∧ rule.whitespace = true ∧
      e.start rule input = e.whitespace.skip input e.source) ∨
    ((∀ matcher, rule.spec = .custom matcher → rule.whitespace = false) ∧
      e.start rule input = pure input) := by
  obtain ⟨name, spec, whitespace⟩ := rule
  cases spec with
  | custom matcher =>
      cases whitespace with
      | true => exact .inl ⟨matcher, rfl, rfl, rfl⟩
      | false => exact .inr ⟨fun _ _ => rfl, rfl⟩
  | literal | reference | sequence | alternation =>
      exact .inr ⟨fun _ h => (nomatch h), rfl⟩

/-- No whitespace is skipped before a rule, unless it asks for it and is a matching function. -/
theorem start_eq_pure {rule : Rule} {input : Text}
    (h : ∀ matcher, rule.spec = .custom matcher → rule.whitespace = false) :
    e.start rule input = pure input := by
  rcases start_eq e rule input with ⟨matcher, hspec, hwhitespace, -⟩ | ⟨-, hstart⟩
  · rw [h matcher hspec] at hwhitespace
    cases hwhitespace
  · exact hstart

end Evaluation

end Descent
