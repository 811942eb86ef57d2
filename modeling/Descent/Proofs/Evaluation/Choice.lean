import Mathlib
import Descent.Proofs.Evaluation.Simulation

/-! Bodies that may stand for each other. A choice inside a choice and a sequence inside a sequence
may be written out, and what all branches of a choice begin with may stand before the choice. A
common beginning is evaluated once for each branch that is tried, and it comes to the same each
time. What the branches end with may not be moved behind the choice, for a choice that has been made
is not taken back. -/

namespace Descent

open Outcome (Related)

namespace Token

theorem values_append (ts us : List Token) : values (ts ++ us) = values ts ++ values us := by
  rw [values_eq_flatMap, values_eq_flatMap, values_eq_flatMap, List.flatMap_append]

/-- The same type and the same text in all. -/
structure SameValue (t u : Token) : Prop where
  type : t.type = u.type
  value : t.value = u.value

end Token

namespace Evaluation

section

variable {e : Evaluation} {call : Text → Text → Run Attempt}

/-- A match stands, and after a failure something else is tried. -/
def orElse (next : Outcome Attempt) : Attempt → Outcome Attempt
  | (some m, rest) => .ok (some m, rest)
  | (none, _) => next

/-- Tokens with others behind them, which are found in the rest; a failure stands. -/
def andThen (next : Text → Outcome (Option (List Token × Text))) :
    Option (List Token × Text) → Outcome (Option (List Token × Text))
  | some (tokens, rest) => (next rest).bind fun r =>
      .ok (r.map fun (more, rest) => (tokens ++ more, rest))
  | none => .ok none

theorem outcome_alternation_append (xs ys : List Spec) (input : Text) :
    (e.alternation call (xs ++ ys) input).outcome =
      (e.alternation call xs input).outcome.bind
        (orElse (e.alternation call ys input).outcome) := by
  induction xs with
  | nil => rfl
  | cons x xs ih =>
      rw [List.cons_append, outcome_alternation_cons, outcome_alternation_cons, Outcome.bind_assoc]
      refine Outcome.bind_congr fun a _ => ?_
      obtain ⟨m, rest⟩ := a
      cases m with
      | some m => rfl
      | none => exact ih

theorem outcome_sequence_append (xs ys : List Spec) (input : Text) :
    (e.sequence call (xs ++ ys) input).outcome =
      (e.sequence call xs input).outcome.bind
        (andThen fun rest => (e.sequence call ys rest).outcome) := by
  induction xs generalizing input with
  | nil =>
      show (e.sequence call ys input).outcome =
        (e.sequence call ys input).outcome.bind fun r => .ok (r.map fun (more, rest) => (more, rest))
      cases (e.sequence call ys input).outcome with
      | unfinished => rfl
      | error err => rfl
      | ok r => cases r <;> rfl
  | cons x xs ih =>
      rw [List.cons_append, outcome_sequence_cons, outcome_sequence_cons, Outcome.bind_assoc]
      refine Outcome.bind_congr fun a _ => ?_
      obtain ⟨m, mid⟩ := a
      cases m with
      | none => rfl
      | some m =>
          dsimp only
          rw [ih, Outcome.bind_assoc, Outcome.bind_assoc]
          refine Outcome.bind_congr fun r _ => ?_
          cases r with
          | none => rfl
          | some r =>
              show ((e.sequence call ys r.2).outcome.bind _).bind _ =
                (e.sequence call ys r.2).outcome.bind _
              rw [Outcome.bind_assoc]
              refine Outcome.bind_congr fun r' _ => ?_
              cases r' <;> rfl

/-- A choice inside a choice may be written out. -/
theorem alternation_nested (xs ys zs : List Spec) (input : Text) :
    (e.alternation call (xs ++ .alternation ys :: zs) input).outcome =
      (e.alternation call (xs ++ (ys ++ zs)) input).outcome := by
  have hinner : (e.alternation call (.alternation ys :: zs) input).outcome =
      (e.alternation call (ys ++ zs) input).outcome := by
    rw [outcome_alternation_cons, outcome_alternation_append]
    refine Outcome.bind_congr fun a _ => ?_
    obtain ⟨m, rest⟩ := a
    cases m <;> rfl
  rw [outcome_alternation_append, outcome_alternation_append, hinner]

/-- A sequence whose last item is met with what the others leave. -/
theorem outcome_body_sequence_concat (items : List Spec) (s : Spec) (input : Text) :
    (e.body call (.sequence (items ++ [s])) input).outcome =
      (e.sequence call items input).outcome.bind fun
        | some (tokens, mid) => (e.body call s mid).outcome.bind fun
            | (some m, rest) =>
                .ok (some ⟨.node Token.sequenceType (tokens ++ [m.token]), false⟩, rest)
            | (none, _) => .ok (none, input)
        | none => .ok (none, input) := by
  rw [outcome_body_sequence, outcome_sequence_append, Outcome.bind_assoc]
  refine Outcome.bind_congr fun r _ => ?_
  cases r with
  | none => rfl
  | some r =>
      obtain ⟨tokens, mid⟩ := r
      show ((e.sequence call [s] mid).outcome.bind _).bind _ = (e.body call s mid).outcome.bind _
      rw [outcome_sequence_cons, Outcome.bind_assoc, Outcome.bind_assoc]
      refine Outcome.bind_congr fun a _ => ?_
      obtain ⟨m, rest⟩ := a
      cases m <;> rfl

/-- The branches of a choice with `items` in front of each. -/
def distributed (items branches : List Spec) : List Spec :=
  branches.map fun b => .sequence (items ++ [b])

/-- Where the common beginning fails, every branch does. -/
theorem alternation_distributed_of_none {items : List Spec} {input : Text}
    (h : (e.sequence call items input).outcome = .ok none) (branches : List Spec) :
    (e.alternation call (distributed items branches) input).outcome = .ok (none, input) := by
  induction branches with
  | nil => rfl
  | cons b bs ih =>
      show (e.alternation call (.sequence (items ++ [b]) :: distributed items bs) input).outcome = _
      rw [outcome_alternation_cons, outcome_body_sequence_concat, h]
      exact ih

/-- Where the common beginning matches, it leaves the same text to every branch. -/
theorem alternation_distributed_of_some {items : List Spec} {input mid : Text}
    {tokens : List Token} (h : (e.sequence call items input).outcome = .ok (some (tokens, mid)))
    (branches : List Spec) :
    (e.alternation call (distributed items branches) input).outcome =
      (e.alternation call branches mid).outcome.bind fun
        | (some m, rest) =>
            .ok (some ⟨.node Token.sequenceType (tokens ++ [m.token]), false⟩, rest)
        | (none, _) => .ok (none, input) := by
  induction branches with
  | nil => rfl
  | cons b bs ih =>
      show (e.alternation call (.sequence (items ++ [b]) :: distributed items bs) input).outcome = _
      rw [outcome_alternation_cons, outcome_body_sequence_concat, h, outcome_alternation_cons]
      show ((e.body call b mid).outcome.bind _).bind _ = ((e.body call b mid).outcome.bind _).bind _
      rw [Outcome.bind_assoc, Outcome.bind_assoc]
      refine Outcome.bind_congr fun a _ => ?_
      obtain ⟨m, rest⟩ := a
      cases m with
      | some m => rfl
      | none => exact ih

/-- What the branches of a choice begin with may stand before the choice. Without branches there is
nothing that evaluates the beginning, which may end with an error. -/
theorem sequence_factored (items : List Spec) {branches : List Spec} (h : branches ≠ [])
    (input : Text) :
    (e.body call (.sequence (items ++ [.alternation branches])) input).outcome =
      (e.body call (.alternation (distributed items branches)) input).outcome := by
  obtain ⟨b, bs, rfl⟩ := List.exists_cons_of_ne_nil h
  have hfirst : (e.body call (.alternation (distributed items (b :: bs))) input).outcome =
      (e.body call (.sequence (items ++ [b])) input).outcome.bind _ :=
    outcome_alternation_cons _ _ _
  rw [outcome_body_sequence_concat] at hfirst ⊢
  cases hitems : (e.sequence call items input).outcome with
  | unfinished =>
      rw [hfirst, hitems]
      rfl
  | error err =>
      rw [hfirst, hitems]
      rfl
  | ok r =>
      cases r with
      | none => exact (alternation_distributed_of_none hitems _).symm
      | some r => exact (alternation_distributed_of_some hitems _).symm

/-- Lists of tokens of one text in all, and the same rest. -/
abbrev SameValues : Option (List Token × Text) → Option (List Token × Text) → Prop :=
  Option.Rel fun r r' => Token.values r.1 = Token.values r'.1 ∧ r.2 = r'.2

/-- A sequence inside a sequence may be written out; its tokens then stand where their node stood. -/
theorem sequence_nested (xs ys zs : List Spec) (input : Text) :
    Related (fun _ => False) Eq SameValues
      (e.sequence call (xs ++ .sequence ys :: zs) input).outcome
      (e.sequence call (xs ++ (ys ++ zs)) input).outcome := by
  have hinner : ∀ mid, Related (fun _ => False) Eq SameValues
      (e.sequence call (.sequence ys :: zs) mid).outcome
      (e.sequence call (ys ++ zs) mid).outcome := by
    intro mid
    rw [outcome_sequence_cons, outcome_body_sequence, outcome_sequence_append, Outcome.bind_assoc]
    refine .bind_left (fun _ => rfl) _ fun r => ?_
    cases r with
    | none => exact .ok .none
    | some r =>
        obtain ⟨tokens, mid'⟩ := r
        show Related _ _ _ ((e.sequence call zs mid').outcome.bind _)
          ((e.sequence call zs mid').outcome.bind _)
        refine .bind_left (fun _ => rfl) _ fun r => ?_
        cases r with
        | none => exact .ok .none
        | some r => exact .ok (.some ⟨(Token.values_append tokens r.1).symm, rfl⟩)
  rw [outcome_sequence_append, outcome_sequence_append]
  refine .bind_left (fun _ => rfl) _ fun r => ?_
  cases r with
  | none => exact .ok .none
  | some r =>
      refine (hinner r.2).bind fun r' r'' h => ?_
      cases h with
      | none => exact .ok .none
      | some h =>
          refine .ok (.some ⟨?_, h.2⟩)
          rw [Token.values_append, Token.values_append, h.1]

end

end Evaluation

/-- Wherever they are evaluated, both bodies fail, or both end with the same error, or they come to
tokens that belong together and leave the same rest; and the one ends where the other one does. -/
structure Spec.Interchangeable (tokens : Token → Token → Prop) (s s' : Spec) : Prop where
  outcome : ∀ (e : Evaluation) input,
    Related (fun _ => False) Eq (fun a b => Option.Rel tokens a.1 b.1 ∧ a.2 = b.2)
      (e.spec s input).outcome (e.spec s' input).outcome
  ends : ∀ (e : Evaluation) input,
    (∃ n, (e.body (e.call n) s input).outcome ≠ .unfinished) ↔
      ∃ n, (e.body (e.call n) s' input).outcome ≠ .unfinished

namespace Evaluation

/-- Bodies may stand for each other if they do alike whatever their names come to. -/
theorem interchangeable_of_alike {tokens : Token → Token → Prop} {s s' : Spec}
    (h : ∀ e call, BodiesAlike e e call call (fun _ => False) Eq
      (fun m m' => tokens m.token m'.token) Eq s s') : s.Interchangeable tokens s' where
  outcome e input := by
    unfold Evaluation.spec
    rw [Run.outcome_bind, Run.outcome_bind]
    refine (h e _ input input rfl).bind ?_
    rintro ⟨m, rest⟩ ⟨m', rest'⟩ ⟨hm, hrest⟩
    cases hm with
    | none => exact .ok ⟨.none, hrest⟩
    | some hm => exact .ok ⟨.some hm, hrest⟩
  ends e input := exists_congr fun n => not_congr (h e (e.call n) input input rfl).unfinished_iff

theorem interchangeable_of_eq {s s' : Spec}
    (h : ∀ (e : Evaluation) call input,
      (e.body call s input).outcome = (e.body call s' input).outcome) :
    s.Interchangeable Eq s' := by
  refine interchangeable_of_alike fun e call => ?_
  rintro t _ rfl
  rw [h]
  refine Related.refl (fun _ => rfl) _ fun a _ => ?_
  obtain ⟨m, rest⟩ := a
  cases m with
  | none => exact ⟨.none, rfl⟩
  | some m => exact ⟨.some rfl, rfl⟩

/-- Choices in choices and sequences in sequences may be written out, and a common beginning of all
branches may stand before the choice. Only the node of an inner sequence shows itself in the
tree. -/
theorem nesting_and_factoring :
    (∀ xs ys zs, Spec.Interchangeable Eq
      (.alternation (xs ++ .alternation ys :: zs)) (.alternation (xs ++ (ys ++ zs)))) ∧
    (∀ items branches, branches ≠ [] → Spec.Interchangeable Eq
      (.sequence (items ++ [.alternation branches]))
      (.alternation (branches.map fun b => .sequence (items ++ [b])))) ∧
    ∀ xs ys zs, Spec.Interchangeable Token.SameValue
      (.sequence (xs ++ .sequence ys :: zs)) (.sequence (xs ++ (ys ++ zs))) := by
  refine ⟨fun xs ys zs => ?_, fun items branches hne => ?_, fun xs ys zs => ?_⟩
  · exact interchangeable_of_eq fun _ _ input => alternation_nested xs ys zs input
  · exact interchangeable_of_eq fun _ _ input => sequence_factored items hne input
  · refine interchangeable_of_alike fun e call => ?_
    rintro t _ rfl
    rw [outcome_body_sequence, outcome_body_sequence]
    refine (sequence_nested xs ys zs t).bind fun r r' h => ?_
    cases h with
    | none => exact .ok ⟨.none, rfl⟩
    | some h => exact .ok ⟨.some ⟨rfl, h.1⟩, h.2⟩

/-- The second branch is taken, behind a beginning that is evaluated twice. -/
theorem nesting_and_factoring_letters :
    let e : Evaluation := ⟨{}, .ignore, "a c".toList⟩
    [Spec.literal ['b'], .literal ['c']] ≠ [] ∧
    (e.spec (.sequence [.literal ['a'], .alternation [.literal ['b'], .literal ['c']]])
        e.source).outcome =
      .ok (some (.node Token.sequenceType
        [.leaf Token.literalType ['a'], .leaf Token.literalType ['c']]), []) ∧
    (e.spec (.alternation [.sequence [.literal ['a'], .literal ['b']],
        .sequence [.literal ['a'], .literal ['c']]]) e.source).outcome =
      .ok (some (.node Token.sequenceType
        [.leaf Token.literalType ['a'], .leaf Token.literalType ['c']]), []) := by
  intro e
  have hne : [Spec.literal ['b'], .literal ['c']] ≠ [] := List.cons_ne_nil _ _
  have hfirst : (e.spec (.sequence [.literal ['a'], .alternation [.literal ['b'], .literal ['c']]])
      e.source).outcome = .ok (some (.node Token.sequenceType
        [.leaf Token.literalType ['a'], .leaf Token.literalType ['c']]), []) := by cbv
  have hsame := (nesting_and_factoring.2.1 [.literal ['a']] _ hne).outcome e e.source
  refine ⟨hne, hfirst, ?_⟩
  rw [← hfirst]
  refine (hsame.eq_of_strict ?_).symm
  rintro ⟨token, rest⟩ ⟨token', rest'⟩ ⟨htoken, rfl⟩
  cases htoken with
  | none => rfl
  | some htoken => rw [htoken]

end Evaluation

end Descent
