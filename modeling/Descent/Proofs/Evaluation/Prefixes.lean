import Mathlib
import Descent.Proofs.Evaluation.Skipping

/-! The part of a source that was consumed before. An evaluation looks at its source only to see
whether a phrase is due and to tell where one is missing. On the ends of one text the source is
measured, and never read: whatever stands before the text, the same phrases are due and the same
ones are missing, and the offset of a missing phrase is as much larger as the part before it. -/

namespace Descent

open Outcome (Related)

/-- The errors of a text behind `m` bytes and behind `n` bytes: the offset of a missing phrase is
counted from the start of the source, and no other error depends on it. -/
inductive Error.Moved (m n : Nat) : Error → Error → Prop
  | delimiter {position : Nat} {phrase : Text} :
      Moved m n (.delimiter (m + position) phrase) (.delimiter (n + position) phrase)
  | other {err : Error} :
      (∀ position phrase, err ≠ .delimiter position phrase) → Moved m n err err

/-- The outcomes of one text behind `m` bytes and behind `n` bytes: the same token and the same rest,
or the same error up to its offset, or no end for both. -/
def Outcome.Moved {α : Type} (m n : Nat) : Outcome α → Outcome α → Prop :=
  Related (fun _ => False) (Error.Moved m n) Eq

theorem Text.offsetOf_append {s rest : Text} (h : rest <:+ s) (before : Text) :
    offsetOf (before ++ s) rest = before.size + offsetOf s rest := by
  rw [offsetOf, size_append, offsetOf, Nat.add_sub_assoc (size_le_of_suffix h)]

namespace Whitespace

variable {policy : Whitespace} {before s t : Text}

/-- Behind consumed text a phrase is due before every character that is left. -/
theorem due_iff (hbefore : before ≠ []) (ht : t <:+ s) :
    t.size < Text.size (before ++ s) ∧ t ≠ [] ↔ t ≠ [] := by
  have hpos : 0 < before.size := Text.size_pos hbefore
  have hle : t.size ≤ s.size := Text.size_le_of_suffix ht
  rw [Text.size_append]
  exact and_iff_right (by omega)

/-- Only a policy that demands a phrase looks at the source. -/
theorem skip_eq_of_not_require (h : ∀ phrase trim, policy ≠ .require phrase trim)
    (input source source' : Text) : policy.skip input source = policy.skip input source' := by
  cases policy with
  | keep => rfl
  | ignore => rfl
  | ignoreSpecific chars => rfl
  | require phrase trim => exact absurd rfl (h phrase trim)
  | custom skip => rfl

end Whitespace

namespace Evaluation

variable {r : Registry} {policy : Whitespace} {p q s : Text}

theorem skipsAlike_of_require (phrase : Text) (trim : Bool) (hp : p ≠ []) (hq : q ≠ []) :
    SkipsAlike (.mk r (.require phrase trim) (p ++ s)) (.mk r (.require phrase trim) (q ++ s))
      (fun _ => False) (Error.Moved p.size q.size) s := by
  intro t ht
  show Related _ _ _ (Whitespace.skipPhrase phrase trim t (p ++ s)).outcome
    (Whitespace.skipPhrase phrase trim t (q ++ s)).outcome
  simp only [Whitespace.skipPhrase, Whitespace.due_iff hp ht, Whitespace.due_iff hq ht,
    Text.offsetOf_append ht]
  split
  · cases hr : Text.after? phrase t with
    | none => exact .error .delimiter
    | some rest =>
        have hrest : rest <:+ t := ⟨phrase, (Text.after?_eq_some_iff.1 hr).symm⟩
        refine .ok ⟨rfl, List.IsSuffix.trans ?_ (hrest.trans ht)⟩
        split
        · exact List.dropWhile_suffix _
        · exact List.suffix_refl _
  · exact .ok ⟨rfl, ht⟩

theorem skipsAlike_of_not_require {source source' : Text}
    (h : ∀ phrase trim, policy ≠ .require phrase trim) (errors : Error → Error → Prop) :
    SkipsAlike (.mk r policy source) (.mk r policy source') (fun _ => False) errors s := by
  intro t ht
  have hnone : SkipsOn (.mk r policy source) (fun _ => False) s := by
    refine skipsOn_of_errors fun input err _ herr => ?_
    obtain ⟨phrase, trim, hpolicy, -⟩ := Whitespace.error_of_skip herr
    exact h phrase trim hpolicy
  show Related _ _ _ (policy.skip t source).outcome (policy.skip t source').outcome
  rw [Whitespace.skip_eq_of_not_require h t source' source]
  exact (hnone t ht).related (fun _ => False.elim) fun _ hskipped => ⟨rfl, hskipped.trans ht⟩

theorem skipsAlike_behind
    (h : p ≠ [] ∧ q ≠ [] ∨ ∀ phrase trim, policy ≠ .require phrase trim) :
    SkipsAlike (.mk r policy (p ++ s)) (.mk r policy (q ++ s)) (fun _ => False)
      (Error.Moved p.size q.size) s := by
  by_cases hpolicy : ∃ phrase trim, policy = .require phrase trim
  · obtain ⟨phrase, trim, rfl⟩ := hpolicy
    rcases h with ⟨hp, hq⟩ | h
    · exact skipsAlike_of_require phrase trim hp hq
    · exact absurd rfl (h phrase trim)
  · exact skipsAlike_of_not_require (fun phrase trim hp => hpolicy ⟨phrase, trim, hp⟩) _

/-- What was consumed before does not matter. A rule or a body comes to the same token and the same
rest, or to the same error, behind any two texts that are not empty; only the offset of a missing
phrase counts what stands before. Where no phrase is demanded the texts may be empty, too. -/
theorem outcome_independent_of_consumed (r : Registry) (policy : Whitespace) (s : Text) {p q : Text}
    (h : p ≠ [] ∧ q ≠ [] ∨ ∀ phrase trim, policy ≠ .require phrase trim) :
    (∀ rule, Outcome.Moved p.size q.size ((mk r policy (p ++ s)).rule rule s).outcome
      ((mk r policy (q ++ s)).rule rule s).outcome) ∧
    ∀ spec, Outcome.Moved p.size q.size ((mk r policy (p ++ s)).spec spec s).outcome
      ((mk r policy (q ++ s)).spec spec s).outcome := by
  have hname : ∀ name, Error.Moved p.size q.size (.unresolvedReference name)
      (.unresolvedReference name) := fun _ => .other nofun
  have hskip := skipsAlike_behind (r := r) (s := s) h
  unfold Outcome.Moved
  exact ⟨fun rule => rule_of_skips hskip rfl hname rule (List.suffix_refl s),
    fun spec => spec_of_skips hskip rfl hname spec (List.suffix_refl s)⟩

/-- Behind one byte and behind four bytes the second space is missing, and the two offsets differ by
three. With nothing before it the text would match up to its end if no space were demanded. -/
theorem outcome_independent_of_consumed_letters :
    let letters : Spec := .sequence [.literal ['a'], .literal ['b']]
    (['x'] ≠ [] ∧ ['é', 'é'] ≠ [] ∨ ∀ phrase trim, Whitespace.oneSpace ≠ .require phrase trim) ∧
    ((mk {} .oneSpace "x ab".toList).spec letters " ab".toList).outcome =
      .error (.delimiter 3 [' ']) ∧
    ((mk {} .oneSpace "éé ab".toList).spec letters " ab".toList).outcome =
      .error (.delimiter 6 [' ']) ∧
    Outcome.Moved 1 4 ((mk {} .oneSpace "x ab".toList).spec letters " ab".toList).outcome
      ((mk {} .oneSpace "éé ab".toList).spec letters " ab".toList).outcome ∧
    Outcome.Moved 0 4 ((mk {} .ignore " ab".toList).spec letters " ab".toList).outcome
      ((mk {} .ignore "éé ab".toList).spec letters " ab".toList).outcome := by
  intro letters
  have hbefore : ['x'] ≠ [] ∧ ['é', 'é'] ≠ [] ∨
      ∀ phrase trim, Whitespace.oneSpace ≠ .require phrase trim := .inl ⟨nofun, nofun⟩
  have hignore : ([] : Text) ≠ [] ∧ ['é', 'é'] ≠ [] ∨
      ∀ phrase trim, Whitespace.ignore ≠ .require phrase trim := .inr nofun
  refine ⟨hbefore, by cbv, by cbv, ?_, ?_⟩
  · exact (outcome_independent_of_consumed {} .oneSpace " ab".toList hbefore).2 letters
  · exact (outcome_independent_of_consumed {} .ignore " ab".toList hignore).2 letters

end Evaluation

end Descent
