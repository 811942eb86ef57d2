import Mathlib.Data.List.DropRight
import Descent.Text
import Descent.Text.Blank

/-! Texts up to the amount and the kind of their blanks. Two texts are respaced if they become equal
when each run of blanks becomes one space. Skipping blanks and taking a phrase without blanks both
lead from respaced texts to respaced texts; leaving all blanks out would not do, since a phrase is
not found across a gap. -/

namespace Descent.Text

/-- A text with one space in place of each run of blanks. -/
def collapse : Text → Text
  | [] => []
  | c :: s =>
      if isBlank c then if s.head?.any isBlank then collapse s else ' ' :: collapse s
      else c :: collapse s

/-- The texts are equal but for the amount and the kind of the blanks in each run. -/
def Respaced (s t : Text) : Prop := collapse s = collapse t

theorem trimStart_cons_of_blank {c : Char} (hc : isBlank c = true) (s : Text) :
    trimStart (c :: s) = trimStart s := List.dropWhile_cons_of_pos hc

theorem trimStart_cons_of_not_blank {c : Char} (hc : isBlank c = false) (s : Text) :
    trimStart (c :: s) = c :: s := List.dropWhile_cons_of_neg (by simp [hc])

theorem collapse_cons_of_not_blank {c : Char} (hc : isBlank c = false) (s : Text) :
    collapse (c :: s) = c :: collapse s := by
  simp [collapse, hc]

theorem collapse_cons_of_blank {c : Char} (hc : isBlank c = true) (s : Text) :
    collapse (c :: s) = ' ' :: collapse (trimStart s) := by
  induction s generalizing c with
  | nil => simp [collapse, trimStart, hc]
  | cons d s ih =>
      by_cases hd : isBlank d = true
      · have hrun : collapse (c :: d :: s) = collapse (d :: s) := by simp [collapse, hc, hd]
        rw [hrun, ih hd, trimStart_cons_of_blank hd]
      · rw [Bool.not_eq_true] at hd
        rw [trimStart_cons_of_not_blank hd]
        simp [collapse, hc, hd]

theorem trimStart_trimStart (s : Text) : trimStart (trimStart s) = trimStart s :=
  List.dropWhile_idempotent isBlank _

theorem collapse_trimStart (s : Text) : collapse (trimStart s) = trimStart (collapse s) := by
  induction s with
  | nil => rfl
  | cons c s ih =>
      by_cases hc : isBlank c = true
      · have hspace : isBlank ' ' = true := by decide
        rw [trimStart_cons_of_blank hc, collapse_cons_of_blank hc, trimStart_cons_of_blank hspace,
          ih, trimStart_trimStart]
      · rw [Bool.not_eq_true] at hc
        rw [trimStart_cons_of_not_blank hc, collapse_cons_of_not_blank hc,
          trimStart_cons_of_not_blank hc]

theorem collapse_eq_nil_iff {s : Text} : collapse s = [] ↔ s = [] := by
  cases s with
  | nil => exact iff_of_true rfl rfl
  | cons c s =>
      by_cases hc : isBlank c = true
      · simp [collapse_cons_of_blank hc]
      · simp [collapse_cons_of_not_blank (Bool.not_eq_true _ ▸ hc)]

/-- A phrase without blanks is found at the start of a text if it is found there after the blanks
are collapsed. -/
theorem after?_collapse {phrase : Text} (h : ∀ c ∈ phrase, isBlank c = false) (s : Text) :
    after? phrase (collapse s) = (after? phrase s).map collapse := by
  induction phrase generalizing s with
  | nil => rfl
  | cons p phrase ih =>
      obtain ⟨hp, hphrase⟩ := List.forall_mem_cons.1 h
      cases s with
      | nil => rfl
      | cons c s =>
          by_cases hc : isBlank c = true
          · have hne : ∀ b, isBlank b = true → p ≠ b := by
              rintro b hb rfl
              rw [hp] at hb
              cases hb
            rw [collapse_cons_of_blank hc, after?, after?, if_neg (hne ' ' (by decide)),
              if_neg (hne c hc)]
            rfl
          · rw [collapse_cons_of_not_blank (Bool.not_eq_true _ ▸ hc), after?, after?, ih hphrase]
            split <;> rfl

namespace Respaced

variable {s t : Text}

theorem trimStart (h : Respaced s t) : Respaced (Text.trimStart s) (Text.trimStart t) := by
  unfold Respaced
  rw [collapse_trimStart, collapse_trimStart, h]

theorem map_after? (h : Respaced s t) {phrase : Text} (hphrase : ∀ c ∈ phrase, isBlank c = false) :
    (after? phrase s).map collapse = (after? phrase t).map collapse := by
  rw [← after?_collapse hphrase, ← after?_collapse hphrase, h]

theorem isEmpty_eq (h : Respaced s t) : s.isEmpty = t.isEmpty := by
  have hnil : s = [] ↔ t = [] := by
    rw [← collapse_eq_nil_iff, h, collapse_eq_nil_iff]
  rw [Bool.eq_iff_iff, List.isEmpty_iff, List.isEmpty_iff, hnil]

end Respaced

end Descent.Text
