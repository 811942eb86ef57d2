import Descent.Text

/-! ASCII in the bytes of a text. An ASCII character is one byte, and all bytes of another character
lie above ASCII. So a class of ASCII bytes is found in a text where its characters stand, and never
inside a longer character. -/

namespace Descent.Text

/-- A class without bytes of longer characters. -/
def IsAscii (p : UInt8 → Bool) : Prop := ∀ b, 0x80 ≤ b → p b = false

theorem utf8EncodeChar_of_ascii {c : Char} (h : c.toNat < 0x80) :
    String.utf8EncodeChar c = [UInt8.ofNat c.toNat] := by
  rw [String.utf8EncodeChar]
  exact if_pos (Nat.le_of_lt_succ h)

theorem le_ofNat_of_lt {n : Nat} (hlow : 0x80 ≤ n) (hhigh : n < 0x100) : 0x80 ≤ UInt8.ofNat n := by
  rw [UInt8.le_iff_toNat_le, UInt8.toNat_ofNat', Nat.mod_eq_of_lt hhigh]
  exact hlow

theorem le_of_mem_utf8EncodeChar {c : Char} (h : ¬c.toNat < 0x80) :
    ∀ b ∈ String.utf8EncodeChar c, 0x80 ≤ b := by
  have hc : ¬c.val.toNat ≤ 127 := fun hle => h (Nat.lt_succ_of_le hle)
  rw [String.utf8EncodeChar]
  intro b hb
  rw [if_neg hc] at hb
  split at hb
  · simp only [List.mem_cons, List.not_mem_nil, or_false] at hb
    rcases hb with rfl | rfl <;> exact le_ofNat_of_lt (by omega) (by omega)
  split at hb
  · simp only [List.mem_cons, List.not_mem_nil, or_false] at hb
    rcases hb with rfl | rfl | rfl <;> exact le_ofNat_of_lt (by omega) (by omega)
  · simp only [List.mem_cons, List.not_mem_nil, or_false] at hb
    rcases hb with rfl | rfl | rfl | rfl <;> exact le_ofNat_of_lt (by omega) (by omega)

/-- The first byte of a character. -/
def lead (c : Char) : UInt8 := (String.utf8EncodeChar c).head String.utf8EncodeChar_ne_nil

/-- The bytes of a character behind its first one. -/
def trail (c : Char) : List UInt8 := (String.utf8EncodeChar c).tail

theorem bytes_cons_eq (c : Char) (s : Text) : bytes (c :: s) = lead c :: (trail c ++ bytes s) := by
  rw [bytes_cons, ← List.cons_append, lead, trail, List.cons_head_tail]

theorem le_of_mem_trail {c : Char} : ∀ b ∈ trail c, 0x80 ≤ b := by
  intro b hb
  by_cases h : c.toNat < 0x80
  · rw [trail, utf8EncodeChar_of_ascii h] at hb
    cases hb
  · exact le_of_mem_utf8EncodeChar h b (List.mem_of_mem_tail hb)

theorem trail_eq_nil {c : Char} (h : lead c < 0x80) : trail c = [] := by
  by_cases hc : c.toNat < 0x80
  · rw [trail, utf8EncodeChar_of_ascii hc]
    rfl
  · have hlead := le_of_mem_utf8EncodeChar hc (lead c) (List.head_mem _)
    exact absurd h (UInt8.not_lt.2 hlead)

/-- An ASCII byte stands for one character only. -/
theorem lead_eq_lead_iff {c d : Char} (hd : d.toNat < 0x80) : lead c = lead d ↔ c = d := by
  refine ⟨fun h => ?_, fun h => h ▸ rfl⟩
  have hd' : lead d = UInt8.ofNat d.toNat := by simp [lead, utf8EncodeChar_of_ascii hd]
  by_cases hc : c.toNat < 0x80
  · have hc' : lead c = UInt8.ofNat c.toNat := by simp [lead, utf8EncodeChar_of_ascii hc]
    rw [hc', hd'] at h
    have hn := congrArg UInt8.toNat h
    rw [UInt8.toNat_ofNat', UInt8.toNat_ofNat', Nat.mod_eq_of_lt (by omega),
      Nat.mod_eq_of_lt (by omega)] at hn
    exact Char.toNat_inj.1 hn
  · have hlead := le_of_mem_utf8EncodeChar hc (lead c) (List.head_mem _)
    rw [h, hd', UInt8.le_iff_toNat_le, UInt8.toNat_ofNat', Nat.mod_eq_of_lt (by omega)] at hlead
    exact absurd hlead (Nat.not_le.2 hd)

theorem lt_of_isAscii {p : UInt8 → Bool} (hp : IsAscii p) {b : UInt8} (h : p b = true) :
    b < 0x80 := by
  refine UInt8.not_le.1 fun hb => ?_
  rw [hp b hb] at h
  cases h

/-- All bytes of a text are in an ASCII class if the first bytes of its characters are. -/
theorem forall_mem_bytes_iff {p : UInt8 → Bool} (hp : IsAscii p) (s : Text) :
    (∀ b ∈ bytes s, p b = true) ↔ ∀ c ∈ s, p (lead c) = true := by
  induction s with
  | nil => exact iff_of_true nofun nofun
  | cons c s ih =>
      rw [bytes_cons_eq, List.forall_mem_cons, List.forall_mem_cons, ← ih]
      refine and_congr_right fun hc => ?_
      rw [trail_eq_nil (lt_of_isAscii hp hc), List.nil_append]

/-- What satisfies an ASCII class at the start of the bytes of a text is a text, and so is what
follows. -/
theorem exists_of_dropWhile_bytes {p : UInt8 → Bool} (hp : IsAscii p) (s : Text) :
    ∃ before after : Text, s = before ++ after ∧ (∀ b ∈ bytes before, p b = true) ∧
      (∀ b ∈ (bytes after).head?, p b = false) ∧ (bytes s).dropWhile p = bytes after := by
  induction s with
  | nil => exact ⟨[], [], rfl, by simp, by simp, rfl⟩
  | cons c s ih =>
      by_cases hc : p (lead c) = true
      · obtain ⟨before, after, rfl, hbefore, hafter, hdrop⟩ := ih
        have htrail := trail_eq_nil (lt_of_isAscii hp hc)
        refine ⟨c :: before, after, rfl, ?_, hafter, ?_⟩
        · rw [bytes_cons_eq, htrail]
          exact List.forall_mem_cons.2 ⟨hc, hbefore⟩
        · rw [bytes_cons_eq, htrail, List.dropWhile_cons_of_pos hc]
          exact hdrop
      · refine ⟨[], c :: s, rfl, by simp, ?_, ?_⟩
        · rw [bytes_cons_eq]
          rintro b ⟨⟩
          exact Bool.not_eq_true _ ▸ hc
        · rw [bytes_cons_eq, List.dropWhile_cons_of_neg hc]

theorem dropWhile_bytes_append {p : UInt8 → Bool} {before after : Text}
    (hbefore : ∀ b ∈ bytes before, p b = true) (hafter : ∀ b ∈ (bytes after).head?, p b = false) :
    (bytes (before ++ after)).dropWhile p = bytes after := by
  rw [bytes_append, List.dropWhile_append_of_pos hbefore]
  cases hb : bytes after with
  | nil => rfl
  | cons b more =>
      rw [hb] at hafter
      exact List.dropWhile_cons_of_neg (by simp [hafter b rfl])

end Descent.Text
