import Descent.Proofs.Grammar.Escaping

/-! What a quoted form says of the text. The escapes are read back one by one, with those that a
literal lacks; so a quoted text ends where it ends, whatever stands behind it, and no two texts have
one quoted form. -/

namespace Descent.Text

/-- A class of characters goes up to the first one outside. -/
theorem takeWhile_append_cons {inside : Char → Bool} {s : Text} {c : Char}
    (hs : ∀ a ∈ s, inside a = true) (hc : inside c = false) (rest : Text) :
    (s ++ c :: rest).takeWhile inside = s := by
  rw [List.takeWhile_append_of_pos hs, List.takeWhile_cons_of_neg (by simp [hc]), List.append_nil]

/-- The number that a hexadecimal digit stands for. -/
def digitValue (c : Char) : Nat := if c ≤ '9' then c.toNat - '0'.toNat else c.toNat - 'a'.toNat + 10

def hexValue (digits : Text) : Nat := digits.foldl (fun n c => 16 * n + digitValue c) 0

theorem digitValue_digitChar : ∀ n < 16, digitValue (Nat.digitChar n) = n := by decide

theorem hexValue_toDigits (n : Nat) : hexValue (Nat.toDigits 16 n) = n := by
  induction n using Nat.strongRecOn with
  | ind n ih =>
      by_cases hn : n < 16
      · rw [Nat.toDigits_of_lt_base hn]
        exact (Nat.zero_add _).trans (digitValue_digitChar n hn)
      · have hrest : hexValue (Nat.toDigits 16 (n / 16)) = n / 16 := ih (n / 16) (by omega)
        have hlast := digitValue_digitChar (n % 16) (by omega)
        rw [Nat.toDigits_of_base_le (by omega) (by omega), hexValue, List.foldl_append]
        show 16 * hexValue (Nat.toDigits 16 (n / 16)) + digitValue (Nat.digitChar (n % 16)) = n
        rw [hrest, hlast]
        omega

/-- The character that a quoted form starts with, read back from its escape. -/
def firstQuoted : Text → Option Char
  | '\\' :: '0' :: _ => some '\x00'
  | '\\' :: 't' :: _ => some '\t'
  | '\\' :: 'r' :: _ => some '\r'
  | '\\' :: 'n' :: _ => some '\n'
  | '\\' :: 'u' :: '\x7b' :: digits => some (Char.ofNat (hexValue (digits.takeWhile (· ≠ '\x7d'))))
  | '\\' :: c :: _ => some c
  | c :: _ => some c
  | [] => none

theorem firstQuoted_codePointEscape (c : Char) (rest : Text) :
    firstQuoted (codePointEscape c ++ rest) = some c := by
  have hdigits : ∀ d ∈ Nat.toDigits 16 c.toNat, decide (d ≠ '\x7d') = true := by
    intro d hd
    obtain ⟨k, rfl⟩ := Literal.digitChar_of_mem_toDigits hd
    exact decide_eq_true (Nat.digitChar_ne '\x7d' rfl)
  have hescape : codePointEscape c ++ rest =
      '\\' :: 'u' :: '\x7b' :: (Nat.toDigits 16 c.toNat ++ '\x7d' :: rest) := by
    simp [codePointEscape]
  rw [hescape, firstQuoted, takeWhile_append_cons hdigits (by decide), hexValue_toDigits,
    Char.ofNat_toNat]

theorem firstQuoted_plain {c : Char} (h : c ≠ '\\') (rest : Text) :
    firstQuoted (c :: rest) = some c := by
  rw [firstQuoted.eq_def]
  split <;> simp_all

/-- Whatever stands behind an escape, the character is read back. -/
theorem firstQuoted_escaped (c : Char) (rest : Text) :
    firstQuoted (escaped '"' c ++ rest) = some c := by
  unfold escaped
  split
  · rfl
  · rfl
  · rfl
  · rfl
  · rfl
  · next hslash =>
      split
      · next hquote =>
          subst hquote
          rfl
      · split
        · exact firstQuoted_codePointEscape c rest
        · exact firstQuoted_plain hslash rest

theorem escaped_append_inj {c d : Char} {rest rest' : Text}
    (h : escaped '"' c ++ rest = escaped '"' d ++ rest') : c = d ∧ rest = rest' := by
  have hfirst := congrArg firstQuoted h
  rw [firstQuoted_escaped, firstQuoted_escaped] at hfirst
  obtain rfl := Option.some.inj hfirst
  exact ⟨rfl, List.append_cancel_left h⟩

/-- No escape starts with the quote that ends the form. -/
theorem escaped_append_ne_quote (c : Char) (rest rest' : Text) :
    escaped '"' c ++ rest ≠ '"' :: rest' := by
  intro h
  have hfirst := congrArg firstQuoted h
  rw [firstQuoted_escaped] at hfirst
  obtain rfl : c = '"' := Option.some.inj hfirst
  exact absurd (List.cons.inj h).1 (by decide)

/-- Escapes up to the quote are those of one text, and end at that quote. -/
theorem escapes_append_inj {s t rest rest' : Text}
    (h : s.flatMap (escaped '"') ++ '"' :: rest = t.flatMap (escaped '"') ++ '"' :: rest') :
    s = t ∧ rest = rest' := by
  induction s generalizing t with
  | nil =>
      cases t with
      | nil => exact ⟨rfl, (List.cons.inj h).2⟩
      | cons d t =>
          rw [List.flatMap_cons, List.append_assoc] at h
          exact absurd h.symm (escaped_append_ne_quote d _ _)
  | cons c s ih =>
      rw [List.flatMap_cons, List.append_assoc] at h
      cases t with
      | nil => exact absurd h (escaped_append_ne_quote c _ _)
      | cons d t =>
          rw [List.flatMap_cons, List.append_assoc] at h
          obtain ⟨rfl, hbehind⟩ := escaped_append_inj h
          obtain ⟨rfl, hrest⟩ := ih hbehind
          exact ⟨rfl, hrest⟩

/-- A quoted form says which text it is of, and where it ends. -/
theorem quoted_append_inj {s t rest rest' : Text} (h : s.quoted ++ rest = t.quoted ++ rest') :
    s = t ∧ rest = rest' := by
  refine escapes_append_inj (List.cons.inj (?_ : '"' :: _ = '"' :: _)).2
  simpa [quoted] using h

end Descent.Text
