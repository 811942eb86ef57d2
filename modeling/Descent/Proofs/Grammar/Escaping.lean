import Descent.Proofs.Grammar.Lexing
import Descent.Text.Quoted

/-! Escapes in literals. What stands between quotes is undone unit by unit, so a text can be written
as a literal by escaping its characters one after the other. Quoted texts are written with more
escapes than a literal has: a carriage return and the hidden characters come back spelled out. -/

namespace Descent

open Lexeme (Units)

theorem Lexeme.Units.append {quote : Char} {a b : Text} (ha : Units quote a) (hb : Units quote b) :
    Units quote (a ++ b) := by
  induction ha with
  | nil => exact hb
  | plain hquote hslash _ ih => exact .plain hquote hslash ih
  | escape _ ih => exact .escape ih

theorem Lexeme.Units.of_plain {quote : Char} {s : Text} (h : ∀ c ∈ s, c ≠ quote ∧ c ≠ '\\') :
    Units quote s := by
  induction s with
  | nil => exact .nil
  | cons c s ih =>
      obtain ⟨hc, hs⟩ := List.forall_mem_cons.1 h
      exact .plain hc.1 hc.2 (ih hs)

namespace Literal

theorem unescape_plain {c : Char} (h : c ≠ '\\') (s : Text) : unescape (c :: s) = c :: unescape s := by
  rw [unescape.eq_def]
  split <;> simp_all

/-- What a backslash stands for together with the character behind it. -/
def unescapePair : Char → Text
  | '\\' => ['\\']
  | '"' => ['"']
  | '\'' => ['\'']
  | 'n' => ['\n']
  | 't' => ['\t']
  | '0' => ['\x00']
  | c => ['\\', c]

theorem unescape_pair (c : Char) (s : Text) :
    unescape ('\\' :: c :: s) = unescapePair c ++ unescape s := by
  unfold unescapePair
  split
  · rfl
  · rfl
  · rfl
  · rfl
  · rfl
  · rfl
  · next hslash hdouble hsingle hn ht h0 =>
      rw [unescape]
      · rfl
      · exact fun h => hslash h
      · exact fun h => hdouble h
      · exact fun h => hsingle h
      · exact fun h => hn h
      · exact fun h => ht h
      · exact fun h => h0 h

/-- Units are undone one by one. -/
theorem unescape_append {quote : Char} {a : Text} (h : Units quote a) (b : Text) :
    unescape (a ++ b) = unescape a ++ unescape b := by
  induction h with
  | nil => rfl
  | plain _ hslash _ ih =>
      rw [List.cons_append, unescape_plain hslash, unescape_plain hslash, ih, List.cons_append]
  | escape _ ih =>
      rw [List.cons_append, List.cons_append, unescape_pair, unescape_pair, ih,
        List.append_assoc]

theorem unescape_of_plain {s : Text} (h : ∀ c ∈ s, c ≠ '\\') : unescape s = s := by
  induction s with
  | nil => rfl
  | cons c s ih =>
      obtain ⟨hc, hs⟩ := List.forall_mem_cons.1 h
      rw [unescape_plain hc, ih hs]

theorem utf8Size_quote {quote : Char} (hq : quote = '"' ∨ quote = '\'') : quote.utf8Size = 1 := by
  rcases hq with rfl | rfl <;> rfl

/-- What stands between the quotes is unescaped. -/
theorem text?_of_quotes {quote : Char} (hq : quote = '"' ∨ quote = '\'') (inner : Text) :
    text? (quote :: (inner ++ [quote])) = some (unescape inner) := by
  have hsize := utf8Size_quote hq
  have hcut : Text.slice? (quote :: (inner ++ [quote])) 1
      (Text.size (quote :: (inner ++ [quote])) - 1) = some inner :=
    Text.slice?_eq_some_iff.2 ⟨[quote], [quote], rfl, by simp [Text.size, hsize],
      by simp [Text.size, hsize]; omega⟩
  rw [text?, hcut]
  rfl

theorem exists_text?_of_written {s : Text} (h : Lexeme.Written .literal s) :
    ∃ text, text? s = some text := by
  cases h with
  | literal hq _ => exact ⟨_, text?_of_quotes hq _⟩

/-- A text that is escaped character by character comes back character by character. -/
theorem unescape_flatMap {escape sense : Char → Text}
    (h : ∀ c, Units '"' (escape c) ∧ unescape (escape c) = sense c) (s : Text) :
    Units '"' (s.flatMap escape) ∧ unescape (s.flatMap escape) = s.flatMap sense := by
  induction s with
  | nil => exact ⟨.nil, rfl⟩
  | cons c s ih =>
      obtain ⟨hunits, hsense⟩ := h c
      rw [List.flatMap_cons, List.flatMap_cons, unescape_append hunits, hsense, ih.2]
      exact ⟨hunits.append ih.1, rfl⟩

/-- A backslash before each backslash and each double quote. -/
def escape (c : Char) : Text := if c = '\\' ∨ c = '"' then ['\\', c] else [c]

theorem unescape_escape (c : Char) : Units '"' (escape c) ∧ unescape (escape c) = [c] := by
  unfold escape
  split
  · next h =>
      rcases h with rfl | rfl
      · exact ⟨.escape .nil, rfl⟩
      · exact ⟨.escape .nil, rfl⟩
  · next h =>
      obtain ⟨hslash, hquote⟩ := not_or.1 h
      exact ⟨.plain hquote hslash .nil, unescape_plain hslash []⟩

/-- A character with a quoted form that is no escape of a literal. -/
def isForeign (c : Char) : Bool :=
  c = '\r' || (c ≠ '\x00' && c ≠ '\t' && c ≠ '\n' && isHidden c)

/-- What a character becomes when it is quoted and the quoted form is read as a literal. -/
def reread (c : Char) : Text := if isForeign c then Text.escaped '"' c else [c]

theorem digitChar_of_mem_toDigits {n : Nat} {c : Char} (h : c ∈ Nat.toDigits 16 n) :
    ∃ k, c = Nat.digitChar k := by
  induction n using Nat.strongRecOn with
  | ind n ih =>
      by_cases hn : n < 16
      · rw [Nat.toDigits_of_lt_base hn] at h
        exact ⟨n, List.mem_singleton.1 h⟩
      · rw [Nat.toDigits_of_base_le (by omega) (by omega), List.mem_append] at h
        rcases h with h | h
        · exact ih (n / 16) (by omega) h
        · exact ⟨n % 16, List.mem_singleton.1 h⟩

/-- Behind its backslash a spelled code point has neither quotes nor backslashes. -/
theorem plain_of_mem_codePoint {n : Nat} {c : Char}
    (h : c ∈ '\x7b' :: (Nat.toDigits 16 n ++ ['\x7d'])) : c ≠ '"' ∧ c ≠ '\\' := by
  rw [List.mem_cons, List.mem_append, List.mem_singleton] at h
  rcases h with rfl | h | rfl
  · decide
  · obtain ⟨k, rfl⟩ := digitChar_of_mem_toDigits h
    exact ⟨Nat.digitChar_ne '"' rfl, Nat.digitChar_ne '\\' rfl⟩
  · decide

/-- A spelled code point is read as it stands. -/
theorem unescape_codePointEscape (c : Char) :
    Units '"' (Text.codePointEscape c) ∧
      unescape (Text.codePointEscape c) = Text.codePointEscape c := by
  have hplain : ∀ d ∈ '\x7b' :: (Nat.toDigits 16 c.toNat ++ ['\x7d']), d ≠ '"' ∧ d ≠ '\\' :=
    fun _ => plain_of_mem_codePoint
  refine ⟨.escape (.of_plain hplain), ?_⟩
  show unescape ('\\' :: 'u' :: ('\x7b' :: (Nat.toDigits 16 c.toNat ++ ['\x7d']))) = _
  rw [unescape_pair, unescape_of_plain fun d hd => (hplain d hd).2]
  rfl

theorem isForeign_of_ne {c : Char} (hzero : c ≠ '\x00') (ht : c ≠ '\t') (hr : c ≠ '\r')
    (hn : c ≠ '\n') : isForeign c = isHidden c := by
  simp [isForeign, hzero, ht, hr, hn]

theorem escaped_of_foreign {c : Char} (h : isForeign c = true) :
    Text.escaped '"' c = ['\\', 'r'] ∨ Text.escaped '"' c = Text.codePointEscape c := by
  unfold Text.escaped
  split
  · cases h
  · cases h
  · exact .inl rfl
  · cases h
  · cases h
  · next hzero ht hr hn hslash =>
      have hquote : c ≠ '"' := by
        rintro rfl
        cases h
      rw [isForeign_of_ne hzero ht hr hn] at h
      rw [if_neg hquote, if_pos h]
      exact .inr rfl

theorem escaped_of_not_foreign {c : Char} (h : ¬isForeign c = true) :
    (∃ d, Text.escaped '"' c = ['\\', d] ∧ unescapePair d = [c]) ∨
      c ≠ '"' ∧ c ≠ '\\' ∧ Text.escaped '"' c = [c] := by
  unfold Text.escaped
  split
  · exact .inl ⟨_, rfl, rfl⟩
  · exact .inl ⟨_, rfl, rfl⟩
  · exact absurd rfl h
  · exact .inl ⟨_, rfl, rfl⟩
  · exact .inl ⟨_, rfl, rfl⟩
  · next hzero ht hr hn hslash =>
      split
      · next hquote =>
          subst hquote
          exact .inl ⟨_, rfl, rfl⟩
      · next hquote =>
          rw [isForeign_of_ne hzero ht hr hn] at h
          rw [if_neg h]
          exact .inr ⟨hquote, hslash, rfl⟩

/-- Quoting and reading agree on the characters that are not foreign, and on no others. -/
theorem unescape_escaped (c : Char) :
    Units '"' (Text.escaped '"' c) ∧ unescape (Text.escaped '"' c) = reread c := by
  unfold reread
  split
  · next h =>
      rcases escaped_of_foreign h with h | h
      · rw [h]
        exact ⟨.escape .nil, rfl⟩
      · rw [h]
        exact unescape_codePointEscape c
  · next h =>
      obtain ⟨d, hd, hsense⟩ | ⟨hquote, hslash, hc⟩ := escaped_of_not_foreign h
      · rw [hd]
        exact ⟨.escape .nil, (unescape_pair d []).trans (by rw [hsense]; rfl)⟩
      · rw [hc]
        exact ⟨.plain hquote hslash .nil, unescape_plain hslash []⟩

theorem reread_ne_nil (c : Char) : reread c ≠ [] := by
  unfold reread
  split
  · next h =>
      rcases escaped_of_foreign h with h | h
      · rw [h]
        exact List.cons_ne_nil _ _
      · rw [h]
        exact List.cons_ne_nil _ _
  · exact List.cons_ne_nil _ _

/-- A foreign character comes back as something that starts with a backslash. -/
theorem head_reread_of_foreign {c : Char} (h : isForeign c = true) :
    ∃ s, reread c = '\\' :: s := by
  rw [reread, if_pos h]
  rcases escaped_of_foreign h with h | h
  · exact ⟨_, h⟩
  · exact ⟨_, h⟩

/-- A quoted text is read back as it was if and only if nothing in it is foreign. -/
theorem flatMap_reread_eq_self_iff {s : Text} :
    s.flatMap reread = s ↔ ∀ c ∈ s, isForeign c = false := by
  induction s with
  | nil => exact ⟨fun _ => nofun, fun _ => rfl⟩
  | cons c s ih =>
      rw [List.flatMap_cons, List.forall_mem_cons, ← ih]
      by_cases h : isForeign c = true
      · obtain ⟨r, hr⟩ := head_reread_of_foreign h
        refine iff_of_false ?_ fun hall => absurd (h.symm.trans hall.1) (by decide)
        intro heq
        rw [hr] at heq
        obtain ⟨rfl, -⟩ := List.cons.inj heq
        cases h
      · rw [reread, if_neg h]
        simp [h]

end Literal

end Descent
