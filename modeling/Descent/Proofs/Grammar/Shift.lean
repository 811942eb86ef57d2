import Descent.Proofs.Grammar.Lexing
import Descent.Proofs.Grammar.Spelling

/-! Lexemes behind other text. Reading does not depend on how many bytes stand in front, except that
all spans are moved by their number; so the end of a rule compiles as it would compile by itself,
and is refused for the same cause. -/

namespace Descent

open Text (bytes size)

/-- The lexeme behind `n` more bytes. -/
def Lexeme.shift (n : Nat) (l : Lexeme) : Lexeme := ⟨l.kind, ⟨n + l.span.start, n + l.span.stop⟩⟩

namespace Cursor

/-- The cursor behind `n` more bytes. -/
def shift (n : Nat) (c : Cursor) : Cursor := ⟨n + c.pos, c.rest⟩

theorem moveTo_shift (n : Nat) (c : Cursor) (rest : List UInt8) :
    (c.shift n).moveTo rest = (c.moveTo rest).shift n := by
  simp [moveTo, shift, Nat.add_assoc]

theorem skipWhile_shift (n : Nat) (c : Cursor) (p : UInt8 → Bool) :
    (c.shift n).skipWhile p = (c.skipWhile p).shift n :=
  moveTo_shift n c _

theorem lexemes_shift (n : Nat) (c : Cursor) :
    (c.shift n).lexemes = (c.lexemes.1.map (List.map (Lexeme.shift n)), c.lexemes.2.shift n) := by
  rw [lexemes_eq (c.shift n), lexemes_eq c, skipWhile_shift]
  have hle : (c.skipWhile Lexeme.isSpace).rest.length ≤ c.rest.length :=
    (List.dropWhile_sublist _).length_le
  generalize c.skipWhile Lexeme.isSpace = start at hle
  obtain ⟨pos, _ | ⟨b, bytes⟩⟩ := start
  · rfl
  · dsimp only [shift]
    cases hread : Lexeme.read b bytes with
    | error fault =>
        cases fault with
        | unterminated => exact congrArg (Prod.mk _) (moveTo_shift n ⟨pos, b :: bytes⟩ [])
        | unexpected => rfl
    | ok found =>
        obtain ⟨kind, rest⟩ := found
        have hlt : rest.length < c.rest.length :=
          Nat.lt_of_le_of_lt (Lexeme.length_of_read hread) hle
        dsimp only
        have hmove := moveTo_shift n ⟨pos, b :: bytes⟩ rest
        rw [shift] at hmove
        rw [hmove, lexemes_shift n]
        generalize (Cursor.mk pos (b :: bytes)).moveTo rest = stop
        rcases stop.lexemes with ⟨fault | ls, last⟩
        · rfl
        · rfl
termination_by c.rest.length

end Cursor

namespace Text

theorem fromByte?_append (before s : Text) (n : Nat) :
    fromByte? (before ++ s) (size before + n) = fromByte? s n := by
  induction before with
  | nil => rw [List.nil_append, size, Nat.zero_add]
  | cons c before ih =>
      have hpos := c.utf8Size_pos
      rw [List.cons_append, size, Nat.add_assoc]
      generalize hsize : size before + n = rest at ih
      cases hm : c.utf8Size + rest with
      | zero => omega
      | succ m =>
          rw [fromByte?, ← hm, if_neg (by omega), Nat.add_sub_cancel_left, ih]

theorem slice?_append (before s : Text) (start stop : Nat) :
    slice? (before ++ s) (size before + start) (size before + stop) = slice? s start stop := by
  simp only [slice?, fromByte?_append, Nat.add_sub_add_left, Nat.add_le_add_iff_left]

end Text

/-- A fault behind other text has the cause that it would have by itself. -/
theorem Lexeme.Fault.cause?_append (before source : Text) (pos : Nat) (fault : Fault) :
    fault.cause? (before ++ source) (size before + pos) = fault.cause? source pos := by
  cases fault with
  | unterminated => rfl
  | unexpected => rw [cause?, cause?, Text.fromByte?_append]

namespace Grammar

theorem lexemeText_append (before source : Text) (l : Lexeme) :
    lexemeText (before ++ source) (l.shift (size before)) = lexemeText source l :=
  congrArg (Option.getD · []) (Text.slice?_append before source _ _)

theorem body_append (before source : Text) (ls : List Lexeme) :
    body (before ++ source) (ls.map (Lexeme.shift (size before))) = body source ls := by
  refine body_congr (List.forall₂_map_left_iff.2 (List.forall₂_same.2 fun l _ => ?_))
  exact ⟨rfl, lexemeText_append before source l⟩

/-- What `lex` makes of the lexemes that were read. -/
theorem lex_eq (source : Text) :
    lex source = (Cursor.ofText source).lexemes.1.mapError fun fault =>
      (fault.cause? source (Cursor.ofText source).lexemes.2.pos).getD
        (.unexpectedCharacter '\ufffd') := by
  rw [lex]
  rcases (Cursor.ofText source).lexemes with ⟨fault | ls, last⟩
  · rfl
  · rfl

end Grammar

end Descent
