import Descent.Error
import Descent.Grammar.Cursor

/-! The lexemes of a rule. ASCII spaces separate lexemes and are dropped; a word is as long as it
can be; a literal ends at its own quote, and a backslash in it protects the byte that follows. -/

namespace Descent

inductive Lexeme.Kind where
  | ident
  | literal
  | pipe
  | define
  deriving DecidableEq

structure Lexeme where
  kind : Lexeme.Kind
  span : Span
  deriving DecidableEq

namespace Lexeme

/-- Space, tabulator, line feed, form feed and carriage return. -/
def isSpace (b : UInt8) : Bool := b = 0x20 || b = 0x09 || b = 0x0A || b = 0x0C || b = 0x0D

def isDigit (b : UInt8) : Bool := 0x30 ≤ b && b ≤ 0x39

/-- ASCII letters and digits, and the underscore. -/
def isWord (b : UInt8) : Bool :=
  b = 0x5F || (0x61 ≤ b && b ≤ 0x7A) || (0x41 ≤ b && b ≤ 0x5A) || isDigit b

/-- Why no lexeme can be read. -/
inductive Fault where
  | unterminated
  | unexpected
  deriving DecidableEq

/-- The bytes behind the end of a literal. -/
def afterLiteral (quote : UInt8) : List UInt8 → Option (List UInt8)
  | [] => none
  | b :: rest =>
      if b = 0x5C then
        match rest with
        | [] => none
        | _ :: rest => afterLiteral quote rest
      else if b = quote then some rest
      else afterLiteral quote rest

theorem length_of_afterLiteral {quote : UInt8} {bytes rest : List UInt8}
    (h : afterLiteral quote bytes = some rest) : rest.length < bytes.length := by
  fun_induction afterLiteral quote bytes with
  | case1 => simp at h
  | case2 => simp at h
  | case3 b rest ih => have := ih h; simp; omega
  | case4 => simp at h; simp [h]
  | case5 b rest _ _ ih => have := ih h; simp; omega

/-- The lexeme that starts with byte `b`: its kind, and the bytes behind it. -/
def read (b : UInt8) (rest : List UInt8) : Except Fault (Kind × List UInt8) :=
  if b = 0x7C then .ok (.pipe, rest)
  else if b = 0x3A ∧ rest.head? = some 0x3D then .ok (.define, rest.tail)
  else if b = 0x22 ∨ b = 0x27 then
    match afterLiteral b rest with
    | some rest => .ok (.literal, rest)
    | none => .error .unterminated
  else if isWord b then .ok (.ident, rest.dropWhile isWord)
  else .error .unexpected

theorem length_of_read {b : UInt8} {bytes rest : List UInt8} {kind : Kind}
    (h : read b bytes = .ok (kind, rest)) : rest.length ≤ bytes.length := by
  unfold read at h
  split at h
  · simp_all
  split at h
  · simp only [Except.ok.injEq, Prod.mk.injEq] at h
    simp [← h.2]
  split at h
  · split at h
    · next hl =>
      simp only [Except.ok.injEq, Prod.mk.injEq] at h
      exact h.2 ▸ Nat.le_of_lt (length_of_afterLiteral hl)
    · simp at h
  split at h
  · simp only [Except.ok.injEq, Prod.mk.injEq] at h
    exact h.2 ▸ (List.dropWhile_sublist _).length_le
  · simp at h

end Lexeme

namespace Cursor

/-- The lexemes up to the end of the text, and the cursor where reading stopped. Reading stops in
front of a byte that starts no lexeme, and behind a literal that does not end. -/
def lexemes (c : Cursor) : Except Lexeme.Fault (List Lexeme) × Cursor :=
  let start := c.skipWhile Lexeme.isSpace
  match _h : start.rest with
  | [] => (.ok [], start)
  | b :: bytes =>
      match _hr : Lexeme.read b bytes with
      | .error .unterminated => (.error .unterminated, start.moveTo [])
      | .error .unexpected => (.error .unexpected, start)
      | .ok (kind, rest) =>
          let stop := start.moveTo rest
          match stop.lexemes with
          | (.ok ls, last) => (.ok (⟨kind, stop.spanSince start.pos⟩ :: ls), last)
          | (.error fault, last) => (.error fault, last)
termination_by c.rest.length
decreasing_by
  have hs : (c.rest.dropWhile Lexeme.isSpace).length ≤ c.rest.length :=
    (List.dropWhile_sublist _).length_le
  have hb : c.rest.dropWhile Lexeme.isSpace = b :: bytes := _h
  have := Lexeme.length_of_read _hr
  rw [hb] at hs
  simp only [moveTo, List.length_cons] at hs ⊢
  omega

end Cursor

/-- The cause of a fault at a byte of the source; there is none inside a character. -/
def Lexeme.Fault.cause? (source : Text) (pos : Nat) : Fault → Option GrammarError
  | unterminated => some .unterminatedLiteral
  | unexpected => (source.fromByte? pos).map fun s => .unexpectedCharacter (s.headD '\ufffd')

namespace Grammar

/-- What was read of the source, with the cause of a fault. Reading from the start never stops
inside a character, so the replacement character does not appear. -/
def told (source : Text) :
    Except Lexeme.Fault (List Lexeme) × Cursor → Except GrammarError (List Lexeme)
  | (.ok ls, _) => .ok ls
  | (.error fault, stop) =>
      .error ((fault.cause? source stop.pos).getD (.unexpectedCharacter '\ufffd'))

/-- The lexemes of a rule, or why it has none. -/
def lex (source : Text) : Except GrammarError (List Lexeme) :=
  told source (Cursor.ofText source).lexemes

end Grammar

end Descent
