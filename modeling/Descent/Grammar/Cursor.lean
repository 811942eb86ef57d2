import Descent.Grammar.Span

/-! A position in the bytes of a grammar. Every byte that the notation uses is ASCII, so the bytes
of a longer character can be passed over one by one. A position has 32 bits. The moves count without
a limit, and reading (`Cursor.lexemes?`) has no answer if it comes to a cursor that does not fit. -/

namespace Descent

/-- The number of bytes behind the cursor, and the bytes ahead of it. -/
structure Cursor where
  pos : Nat
  rest : List UInt8

namespace Cursor

def ofText (source : Text) : Cursor := ⟨0, source.bytes⟩

/-- The positions that 32 bits do not hold start here. -/
def limit : Nat := 4294967296

/-- Whether 32 bits hold the position. -/
def fits (c : Cursor) : Bool := c.pos < limit

def isAtEnd (c : Cursor) : Bool := c.rest.isEmpty

def peek? (c : Cursor) : Option UInt8 := c.rest.head?

/-- The cursor in front of `rest`, which ends what is ahead of `c`. -/
def moveTo (c : Cursor) (rest : List UInt8) : Cursor :=
  ⟨c.pos + (c.rest.length - rest.length), rest⟩

def next (c : Cursor) : Cursor := c.moveTo c.rest.tail

/-- The cursor behind the bytes ahead that satisfy `p`. -/
def skipWhile (c : Cursor) (p : UInt8 → Bool) : Cursor := c.moveTo (c.rest.dropWhile p)

/-- The cursor behind the given bytes, if these are ahead. -/
def skip? (c : Cursor) (bytes : List UInt8) : Option Cursor :=
  if bytes.isPrefixOf c.rest then some (c.moveTo (c.rest.drop bytes.length)) else none

def spanSince (c : Cursor) (start : Nat) : Span := ⟨start, c.pos⟩

end Cursor

end Descent
