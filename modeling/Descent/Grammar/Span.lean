import Descent.Text

/-! Stretches of a text, given by byte offsets. The offsets of a lexeme are positions of cursors, so
they have 32 bits where reading has an answer (`Grammar.span_lt_of_lex?`). -/

namespace Descent

structure Span where
  start : Nat
  stop : Nat
  deriving DecidableEq

namespace Span

def isEmpty (s : Span) : Bool := s.stop ≤ s.start

/-- The characters of the stretch; `none` if it leaves the text or cuts a character. -/
def text? (s : Span) (source : Text) : Option Text := source.slice? s.start s.stop

end Span

end Descent
