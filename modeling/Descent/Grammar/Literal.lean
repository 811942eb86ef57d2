import Descent.Grammar.Span

/-! The texts of literals in a grammar. -/

namespace Descent

namespace Literal

/-- The text that an escaped text stands for. A backslash that starts no escape stands for
itself. -/
def unescape : Text → Text
  | '\\' :: '\\' :: s => '\\' :: unescape s
  | '\\' :: '"' :: s => '"' :: unescape s
  | '\\' :: '\'' :: s => '\'' :: unescape s
  | '\\' :: 'n' :: s => '\n' :: unescape s
  | '\\' :: 't' :: s => '\t' :: unescape s
  | '\\' :: '0' :: s => '\x00' :: unescape s
  | '\\' :: c :: s => '\\' :: c :: unescape s
  | c :: s => c :: unescape s
  | [] => []

/-- The text of a quoted literal: its first and last byte are the quotes. -/
def text? (s : Text) : Option Text := (s.slice? 1 (s.size - 1)).map unescape

end Literal

end Descent
