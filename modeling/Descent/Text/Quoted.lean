import Descent.Text
import Descent.Text.Hidden

/-! Quoted texts and characters. A quoted form is one line: the common controls, the backslash and
the enclosing quote have escapes of two characters, and a hidden character is spelled by the
hexadecimal digits of its code point. -/

namespace Descent

namespace Text

/-- The code point of a character between braces. -/
def codePointEscape (c : Char) : Text :=
  ['\\', 'u', '\x7b'] ++ Nat.toDigits 16 c.toNat ++ ['\x7d']

/-- One character of a quoted form that is enclosed by `quote`. -/
def escaped (quote c : Char) : Text :=
  match c with
  | '\x00' => ['\\', '0']
  | '\t' => ['\\', 't']
  | '\r' => ['\\', 'r']
  | '\n' => ['\\', 'n']
  | '\\' => ['\\', '\\']
  | c => if c = quote then ['\\', c] else if isHidden c then codePointEscape c else [c]

/-- A text between double quotes. -/
def quoted (s : Text) : Text := ['"'] ++ s.flatMap (escaped '"') ++ ['"']

/-- A character between single quotes. -/
def quotedChar (c : Char) : Text := ['\''] ++ escaped '\'' c ++ ['\'']

end Text

end Descent
