import Descent.Token
import Descent.Text.Quoted

/-! Tokens as indented lines and as one line. -/

namespace Descent

namespace Token

/-- Two spaces for each level. -/
def indent (level : Nat) : Text := List.replicate (2 * level) ' '

mutual

/-- One line for each token: its type, and for a leaf its quoted text. -/
def linesAt (level : Nat) : Token → Text
  | leaf type text => indent level ++ type ++ [' '] ++ text.quoted ++ ['\n']
  | node type children => indent level ++ type ++ ['\n'] ++ linesAtAll (level + 1) children

def linesAtAll (level : Nat) : List Token → Text
  | [] => []
  | t :: ts => linesAt level t ++ linesAtAll level ts

end

/-- The tree as lines that are indented by depth. -/
def display (t : Token) : Text := linesAt 0 t

/-- The type and the quoted value. -/
def summary (t : Token) : Text :=
  "Token ".toList ++ t.type ++ ": ".toList ++ t.value.quoted

end Token

end Descent
