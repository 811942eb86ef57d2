import Descent.Token

/-! Tokens as JSON objects, on one line or indented by two spaces. -/

namespace Descent

namespace Token

/-- One character of a JSON string. -/
def jsonEscaped : Char → Text
  | '"' => ['\\', '"']
  | '\\' => ['\\', '\\']
  | '\x08' => ['\\', 'b']
  | '\t' => ['\\', 't']
  | '\n' => ['\\', 'n']
  | '\x0c' => ['\\', 'f']
  | '\r' => ['\\', 'r']
  | c =>
      if c.toNat < 16 then "\\u000".toList ++ Nat.toDigits 16 c.toNat
      else if c.toNat < 32 then "\\u00".toList ++ Nat.toDigits 16 c.toNat
      else [c]

def jsonString (s : Text) : Text := ['"'] ++ s.flatMap jsonEscaped ++ ['"']

mutual

/-- The JSON form without spaces. -/
def json : Token → Text
  | leaf type text =>
      "\x7b\"type\":".toList ++ jsonString type ++ ",\"text\":".toList ++ jsonString text ++
        ['\x7d']
  | node type children =>
      "\x7b\"type\":".toList ++ jsonString type ++ ",\"children\":[".toList ++ jsonItems children ++
        [']', '\x7d']

def jsonItems : List Token → Text
  | [] => []
  | [t] => json t
  | t :: u :: ts => json t ++ [','] ++ jsonItems (u :: ts)

end

def jsonIndent (level : Nat) : Text := List.replicate (2 * level) ' '

/-- A member of an object on a line of its own. -/
def jsonMember (level : Nat) (key : String) (value : Text) : Text :=
  ['\n'] ++ jsonIndent level ++ jsonString key.toList ++ [':', ' '] ++ value

mutual

/-- The JSON form with one member or element on a line. -/
def prettyAt (level : Nat) : Token → Text
  | leaf type text =>
      ['\x7b'] ++ jsonMember (level + 1) "type" (jsonString type) ++ [','] ++
        jsonMember (level + 1) "text" (jsonString text) ++ ['\n'] ++ jsonIndent level ++ ['\x7d']
  | node type children =>
      ['\x7b'] ++ jsonMember (level + 1) "type" (jsonString type) ++ [','] ++
        jsonMember (level + 1) "children" (prettyItems (level + 1) children) ++ ['\n'] ++
        jsonIndent level ++ ['\x7d']

def prettyItems (level : Nat) : List Token → Text
  | [] => ['[', ']']
  | t :: ts =>
      ['[', '\n'] ++ jsonIndent (level + 1) ++ prettyAt (level + 1) t ++
        prettyMore (level + 1) ts ++ ['\n'] ++ jsonIndent level ++ [']']

def prettyMore (level : Nat) : List Token → Text
  | [] => []
  | t :: ts => [',', '\n'] ++ jsonIndent level ++ prettyAt level t ++ prettyMore level ts

end

def prettyJson (t : Token) : Text := prettyAt 0 t

end Token

end Descent
