import Descent.Spec
import Descent.Text.Quoted

/-! Rule bodies as grammar text, and in a form that shows their structure. A choice or sequence
inside another body stands between parentheses, unless it is a sequence that is a branch. -/

namespace Descent

namespace Spec

def parenthesized (nested : Bool) (s : Text) : Text :=
  if nested then ['('] ++ s ++ [')'] else s

mutual

/-- Grammar text; `nested` asks for parentheses where the body has parts. -/
def textIn (nested : Bool) : Spec → Text
  | literal text => text.quoted
  | reference name => name
  | custom _ => "<custom>".toList
  | sequence [] => "<empty>".toList
  | sequence (s :: ss) => parenthesized nested (textIn true s ++ itemsText ss)
  | alternation [] => parenthesized nested []
  | alternation (s :: ss) => parenthesized nested (textIn (!s.isSequence) s ++ branchesText ss)

def itemsText : List Spec → Text
  | [] => []
  | s :: ss => [' '] ++ textIn true s ++ itemsText ss

def branchesText : List Spec → Text
  | [] => []
  | s :: ss => " | ".toList ++ textIn (!s.isSequence) s ++ branchesText ss

end

/-- A body as grammar text. -/
def text (s : Spec) : Text := textIn false s

mutual

/-- The constructors of a body, with quoted texts. -/
def outline : Spec → Text
  | literal text => "Literal(".toList ++ text.quoted ++ [')']
  | reference name => "Reference(".toList ++ name.quoted ++ [')']
  | sequence items => "Sequence([".toList ++ outlines items ++ [']', ')']
  | alternation branches => "Alternation([".toList ++ outlines branches ++ [']', ')']
  | custom _ => "Custom".toList

def outlines : List Spec → Text
  | [] => []
  | [s] => outline s
  | s :: r :: ss => outline s ++ [',', ' '] ++ outlines (r :: ss)

end

end Spec

end Descent
