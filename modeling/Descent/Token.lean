import Descent.Text

/-! Parse trees. A token is a leaf with the text that it matched or a node with its children in
order, and both carry the name of what they matched. -/

namespace Descent

inductive Token where
  | leaf (type text : Text)
  | node (type : Text) (children : List Token)

namespace Token

mutual

def decideEq : (t u : Token) → Decidable (t = u)
  | leaf type text, leaf type' text' =>
      decidable_of_iff (type = type' ∧ text = text') (by simp)
  | node type children, node type' children' =>
      have := decideAllEq children children'
      decidable_of_iff (type = type' ∧ children = children') (by simp)
  | leaf _ _, node _ _ => isFalse (by simp)
  | node _ _, leaf _ _ => isFalse (by simp)

def decideAllEq : (ts us : List Token) → Decidable (ts = us)
  | [], [] => isTrue rfl
  | t :: ts, u :: us =>
      have := decideEq t u
      have := decideAllEq ts us
      decidable_of_iff (t = u ∧ ts = us) (by simp)
  | [], _ :: _ => isFalse (by simp)
  | _ :: _, [] => isFalse (by simp)

end

instance : DecidableEq Token := decideEq

/-- The type of what a literal matched, before a rule names it. -/
def literalType : Text := "literal".toList

/-- The type of what a sequence matched, before a rule names it. -/
def sequenceType : Text := "sequence".toList

def type : Token → Text
  | leaf type _ => type
  | node type _ => type

def relabel (type : Text) : Token → Token
  | leaf _ text => leaf type text
  | node _ children => node type children

def text? : Token → Option Text
  | leaf _ text => some text
  | node _ _ => none

def children : Token → List Token
  | leaf _ _ => []
  | node _ children => children

def isLeaf : Token → Bool
  | leaf _ _ => true
  | node _ _ => false

mutual

/-- The matched text: that of a leaf, or the values of the children one after the other. -/
def value : Token → Text
  | leaf _ text => text
  | node _ children => values children

def values : List Token → Text
  | [] => []
  | t :: ts => value t ++ values ts

end

mutual

/-- The number of bytes of the value, summed over the leaves. -/
def size : Token → Nat
  | leaf _ text => text.size
  | node _ children => sizes children

def sizes : List Token → Nat
  | [] => 0
  | t :: ts => size t + sizes ts

end

theorem values_eq_flatMap (ts : List Token) : values ts = ts.flatMap value := by
  induction ts with
  | nil => rfl
  | cons t ts ih => simp [values, ih]

def isEmpty (t : Token) : Bool := t.size = 0

/-- The values of the children, one space apart. -/
def spacedValue : Token → Text
  | leaf _ text => text
  | node _ children => [' '].intercalate (children.map value)

/-- Whether the value is `s`; texts of different length are told apart without it. -/
def covers (t : Token) (s : Text) : Bool := t.size = s.size && t.value = s

def child? (t : Token) (n : Nat) : Option Token := t.children[n]?

def lastChild? (t : Token) : Option Token := t.children.getLast?

end Token

end Descent
