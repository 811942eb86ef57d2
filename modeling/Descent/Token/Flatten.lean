import Descent.Token

/-! Flattened tokens: the chain of nodes that a rule builds by naming itself becomes one node. -/

namespace Descent

namespace Token

mutual

/-- What stands for a token under a flattened node: a node of the same type is replaced by what
stands for its children. -/
def spread (type : Text) : Token → List Token
  | leaf t text => [leaf t text]
  | node t children => if t = type then spreads type children else [node t children]

def spreads (type : Text) : List Token → List Token
  | [] => []
  | t :: ts => spread type t ++ spreads type ts

end

theorem spreads_eq_flatMap (type : Text) (ts : List Token) :
    spreads type ts = ts.flatMap (spread type) := by
  induction ts with
  | nil => rfl
  | cons t ts ih => simp [spreads, ih]

/-- A node without the nodes of its own type at the top of its tree. -/
def flatten : Token → Token
  | leaf type text => leaf type text
  | node type children => node type (spreads type children)

end Token

end Descent
