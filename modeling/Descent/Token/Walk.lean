import Descent.Token

/-! The walk below a token, depth first and left to right. The walk keeps a stack of the siblings
that are still to be visited; it ends because each visit takes one token off what is pending. -/

namespace Descent

namespace Token

mutual

/-- The number of tokens of a tree. -/
def count : Token → Nat
  | leaf _ _ => 1
  | node _ children => counts children + 1

def counts : List Token → Nat
  | [] => 0
  | t :: ts => count t + counts ts

end

theorem count_eq (t : Token) : t.count = counts t.children + 1 := by
  cases t <;> simp [count, children, counts]

end Token

/-- The siblings still to be visited, the deepest first. -/
structure Walk where
  pending : List (List Token)

namespace Walk

/-- A walk over the tokens below `t`. -/
def under (t : Token) : Walk := ⟨[t.children]⟩

/-- The next token, and the walk that goes on with its children. -/
def next? : List (List Token) → Option (Token × List (List Token))
  | [] => none
  | [] :: rest => next? rest
  | (t :: siblings) :: rest => some (t, t.children :: siblings :: rest)

/-- The number of tokens that are still to be visited. -/
def weight : List (List Token) → Nat
  | [] => 0
  | siblings :: rest => Token.counts siblings + weight rest

theorem weight_next? {pending after : List (List Token)} {t : Token}
    (h : next? pending = some (t, after)) : weight after < weight pending := by
  induction pending with
  | nil => simp [next?] at h
  | cons siblings rest ih =>
    cases siblings with
    | nil => simpa [weight, Token.counts] using ih h
    | cons s siblings =>
      simp only [next?, Option.some.injEq, Prod.mk.injEq] at h
      obtain ⟨rfl, rfl⟩ := h
      simp only [weight, Token.counts, Token.count_eq s]
      omega

/-- All tokens that `next?` gives, in order. -/
def visits (pending : List (List Token)) : List Token :=
  match _h : next? pending with
  | none => []
  | some (t, after) => t :: visits after
termination_by weight pending
decreasing_by exact weight_next? _h

def toList (w : Walk) : List Token := visits w.pending

end Walk

namespace Token

/-- Every token below `t`. -/
def descendants (t : Token) : List Token := (Walk.under t).toList

/-- Every token below `t` that has the type. -/
def ofType (t : Token) (type : Text) : List Token := t.descendants.filter (·.type = type)

/-- The tokens without children, from left to right. -/
def frontier (t : Token) : List Token :=
  if t.children.isEmpty then [t] else t.descendants.filter (·.children.isEmpty)

/-- The tokens `n` levels below the given ones. -/
def levelBelow : List Token → Nat → List Token
  | ts, 0 => ts
  | [], _ + 1 => []
  | t :: ts, n + 1 => levelBelow ((t :: ts).flatMap children) n

/-- The tokens exactly `n` levels below `t`; a leaf above that level is not carried down. -/
def level (t : Token) (n : Nat) : List Token := levelBelow [t] n

end Token

end Descent
