/-! Whole numbers in the binary64 format: a number keeps 53 binary digits, and from 2^1024 on it is
infinite. Each operation rounds its exact result to the nearest number of the format, of two that
are as near to the one that is even in its last place. -/

namespace Descent

namespace Binary64

/-- The nearest multiple of `unit`, and half-way between two of them the even one. -/
def nearestMultiple (unit n : Nat) : Nat :=
  let q := n / unit
  let twice := 2 * (n % unit)
  if twice < unit ∨ twice = unit ∧ q % 2 = 0 then q * unit else (q + 1) * unit

/-- The value of the last of 53 binary digits. -/
def lastPlace (n : Nat) : Nat := Nat.pow 2 (n.log2 - 52)

def rounded (n : Nat) : Nat := nearestMultiple (lastPlace n) n

def isFinite (n : Nat) : Bool := rounded n < Nat.pow 2 1024

/-- The product of two rounded factors before it is rounded itself. -/
def scaled (significand power : Nat) : Nat := rounded significand * rounded (Nat.pow 10 power)

end Binary64

end Descent
