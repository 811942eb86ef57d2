import Descent.Spec
import Descent.Text.Blank
import Descent.Text.Alphabetic
import Descent.Text.Lowercase
import Descent.Text.Uppercase

/-! Ready-made matching functions for classes of characters: one character of a class, or the
longest run of them. Their tokens are leaves that are typed after the function. -/

namespace Descent

namespace CharacterRule

def isDigit (c : Char) : Bool := '0' ≤ c && c ≤ '9'

/-- One character of the class. -/
def one (type : Text) (inClass : Char → Bool) : Matcher
  | [] => (none, [])
  | c :: rest => if inClass c then (some (.leaf type [c]), rest) else (none, c :: rest)

/-- As many characters of the class as there are, and at least one. -/
def run (type : Text) (inClass : Char → Bool) : Matcher := fun input =>
  match input.takeWhile inClass with
  | [] => (none, input)
  | c :: text => (some (.leaf type (c :: text)), input.dropWhile inClass)

def lower : Matcher := one "lower".toList isLowercase

def upper : Matcher := one "upper".toList isUppercase

def alpha : Matcher := one "alpha".toList isAlphabetic

def digit : Matcher := one "digit".toList isDigit

def whitespace : Matcher := run "whitespace".toList isBlank

def lowerRun : Matcher := run "lower_run".toList isLowercase

def upperRun : Matcher := run "upper_run".toList isUppercase

def alphaRun : Matcher := run "alpha_run".toList isAlphabetic

def digitRun : Matcher := run "digit_run".toList isDigit

/-- Every function with the name of its rule. -/
def all : List (Text × Matcher) :=
  [("lower".toList, lower), ("upper".toList, upper), ("alpha".toList, alpha),
   ("digit".toList, digit), ("whitespace".toList, whitespace), ("lower_run".toList, lowerRun),
   ("upper_run".toList, upperRun), ("alpha_run".toList, alphaRun),
   ("digit_run".toList, digitRun)]

end CharacterRule

end Descent
