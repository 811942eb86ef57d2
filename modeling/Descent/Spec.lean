import Descent.Token

/-! Rule bodies. A body is built from literals, names of rules and matching functions by sequence
and ordered choice. -/

namespace Descent

/-- A matching function: the token it makes, if any, and the text that it leaves. Nothing is
promised about either; the evaluation checks the text that is left. -/
abbrev Matcher := Text → Option Token × Text

inductive Spec where
  | literal (text : Text)
  | reference (name : Text)
  | sequence (items : List Spec)
  | alternation (branches : List Spec)
  | custom (matcher : Matcher)

namespace Spec

def isSequence : Spec → Bool
  | sequence _ => true
  | _ => false

def isAlternation : Spec → Bool
  | alternation _ => true
  | _ => false

mutual

/-- The names in a body from left to right, one for each place. -/
def references : Spec → List Text
  | literal _ => []
  | reference name => [name]
  | sequence items => referencesAll items
  | alternation branches => referencesAll branches
  | custom _ => []

def referencesAll : List Spec → List Text
  | [] => []
  | s :: ss => references s ++ referencesAll ss

end

theorem referencesAll_eq_flatMap (ss : List Spec) : referencesAll ss = ss.flatMap references := by
  induction ss with
  | nil => rfl
  | cons s ss ih => simp [referencesAll, ih]

end Spec

end Descent
