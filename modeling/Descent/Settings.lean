import Descent.Whitespace

/-! Settings of a parser, as a configuration file gives them. -/

namespace Descent

inductive WhitespaceSetting where
  | none
  | ignore
  | ignoreSpecific (chars : Text)
  | require (phrase : Text) (trim : Bool)
  deriving DecidableEq

namespace WhitespaceSetting

def policy : WhitespaceSetting → Whitespace
  | none => .keep
  | ignore => .ignore
  | ignoreSpecific chars => .ignoreSpecific chars
  | require phrase trim => .require phrase trim

end WhitespaceSetting

structure Settings where
  /-- Short for the policy that ignores blanks. -/
  ignoreWhitespace : Bool := false
  /-- Goes before `ignoreWhitespace`. -/
  whitespace : Option WhitespaceSetting := none
  /-- The start rule, from the moment a rule of the name is registered. -/
  start : Option Text := none
  deriving DecidableEq

namespace Settings

def policy (s : Settings) : Whitespace :=
  match s.whitespace with
  | some setting => setting.policy
  | none => if s.ignoreWhitespace then .ignore else .keep

end Settings

end Descent
