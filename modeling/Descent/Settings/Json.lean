import Descent.Json
import Descent.Settings

/-! Settings read from JSON. An object gives them by name and an array in order; what is missing has
its default. A whitespace policy is read to its end before its fields are looked at, but its name is
looked at where it stands. -/

namespace Descent

namespace WhitespaceSetting

/-- The name of a policy. -/
inductive Kind where
  | none
  | ignore
  | ignoreSpecific
  | require
  deriving DecidableEq

def Kind.ofName? (name : Text) : Option Kind :=
  if name = "none".toList then some none
  else if name = "ignore".toList then some ignore
  else if name = "ignore_specific".toList then some ignoreSpecific
  else if name = "require".toList then some require
  else Option.none

/-- What a field of a policy can be read from. -/
inductive Field where
  | text (s : Text)
  | flag (b : Bool)
  | other
  deriving DecidableEq

/-- A policy and its setting stand inside two objects or arrays. -/
def room : Nat := 125

def readField (s : Text) : Except Json.Problem (Field × Text) :=
  match Json.skipSpace s with
  | '"' :: s => do
      let (text, s) ← Json.string false s
      .ok (.text text, s)
  | 't' :: s => do .ok (.flag true, ← Json.keyword "rue".toList s)
  | 'f' :: s => do .ok (.flag false, ← Json.keyword "alse".toList s)
  | s => do .ok (.other, ← Json.anyValue room s)

def readKind (s : Text) : Except Json.Problem (Kind × Text) := do
  let (name, s) ← Json.text s
  match Kind.ofName? name with
  | some kind => .ok (kind, s)
  | Option.none => .error .mismatched

/-- The only field of a name, if there is one. -/
def only? (name : String) (fields : List (Text × Field)) : Except Json.Problem (Option Field) :=
  match fields.filter (·.1 = name.toList) with
  | [] => .ok Option.none
  | [(_, field)] => .ok (some field)
  | _ => .error .mismatched

/-- A policy from its name and the values of its fields in order. -/
def ofValues (kind : Kind) (chars phrase ignore : Option Field) :
    Except Json.Problem WhitespaceSetting :=
  match kind, chars, phrase, ignore with
  | .none, _, _, _ => .ok .none
  | .ignore, _, _, _ => .ok .ignore
  | .ignoreSpecific, some (.text chars), _, _ => .ok (.ignoreSpecific chars)
  | .require, _, some (.text phrase), Option.none => .ok (.require phrase false)
  | .require, _, some (.text phrase), some (.flag trim) => .ok (.require phrase trim)
  | _, _, _, _ => .error .mismatched

def ofMembers (kind : Kind) (fields : List (Text × Field)) :
    Except Json.Problem WhitespaceSetting :=
  match kind with
  | .ignoreSpecific => do ofValues kind (← only? "chars" fields) Option.none Option.none
  | .require => do ofValues kind Option.none (← only? "phrase" fields) (← only? "ignore" fields)
  | _ => ofValues kind Option.none Option.none Option.none

def ofElements (kind : Kind) : List Field → Except Json.Problem WhitespaceSetting
  | [] => ofValues kind Option.none Option.none Option.none
  | [a] =>
      if kind = .ignoreSpecific ∨ kind = .require then ofValues kind (some a) (some a) Option.none
      else .error .mismatched
  | [a, b] =>
      if kind = .require then ofValues kind Option.none (some a) (some b) else .error .mismatched
  | _ => .error .mismatched

/-- The members of an object: the name of the policy and the other fields. -/
def readMembers (first : Bool) (kind : Option Kind) (fields : List (Text × Field)) :
    Nat → Text → Except Json.Problem (WhitespaceSetting × Text)
  | 0, _ => .error .ended
  | fuel + 1, s => do
      match ← Json.nextKey first s with
      | (Option.none, s) =>
          match kind with
          | Option.none => .error .mismatched
          | some kind => do .ok (← ofMembers kind fields.reverse, s)
      | (some key, s) =>
          if key = "policy".toList then
            if kind.isSome then .error .mismatched
            else do
              let (kind, s) ← readKind (← Json.colon s)
              readMembers false (some kind) fields fuel s
          else do
            let (field, s) ← readField (← Json.colon s)
            readMembers false kind ((key, field) :: fields) fuel s

/-- The elements of an array behind the name of the policy. -/
def readElements (kind : Kind) (fields : List Field) :
    Nat → Text → Except Json.Problem (WhitespaceSetting × Text)
  | 0, _ => .error .ended
  | fuel + 1, s => do
      match ← Json.nextElement false s with
      | (false, s) => do .ok (← ofElements kind fields.reverse, s)
      | (true, s) => do
          let (field, s) ← readField s
          readElements kind (field :: fields) fuel s

def read (s : Text) : Except Json.Problem (WhitespaceSetting × Text) :=
  match Json.skipSpace s with
  | '\x7b' :: s => readMembers true Option.none [] (s.length + 1) s
  | '[' :: s => do
      match ← Json.nextElement true s with
      | (false, _) => .error .mismatched
      | (true, s) => do
          let (kind, s) ← readKind s
          readElements kind [] (s.length + 1) s
  | s => .error (Json.mismatch s)

end WhitespaceSetting

namespace Settings

/-- The members that have been read. -/
structure Given where
  ignoreWhitespace : Option Bool := none
  whitespace : Option (Option WhitespaceSetting) := none
  start : Option (Option Text) := none

def ofGiven (g : Given) : Settings :=
  ⟨g.ignoreWhitespace.getD false, g.whitespace.getD none, g.start.getD none⟩

/-- The members of an object. A setting that is given twice is refused at its key, and the value of
an unknown key is skipped. -/
def readMembers (first : Bool) (g : Given) : Nat → Text → Except Json.Problem (Settings × Text)
  | 0, _ => .error .ended
  | fuel + 1, s => do
      match ← Json.nextKey first s with
      | (none, s) => .ok (ofGiven g, s)
      | (some key, s) =>
          if key = "ignore_whitespace".toList then
            if g.ignoreWhitespace.isSome then .error .mismatched
            else do
              let (b, s) ← Json.bool (← Json.colon s)
              readMembers false { g with ignoreWhitespace := some b } fuel s
          else if key = "whitespace".toList then
            if g.whitespace.isSome then .error .mismatched
            else do
              let (setting, s) ← Json.optional WhitespaceSetting.read (← Json.colon s)
              readMembers false { g with whitespace := some setting } fuel s
          else if key = "main".toList then
            if g.start.isSome then .error .mismatched
            else do
              let (name, s) ← Json.optional Json.text (← Json.colon s)
              readMembers false { g with start := some name } fuel s
          else do
            let s ← Json.ignored (← Json.colon s)
            readMembers false g fuel s

/-- The end of an array that has all its elements. -/
def endOfElements (s : Text) : Except Json.Problem Text :=
  match Json.skipSpace s with
  | [] => .error .ended
  | ']' :: s => .ok s
  | _ => .error .malformed

/-- The elements of an array, in the order of the settings. -/
def readElements (s : Text) : Except Json.Problem (Settings × Text) := do
  match ← Json.nextElement true s with
  | (false, s) => .ok ({}, s)
  | (true, s) => do
      let (ignoreWhitespace, s) ← Json.bool s
      match ← Json.nextElement false s with
      | (false, s) => .ok ({ ignoreWhitespace }, s)
      | (true, s) => do
          let (whitespace, s) ← Json.optional WhitespaceSetting.read s
          match ← Json.nextElement false s with
          | (false, s) => .ok ({ ignoreWhitespace, whitespace }, s)
          | (true, s) => do
              let (start, s) ← Json.optional Json.text s
              .ok ({ ignoreWhitespace, whitespace, start }, ← endOfElements s)

def read (s : Text) : Except Json.Problem (Settings × Text) :=
  match Json.skipSpace s with
  | '\x7b' :: s => readMembers true {} (s.length + 1) s
  | '[' :: s => readElements s
  | s => .error (Json.mismatch s)

/-- Settings from a whole JSON text. -/
def ofJson (s : Text) : Except Json.Problem Settings := do
  let (settings, s) ← read s
  if (Json.skipSpace s).isEmpty then .ok settings else .error .malformed

end Settings

end Descent
