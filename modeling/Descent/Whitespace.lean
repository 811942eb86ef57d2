import Descent.Run
import Descent.Text.Blank

/-! Whitespace policies: what is skipped before a literal is tried, and before a matching function
that asks for it. Skipped text never becomes part of a token. -/

namespace Descent

inductive Whitespace where
  /-- Nothing is skipped. -/
  | keep
  /-- All blanks are skipped. -/
  | ignore
  /-- The characters of the set are skipped. -/
  | ignoreSpecific (chars : Text)
  /-- Between two matches the phrase must stand, and after it blanks are skipped on demand. -/
  | require (phrase : Text) (trim : Bool)
  | custom (skip : Text → Text)

namespace Whitespace

def oneSpace : Whitespace := require [' '] false

def oneSpaceOrMore : Whitespace := require [' '] true

def ignoreSpaces : Whitespace := ignoreSpecific [' ']

/-- What is left of `input` after the phrase; the phrase is due only strictly inside the source. -/
def skipPhrase (phrase : Text) (trim : Bool) (input source : Text) : Run Text :=
  if input.size < source.size ∧ input ≠ [] then
    match Text.after? phrase input with
    | some rest => pure (if trim then Text.trimStart rest else rest)
    | none => .error (.delimiter (source.offsetOf input) phrase)
  else pure input

/-- What is left of `input`, which ends `source`. A policy function is obeyed only if its answer
ends the input. -/
def skip (policy : Whitespace) (input source : Text) : Run Text :=
  match policy with
  | keep => pure input
  | ignore => pure (Text.trimStart input)
  | ignoreSpecific chars => pure (input.dropWhile (chars.contains ·))
  | require phrase trim => skipPhrase phrase trim input source
  | custom skip =>
      match Text.asSuffix? input (skip input) with
      | some rest => pure rest
      | none => do
          .note .foreignSkip
          pure input

/-- The policy and its settings. -/
def outline : Whitespace → Text
  | keep => "Keep".toList
  | ignore => "Ignore".toList
  | ignoreSpecific chars => "IgnoreSpecific(".toList ++ chars.quoted ++ [')']
  | require phrase trim =>
      "Require \x7b phrase: ".toList ++ phrase.quoted ++ ", ignore: ".toList ++
        (toString trim).toList ++ " \x7d".toList
  | custom _ => "Custom".toList

end Whitespace

end Descent
