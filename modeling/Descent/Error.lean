import Descent.Text.Quoted

/-! What can go wrong: in the text of a grammar, in the set of rules, and in the parsed input. -/

namespace Descent

/-- Why a rule of a grammar is refused. -/
inductive GrammarError where
  | missingSeparator
  | invalidName
  | emptyBody
  | emptyAlternative
  | unterminatedLiteral
  | emptyLiteral
  | unexpectedCharacter (c : Char)
  | duplicateRule (name : Text)
  deriving DecidableEq

inductive Error where
  | grammar (line : Nat) (cause : GrammarError)
  | duplicateRule (name : Text)
  | unresolvedReference (name : Text)
  | noEntryPoint
  | unknownEntryPoint (name : Text)
  | notFound (input : Text)
  | incomplete (position : Nat) (remaining : Text)
  | delimiter (position : Nat) (phrase : Text)
  deriving DecidableEq

namespace GrammarError

def message : GrammarError → Text
  | missingSeparator => "missing `:=` separator".toList
  | invalidName => "rule name must be an identifier".toList
  | emptyBody => "empty rule body".toList
  | emptyAlternative => "empty alternative around `|`".toList
  | unterminatedLiteral => "unterminated literal".toList
  | emptyLiteral => "empty literal".toList
  | unexpectedCharacter c => "unexpected character ".toList ++ Text.quotedChar c
  | duplicateRule name => "rule `".toList ++ name ++ "` defined more than once".toList

end GrammarError

namespace Error

def message : Error → Text
  | grammar line cause =>
      "grammar line ".toList ++ Text.decimal line ++ ": ".toList ++ cause.message
  | duplicateRule name => "cannot redefine rule `".toList ++ name ++ "` without forcing".toList
  | unresolvedReference name => "reference to undefined rule `".toList ++ name ++ ['`']
  | noEntryPoint => "no entry point specified".toList
  | unknownEntryPoint name => "entry point `".toList ++ name ++ "` does not exist".toList
  | notFound input => input.quoted ++ " not valid".toList
  | incomplete position remaining =>
      "characters ".toList ++ remaining.quoted ++ " remaining at offset ".toList ++
        Text.decimal position
  | delimiter position phrase =>
      "expected delimiter ".toList ++ phrase.quoted ++ " at offset ".toList ++ Text.decimal position

/-- Whether the input is to blame, and not the rules or the request. -/
def blamesInput : Error → Bool
  | notFound _ => true
  | incomplete _ _ => true
  | delimiter _ _ => true
  | _ => false

end Error

end Descent
