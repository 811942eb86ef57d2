import Descent.Grammar.Lexeme
import Descent.Grammar.Literal
import Descent.Spec

/-! Rules of a grammar, written `name := body`. A body is one or more alternatives between bars, an
alternative is a list of quoted literals and names. A list of one stands for its only item. -/

namespace Descent

namespace Grammar

/-- A word that does not start with a digit. -/
def isRuleName (name : Text) : Bool :=
  match name.bytes with
  | [] => false
  | b :: bytes => Lexeme.isWord b && !Lexeme.isDigit b && bytes.all Lexeme.isWord

/-- The text of a lexeme; lexemes cut no character. -/
def lexemeText (source : Text) (l : Lexeme) : Text := (l.span.text? source).getD []

/-- The lexemes between the bars. -/
def alternatives : List Lexeme → List (List Lexeme)
  | [] => [[]]
  | l :: ls =>
      if l.kind = .pipe then [] :: alternatives ls
      else
        match alternatives ls with
        | [] => [[l]]
        | a :: as => (l :: a) :: as

def item (source : Text) (l : Lexeme) : Except GrammarError Spec :=
  match l.kind with
  | .ident => .ok (.reference (lexemeText source l))
  | .literal =>
      match (Literal.text? (lexemeText source l)).getD [] with
      | [] => .error .emptyLiteral
      | c :: text => .ok (.literal (c :: text))
  | .define => .error (.unexpectedCharacter ':')
  | .pipe => .error (.unexpectedCharacter '|')

/-- A list of one item is that item. -/
def unwrap (wrap : List Spec → Spec) : List Spec → Spec
  | [s] => s
  | ss => wrap ss

def alternative (source : Text) : List Lexeme → Except GrammarError Spec
  | [] => .error .emptyAlternative
  | ls => do
      let items ← ls.mapM (item source)
      return unwrap .sequence items

def body (source : Text) : List Lexeme → Except GrammarError Spec
  | [] => .error .emptyBody
  | ls => do
      let branches ← (alternatives ls).mapM (alternative source)
      return unwrap .alternation branches

/-- Compiles what stands behind the separator of a rule. -/
def compileBody (source : Text) : Except GrammarError Spec := do
  let ls ← lex source
  body source ls

/-- The name in front of the separator. -/
def ruleName (source : Text) : List Lexeme → Except GrammarError Text
  | [l] =>
      if l.kind = .ident ∧ isRuleName (lexemeText source l) then .ok (lexemeText source l)
      else .error .invalidName
  | _ => .error .invalidName

/-- The name in front of the first separator and the body behind it. -/
def rule (source : Text) (ls : List Lexeme) : Except GrammarError (Text × Spec) :=
  match ls.dropWhile (·.kind ≠ .define) with
  | [] => .error .missingSeparator
  | _ :: rest => do
      let name ← ruleName source (ls.takeWhile (·.kind ≠ .define))
      let spec ← body source rest
      return (name, spec)

/-- Compiles one rule: its name and its body. -/
def compileRule (source : Text) : Except GrammarError (Text × Spec) := do
  let ls ← lex source
  rule source ls

end Grammar

end Descent
