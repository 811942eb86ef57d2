import Descent.CharacterRule
import Descent.Evaluation
import Descent.Grammar.Width
import Descent.Settings

/-! Parsers: a table of rules and the whitespace policy that they are evaluated with. Rules come
from grammar text, from ready bodies and from matching functions. -/

namespace Descent

structure Parser where
  registry : Registry := {}
  whitespace : Whitespace := .keep
  /-- The start rule that the settings ask for. -/
  requestedStart : Option Text := none

structure ParseOptions where
  /-- The rule to start from, instead of the start rule. -/
  start : Option Text := none
  /-- Whether input may remain. -/
  mayLeaveRest : Bool := false

namespace Parser

def ofWhitespace (policy : Whitespace) : Parser := { whitespace := policy }

def ofSettings (s : Settings) : Parser := { whitespace := s.policy, requestedStart := s.start }

/-- A change of the rules alone. -/
def onRegistry {α : Type} (p : Parser) (x : Change Registry α) : Change Parser α :=
  x.within fun registry => { p with registry }

/-- Registers a body. -/
def register (p : Parser) (name : Text) (spec : Spec) (options : Registration) :
    Change Parser Nat :=
  p.onRegistry (p.registry.insert name spec
    (if p.requestedStart = some name then { options with start := true } else options))

/-- Registers a matching function. -/
def registerMatcher (p : Parser) (name : Text) (matcher : Matcher) (options : Registration) :
    Change Parser Nat :=
  p.register name (.custom matcher) options

/-- Registers a compiled body, if it is one. -/
def registerCompiled (p : Parser) (name : Text) (options : Registration) :
    Except GrammarError Spec → Change Parser Nat
  | .ok spec => p.register name spec options
  | .error cause => .refused p (.grammar 1 cause)

/-- Registers a body that is written as grammar text. -/
def define (p : Parser) (name body : Text) (options : Registration) : Change Parser Nat :=
  if Grammar.isRuleName name then p.registerCompiled name options (Grammar.compileBody body)
  else .refused p (.grammar 1 .invalidName)

/-- Registers a body that is written as grammar text, if it is read within 32 bits. -/
def define? (p : Parser) (name body : Text) (options : Registration) :
    Option (Change Parser Nat) :=
  if Grammar.isRuleName name then
    (Grammar.compileBody? body).map (p.registerCompiled name options)
  else some (.refused p (.grammar 1 .invalidName))

/-- Registers definitions one after the other. -/
def registerAll (p : Parser) : List Definition → Change Parser (List Nat)
  | [] => .ok p []
  | d :: ds =>
      (p.register d.name d.spec {}).andThen fun handle p =>
        (p.registerAll ds).map (handle :: ·)

/-- Registers a compiled block, but none of it if one of its names is taken. -/
def registerTogether (p : Parser) (ds : List Definition) : Change Parser (List Nat) :=
  match ds.find? (p.registry.contains ·.name) with
  | some d => .refused p (.duplicateRule d.name)
  | none => p.registerAll ds

def loadCompiled (p : Parser) : Except Error (List Definition) → Change Parser (List Nat)
  | .error e => .refused p e
  | .ok ds => .noting (.blockCompiled ds.length) (p.registerTogether ds)

/-- Registers a block with one rule on a line. -/
def load (p : Parser) (text : Text) : Change Parser (List Nat) :=
  p.loadCompiled (Grammar.compile text)

/-- Registers a block with rules between delimiters. -/
def loadDelimited (p : Parser) (text delimiter : Text) : Change Parser (List Nat) :=
  p.loadCompiled (Grammar.compileDelimited text delimiter)

/-- Registers a block with one rule on a line, if it is read within 32 bits. -/
def load? (p : Parser) (text : Text) : Option (Change Parser (List Nat)) :=
  (Grammar.compile? text).map p.loadCompiled

/-- Registers a block with rules between delimiters, if it is read within 32 bits. -/
def loadDelimited? (p : Parser) (text delimiter : Text) : Option (Change Parser (List Nat)) :=
  (Grammar.compileDelimited? text delimiter).map p.loadCompiled

def startFrom (p : Parser) (name : Text) : Change Parser Unit :=
  p.onRegistry (p.registry.startFrom name)

def withPolicy (p : Parser) (policy : Whitespace) : Parser := { p with whitespace := policy }

/-- Registers the functions whose names are free, and counts them. -/
def registerMissing (p : Parser) (options : Registration) :
    List (Text × Matcher) → Change Parser Nat
  | [] => .ok p 0
  | (name, matcher) :: rest =>
      if p.registry.contains name then p.registerMissing options rest
      else
        (p.registerMatcher name matcher options).andThen fun _ p =>
          (p.registerMissing options rest).map (· + 1)

/-- Registers the character rules whose names are free. The start rule stays what it was, also if
there was none, unless the options ask for another. -/
def loadCharacterRules (p : Parser) (options : Registration) : Change Parser Nat :=
  (p.registerMissing options CharacterRule.all).andThen fun count q =>
    .ok (if options.start then q
      else { q with registry := q.registry.withStart p.registry.start }) count

/-- Parses the whole input, or the start of it if input may remain. -/
def parse (p : Parser) (input : Text) (options : ParseOptions) : Run Token :=
  match p.registry.entry options.start with
  | .error e => .error e
  | .ok rule => do
      .note (.parsing input.size rule.name)
      match ← (Evaluation.mk p.registry p.whitespace input).rule rule input with
      | (none, _) => .error (.notFound input)
      | (some token, rest) =>
          if rest.isEmpty || options.mayLeaveRest then pure token
          else .error (.incomplete (input.offsetOf rest) rest)

end Parser

end Descent
