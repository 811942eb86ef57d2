import Descent.Registry
import Descent.Run
import Descent.Whitespace

/-! Recursive descent over rule bodies. A step takes what is left of the source to the token that it
made and to the rest; a step that fails leaves what it was given. Errors are no failed steps: they
end the evaluation. The recursion is on the body, and a name in a body is passed to a function, so
fuel is spent on names alone. `unfinished` means that the fuel ran out. -/

namespace Descent

/-- A token, and whether a rule or a matching function has typed it. -/
structure Match where
  token : Token
  named : Bool

abbrev Attempt := Option Match × Text

namespace Match

/-- The token of the rule `name`: a token that is typed after another rule is kept below a node,
any other one takes the name. -/
def typedAfter (m : Match) (name : Text) : Token :=
  if m.token.type = name then m.token
  else if m.named then .node name [m.token]
  else m.token.relabel name

end Match

/-- What an evaluation reads: the rules, the policy, and the whole text that is parsed. -/
structure Evaluation where
  registry : Registry
  whitespace : Whitespace
  source : Text

namespace Evaluation

/-- An empty literal never matches: it would match for ever. -/
def literal (e : Evaluation) (text input : Text) : Run Attempt :=
  if text = [] then pure (none, input)
  else do
    let skipped ← e.whitespace.skip input e.source
    match Text.after? text skipped with
    | some rest =>
        .note (.literalMatched text)
        pure (some ⟨.leaf Token.literalType text, false⟩, rest)
    | none =>
        .note (.literalFailed text)
        pure (none, input)

/-- A matching function is obeyed only if what it leaves ends the input. -/
def custom (matcher : Matcher) (input : Text) : Run Attempt :=
  match matcher input with
  | (some token, rest) =>
      match Text.asSuffix? input rest with
      | some rest => pure (some ⟨token, true⟩, rest)
      | none => do
          .note (.foreignMatch token.type)
          pure (none, input)
  | (none, _) => pure (none, input)

mutual

/-- One step with a body; `call` takes a name and the input to the step with the rule. -/
def body (e : Evaluation) (call : Text → Text → Run Attempt) : Spec → Text → Run Attempt
  | .literal text, input => e.literal text input
  | .reference name, input => call name input
  | .sequence items, input => do
      match ← e.sequence call items input with
      | some (tokens, rest) => pure (some ⟨.node Token.sequenceType tokens, false⟩, rest)
      | none => pure (none, input)
  | .alternation branches, input => e.alternation call branches input
  | .custom matcher, input => custom matcher input

/-- The tokens of all items, or nothing as soon as one item fails. -/
def sequence (e : Evaluation) (call : Text → Text → Run Attempt) :
    List Spec → Text → Run (Option (List Token × Text))
  | [], input => pure (some ([], input))
  | item :: items, input => do
      match ← e.body call item input with
      | (some m, rest) => do
          match ← e.sequence call items rest with
          | some (tokens, rest) => pure (some (m.token :: tokens, rest))
          | none => pure none
      | (none, _) => pure none

/-- The step of the first branch that matches. -/
def alternation (e : Evaluation) (call : Text → Text → Run Attempt) : List Spec → Text → Run Attempt
  | [], input => pure (none, input)
  | branch :: branches, input => do
      match ← e.body call branch input with
      | (some m, rest) => pure (some m, rest)
      | (none, _) => e.alternation call branches input

end

/-- Where a rule starts: only before a matching function is the policy applied here, for the
literals of a body apply it on their own. -/
def start (e : Evaluation) (rule : Rule) (input : Text) : Run Text :=
  match rule.spec with
  | .custom _ => if rule.whitespace then e.whitespace.skip input e.source else pure input
  | _ => pure input

/-- One step with a rule. -/
def apply (e : Evaluation) (call : Text → Text → Run Attempt) (rule : Rule) (input : Text) :
    Run Attempt := do
  let start ← e.start rule input
  match ← e.body call rule.spec start with
  | (some m, rest) =>
      .note (.ruleMatched rule.name)
      pure (some ⟨m.typedAfter rule.name, true⟩, rest)
  | (none, _) =>
      .note (.ruleFailed rule.name)
      pure (none, input)

/-- One step with the rule of a name, within a depth of `fuel` names. -/
def call (e : Evaluation) : Nat → Text → Text → Run Attempt
  | 0, _, _ => .unfinished
  | fuel + 1, name, input =>
      match e.registry.lookup? name with
      | some rule => e.apply (e.call fuel) rule input
      | none => .error (.unresolvedReference name)

/-- Names nest no deeper than this in an evaluation that ends: a rule that is met again below
itself has less input left, or else it would be met for ever. -/
def depth (e : Evaluation) (input : Text) : Nat := e.registry.size * (input.length + 1) + 1

def strip (step : Attempt) : Option Token × Text := (step.1.map (·.token), step.2)

/-- Evaluates a rule; the token is typed after it. -/
def rule (e : Evaluation) (rule : Rule) (input : Text) : Run (Option Token × Text) := do
  let step ← e.apply (e.call (e.depth input)) rule input
  pure (strip step)

/-- Evaluates a body; a literal or sequence at its root keeps its general type. -/
def spec (e : Evaluation) (spec : Spec) (input : Text) : Run (Option Token × Text) := do
  let step ← e.body (e.call (e.depth input)) spec input
  pure (strip step)

end Evaluation

end Descent
