import Descent.Parser
import Descent.Settings.Json
import Descent.Token.Display
import Descent.Token.Json

/-! The command line: a grammar file, an input file or standard input, and the tree that is printed.
Files are read through a monad, so the same definition serves a run and a proof. -/

namespace Descent

namespace CommandLine

def usage : Text :=
  ("usage: print <grammar> [input] [--main NAME] [--partial] [--ignore-whitespace] " ++
    "[--config FILE] [--json]").toList

structure Arguments where
  start : Option Text := none
  mayLeaveRest : Bool := false
  ignoreWhitespace : Bool := false
  config : Option Text := none
  json : Bool := false
  files : List Text := []

/-- Why a file gives no text. -/
inductive ReadError where
  | missing
  | denied
  | noDirectory
  | directory
  | nameTooLong
  | notUtf8
  | other (message : Text)

inductive Failure where
  | missingStart
  | missingConfig
  | unknownOption (option : Text)
  | noGrammar
  | tooManyFiles
  | unreadableFile (path : Text) (e : ReadError)
  | unreadableInput (e : ReadError)
  | badSettings (path : Text) (problem : Json.Problem)
  | badGrammar (path : Text) (e : Error)
  | library (e : Error)
  | endless
  | overflow

def ReadError.message : ReadError → Text
  | missing => "No such file or directory (os error 2)".toList
  | denied => "Permission denied (os error 13)".toList
  | noDirectory => "Not a directory (os error 20)".toList
  | directory => "Is a directory (os error 21)".toList
  | nameTooLong => "File name too long (os error 36)".toList
  | notUtf8 => "stream did not contain valid UTF-8".toList
  | other message => message

def decoded (bytes : ByteArray) : Except ReadError Text :=
  match String.fromUTF8? bytes with
  | some s => .ok s.toList
  | none => .error .notUtf8

def problemMessage : Json.Problem → Text
  | .ended => "the text ends too early".toList
  | .malformed => "the text is no JSON".toList
  | .mismatched => "a value has the wrong shape".toList

/-- What was tried, the path it was tried on, and why it failed. -/
def aboutPath (what : String) (path cause : Text) : Text :=
  what.toList ++ " `".toList ++ path ++ "`: ".toList ++ cause

def Failure.message : Failure → Text
  | missingStart => "Expected rule name after --main".toList
  | missingConfig => "Expected path after --config".toList
  | unknownOption option => "Unknown option `".toList ++ option ++ ['`', '\n'] ++ usage
  | noGrammar => "No grammar provided\n".toList ++ usage
  | tooManyFiles => "Too many files provided\n".toList ++ usage
  | unreadableFile path e => aboutPath "Failed to read" path e.message
  | unreadableInput e => "Failed to read stdin: ".toList ++ e.message
  | badSettings path problem => aboutPath "Invalid configuration" path (problemMessage problem)
  | badGrammar path e => aboutPath "Invalid grammar" path e.message
  | library e => e.message
  | endless => "the evaluation does not end".toList
  | overflow => "a position in the grammar does not fit into 32 bits".toList

/-- Reads the arguments from left to right; nothing is left of a request for help. -/
def arguments (a : Arguments) : List Text → Except Failure (Option Arguments)
  | [] => .ok (some { a with files := a.files.reverse })
  | arg :: rest =>
      if arg = "--main".toList then
        match rest with
        | [] => .error .missingStart
        | name :: rest => arguments { a with start := some name } rest
      else if arg = "--partial".toList then arguments { a with mayLeaveRest := true } rest
      else if arg = "--ignore-whitespace".toList then
        arguments { a with ignoreWhitespace := true } rest
      else if arg = "--config".toList then
        match rest with
        | [] => .error .missingConfig
        | path :: rest => arguments { a with config := some path } rest
      else if arg = "--json".toList then arguments { a with json := true } rest
      else if arg = "--help".toList ∨ arg = "-h".toList then .ok none
      else if "--".toList.isPrefixOf arg then .error (.unknownOption arg)
      else arguments { a with files := arg :: a.files } rest

/-- The grammar and, if it is given, the input. -/
def Arguments.paths (a : Arguments) : Except Failure (Text × Option Text) :=
  match a.files with
  | [] => .error .noGrammar
  | [grammar] => .ok (grammar, none)
  | [grammar, input] => .ok (grammar, some input)
  | _ => .error .tooManyFiles

/-- The files and the standard input that a command sees. -/
structure World (m : Type → Type) where
  contents : Text → m (Except ReadError Text)
  standardInput : m (Except ReadError Text)

/-- What a command logged, and what it prints or why it failed. -/
structure Report where
  log : List Record
  result : Except Failure Text

variable {m : Type → Type} [Monad m]

def World.file (w : World m) (path : Text) : m (Except Failure Text) :=
  (·.mapError (.unreadableFile path)) <$> w.contents path

def World.text (w : World m) : Option Text → m (Except Failure Text)
  | some path => w.file path
  | none => (·.mapError .unreadableInput) <$> w.standardInput

/-- A text without the line feed at its end. -/
def withoutLineFeed (s : Text) : Text := if s.getLast? = some '\n' then s.dropLast else s

/-- The settings of the configuration file, if there is one. -/
def World.settings (w : World m) : Option Text → m (Except Failure Settings)
  | some path =>
      (·.bind fun s => (Settings.ofJson s).mapError (.badSettings path)) <$> w.file path
  | none => pure (.ok {})

/-- A parser with the rules of the grammar and the character rules. -/
def prepare (settings : Settings) (path grammar : Text) : Change Parser (Except Failure Unit) :=
  match (Parser.ofSettings settings).load? grammar with
  | none => .ok (Parser.ofSettings settings) (.error .overflow)
  | some loaded =>
      match loaded.result with
      | .error e => ⟨loaded.log, loaded.state, .ok (.error (.badGrammar path e))⟩
      | .ok _ =>
          (loaded.map fun _ => ()).andThen fun _ p =>
            (p.loadCharacterRules { whitespace := true }).map fun _ => .ok ()

/-- The printed form of a tree. -/
def printed (a : Arguments) (t : Token) : Text :=
  if a.json then t.prettyJson ++ ['\n'] else t.display

def parse (a : Arguments) (p : Parser) (input : Text) : Report :=
  let run := p.parse input ⟨a.start, a.mayLeaveRest⟩
  match run.outcome with
  | .unfinished => ⟨run.log.toList, .error .endless⟩
  | .error e => ⟨run.log.toList, .error (.library e)⟩
  | .ok t => ⟨run.log.toList, .ok (printed a t)⟩

/-- Runs a command that is no request for help. The grammar is checked before the input is read. -/
def perform (w : World m) (a : Arguments) : m Report := do
  match a.paths with
  | .error f => return ⟨[], .error f⟩
  | .ok (path, inputPath) =>
  match ← w.settings a.config with
  | .error f => return ⟨[], .error f⟩
  | .ok given =>
  let settings := { given with ignoreWhitespace := given.ignoreWhitespace || a.ignoreWhitespace }
  match ← w.file path with
  | .error f => return ⟨[], .error f⟩
  | .ok grammar =>
  let loaded := prepare settings path grammar
  match loaded.result with
  | .error e => return ⟨loaded.log, .error (.library e)⟩
  | .ok (.error f) => return ⟨loaded.log, .error f⟩
  | .ok (.ok ()) =>
  let log := loaded.log ++ loaded.state.registry.undefinedNames.map .undefinedRule
  match ← w.text inputPath with
  | .error f => return ⟨log, .error f⟩
  | .ok input =>
      let parsed := parse a loaded.state (withoutLineFeed input)
      return { parsed with log := log ++ parsed.log }

def run (w : World m) (args : List Text) : m Report := do
  match arguments {} args with
  | .error f => return ⟨[], .error f⟩
  | .ok none => return ⟨[], .ok (usage ++ ['\n'])⟩
  | .ok (some a) => perform w a

/-- The rank up to which records are printed: a level named in any case, or nothing for `off`.
Without a known name warnings are the last that count. -/
def threshold (name : Option Text) : Nat :=
  let upper := (name.getD []).map Char.toUpper
  if upper = "OFF".toList then 0
  else
    match [Level.error, .warn, .info, .debug, .trace].find? (·.name = upper) with
    | some level => level.rank
    | none => Level.warn.rank

def recordLine (r : Record) : Text :=
  " [".toList ++ r.level.name ++ "] ".toList ++ r.message ++ ['\n']

/-- The exit code, the output and the error output of a report. -/
def Report.streams (r : Report) (threshold : Nat) : Nat × Text × Text :=
  let log := (r.log.filter (·.level.rank ≤ threshold)).flatMap recordLine
  match r.result with
  | .ok output => (0, output, log)
  | .error f => (1, [], log ++ f.message ++ ['\n'])

end CommandLine

end Descent
