import Descent.Grammar.Body
import Descent.Text.Blank

/-! Blocks of rules, one rule to an entry. Blank entries count but define nothing. A block compiles
as a whole or not at all, and the first entry that is wrong is reported. -/

namespace Descent

structure Definition where
  name : Text
  spec : Spec
  /-- The number of the entry, from 1. -/
  line : Nat

namespace Grammar

def isBlankEntry (source : Text) : Bool := source.all isBlank

/-- Compiles entries from number `line` on; `seen` are the names defined before. -/
def compileEntries (line : Nat) (seen : List Text) : List Text → Except Error (List Definition)
  | [] => .ok []
  | source :: rest =>
      if isBlankEntry source then compileEntries (line + 1) seen rest
      else
        match compileRule source with
        | .error cause => .error (.grammar line cause)
        | .ok (name, spec) =>
            if seen.contains name then .error (.grammar line (.duplicateRule name))
            else do
              let definitions ← compileEntries (line + 1) (name :: seen) rest
              return ⟨name, spec, line⟩ :: definitions

/-- Compiles a block with one rule on a line. -/
def compile (text : Text) : Except Error (List Definition) := compileEntries 1 [] text.lines

/-- The entries between delimiters; an empty delimiter separates nothing. -/
def entries (text : Text) : Text → List Text
  | [] => [text]
  | d :: ds => Text.split d ds text

/-- Compiles a block with rules between delimiters. A delimiter is also found inside a literal. -/
def compileDelimited (text delimiter : Text) : Except Error (List Definition) :=
  compileEntries 1 [] (entries text delimiter)

end Grammar

end Descent
