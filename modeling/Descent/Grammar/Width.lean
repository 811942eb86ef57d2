import Descent.Grammar.Block

/-! Reading within 32 bits. An entry of a grammar is read byte by byte, and the count of the bytes
has 32 bits. Where it would have to go on the entry has no answer, neither lexemes nor a fault, and
a block has none if it comes to such an entry. Where there is an answer it is the one of a count
without a limit. -/

namespace Descent

/-- The lexemes, and the cursor where reading stopped, if no position on the way is too large. In a
move the position grows byte by byte, so it is enough to ask at the end of the move. -/
def Cursor.lexemes? (c : Cursor) : Option (Except Lexeme.Fault (List Lexeme) × Cursor) :=
  let start := c.skipWhile Lexeme.isSpace
  if start.fits then
    match _h : start.rest with
    | [] => some (.ok [], start)
    | b :: bytes =>
        match _hr : Lexeme.read b bytes with
        | .error .unterminated =>
            if (start.moveTo []).fits then some (.error .unterminated, start.moveTo []) else none
        | .error .unexpected => some (.error .unexpected, start)
        | .ok (kind, rest) =>
            let stop := start.moveTo rest
            if stop.fits then
              stop.lexemes?.map fun (found, last) =>
                (found.map (⟨kind, stop.spanSince start.pos⟩ :: ·), last)
            else none
  else none
termination_by c.rest.length
decreasing_by
  have hs : (c.rest.dropWhile Lexeme.isSpace).length ≤ c.rest.length :=
    (List.dropWhile_sublist _).length_le
  have hb : c.rest.dropWhile Lexeme.isSpace = b :: bytes := _h
  have := Lexeme.length_of_read _hr
  rw [hb] at hs
  simp only [moveTo, List.length_cons] at hs ⊢
  omega

namespace Grammar

/-- The lexemes of a rule, or why it has none. -/
def lex? (source : Text) : Option (Except GrammarError (List Lexeme)) :=
  (Cursor.ofText source).lexemes?.map (told source)

/-- Compiles what stands behind the separator of a rule. -/
def compileBody? (source : Text) : Option (Except GrammarError Spec) :=
  (lex? source).map (·.bind (body source))

/-- Compiles one rule: its name and its body. -/
def compileRule? (source : Text) : Option (Except GrammarError (Text × Spec)) :=
  (lex? source).map (·.bind (rule source))

/-- Compiles entries from number `line` on; `seen` are the names defined before. What stands behind
an entry that is wrong is not read. -/
def compileEntries? (line : Nat) (seen : List Text) :
    List Text → Option (Except Error (List Definition))
  | [] => some (.ok [])
  | source :: rest =>
      if isBlankEntry source then compileEntries? (line + 1) seen rest
      else
        (compileRule? source).bind fun
          | .error cause => some (.error (.grammar line cause))
          | .ok (name, spec) =>
              if seen.contains name then some (.error (.grammar line (.duplicateRule name)))
              else
                (compileEntries? (line + 1) (name :: seen) rest).map
                  (·.map (⟨name, spec, line⟩ :: ·))

/-- Compiles a block with one rule on a line. -/
def compile? (text : Text) : Option (Except Error (List Definition)) :=
  compileEntries? 1 [] text.lines

/-- Compiles a block with rules between delimiters. -/
def compileDelimited? (text delimiter : Text) : Option (Except Error (List Definition)) :=
  compileEntries? 1 [] (entries text delimiter)

end Grammar

end Descent
