import Descent.Proofs.Grammar.Spelling
import Descent.Proofs.Grammar.Width

/-! The ends of lines. Cutting a text at its line feeds leaves the carriage returns in front of them
and an empty piece behind the last one, which the lines of the text do not have. Neither makes a
difference to a block: blanks behind a rule change none of its lexemes and no fault, since no lexeme
ends with a blank, and an empty entry defines nothing. A carriage return is a byte more, though, so
there is one size of a piece that 32 bits do not hold and hold without it. -/

namespace Descent

open Text (bytes size lead)

namespace Lexeme

/-- No lexeme ends with a blank. -/
theorem Written.isSpace_getLast {kind : Kind} {text : Text} {c : Char} (h : Written kind text)
    (hlast : text.getLast? = some c) : isSpace (lead c) = false := by
  cases h with
  | ident _ hword =>
      rw [Text.forall_mem_bytes_iff isAscii_isWord] at hword
      exact isSpace_of_isWord (hword c (List.mem_of_getLast? hlast))
  | @literal quote inner hquote _ =>
      rw [← List.cons_append, List.getLast?_concat] at hlast
      cases hlast
      rcases hquote with rfl | rfl
      · decide
      · decide
  | pipe =>
      cases hlast
      decide
  | define =>
      cases hlast
      decide

/-- Blanks behind a text do not make a lexeme of its start. -/
theorem NoneAt.append_blanks {s blanks : Text} (h : NoneAt s)
    (hblanks : ∀ b ∈ bytes blanks, isSpace b = true) : NoneAt (s ++ blanks) := by
  rw [Text.forall_mem_bytes_iff isAscii_isSpace] at hblanks
  intro kind text hwritten hprefix
  rcases List.prefix_or_prefix_of_prefix hprefix (List.prefix_append s blanks) with
    hshort | ⟨more, rfl⟩
  · exact h kind text hwritten hshort
  · rcases List.eq_nil_or_concat more with rfl | ⟨more, c, rfl⟩
    · rw [List.append_nil] at hwritten
      exact h kind s hwritten (List.prefix_refl s)
    · rw [List.concat_eq_append] at hwritten hprefix
      have hmore : more ++ [c] <+: blanks := (List.prefix_append_right_inj s).1 hprefix
      have hblank := hblanks c (hmore.subset (List.mem_append_right _ List.mem_cons_self))
      rw [← List.append_assoc] at hwritten
      rw [hwritten.isSpace_getLast List.getLast?_concat] at hblank
      cases hblank

end Lexeme

namespace Grammar

section

variable {source blanks : Text} (hblanks : ∀ b ∈ bytes blanks, Lexeme.isSpace b = true)
include hblanks

theorem Lexed.append_blanks {pos : Nat} {ls : List (Lexeme × Text)} (h : Lexed pos source ls) :
    Lexed pos (source ++ blanks) ls := by
  induction h with
  | done hdone =>
      refine .done fun b hb => ?_
      rw [Text.bytes_append] at hb
      exact (List.mem_append.1 hb).elim (hdone b) (hblanks b)
  | next hfront hwritten hends _ ih =>
      rw [List.append_assoc, List.append_assoc]
      exact .next hfront hwritten (hends.append (Lexeme.ends_of_blanks hblanks _)) ih

/-- Blanks behind a text change none of its lexemes, and no fault. -/
theorem lex_append_blanks : lex (source ++ blanks) = lex source := by
  obtain ⟨before, after, ls, rfl, hls, hspace, hnone⟩ := exists_cut 0 source
  cases after with
  | nil =>
      rw [List.append_nil]
      rw [lex_eq_ok_iff.2 ⟨ls, hls, rfl⟩, lex_eq_ok_iff.2 ⟨ls, hls.append_blanks hblanks, rfl⟩]
  | cons c after =>
      rw [Text.bytes_cons_eq] at hspace
      have hnone' := hnone.append_blanks hblanks
      rw [List.append_assoc, List.cons_append] at *
      rw [lex_of_cut hls (hspace _ rfl) hnone, lex_of_cut hls (hspace _ rfl) hnone']

/-- The lexemes are spelled as they are without the blanks. -/
theorem spelledAlike_append_blanks {ls : List Lexeme} (h : lex source = .ok ls) :
    ∀ l ∈ ls, Lexeme.SpelledAlike (source ++ blanks) source l l := by
  obtain ⟨found, hfound, rfl⟩ := lex_eq_ok_iff.1 h
  refine List.forall_mem_map.2 fun l hl => ⟨rfl, ?_⟩
  have htext : l.1.span.text? source = some l.2 := hfound.text? [] rfl l hl
  have htext' : l.1.span.text? (source ++ blanks) = some l.2 :=
    (hfound.append_blanks hblanks).text? [] rfl l hl
  rw [lexemeText, lexemeText, htext, htext']

/-- Blanks behind a rule make no difference, whether it compiles or not. -/
theorem compileRule_append_blanks : compileRule (source ++ blanks) = compileRule source := by
  rw [compileRule, compileRule, lex_append_blanks hblanks]
  cases hlex : lex source with
  | error cause => rfl
  | ok ls =>
      have hspelled := spelledAlike_append_blanks hblanks hlex
      dsimp only [Bind.bind, Except.bind, rule]
      have hname : ∀ p, ruleName (source ++ blanks) (ls.takeWhile p) =
          ruleName source (ls.takeWhile p) := fun p =>
        ruleName_congr (List.forall₂_same.2 fun l hl =>
          hspelled l ((List.takeWhile_sublist p).subset hl))
      cases hdrop : ls.dropWhile (·.kind ≠ .define) with
      | nil => rfl
      | cons d rest =>
          have hrest : rest ⊆ ls := fun l hl =>
            (List.dropWhile_sublist _).subset (hdrop ▸ List.mem_cons_of_mem d hl)
          have hbody := body_congr (List.forall₂_same.2 fun l hl => hspelled l (hrest hl))
          dsimp only
          rw [hname, hbody]

/-- Reading stops where it stops without the blanks, or it stops at the end both times. -/
theorem stop_append_blanks :
    (Cursor.ofText (source ++ blanks)).lexemes.2.pos = (Cursor.ofText source).lexemes.2.pos ∨
      (Cursor.ofText (source ++ blanks)).lexemes.2.pos = size (source ++ blanks) ∧
        (Cursor.ofText source).lexemes.2.pos = size source := by
  obtain ⟨before, after, ls, rfl, hls, hspace, hnone⟩ := exists_cut 0 source
  cases after with
  | nil =>
      rw [List.append_nil, Cursor.ofText, Cursor.ofText, hls.lexemes,
        (hls.append_blanks hblanks).lexemes, Nat.zero_add, Nat.zero_add]
      exact .inr ⟨rfl, rfl⟩
  | cons c after =>
      rw [Text.bytes_cons_eq] at hspace
      have hnone' := hnone.append_blanks hblanks
      rw [List.append_assoc, List.cons_append] at *
      rw [lexemes_of_cut hls (hspace _ rfl) hnone, lexemes_of_cut hls (hspace _ rfl) hnone']
      cases Lexeme.faultAt c with
      | unterminated => exact .inr ⟨rfl, rfl⟩
      | unexpected => exact .inl rfl

theorem fits_of_append_blanks (h : Fits (source ++ blanks)) : Fits source := by
  rw [Fits, Cursor.fits_iff] at h ⊢
  rcases stop_append_blanks hblanks with hstop | ⟨hstop, hstop'⟩
  · rwa [hstop] at h
  · rw [hstop, Text.size_append] at h
    rw [hstop']
    exact Nat.lt_of_le_of_lt (Nat.le_add_right _ _) h

/-- An answer with blanks behind a rule is the answer without them. -/
theorem compileRule?_of_append_blanks {answer : Except GrammarError (Text × Spec)}
    (h : compileRule? (source ++ blanks) = some answer) : compileRule? source = some answer := by
  obtain ⟨hfits, rfl⟩ := compileRule?_eq_some_iff.1 h
  exact compileRule?_eq_some_iff.2
    ⟨fits_of_append_blanks hblanks hfits, (compileRule_append_blanks hblanks).symm⟩

end

theorem isSpace_return : ∀ b ∈ bytes ['\r'], Lexeme.isSpace b = true :=
  Text.isSpace_bytes_iff.2 (List.forall_mem_singleton.2 rfl)

/-- A carriage return behind a rule takes its answer away for one size only. -/
theorem compileRule?_append_return {source : Text} (h : size (source ++ ['\r']) ≠ Cursor.limit) :
    compileRule? (source ++ ['\r']) = compileRule? source := by
  have hfits : Fits (source ++ ['\r']) ↔ Fits source := by
    rw [Fits, Fits, Cursor.fits_iff, Cursor.fits_iff]
    rcases @stop_append_blanks source _ isSpace_return with hstop | ⟨hstop, hstop'⟩
    · rw [hstop]
    · have hsize : size (source ++ ['\r']) = size source + 1 := Text.size_append source ['\r']
      rw [hstop, hstop']
      omega
  refine Option.ext fun answer => ?_
  rw [compileRule?_eq_some_iff, compileRule?_eq_some_iff, hfits,
    compileRule_append_blanks isSpace_return]

end Grammar

namespace Text

theorem split_cons (d c : Char) (s : Text) :
    split d [] (c :: s) = if d = c then [] :: split d [] s else consFirst c (split d [] s) := by
  have hafter : after? [d] (c :: s) = if d = c then some s else none := rfl
  rw [split]
  split
  · next rest hrest =>
      rw [hafter] at hrest
      split at hrest
      · next heq =>
          cases hrest
          rw [if_pos heq]
      · cases hrest
  · next hnone =>
      rw [hafter] at hnone
      split at hnone
      · cases hnone
      · next hne => rw [if_neg hne]

theorem split_append {d : Char} {s : Text} (h : d ∉ s) (rest : Text) :
    split d [] (s ++ d :: rest) = s :: split d [] rest := by
  induction s with
  | nil => rw [List.nil_append, split_cons, if_pos rfl]
  | cons c s ih =>
      have hc : d ≠ c := fun heq => h (heq ▸ List.mem_cons_self)
      rw [List.cons_append, split_cons, if_neg hc, ih fun hmem => h (List.mem_cons_of_mem c hmem)]
      rfl

/-- A carriage return and a line feed end a line. -/
theorem lines_append_return {s : Text} (h : ∀ c ∈ s, c ≠ '\n' ∧ c ≠ '\r') (rest : Text) :
    lines (s ++ '\r' :: '\n' :: rest) = s :: lines rest := by
  induction s with
  | nil => rfl
  | cons c s ih =>
      obtain ⟨hc, hs⟩ := List.forall_mem_cons.1 h
      rw [List.cons_append, lines, ih hs]
      · rfl
      · exact hc.1
      · exact fun _ hreturn => absurd hreturn hc.2

/-- The lines of a text, and its pieces between line feeds: these may have a carriage return at the
end, and there is an empty one behind a line feed that ends the text. -/
inductive SameLines : List Text → List Text → Prop
  | done : SameLines [] [[]]
  | last {s : Text} : SameLines [s] [s]
  | feed {s : Text} {lines pieces : List Text} : SameLines lines pieces →
      SameLines (s :: lines) (s :: pieces)
  | carriage {s : Text} {lines pieces : List Text} : SameLines lines pieces →
      SameLines (s :: lines) ((s ++ ['\r']) :: pieces)

theorem SameLines.consFirst {lines pieces : List Text} (c : Char) (h : SameLines lines pieces) :
    SameLines (consFirst c lines) (consFirst c pieces) := by
  cases h with
  | done => exact .last
  | last => exact .last
  | feed hrest => exact .feed hrest
  | carriage hrest => exact .carriage hrest

theorem sameLines_split (s : Text) : SameLines (lines s) (split '\n' [] s) := by
  induction s using lines.induct with
  | case1 =>
      rw [split]
      exact .done
  | case2 s ih =>
      rw [split_cons, if_pos rfl]
      exact .feed ih
  | case3 s ih =>
      rw [split_cons, if_neg (by decide), split_cons, if_pos rfl]
      exact .carriage ih
  | case4 c s hfeed hreturn ih =>
      rw [lines, split_cons, if_neg fun heq => hfeed heq.symm]
      · exact ih.consFirst c
      · exact hfeed
      · exact hreturn

end Text

namespace Grammar

theorem isBlankEntry_append_return (source : Text) :
    isBlankEntry (source ++ ['\r']) = isBlankEntry source := by
  have hreturn : isBlank '\r' = true := by decide
  simp [isBlankEntry, hreturn]

/-- Entries that are blank alike and compile alike are read alike in front of the same others. -/
theorem compileEntries?_cons_congr {line : Nat} {seen : List Text} {source source' : Text}
    {sources sources' : List Text} (hblank : isBlankEntry source = isBlankEntry source')
    (hrule : compileRule? source = compileRule? source')
    (h : ∀ line seen, compileEntries? line seen sources = compileEntries? line seen sources') :
    compileEntries? line seen (source :: sources) =
      compileEntries? line seen (source' :: sources') := by
  simp only [compileEntries?, hblank, hrule, h]

/-- Entries that are blank alike, and of which one has the answer of the other if that has one, do
so too in front of such others. -/
theorem compileEntries?_cons_mono {line : Nat} {seen : List Text} {source source' : Text}
    {sources sources' : List Text} (hblank : isBlankEntry source = isBlankEntry source')
    (hrule : ∀ answer, compileRule? source = some answer → compileRule? source' = some answer)
    (h : ∀ line seen block, compileEntries? line seen sources = some block →
      compileEntries? line seen sources' = some block)
    {block : Except Error (List Definition)}
    (hblock : compileEntries? line seen (source :: sources) = some block) :
    compileEntries? line seen (source' :: sources') = some block := by
  rw [compileEntries?] at hblock ⊢
  rw [← hblank]
  by_cases hsource : isBlankEntry source = true
  · rw [if_pos hsource] at hblock ⊢
    exact h _ _ _ hblock
  · rw [if_neg hsource] at hblock ⊢
    obtain ⟨cause | ⟨name, spec⟩, hanswer, hblock⟩ := Option.bind_eq_some_iff.1 hblock
    · rw [hrule _ hanswer]
      exact hblock
    · rw [hrule _ hanswer, Option.bind_some]
      dsimp only at hblock ⊢
      by_cases hseen : seen.contains name = true
      · rw [if_pos hseen] at hblock ⊢
        exact hblock
      · rw [if_neg hseen] at hblock ⊢
        obtain ⟨rest, hrest, rfl⟩ := Option.map_eq_some_iff.1 hblock
        rw [h _ _ _ hrest]
        rfl

/-- An answer for the pieces is the answer for the lines. -/
theorem compileEntries?_lines {lines pieces : List Text} (h : Text.SameLines lines pieces) :
    ∀ line seen block, compileEntries? line seen pieces = some block →
      compileEntries? line seen lines = some block := by
  induction h with
  | done => exact fun _ _ _ => id
  | last => exact fun _ _ _ => id
  | feed _ ih => exact fun _ _ _ => compileEntries?_cons_mono rfl (fun _ => id) ih
  | @carriage s _ _ _ ih =>
      exact fun _ _ _ => compileEntries?_cons_mono (isBlankEntry_append_return s)
        (fun _ => compileRule?_of_append_blanks isSpace_return) ih

/-- A piece that loses its answer to the carriage return at its end. -/
def AtLimit (piece : Text) : Prop := size piece = Cursor.limit ∧ piece.getLast? = some '\r'

theorem compileEntries?_of_sameLines {lines pieces : List Text} (h : Text.SameLines lines pieces)
    (hpieces : ∀ piece ∈ pieces, ¬AtLimit piece) :
    ∀ line seen, compileEntries? line seen lines = compileEntries? line seen pieces := by
  induction h with
  | done => exact fun _ _ => rfl
  | last => exact fun _ _ => rfl
  | feed _ ih =>
      have hrest := ih fun piece hpiece => hpieces piece (List.mem_cons_of_mem _ hpiece)
      exact fun _ _ => compileEntries?_cons_congr rfl rfl hrest
  | @carriage s _ _ _ ih =>
      obtain ⟨hfirst, hothers⟩ := List.forall_mem_cons.1 hpieces
      have hsize : size (s ++ ['\r']) ≠ Cursor.limit := fun hsize =>
        hfirst ⟨hsize, List.getLast?_concat⟩
      exact fun _ _ => compileEntries?_cons_congr (isBlankEntry_append_return s).symm
        (compileRule?_append_return hsize).symm (ih hothers)

section

/- A line with a carriage return and a line feed behind it. -/
variable {n : Nat} (h : 0 < n)

theorem ne_of_mem_longRule : ∀ c ∈ longRule n, c ≠ '\n' ∧ c ≠ '\r' := by
  rw [longRule, List.forall_mem_append]
  refine ⟨by simp, fun c hc => ?_⟩
  rw [List.eq_of_mem_replicate hc]
  decide

include h

theorem compile?_longRule_return (hlimit : 3 + n < Cursor.limit) :
    compile? (longRule n ++ ['\r', '\n']) =
      some (.ok [⟨['a'], .reference (longWord n), 1⟩]) := by
  rw [compile?, Text.lines_append_return ne_of_mem_longRule]
  refine (compileEntries?_cons_eq_ok_iff (isBlankEntry_longRule n)).2 ?_
  exact ⟨_, _, [], compileRule?_longRule h hlimit, List.not_mem_nil, rfl, rfl⟩

theorem compileRule?_longRule_return (hlimit : Cursor.limit ≤ 4 + n) :
    compileRule? (longRule n ++ ['\r']) = none := by
  obtain ⟨ls, hlex, -⟩ := Except.bind_eq_ok_iff.1 (compileRule_longRule h)
  have hsize : size (longRule n ++ ['\r']) = 4 + n := by
    rw [Text.size_append, size_longRule, Nat.add_right_comm]
    rfl
  rw [compileRule?_eq, if_neg]
  rw [fits_iff_of_lex ((lex_append_blanks isSpace_return).trans hlex), hsize]
  exact Nat.not_lt.2 hlimit

theorem compileDelimited?_longRule_return (hlimit : Cursor.limit ≤ 4 + n) :
    compileDelimited? (longRule n ++ ['\r', '\n']) ['\n'] = none := by
  have hpiece : '\n' ∉ longRule n ++ ['\r'] := by
    rw [List.mem_append]
    rintro (hmem | hmem)
    · exact (ne_of_mem_longRule _ hmem).1 rfl
    · exact absurd hmem (by decide)
  have hpieces : entries (longRule n ++ ['\r', '\n']) ['\n'] =
      (longRule n ++ ['\r']) :: Text.split '\n' [] [] := by
    rw [← Text.split_append hpiece, List.append_assoc]
    rfl
  rw [compileDelimited?, hpieces, compileEntries?, isBlankEntry_append_return,
    isBlankEntry_longRule, if_neg Bool.false_ne_true, compileRule?_longRule_return h hlimit]
  rfl

end

end Grammar

end Descent
