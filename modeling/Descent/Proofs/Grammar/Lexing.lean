import Descent.Proofs.Grammar.Lexemes

/-! Texts as lexemes. A text is cut in two: as much of its start as is blanks and lexemes in turn, and
a rest that no lexeme stands at the start of. Reading goes through the first part, where the spans
tell the places of the lexemes, and stops at the rest. -/

namespace Descent

open Text (bytes size lead)

namespace Cursor

theorem moveTo_bytes (pos : Nat) (before after : Text) :
    (Cursor.mk pos (bytes (before ++ after))).moveTo (bytes after) =
      ⟨pos + size before, bytes after⟩ := by
  simp [moveTo]

theorem skipWhile_bytes (pos : Nat) {blanks rest : Text}
    (hblanks : ∀ b ∈ bytes blanks, Lexeme.isSpace b = true)
    (hrest : ∀ b ∈ (bytes rest).head?, Lexeme.isSpace b = false) :
    (Cursor.mk pos (bytes (blanks ++ rest))).skipWhile Lexeme.isSpace =
      ⟨pos + size blanks, bytes rest⟩ := by
  rw [skipWhile, Text.dropWhile_bytes_append hblanks hrest, moveTo_bytes]

/-- Reading takes one lexeme after the other, and goes on from where the last one stopped. -/
theorem lexemes_eq (c : Cursor) :
    c.lexemes =
      let start := c.skipWhile Lexeme.isSpace
      match start.rest with
      | [] => (.ok [], start)
      | b :: more =>
          match Lexeme.read b more with
          | .error .unterminated => (.error .unterminated, start.moveTo [])
          | .error .unexpected => (.error .unexpected, start)
          | .ok (kind, rest) =>
              let stop := start.moveTo rest
              (stop.lexemes.1.map (⟨kind, stop.spanSince start.pos⟩ :: ·), stop.lexemes.2) := by
  rw [lexemes]
  dsimp only
  split
  · next hrest => rw [hrest]
  · next b more hrest =>
      rw [hrest]
      dsimp only
      split
      · next hread => rw [hread]
      · next hread => rw [hread]
      · next kind rest hread =>
          rw [hread]
          dsimp only
          generalize (c.skipWhile Lexeme.isSpace).moveTo rest = stop
          rcases stop.lexemes with ⟨fault | ls, last⟩
          · rfl
          · rfl

/-- Blanks in front only move the cursor. -/
theorem lexemes_append_of_blanks {blanks : Text} (h : ∀ b ∈ bytes blanks, Lexeme.isSpace b = true)
    (pos : Nat) (s : Text) :
    (Cursor.mk pos (bytes (blanks ++ s))).lexemes =
      (Cursor.mk (pos + size blanks) (bytes s)).lexemes := by
  have hskip : (Cursor.mk pos (bytes (blanks ++ s))).skipWhile Lexeme.isSpace =
      (Cursor.mk (pos + size blanks) (bytes s)).skipWhile Lexeme.isSpace := by
    have hle : ((bytes s).dropWhile Lexeme.isSpace).length ≤ size s := by
      rw [← Text.length_bytes]
      exact (List.dropWhile_sublist _).length_le
    simp only [skipWhile, moveTo, Text.bytes_append, List.dropWhile_append_of_pos h,
      List.length_append, Text.length_bytes]
    rw [Nat.add_assoc, Nat.add_sub_assoc hle]
  rw [lexemes_eq, lexemes_eq (Cursor.mk (pos + size blanks) _), hskip]

/-- Where a text starts with no lexeme reading stops at once, or at the end if it looks for the end
of a literal. -/
theorem lexemes_of_noneAt (pos : Nat) {c : Char} {s : Text}
    (hspace : Lexeme.isSpace (lead c) = false) (h : Lexeme.NoneAt (c :: s)) :
    (Cursor.mk pos (bytes (c :: s))).lexemes = match Lexeme.faultAt c with
      | .unterminated => (.error .unterminated, ⟨pos + size (c :: s), []⟩)
      | .unexpected => (.error .unexpected, ⟨pos, bytes (c :: s)⟩) := by
  have hskip : (Cursor.mk pos (bytes (c :: s))).skipWhile Lexeme.isSpace =
      ⟨pos, bytes (c :: s)⟩ := by
    refine @skipWhile_bytes pos [] (c :: s) nofun ?_
    rw [Text.bytes_cons_eq]
    rintro b ⟨⟩
    exact hspace
  have hend : (Cursor.mk pos (bytes (c :: s))).moveTo [] = ⟨pos + size (c :: s), []⟩ := by
    simp [moveTo, size]
  rw [lexemes_eq, hskip]
  dsimp only
  rw [Text.bytes_cons_eq] at hend ⊢
  dsimp only
  rw [Lexeme.read_of_noneAt (Text.bytes_cons_eq c s) h]
  cases Lexeme.faultAt c with
  | unterminated => exact congrArg (Prod.mk _) hend
  | unexpected => rfl

/-- A lexeme as it is written, behind the blanks, and what comes after it. -/
theorem lexemes_of_written (pos : Nat) {kind : Lexeme.Kind} {blanks text rest : Text}
    (hblanks : ∀ b ∈ bytes blanks, Lexeme.isSpace b = true) (htext : Lexeme.Written kind text)
    (hends : Lexeme.Ends kind rest) :
    (Cursor.mk pos (bytes (blanks ++ (text ++ rest)))).lexemes =
      let after := (Cursor.mk (pos + size blanks + size text) (bytes rest)).lexemes
      (after.1.map (⟨kind, ⟨pos + size blanks, pos + size blanks + size text⟩⟩ :: ·), after.2) := by
  obtain ⟨b, more, hb, hspace, hread⟩ := htext.read hends
  have hhead : ∀ b' ∈ (bytes (text ++ rest)).head?, Lexeme.isSpace b' = false := by
    rw [hb]
    rintro b' ⟨⟩
    exact hspace
  have hmove := moveTo_bytes (pos + size blanks) text rest
  rw [lexemes_eq, skipWhile_bytes pos hblanks hhead]
  rw [hb] at hmove ⊢
  dsimp only
  rw [hread]
  dsimp only
  rw [hmove]
  rfl

end Cursor

namespace Grammar

/-- From byte `pos` on the text is blanks and the given lexemes in turn, each with its own text. -/
inductive Lexed : Nat → Text → List (Lexeme × Text) → Prop
  | done {pos : Nat} {blanks : Text} : (∀ b ∈ bytes blanks, Lexeme.isSpace b = true) →
      Lexed pos blanks []
  | next {pos : Nat} {blanks text rest : Text} {kind : Lexeme.Kind} {ls : List (Lexeme × Text)} :
      (∀ b ∈ bytes blanks, Lexeme.isSpace b = true) → Lexeme.Written kind text →
      Lexeme.Ends kind rest → Lexed (pos + size blanks + size text) rest ls →
      Lexed pos (blanks ++ (text ++ rest))
        ((⟨kind, ⟨pos + size blanks, pos + size blanks + size text⟩⟩, text) :: ls)

variable {pos : Nat} {source : Text} {ls : List (Lexeme × Text)}

/-- Reading goes on behind the lexemes, if what follows does not lengthen the last one. -/
theorem Lexed.lexemes_append {s after : Text} (h : Lexed pos s ls)
    (hafter : ∀ kind, Lexeme.Ends kind after) :
    (Cursor.mk pos (bytes (s ++ after))).lexemes =
      let more := (Cursor.mk (pos + size s) (bytes after)).lexemes
      (more.1.map (ls.map Prod.fst ++ ·), more.2) := by
  induction h with
  | done hblanks =>
      rw [Cursor.lexemes_append_of_blanks hblanks]
      generalize (Cursor.mk _ (bytes after)).lexemes = more
      rcases more with ⟨fault | ls, stop⟩
      · rfl
      · rfl
  | @next pos blanks text rest kind ls hblanks htext hends _ ih =>
      rw [List.append_assoc, List.append_assoc,
        Cursor.lexemes_of_written pos hblanks htext (hends.append (hafter kind)), ih,
        Text.size_append, Text.size_append, Nat.add_assoc, Nat.add_assoc]
      dsimp only
      generalize (Cursor.mk _ (bytes after)).lexemes = more
      rcases more with ⟨fault | ls, stop⟩
      · rfl
      · rfl

/-- As much of the start of a text as is blanks and lexemes, and a rest where none stands. -/
theorem exists_cut (pos : Nat) (s : Text) :
    ∃ before after ls, s = before ++ after ∧ Lexed pos before ls ∧
      (∀ b ∈ (bytes after).head?, Lexeme.isSpace b = false) ∧ Lexeme.NoneAt after := by
  obtain ⟨blanks, t, hs, hblanks, hhead, -⟩ :=
    Text.exists_of_dropWhile_bytes Lexeme.isAscii_isSpace s
  by_cases hsome : ∃ kind text, Lexeme.Written kind text ∧ text <+: t
  · obtain ⟨kind, text, htext, rest, rfl⟩ := hsome
    obtain ⟨more, rest, rfl, hlong, hends⟩ := htext.exists_ends rest
    have hlength : rest.length < s.length := by
      have hpos := List.length_pos_iff.2 htext.ne_nil
      rw [hs, List.length_append, List.length_append, List.length_append]
      omega
    obtain ⟨before, after, ls, rfl, hls, hhead', hnone⟩ :=
      exists_cut (pos + size blanks + size (text ++ more)) rest
    refine ⟨blanks ++ (text ++ more ++ before), after, _, ?_,
      .next hblanks hlong hends.of_append hls, hhead', hnone⟩
    simp [hs]
  · exact ⟨blanks, t, [], hs, .done hblanks, hhead,
      fun kind text htext hprefix => hsome ⟨kind, text, htext, hprefix⟩⟩
termination_by s.length

theorem Lexed.lexemes {s : Text} (h : Lexed pos s ls) :
    (Cursor.mk pos (bytes s)).lexemes = (.ok (ls.map Prod.fst), ⟨pos + size s, []⟩) := by
  have hend : ∀ kind, Lexeme.Ends kind [] := fun _ _ => nofun
  have hread := h.lexemes_append hend
  have hnil : (Cursor.mk (pos + size s) (bytes [])).lexemes = (.ok [], ⟨pos + size s, []⟩) := by
    rw [Cursor.lexemes_eq]
    rfl
  rw [hnil, List.append_nil] at hread
  rw [hread]
  simp [Except.map]

/-- The lexemes of a text are those that it is written with, between blanks. -/
theorem lex_eq_ok_iff {tokens : List Lexeme} :
    lex source = .ok tokens ↔ ∃ found, Lexed 0 source found ∧ found.map Prod.fst = tokens := by
  constructor
  · intro h
    obtain ⟨before, after, ls, rfl, hls, hspace, hnone⟩ := exists_cut 0 source
    cases after with
    | nil =>
        rw [List.append_nil] at h ⊢
        rw [lex, Cursor.ofText, hls.lexemes] at h
        exact ⟨ls, hls, Except.ok.inj h⟩
    | cons c after =>
        rw [Text.bytes_cons_eq] at hspace
        rw [lex, Cursor.ofText, hls.lexemes_append hnone.ends,
          Cursor.lexemes_of_noneAt _ (hspace _ rfl) hnone] at h
        cases hfault : Lexeme.faultAt c with
        | unterminated =>
            rw [hfault] at h
            cases h
        | unexpected =>
            rw [hfault] at h
            cases h
  · rintro ⟨ls, hls, rfl⟩
    rw [lex, Cursor.ofText, hls.lexemes]
    rfl

theorem Lexed.written {s : Text} (h : Lexed pos s ls) :
    ∀ l ∈ ls, Lexeme.Written l.1.kind l.2 := by
  induction h with
  | done => exact nofun
  | next _ htext _ _ ih => exact List.forall_mem_cons.2 ⟨htext, ih⟩

/-- The span of a lexeme cuts out the text that the lexeme is written with. -/
theorem Lexed.text? {s : Text} (h : Lexed pos s ls) (before : Text)
    (hpos : size before = pos) :
    ∀ l ∈ ls, l.1.span.text? (before ++ s) = some l.2 := by
  induction h generalizing before with
  | done => exact nofun
  | @next pos blanks text rest kind ls hblanks htext hends hrest ih =>
      subst hpos
      refine List.forall_mem_cons.2 ⟨?_, ?_⟩
      · refine Text.slice?_eq_some_iff.2 ⟨before ++ blanks, rest, ?_, ?_, ?_⟩
        · simp
        · simp
        · simp
      · have hbefore : size (before ++ blanks ++ text) = size before + size blanks + size text := by
          rw [Text.size_append, Text.size_append]
        have hrest := ih _ hbefore
        rwa [List.append_assoc, List.append_assoc] at hrest

end Grammar

end Descent
