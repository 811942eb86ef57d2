import Descent.Grammar.Width
import Descent.Proofs.Grammar.Faults
import Descent.Proofs.Grammar.Names

/-! Entries within 32 bits. A cursor only moves ahead, so reading has an answer if and only if 32
bits hold the place where it stops, and this is then the answer of a count without a limit. An entry
of fewer than 2 ^ 32 bytes has an answer, and one that is read to its end has none if it is
longer. -/

namespace Descent

open Text (bytes size lead)

namespace Cursor

theorem fits_iff {c : Cursor} : c.fits = true ↔ c.pos < limit := decide_eq_true_iff

theorem le_moveTo (c : Cursor) (rest : List UInt8) : c.pos ≤ (c.moveTo rest).pos :=
  Nat.le_add_right _ _

theorem fits_of_le {c c' : Cursor} (h : c.pos ≤ c'.pos) (hfits : c'.fits = true) :
    c.fits = true :=
  fits_iff.2 (Nat.lt_of_le_of_lt h (fits_iff.1 hfits))

/-- Reading stops where the first lexeme starts or behind it. -/
theorem skipWhile_le_lexemes (c : Cursor) :
    (c.skipWhile Lexeme.isSpace).pos ≤ c.lexemes.2.pos := by
  rw [lexemes_eq]
  have hle : (c.skipWhile Lexeme.isSpace).rest.length ≤ c.rest.length :=
    (List.dropWhile_sublist _).length_le
  generalize c.skipWhile Lexeme.isSpace = start at hle
  obtain ⟨pos, _ | ⟨b, more⟩⟩ := start
  · exact Nat.le_refl _
  · dsimp only
    cases hread : Lexeme.read b more with
    | error fault =>
        cases fault with
        | unterminated => exact le_moveTo ⟨pos, b :: more⟩ []
        | unexpected => exact Nat.le_refl _
    | ok found =>
        obtain ⟨kind, rest⟩ := found
        have hlt : rest.length < c.rest.length :=
          Nat.lt_of_le_of_lt (Lexeme.length_of_read hread) hle
        have hstop := skipWhile_le_lexemes ((Cursor.mk pos (b :: more)).moveTo rest)
        exact (le_moveTo ⟨pos, b :: more⟩ rest).trans ((le_moveTo _ _).trans hstop)
termination_by c.rest.length

/-- Reading stops at the cursor or behind it. -/
theorem le_lexemes (c : Cursor) : c.pos ≤ c.lexemes.2.pos :=
  (c.le_moveTo _).trans c.skipWhile_le_lexemes

/-- Reading asks at each step whether 32 bits hold the position. -/
theorem lexemes?_step (c : Cursor) :
    c.lexemes? =
      let start := c.skipWhile Lexeme.isSpace
      if start.fits then
        match start.rest with
        | [] => some (.ok [], start)
        | b :: more =>
            match Lexeme.read b more with
            | .error .unterminated =>
                if (start.moveTo []).fits then some (.error .unterminated, start.moveTo [])
                else none
            | .error .unexpected => some (.error .unexpected, start)
            | .ok (kind, rest) =>
                let stop := start.moveTo rest
                if stop.fits then
                  stop.lexemes?.map fun (found, last) =>
                    (found.map (⟨kind, stop.spanSince start.pos⟩ :: ·), last)
                else none
      else none := by
  rw [lexemes?]
  dsimp only
  refine ite_congr rfl (fun _ => ?_) fun _ => rfl
  split
  · next hrest => rw [hrest]
  · next b more hrest =>
      rw [hrest]
      dsimp only
      split
      · next hread => rw [hread]
      · next hread => rw [hread]
      · next kind rest hread => rw [hread]

/-- Reading has an answer if and only if 32 bits hold the place where it stops. -/
theorem lexemes?_eq (c : Cursor) : c.lexemes? = (some c.lexemes).filter (·.2.fits) := by
  by_cases hstart : (c.skipWhile Lexeme.isSpace).fits = true
  · rw [lexemes?_step, if_pos hstart, lexemes_eq]
    have hle : (c.skipWhile Lexeme.isSpace).rest.length ≤ c.rest.length :=
      (List.dropWhile_sublist _).length_le
    generalize c.skipWhile Lexeme.isSpace = start at hle hstart
    obtain ⟨pos, _ | ⟨b, more⟩⟩ := start
    · exact (if_pos hstart).symm
    · dsimp only
      cases hread : Lexeme.read b more with
      | error fault =>
          cases fault with
          | unterminated => rfl
          | unexpected => exact (if_pos hstart).symm
      | ok found =>
          obtain ⟨kind, rest⟩ := found
          have hlt : rest.length < c.rest.length :=
            Nat.lt_of_le_of_lt (Lexeme.length_of_read hread) hle
          dsimp only
          rw [lexemes?_eq]
          generalize (Cursor.mk pos (b :: more)).moveTo rest = stop
          by_cases hlast : stop.lexemes.2.fits = true
          · have hanswer : (some stop.lexemes).filter (·.2.fits) = some stop.lexemes :=
              if_pos hlast
            rw [if_pos (fits_of_le stop.le_lexemes hlast), hanswer]
            exact (if_pos hlast).symm
          · have hnone : (some stop.lexemes).filter (·.2.fits) = none := if_neg hlast
            rw [hnone]
            exact (ite_self none).trans (if_neg hlast).symm
  · have hlast : ¬c.lexemes.2.fits = true := fun hlast =>
      hstart (fits_of_le c.skipWhile_le_lexemes hlast)
    rw [lexemes?_step]
    exact (if_neg hstart).trans (if_neg hlast).symm
termination_by c.rest.length

end Cursor

namespace Grammar

/-- 32 bits hold the place where reading stops. -/
def Fits (source : Text) : Prop := (Cursor.ofText source).lexemes.2.fits = true

variable {source : Text} {line : Nat} {seen sources : List Text}

instance : DecidablePred Fits := fun _ => inferInstanceAs (Decidable (_ = true))

theorem lex?_eq (source : Text) :
    lex? source = if Fits source then some (lex source) else none := by
  rw [lex?, Cursor.lexemes?_eq, Option.filter_some, apply_ite (Option.map (told source))]
  rfl

theorem compileBody?_eq (source : Text) :
    compileBody? source = if Fits source then some (compileBody source) else none := by
  rw [compileBody?, lex?_eq, apply_ite (Option.map _)]
  rfl

theorem compileRule?_eq (source : Text) :
    compileRule? source = if Fits source then some (compileRule source) else none := by
  rw [compileRule?, lex?_eq, apply_ite (Option.map _)]
  rfl

theorem lex?_eq_some_iff {answer : Except GrammarError (List Lexeme)} :
    lex? source = some answer ↔ Fits source ∧ lex source = answer := by
  rw [lex?_eq, Option.ite_none_right_eq_some, Option.some.injEq]

theorem compileBody?_eq_some_iff {answer : Except GrammarError Spec} :
    compileBody? source = some answer ↔ Fits source ∧ compileBody source = answer := by
  rw [compileBody?_eq, Option.ite_none_right_eq_some, Option.some.injEq]

theorem compileRule?_eq_some_iff {answer : Except GrammarError (Text × Spec)} :
    compileRule? source = some answer ↔ Fits source ∧ compileRule source = answer := by
  rw [compileRule?_eq, Option.ite_none_right_eq_some, Option.some.injEq]

/-- Reading does not go on behind the end of the text. -/
theorem stop_le_size (source : Text) : (Cursor.ofText source).lexemes.2.pos ≤ size source := by
  obtain ⟨before, after, ls, rfl, hls, hspace, hnone⟩ := exists_cut 0 source
  cases after with
  | nil =>
      rw [List.append_nil, Cursor.ofText, hls.lexemes, Nat.zero_add]
  | cons c after =>
      rw [Text.bytes_cons_eq] at hspace
      rw [lexemes_of_cut hls (hspace _ rfl) hnone]
      cases Lexeme.faultAt c with
      | unterminated => exact Nat.le_refl _
      | unexpected => exact Text.size_append before _ ▸ Nat.le_add_right _ _

theorem fits_of_size_lt (h : size source < Cursor.limit) : Fits source :=
  Cursor.fits_iff.2 (Nat.lt_of_le_of_lt (stop_le_size source) h)

/-- What is read to its end needs all of its positions. -/
theorem fits_iff_of_lex {ls : List Lexeme} (h : lex source = .ok ls) :
    Fits source ↔ size source < Cursor.limit := by
  obtain ⟨found, hfound, -⟩ := lex_eq_ok_iff.1 h
  rw [Fits, Cursor.fits_iff, Cursor.ofText, hfound.lexemes, Nat.zero_add]

/-- What compiles is read to its end. -/
theorem fits_iff_of_bind {α : Type} {f : List Lexeme → Except GrammarError α} {a : α}
    (h : lex source >>= f = .ok a) : Fits source ↔ size source < Cursor.limit := by
  obtain ⟨ls, hlex, -⟩ := Except.bind_eq_ok_iff.1 h
  exact fits_iff_of_lex hlex

/-- Where reading has an answer 32 bits hold the spans of the lexemes. -/
theorem span_lt_of_lex? {ls : List Lexeme} (h : lex? source = some (.ok ls)) :
    ∀ l ∈ ls, l.span.stop < Cursor.limit := by
  obtain ⟨hfits, hlex⟩ := lex?_eq_some_iff.1 h
  obtain ⟨found, hfound, rfl⟩ := lex_eq_ok_iff.1 hlex
  refine List.forall_mem_map.2 fun l hl => Nat.lt_of_le_of_lt ?_ ((fits_iff_of_lex hlex).1 hfits)
  obtain ⟨before, after, hcut, -, hstop⟩ := Text.slice?_eq_some_iff.1 (hfound.text? [] rfl l hl)
  rw [List.nil_append] at hcut
  rw [← hstop, hcut, Text.size_append, Text.size_append]
  omega

theorem compileBody?_eq_ok_iff {spec : Spec} :
    compileBody? source = some (.ok spec) ↔
      size source < Cursor.limit ∧ compileBody source = .ok spec := by
  rw [compileBody?_eq_some_iff]
  exact and_congr_left fits_iff_of_bind

theorem compileRule?_eq_ok_iff {rule : Text × Spec} :
    compileRule? source = some (.ok rule) ↔
      size source < Cursor.limit ∧ compileRule source = .ok rule := by
  rw [compileRule?_eq_some_iff]
  exact and_congr_left fits_iff_of_bind

/-- The answer of a block is that of a count without a limit. -/
theorem eq_of_compileEntries? {block : Except Error (List Definition)}
    (h : compileEntries? line seen sources = some block) :
    compileEntries line seen sources = block := by
  induction sources generalizing line seen block with
  | nil => exact Option.some.inj h
  | cons source sources ih =>
      rw [compileEntries?] at h
      rw [compileEntries]
      cases hblank : isBlankEntry source with
      | true =>
          rw [hblank, if_pos rfl] at h
          rw [if_pos rfl]
          exact ih h
      | false =>
          rw [hblank, if_neg Bool.false_ne_true] at h
          rw [if_neg Bool.false_ne_true]
          obtain ⟨cause | ⟨name, spec⟩, hanswer, h⟩ := Option.bind_eq_some_iff.1 h
          · rw [(compileRule?_eq_some_iff.1 hanswer).2]
            exact Option.some.inj h
          · rw [(compileRule?_eq_some_iff.1 hanswer).2]
            dsimp only at h ⊢
            by_cases hseen : seen.contains name = true
            · rw [if_pos hseen] at h ⊢
              exact Option.some.inj h
            · rw [if_neg hseen] at h ⊢
              obtain ⟨rest, hrest, rfl⟩ := Option.map_eq_some_iff.1 h
              rw [ih hrest]
              cases rest with
              | error err => rfl
              | ok ds => rfl

/-- A block of entries within 32 bits has an answer. -/
theorem compileEntries?_of_fits
    (h : ∀ source ∈ sources, isBlankEntry source = false → Fits source) :
    compileEntries? line seen sources = some (compileEntries line seen sources) := by
  suffices hanswer : ∃ block, compileEntries? line seen sources = some block by
    obtain ⟨block, hblock⟩ := hanswer
    rw [hblock, eq_of_compileEntries? hblock]
  induction sources generalizing line seen with
  | nil => exact ⟨_, rfl⟩
  | cons source sources ih =>
      obtain ⟨hsource, hsources⟩ := List.forall_mem_cons.1 h
      rw [compileEntries?]
      cases hblank : isBlankEntry source with
      | true => exact ih hsources
      | false =>
          rw [if_neg Bool.false_ne_true, compileRule?_eq, if_pos (hsource hblank), Option.bind_some]
          rcases compileRule source with cause | ⟨name, spec⟩
          · exact ⟨_, rfl⟩
          · dsimp only
            obtain ⟨block, hblock⟩ := @ih (line + 1) (name :: seen) hsources
            rw [hblock]
            split
            · exact ⟨_, rfl⟩
            · exact ⟨_, rfl⟩

theorem compileEntries?_cons_eq_ok_iff {ds : List Definition} (h : isBlankEntry source = false) :
    compileEntries? line seen (source :: sources) = some (.ok ds) ↔
      ∃ name spec rest, compileRule? source = some (.ok (name, spec)) ∧ name ∉ seen ∧
        compileEntries? (line + 1) (name :: seen) sources = some (.ok rest) ∧
        ds = ⟨name, spec, line⟩ :: rest := by
  rw [compileEntries?, h, if_neg Bool.false_ne_true]
  constructor
  · intro hds
    obtain ⟨cause | ⟨name, spec⟩, hrule, hds⟩ := Option.bind_eq_some_iff.1 hds
    · cases hds
    · dsimp only at hds
      split at hds
      · cases hds
      · next hseen =>
          obtain ⟨block, hblock, hds⟩ := Option.map_eq_some_iff.1 hds
          obtain ⟨rest, rfl, rfl⟩ := Except.map_eq_ok_iff.1 hds
          have hname : name ∉ seen := fun hmem => hseen (List.contains_iff_mem.2 hmem)
          exact ⟨name, spec, rest, hrule, hname, hblock, rfl⟩
  · rintro ⟨name, spec, rest, hrule, hname, hrest, rfl⟩
    have hseen : ¬seen.contains name = true := fun hmem => hname (List.contains_iff_mem.1 hmem)
    rw [hrule, Option.bind_some]
    dsimp only
    rw [if_neg hseen, hrest]
    rfl

/-- A block compiles within 32 bits if and only if it compiles and its entries are short enough. -/
theorem compileEntries?_eq_ok_iff {ds : List Definition} :
    compileEntries? line seen sources = some (.ok ds) ↔ compileEntries line seen sources = .ok ds ∧
      ∀ source ∈ sources, isBlankEntry source = false → size source < Cursor.limit := by
  rw [compileEntries_eq_ok_iff]
  induction sources generalizing line seen ds with
  | nil =>
      rw [← compileEntries_eq_ok_iff]
      simp [compileEntries?, compileEntries]
  | cons source sources ih =>
      rw [List.forall_mem_cons]
      cases hblank : isBlankEntry source with
      | true =>
          rw [compileEntries?, hblank, if_pos rfl, ih, entries_cons_of_blank hblank]
          simp
      | false =>
          rw [compileEntries?_cons_eq_ok_iff hblank, entries_cons_of_rule hblank]
          simp only [ih, compileRule?_eq_ok_iff, true_imp_iff]
          constructor
          · rintro ⟨name, spec, rest, ⟨hsize, hrule⟩, hname, ⟨⟨hrest, hfresh⟩, hsizes⟩, rfl⟩
            exact ⟨⟨⟨name, spec, rest, hrule, hrest, rfl⟩, fresh_cons_iff.2 ⟨hname, hfresh⟩⟩,
              hsize, hsizes⟩
          · rintro ⟨⟨⟨name, spec, rest, hrule, hrest, rfl⟩, hfresh⟩, hsize, hsizes⟩
            obtain ⟨hname, hfresh⟩ := fresh_cons_iff.1 hfresh
            exact ⟨name, spec, rest, ⟨hsize, hrule⟩, hname, ⟨⟨hrest, hfresh⟩, hsizes⟩, rfl⟩

/-- A block that compiles has no answer if and only if one of its entries is too long. -/
theorem compileEntries?_of_ok {ds : List Definition}
    (h : compileEntries line seen sources = .ok ds) :
    compileEntries? line seen sources =
      if ∀ source ∈ sources, isBlankEntry source = false → size source < Cursor.limit then
        some (.ok ds) else none := by
  split
  · next hsizes => exact compileEntries?_eq_ok_iff.2 ⟨h, hsizes⟩
  · next hsizes =>
      refine Option.eq_none_iff_forall_ne_some.2 fun block hblock => hsizes ?_
      obtain rfl := (eq_of_compileEntries? hblock).symm.trans h
      exact (compileEntries?_eq_ok_iff.1 hblock).2

/-- A body that stands in an entry within 32 bits is within 32 bits by itself. -/
theorem Head.fits_of_append {name head : Text} (h : Head name head)
    (hname : isRuleName name = true) (hfits : Fits (head ++ source)) : Fits source := by
  obtain ⟨hne, hword⟩ := word_of_isRuleName hname
  obtain ⟨l, d, -, -, -, hlexemes⟩ := h.lexemes_append (.ident hne hword) source
  rw [Fits, hlexemes] at hfits
  exact Cursor.fits_of_le (Nat.le_add_left _ _) hfits

theorem isBlankEntry_append_separator (name body : Text) :
    isBlankEntry (name ++ [':', '='] ++ body) = false := by
  have hcolon : isBlank ':' = false := by decide
  simp [isBlankEntry, hcolon]

/-- A word of `n` letters. -/
def longWord (n : Nat) : Text := List.replicate n 'b'

/-- A rule with a word of `n` letters as its body. -/
def longRule (n : Nat) : Text := ['a'] ++ [':', '='] ++ longWord n

theorem size_longWord (n : Nat) : size (longWord n) = n := by
  induction n with
  | zero => rfl
  | succ n ih =>
      rw [longWord, List.replicate_succ, size, ← longWord, ih]
      exact Nat.add_comm 1 n

theorem size_longRule (n : Nat) : size (longRule n) = 3 + n := by
  rw [longRule, Text.size_append, size_longWord]
  rfl

theorem notMem_longWord (n : Nat) : '\n' ∉ longWord n := fun hmem =>
  absurd (List.eq_of_mem_replicate hmem) (by decide)

theorem isBlankEntry_longRule (n : Nat) : isBlankEntry (longRule n) = false :=
  isBlankEntry_append_separator ['a'] (longWord n)

section

/- The word has a letter, so it is a body, and the rule compiles if it is short enough. -/
variable {n : Nat} (h : 0 < n)
include h

theorem isWord_longWord : IsWord (longWord n) := by
  have hword := Text.forall_mem_bytes_iff Lexeme.isAscii_isWord (longWord n)
  refine ⟨?_, hword.2 fun c hc => ?_⟩
  · intro hnil
    have hsize := size_longWord n
    rw [hnil] at hsize
    exact Nat.ne_of_lt h hsize
  · rw [List.eq_of_mem_replicate hc]
    decide

theorem compileBody?_longWord (hlimit : n < Cursor.limit) :
    compileBody? (longWord n) = some (.ok (.reference (longWord n))) :=
  compileBody?_eq_ok_iff.2
    ⟨(size_longWord n).symm ▸ hlimit, compileBody_of_isWord (isWord_longWord h)⟩

theorem compileRule_longRule :
    compileRule (longRule n) = .ok (['a'], .reference (longWord n)) := by
  rw [longRule, (head_self ['a']).compileRule_append (by decide),
    compileBody_of_isWord (isWord_longWord h)]
  rfl

theorem fits_longRule_iff : Fits (longRule n) ↔ 3 + n < Cursor.limit := by
  rw [fits_iff_of_bind (compileRule_longRule h), size_longRule]

theorem compileRule?_longRule (hlimit : 3 + n < Cursor.limit) :
    compileRule? (longRule n) = some (.ok (['a'], .reference (longWord n))) :=
  compileRule?_eq_ok_iff.2 ⟨(size_longRule n).symm ▸ hlimit, compileRule_longRule h⟩

theorem compileRule?_longRule_eq_none (hlimit : Cursor.limit ≤ 3 + n) :
    compileRule? (longRule n) = none := by
  rw [compileRule?_eq, if_neg]
  rw [fits_longRule_iff h]
  exact Nat.not_lt.2 hlimit

theorem compileDelimited?_longRule_eq_none (hlimit : Cursor.limit ≤ 3 + n) :
    compileDelimited? (longRule n) [] = none := by
  rw [compileDelimited?, entries, compileEntries?, isBlankEntry_longRule,
    if_neg Bool.false_ne_true, compileRule?_longRule_eq_none h hlimit]
  rfl

end

end Grammar

end Descent
