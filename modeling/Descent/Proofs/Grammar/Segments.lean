import Mathlib
import Descent.Proofs.Grammar.Branches
import Descent.Proofs.Grammar.Escaping

/-! Segments of escaped texts. Undoing takes a backslash with the character behind it, and any other
character alone; a backslash with nothing behind it would stand for itself. The scan for the closing
quote passes over one byte behind a backslash and never looks at characters. Both go through the inside
of a literal segment by segment, so the literal ends where undoing ends, with no backslash left over. -/

namespace Descent

open Lexeme (Units afterLiteral)
open Text (bytes lead)

namespace Literal

theorem unescapePair_ne_nil (c : Char) : unescapePair c ≠ [] := by
  unfold unescapePair
  split <;> exact List.cons_ne_nil _ _

/-- What is undone at once. -/
inductive Segment where
  | plain (c : Char)
  /-- A backslash and the character behind it. -/
  | pair (c : Char)
  /-- A backslash with nothing behind it. -/
  | dangling
  deriving DecidableEq

namespace Segment

def written : Segment → Text
  | plain c => [c]
  | pair c => ['\\', c]
  | dangling => ['\\']

/-- The text that the segment stands for. -/
def sense : Segment → Text
  | plain c => [c]
  | pair c => unescapePair c
  | dangling => ['\\']

theorem sense_ne_nil (segment : Segment) : segment.sense ≠ [] := by
  cases segment with
  | plain c => exact List.cons_ne_nil _ _
  | dangling => exact List.cons_ne_nil _ _
  | pair c => exact unescapePair_ne_nil c

end Segment

/-- The segments from left to right. -/
def segments : Text → List Segment
  | [] => []
  | c :: s =>
      if c = '\\' then
        match s with
        | [] => [.dangling]
        | d :: s => .pair d :: segments s
      else .plain c :: segments s

theorem segments_plain {c : Char} (h : c ≠ '\\') (s : Text) :
    segments (c :: s) = .plain c :: segments s := by
  rw [segments.eq_def]
  exact if_neg h

theorem segments_pair (c : Char) (s : Text) :
    segments ('\\' :: c :: s) = .pair c :: segments s := by
  rw [segments.eq_def]
  exact if_pos rfl

/-- Nothing of the text is left out. -/
theorem flatMap_written_segments (s : Text) : (segments s).flatMap Segment.written = s := by
  fun_induction segments s with
  | case1 => rfl
  | case2 => rfl
  | case3 d s ih => simp [Segment.written, ih]
  | case4 c s _ ih => simp [Segment.written, ih]

theorem unescape_eq_flatMap_sense (s : Text) :
    unescape s = (segments s).flatMap Segment.sense := by
  fun_induction segments s with
  | case1 => rfl
  | case2 => rfl
  | case3 d s ih =>
      rw [unescape_pair, ih, List.flatMap_cons]
      rfl
  | case4 c s hslash ih =>
      rw [unescape_plain hslash, ih, List.flatMap_cons]
      rfl

/-- Every segment stands for something, so only the empty text stands for nothing. -/
theorem unescape_eq_nil_iff {s : Text} : unescape s = [] ↔ s = [] := by
  constructor
  · intro h
    rw [unescape_eq_flatMap_sense, List.flatMap_eq_nil_iff] at h
    have hnone : segments s = [] :=
      List.eq_nil_iff_forall_not_mem.2 fun segment hmem => segment.sense_ne_nil (h segment hmem)
    rw [← flatMap_written_segments s, hnone]
    rfl
  · rintro rfl
    rfl

section

variable {quote : Char} {s : Text}

theorem units_plain_iff {c : Char} (hslash : c ≠ '\\') :
    Units quote (c :: s) ↔ c ≠ quote ∧ Units quote s := by
  constructor
  · intro h
    cases h with
    | plain hquote _ hs => exact ⟨hquote, hs⟩
    | escape => exact absurd rfl hslash
  · rintro ⟨hquote, hs⟩
    exact .plain hquote hslash hs

theorem units_pair_iff {c : Char} : Units quote ('\\' :: c :: s) ↔ Units quote s := by
  constructor
  · intro h
    cases h with
    | plain _ hslash => exact absurd rfl hslash
    | escape hs => exact hs
  · exact .escape

/-- A text may stand between quotes if and only if undoing it meets no backslash with nothing behind it
and no quote that stands alone. -/
theorem units_iff :
    Units quote s ↔ .dangling ∉ segments s ∧ .plain quote ∉ segments s := by
  fun_induction segments s with
  | case1 => exact iff_of_true .nil (by simp)
  | case2 =>
      refine iff_of_false ?_ (by simp)
      intro h
      cases h with
      | plain _ hslash => exact hslash rfl
  | case3 d s ih => simp [units_pair_iff, ih]
  | case4 c s hslash ih =>
      simp only [units_plain_iff hslash, ih, List.mem_cons, reduceCtorEq, false_or,
        Segment.plain.injEq, not_or, eq_comm (a := quote)]
      exact and_left_comm

/-- Each quote inside is the second half of a segment: the segments in front of it end with a
backslash. -/
theorem exists_pair_of_units (hslash : quote ≠ '\\') {before after : Text}
    (h : Units quote s) (hs : s = before ++ quote :: after) :
    ∃ ps qs, segments s = ps ++ .pair quote :: qs ∧
      before = ps.flatMap Segment.written ++ ['\\'] ∧ after = qs.flatMap Segment.written := by
  induction h generalizing before with
  | nil => simp at hs
  | @plain c s hquote hc _ ih =>
      cases before with
      | nil => exact absurd (List.cons.inj hs).1 hquote
      | cons b before =>
          obtain ⟨rfl, htail⟩ := List.cons.inj hs
          obtain ⟨ps, qs, hsegments, rfl, rfl⟩ := ih htail
          refine ⟨.plain c :: ps, qs, ?_, rfl, rfl⟩
          rw [segments_plain hc, hsegments, List.cons_append]
  | @escape c s _ ih =>
      match before with
      | [] => exact absurd (List.cons.inj hs).1.symm hslash
      | [b] =>
          -- The character that the backslash takes is this quote.
          obtain ⟨rfl, htail⟩ := List.cons.inj hs
          obtain ⟨rfl, rfl⟩ := List.cons.inj htail
          exact ⟨[], segments s, segments_pair c s, rfl, (flatMap_written_segments s).symm⟩
      | b :: d :: before =>
          obtain ⟨rfl, htail⟩ := List.cons.inj hs
          obtain ⟨rfl, hrest⟩ := List.cons.inj htail
          obtain ⟨ps, qs, hsegments, rfl, rfl⟩ := ih hrest
          refine ⟨.pair c :: ps, qs, ?_, rfl, rfl⟩
          rw [segments_pair, hsegments, List.cons_append]

/-- The scan for the closing quote comes to the end of every segment, whatever follows there. -/
theorem afterLiteral_of_segments (hq : quote = '"' ∨ quote = '\'') {ps qs : List Segment}
    (h : Units quote s) (hs : segments s = ps ++ qs) (after : Text) :
    afterLiteral (lead quote) (bytes (ps.flatMap Segment.written ++ after)) =
      afterLiteral (lead quote) (bytes after) := by
  induction h generalizing ps with
  | nil =>
      obtain ⟨rfl, -⟩ := List.append_eq_nil_iff.1 hs.symm
      rfl
  | plain hquote hslash _ ih =>
      rw [segments_plain hslash] at hs
      cases ps with
      | nil => rfl
      | cons p ps =>
          obtain ⟨rfl, htail⟩ := List.cons.inj hs
          exact (Lexeme.afterLiteral_plain hq hquote hslash _).trans (ih htail)
  | escape _ ih =>
      rw [segments_pair] at hs
      cases ps with
      | nil => rfl
      | cons p ps =>
          -- One byte of the protected character is passed over, and its other bytes end no literal.
          obtain ⟨rfl, htail⟩ := List.cons.inj hs
          exact (Lexeme.afterLiteral_escape hq _ _).trans (ih htail)

end

/-- How a literal stands in its source, with what it has between its quotes. -/
structure InPhase (source : Text) (l : Lexeme) (quote : Char) (inner : Text) : Prop where
  isQuote : quote = '"' ∨ quote = '\''
  text : l.span.text? source = some (quote :: (inner ++ [quote]))
  two_le : l.span.start + 2 ≤ l.span.stop
  undone : text? (Grammar.lexemeText source l) = some (unescape inner)
  not_dangling : .dangling ∉ segments inner
  escaped (before after : Text) : inner = before ++ quote :: after →
    ∃ ps qs, segments inner = ps ++ .pair quote :: qs ∧
      before = ps.flatMap Segment.written ++ ['\\'] ∧ after = qs.flatMap Segment.written
  scanned (ps qs : List Segment) (after : Text) : segments inner = ps ++ qs →
    afterLiteral (lead quote) (bytes (ps.flatMap Segment.written ++ after)) =
      afterLiteral (lead quote) (bytes after)
  empty_iff : unescape inner = [] ↔ inner = []
  refused_iff : Grammar.item source l = .error .emptyLiteral ↔ inner = []

theorem size_quotes {quote : Char} (hq : quote = '"' ∨ quote = '\'') (inner : Text) :
    Text.size (quote :: (inner ++ [quote])) = inner.size + 2 := by
  simp only [Text.size, Text.size_append, utf8Size_quote hq]
  omega

theorem item_eq_emptyLiteral_iff {source inner : Text} {l : Lexeme} (hkind : l.kind = .literal)
    (h : text? (Grammar.lexemeText source l) = some (unescape inner)) :
    Grammar.item source l = .error .emptyLiteral ↔ unescape inner = [] := by
  unfold Grammar.item
  rw [hkind, h]
  cases unescape inner with
  | nil => exact iff_of_true rfl rfl
  | cons c text => exact iff_of_false nofun nofun

theorem exists_inPhase {source : Text} {l : Lexeme} (hshown : Grammar.Shown source l)
    (hkind : l.kind = .literal) : ∃ quote inner, InPhase source l quote inner := by
  obtain ⟨text, htext, hwritten⟩ := hshown
  rw [hkind] at hwritten
  cases hwritten with
  | @literal quote inner hq hunits =>
      have hundone : text? (Grammar.lexemeText source l) = some (unescape inner) := by
        rw [Grammar.lexemeText, htext]
        exact text?_of_quotes hq inner
      obtain ⟨before, after, -, hstart, hstop⟩ := Text.slice?_eq_some_iff.1 htext
      rw [size_quotes hq] at hstop
      exact ⟨quote, inner, {
        isQuote := hq
        text := htext
        two_le := by omega
        undone := hundone
        not_dangling := (units_iff.1 hunits).1
        escaped := fun _ _ => exists_pair_of_units (Lexeme.quote_ne_backslash hq) hunits
        scanned := fun _ _ after hs => afterLiteral_of_segments hq hunits hs after
        empty_iff := unescape_eq_nil_iff
        refused_iff := (item_eq_emptyLiteral_iff hkind hundone).trans unescape_eq_nil_iff }⟩

/-- The scan for the end of a literal and the undoing of its escapes agree on where the escapes are. A
literal is cut out between characters with both quotes; undoing what stands between them takes segments
that are that text together, and the scan comes to the end of each; no backslash is left without a
character, no quote stands alone, and only literals with nothing between the quotes are empty. -/
theorem literals_in_phase :
    (∀ s, (segments s).flatMap Segment.written = s ∧
      unescape s = (segments s).flatMap Segment.sense) ∧
    ∀ source ls, Grammar.lex source = .ok ls → ∀ l ∈ ls, l.kind = .literal →
      ∃ quote inner, InPhase source l quote inner :=
  ⟨fun s => ⟨flatMap_written_segments s, unescape_eq_flatMap_sense s⟩,
    fun _ _ hlex l hl => exists_inPhase (Grammar.shown_of_lex hlex l hl)⟩

/-- Behind a letter of two bytes a quote and a backslash are protected, and the literal ends at the
next quote. -/
theorem literals_in_phase_protected :
    Grammar.lex "a '\"' \"é\\\"\\\\\"".toList =
        .ok [⟨.ident, ⟨0, 1⟩⟩, ⟨.literal, ⟨2, 5⟩⟩, ⟨.literal, ⟨6, 14⟩⟩] ∧
      InPhase "a '\"' \"é\\\"\\\\\"".toList ⟨.literal, ⟨6, 14⟩⟩ '"' "é\\\"\\\\".toList ∧
      segments "é\\\"\\\\".toList = [.plain 'é', .pair '"', .pair '\\'] := by
  have hlex : Grammar.lex "a '\"' \"é\\\"\\\\\"".toList =
      .ok [⟨.ident, ⟨0, 1⟩⟩, ⟨.literal, ⟨2, 5⟩⟩, ⟨.literal, ⟨6, 14⟩⟩] := by cbv
  obtain ⟨quote, inner, h⟩ := literals_in_phase.2 _ _ hlex ⟨.literal, ⟨6, 14⟩⟩ (by decide) rfl
  have htext : (⟨6, 14⟩ : Span).text? "a '\"' \"é\\\"\\\\\"".toList =
      some ('"' :: ("é\\\"\\\\".toList ++ ['"'])) := by cbv
  obtain ⟨rfl, hinner⟩ := List.cons.inj (Option.some.inj (h.text.symm.trans htext))
  obtain rfl := List.append_cancel_right hinner
  exact ⟨hlex, h, by decide⟩

end Literal

end Descent
