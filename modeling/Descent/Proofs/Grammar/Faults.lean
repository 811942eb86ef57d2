import Mathlib
import Descent.Proofs.Grammar.Lexing

/-! Faults. Where reading fails it answers with the character behind the longest start of the text
that is blanks and lexemes: no literal ends that starts there, or nothing starts there. -/

namespace Descent

open Text (bytes size lead)

namespace Grammar

variable {pos : Nat} {source : Text} {ls : List (Lexeme × Text)}

/-- The text is blanks and lexemes in turn. -/
def Tokenizable (s : Text) : Prop := ∃ ls, Lexed 0 s ls

section

/- A text that is cut in front of a character. -/
variable {before after : Text} {c : Char} (hbefore : Lexed 0 before ls)
  (hspace : Lexeme.isSpace (lead c) = false) (hnone : Lexeme.NoneAt (c :: after))
include hbefore hspace hnone

theorem lexemes_of_cut :
    (Cursor.ofText (before ++ c :: after)).lexemes = match Lexeme.faultAt c with
      | .unterminated => (.error .unterminated, ⟨size (before ++ c :: after), []⟩)
      | .unexpected => (.error .unexpected, ⟨size before, bytes (c :: after)⟩) := by
  rw [Cursor.ofText, hbefore.lexemes_append hnone.ends, Cursor.lexemes_of_noneAt _ hspace hnone]
  cases Lexeme.faultAt c with
  | unterminated => simp [Except.map]
  | unexpected => simp [Except.map]

/-- The character where reading stops is the fault: no literal ends that starts there, or nothing
starts there. -/
theorem lex_of_cut : lex (before ++ c :: after) =
    .error (if c = '"' ∨ c = '\'' then .unterminatedLiteral else .unexpectedCharacter c) := by
  have hcut : Text.fromByte? (before ++ c :: after) (size before) = some (c :: after) :=
    Text.fromByte?_eq_some_iff.2 ⟨before, rfl, rfl⟩
  rw [lex, lexemes_of_cut hbefore hspace hnone, Lexeme.faultAt]
  by_cases hquote : c = '"' ∨ c = '\''
  · rw [if_pos hquote, if_pos hquote]
    rfl
  · rw [if_neg hquote, if_neg hquote]
    dsimp only [told]
    rw [Lexeme.Fault.cause?, hcut]
    rfl

/-- What is in front of it is the longest start of the text that is blanks and lexemes. -/
theorem prefix_of_cut {longer : Text} (hlonger : longer <+: before ++ c :: after)
    (htokens : Tokenizable longer) : longer <+: before := by
  rcases List.prefix_or_prefix_of_prefix hlonger (List.prefix_append before (c :: after)) with
    hprefix | ⟨more, rfl⟩
  · exact hprefix
  · have hmore : more <+: c :: after := (List.prefix_append_right_inj before).1 hlonger
    cases more with
    | nil => simp
    | cons d more =>
        obtain ⟨rfl, -⟩ := List.cons_prefix_cons.1 hmore
        obtain ⟨found, hfound⟩ := htokens
        have hlex := lex_of_cut hbefore hspace (hnone.of_prefix hmore)
        rw [lex_eq_ok_iff.2 ⟨found, hfound, rfl⟩] at hlex
        cases hlex

end

theorem Lexed.start_ge {s : Text} (h : Lexed pos s ls) : ∀ l ∈ ls, pos ≤ l.1.span.start := by
  induction h with
  | done => exact nofun
  | next _ _ _ _ ih =>
      refine List.forall_mem_cons.2 ⟨Nat.le_add_right _ _, fun l hl => ?_⟩
      exact Nat.le_trans (Nat.le_trans (Nat.le_add_right _ _) (Nat.le_add_right _ _)) (ih l hl)

/-- Lexemes stand behind each other. -/
theorem Lexed.pairwise {s : Text} (h : Lexed pos s ls) :
    ls.Pairwise fun l l' => l.1.span.stop ≤ l'.1.span.start := by
  induction h with
  | done => exact .nil
  | next _ _ _ hrest ih => exact .cons hrest.start_ge ih

theorem Lexed.start_lt_stop {s : Text} (h : Lexed pos s ls) :
    ∀ l ∈ ls, l.1.span.start < l.1.span.stop := by
  induction h with
  | done => exact nofun
  | next _ htext _ _ ih =>
      exact List.forall_mem_cons.2 ⟨Nat.lt_add_of_pos_right (Text.size_pos htext.ne_nil), ih⟩

/-- Reading stops between characters. -/
theorem exists_stop (source : Text) :
    ∃ rest, source.fromByte? (Cursor.ofText source).lexemes.2.pos = some rest := by
  have hall : ∃ rest, source.fromByte? (size source) = some rest :=
    ⟨[], Text.fromByte?_eq_some_iff.2 ⟨source, (List.append_nil _).symm, rfl⟩⟩
  obtain ⟨before, after, ls, rfl, hls, hspace, hnone⟩ := exists_cut 0 source
  cases after with
  | nil =>
      rw [List.append_nil] at hall ⊢
      rw [Cursor.ofText, hls.lexemes, Nat.zero_add]
      exact hall
  | cons c after =>
      rw [Text.bytes_cons_eq] at hspace
      rw [lexemes_of_cut hls (hspace _ rfl) hnone]
      cases Lexeme.faultAt c with
      | unterminated => exact hall
      | unexpected => exact ⟨c :: after, Text.fromByte?_eq_some_iff.2 ⟨before, rfl, rfl⟩⟩

/-- Reading succeeds on the texts of blanks and lexemes, with the lexemes that are there: these are
not empty, they stand behind each other, and they are cut out between characters. On any other text
it answers with the character behind the longest start that is such a text. It stops between
characters at all events. -/
theorem lex_longest_start (source : Text) :
    (∀ tokens, lex source = .ok tokens ↔
      ∃ ls, Lexed 0 source ls ∧ ls.map Prod.fst = tokens) ∧
    (∀ ls, Lexed 0 source ls →
      (∀ l ∈ ls, Lexeme.Written l.1.kind l.2 ∧ l.1.span.text? source = some l.2 ∧
        l.1.span.start < l.1.span.stop) ∧
      ls.Pairwise fun l l' => l.1.span.stop ≤ l'.1.span.start) ∧
    (¬Tokenizable source → ∃ before c after, source = before ++ c :: after ∧ Tokenizable before ∧
      (∀ longer, longer <+: source → Tokenizable longer → longer <+: before) ∧
      lex source = .error
        (if c = '"' ∨ c = '\'' then .unterminatedLiteral else .unexpectedCharacter c)) ∧
    ∃ rest, source.fromByte? (Cursor.ofText source).lexemes.2.pos = some rest := by
  refine ⟨fun _ => lex_eq_ok_iff, fun ls hls => ⟨fun l hl => ?_, hls.pairwise⟩, ?_, ?_⟩
  · exact ⟨hls.written l hl, hls.text? [] rfl l hl, hls.start_lt_stop l hl⟩
  · intro hsource
    obtain ⟨before, after, ls, rfl, hls, hspace, hnone⟩ := exists_cut 0 source
    cases after with
    | nil => exact absurd ⟨ls, (List.append_nil before).symm ▸ hls⟩ hsource
    | cons c after =>
        rw [Text.bytes_cons_eq] at hspace
        exact ⟨before, c, after, rfl, ⟨ls, hls⟩,
          fun _ => prefix_of_cut hls (hspace _ rfl) hnone, lex_of_cut hls (hspace _ rfl) hnone⟩
  · exact exists_stop source

/-- A letter of two bytes behind a backslash is passed over, and one outside a literal is a fault. -/
theorem lex_longest_start_letter :
    (∃ ls, Lexed 0 "x|'\\é'".toList ls ∧ ls.map Prod.fst =
        [⟨.ident, ⟨0, 1⟩⟩, ⟨.pipe, ⟨1, 2⟩⟩, ⟨.literal, ⟨2, 7⟩⟩] ∧
      ls.Pairwise fun l l' => l.1.span.stop ≤ l'.1.span.start) ∧
    ¬Tokenizable "x é'".toList ∧
    ∃ before c after, "x é'".toList = before ++ c :: after ∧ Tokenizable before ∧
      (∀ longer, longer <+: "x é'".toList → Tokenizable longer → longer <+: before) ∧
      (.unexpectedCharacter 'é' : GrammarError) =
        if c = '"' ∨ c = '\'' then .unterminatedLiteral else .unexpectedCharacter c := by
  obtain ⟨hok, hspans, -, -⟩ := lex_longest_start "x|'\\é'".toList
  obtain ⟨hok', -, hfault, -⟩ := lex_longest_start "x é'".toList
  have hread : lex "x|'\\é'".toList =
      .ok [⟨.ident, ⟨0, 1⟩⟩, ⟨.pipe, ⟨1, 2⟩⟩, ⟨.literal, ⟨2, 7⟩⟩] := by cbv
  have hread' : lex "x é'".toList = .error (.unexpectedCharacter 'é') := by cbv
  have hnone : ¬Tokenizable "x é'".toList := by
    rintro ⟨ls, hls⟩
    rw [(hok' _).2 ⟨ls, hls, rfl⟩] at hread'
    cases hread'
  obtain ⟨ls, hls, hmap⟩ := (hok _).1 hread
  obtain ⟨before, c, after, hcut, hbefore, hlongest, hlex⟩ := hfault hnone
  refine ⟨⟨ls, hls, hmap, (hspans ls hls).2⟩, hnone, before, c, after, hcut, hbefore, hlongest, ?_⟩
  exact Except.error.inj (hread'.symm.trans hlex)

end Grammar

end Descent
