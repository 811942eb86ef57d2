import Mathlib
import Descent.Proofs.Grammar.Branches
import Descent.Proofs.Grammar.Entries
import Descent.Proofs.Grammar.Separator

/-! Names in grammar text. The names of a body are its words from left to right, and every word may
be named. A rule can be defined in grammar text if its name is a word that does not start with a
digit; so a body may name what cannot be defined there. -/

namespace Descent

open Text (bytes)

namespace Grammar

/-- ASCII letters, digits and underscores, and at least one of them. -/
structure IsWord (s : Text) : Prop where
  ne_nil : s ≠ []
  bytes : ∀ b ∈ bytes s, Lexeme.isWord b = true

theorem isWord_iff {s : Text} : IsWord s ↔ s ≠ [] ∧ (bytes s).all Lexeme.isWord = true := by
  rw [List.all_eq_true]
  exact ⟨fun h => ⟨h.ne_nil, h.bytes⟩, fun h => ⟨h.1, h.2⟩⟩

instance (s : Text) : Decidable (IsWord s) := decidable_of_iff' _ isWord_iff

def StartsWithDigit (s : Text) : Prop := ∃ b ∈ (bytes s).head?, Lexeme.isDigit b = true

variable {source name : Text} {ls : List Lexeme} {s : Spec}

theorem isRuleName_iff : isRuleName name = true ↔ IsWord name ∧ ¬StartsWithDigit name := by
  cases name with
  | nil => exact iff_of_false nofun fun h => h.1.ne_nil rfl
  | cons c name =>
      have hbytes := Text.bytes_cons_eq c name
      have hdigit : StartsWithDigit (c :: name) ↔ Lexeme.isDigit (Text.lead c) = true := by
        rw [StartsWithDigit, hbytes]
        simp
      rw [isRuleName, isWord_iff, hdigit, hbytes, and_iff_right (List.cons_ne_nil c name)]
      simp only [List.all_cons, Bool.and_eq_true, Bool.not_eq_true', Bool.not_eq_true]
      exact and_right_comm

/-- The words among lexemes, as they stand in the source. -/
def wordTexts (source : Text) (ls : List Lexeme) : List Text :=
  (ls.filter (·.kind = .ident)).map (lexemeText source)

theorem wordTexts_append (source : Text) (ls ls' : List Lexeme) :
    wordTexts source (ls ++ ls') = wordTexts source ls ++ wordTexts source ls' := by
  rw [wordTexts, List.filter_append, List.map_append]
  rfl

theorem wordTexts_cons_of_ne {l : Lexeme} (h : l.kind ≠ .ident) (ls : List Lexeme) :
    wordTexts source (l :: ls) = wordTexts source ls := by
  rw [wordTexts, List.filter_cons_of_neg (by simpa using h)]
  rfl

/-- The bars between the groups are no words. -/
theorem Barred.wordTexts_eq {groups : List (List Lexeme)} (h : Barred ls groups) :
    wordTexts source ls = groups.flatMap (wordTexts source) := by
  induction h with
  | last => exact (List.flatMap_singleton _ _).symm
  | @bar ls rest l groups _ hbar _ ih =>
      have hword : l.kind ≠ .ident := by
        rw [hbar]
        exact Lexeme.Kind.noConfusion
      rw [wordTexts_append, wordTexts_cons_of_ne hword, ih]
      rfl

/-- The names of a group of lexemes are its words. -/
theorem references_of_stands {group : List Lexeme} {items : List Spec}
    (h : List.Forall₂ (Stands source) group items) :
    items.flatMap Spec.references = wordTexts source group := by
  induction h with
  | nil => rfl
  | @cons l item group items hitem _ ih =>
      rw [List.flatMap_cons, ih]
      cases hitem with
      | @reference name hkind htext =>
          have hname : lexemeText source l = name := by
            rw [lexemeText, htext]
            rfl
          rw [wordTexts, wordTexts, List.filter_cons_of_pos (by simpa using hkind), List.map_cons,
            hname]
          rfl
      | literal hkind =>
          have hword : l.kind ≠ .ident := by
            rw [hkind]
            exact Lexeme.Kind.noConfusion
          rw [wordTexts_cons_of_ne hword]
          rfl

theorem references_unwrap {wrap : List Spec → Spec}
    (hwrap : ∀ ss, (wrap ss).references = ss.flatMap Spec.references) (ss : List Spec) :
    (unwrap wrap ss).references = ss.flatMap Spec.references := by
  unfold unwrap
  split
  · exact (List.flatMap_singleton _ _).symm
  · exact hwrap ss

theorem references_ofBranches (branches : List (List Spec)) :
    (ofBranches branches).references = branches.flatMap (·.flatMap Spec.references) := by
  have hsequence : ∀ ss, (unwrap .sequence ss).references = ss.flatMap Spec.references :=
    references_unwrap fun ss => by rw [Spec.references, Spec.referencesAll_eq_flatMap]
  have halternation : ∀ ss, (unwrap .alternation ss).references = ss.flatMap Spec.references :=
    references_unwrap fun ss => by rw [Spec.references, Spec.referencesAll_eq_flatMap]
  rw [ofBranches, halternation, List.flatMap_map]
  exact congrArg (branches.flatMap ·) (funext hsequence)

/-- The names of a compiled body are the words of its text, in their order. -/
theorem references_of_compileBody (hlex : lex source = .ok ls) (h : compileBody source = .ok s) :
    s.references = wordTexts source ls := by
  obtain ⟨ls', groups, branches, hlex', hgroups, hbranches, rfl⟩ := compileBody_eq_ok_iff.1 h
  obtain rfl : ls = ls' := Except.ok.inj (hlex.symm.trans hlex')
  rw [references_ofBranches, hgroups.wordTexts_eq]
  clear hgroups h
  induction hbranches with
  | nil => rfl
  | cons hbranch _ ih => rw [List.flatMap_cons, List.flatMap_cons, ih, references_of_stands hbranch.2]

theorem isWord_of_mem_wordTexts (hlex : lex source = .ok ls) (h : name ∈ wordTexts source ls) :
    IsWord name := by
  obtain ⟨l, hl, rfl⟩ := List.mem_map.1 h
  obtain ⟨hl, hkind⟩ := List.mem_filter.1 hl
  obtain ⟨text, htext, hwritten⟩ := shown_of_lex hlex l hl
  rw [of_decide_eq_true hkind] at hwritten
  rw [lexemeText, htext]
  cases hwritten with
  | ident hne hword => exact ⟨hne, hword⟩

/-- A word is a body: the name. -/
theorem compileBody_of_isWord (h : IsWord name) : compileBody name = .ok (.reference name) := by
  have hblank : ∀ b ∈ bytes [], Lexeme.isSpace b = true := nofun
  have hends : Lexeme.Ends .ident [] := fun _ _ => nofun
  have hfound : Lexed 0 ([] ++ (name ++ [])) [(⟨.ident, ⟨0, 0 + Text.size name⟩⟩, name)] :=
    .next hblank (.ident h.ne_nil h.bytes) hends (.done hblank)
  rw [List.nil_append, List.append_nil] at hfound
  refine compileBody_eq_ok_iff.2 ⟨_, _, [[.reference name]], lex_eq_ok_iff.2 ⟨_, hfound, rfl⟩,
    .last ?_, .cons ⟨List.cons_ne_nil _ _, .cons (.reference rfl ?_) .nil⟩ .nil, rfl⟩
  · exact List.forall_mem_singleton.2 Lexeme.Kind.noConfusion
  · exact hfound.text? [] rfl _ List.mem_cons_self

/-- A rule of the name can be defined if it is a rule name, and in no other case. -/
theorem exists_compileRule_iff :
    (∃ source s, compileRule source = .ok (name, s)) ↔ isRuleName name = true := by
  constructor
  · rintro ⟨source, s, h⟩
    exact (compileRule_eq_ok_iff.1 h).1
  · intro h
    have hbody := compileBody_of_isWord (isRuleName_iff.1 h).1
    refine ⟨name ++ [':', '='] ++ name, .reference name, ?_⟩
    rw [(head_self name).compileRule_append h, hbody]
    rfl

/-- All names in the body are words, and those that do not start with a digit can be defined in
grammar text. -/
def NamesWords (s : Spec) : Prop :=
  ∀ name ∈ s.references, IsWord name ∧ (isRuleName name = true ↔ ¬StartsWithDigit name)

theorem namesWords_of_compileBody (h : compileBody source = .ok s) : NamesWords s := by
  intro name hname
  obtain ⟨ls, hlex, -⟩ := Except.bind_eq_ok_iff.1 h
  rw [references_of_compileBody hlex h] at hname
  have hword := isWord_of_mem_wordTexts hlex hname
  exact ⟨hword, isRuleName_iff.trans (and_iff_right hword)⟩

theorem namesWords_of_compileRule (h : compileRule source = .ok (name, s)) : NamesWords s := by
  obtain ⟨-, _, after, -, -, hbody⟩ := compileRule_eq_ok_iff.1 h
  exact namesWords_of_compileBody hbody

theorem Entries.namesWords {line : Nat} {sources : List Text} {ds : List Definition}
    (h : Entries line sources ds) : ∀ d ∈ ds, NamesWords d.spec := by
  induction h with
  | nil => exact nofun
  | blank _ _ ih => exact ih
  | rule _ hrule _ ih => exact List.forall_mem_cons.2 ⟨namesWords_of_compileRule hrule, ih⟩

theorem NamesWords.forall_isRuleName_iff (h : NamesWords s) :
    (∀ name ∈ s.references, isRuleName name = true) ↔
      ∀ name ∈ s.references, ¬StartsWithDigit name :=
  forall₂_congr fun name hname => (h name hname).2

/-- The names of a body are its words in their order, and all of them can be defined in grammar text
if and only if no word starts with a digit. Whatever is compiled, a rule, a body or a block, its
names are words, and a name can be defined if it does not start with a digit. One that starts with a
digit can be named, as every word can, and cannot be defined. -/
theorem body_names_words (source : Text) :
    (∀ ls s, lex source = .ok ls → compileBody source = .ok s →
      s.references = wordTexts source ls ∧
      ((∀ name ∈ s.references, isRuleName name = true) ↔
        ∀ name ∈ wordTexts source ls, ¬StartsWithDigit name)) ∧
    (∀ s, compileBody source = .ok s → NamesWords s) ∧
    (∀ name s, compileRule source = .ok (name, s) → NamesWords s) ∧
    (∀ ds, compile source = .ok ds → ∀ d ∈ ds, NamesWords d.spec) ∧
    (∀ delimiter ds, compileDelimited source delimiter = .ok ds → ∀ d ∈ ds, NamesWords d.spec) ∧
    (∀ name, IsWord name → compileBody name = .ok (.reference name)) ∧
    ∀ name, (∃ line s, compileRule line = .ok (name, s)) ↔ isRuleName name = true := by
  refine ⟨fun ls s hlex h => ?_, fun _ => namesWords_of_compileBody,
    fun _ _ => namesWords_of_compileRule, fun ds h => ?_, fun delimiter ds h => ?_,
    fun _ => compileBody_of_isWord, fun _ => exists_compileRule_iff⟩
  · have hwords := references_of_compileBody hlex h
    exact ⟨hwords, hwords ▸ (namesWords_of_compileBody h).forall_isRuleName_iff⟩
  · exact (compileEntries_eq_ok_iff.1 h).1.namesWords
  · exact (compileEntries_eq_ok_iff.1 h).1.namesWords

/-- Two names, of which the second one has a digit inside. -/
theorem body_names_words_pair :
    compileBody "a 'x' | b2".toList =
        .ok (.alternation [.sequence [.reference ['a'], .literal ['x']], .reference ['b', '2']]) ∧
      isRuleName ['b', '2'] = true ∧ ∃ source s, compileRule source = .ok (['b', '2'], s) := by
  have hbody : compileBody "a 'x' | b2".toList =
      .ok (.alternation [.sequence [.reference ['a'], .literal ['x']], .reference ['b', '2']]) := by
    cbv
  obtain ⟨-, hnames, -, -, -, -, hdefined⟩ := body_names_words "a 'x' | b2".toList
  have hname : isRuleName ['b', '2'] = true := by
    refine (hnames _ hbody ['b', '2'] (by decide)).2.2 ?_
    rintro ⟨b, ⟨⟩, h⟩
    cases h
  exact ⟨hbody, hname, (hdefined _).2 hname⟩

/-- A body may be a name that no rule of grammar text has. -/
theorem body_names_words_digit :
    compileBody ['9', 'a'] = .ok (.reference ['9', 'a']) ∧
      ['9', 'a'] ∈ (Spec.reference ['9', 'a']).references ∧ isRuleName ['9', 'a'] = false := by
  refine ⟨by cbv, List.mem_singleton_self _, by decide⟩

end Grammar

end Descent
