import Descent.Proofs.Grammar.Printing
import Descent.Proofs.Grammar.Width
import Descent.Proofs.Parser.Block

/-! Listings. The text of a registry has a rule on a line: quoting keeps the ends of lines out of
literals, and names have none. So the lines of the text are the rules again, and where a literal is
read back as it was, each line compiles to its rule. A line is longer than the body that was
compiled, so a rule that was read within 32 bits may be printed on a line that is not. -/

namespace Descent

open Grammar (NormalAtom NormalBranches ofBranches spaced word words write Entries Fresh
  compileBody isRuleName isBlankEntry compileRule longWord)

namespace Text

/-- Nothing in the text ends a line. -/
def OnOneLine (s : Text) : Prop := '\n' ∉ s ∧ '\r' ∉ s

instance (s : Text) : Decidable (OnOneLine s) := inferInstanceAs (Decidable (_ ∧ _))

theorem onOneLine_iff {s : Text} : OnOneLine s ↔ ∀ c ∈ s, c ≠ '\n' ∧ c ≠ '\r' := by
  constructor
  · exact fun h c hc => ⟨ne_of_mem_of_not_mem hc h.1, ne_of_mem_of_not_mem hc h.2⟩
  · exact fun h => ⟨fun hc => (h _ hc).1 rfl, fun hc => (h _ hc).2 rfl⟩

theorem onOneLine_append {s t : Text} : OnOneLine (s ++ t) ↔ OnOneLine s ∧ OnOneLine t := by
  rw [onOneLine_iff, onOneLine_iff, onOneLine_iff]
  exact List.forall_mem_append

theorem onOneLine_flatMap {α : Type} {f : α → Text} {as : List α} (h : ∀ a ∈ as, OnOneLine (f a)) :
    OnOneLine (as.flatMap f) := by
  refine onOneLine_iff.2 fun c hc => ?_
  obtain ⟨a, ha, hc⟩ := List.mem_flatMap.1 hc
  exact onOneLine_iff.1 (h a ha) c hc

/-- A line feed behind a text without ends of lines makes a line of it. -/
theorem lines_append {s : Text} (h : OnOneLine s) (rest : Text) :
    lines (s ++ '\n' :: rest) = s :: lines rest := by
  rw [onOneLine_iff] at h
  induction s with
  | nil => rfl
  | cons c s ih =>
      obtain ⟨hc, hs⟩ := List.forall_mem_cons.1 h
      rw [List.cons_append, lines, ih hs]
      · rfl
      · exact hc.1
      · exact fun _ hreturn => absurd hreturn hc.2

theorem onOneLine_codePointEscape (c : Char) : OnOneLine (codePointEscape c) := by
  refine onOneLine_append.2 ⟨onOneLine_append.2 ⟨by decide, onOneLine_iff.2 ?_⟩, by decide⟩
  intro d hd
  obtain ⟨k, rfl⟩ := Literal.digitChar_of_mem_toDigits hd
  exact ⟨Nat.digitChar_ne '\n' rfl, Nat.digitChar_ne '\r' rfl⟩

/-- The characters that end lines are quoted by letters. -/
theorem onOneLine_escaped (c : Char) : OnOneLine (escaped '"' c) := by
  unfold escaped
  split
  · decide
  · decide
  · decide
  · decide
  · decide
  · next hreturn hfeed _ =>
      split
      · next hquote =>
          subst hquote
          decide
      · split
        · exact onOneLine_codePointEscape c
        · exact onOneLine_iff.2 (List.forall_mem_singleton.2 ⟨hfeed, hreturn⟩)

/-- A quoted text has no ends of lines, whatever is quoted. -/
theorem onOneLine_quoted (s : Text) : OnOneLine s.quoted := by
  unfold quoted
  rw [onOneLine_append, onOneLine_append]
  exact ⟨⟨by decide, onOneLine_flatMap fun c _ => onOneLine_escaped c⟩, by decide⟩

theorem onOneLine_of_word {name : Text} (h : ∀ b ∈ bytes name, Lexeme.isWord b = true) :
    OnOneLine name := by
  rw [forall_mem_bytes_iff Lexeme.isAscii_isWord] at h
  refine ⟨fun hc => ?_, fun hc => ?_⟩
  · exact absurd (h _ hc) (by decide)
  · exact absurd (h _ hc) (by decide)

end Text

namespace Grammar

open Text (OnOneLine)

theorem onOneLine_word {a : Spec} (ha : NormalAtom a) : OnOneLine (word Text.quoted a).2 := by
  cases ha with
  | reference _ hword => exact Text.onOneLine_of_word hword
  | literal _ => exact Text.onOneLine_quoted _

theorem onOneLine_spaced {ss : List Text} (h : ∀ s ∈ ss, OnOneLine s) : OnOneLine (spaced ss) := by
  cases ss with
  | nil => decide
  | cons s ss =>
      obtain ⟨hs, hss⟩ := List.forall_mem_cons.1 h
      refine Text.onOneLine_append.2 ⟨hs, Text.onOneLine_flatMap fun r hr => ?_⟩
      exact Text.onOneLine_append (s := [' ']).2 ⟨by decide, hss r hr⟩

theorem onOneLine_write {branches : List (List Spec)} (h : NormalBranches branches) :
    OnOneLine (write Text.quoted branches) := by
  refine onOneLine_spaced (List.forall_mem_map.2 ?_)
  exact forall_mem_words h (by decide) fun _ => onOneLine_word

variable {source : Text} {s : Spec}

/-- A compiled body is printed on one line. -/
theorem onOneLine_text (h : compileBody source = .ok s) : OnOneLine s.text := by
  obtain ⟨branches, hne, hbranches, rfl⟩ := exists_branches_of_compileBody h
  rw [Spec.text_ofBranches hne hbranches]
  exact onOneLine_write hbranches

/-- A printed body compiles behind a space as it does by itself. -/
theorem compileBody_cons_text (h : compileBody source = .ok s)
    (hforeign : ∀ text, .literal text ∈ s.parts → ∀ c ∈ text, Literal.isForeign c = false) :
    compileBody (' ' :: s.text) = .ok s := by
  obtain ⟨branches, hne, hbranches, rfl⟩ := exists_branches_of_compileBody h
  rw [Spec.text_ofBranches hne hbranches, compileBody_cons_write quotes_quoted hne hbranches,
    Except.ok.injEq, Spec.mapLiterals_eq_self_iff]
  exact fun text htext => Literal.flatMap_reread_eq_self_iff.2 (hforeign text htext)

end Grammar

/-- The rule has a name of the grammar, and a body that is written in it. -/
def Rule.IsWritten (rule : Rule) : Prop :=
  isRuleName rule.name = true ∧ ∃ source, compileBody source = .ok rule.spec

namespace Rule

variable {rule : Rule}

/-- The line that a rule is printed as. -/
def line (rule : Rule) : Text := rule.name ++ " := ".toList ++ rule.spec.text

theorem IsWritten.onOneLine_line (h : rule.IsWritten) : Text.OnOneLine rule.line := by
  obtain ⟨hname, source, hsource⟩ := h
  have hname' := Text.onOneLine_of_word (Grammar.word_of_isRuleName hname).2
  exact Text.onOneLine_append.2
    ⟨Text.onOneLine_append.2 ⟨hname', by decide⟩, Grammar.onOneLine_text hsource⟩

theorem isBlankEntry_line (rule : Rule) : isBlankEntry rule.line = false := by
  have hcolon : isBlank ':' = false := by decide
  simp [isBlankEntry, line, hcolon]

theorem IsWritten.compileRule_line (h : rule.IsWritten)
    (hforeign : ∀ text, .literal text ∈ rule.spec.parts → ∀ c ∈ text, Literal.isForeign c = false) :
    compileRule rule.line = .ok (rule.name, rule.spec) := by
  obtain ⟨hname, source, hsource⟩ := h
  have hhead : Grammar.Head rule.name (rule.name ++ [' ', ':', '=']) :=
    @Grammar.Head.intro rule.name [] [' '] (List.forall_mem_nil _) (List.forall_mem_singleton.2 rfl)
  have hline : rule.line = rule.name ++ [' ', ':', '='] ++ (' ' :: rule.spec.text) := by
    simp [line]
  rw [hline, hhead.compileRule_append hname, Grammar.compileBody_cons_text hsource hforeign]
  rfl

end Rule

namespace Registry

/-- The definitions that rules are printed as, from line `number` on. -/
def definitions (number : Nat) (rules : List Rule) : List Definition :=
  rules.mapIdx fun place rule => ⟨rule.name, rule.spec, number + place⟩

theorem definitions_cons (number : Nat) (rule : Rule) (rules : List Rule) :
    definitions number (rule :: rules) =
      ⟨rule.name, rule.spec, number⟩ :: definitions (number + 1) rules := by
  rw [definitions, List.mapIdx_cons]
  have hplace : (fun (place : Nat) (rule : Rule) =>
      (⟨rule.name, rule.spec, number + (place + 1)⟩ : Definition)) =
      fun place rule => ⟨rule.name, rule.spec, number + 1 + place⟩ := by
    funext place rule
    rw [Nat.add_assoc, Nat.add_comm 1]
  rw [hplace]
  rfl

/-- Registered names differ, and every rule is written in the grammar. -/
structure Written (r : Registry) : Prop where
  nodup : r.names.Nodup
  rules : ∀ rule ∈ r.rules, rule.IsWritten

variable {r : Registry} {name : Text} {spec : Spec}

theorem lines_flatMap {rules : List Rule} (h : ∀ rule ∈ rules, rule.IsWritten) :
    Text.lines (rules.flatMap fun rule => rule.line ++ ['\n']) = rules.map Rule.line := by
  induction rules with
  | nil => rfl
  | cons rule rules ih =>
      obtain ⟨hrule, hrules⟩ := List.forall_mem_cons.1 h
      rw [List.flatMap_cons, List.append_assoc, List.map_cons, ← ih hrules]
      exact Text.lines_append hrule.onOneLine_line _

theorem entries_of_lines {rules : List Rule} (number : Nat) (h : ∀ rule ∈ rules, rule.IsWritten)
    (hforeign : ∀ rule ∈ rules, ∀ text, .literal text ∈ rule.spec.parts →
      ∀ c ∈ text, Literal.isForeign c = false) :
    Entries number (rules.map Rule.line) (definitions number rules) := by
  induction rules generalizing number with
  | nil => exact .nil
  | cons rule rules ih =>
      obtain ⟨hrule, hrules⟩ := List.forall_mem_cons.1 h
      obtain ⟨hliteral, hliterals⟩ := List.forall_mem_cons.1 hforeign
      rw [definitions_cons]
      exact .rule rule.isBlankEntry_line (hrule.compileRule_line hliteral)
        (ih (number + 1) hrules hliterals)

theorem map_name_definitions (number : Nat) (rules : List Rule) :
    (definitions number rules).map (·.name) = rules.map (·.name) := by
  induction rules generalizing number with
  | nil => rfl
  | cons rule rules ih => rw [definitions_cons, List.map_cons, ih, List.map_cons]

/-- The text of written rules compiles to these rules, the first of them on line 1, if no line is
too long. -/
theorem Written.compile?_text (h : r.Written)
    (hforeign : ∀ rule ∈ r.rules, ∀ text, .literal text ∈ rule.spec.parts →
      ∀ c ∈ text, Literal.isForeign c = false) :
    Grammar.compile? r.text = if ∀ rule ∈ r.rules, rule.line.size < Cursor.limit then
      some (.ok (definitions 1 r.rules)) else none := by
  have hlines : r.text.lines = r.rules.map Rule.line := lines_flatMap h.rules
  have hcompile : Grammar.compileEntries 1 [] (r.rules.map Rule.line) =
      .ok (definitions 1 r.rules) := by
    refine Grammar.compileEntries_eq_ok_iff.2 ⟨entries_of_lines 1 h.rules hforeign, ?_, ?_⟩
    · rw [map_name_definitions]
      exact h.nodup
    · exact fun _ _ => List.not_mem_nil
  rw [Grammar.compile?, hlines, Grammar.compileEntries?_of_ok hcompile]
  refine if_congr ?_ rfl rfl
  rw [List.forall_mem_map]
  exact forall₂_congr fun rule _ => imp_iff_right rule.isBlankEntry_line

theorem written_empty : Written {} := ⟨List.nodup_nil, nofun⟩

/-- Whatever the options are, a written body keeps the registry written. -/
theorem Written.insert (h : r.Written) (hrule : isRuleName name = true)
    (hspec : ∃ source, compileBody source = .ok spec) (options : Registration) :
    (r.insert name spec options).state.Written := by
  rcases r.insert_eq_cases name spec options with
    ⟨hfree, hinsert⟩ | ⟨place, hplace, -, hinsert⟩ | ⟨-, -, hinsert⟩
  · rw [hinsert]
    refine ⟨?_, List.forall_mem_append.2 ⟨h.rules, List.forall_mem_singleton.2 ⟨hrule, hspec⟩⟩⟩
    have hnodup := h.nodup.concat (handle?_eq_none_iff.1 hfree)
    rw [List.concat_eq_append] at hnodup
    exact (names_added ⟨name, spec, options.whitespace⟩ hfree _).symm ▸ hnodup
  · rw [hinsert]
    have hnames := names_replaced ⟨name, spec, options.whitespace⟩ hplace
    refine ⟨(hnames _).symm ▸ h.nodup, fun rule hmem => ?_⟩
    rcases List.mem_or_eq_of_mem_set hmem with hmem | rfl
    · exact h.rules rule hmem
    · exact ⟨hrule, hspec⟩
  · rw [hinsert]
    exact h

end Registry

namespace Grammar

/-- What an entry defines is written in it. -/
theorem Entries.isWritten {number : Nat} {sources : List Text} {ds : List Definition}
    (h : Entries number sources ds) : ∀ d ∈ ds, d.rule.IsWritten := by
  induction h with
  | nil => exact nofun
  | blank _ _ ih => exact ih
  | rule _ hrule _ ih =>
      obtain ⟨hname, _, after, -, -, hspec⟩ := compileRule_eq_ok_iff.1 hrule
      exact List.forall_mem_cons.2 ⟨⟨hname, after, hspec⟩, ih⟩

end Grammar

namespace Parser

variable {p : Parser}

theorem written_register (h : p.registry.Written) {name : Text} {spec : Spec}
    (hrule : isRuleName name = true) (hspec : ∃ source, compileBody source = .ok spec)
    (options : Registration) : (p.register name spec options).state.registry.Written := by
  unfold register
  split
  · exact h.insert hrule hspec _
  · exact h.insert hrule hspec _

theorem written_define (h : p.registry.Written) (name body : Text) (options : Registration) :
    (p.define name body options).state.registry.Written := by
  unfold define
  split
  · next hname =>
      cases hbody : compileBody body with
      | error cause => exact h
      | ok spec => exact written_register h hname ⟨body, hbody⟩ options
  · exact h

theorem written_registerAll (h : p.registry.Written) {ds : List Definition}
    (hds : ∀ d ∈ ds, d.rule.IsWritten) : (p.registerAll ds).state.registry.Written := by
  induction ds generalizing p with
  | nil => exact h
  | cons d ds ih =>
      obtain ⟨hd, hds⟩ := List.forall_mem_cons.1 hds
      have hregister := written_register h hd.1 hd.2 {}
      rw [registerAll, Change.andThen]
      split
      · exact hregister
      · exact ih hregister hds

theorem written_loadCompiled (h : p.registry.Written) {sources : List Text} :
    (p.loadCompiled (Grammar.compileEntries 1 [] sources)).state.registry.Written := by
  cases hcompile : Grammar.compileEntries 1 [] sources with
  | error err => exact h
  | ok ds =>
      have hds := (Grammar.compileEntries_eq_ok_iff.1 hcompile).1.isWritten
      rw [loadCompiled, registerTogether]
      split
      · exact h
      · exact written_registerAll h hds

end Parser

/-- The request registers rules that are written as grammar text, or no rules. -/
def Request.KeepsToText (p : Parser) : Request → Prop
  | define _ _ _ | load _ | loadDelimited _ _ => True
  | request => (request.perform p).state.registry.rules = p.registry.rules

/-- Each of the requests does so in its turn. -/
def Request.AllKeepToText (p : Parser) : List Request → Prop
  | [] => True
  | request :: requests =>
      request.KeepsToText p ∧ AllKeepToText (request.perform p).state requests

namespace Request

variable {p : Parser}

theorem written_perform (h : p.registry.Written) {request : Request}
    (hrequest : request.KeepsToText p) : (request.perform p).state.registry.Written := by
  have hsame : (request.perform p).state.registry.rules = p.registry.rules →
      (request.perform p).state.registry.Written := by
    intro hrules
    refine ⟨?_, hrules ▸ h.rules⟩
    rw [Registry.names, hrules]
    exact h.nodup
  cases request with
  | define name body options => exact Parser.written_define h name body options
  | load text => exact Parser.written_loadCompiled h
  | loadDelimited text delimiter => exact Parser.written_loadCompiled h
  | register name spec options => exact hsame hrequest
  | registerMatcher name matcher options => exact hsame hrequest
  | loadCharacterRules options => exact hsame hrequest
  | startFrom name => exact hsame hrequest

theorem written_performAll (h : p.registry.Written) {requests : List Request}
    (hrequests : AllKeepToText p requests) : (performAll p requests).registry.Written := by
  induction requests generalizing p with
  | nil => exact h
  | cons request requests ih => exact ih (written_perform h hrequests.1) hrequests.2

end Request

namespace Parser

/-- One literal has a quote, a line feed, a separator and a letter of two bytes; the rule that it
is the body of was defined otherwise before. -/
def listed : List Request :=
  [.define ['a'] "x".toList {}, .load "b := a '|' | \"\\\\\"\nc := a".toList,
    .define ['a'] "'\"\\n:=é'".toList { replace := true }]

def listedRules : List Rule :=
  [⟨['a'], .literal ['"', '\n', ':', '=', 'é'], false⟩,
    ⟨['b'], .alternation [.sequence [.reference ['a'], .literal ['|']], .literal ['\\']], false⟩,
    ⟨['c'], .reference ['a'], false⟩]

def listing : Text := "a := \"\\\"\\n:=é\"\nb := a \"|\" | \"\\\\\"\nc := a\n".toList

/-- A word that is defined as a body within 32 bits, and printed on a line that is not. -/
theorem listing_of_longWord {n : Nat} (h : 0 < n) (hlimit : n < Cursor.limit)
    (hline : Cursor.limit ≤ 5 + n) :
    ∃ x, ({} : Parser).define? ['a'] (longWord n) {} = some x ∧ x.result = .ok 0 ∧
      Grammar.compile? x.state.registry.text = none := by
  have hname : isRuleName ['a'] = true := by decide
  have hbody := Grammar.compileBody?_longWord h hlimit
  refine ⟨({} : Parser).register ['a'] (.reference (longWord n)) {}, ?_, rfl, ?_⟩
  · rw [define?, if_pos hname, hbody]
    rfl
  · have hwritten := @written_register {} Registry.written_empty _ _ hname
      ⟨longWord n, (Grammar.compileBody?_eq_ok_iff.1 hbody).2⟩ {}
    have hrules : (({} : Parser).register ['a'] (.reference (longWord n)) {}).state.registry.rules =
        [⟨['a'], .reference (longWord n), false⟩] := rfl
    have hsize : Text.size (['a'] ++ " := ".toList ++ longWord n) = 5 + n := by
      rw [Text.size_append, Grammar.size_longWord]
      rfl
    rw [hwritten.compile?_text, hrules]
    · refine if_neg fun hsizes => Nat.not_lt.2 hline ?_
      rw [← hsize]
      exact hsizes _ List.mem_cons_self
    · rw [hrules]
      simp [Spec.parts]

end Parser

end Descent
