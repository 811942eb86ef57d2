import Mathlib.Data.List.DropRight
import Descent.Proofs.Grammar.Shape
import Descent.Proofs.Grammar.Shift

/-! Rules as texts. A rule is cut at its first separator, also where the lexemes are cut: what stands
in front is a name between ASCII blanks, where there is neither a separator nor a quote, and what
stands behind compiles by itself. -/

namespace Descent

open Text (bytes size lead)

namespace Text

/-- The ASCII characters that separate lexemes. -/
def isAsciiBlank (c : Char) : Bool :=
  c = ' ' || c = '\t' || c = '\n' || c = '\x0c' || c = '\r'

/-- A text without the ASCII blanks at both ends. -/
def trimAscii (s : Text) : Text := (s.dropWhile isAsciiBlank).rdropWhile isAsciiBlank

/-- What stands in front of the first `:=` of a text, and what stands behind it. -/
def separated? : Text → Option (Text × Text)
  | [] => none
  | ':' :: '=' :: s => some ([], s)
  | c :: s => (separated? s).map fun (before, after) => (c :: before, after)

theorem isSpace_lead (c : Char) : Lexeme.isSpace (lead c) = isAsciiBlank c := by
  have hlead : ∀ d : Char, d.toNat < 0x80 → (decide (lead c = lead d)) = decide (c = d) :=
    fun d hd => decide_eq_decide.2 (lead_eq_lead_iff hd)
  have hspace := hlead ' ' (by decide)
  have htab := hlead '\t' (by decide)
  have hfeed := hlead '\n' (by decide)
  have hform := hlead '\x0c' (by decide)
  have hreturn := hlead '\r' (by decide)
  rw [isAsciiBlank, ← hspace, ← htab, ← hfeed, ← hform, ← hreturn]
  rfl

theorem isSpace_bytes_iff {s : Text} :
    (∀ b ∈ bytes s, Lexeme.isSpace b = true) ↔ ∀ c ∈ s, isAsciiBlank c = true := by
  rw [forall_mem_bytes_iff Lexeme.isAscii_isSpace]
  exact forall₂_congr fun c _ => by rw [isSpace_lead]

theorem eq_of_separated? {s before after : Text} (h : separated? s = some (before, after)) :
    s = before ++ (':' :: '=' :: after) := by
  induction s using separated?.induct generalizing before with
  | case1 => cases h
  | case2 s =>
      cases h
      rfl
  | case3 c s hc ih =>
      rw [separated?] at h
      · obtain ⟨⟨before', after'⟩, hfound, heq⟩ := Option.map_eq_some_iff.1 h
        cases heq
        rw [ih hfound]
        rfl
      · exact hc

theorem separated?_append {before : Text} (h : ∀ c ∈ before, c ≠ ':') (after : Text) :
    separated? (before ++ (':' :: '=' :: after)) = some (before, after) := by
  induction before with
  | nil => rfl
  | cons c before ih =>
      obtain ⟨hc, hbefore⟩ := List.forall_mem_cons.1 h
      rw [List.cons_append, separated?, ih hbefore]
      · rfl
      · rintro s rfl
        exact absurd rfl hc

/-- Trimming leaves off blanks at both ends. -/
theorem exists_of_trimAscii (s : Text) :
    ∃ blanks blanks' : Text, (∀ c ∈ blanks, isAsciiBlank c = true) ∧
      (∀ c ∈ blanks', isAsciiBlank c = true) ∧ s = blanks ++ (trimAscii s ++ blanks') := by
  refine ⟨s.takeWhile isAsciiBlank, (s.dropWhile isAsciiBlank).rtakeWhile isAsciiBlank,
    fun c => List.mem_takeWhile_imp, fun c => List.mem_rtakeWhile_imp, ?_⟩
  rw [trimAscii, List.rdropWhile_append_rtakeWhile, List.takeWhile_append_dropWhile]

/-- Trimming leaves off all blanks around a text without blanks. -/
theorem trimAscii_append {blanks text blanks' : Text} (hblanks : ∀ c ∈ blanks, isAsciiBlank c = true)
    (htext : ∀ c ∈ text, isAsciiBlank c = false) (hne : text ≠ [])
    (hblanks' : ∀ c ∈ blanks', isAsciiBlank c = true) :
    trimAscii (blanks ++ (text ++ blanks')) = text := by
  have hstart : (text ++ blanks').dropWhile isAsciiBlank = text ++ blanks' := by
    obtain ⟨c, text, rfl⟩ := List.exists_cons_of_ne_nil hne
    exact List.dropWhile_cons_of_neg (by simp [htext c List.mem_cons_self])
  have hend : text.rdropWhile isAsciiBlank = text :=
    List.rdropWhile_eq_self_iff.2 fun hne => by simp [htext _ (List.getLast_mem hne)]
  rw [trimAscii, List.dropWhile_append_of_pos hblanks, hstart, List.rdropWhile, List.reverse_append,
    List.dropWhile_append_of_pos fun c hc => hblanks' c (List.mem_reverse.1 hc)]
  exact hend

end Text

namespace Lexeme

/-- A word ends where blanks begin. -/
theorem ends_of_blanks {blanks : Text} (hblanks : ∀ b ∈ bytes blanks, isSpace b = true)
    (kind : Kind) : Ends kind blanks := by
  intro _ b hb
  refine Bool.eq_false_iff.2 fun hword => ?_
  have hspace := hblanks b (List.mem_of_mem_head? hb)
  rw [isSpace_of_isWord hword] at hspace
  cases hspace

end Lexeme

namespace Grammar

/-- What stands in front of a body: the name between blanks, and the separator. -/
inductive Head (name : Text) : Text → Prop
  | intro {blanks blanks' : Text} : (∀ b ∈ bytes blanks, Lexeme.isSpace b = true) →
      (∀ b ∈ bytes blanks', Lexeme.isSpace b = true) →
      Head name (blanks ++ (name ++ (blanks' ++ [':', '='])))

variable {source name head : Text}

theorem head_self (name : Text) : Head name (name ++ [':', '=']) :=
  @Head.intro name [] [] (List.forall_mem_nil _) (List.forall_mem_nil _)

theorem word_of_isRuleName (h : isRuleName name = true) :
    name ≠ [] ∧ ∀ b ∈ bytes name, Lexeme.isWord b = true := by
  unfold isRuleName at h
  cases hbytes : bytes name with
  | nil =>
      rw [hbytes] at h
      cases h
  | cons b more =>
      rw [hbytes] at h
      simp only [Bool.and_eq_true, List.all_eq_true] at h
      refine ⟨?_, List.forall_mem_cons.2 ⟨h.1.1, h.2⟩⟩
      rintro rfl
      cases hbytes

/-- A rule is read as its name, the separator, and the body behind them. -/
theorem Head.lexemes_append (h : Head name head) (hname : Lexeme.Written .ident name)
    (source : Text) :
    ∃ l d, l.kind = .ident ∧ d.kind = .define ∧ lexemeText (head ++ source) l = name ∧
      (Cursor.ofText (head ++ source)).lexemes =
        (((Cursor.ofText source).lexemes.1.map fun ls =>
          l :: d :: ls.map (Lexeme.shift (size head))),
          (Cursor.ofText source).lexemes.2.shift (size head)) := by
  obtain @⟨blanks, blanks', hblanks, hblanks'⟩ := h
  have htext : blanks ++ (name ++ (blanks' ++ [':', '='])) ++ source =
      blanks ++ (name ++ (blanks' ++ ([':', '='] ++ source))) := by simp
  have hsize : size (blanks ++ (name ++ (blanks' ++ [':', '=']))) =
      0 + size blanks + size name + size blanks' + size [':', '='] := by
    simp only [Text.size_append, Nat.zero_add, Nat.add_assoc]
  have hends : Lexeme.Ends .ident (blanks' ++ ([':', '='] ++ source)) := by
    refine (Lexeme.ends_of_blanks hblanks' _).append fun _ b hb => ?_
    cases hb
    rfl
  have hend : Lexeme.Ends .define source := nofun
  have hrest : Cursor.mk (0 + size blanks + size name + size blanks' + size [':', '='])
      (bytes source) = (Cursor.ofText source).shift
        (0 + size blanks + size name + size blanks' + size [':', '=']) := rfl
  refine ⟨⟨.ident, ⟨0 + size blanks, 0 + size blanks + size name⟩⟩,
    ⟨.define, ⟨0 + size blanks + size name + size blanks',
      0 + size blanks + size name + size blanks' + size [':', '=']⟩⟩, rfl, rfl, ?_, ?_⟩
  · have hcut : Text.slice? (blanks ++ (name ++ (blanks' ++ ([':', '='] ++ source))))
        (0 + size blanks) (0 + size blanks + size name) = some name :=
      Text.slice?_eq_some_iff.2 ⟨blanks, _, rfl, (Nat.zero_add _).symm, by rw [Nat.zero_add]⟩
    rw [htext, lexemeText, Span.text?, hcut]
    rfl
  -- The name and the separator are read, and the body is read behind them.
  · rw [Cursor.ofText, htext, Cursor.lexemes_of_written 0 hblanks hname hends]
    dsimp only
    rw [Cursor.lexemes_of_written _ hblanks' .define hend]
    dsimp only
    rw [hrest, Cursor.lexemes_shift, ← hsize]
    rcases (Cursor.ofText source).lexemes with ⟨fault | ls, last⟩
    · rfl
    · rfl

/-- In front of the lexemes of a body a rule has those of its name and of the separator. -/
theorem Head.lex_append (h : Head name head) (hname : Lexeme.Written .ident name)
    (source : Text) :
    ∃ l d, l.kind = .ident ∧ d.kind = .define ∧ lexemeText (head ++ source) l = name ∧
      lex (head ++ source) =
        (lex source).map fun ls => l :: d :: ls.map (Lexeme.shift (size head)) := by
  obtain ⟨l, d, hl, hd, htext, hlexemes⟩ := h.lexemes_append hname source
  refine ⟨l, d, hl, hd, htext, ?_⟩
  rw [lex_eq, lex_eq source, hlexemes]
  dsimp only [Cursor.shift]
  simp only [Lexeme.Fault.cause?_append]
  cases (Cursor.ofText source).lexemes.1 with
  | error fault => rfl
  | ok ls => rfl

/-- A rule is a name, the separator and a body. -/
theorem compileRule_of_lex {l d : Lexeme} {ls : List Lexeme}
    (hlex : lex source = .ok (l :: d :: ls)) (hl : l.kind = .ident) (hd : d.kind = .define)
    (hname : isRuleName (lexemeText source l) = true) :
    compileRule source = (body source ls).map (lexemeText source l, ·) := by
  have hdrop : (l :: d :: ls).dropWhile (·.kind ≠ .define) = d :: ls := by
    rw [List.dropWhile_cons_of_pos (by simp [hl]), List.dropWhile_cons_of_neg (by simp [hd])]
  have htake : (l :: d :: ls).takeWhile (·.kind ≠ .define) = [l] := by
    rw [List.takeWhile_cons_of_pos (by simp [hl]), List.takeWhile_cons_of_neg (by simp [hd])]
  have hruleName : ruleName source [l] = .ok (lexemeText source l) := if_pos ⟨hl, hname⟩
  rw [compileRule, hlex]
  dsimp only [Bind.bind, Except.bind, rule]
  rw [hdrop]
  dsimp only
  rw [htake, hruleName]
  dsimp only
  cases body source ls with
  | error cause => rfl
  | ok spec => rfl

/-- A rule whose name stands between blanks compiles as its body does by itself. -/
theorem Head.compileRule_append (h : Head name head) (hname : isRuleName name = true)
    (source : Text) : compileRule (head ++ source) = (compileBody source).map (name, ·) := by
  obtain ⟨hne, hword⟩ := word_of_isRuleName hname
  obtain ⟨l, d, hl, hd, htext, hlex⟩ := h.lex_append (.ident hne hword) source
  subst htext
  rw [compileBody]
  cases hbody : lex source with
  | error cause =>
      rw [hbody] at hlex
      rw [compileRule, hlex]
      rfl
  | ok ls =>
      rw [hbody] at hlex
      rw [compileRule_of_lex hlex hl hd hname, body_append]
      rfl

theorem exists_of_ruleName {ls : List Lexeme} (h : ruleName source ls = .ok name) :
    isRuleName name = true ∧ ∃ l, ls = [l] ∧ l.kind = .ident ∧ lexemeText source l = name := by
  unfold ruleName at h
  split at h
  · next l =>
      split at h
      · next hl =>
          cases h
          exact ⟨hl.2, l, rfl, hl.1, rfl⟩
      · cases h
  · cases h

/-- The first lexeme of a text with its text, and what comes after it. -/
theorem Lexed.exists_of_cons {pos : Nat} {l : Lexeme × Text} {ls : List (Lexeme × Text)}
    (h : Lexed pos source (l :: ls)) :
    ∃ blanks rest : Text, (∀ b ∈ bytes blanks, Lexeme.isSpace b = true) ∧
      source = blanks ++ (l.2 ++ rest) ∧ ∃ pos', Lexed pos' rest ls := by
  cases h with
  | next hblanks _ _ hrest => exact ⟨_, _, hblanks, rfl, _, hrest⟩

theorem exists_lex_of_compileRule {spec : Spec} (h : compileRule source = .ok (name, spec)) :
    isRuleName name = true ∧ ∃ l d ls, lex source = .ok (l :: d :: ls) ∧ d.kind = .define ∧
      lexemeText source l = name := by
  obtain ⟨ls, hlex, h⟩ := Except.bind_eq_ok_iff.1 h
  unfold rule at h
  split at h
  · cases h
  · next d more hdrop =>
      obtain ⟨name', hruleName, h⟩ := Except.bind_eq_ok_iff.1 h
      obtain ⟨spec', -, h⟩ := Except.bind_eq_ok_iff.1 h
      cases h
      obtain ⟨hname, l, htake, -, htext⟩ := exists_of_ruleName hruleName
      have hls : ls = l :: d :: more := by
        rw [← List.takeWhile_append_dropWhile (p := (·.kind ≠ .define)) (l := ls), htake, hdrop]
        rfl
      have hd : d.kind = .define := by
        have hstop := List.head?_dropWhile_not (·.kind ≠ .define) ls
        rw [hdrop] at hstop
        simpa using hstop
      exact ⟨hname, l, d, more, hls ▸ hlex, hd, htext⟩

/-- A rule that compiles starts with its name between blanks, and the separator. -/
theorem exists_of_compileRule {spec : Spec} (h : compileRule source = .ok (name, spec)) :
    isRuleName name = true ∧ ∃ head rest, Head name head ∧ source = head ++ rest := by
  obtain ⟨hname, l, d, ls, hlex, hd, htext⟩ := exists_lex_of_compileRule h
  obtain ⟨found, hfound, hmap⟩ := lex_eq_ok_iff.1 hlex
  obtain ⟨first, found, rfl, rfl, hmore⟩ := List.map_eq_cons_iff.1 hmap
  obtain ⟨second, found, rfl, rfl, -⟩ := List.map_eq_cons_iff.1 hmore
  have hfirst : first.2 = name := by
    have hcut : first.1.span.text? source = some first.2 :=
      hfound.text? [] rfl first List.mem_cons_self
    rw [← htext, lexemeText, hcut]
    rfl
  have hsecond : second.2 = [':', '='] := by
    have hwritten := hfound.written second (List.mem_cons_of_mem _ List.mem_cons_self)
    rw [hd] at hwritten
    generalize second.2 = text at hwritten
    cases hwritten
    rfl
  obtain ⟨blanks, after, hblanks, rfl, pos, hafter⟩ := hfound.exists_of_cons
  obtain ⟨blanks', rest, hblanks', rfl, -⟩ := hafter.exists_of_cons
  rw [hfirst, hsecond]
  exact ⟨hname, _, rest, .intro hblanks hblanks', by simp⟩

/-- The separator behind the name is the first one, and the name is what lies between the blanks. -/
theorem Head.separated? (h : Head name head) (hname : isRuleName name = true) (rest : Text) :
    ∃ before, Text.separated? (head ++ rest) = some (before, rest) ∧
      Text.trimAscii before = name := by
  obtain @⟨blanks, blanks', hblanks, hblanks'⟩ := h
  rw [Text.isSpace_bytes_iff] at hblanks hblanks'
  obtain ⟨hne, hword⟩ := word_of_isRuleName hname
  rw [Text.forall_mem_bytes_iff Lexeme.isAscii_isWord] at hword
  have hblank : ∀ c, Text.isAsciiBlank c = true → c ≠ ':' := by
    rintro c hc rfl
    exact absurd hc (by decide)
  have hcolon : ∀ c ∈ blanks ++ (name ++ blanks'), c ≠ ':' := by
    rw [List.forall_mem_append, List.forall_mem_append]
    refine ⟨fun c hc => hblank c (hblanks c hc), ?_, fun c hc => hblank c (hblanks' c hc)⟩
    rintro c hc rfl
    exact absurd (hword _ hc) (by decide)
  have hnone : ∀ c ∈ name, Text.isAsciiBlank c = false := by
    intro c hc
    rw [← Text.isSpace_lead, Lexeme.isSpace_of_isWord (hword c hc)]
  refine ⟨blanks ++ (name ++ blanks'), ?_, Text.trimAscii_append hblanks hnone hne hblanks'⟩
  rw [← Text.separated?_append hcolon]
  simp

theorem head_trimAscii (before : Text) : Head (Text.trimAscii before) (before ++ [':', '=']) := by
  obtain ⟨blanks, blanks', hblanks, hblanks', heq⟩ := Text.exists_of_trimAscii before
  have hhead : before ++ [':', '='] =
      blanks ++ (Text.trimAscii before ++ (blanks' ++ [':', '='])) :=
    calc before ++ [':', '=']
      _ = blanks ++ (Text.trimAscii before ++ blanks') ++ [':', '='] :=
        congrArg (· ++ [':', '=']) heq
      _ = _ := by simp
  rw [hhead]
  exact .intro (Text.isSpace_bytes_iff.2 hblanks) (Text.isSpace_bytes_iff.2 hblanks')

/-- A rule compiles if its name is one between the ASCII blanks, and its body compiles by itself. -/
theorem compileRule_eq_ok_iff {spec : Spec} :
    compileRule source = .ok (name, spec) ↔
      isRuleName name = true ∧ ∃ before after, Text.separated? source = some (before, after) ∧
        Text.trimAscii before = name ∧ compileBody after = .ok spec := by
  constructor
  · intro h
    obtain ⟨hname, head, rest, hhead, rfl⟩ := exists_of_compileRule h
    rw [hhead.compileRule_append hname] at h
    obtain ⟨spec', hspec, heq⟩ := Except.map_eq_ok_iff.1 h
    cases heq
    obtain ⟨before, hbefore, htrim⟩ := hhead.separated? hname rest
    exact ⟨hname, before, rest, hbefore, htrim, hspec⟩
  · rintro ⟨hname, before, after, hbefore, rfl, hspec⟩
    have hsource : source = (before ++ [':', '=']) ++ after := by
      simp [Text.eq_of_separated? hbefore]
    rw [hsource, (head_trimAscii before).compileRule_append hname, hspec]
    rfl

end Grammar

end Descent
