import Descent.Proofs.CharacterRule
import Descent.Proofs.Evaluation.Typing
import Descent.Proofs.Grammar.Names
import Descent.Proofs.Parser.Listing
import Descent.Proofs.Registry.History
import Descent.Proofs.Text.Quoting
import Descent.Token.Display

/-! Trees from their lines. A line says how deep its token is, and what its token is up to the
children; the children are the lines behind it that are deeper. So lines are read back one tree after
another, up to what stands higher, if every type is a word. -/

namespace Descent

open Grammar (IsWord)

/-- A text is cut in one way before the first character outside a class. -/
theorem Text.append_cons_inj {inside : Char → Bool} {s t rest rest' : Text} {c d : Char}
    (hs : ∀ a ∈ s, inside a = true) (ht : ∀ a ∈ t, inside a = true) (hc : inside c = false)
    (hd : inside d = false) (h : s ++ c :: rest = t ++ d :: rest') :
    s = t ∧ c = d ∧ rest = rest' := by
  obtain rfl : s = t := by rw [← takeWhile_append_cons hs hc rest, h, takeWhile_append_cons ht hd]
  obtain ⟨rfl, rfl⟩ := List.cons.inj (List.append_cancel_left h)
  exact ⟨rfl, rfl, rfl⟩

namespace Token

/-- The characters of words. -/
def inWord (c : Char) : Bool := Lexeme.isWord (Text.lead c)

theorem forall_mem_inWord {s : Text} (h : IsWord s) : ∀ c ∈ s, inWord c = true :=
  (Text.forall_mem_bytes_iff Lexeme.isAscii_isWord s).1 h.bytes

/-- A text whose first line, if there is one, is not as deep as the level. -/
def Shallow (level : Nat) (rest : Text) : Prop := ¬indent level <+: rest

theorem indent_succ (level : Nat) : indent (level + 1) = indent level ++ [' ', ' '] :=
  List.replicate_add (2 * level) 2 ' '

theorem Shallow.succ {level : Nat} {rest : Text} (h : Shallow level rest) :
    Shallow (level + 1) rest := by
  intro hdeep
  rw [indent_succ] at hdeep
  exact h ((List.prefix_append _ _).trans hdeep)

theorem shallow_indent {level : Nat} {s : Text} (h : IsWord s) (rest : Text) :
    Shallow (level + 1) (indent level ++ (s ++ rest)) := by
  rw [Shallow, indent_succ, List.prefix_append_right_inj]
  obtain ⟨c, s, rfl⟩ := List.exists_cons_of_ne_nil h.ne_nil
  intro hspace
  obtain ⟨rfl, -⟩ := List.cons_prefix_cons.1 hspace
  exact absurd (forall_mem_inWord h ' ' List.mem_cons_self) (by decide)

variable {level : Nat} {type text rest rest' : Text} {children : List Token} {t u : Token}

theorem linesAt_leaf_append (level : Nat) (type text rest : Text) :
    linesAt level (leaf type text) ++ rest =
      indent level ++ (type ++ ' ' :: (text.quoted ++ '\n' :: rest)) := by
  simp [linesAt]

theorem linesAt_node_append (level : Nat) (type : Text) (children : List Token) (rest : Text) :
    linesAt level (node type children) ++ rest =
      indent level ++ (type ++ '\n' :: (linesAtAll (level + 1) children ++ rest)) := by
  simp [linesAt]

/-- The lines of a token start with its depth and its type. -/
theorem exists_linesAt_append (level : Nat) (t : Token) (rest : Text) :
    ∃ more, linesAt level t ++ rest = indent level ++ (t.type ++ more) := by
  cases t with
  | leaf => exact ⟨_, linesAt_leaf_append ..⟩
  | node => exact ⟨_, linesAt_node_append ..⟩

theorem linesAtAll_cons_append (level : Nat) (t : Token) (ts : List Token) (rest : Text) :
    linesAtAll level (t :: ts) ++ rest = linesAt level t ++ (linesAtAll level ts ++ rest) := by
  rw [linesAtAll, List.append_assoc]

/-- Behind a token there are only its siblings, which are no deeper, and what stands higher. -/
theorem shallow_linesAtAll {ts : List Token} (hts : ∀ t ∈ ts, t.Typed IsWord)
    (hrest : Shallow level rest) : Shallow (level + 1) (linesAtAll level ts ++ rest) := by
  cases ts with
  | nil => exact hrest.succ
  | cons t ts =>
      obtain ⟨more, hmore⟩ := exists_linesAt_append level t (linesAtAll level ts ++ rest)
      rw [linesAtAll_cons_append, hmore]
      exact shallow_indent (hts t List.mem_cons_self).type_self more

/-- The lines say which tree they are of, and where it ends before a line that stands no deeper. -/
def Legible (t : Token) : Prop :=
  ∀ level u rest rest', u.Typed IsWord → Shallow (level + 1) rest → Shallow (level + 1) rest' →
    linesAt level t ++ rest = linesAt level u ++ rest' → t = u ∧ rest = rest'

/-- Siblings are read one after the other. -/
theorem linesAtAll_append_inj {ts us : List Token} (hlegible : ∀ t ∈ ts, t.Legible)
    (hts : ∀ t ∈ ts, t.Typed IsWord) (hus : ∀ u ∈ us, u.Typed IsWord)
    (hrest : Shallow level rest) (hrest' : Shallow level rest')
    (h : linesAtAll level ts ++ rest = linesAtAll level us ++ rest') : ts = us ∧ rest = rest' := by
  induction ts generalizing us with
  | nil =>
      cases us with
      | nil => exact ⟨rfl, h⟩
      | cons u us =>
          obtain ⟨more, hmore⟩ := exists_linesAt_append level u (linesAtAll level us ++ rest')
          rw [linesAtAll_cons_append, hmore] at h
          exact absurd ⟨_, h.symm⟩ hrest
  | cons t ts ih =>
      rw [linesAtAll_cons_append] at h
      cases us with
      | nil =>
          obtain ⟨more, hmore⟩ := exists_linesAt_append level t (linesAtAll level ts ++ rest)
          rw [hmore] at h
          exact absurd ⟨_, h⟩ hrest'
      | cons u us =>
          rw [linesAtAll_cons_append] at h
          obtain ⟨-, hts'⟩ := List.forall_mem_cons.1 hts
          obtain ⟨hu, hus'⟩ := List.forall_mem_cons.1 hus
          obtain ⟨hfirst, hothers⟩ := List.forall_mem_cons.1 hlegible
          obtain ⟨rfl, hbehind⟩ := hfirst level u _ _ hu (shallow_linesAtAll hts' hrest)
            (shallow_linesAtAll hus' hrest') h
          obtain ⟨rfl, hend⟩ := ih hothers hts' hus' hbehind
          exact ⟨rfl, hend⟩

/-- A leaf is told from a node by what stands behind its type, and its text by the quoted form. -/
theorem legible_of_typed (ht : t.Typed IsWord) : t.Legible := by
  have hcut : ∀ {type type' : Text} {c d : Char} {rest rest' : Text}, IsWord type → IsWord type' →
      inWord c = false → inWord d = false → type ++ c :: rest = type' ++ d :: rest' →
      type = type' ∧ c = d ∧ rest = rest' := fun h h' =>
    Text.append_cons_inj (forall_mem_inWord h) (forall_mem_inWord h')
  have hspace : inWord ' ' = false := by decide
  have hfeed : inWord '\n' = false := by decide
  induction t with
  | leaf type text =>
      intro level u rest rest' hu _ _ h
      rw [linesAt_leaf_append] at h
      cases u with
      | leaf type' text' =>
          rw [linesAt_leaf_append] at h
          obtain ⟨rfl, -, hquoted⟩ := hcut ht.type_self hu.type_self hspace hspace
            (List.append_cancel_left h)
          obtain ⟨rfl, hend⟩ := Text.quoted_append_inj hquoted
          exact ⟨rfl, (List.cons.inj hend).2⟩
      | node type' children =>
          rw [linesAt_node_append] at h
          obtain ⟨-, hbehind, -⟩ := hcut ht.type_self hu.type_self hspace hfeed
            (List.append_cancel_left h)
          cases hbehind
  | node type children ih =>
      intro level u rest rest' hu hrest hrest' h
      obtain ⟨hword, hchildren⟩ := typed_node_iff.1 ht
      rw [linesAt_node_append] at h
      cases u with
      | leaf type' text =>
          rw [linesAt_leaf_append] at h
          obtain ⟨-, hbehind, -⟩ := hcut hword hu.type_self hfeed hspace (List.append_cancel_left h)
          cases hbehind
      | node type' children' =>
          rw [linesAt_node_append] at h
          obtain ⟨rfl, -, hlines⟩ := hcut hword hu.type_self hfeed hfeed (List.append_cancel_left h)
          obtain ⟨rfl, hend⟩ := linesAtAll_append_inj (fun c hc => ih c hc (hchildren c hc)) hchildren
            (typed_node_iff.1 hu).2 hrest hrest' hlines
          exact ⟨rfl, hend⟩

theorem display_inj (ht : t.Typed IsWord) (hu : u.Typed IsWord) (h : t.display = u.display) :
    t = u := by
  have hend : Shallow (0 + 1) [] := by
    rw [Shallow]
    decide
  exact (legible_of_typed ht 0 u [] [] hu hend hend (congrArg (· ++ []) h)).1

end Token

/-- The rule is written in the grammar, or it is a character rule. -/
def Rule.IsOrdinary (rule : Rule) : Prop :=
  rule.IsWritten ∨ ∃ options, ∃ f ∈ CharacterRule.all, rule = Registry.matcherRule options f

theorem CharacterRule.isWord_of_mem_all : ∀ f ∈ CharacterRule.all, IsWord f.1 := by
  decide +kernel

theorem Rule.IsOrdinary.makesTyped {rule : Rule} (h : rule.IsOrdinary) :
    rule.MakesTyped IsWord := by
  rcases h with ⟨hname, source, hsource⟩ | ⟨options, f, hf, rfl⟩
  · refine ⟨(Grammar.isRuleName_iff.1 hname).1, fun matcher hmatcher => ?_⟩
    have hcompiled : rule.spec.Compiled := ⟨source, .inl hsource⟩
    exact (hcompiled.allProper _ hmatcher).elim
  · refine ⟨CharacterRule.isWord_of_mem_all f hf, fun matcher hmatcher => ?_⟩
    intro input token rest hmatch
    obtain rfl := Spec.custom.inj (List.mem_singleton.1 hmatcher)
    obtain ⟨text, rfl, -⟩ := CharacterRule.leaf_of_mem_all hf hmatch
    exact Token.typed_leaf_iff.2 (CharacterRule.isWord_of_mem_all f hf)

namespace Token

/-- Trees in which every type is a word are printed alike only if they are equal, whatever the texts
of their leaves are. Every type is a word in every tree that is parsed by rules of grammar text and
character rules. -/
theorem display_determines_tree :
    (∀ t u : Token, t.Typed IsWord → u.Typed IsWord → t.display = u.display → t = u) ∧
    ∀ (p : Parser) input options token, (∀ rule ∈ p.registry.rules, rule.IsOrdinary) →
      (p.parse input options).outcome = .ok token → token.Typed IsWord := by
  refine ⟨fun t u => display_inj, fun p input options token hrules h => ?_⟩
  have hliteral : IsWord literalType := by decide +kernel
  have hsequence : IsWord sequenceType := by decide +kernel
  have htyped := p.parse_typed hliteral hsequence (fun rule hrule => (hrules rule hrule).makesTyped)
    input options
  rw [h] at htyped
  exact htyped

/-- Numbers of digits. -/
def numbers : Parser where
  registry := .ofRules
    [⟨['n'], .alternation [.sequence [.reference "digit".toList, .reference ['n']],
        .reference "digit".toList], false⟩,
      Registry.matcherRule {} ("digit".toList, CharacterRule.digit)] (some 0)

/-- A leaf with a text that reads like the lines of a node is not printed like the node. -/
theorem display_determines_tree_imitated :
    (leaf ['n'] "1\n  digit \"2".toList).display ≠
      (node ['n'] [leaf "digit".toList ['1'], leaf "digit".toList ['2']]).display ∧
    ∃ token, (numbers.parse ['1', '2'] {}).outcome = .ok token ∧ token.Typed IsWord := by
  refine ⟨fun h => ?_, ?_⟩
  · have heq := display_determines_tree.1 _ _ (by decide +kernel) (by decide +kernel) h
    cases heq
  · have hrules : ∀ rule ∈ numbers.registry.rules, rule.IsOrdinary := by
      refine List.forall_mem_cons.2 ⟨.inl ⟨by decide, "digit n | digit".toList, by cbv⟩, ?_⟩
      refine List.forall_mem_singleton.2 (.inr ⟨{}, _, ?_, rfl⟩)
      simp [CharacterRule.all]
    have hparse : (numbers.parse ['1', '2'] {}).outcome = .ok (.node ['n']
        [.leaf "digit".toList ['1'], .node ['n'] [.leaf "digit".toList ['2']]]) := by cbv
    exact ⟨_, hparse, display_determines_tree.2 numbers _ _ _ hrules hparse⟩

end Token

end Descent
