import Descent.Proofs.Grammar.Escaping
import Descent.Proofs.Grammar.Shape

/-! Bodies as lists of branches. The bars of a body divide its lexemes into groups, each group is
the list of atoms that its lexemes stand for, and lists of one are unwrapped. -/

namespace Descent

/-- A relation that goes through a function of some third value, on lists. -/
theorem forall₂_exists_iff {α β γ : Type} {R : α → γ → Prop} {f : γ → β} {as : List α}
    {bs : List β} :
    List.Forall₂ (fun a b => ∃ c, R a c ∧ b = f c) as bs ↔
      ∃ cs, List.Forall₂ R as cs ∧ bs = cs.map f := by
  constructor
  · intro h
    induction h with
    | nil => exact ⟨[], .nil, rfl⟩
    | cons hab _ ih =>
        obtain ⟨c, hc, rfl⟩ := hab
        obtain ⟨cs, hcs, rfl⟩ := ih
        exact ⟨c :: cs, .cons hc hcs, rfl⟩
  · rintro ⟨cs, hcs, rfl⟩
    exact List.forall₂_map_right_iff.2 (hcs.imp fun a c hc => ⟨c, hc, rfl⟩)

/-- Relations that agree where `P` holds agree on lists where `P` holds. -/
theorem forall₂_congr_of_forall {α β : Type} {P : α → Prop} {R S : α → β → Prop}
    (hRS : ∀ a b, P a → (R a b ↔ S a b)) {as : List α} {bs : List β} (hP : ∀ a ∈ as, P a) :
    List.Forall₂ R as bs ↔ List.Forall₂ S as bs := by
  have hmono : ∀ {R S : α → β → Prop}, (∀ a b, P a → R a b → S a b) →
      List.Forall₂ R as bs → List.Forall₂ S as bs :=
    fun himp h => ((List.forall₂_and_left as bs).2 ⟨hP, h⟩).imp fun a b hab => himp a b hab.1 hab.2
  exact ⟨hmono fun a b ha => (hRS a b ha).1, hmono fun a b ha => (hRS a b ha).2⟩

namespace Grammar

/-- The groups of lexemes that the bars divide a list of lexemes into. -/
inductive Barred : List Lexeme → List (List Lexeme) → Prop
  | last {ls : List Lexeme} : (∀ l ∈ ls, l.kind ≠ .pipe) → Barred ls [ls]
  | bar {ls rest : List Lexeme} {l : Lexeme} {groups : List (List Lexeme)} :
      (∀ l ∈ ls, l.kind ≠ .pipe) → l.kind = .pipe → Barred rest groups →
      Barred (ls ++ l :: rest) (ls :: groups)

theorem Barred.cons {l : Lexeme} {ls group : List Lexeme} {groups : List (List Lexeme)}
    (hl : l.kind ≠ .pipe) (h : Barred ls (group :: groups)) :
    Barred (l :: ls) ((l :: group) :: groups) := by
  cases h with
  | last h => exact .last (List.forall_mem_cons.2 ⟨hl, h⟩)
  | bar h hbar hrest => exact .bar (List.forall_mem_cons.2 ⟨hl, h⟩) hbar hrest

theorem barred_alternatives (ls : List Lexeme) : Barred ls (alternatives ls) := by
  induction ls with
  | nil => exact .last nofun
  | cons l ls ih =>
      rw [alternatives]
      split
      · next hl =>
          have hnone : ∀ l ∈ ([] : List Lexeme), l.kind ≠ .pipe := nofun
          exact .bar hnone hl ih
      · next hl =>
          split
          · next hnil =>
              rw [hnil] at ih
              cases ih
          · next hcons =>
              rw [hcons] at ih
              exact ih.cons hl

theorem alternatives_append {ls rest : List Lexeme} (h : ∀ l ∈ ls, l.kind ≠ .pipe)
    {group : List Lexeme} {groups : List (List Lexeme)}
    (hrest : alternatives rest = group :: groups) :
    alternatives (ls ++ rest) = (ls ++ group) :: groups := by
  induction ls with
  | nil => exact hrest
  | cons l ls ih =>
      obtain ⟨hl, hls⟩ := List.forall_mem_cons.1 h
      rw [List.cons_append, alternatives, if_neg hl, ih hls]
      rfl

theorem barred_iff {ls : List Lexeme} {groups : List (List Lexeme)} :
    Barred ls groups ↔ alternatives ls = groups := by
  refine ⟨fun h => ?_, fun h => h ▸ barred_alternatives ls⟩
  induction h with
  | @last ls h =>
      have happend : alternatives (ls ++ []) = [ls ++ []] := alternatives_append h rfl
      rwa [List.append_nil] at happend
  | @bar ls rest l groups h hl _ ih =>
      have hbar : alternatives (l :: rest) = [] :: groups := by rw [alternatives, if_pos hl, ih]
      have happend := alternatives_append h hbar
      rwa [List.append_nil] at happend

theorem Barred.forall {ls : List Lexeme} {groups : List (List Lexeme)} (h : Barred ls groups)
    {P : Lexeme → Prop} (hP : ∀ l ∈ ls, P l) : ∀ group ∈ groups, ∀ l ∈ group, P l := by
  induction h with
  | last => exact List.forall_mem_singleton.2 hP
  | bar _ _ _ ih =>
      obtain ⟨hgroup, hrest⟩ := List.forall_mem_append.1 hP
      exact List.forall_mem_cons.2 ⟨hgroup, ih (List.forall_mem_cons.1 hrest).2⟩

/-- The atom that a lexeme of the source stands for. -/
inductive Stands (source : Text) : Lexeme → Spec → Prop
  | reference {l : Lexeme} {name : Text} : l.kind = .ident → l.span.text? source = some name →
      Stands source l (.reference name)
  | literal {l : Lexeme} {written text : Text} : l.kind = .literal →
      l.span.text? source = some written → Literal.text? written = some text → text ≠ [] →
      Stands source l (.literal text)

/-- An atom that can be written: a name is a word, a literal is not empty. -/
inductive NormalAtom : Spec → Prop
  | reference {name : Text} : name ≠ [] → (∀ b ∈ Text.bytes name, Lexeme.isWord b = true) →
      NormalAtom (.reference name)
  | literal {text : Text} : text ≠ [] → NormalAtom (.literal text)

/-- Branches that can be written: not empty, and all items are atoms that can be written. -/
def NormalBranches (branches : List (List Spec)) : Prop :=
  ∀ b ∈ branches, b ≠ [] ∧ ∀ a ∈ b, NormalAtom a

/-- The body of a list of branches: a branch of one item is that item, and so is a body of one
branch. -/
def ofBranches (branches : List (List Spec)) : Spec :=
  unwrap .alternation (branches.map (unwrap .sequence))

/-- The lexeme is cut out of the source as it is written. -/
def Shown (source : Text) (l : Lexeme) : Prop :=
  ∃ text, l.span.text? source = some text ∧ Lexeme.Written l.kind text

theorem shown_of_lex {source : Text} {ls : List Lexeme} (h : lex source = .ok ls) :
    ∀ l ∈ ls, Shown source l := by
  obtain ⟨found, hfound, rfl⟩ := lex_eq_ok_iff.1 h
  intro l' hl'
  obtain ⟨l, hl, rfl⟩ := List.mem_map.1 hl'
  exact ⟨l.2, hfound.text? [] rfl l hl, hfound.written l hl⟩

section

variable {source : Text}

theorem item_eq_ok_iff {l : Lexeme} {s : Spec} (h : Shown source l) :
    item source l = .ok s ↔ Stands source l s := by
  obtain ⟨text, htext, hwritten⟩ := h
  have hlexeme : lexemeText source l = text := by rw [lexemeText, htext]; rfl
  constructor
  · intro h
    unfold item at h
    cases hkind : l.kind with
    | ident =>
        rw [hkind, hlexeme] at h
        cases h
        exact .reference hkind htext
    | literal =>
        rw [hkind] at hwritten
        obtain ⟨inner, hinner⟩ := Literal.exists_text?_of_written hwritten
        rw [hkind, hlexeme, hinner] at h
        cases inner with
        | nil => cases h
        | cons c inner =>
            cases h
            exact .literal hkind htext hinner (List.cons_ne_nil _ _)
    | pipe =>
        rw [hkind] at h
        cases h
    | define =>
        rw [hkind] at h
        cases h
  · rintro (⟨hkind, hname⟩ | ⟨hkind, hquoted, hinner, hne⟩)
    · rw [item, hkind, lexemeText, hname]
      rfl
    · rw [item, hkind, lexemeText, hquoted, Option.getD_some, hinner]
      obtain ⟨c, inner, rfl⟩ := List.exists_cons_of_ne_nil hne
      rfl

theorem Stands.normalAtom {l : Lexeme} {s : Spec} (h : Stands source l s)
    (hl : Shown source l) : NormalAtom s := by
  cases h with
  | literal _ _ _ hne => exact .literal hne
  | @reference name hkind hname =>
      obtain ⟨text, htext, hwritten⟩ := hl
      obtain rfl : name = text := Option.some.inj (hname.symm.trans htext)
      rw [hkind] at hwritten
      cases hwritten with
      | ident hne hword => exact .reference hne hword

/-- The atoms of a group of lexemes; a group is not empty. -/
def Branch (source : Text) (group : List Lexeme) (items : List Spec) : Prop :=
  group ≠ [] ∧ List.Forall₂ (Stands source) group items

theorem alternative_eq_ok_iff {group : List Lexeme} {s : Spec} (h : ∀ l ∈ group, Shown source l) :
    alternative source group = .ok s ↔
      ∃ items, Branch source group items ∧ s = unwrap .sequence items := by
  cases group with
  | nil => exact iff_of_false nofun fun ⟨_, hbranch, _⟩ => hbranch.1 rfl
  | cons l ls =>
      unfold alternative
      rw [Except.bind_eq_ok_iff]
      simp only [Except.mapM_eq_ok_iff]
      refine exists_congr fun items => and_congr ?_ ?_
      · rw [forall₂_congr_of_forall (fun _ _ => item_eq_ok_iff) h]
        exact (and_iff_right (List.cons_ne_nil _ _)).symm
      · exact ⟨fun h => (Except.ok.inj h).symm, fun h => h ▸ rfl⟩

theorem body_eq_ok_iff {ls : List Lexeme} {s : Spec} (h : ∀ l ∈ ls, Shown source l) :
    body source ls = .ok s ↔
      ∃ branches, List.Forall₂ (Branch source) (alternatives ls) branches ∧
        s = ofBranches branches := by
  cases ls with
  | nil =>
      refine iff_of_false nofun ?_
      rintro ⟨branches, hbranches, -⟩
      cases hbranches with
      | cons hbranch => exact hbranch.1 rfl
  | cons l ls =>
      unfold body
      rw [Except.bind_eq_ok_iff]
      simp only [Except.mapM_eq_ok_iff]
      have hgroups := (barred_alternatives (l :: ls)).forall h
      have hspecs : ∀ specs, List.Forall₂ (fun g s => alternative source g = .ok s)
          (alternatives (l :: ls)) specs ↔ ∃ branches, List.Forall₂ (Branch source)
          (alternatives (l :: ls)) branches ∧ specs = branches.map (unwrap .sequence) :=
        fun specs => (forall₂_congr_of_forall (fun _ _ => alternative_eq_ok_iff) hgroups).trans
          forall₂_exists_iff
      simp only [hspecs]
      constructor
      · rintro ⟨specs, ⟨branches, hbranches, rfl⟩, h⟩
        exact ⟨branches, hbranches, (Except.ok.inj h).symm⟩
      · rintro ⟨branches, hbranches, rfl⟩
        exact ⟨_, ⟨branches, hbranches, rfl⟩, rfl⟩

/-- What compiles is groups of words and literals between bars, and every literal has a text. -/
theorem compileBody_eq_ok_iff {s : Spec} :
    compileBody source = .ok s ↔
      ∃ ls groups branches, lex source = .ok ls ∧ Barred ls groups ∧
        List.Forall₂ (Branch source) groups branches ∧ s = ofBranches branches := by
  rw [compileBody, Except.bind_eq_ok_iff]
  refine exists_congr fun ls => ?_
  constructor
  · rintro ⟨hlex, hbody⟩
    obtain ⟨branches, hbranches, hs⟩ := (body_eq_ok_iff (shown_of_lex hlex)).1 hbody
    exact ⟨_, branches, hlex, barred_alternatives ls, hbranches, hs⟩
  · rintro ⟨groups, branches, hlex, hgroups, hbranches, hs⟩
    rw [← barred_iff.1 hgroups] at hbranches
    exact ⟨hlex, (body_eq_ok_iff (shown_of_lex hlex)).2 ⟨branches, hbranches, hs⟩⟩

theorem Branch.normal {group : List Lexeme} {items : List Spec} (h : Branch source group items)
    (hgroup : ∀ l ∈ group, Shown source l) : items ≠ [] ∧ ∀ a ∈ items, NormalAtom a := by
  obtain ⟨hne, hitems⟩ := h
  refine ⟨?_, ?_⟩
  · rintro rfl
    cases hitems
    exact hne rfl
  · clear hne
    induction hitems with
    | nil => exact nofun
    | cons ha _ ih =>
        obtain ⟨hl, hgroup⟩ := List.forall_mem_cons.1 hgroup
        exact List.forall_mem_cons.2 ⟨ha.normalAtom hl, ih hgroup⟩

/-- A compiled body has branches, and they can be written. -/
theorem exists_branches_of_compileBody {s : Spec} (h : compileBody source = .ok s) :
    ∃ branches, branches ≠ [] ∧ NormalBranches branches ∧ s = ofBranches branches := by
  obtain ⟨ls, groups, branches, hlex, hgroups, hbranches, rfl⟩ := compileBody_eq_ok_iff.1 h
  have hshown := hgroups.forall (shown_of_lex hlex)
  refine ⟨branches, ?_, ?_, rfl⟩
  · rintro rfl
    cases hbranches
    cases hgroups
  · clear hgroups h
    induction hbranches with
    | nil => exact nofun
    | cons hbranch _ ih =>
        obtain ⟨hgroup, hshown⟩ := List.forall_mem_cons.1 hshown
        exact List.forall_mem_cons.2 ⟨hbranch.normal hgroup, ih hshown⟩

end

end Grammar

end Descent
