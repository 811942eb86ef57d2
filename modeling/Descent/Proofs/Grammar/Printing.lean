import Mathlib
import Descent.Proofs.Grammar.Writing
import Descent.Spec.Display

/-! Printed bodies. A compiled body is printed as grammar text that reads as the same branches, but
its literals are quoted, and not every quoted text is a literal with the same text. -/

namespace Descent

open Grammar (NormalAtom NormalBranches unwrap ofBranches spaced word words laterWords
  write)

namespace Spec

/-- The items of a branch as they are printed. -/
def itemTexts (items : List Spec) : List Text := (items.map (word Text.quoted)).map Prod.snd

theorem itemTexts_ne_nil {items : List Spec} (h : items ≠ []) : itemTexts items ≠ [] := by
  simpa [itemTexts] using h

theorem textIn_atom {a : Spec} (h : NormalAtom a) (nested : Bool) :
    a.textIn nested = (word Text.quoted a).2 := by
  cases h <;> rfl

theorem itemsText_eq {items : List Spec} (h : ∀ a ∈ items, NormalAtom a) :
    itemsText items = (itemTexts items).flatMap (' ' :: ·) := by
  induction items with
  | nil => rfl
  | cons a items ih =>
      obtain ⟨ha, hitems⟩ := List.forall_mem_cons.1 h
      rw [itemsText, textIn_atom ha, ih hitems]
      rfl

/-- A branch is printed without parentheses. -/
theorem textIn_branch {items : List Spec} (hne : items ≠ []) (h : ∀ a ∈ items, NormalAtom a)
    {nested : Bool} (hnested : (unwrap .sequence items).isSequence = true → nested = false) :
    (unwrap .sequence items).textIn nested = spaced (itemTexts items) := by
  match items with
  | [] => exact absurd rfl hne
  | [a] =>
      have ha := textIn_atom (h a List.mem_cons_self) nested
      simpa [itemTexts, unwrap, spaced] using ha
  | a :: b :: items =>
      obtain rfl := hnested rfl
      obtain ⟨ha, hitems⟩ := List.forall_mem_cons.1 h
      show parenthesized false (textIn true a ++ itemsText (b :: items)) = _
      rw [textIn_atom ha, itemsText_eq hitems]
      rfl

theorem textIn_not_isSequence {items : List Spec} (hne : items ≠ [])
    (h : ∀ a ∈ items, NormalAtom a) :
    (unwrap .sequence items).textIn (!(unwrap .sequence items).isSequence) =
      spaced (itemTexts items) := by
  refine textIn_branch hne h fun hsequence => ?_
  rw [hsequence]
  rfl

theorem branchesText_eq {branches : List (List Spec)} (h : NormalBranches branches) :
    branchesText (branches.map (unwrap .sequence)) =
      ((laterWords Text.quoted branches).map Prod.snd).flatMap (' ' :: ·) := by
  induction branches with
  | nil => rfl
  | cons b branches ih =>
      obtain ⟨hb, hbranches⟩ := List.forall_mem_cons.1 h
      rw [List.map_cons, branchesText, ih hbranches, textIn_not_isSequence hb.1 hb.2,
        Grammar.laterWords_cons, List.map_cons, List.flatMap_cons, List.map_append,
        List.flatMap_append, ← itemTexts, Grammar.flatMap_eq_cons_spaced (itemTexts_ne_nil hb.1)]
      simp

/-- A body of branches is printed as its branches are written, with its literals quoted. -/
theorem text_ofBranches {branches : List (List Spec)} (hne : branches ≠ [])
    (h : NormalBranches branches) : (ofBranches branches).text = write Text.quoted branches := by
  match branches with
  | [] => exact absurd rfl hne
  | [b] =>
      obtain ⟨hb, hitems⟩ := h b List.mem_cons_self
      show (unwrap .sequence b).textIn false = _
      rw [textIn_branch hb hitems fun _ => rfl]
      simp [itemTexts, write, words, laterWords]
  | b :: b' :: branches =>
      obtain ⟨⟨hb, hitems⟩, hbranches⟩ := List.forall_mem_cons.1 h
      show parenthesized false ((unwrap .sequence b).textIn (!(unwrap .sequence b).isSequence) ++
        branchesText ((b' :: branches).map (unwrap .sequence))) = _
      rw [textIn_not_isSequence hb hitems, branchesText_eq hbranches, write, words, List.map_append,
        ← itemTexts, Grammar.spaced_append (itemTexts_ne_nil hb)]
      rfl

end Spec

namespace Grammar

theorem quotes_quoted : Quotes Text.quoted (·.flatMap Literal.reread) :=
  .of_escape Literal.unescape_escaped Literal.reread_ne_nil

/-- A printed body compiles, to the same body with its literals reread: to the same body if and only
if its literals have no foreign characters. -/
theorem compileBody_text {source : Text} {s : Spec} (h : compileBody source = .ok s) :
    compileBody s.text = .ok (s.mapLiterals (·.flatMap Literal.reread)) ∧
      (compileBody s.text = .ok s ↔
        ∀ text, .literal text ∈ s.parts → ∀ c ∈ text, Literal.isForeign c = false) := by
  obtain ⟨branches, hne, hbranches, rfl⟩ := exists_branches_of_compileBody h
  have htext : compileBody (ofBranches branches).text = _ :=
    Spec.text_ofBranches hne hbranches ▸ compileBody_write quotes_quoted hne hbranches
  refine ⟨htext, ?_⟩
  rw [htext, Except.ok.injEq, Spec.mapLiterals_eq_self_iff]
  exact forall_congr' fun text => imp_congr_right fun _ => Literal.flatMap_reread_eq_self_iff

theorem compileBody_text_choice :
    compileBody "a | 'b' c".toList =
        .ok (.alternation [.reference ['a'], .sequence [.literal ['b'], .reference ['c']]]) ∧
      compileBody (Spec.alternation
          [.reference ['a'], .sequence [.literal ['b'], .reference ['c']]]).text =
        .ok (.alternation [.reference ['a'], .sequence [.literal ['b'], .reference ['c']]]) := by
  have h : compileBody "a | 'b' c".toList =
      .ok (.alternation [.reference ['a'], .sequence [.literal ['b'], .reference ['c']]]) := by cbv
  refine ⟨h, (compileBody_text h).2.2 fun text htext => ?_⟩
  obtain rfl : text = ['b'] := by simpa [Spec.parts, Spec.partsAll] using htext
  exact List.forall_mem_singleton.2 rfl

/-- A carriage return is printed as a backslash and a letter, and both are read back. -/
theorem compileBody_text_carriageReturn :
    compileBody ['"', '\r', '"'] = .ok (.literal ['\r']) ∧
      (Spec.literal ['\r']).text = ['"', '\\', 'r', '"'] ∧
      compileBody (Spec.literal ['\r']).text = .ok (.literal ['\\', 'r']) ∧
      compileBody (Spec.literal ['\r']).text ≠ .ok (.literal ['\r']) := by
  have hprint : (Spec.literal ['\r']).text = ['"', '\\', 'r', '"'] := rfl
  have htext : compileBody (Spec.literal ['\r']).text = .ok (.literal ['\\', 'r']) := by
    rw [hprint]
    cbv
  refine ⟨by cbv, hprint, htext, ?_⟩
  rw [htext]
  simp

end Grammar

end Descent
