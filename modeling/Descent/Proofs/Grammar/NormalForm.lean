import Mathlib
import Descent.Proofs.Grammar.Writing

/-! Normal forms. The compiler makes a body in normal form of every text that it accepts, and every
normal form of some text: atoms can be written whatever characters they hold, with each quote and
backslash escaped. -/

namespace Descent

open Grammar (NormalAtom NormalBranches unwrap ofBranches)

namespace Spec

/-- An atom, or a sequence of two atoms or more. -/
inductive NormalBranch : Spec → Prop
  | atom {s : Spec} : NormalAtom s → NormalBranch s
  | sequence {items : List Spec} : 2 ≤ items.length → (∀ s ∈ items, NormalAtom s) →
      NormalBranch (.sequence items)

/-- A branch, or a choice between two branches or more. -/
inductive Normal : Spec → Prop
  | branch {s : Spec} : NormalBranch s → Normal s
  | alternation {branches : List Spec} : 2 ≤ branches.length → (∀ s ∈ branches, NormalBranch s) →
      Normal (.alternation branches)

theorem unwrap_of_le {wrap : List Spec → Spec} {ss : List Spec} (h : 2 ≤ ss.length) :
    unwrap wrap ss = wrap ss := by
  match ss with
  | [] => rfl
  | [_] => exact absurd h (Nat.not_succ_le_self 1)
  | _ :: _ :: _ => rfl

/-- What is not empty is one body or at least two. -/
theorem eq_singleton_or_two_le {ss : List Spec} (h : ss ≠ []) :
    (∃ s, ss = [s]) ∨ 2 ≤ ss.length := by
  match ss with
  | [] => exact absurd rfl h
  | [s] => exact .inl ⟨s, rfl⟩
  | _ :: _ :: _ => exact .inr (Nat.le_add_left _ _)

theorem normalBranch_iff {s : Spec} :
    s.NormalBranch ↔
      ∃ items, (items ≠ [] ∧ ∀ a ∈ items, NormalAtom a) ∧ s = unwrap .sequence items := by
  constructor
  · rintro (ha | ⟨hlength, hitems⟩)
    · exact ⟨[s], ⟨List.cons_ne_nil _ _, List.forall_mem_singleton.2 ha⟩, rfl⟩
    · refine ⟨_, ⟨?_, hitems⟩, (unwrap_of_le hlength).symm⟩
      rintro rfl
      cases hlength
  · rintro ⟨items, ⟨hne, hitems⟩, rfl⟩
    rcases eq_singleton_or_two_le hne with ⟨s, rfl⟩ | hlength
    · exact .atom (hitems s List.mem_cons_self)
    · rw [unwrap_of_le hlength]
      exact .sequence hlength hitems

theorem exists_of_normalBranches {ss : List Spec} (h : ∀ s ∈ ss, s.NormalBranch) :
    ∃ branches, NormalBranches branches ∧ ss = branches.map (unwrap .sequence) := by
  induction ss with
  | nil => exact ⟨[], nofun, rfl⟩
  | cons s ss ih =>
      obtain ⟨hs, hss⟩ := List.forall_mem_cons.1 h
      obtain ⟨items, hitems, rfl⟩ := normalBranch_iff.1 hs
      obtain ⟨branches, hbranches, rfl⟩ := ih hss
      exact ⟨items :: branches, List.forall_mem_cons.2 ⟨hitems, hbranches⟩, rfl⟩

/-- The normal forms are the bodies of branches that can be written. -/
theorem normal_iff {s : Spec} :
    s.Normal ↔ ∃ branches, branches ≠ [] ∧ NormalBranches branches ∧ s = ofBranches branches := by
  constructor
  · rintro (hs | @⟨ss, hlength, hss⟩)
    · obtain ⟨items, hitems, rfl⟩ := normalBranch_iff.1 hs
      exact ⟨[items], List.cons_ne_nil _ _, List.forall_mem_singleton.2 hitems, rfl⟩
    · obtain ⟨branches, hbranches, rfl⟩ := exists_of_normalBranches hss
      refine ⟨branches, ?_, hbranches, (unwrap_of_le hlength).symm⟩
      rintro rfl
      cases hlength
  · rintro ⟨branches, hne, hbranches, rfl⟩
    have hss : ∀ s ∈ branches.map (unwrap .sequence), s.NormalBranch :=
      List.forall_mem_map.2 fun items hitems => normalBranch_iff.2 ⟨items, hbranches items hitems, rfl⟩
    rcases eq_singleton_or_two_le (mt List.map_eq_nil_iff.1 hne) with ⟨s, hs⟩ | hlength
    · rw [ofBranches, hs]
      exact .branch (hss s (hs ▸ List.mem_cons_self))
    · rw [ofBranches, unwrap_of_le hlength]
      exact .alternation hlength hss

theorem parts_of_normalAtom {s : Spec} (h : NormalAtom s) : s.parts = [s] := by
  cases h <;> rfl

theorem NormalBranch.of_mem_parts {s : Spec} (h : s.NormalBranch) :
    ∀ a ∈ s.parts, a.NormalBranch := by
  cases h with
  | atom ha =>
      rw [parts_of_normalAtom ha]
      exact List.forall_mem_singleton.2 (.atom ha)
  | sequence hlength hitems =>
      refine List.forall_mem_cons.2 ⟨.sequence hlength hitems, fun a ha => ?_⟩
      obtain ⟨s, hs, ha⟩ := mem_partsAll.1 ha
      rw [parts_of_normalAtom (hitems s hs), List.mem_singleton] at ha
      exact ha ▸ .atom (hitems s hs)

/-- Normal forms consist of normal forms. -/
theorem Normal.of_mem_parts {s : Spec} (h : s.Normal) : ∀ a ∈ s.parts, a.Normal := by
  cases h with
  | branch hs => exact fun a ha => .branch (hs.of_mem_parts a ha)
  | alternation hlength hbranches =>
      refine List.forall_mem_cons.2 ⟨.alternation hlength hbranches, fun a ha => ?_⟩
      obtain ⟨s, hs, ha⟩ := mem_partsAll.1 ha
      exact .branch ((hbranches s hs).of_mem_parts a ha)

/-- No part of the body could be left out: no literal is empty, lists have two members or more, and
neither holds a sequence sequences nor a choice choices. -/
structure Reduced (s : Spec) : Prop where
  literal : ∀ text, .literal text ∈ s.parts → text ≠ []
  sequence : ∀ items, .sequence items ∈ s.parts → 2 ≤ items.length ∧ ∀ a ∈ items, a.IsAtom
  alternation : ∀ branches, .alternation branches ∈ s.parts →
    2 ≤ branches.length ∧ ∀ b ∈ branches, b.isAlternation = false
  noCustom : s.NoCustom

theorem isAtom_of_normalAtom {s : Spec} (h : NormalAtom s) : s.IsAtom := by
  cases h <;> trivial

theorem NormalBranch.isAlternation {s : Spec} (h : s.NormalBranch) : s.isAlternation = false := by
  rcases h with ⟨_ | _⟩ | _ <;> rfl

theorem Normal.reduced {s : Spec} (h : s.Normal) : s.Reduced where
  literal text htext := by
    cases h.of_mem_parts _ htext with
    | branch hs =>
      cases hs with
      | atom ha =>
        cases ha with
        | literal hne => exact hne
  sequence items hitems := by
    cases h.of_mem_parts _ hitems with
    | branch hs =>
      cases hs with
      | atom ha => cases ha
      | sequence hlength hall => exact ⟨hlength, fun a ha => isAtom_of_normalAtom (hall a ha)⟩
  alternation branches hbranches := by
    cases h.of_mem_parts _ hbranches with
    | branch hs =>
      cases hs with
      | atom ha => cases ha
    | alternation hlength hall => exact ⟨hlength, fun b hb => (hall b hb).isAlternation⟩
  noCustom matcher hmatcher := by
    cases h.of_mem_parts _ hmatcher with
    | branch hs =>
      cases hs with
      | atom ha => cases ha

end Spec

namespace Grammar

theorem normal_of_compileBody {source : Text} {s : Spec} (h : compileBody source = .ok s) :
    s.Normal := Spec.normal_iff.2 (exists_branches_of_compileBody h)

/-- Quoting with a backslash before each quote and each backslash loses nothing. -/
theorem quotes_escape :
    Quotes (fun s => '"' :: (s.flatMap Literal.escape ++ ['"'])) (·.flatMap fun c => [c]) :=
  .of_escape Literal.unescape_escape fun _ => List.cons_ne_nil _ _

theorem exists_compileBody_of_normal {s : Spec} (h : s.Normal) :
    ∃ source, compileBody source = .ok s := by
  obtain ⟨branches, hne, hbranches, rfl⟩ := Spec.normal_iff.1 h
  have hsame : (ofBranches branches).mapLiterals (·.flatMap fun c => [c]) = ofBranches branches :=
    (Spec.mapLiterals_eq_self_iff _).2 fun text _ => List.flatMap_singleton' text
  exact ⟨_, (compileBody_write quotes_escape hne hbranches).trans (congrArg Except.ok hsame)⟩

end Grammar

end Descent
