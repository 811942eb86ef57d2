import Descent.Spec

/-! The bodies inside a body. What holds of all parts of a body holds of all parts of its items and
branches, so an assumption on the parts of a rule goes down with the evaluation. -/

namespace Descent.Spec

/-- Induction over a body, with the items of a sequence and the branches of a choice as they are. -/
@[elab_as_elim, induction_eliminator]
theorem induction {motive : Spec → Prop} (literal : ∀ text, motive (.literal text))
    (reference : ∀ name, motive (.reference name))
    (sequence : ∀ items, (∀ s ∈ items, motive s) → motive (.sequence items))
    (alternation : ∀ branches, (∀ s ∈ branches, motive s) → motive (.alternation branches))
    (custom : ∀ matcher, motive (.custom matcher)) (s : Spec) : motive s :=
  match s with
  | .literal text => literal text
  | .reference name => reference name
  | .sequence items =>
      sequence items fun s _ => induction literal reference sequence alternation custom s
  | .alternation branches =>
      alternation branches fun s _ => induction literal reference sequence alternation custom s
  | .custom matcher => custom matcher

mutual

/-- A body and the bodies inside it, from the outside in and from left to right. -/
def parts : Spec → List Spec
  | literal text => [literal text]
  | reference name => [reference name]
  | sequence items => sequence items :: partsAll items
  | alternation branches => alternation branches :: partsAll branches
  | custom matcher => [custom matcher]

def partsAll : List Spec → List Spec
  | [] => []
  | s :: ss => parts s ++ partsAll ss

end

/-- A body without others inside it. -/
def IsAtom : Spec → Prop
  | literal _ | reference _ | custom _ => True
  | sequence _ | alternation _ => False

theorem self_mem_parts (s : Spec) : s ∈ s.parts := by
  cases s <;> simp [parts]

theorem mem_partsAll {a : Spec} {ss : List Spec} : a ∈ partsAll ss ↔ ∃ s ∈ ss, a ∈ s.parts := by
  induction ss with
  | nil => simp [partsAll]
  | cons s ss ih => simp [partsAll, ih]

theorem mem_parts_sequence {a : Spec} {items : List Spec} (h : a ∈ partsAll items) :
    a ∈ (sequence items).parts := List.mem_cons_of_mem _ h

theorem mem_parts_alternation {a : Spec} {branches : List Spec} (h : a ∈ partsAll branches) :
    a ∈ (alternation branches).parts := List.mem_cons_of_mem _ h

theorem mem_partsAll_head {a s : Spec} {ss : List Spec} (h : a ∈ s.parts) :
    a ∈ partsAll (s :: ss) := List.mem_append_left _ h

theorem mem_partsAll_tail {a s : Spec} {ss : List Spec} (h : a ∈ partsAll ss) :
    a ∈ partsAll (s :: ss) := List.mem_append_right _ h

theorem partsAll_eq_flatMap (ss : List Spec) : partsAll ss = ss.flatMap parts := by
  induction ss with
  | nil => rfl
  | cons s ss ih => rw [partsAll, ih, List.flatMap_cons]

/-- The name that a body is, if it is one. -/
def reference? : Spec → Option Text
  | reference name => some name
  | literal _ | sequence _ | alternation _ | custom _ => none

theorem reference?_eq_some_iff {s : Spec} {name : Text} :
    s.reference? = some name ↔ s = reference name := by
  cases s <;> simp [reference?]

/-- The names in a body are its parts that are names, in their order. -/
theorem references_eq_filterMap (s : Spec) : s.references = s.parts.filterMap reference? := by
  induction s with
  | literal | reference | custom => rfl
  | sequence items ih =>
      rw [references, referencesAll_eq_flatMap, parts, partsAll_eq_flatMap,
        List.filterMap_cons_none rfl, List.filterMap_flatMap, List.flatMap_def, List.flatMap_def,
        List.map_congr_left ih]
  | alternation branches ih =>
      rw [references, referencesAll_eq_flatMap, parts, partsAll_eq_flatMap,
        List.filterMap_cons_none rfl, List.filterMap_flatMap, List.flatMap_def, List.flatMap_def,
        List.map_congr_left ih]

theorem mem_references_iff {s : Spec} {name : Text} :
    name ∈ s.references ↔ reference name ∈ s.parts := by
  simp only [references_eq_filterMap, List.mem_filterMap, reference?_eq_some_iff, exists_eq_right]

/-- Neither the body nor a body inside it is a matching function. -/
def NoCustom (s : Spec) : Prop := ∀ matcher, .custom matcher ∉ s.parts

theorem NoCustom.ne_custom {s : Spec} (h : s.NoCustom) (matcher : Matcher) :
    s ≠ .custom matcher := by
  rintro rfl
  exact h matcher (self_mem_parts _)

theorem NoCustom.of_sequence {items : List Spec} (h : (sequence items).NoCustom) :
    ∀ s ∈ items, s.NoCustom :=
  fun s hs matcher hm => h matcher (mem_parts_sequence (mem_partsAll.2 ⟨s, hs, hm⟩))

theorem NoCustom.of_alternation {branches : List Spec} (h : (alternation branches).NoCustom) :
    ∀ s ∈ branches, s.NoCustom :=
  fun s hs matcher hm => h matcher (mem_parts_alternation (mem_partsAll.2 ⟨s, hs, hm⟩))

end Descent.Spec
