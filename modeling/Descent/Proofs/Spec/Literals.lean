import Descent.Proofs.Spec.Parts

/-! The literals of a body. A change of the texts of the literals keeps everything else of a body,
and it keeps the body if and only if it keeps each of the texts. -/

namespace Descent.Spec

mutual

/-- The body with the texts of its literals changed. -/
def mapLiterals (f : Text → Text) : Spec → Spec
  | literal text => literal (f text)
  | reference name => reference name
  | sequence items => sequence (mapLiteralsAll f items)
  | alternation branches => alternation (mapLiteralsAll f branches)
  | custom matcher => custom matcher

def mapLiteralsAll (f : Text → Text) : List Spec → List Spec
  | [] => []
  | s :: ss => mapLiterals f s :: mapLiteralsAll f ss

end

variable {f : Text → Text}

theorem mapLiteralsAll_eq_map (ss : List Spec) : mapLiteralsAll f ss = ss.map (mapLiterals f) := by
  induction ss with
  | nil => rfl
  | cons s ss ih => rw [mapLiteralsAll, ih, List.map_cons]

/-- The texts of the literals in a list of bodies stay as they are. -/
def Keeps (f : Text → Text) (parts : List Spec) : Prop :=
  ∀ text, literal text ∈ parts → f text = text

theorem keeps_append_iff {as bs : List Spec} : Keeps f (as ++ bs) ↔ Keeps f as ∧ Keeps f bs := by
  simp only [Keeps, List.mem_append, or_imp, forall_and]

theorem keeps_cons_of_ne {a : Spec} {as : List Spec} (h : ∀ text, literal text ≠ a) :
    Keeps f (a :: as) ↔ Keeps f as := by
  simp only [Keeps, List.mem_cons, h, false_or]

mutual

theorem mapLiterals_eq_self_iff (s : Spec) : s.mapLiterals f = s ↔ Keeps f s.parts := by
  cases s with
  | literal text => simp [mapLiterals, Keeps, parts]
  | reference name => simp [mapLiterals, Keeps, parts]
  | custom matcher => simp [mapLiterals, Keeps, parts]
  | sequence items =>
      rw [mapLiterals, parts, keeps_cons_of_ne fun _ => Spec.noConfusion, sequence.injEq]
      exact mapLiteralsAll_eq_self_iff items
  | alternation branches =>
      rw [mapLiterals, parts, keeps_cons_of_ne fun _ => Spec.noConfusion, alternation.injEq]
      exact mapLiteralsAll_eq_self_iff branches

theorem mapLiteralsAll_eq_self_iff (ss : List Spec) :
    mapLiteralsAll f ss = ss ↔ Keeps f (partsAll ss) := by
  cases ss with
  | nil => simp [mapLiteralsAll, Keeps, partsAll]
  | cons s ss =>
      rw [mapLiteralsAll, partsAll, keeps_append_iff, List.cons.injEq, mapLiterals_eq_self_iff s,
        mapLiteralsAll_eq_self_iff ss]

end

end Descent.Spec
