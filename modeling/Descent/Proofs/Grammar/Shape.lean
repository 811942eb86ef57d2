import Mathlib.Data.List.Forall2
import Descent.Grammar.Block
import Descent.Proofs.Spec.Parts

/-! The shape of compiled bodies. Grammar text has no matching functions, its literals are not
empty, and neither are the sequences that the compiler makes. -/

namespace Descent

theorem Except.bind_eq_ok_iff {ε α β : Type} {x : Except ε α} {f : α → Except ε β} {b : β} :
    x >>= f = .ok b ↔ ∃ a, x = .ok a ∧ f a = .ok b := by
  cases x <;> simp [bind, Except.bind]

theorem Except.map_eq_ok_iff {ε α β : Type} {x : Except ε α} {f : α → β} {b : β} :
    x.map f = .ok b ↔ ∃ a, x = .ok a ∧ f a = b := by
  cases x <;> simp [Except.map]

theorem Except.map_eq_error_iff {ε α β : Type} {x : Except ε α} {f : α → β} {e : ε} :
    x.map f = .error e ↔ x = .error e := by
  cases x <;> simp [Except.map]

theorem Except.mapM_eq_ok_iff {ε α β : Type} {f : α → Except ε β} {as : List α} {bs : List β} :
    as.mapM f = .ok bs ↔ List.Forall₂ (fun a b => f a = .ok b) as bs := by
  induction as generalizing bs with
  | nil =>
      rw [List.mapM_nil, List.forall₂_nil_left_iff]
      constructor
      · intro h
        cases h
        rfl
      · rintro rfl
        rfl
  | cons a as ih =>
      rw [List.mapM_cons, bind_eq_ok_iff, List.forall₂_cons_left_iff]
      simp only [bind_eq_ok_iff, ih]
      constructor
      · rintro ⟨b, hb, bs', hbs, h⟩
        cases h
        exact ⟨b, bs', hb, hbs, rfl⟩
      · rintro ⟨b, bs', hb, hbs, rfl⟩
        exact ⟨b, hb, bs', hbs, rfl⟩

/-- What the compiler makes of a rule or of a body. -/
def Spec.Compiled (s : Spec) : Prop :=
  ∃ source, Grammar.compileBody source = .ok s ∨ ∃ name, Grammar.compileRule source = .ok (name, s)

/-- A part that the compiler can make. -/
def Spec.Proper : Spec → Prop
  | literal text => text ≠ []
  | sequence items => items ≠ []
  | custom _ => False
  | reference _ | alternation _ => True

namespace Grammar

/-- All parts of a body are proper. -/
def AllProper (s : Spec) : Prop := ∀ a ∈ s.parts, a.Proper

theorem allProper_of_item {source : Text} {l : Lexeme} {s : Spec} (h : item source l = .ok s) :
    AllProper s := by
  unfold item at h
  cases hk : l.kind with
  | ident =>
      rw [hk] at h
      cases h
      intro a ha
      obtain rfl := List.mem_singleton.1 ha
      trivial
  | literal =>
      rw [hk] at h
      dsimp only at h
      split at h
      · cases h
      · cases h
        intro a ha
        obtain rfl := List.mem_singleton.1 ha
        exact List.cons_ne_nil _ _
  | define =>
      rw [hk] at h
      cases h
  | pipe =>
      rw [hk] at h
      cases h

theorem allProper_of_partsAll {s : Spec} {ss : List Spec} (hs : s.Proper)
    (hparts : s.parts = s :: Spec.partsAll ss) (h : ∀ t ∈ ss, AllProper t) : AllProper s := by
  intro a ha
  rw [hparts, List.mem_cons, Spec.mem_partsAll] at ha
  obtain rfl | ⟨t, ht, ha⟩ := ha
  · exact hs
  · exact h t ht a ha

theorem allProper_unwrap {wrap : List Spec → Spec} {ss : List Spec}
    (hwrap : AllProper (wrap ss)) (h : ∀ s ∈ ss, AllProper s) : AllProper (unwrap wrap ss) := by
  unfold unwrap
  split
  · exact h _ List.mem_cons_self
  · exact hwrap

/-- What is made of each lexeme or alternative is proper if each of them makes proper bodies. -/
theorem allProper_of_mapM {α : Type} {f : α → Except GrammarError Spec}
    (hf : ∀ a s, f a = .ok s → AllProper s) {as : List α} {ss : List Spec}
    (h : as.mapM f = .ok ss) : ∀ s ∈ ss, AllProper s := by
  have hall := Except.mapM_eq_ok_iff.1 h
  clear h
  induction hall with
  | nil => exact fun _ hs => nomatch hs
  | cons ha _ ih =>
      intro s hs
      rcases List.mem_cons.1 hs with rfl | hs
      · exact hf _ _ ha
      · exact ih s hs

theorem allProper_of_alternative {source : Text} {ls : List Lexeme} {s : Spec}
    (h : alternative source ls = .ok s) : AllProper s := by
  cases ls with
  | nil => cases h
  | cons l ls =>
      obtain ⟨items, hitems, h⟩ := Except.bind_eq_ok_iff.1 h
      cases h
      have hall := allProper_of_mapM (fun _ _ => allProper_of_item) hitems
      refine allProper_unwrap (allProper_of_partsAll ?_ rfl hall) hall
      rintro rfl
      cases Except.mapM_eq_ok_iff.1 hitems

theorem allProper_of_body {source : Text} {ls : List Lexeme} {s : Spec}
    (h : body source ls = .ok s) : AllProper s := by
  cases ls with
  | nil => cases h
  | cons l ls =>
      obtain ⟨branches, hbranches, h⟩ := Except.bind_eq_ok_iff.1 h
      cases h
      have hall := allProper_of_mapM (fun _ _ => allProper_of_alternative) hbranches
      exact allProper_unwrap (allProper_of_partsAll trivial rfl hall) hall

end Grammar

theorem Spec.Compiled.allProper {s : Spec} (h : s.Compiled) : Grammar.AllProper s := by
  obtain ⟨source, h | ⟨name, h⟩⟩ := h
  · obtain ⟨ls, -, h⟩ := Except.bind_eq_ok_iff.1 h
    exact Grammar.allProper_of_body h
  · obtain ⟨ls, -, h⟩ := Except.bind_eq_ok_iff.1 h
    unfold Grammar.rule at h
    split at h
    · cases h
    · obtain ⟨name', -, h⟩ := Except.bind_eq_ok_iff.1 h
      obtain ⟨spec, hs, h⟩ := Except.bind_eq_ok_iff.1 h
      cases h
      exact Grammar.allProper_of_body hs

end Descent
