import Mathlib.Data.List.Forall2
import Descent.Proofs.Evaluation.Step
import Descent.Proofs.Spec.Parts

/-! Two evaluations side by side. Bodies that are built alike from parts that do alike do alike
themselves: on texts that belong together they come to matches that belong together. Of two
evaluations of one body only the literals, names and matching functions need be compared. -/

namespace Descent.Evaluation

open Outcome (Related)

/-- The same match, and rests that belong together. -/
def Agree (texts : Text → Text → Prop) (a b : Attempt) : Prop := a.1 = b.1 ∧ texts a.2 b.2

/-- Matches that belong together, or no match twice, and rests that belong together. -/
def Alike (like : Match → Match → Prop) (texts : Text → Text → Prop) (a b : Attempt) : Prop :=
  Option.Rel like a.1 b.1 ∧ texts a.2 b.2

theorem alike_eq_iff {texts : Text → Text → Prop} {a b : Attempt} :
    Alike Eq texts a b ↔ Agree texts a b := by
  obtain ⟨m, rest⟩ := a
  obtain ⟨m', rest'⟩ := b
  refine and_congr_left' ⟨fun h => ?_, ?_⟩
  · cases h with
    | none => rfl
    | some h => exact congrArg some h
  · rintro ⟨⟩
    cases m with
    | none => exact .none
    | some m => exact .some rfl

/-- What is made of tokens and matches that belong together belongs together. -/
structure Congruence (tokens : Token → Token → Prop) (like : Match → Match → Prop) : Prop where
  token : ∀ {m m'}, like m m' → tokens m.token m'.token
  sequence : ∀ {ts ts'}, List.Forall₂ tokens ts ts' →
    like ⟨.node Token.sequenceType ts, false⟩ ⟨.node Token.sequenceType ts', false⟩
  typed : ∀ {m m'} name, like m m' →
    like ⟨m.typedAfter name, true⟩ ⟨m'.typedAfter name, true⟩

theorem congruence_eq : Congruence Eq Eq where
  token h := congrArg Match.token h
  sequence h := by rw [List.forall₂_eq_eq_eq] at h; rw [h]
  typed name h := by rw [h]

section

variable (e e' : Evaluation) (call call' : Text → Text → Run Attempt)
variable (free : Option Error → Prop) (errors : Error → Error → Prop)

/-- On texts that belong together the one body does what the other does. -/
def BodiesAlike (like : Match → Match → Prop) (texts : Text → Text → Prop) (s s' : Spec) : Prop :=
  ∀ t t', texts t t' →
    Related free errors (Alike like texts) (e.body call s t).outcome (e'.body call' s' t').outcome

/-- Of the given parts the literals, names and matching functions do alike on texts that belong
together. -/
def AtomsRelated (texts : Text → Text → Prop) (parts : List Spec) : Prop :=
  ∀ a ∈ parts, a.IsAtom → ∀ t t', texts t t' →
    Related free errors (Agree texts) (e.body call a t).outcome (e'.body call' a t').outcome

end

section

variable {e e' : Evaluation} {call call' : Text → Text → Run Attempt}
variable {free : Option Error → Prop} {errors : Error → Error → Prop} {texts : Text → Text → Prop}
variable {tokens : Token → Token → Prop} {like : Match → Match → Prop}

theorem sequence_alike (hc : Congruence tokens like) {items items' : List Spec}
    (h : List.Forall₂ (BodiesAlike e e' call call' free errors like texts) items items')
    {t t' : Text} (ht : texts t t') :
    Related free errors
      (Option.Rel fun r r' => List.Forall₂ tokens r.1 r'.1 ∧ texts r.2 r'.2)
      (e.sequence call items t).outcome (e'.sequence call' items' t').outcome := by
  induction h generalizing t t' with
  | nil => exact .ok (.some ⟨.nil, ht⟩)
  | cons hitem _ ih =>
      rw [outcome_sequence_cons, outcome_sequence_cons]
      refine (hitem t t' ht).bind ?_
      rintro ⟨m, rest⟩ ⟨m', rest'⟩ ⟨hm, hrest⟩
      cases hm with
      | none => exact .ok .none
      | some hm =>
          refine (ih hrest).bind fun r r' hr => ?_
          cases hr with
          | none => exact .ok .none
          | some hr => exact .ok (.some ⟨.cons (hc.token hm) hr.1, hr.2⟩)

theorem alternation_alike {branches branches' : List Spec}
    (h : List.Forall₂ (BodiesAlike e e' call call' free errors like texts) branches branches')
    {t t' : Text} (ht : texts t t') :
    Related free errors (Alike like texts) (e.alternation call branches t).outcome
      (e'.alternation call' branches' t').outcome := by
  induction h with
  | nil => exact .ok ⟨.none, ht⟩
  | cons hbranch _ ih =>
      rw [outcome_alternation_cons, outcome_alternation_cons]
      refine (hbranch t t' ht).bind ?_
      rintro ⟨m, rest⟩ ⟨m', rest'⟩ ⟨hm, hrest⟩
      cases hm with
      | none => exact ih
      | some hm => exact .ok ⟨.some hm, hrest⟩

theorem bodiesAlike_sequence (hc : Congruence tokens like) {items items' : List Spec}
    (h : List.Forall₂ (BodiesAlike e e' call call' free errors like texts) items items') :
    BodiesAlike e e' call call' free errors like texts (.sequence items) (.sequence items') := by
  intro t t' ht
  rw [outcome_body_sequence, outcome_body_sequence]
  refine (sequence_alike hc h ht).bind fun r r' hr => ?_
  cases hr with
  | none => exact .ok ⟨.none, ht⟩
  | some hr => exact .ok ⟨.some (hc.sequence hr.1), hr.2⟩

theorem bodiesAlike_alternation {branches branches' : List Spec}
    (h : List.Forall₂ (BodiesAlike e e' call call' free errors like texts) branches branches') :
    BodiesAlike e e' call call' free errors like texts (.alternation branches)
      (.alternation branches') :=
  fun _ _ ht => alternation_alike h ht

/-- A body does alike in two evaluations if its atoms do. -/
theorem bodiesAlike_of_atoms (hc : Congruence tokens like) (s : Spec)
    (h : ∀ a ∈ s.parts, a.IsAtom → BodiesAlike e e' call call' free errors like texts a a) :
    BodiesAlike e e' call call' free errors like texts s s := by
  induction s with
  | literal text => exact h _ (Spec.self_mem_parts _) trivial
  | reference name => exact h _ (Spec.self_mem_parts _) trivial
  | custom matcher => exact h _ (Spec.self_mem_parts _) trivial
  | sequence items ih =>
      refine bodiesAlike_sequence hc (List.forall₂_same.2 fun item hitem => ?_)
      exact ih item hitem fun a ha =>
        h a (Spec.mem_parts_sequence (Spec.mem_partsAll.2 ⟨item, hitem, ha⟩))
  | alternation branches ih =>
      refine bodiesAlike_alternation (List.forall₂_same.2 fun branch hbranch => ?_)
      exact ih branch hbranch fun a ha =>
        h a (Spec.mem_parts_alternation (Spec.mem_partsAll.2 ⟨branch, hbranch, ha⟩))

/-- Rules of one name do alike if they start alike and their bodies do alike. -/
theorem apply_alike (hc : Congruence tokens like) {rule rule' : Rule}
    (hname : rule'.name = rule.name) {input input' : Text} (ht : texts input input')
    (hstart : Related free errors texts (e.start rule input).outcome
      (e'.start rule' input').outcome)
    (hbody : BodiesAlike e e' call call' free errors like texts rule.spec rule'.spec) :
    Related free errors (Alike like texts) (e.apply call rule input).outcome
      (e'.apply call' rule' input').outcome := by
  rw [outcome_apply, outcome_apply, hname]
  refine hstart.bind fun start start' hs => ?_
  refine (hbody start start' hs).bind ?_
  rintro ⟨m, rest⟩ ⟨m', rest'⟩ ⟨hm, hrest⟩
  cases hm with
  | none => exact .ok ⟨.none, ht⟩
  | some hm => exact .ok ⟨.some (hc.typed rule.name hm), hrest⟩

theorem bodiesAlike_of_related {parts : List Spec}
    (h : AtomsRelated e e' call call' free errors texts parts) :
    ∀ a ∈ parts, a.IsAtom → BodiesAlike e e' call call' free errors Eq texts a a :=
  fun a ha hatom t t' ht => (h a ha hatom t t' ht).mono alike_eq_iff.2

theorem body_related (s : Spec) (input : Text)
    (h : AtomsRelated e e' call call' free errors texts s.parts) (input' : Text)
    (ht : texts input input') :
    Related free errors (Agree texts) (e.body call s input).outcome
      (e'.body call' s input').outcome :=
  (bodiesAlike_of_atoms congruence_eq s (bodiesAlike_of_related h) input input' ht).mono
    alike_eq_iff.1

theorem apply_related {rule : Rule} {input input' : Text} (ht : texts input input')
    (hstart : Related free errors texts (e.start rule input).outcome
      (e'.start rule input').outcome)
    (hatoms : AtomsRelated e e' call call' free errors texts rule.spec.parts) :
    Related free errors (Agree texts) (e.apply call rule input).outcome
      (e'.apply call' rule input').outcome :=
  (apply_alike congruence_eq rfl ht hstart
    (bodiesAlike_of_atoms congruence_eq rule.spec (bodiesAlike_of_related hatoms))).mono
    alike_eq_iff.1

end

end Descent.Evaluation
