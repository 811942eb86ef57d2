import Mathlib.Data.Finset.Prod
import Mathlib.Order.Monotone.Basic
import Descent.Proofs.Evaluation.Skipping

/-! Fuel. More of it changes no outcome that was reached, and the depth that an evaluation allows
itself is enough: what is unfinished there is unfinished at any depth. The names that come to an end
on the ends of a text grow with the fuel until two depths agree; from then on nothing changes, and
there are no more depths to pass than there are pairs of a rule and an end of the text. -/

namespace Descent.Evaluation

open Outcome (Related)

theorem Keeps.suffix {α : Type} {input : Text} {a : Option α × Text} (h : Keeps input a) :
    a.2 <:+ input := by
  obtain ⟨m, rest⟩ := a
  cases m with
  | some m => exact h
  | none => exact h ▸ List.suffix_refl _

theorem Contract.related {pending : Prop} {errors : Error → Prop} {free : Option Error → Prop}
    {base t : Text} {x : Outcome Attempt} (h : Contract pending errors t x) (ht : t <:+ base) :
    Related free Eq (Agree (Same base)) x x := by
  refine Related.refl (fun _ => rfl) x ?_
  rintro a rfl
  exact ⟨rfl, rfl, (Keeps.suffix h).trans ht⟩

/-- On the ends of `base` all names are answered by the same outcome or end freely. -/
def CallsRelated (free : Option Error → Prop) (base : Text)
    (call call' : Text → Text → Run Attempt) : Prop :=
  ∀ name t, t <:+ base →
    Related free Eq (Agree (Same base)) (call name t).outcome (call' name t).outcome

section

variable {e : Evaluation} {call call' : Text → Text → Run Attempt} {free : Option Error → Prop}
variable {base input : Text}

theorem atoms_related (hcall : CallsRelated free base call call') (parts : List Spec) :
    AtomsRelated e e call call' free Eq (Same base) parts :=
  atoms_of_skips (skipsAlike_self e free base) hcall parts

theorem body_related_of_calls (hcall : CallsRelated free base call call')
    (s : Spec) (h : input <:+ base) :
    Related free Eq (Agree (Same base)) (e.body call s input).outcome
      (e.body call' s input).outcome :=
  body_related s input (atoms_related hcall s.parts) input ⟨rfl, h⟩

theorem apply_related_of_calls (hcall : CallsRelated free base call call')
    (rule : Rule) (h : input <:+ base) :
    Related free Eq (Agree (Same base)) (e.apply call rule input).outcome
      (e.apply call' rule input).outcome :=
  apply_of_skips (skipsAlike_self e free base) hcall rule h

end

section

variable {e : Evaluation}

/-- One unit of fuel more is answered by the same outcome, unless the fuel had run out. -/
theorem calls_related_succ (base : Text) (n : Nat) :
    CallsRelated (· = none) base (e.call n) (e.call (n + 1)) := by
  induction n with
  | zero => exact fun _ _ _ => .freeUnfinished rfl
  | succ n ih =>
      intro name t ht
      unfold call
      cases e.registry.lookup? name with
      | none => exact .error rfl
      | some rule => exact apply_related_of_calls ih rule ht

theorem eq_of_related {base : Text} {x y : Outcome Attempt}
    (h : Related (· = none) Eq (Agree (Same base)) x y) (hx : x ≠ .unfinished) : y = x := by
  rcases h.eq_or_free Agree.eq with h | ⟨h, -⟩ | ⟨_, -, h⟩
  · exact h
  · exact absurd h hx
  · cases h

theorem call_eq_of_le {n n' : Nat} (hn : n ≤ n') {name t : Text}
    (h : (e.call n name t).outcome ≠ .unfinished) :
    (e.call n' name t).outcome = (e.call n name t).outcome := by
  induction n', hn using Nat.le_induction with
  | base => rfl
  | succ k _ ih =>
      have hk := eq_of_related (calls_related_succ t k name t (List.suffix_refl _)) (ih.symm ▸ h)
      rw [hk, ih]

theorem calls_related_of_le {n n' : Nat} (hn : n ≤ n') (base : Text) :
    CallsRelated (· = none) base (e.call n) (e.call n') := by
  intro name t ht
  by_cases h : (e.call n name t).outcome = .unfinished
  · rw [h]
    exact .freeUnfinished rfl
  · rw [call_eq_of_le hn h]
    exact (call_contract (skipsOn_any e base) (fun _ => trivial) n name t ht).related ht

/-- A body that has come to an end has come to the same end with more fuel. -/
theorem body_eq_of_le {n n' : Nat} (hn : n ≤ n') {s : Spec} {t : Text}
    (h : (e.body (e.call n) s t).outcome ≠ .unfinished) :
    (e.body (e.call n') s t).outcome = (e.body (e.call n) s t).outcome :=
  eq_of_related (body_related_of_calls (calls_related_of_le hn t) s (List.suffix_refl t)) h

theorem apply_eq_of_le {n n' : Nat} (hn : n ≤ n') {rule : Rule} {t : Text}
    (h : (e.apply (e.call n) rule t).outcome ≠ .unfinished) :
    (e.apply (e.call n') rule t).outcome = (e.apply (e.call n) rule t).outcome :=
  eq_of_related (apply_related_of_calls (calls_related_of_le hn t) rule (List.suffix_refl t)) h

end

section

variable {e : Evaluation} {base : Text} {n : Nat}

/-- Two depths that agree on all names and all ends of `base`. -/
def Settled (e : Evaluation) (base : Text) (n n' : Nat) : Prop :=
  ∀ name t, t <:+ base → (e.call n name t).outcome = (e.call n' name t).outcome

theorem Settled.calls_related {n' : Nat} (h : e.Settled base n n') :
    CallsRelated (fun _ => False) base (e.call n) (e.call n') := by
  intro name t ht
  rw [← h name t ht]
  exact (call_contract (skipsOn_any e base) (fun _ => trivial) n name t ht).related ht

theorem eq_of_related_strict {x y : Outcome Attempt}
    (h : Related (fun _ => False) Eq (Agree (Same base)) x y) : x = y := h.eq_of_strict Agree.eq

theorem Settled.succ {n' : Nat} (h : e.Settled base n n') :
    e.Settled base (n + 1) (n' + 1) := by
  intro name t ht
  unfold call
  cases e.registry.lookup? name with
  | none => rfl
  | some rule => exact eq_of_related_strict (apply_related_of_calls h.calls_related rule ht)

/-- The rules and ends of `base` on which `n` is fuel enough. -/
def finishedPairs (e : Evaluation) (base : Text) (n : Nat) : Finset (Text × Text) :=
  ((e.registry.rules.map (·.name)).toFinset ×ˢ base.tails.toFinset).filter fun p =>
    (e.call n p.1 p.2).outcome.isFinished

theorem mem_finishedPairs {p : Text × Text} :
    p ∈ e.finishedPairs base n ↔ p.1 ∈ e.registry.rules.map (·.name) ∧ p.2 <:+ base ∧
      (e.call n p.1 p.2).outcome ≠ .unfinished := by
  simp [finishedPairs, Outcome.isFinished_iff, and_assoc]

theorem finishedPairs_mono : e.finishedPairs base n ⊆ e.finishedPairs base (n + 1) := by
  intro p hp
  obtain ⟨hr, ht, hf⟩ := mem_finishedPairs.1 hp
  refine mem_finishedPairs.2 ⟨hr, ht, ?_⟩
  rwa [call_eq_of_le n.le_succ hf]

theorem card_finishedPairs_le :
    (e.finishedPairs base n).card ≤ e.registry.size * (base.length + 1) := by
  calc (e.finishedPairs base n).card
      ≤ ((e.registry.rules.map (·.name)).toFinset ×ˢ base.tails.toFinset).card :=
        Finset.card_filter_le _ _
    _ = (e.registry.rules.map (·.name)).toFinset.card * base.tails.toFinset.card :=
        Finset.card_product _ _
    _ ≤ (e.registry.rules.map (·.name)).length * base.tails.length :=
        Nat.mul_le_mul (List.toFinset_card_le _) (List.toFinset_card_le _)
    _ = e.registry.size * (base.length + 1) := by
        rw [List.length_map, List.length_tails, Registry.size]

/-- Names that are no rules are finished from depth one on, and rules where the pairs are. -/
theorem settled_of_finishedPairs {n n' : Nat} (hn : n ≤ n')
    (h : e.finishedPairs base (n + 1) = e.finishedPairs base (n' + 1)) :
    e.Settled base (n + 1) (n' + 1) := by
  intro name t ht
  by_cases hf : (e.call (n + 1) name t).outcome = .unfinished
  · by_cases hr : name ∈ e.registry.rules.map (·.name)
    · by_contra hne
      have hp : (name, t) ∈ e.finishedPairs base (n' + 1) :=
        mem_finishedPairs.2 ⟨hr, ht, fun hf' => hne (hf.trans hf'.symm)⟩
      rw [← h] at hp
      exact (mem_finishedPairs.1 hp).2.2 hf
    · simp [call, Registry.lookup?_eq_none_iff.2 hr] at hf
  · exact (call_eq_of_le (Nat.succ_le_succ hn) hf).symm

/-- The depth of an evaluation is enough for all ends of its input. -/
theorem settled_depth (e : Evaluation) {base : Text} {n : Nat} (hn : e.depth base ≤ n) :
    e.Settled base (e.depth base) n := by
  obtain ⟨k, rfl⟩ : ∃ k, n = k + 1 := ⟨n - 1, by unfold depth at hn; omega⟩
  have hk : e.registry.size * (base.length + 1) ≤ k := Nat.le_of_succ_le_succ hn
  have hmono : Monotone fun m => (e.finishedPairs base (m + 1)).card :=
    monotone_nat_of_le_succ fun m => Finset.card_le_card finishedPairs_mono
  -- Once a depth finishes no new pair, the two depths agree, and so do all that follow.
  have hstep : ∀ m, (e.finishedPairs base (m + 1)).card = (e.finishedPairs base (m + 2)).card →
      (e.finishedPairs base (m + 2)).card = (e.finishedPairs base (m + 3)).card := by
    intro m hm
    have hpairs := Finset.eq_of_subset_of_card_le finishedPairs_mono hm.ge
    have hset := (settled_of_finishedPairs m.le_succ hpairs).succ
    congr 1
    ext p
    simp only [mem_finishedPairs]
    refine and_congr_right fun _ => and_congr_right fun ht => ?_
    rw [hset p.1 p.2 ht]
  have hcard := Nat.stabilises_of_monotone hmono (fun _ => card_finishedPairs_le) hstep hk
  have hsub : ∀ {i j}, i ≤ j → e.finishedPairs base i ⊆ e.finishedPairs base j := fun h =>
    monotone_nat_of_le_succ (f := e.finishedPairs base) (fun _ => finishedPairs_mono) h
  exact settled_of_finishedPairs hk
    (Finset.eq_of_subset_of_card_le (hsub (Nat.succ_le_succ hk)) hcard.le)

/-- The depth of an evaluation gives a body the end that it has at any other depth. -/
theorem body_at_depth {s : Spec} {input t : Text} (ht : t <:+ input)
    (h : (e.body (e.call n) s t).outcome ≠ .unfinished) :
    (e.body (e.call (e.depth input)) s t).outcome = (e.body (e.call n) s t).outcome := by
  have hset := e.settled_depth (le_max_right n (e.depth input))
  rw [eq_of_related_strict (body_related_of_calls hset.calls_related s ht)]
  exact body_eq_of_le (le_max_left _ _) h

/-- Fuel beyond the depth of an evaluation changes nothing, not even that a rule has no end. -/
theorem apply_depth_eq {rule : Rule} {input t : Text} (ht : t <:+ input)
    (hn : e.depth input ≤ n) :
    (e.apply (e.call (e.depth input)) rule t).outcome = (e.apply (e.call n) rule t).outcome :=
  eq_of_related_strict (apply_related_of_calls (e.settled_depth hn).calls_related rule ht)

theorem apply_at_depth {rule : Rule} {input t : Text} (ht : t <:+ input)
    (h : (e.apply (e.call n) rule t).outcome ≠ .unfinished) :
    (e.apply (e.call (e.depth input)) rule t).outcome = (e.apply (e.call n) rule t).outcome := by
  rw [apply_depth_eq ht (le_max_right n (e.depth input))]
  exact apply_eq_of_le (le_max_left _ _) h

end

end Descent.Evaluation
