/-! Sets of characters given by ranges of code points. The ranges of a table increase, so a search
may end at the first one that starts above the code point it looks for. -/

namespace Descent

/-- Whether each range starts above the end of the range before it, and above `bound`. -/
def Ranges.increaseFrom (bound : Nat) : List (Nat × Nat) → Bool
  | [] => true
  | (first, last) :: rest => bound ≤ first && first ≤ last && increaseFrom (last + 1) rest

structure Ranges where
  /-- First and last code point of each range. -/
  table : List (Nat × Nat)
  increases : Ranges.increaseFrom 0 table = true := by decide +kernel

namespace Ranges

def search : List (Nat × Nat) → Nat → Bool
  | [], _ => false
  | (first, last) :: rest, n => first ≤ n && (n ≤ last || search rest n)

def contains (r : Ranges) (n : Nat) : Bool := search r.table n

theorem first_of_increaseFrom {bound : Nat} {table : List (Nat × Nat)}
    (h : increaseFrom bound table = true) : ∀ p ∈ table, bound ≤ p.1 := by
  induction table generalizing bound with
  | nil => simp
  | cons range rest ih =>
    obtain ⟨first, last⟩ := range
    simp only [increaseFrom, Bool.and_eq_true, decide_eq_true_eq] at h
    intro p hp
    rcases List.mem_cons.1 hp with rfl | hp
    · exact h.1.1
    · have := ih h.2 p hp
      omega

/-- No range is missed by a search that ends early. -/
theorem search_iff {bound n : Nat} {table : List (Nat × Nat)}
    (h : increaseFrom bound table = true) :
    search table n = true ↔ ∃ p ∈ table, p.1 ≤ n ∧ n ≤ p.2 := by
  induction table generalizing bound with
  | nil => simp [search]
  | cons range rest ih =>
    obtain ⟨first, last⟩ := range
    simp only [increaseFrom, Bool.and_eq_true, decide_eq_true_eq] at h
    have hrest := first_of_increaseFrom h.2
    simp only [search, Bool.and_eq_true, Bool.or_eq_true, decide_eq_true_eq, ih h.2,
      List.mem_cons, exists_eq_or_imp]
    constructor
    · rintro ⟨hf, hl | hr⟩
      · exact Or.inl ⟨hf, hl⟩
      · exact Or.inr hr
    · rintro (⟨hf, hl⟩ | ⟨p, hp, hf, hl⟩)
      · exact ⟨hf, Or.inl hl⟩
      · have := hrest p hp
        exact ⟨by omega, Or.inr ⟨p, hp, hf, hl⟩⟩

theorem contains_iff (r : Ranges) (n : Nat) :
    r.contains n = true ↔ ∃ p ∈ r.table, p.1 ≤ n ∧ n ≤ p.2 := search_iff r.increases

end Ranges

end Descent
