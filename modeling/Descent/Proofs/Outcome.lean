import Descent.Run

/-! Assertions on one outcome and comparisons of two. Both follow `bind`, so a fact about a run is
proved from the facts about its steps. -/

namespace Descent.Outcome

variable {α β γ δ : Type}

theorem bind_assoc (x : Outcome α) (f : α → Outcome β) (g : β → Outcome γ) :
    (x.bind f).bind g = x.bind fun a => (f a).bind g := by
  cases x <;> rfl

theorem bind_congr {x : Outcome α} {f g : α → Outcome β} (h : ∀ a, x = ok a → f a = g a) :
    x.bind f = x.bind g := by
  cases x with
  | unfinished => rfl
  | error e => rfl
  | ok a => exact h a rfl

/-- What is known of an outcome; `pending` is what is known when the fuel ran out. -/
def Ensures (pending : Prop) (errors : Error → Prop) (values : α → Prop) : Outcome α → Prop
  | unfinished => pending
  | error e => errors e
  | ok a => values a

/-- The values of the first run are those that it really comes to. -/
theorem Ensures.bind {pending : Prop} {errors : Error → Prop} {V : α → Prop} {W : β → Prop}
    {x : Outcome α} {f : α → Outcome β} (hx : x.Ensures pending errors V)
    (hf : ∀ a, x = ok a → V a → (f a).Ensures pending errors W) :
    (x.bind f).Ensures pending errors W := by
  cases x with
  | unfinished => exact hx
  | error e => exact hx
  | ok a => exact hf a rfl hx

theorem Ensures.mono {pending : Prop} {E E' : Error → Prop} {V : α → Prop} {x : Outcome α}
    (hx : x.Ensures pending E V) (he : ∀ {e}, E e → E' e) : x.Ensures pending E' V := by
  cases x with
  | unfinished => exact hx
  | error e => exact he hx
  | ok a => exact hx

theorem Ensures.of_finished {pending : Prop} {errors : Error → Prop} {V : α → Prop} {x : Outcome α}
    (hx : x.Ensures False errors V) : x.Ensures pending errors V := by
  cases x with
  | unfinished => exact hx.elim
  | error e => exact hx
  | ok a => exact hx

theorem Ensures.ne_unfinished {errors : Error → Prop} {V : α → Prop} {x : Outcome α}
    (hx : x.Ensures False errors V) : x ≠ unfinished := by
  rintro rfl
  exact hx

theorem Ensures.of_ne_unfinished {errors : Error → Prop} {V : α → Prop} {x : Outcome α}
    (hx : x.Ensures True errors V) (hu : x ≠ unfinished) : x.Ensures False errors V := by
  cases x with
  | unfinished => exact hu rfl
  | error e => exact hx
  | ok a => exact hx

/-- The first outcome is answered by the second. An end of the first run that is `free` (an error,
or `none` for a run without end) is answered by anything; any other end asks for its like. -/
inductive Related (free : Option Error → Prop) (errors : Error → Error → Prop)
    (values : α → β → Prop) : Outcome α → Outcome β → Prop
  | freeUnfinished {y} : free none → Related free errors values unfinished y
  | freeError {e y} : free (some e) → Related free errors values (error e) y
  | unfinished : Related free errors values unfinished unfinished
  | error {e e'} : errors e e' → Related free errors values (error e) (error e')
  | ok {a b} : values a b → Related free errors values (ok a) (ok b)

theorem Related.bind {free : Option Error → Prop} {errors : Error → Error → Prop}
    {V : α → β → Prop} {W : γ → δ → Prop} {x : Outcome α} {y : Outcome β}
    {f : α → Outcome γ} {g : β → Outcome δ} (h : Related free errors V x y)
    (hfg : ∀ a b, V a b → Related free errors W (f a) (g b)) :
    Related free errors W (x.bind f) (y.bind g) := by
  cases h with
  | freeUnfinished h => exact .freeUnfinished h
  | freeError h => exact .freeError h
  | unfinished => exact .unfinished
  | error h => exact .error h
  | ok h => exact hfg _ _ h

theorem Related.refl {free : Option Error → Prop} {errors : Error → Error → Prop}
    {values : α → α → Prop} (he : ∀ e, errors e e) (x : Outcome α)
    (hv : ∀ a, x = .ok a → values a a) : Related free errors values x x := by
  cases x with
  | unfinished => exact .unfinished
  | error e => exact .error (he e)
  | ok a => exact .ok (hv a rfl)

/-- What follows one run is compared value by value. -/
theorem Related.bind_left {free : Option Error → Prop} {errors : Error → Error → Prop}
    {W : γ → δ → Prop} (he : ∀ e, errors e e) (x : Outcome α) {f : α → Outcome γ}
    {g : α → Outcome δ} (hfg : ∀ a, Related free errors W (f a) (g a)) :
    Related free errors W (x.bind f) (x.bind g) := by
  have hx : Related free errors Eq x x := .refl he x fun _ _ => rfl
  refine hx.bind ?_
  rintro a _ rfl
  exact hfg a

theorem Related.mono {free : Option Error → Prop} {errors : Error → Error → Prop}
    {V W : α → β → Prop} {x : Outcome α} {y : Outcome β} (h : Related free errors V x y)
    (hvw : ∀ {a b}, V a b → W a b) : Related free errors W x y := by
  cases h with
  | freeUnfinished h => exact .freeUnfinished h
  | freeError h => exact .freeError h
  | unfinished => exact .unfinished
  | error h => exact .error h
  | ok h => exact .ok (hvw h)

/-- What is answered strictly is answered. -/
theorem Related.of_strict {free : Option Error → Prop} {errors : Error → Error → Prop}
    {V : α → β → Prop} {x : Outcome α} {y : Outcome β}
    (h : Related (fun _ => False) errors V x y) : Related free errors V x y := by
  cases h with
  | freeUnfinished h => exact h.elim
  | freeError h => exact h.elim
  | unfinished => exact .unfinished
  | error h => exact .error h
  | ok h => exact .ok h

theorem Related.symm_of_strict {V : α → α → Prop} {x y : Outcome α}
    (h : Related (fun _ => False) Eq V x y) (hv : ∀ {a b}, V a b → V b a) :
    Related (fun _ => False) Eq V y x := by
  cases h with
  | freeUnfinished h => exact h.elim
  | freeError h => exact h.elim
  | unfinished => exact .unfinished
  | error h => exact .error h.symm
  | ok h => exact .ok (hv h)

theorem Related.trans {free : Option Error → Prop} {V : α → α → Prop} {x y z : Outcome α}
    (h : Related free Eq V x y) (h' : Related free Eq V y z)
    (hv : ∀ {a b c}, V a b → V b c → V a c) : Related free Eq V x z := by
  cases h with
  | freeUnfinished h => exact .freeUnfinished h
  | freeError h => exact .freeError h
  | unfinished =>
      cases h' with
      | freeUnfinished h' => exact .freeUnfinished h'
      | unfinished => exact .unfinished
  | error h =>
      subst h
      cases h' with
      | freeError h' => exact .freeError h'
      | error h' => exact .error h'
  | ok h =>
      cases h' with
      | ok h' => exact .ok (hv h h')

/-- Where only a run without end is free, the answer may be one that is reached later. -/
theorem Related.of_later {errors : Error → Error → Prop} {V : α → β → Prop} {x : Outcome α}
    {y y' : Outcome β} (h : Related (· = none) errors V x y)
    (hy : y ≠ Outcome.unfinished → y' = y) : Related (· = none) errors V x y' := by
  cases h with
  | freeUnfinished h => exact .freeUnfinished h
  | freeError h => cases h
  | unfinished => exact .freeUnfinished rfl
  | error h =>
      rw [hy fun h => nomatch h]
      exact .error h
  | ok h =>
      rw [hy fun h => nomatch h]
      exact .ok h

/-- If each of two runs that comes to an end is answered by the other, both do or neither does. -/
theorem Related.of_mutual {errors errors' : Error → Error → Prop} {V : α → β → Prop}
    {V' : β → α → Prop} {x : Outcome α} {y : Outcome β} (h : Related (· = none) errors V x y)
    (h' : Related (· = none) errors' V' y x) : Related (fun _ => False) errors V x y := by
  cases h with
  | freeUnfinished _ =>
      cases h' with
      | freeUnfinished _ => exact .unfinished
      | freeError h' => cases h'
      | unfinished => exact .unfinished
  | freeError h => cases h
  | unfinished => exact .unfinished
  | error h => exact .error h
  | ok h => exact .ok h

/-- A run that comes to an end is answered by itself. -/
theorem Ensures.related {free : Option Error → Prop} {E : Error → Prop}
    {errors : Error → Error → Prop} {V : α → Prop} {values : α → α → Prop} {x : Outcome α}
    (h : x.Ensures False E V) (he : ∀ e, E e → errors e e) (hv : ∀ a, V a → values a a) :
    Related free errors values x x := by
  cases x with
  | unfinished => exact h.elim
  | error e => exact .error (he e h)
  | ok a => exact .ok (hv a h)

/-- Where errors and values belong together only if they are equal, the outcome is kept or free. -/
theorem Related.eq_or_free {free : Option Error → Prop} {values : α → α → Prop}
    (hv : ∀ {a b}, values a b → a = b) {x y : Outcome α} (h : Related free Eq values x y) :
    y = x ∨ (x = .unfinished ∧ free none) ∨ ∃ e, x = .error e ∧ free (some e) := by
  cases h with
  | freeUnfinished h => exact .inr (.inl ⟨rfl, h⟩)
  | freeError h => exact .inr (.inr ⟨_, rfl, h⟩)
  | unfinished => exact .inl rfl
  | error h => exact .inl (congrArg Outcome.error h.symm)
  | ok h => exact .inl (congrArg Outcome.ok (hv h).symm)

/-- Where nothing is free, such outcomes are equal. -/
theorem Related.eq_of_strict {values : α → α → Prop} (hv : ∀ {a b}, values a b → a = b)
    {x y : Outcome α} (h : Related (fun _ => False) Eq values x y) : x = y := by
  rcases h.eq_or_free hv with h | ⟨-, h⟩ | ⟨_, -, h⟩
  · exact h.symm
  · exact h.elim
  · exact h.elim

/-- Where nothing is free, one run goes on without end if and only if the other one does. -/
theorem Related.unfinished_iff {errors : Error → Error → Prop} {values : α → β → Prop}
    {x : Outcome α} {y : Outcome β} (h : Related (fun _ => False) errors values x y) :
    x = Outcome.unfinished ↔ y = Outcome.unfinished := by
  cases h with
  | freeUnfinished h => exact h.elim
  | freeError h => exact h.elim
  | unfinished => exact iff_of_true rfl rfl
  | error _ => exact iff_of_false nofun nofun
  | ok _ => exact iff_of_false nofun nofun

/-- An error is answered by an error. -/
theorem Related.of_error {errors : Error → Error → Prop} {values : α → β → Prop} {err : Error}
    {y : Outcome β} (h : Related (fun _ => False) errors values (Outcome.error err) y) :
    ∃ err', y = Outcome.error err' ∧ errors err err' := by
  cases h with
  | freeError hfree => exact hfree.elim
  | error herr => exact ⟨_, rfl, herr⟩

theorem bind_ne_unfinished {x : Outcome α} {f : α → Outcome β} (hx : x ≠ unfinished)
    (hf : ∀ a, x = ok a → f a ≠ unfinished) : x.bind f ≠ unfinished := by
  intro h
  rcases bind_eq_unfinished_iff.1 h with hu | ⟨a, ha, hu⟩
  · exact hx hu
  · exact hf a ha hu

/-- Whether the run came to an end, by a value or by an error. -/
def isFinished : Outcome α → Bool
  | unfinished => false
  | error _ | ok _ => true

theorem isFinished_iff {x : Outcome α} : x.isFinished = true ↔ x ≠ unfinished := by
  cases x <;> simp [isFinished]

end Descent.Outcome
