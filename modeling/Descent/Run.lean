import Descent.Error
import Descent.Log

/-! Runs of the evaluation. A run has a log and an outcome; the outcome is `unfinished` only when
the fuel ran out, and an error ends the run. Outcomes compose without regard to the log, so a fact
about outcomes never needs the records. -/

namespace Descent

inductive Outcome (α : Type) where
  | unfinished
  | error (e : Error)
  | ok (value : α)

namespace Outcome

variable {α β : Type}

def bind : Outcome α → (α → Outcome β) → Outcome β
  | unfinished, _ => unfinished
  | error e, _ => error e
  | ok a, f => f a

theorem bind_eq_ok_iff {x : Outcome α} {f : α → Outcome β} {b : β} :
    x.bind f = ok b ↔ ∃ a, x = ok a ∧ f a = ok b := by
  cases x <;> simp [bind]

theorem bind_eq_error_iff {x : Outcome α} {f : α → Outcome β} {e : Error} :
    x.bind f = error e ↔ x = error e ∨ ∃ a, x = ok a ∧ f a = error e := by
  cases x <;> simp [bind]

theorem bind_eq_unfinished_iff {x : Outcome α} {f : α → Outcome β} :
    x.bind f = unfinished ↔ x = unfinished ∨ ∃ a, x = ok a ∧ f a = unfinished := by
  cases x <;> simp [bind]

end Outcome

structure Run (α : Type) where
  log : Log
  outcome : Outcome α

namespace Run

variable {α β : Type}

def pure (a : α) : Run α := ⟨.empty, .ok a⟩

def error (e : Error) : Run α := ⟨.empty, .error e⟩

def unfinished : Run α := ⟨.empty, .unfinished⟩

def note (r : Record) : Run Unit := ⟨.record r, .ok ()⟩

def bind (x : Run α) (f : α → Run β) : Run β :=
  match x.outcome with
  | .unfinished => ⟨x.log, .unfinished⟩
  | .error e => ⟨x.log, .error e⟩
  | .ok a =>
      let y := f a
      ⟨x.log ++ y.log, y.outcome⟩

instance : Monad Run where
  pure := Run.pure
  bind := Run.bind

@[simp] theorem outcome_pure (a : α) : (Pure.pure a : Run α).outcome = .ok a := rfl

@[simp] theorem outcome_error (e : Error) : (error e : Run α).outcome = .error e := rfl

@[simp] theorem outcome_unfinished : (unfinished : Run α).outcome = .unfinished := rfl

@[simp] theorem outcome_note (r : Record) : (note r).outcome = .ok () := rfl

@[simp] theorem outcome_bind (x : Run α) (f : α → Run β) :
    (x >>= f).outcome = x.outcome.bind fun a => (f a).outcome := by
  show (Run.bind x f).outcome = _
  unfold Run.bind Outcome.bind
  cases x.outcome <;> rfl

end Run

end Descent
