import Descent.Error
import Descent.Record

/-! Operations on a state. The state that an operation leaves stands beside its result, also when
the result is an error, so an operation that fails has to say what it left. -/

namespace Descent

structure Change (σ α : Type) where
  log : List Record
  state : σ
  result : Except Error α

namespace Change

variable {σ τ α β : Type}

def ok (state : σ) (a : α) : Change σ α := ⟨[], state, .ok a⟩

def refused (state : σ) (e : Error) : Change σ α := ⟨[], state, .error e⟩

/-- The record comes before those of the operation. -/
def noting (r : Record) (x : Change σ α) : Change σ α := { x with log := r :: x.log }

/-- A second operation works on the state that the first one left; it is not tried after an
error. -/
def andThen (x : Change σ α) (f : α → σ → Change σ β) : Change σ β :=
  match x.result with
  | .error e => ⟨x.log, x.state, .error e⟩
  | .ok a => { f a x.state with log := x.log ++ (f a x.state).log }

def map (f : α → β) (x : Change σ α) : Change σ β := ⟨x.log, x.state, x.result.map f⟩

/-- The same operation on a part of a larger state. -/
def within (put : σ → τ) (x : Change σ α) : Change τ α := ⟨x.log, put x.state, x.result⟩

end Change

end Descent
