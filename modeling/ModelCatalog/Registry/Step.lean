import ModelCatalog.Error

/-! Steps on a state that may fail; what a step did before it failed stays done. -/

namespace ModelCatalog

/-- A step on a state: a result or an error, and the state afterwards in either case. -/
def Step (σ α : Type) : Type := σ → Except Error α × σ

namespace Step

variable {σ α β : Type}

/-- The step that only gives a result. -/
def pure (value : α) : Step σ α := fun state => (.ok value, state)

/-- One step after another; the second is left out when the first fails. -/
def bind (step : Step σ α) (next : α → Step σ β) : Step σ β := fun state =>
  match step state with
  | (.ok value, after) => next value after
  | (.error error, after) => (.error error, after)

instance : Monad (Step σ) where
  pure := Step.pure
  bind := Step.bind

/-- The step that only fails. -/
def fail (error : Error) : Step σ α := fun state => (.error error, state)

/-- A result that was worked out without the state. -/
def ofExcept (result : Except Error α) : Step σ α := fun state => (result, state)

/-- A step that reads and changes the state and cannot fail. -/
def ofUpdate (update : σ → α × σ) : Step σ α := fun state =>
  let after := update state
  (.ok after.1, after.2)

/-- A step whose error, if there is one, is its result. -/
def outcome (step : Step σ α) : Step σ (Except Error α) := fun state =>
  let after := step state
  (.ok after.1, after.2)

/-- Make an attempt, and up to so many more while it gives an error for a result; the last of
these errors is then the failure. An attempt that fails outright is not repeated. -/
def retrying (attempt : Step σ (Except Error α)) : Nat → Step σ α
  | 0 => do
    match ← attempt with
    | .ok value => return value
    | .error error => .fail error
  | more + 1 => do
    match ← attempt with
    | .ok value => return value
    | .error _ => retrying attempt more

end Step

end ModelCatalog
