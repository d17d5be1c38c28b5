import Mathlib.Data.List.Forall2

/-! Results that may be errors: when a chain, a traversal or a fold of them is one or the other. -/

namespace ModelCatalog.Outcome

variable {ε α β : Type}

/-- A chain gives a value exactly when both links do. -/
theorem bind_eq_ok {first : Except ε α} {next : α → Except ε β} {result : β} :
    (first >>= next) = .ok result ↔ ∃ value, first = .ok value ∧ next value = .ok result := by
  -- An error ends the chain, and a value goes into the second link.
  cases first <;> simp [bind, Except.bind]

/-- A chain behind a check gives a value when the check passes and the rest does. -/
theorem unit_bind_eq_ok {check : Except ε Unit} {next : Unit → Except ε α} {result : α} :
    (check >>= next) = .ok result ↔ check = .ok () ∧ next () = .ok result := by
  -- A check has only one value to give.
  rw [bind_eq_ok]
  exact ⟨fun ⟨_, passed, done⟩ => ⟨passed, done⟩, fun ⟨passed, done⟩ => ⟨(), passed, done⟩⟩

/-- A chain fails at the first link or at the second. -/
theorem bind_eq_error {first : Except ε α} {next : α → Except ε β} {error : ε} :
    (first >>= next) = .error error ↔
      first = .error error ∨ ∃ value, first = .ok value ∧ next value = .error error := by
  -- The second link is reached with a value, and otherwise the error is that of the first.
  cases first <;> simp [bind, Except.bind]

/-- Chains that go on alike from what the first link gives are equal. -/
theorem bind_congr_of_ok {first : Except ε α} {next other : α → Except ε β}
    (same : ∀ value, first = .ok value → next value = other value) :
    (first >>= next) = (first >>= other) := by
  -- An error goes on in neither, and a value goes on in both alike.
  cases first with
  | error error => rfl
  | ok value => exact same value rfl

/-- A changed result is there when there was one to change. -/
theorem map_eq_ok {change : α → β} {first : Except ε α} {result : β} :
    first.map change = .ok result ↔ ∃ value, first = .ok value ∧ change value = result := by
  -- A change goes past an error and applies to a value.
  cases first <;> simp [Except.map]

/-- The value of a chain that only passes on. -/
@[simp] theorem pure_eq_ok {value result : α} :
    (pure value : Except ε α) = .ok result ↔ value = result := by
  -- What is passed on is the value itself.
  simp [pure, Except.pure]

/-- A result that is no error has a value. -/
theorem exists_of_isOk {result : Except ε α} (succeeds : result.isOk = true) :
    ∃ value, result = .ok value := by
  -- A result is an error or a value.
  cases result with
  | error error => cases succeeds
  | ok value => exact ⟨value, rfl⟩

/-- Passing a value on does not fail. -/
@[simp] theorem pure_ne_error {value : α} {error : ε} :
    (pure value : Except ε α) ≠ .error error := by
  -- What is passed on is a value.
  simp [pure, Except.pure]

/-- Nothing comes after an error. -/
@[simp] theorem throw_bind {error : ε} {next : β → Except ε α} :
    (throw error >>= next) = throw error := rfl

/-- What is refused under a condition gives a value when the condition fails and the rest does. -/
theorem unless_throw_eq_ok {refused : Prop} [Decidable refused] {error : ε} {rest : Except ε α}
    {result : α} :
    (if refused then throw error else rest) = .ok result ↔ ¬refused ∧ rest = .ok result := by
  -- Either the condition holds and there is only the error, or the rest decides.
  split
  · rename_i holds
    simp [holds, throw, throwThe, MonadExceptOf.throw]
  · rename_i fails
    simp [fails]

/-- A traversal gives a list exactly when each step gives its member. -/
theorem mapM_eq_ok {step : α → Except ε β} {inputs : List α} {outputs : List β} :
    inputs.mapM step = .ok outputs ↔
      List.Forall₂ (fun input output => step input = .ok output) inputs outputs := by
  -- The induction goes along the inputs, and the outputs are taken apart as they come.
  induction inputs generalizing outputs with
  | nil => cases outputs <;> simp
  | cons first rest ih =>
    rw [List.mapM_cons, bind_eq_ok]
    constructor
    · -- A list of outputs begins with what the first step gave.
      rintro ⟨head, done, after⟩
      obtain ⟨tail, others, whole⟩ := bind_eq_ok.mp after
      rw [← pure_eq_ok.mp whole]
      exact .cons done (ih.mp others)
    · -- A list of outputs that fits has a first member, and the first step gave it.
      rintro (_ | ⟨done, others⟩)
      exact ⟨_, done, bind_eq_ok.mpr ⟨_, ih.mpr others, rfl⟩⟩

/-- A traversal whose steps all give something gives a list. -/
theorem exists_mapM_eq_ok {step : α → Except ε β} {inputs : List α}
    (all : ∀ input ∈ inputs, ∃ output, step input = .ok output) :
    ∃ outputs, inputs.mapM step = .ok outputs := by
  -- The outputs are put together from those of the first step and of the rest.
  induction inputs with
  | nil => exact ⟨[], rfl⟩
  | cons first rest ih =>
    obtain ⟨head, done⟩ := all first List.mem_cons_self
    obtain ⟨tail, others⟩ := ih fun input later => all input (List.mem_cons_of_mem _ later)
    refine ⟨head :: tail, mapM_eq_ok.mpr (.cons done (mapM_eq_ok.mp others))⟩

/-- Each step of a traversal that gives a list gives something. -/
theorem exists_of_mapM_eq_ok {step : α → Except ε β} {inputs : List α} {outputs : List β}
    (done : inputs.mapM step = .ok outputs) {input : α} (present : input ∈ inputs) :
    ∃ output ∈ outputs, step input = .ok output := by
  -- Inputs and outputs are walked side by side until the one in question is the first.
  induction mapM_eq_ok.mp done with
  | nil => cases present
  | cons head tail ih =>
    rcases List.mem_cons.mp present with rfl | later
    · exact ⟨_, List.mem_cons_self, head⟩
    · obtain ⟨output, listed, gives⟩ := ih (mapM_eq_ok.mpr tail) later
      exact ⟨output, List.mem_cons_of_mem _ listed, gives⟩

/-- Each member of a list that a traversal gives comes from one of its steps. -/
theorem exists_input_of_mapM_eq_ok {step : α → Except ε β} {inputs : List α} {outputs : List β}
    (done : inputs.mapM step = .ok outputs) {output : β} (present : output ∈ outputs) :
    ∃ input ∈ inputs, step input = .ok output := by
  -- As above, with the output in question instead of the input.
  induction mapM_eq_ok.mp done with
  | nil => cases present
  | cons head tail ih =>
    rcases List.mem_cons.mp present with rfl | later
    · exact ⟨_, List.mem_cons_self, head⟩
    · obtain ⟨input, listed, gives⟩ := ih (mapM_eq_ok.mpr tail) later
      exact ⟨input, List.mem_cons_of_mem _ listed, gives⟩

/-- Each member that is kept of what a traversal gives comes from a step that has one. -/
theorem exists_input_of_filterMap {step : α → Except ε (Option β)} {inputs : List α}
    {outputs : List (Option β)} (done : inputs.mapM step = .ok outputs) {output : β}
    (kept : output ∈ outputs.filterMap id) : ∃ input ∈ inputs, step input = .ok (some output) := by
  -- What is kept was there as a value, and each output was given for some input.
  obtain ⟨_, isOutput, rfl⟩ := List.mem_filterMap.mp kept
  exact exists_input_of_mapM_eq_ok done isOutput

/-- A traversal that fails does so at one of its steps. -/
theorem exists_of_mapM_eq_error {step : α → Except ε β} {inputs : List α} {error : ε}
    (failed : inputs.mapM step = .error error) : ∃ input ∈ inputs, step input = .error error := by
  induction inputs with
  | nil => simp at failed
  | cons first rest ih =>
    rw [List.mapM_cons, bind_eq_error] at failed
    -- The first step fails, or it succeeds and the rest fails; putting together never does.
    rcases failed with head | ⟨_, -, tail⟩
    · exact ⟨first, List.mem_cons_self, head⟩
    · rcases bind_eq_error.mp tail with others | ⟨_, -, whole⟩
      · obtain ⟨input, later, fails⟩ := ih others
        exact ⟨input, List.mem_cons_of_mem _ later, fails⟩
      · exact absurd whole pure_ne_error

/-- Traversals whose steps agree on every member are equal. -/
theorem mapM_congr {step other : α → Except ε β} {inputs : List α}
    (same : ∀ input ∈ inputs, step input = other input) :
    inputs.mapM step = inputs.mapM other := by
  -- The first steps agree, and the rest agrees by induction.
  induction inputs with
  | nil => rfl
  | cons first rest ih =>
    rw [List.mapM_cons, List.mapM_cons, same first List.mem_cons_self,
      ih fun input later => same input (List.mem_cons_of_mem _ later)]

/-- Folds whose steps agree on every member, whatever the state, are equal. -/
theorem foldlM_congr {step other : β → α → Except ε β} {inputs : List α} {state : β}
    (same : ∀ reached, ∀ input ∈ inputs, step reached input = other reached input) :
    inputs.foldlM step state = inputs.foldlM other state := by
  -- Both folds reach the same state behind the first step, so the induction leaves it open.
  induction inputs generalizing state with
  | nil => rfl
  | cons first rest ih =>
    rw [List.foldlM_cons, List.foldlM_cons, same state first List.mem_cons_self]
    exact bind_congr_of_ok fun next _ =>
      ih fun reached input later => same reached input (List.mem_cons_of_mem _ later)

/-- A fold that gives a value went through a first step. -/
theorem foldlM_cons_eq_ok {step : β → α → Except ε β} {state result : β} {first : α}
    {rest : List α} :
    (first :: rest).foldlM step state = .ok result ↔
      ∃ next, step state first = .ok next ∧ rest.foldlM step next = .ok result := by
  -- A fold is a chain of its first step and the fold over the rest.
  rw [List.foldlM_cons, bind_eq_ok]

/-- A fold that fails does so at one of its steps. -/
theorem exists_of_foldlM_eq_error {step : β → α → Except ε β} {inputs : List α} {state : β}
    {error : ε} (failed : inputs.foldlM step state = .error error) :
    ∃ reached, ∃ input ∈ inputs, step reached input = .error error := by
  -- The step that fails is the first one, or one behind whatever that has reached, so the induction
  -- leaves the state open that the fold begins from.
  induction inputs generalizing state with
  | nil => simp at failed
  | cons first rest ih =>
    rw [List.foldlM_cons, bind_eq_error] at failed
    rcases failed with head | ⟨next, -, tail⟩
    · exact ⟨state, first, List.mem_cons_self, head⟩
    · obtain ⟨reached, input, later, fails⟩ := ih tail
      exact ⟨reached, input, List.mem_cons_of_mem _ later, fails⟩

/-- To change what a chain gives is to change what its last link gives. -/
theorem map_bind {γ : Type} {change : β → γ} {first : Except ε α} {next : α → Except ε β} :
    (first >>= next).map change = first >>= fun value => (next value).map change := by
  -- An error goes past the change and past the rest of the chain.
  cases first <;> rfl

/-- A chain behind a changed value is one that changes the value first. -/
theorem bind_map {γ : Type} {change : α → β} {first : Except ε α} {next : β → Except ε γ} :
    (first.map change >>= next) = first >>= fun value => next (change value) := by
  -- An error goes past the change and past the rest of the chain.
  cases first <;> rfl

/-- A traversal of changed members changes what it gives when each step does. -/
theorem mapM_map {γ δ : Type} {change : α → γ} {result : β → δ} {step : α → Except ε β}
    {other : γ → Except ε δ} {inputs : List α}
    (each : ∀ input ∈ inputs, other (change input) = (step input).map result) :
    (inputs.map change).mapM other = (inputs.mapM step).map (List.map result) := by
  -- Each step changes its own output, before the outputs are put together.
  induction inputs with
  | nil => rfl
  | cons first rest ih =>
    rw [List.map_cons, List.mapM_cons, List.mapM_cons, each first List.mem_cons_self,
      ih fun input later => each input (List.mem_cons_of_mem _ later), bind_map, map_bind]
    refine bind_congr_of_ok fun head _ => ?_
    rw [bind_map, map_bind]
    rfl

/-- A traversal by steps that change what they give changes what it gives. -/
theorem mapM_result {δ : Type} {result : β → δ} {step : α → Except ε β} {other : α → Except ε δ}
    {inputs : List α} (each : ∀ input ∈ inputs, other input = (step input).map result) :
    inputs.mapM other = (inputs.mapM step).map (List.map result) := by
  -- The inputs are left as they are, which is a change by the identity.
  simpa using @mapM_map _ _ _ _ _ id _ _ _ _ each

/-- A fold from a changed state gives the changed result when each step does. -/
theorem foldlM_map {γ : Type} {change : β → γ} {step : β → α → Except ε β}
    {other : γ → α → Except ε γ}
    (each : ∀ state input, other (change state) input = (step state input).map change)
    (inputs : List α) (state : β) :
    inputs.foldlM other (change state) = (inputs.foldlM step state).map change := by
  -- The changed state is what the other fold goes on from.
  induction inputs generalizing state with
  | nil => rfl
  | cons first rest ih =>
    rw [List.foldlM_cons, List.foldlM_cons, each, bind_map, map_bind]
    exact bind_congr_of_ok fun next _ => ih next

/-- Where a change makes two results equal, the second is a value when the first is. -/
theorem exists_of_map_eq {change : α → β} {first second : Except ε α} {value : α}
    (same : first.map change = second.map change) (done : first = .ok value) :
    ∃ other, second = .ok other ∧ change other = change value := by
  -- The result of the first is known, so the change of it is a value on both sides.
  subst done
  exact map_eq_ok.mp same.symm

/-- A traversal that checks each member before its step gives a list exactly when all checks pass
and the steps give that list. -/
theorem mapM_check_eq_ok {check : α → Except ε Unit} {step : α → Except ε β} {inputs : List α}
    {outputs : List β} :
    inputs.mapM (fun input => check input >>= fun _ => step input) = .ok outputs ↔
      (∀ input ∈ inputs, check input = .ok ()) ∧ inputs.mapM step = .ok outputs := by
  -- Both sides speak of all inputs one by one.
  simp only [mapM_eq_ok, unit_bind_eq_ok]
  exact List.forall₂_and_left _ _

end ModelCatalog.Outcome
