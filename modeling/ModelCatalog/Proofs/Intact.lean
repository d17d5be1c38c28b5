import ModelCatalog.Proofs.Accounting

/-! Intact stores: a call that succeeds has read every record, and so nothing in the store was
damaged. -/

namespace ModelCatalog

/-- A store that can be listed holds the records of a catalog. -/
theorem Store.exists_catalog {store : Store} {records : List Record}
    (listed : store.listAll = .ok records) : ∃ catalog : Catalog, store = catalog.store := by
  obtain ⟨entries, ordered⟩ := store
  -- Every entry was read, and only an intact one can be.
  obtain rfl : entries = records.map Entry.intact := by
    have read : List.Forall₂ (fun entry record => entry.read = .ok record) entries records :=
      Outcome.mapM_eq_ok.mp listed
    induction read with
    | nil => rfl
    | @cons entry record _ _ head tail ih =>
      rw [List.map_cons, ← ih (List.Pairwise.of_cons ordered) (Outcome.mapM_eq_ok.mpr tail)]
      cases entry with
      | intact record =>
        cases head
        rfl
      | damaged name => cases head
  exact ⟨⟨records, List.Pairwise.of_map Entry.intact (fun _ _ before => before) ordered⟩, rfl⟩

/-- Of two steps that succeed one after the other, the second begins where the first has ended. -/
theorem Step.exists_of_bind_eq_ok {σ α β : Type} {step : Step σ α} {next : α → Step σ β}
    {state after : σ} {value : β} (done : (step >>= next) state = (.ok value, after)) :
    ∃ first middle, step state = (.ok first, middle) ∧ next first middle = (.ok value, after) := by
  -- Had the first step failed, its error would be the outcome.
  cases ran : step state with
  | mk outcome middle =>
    cases outcome with
    | ok first => exact ⟨first, middle, rfl, (Step.bind_of_ok ran).symm.trans done⟩
    | error error =>
      rw [Step.bind_of_error ran] at done
      cases done

/-- Of a few attempts that lead to a value, the first did not fail outright. -/
theorem Step.exists_of_retrying_eq_ok {σ α : Type} {attempt : Step σ (Except Error α)}
    {times : Nat} {state after : σ} {value : α}
    (done : Step.retrying attempt times state = (.ok value, after)) :
    ∃ outcome middle, attempt state = (.ok outcome, middle) := by
  -- An attempt that fails outright ends them all, and there would be no value.
  cases attempted : attempt state with
  | mk result middle =>
    cases result with
    | ok outcome => exact ⟨outcome, middle, rfl⟩
    | error error =>
      rw [Step.retrying_of_error attempted] at done
      cases done

/-- A step that only reads ends where it began. -/
theorem Step.Reads.eq {α : Type} {step : Step Database α} {good : α → Prop}
    (reads : step.Reads good) {database after : Database} {outcome : Except Error α}
    (ran : step database = (outcome, after)) : after = database := by
  -- The state of a reading step is known whatever the outcome.
  have same := (reads database).1
  rwa [ran] at same

namespace Registry

variable {executor : Executor} {configuration : Configuration} {database after : Database}
  {name : String}

/-- The stored definitions are read from a store that is intact. -/
theorem exists_catalog_of_knownModels {known : Models}
    (read : (registryWith executor configuration).knownModels database = (.ok known, after)) :
    ∃ catalog : Catalog, database.store = catalog.store := by
  -- All records were read, and there is a catalog behind a store where that succeeds.
  obtain ⟨records, middle, listed, -⟩ := Step.exists_of_bind_eq_ok read
  exact Store.exists_catalog (congrArg Prod.fst listed)

/-- A write that succeeds has found the store intact. -/
theorem exists_catalog_of_write {fields : List Field} {mustExist : Bool} {record : Record}
    (wrote : (registryWith executor configuration).write name fields mustExist database =
      (.ok record, after)) : ∃ catalog : Catalog, database.store = catalog.store := by
  unfold write at wrote
  -- The check of the request leaves the state, and so does taking the locks, whatever it finds.
  obtain ⟨_, middle, checked, secures⟩ := Step.exists_of_bind_eq_ok wrote
  obtain rfl : database = middle := congrArg Prod.snd checked
  dsimp only at secures
  obtain ⟨old, locked, secured, plans⟩ := Step.exists_of_bind_eq_ok secures
  obtain rfl : locked = database :=
    ((reads_tryLockForWrite (configuration.declared name fields)).retrying _).eq secured
  split at plans
  · cases plans
  · obtain ⟨known, _, read, -⟩ := Step.exists_of_bind_eq_ok plans
    exact exists_catalog_of_knownModels read

/-- A deletion that succeeds has found the store intact. -/
theorem exists_catalog_of_delete
    (deleted : (registryWith executor configuration).delete name database = (.ok (), after)) :
    ∃ catalog : Catalog, database.store = catalog.store := by
  unfold delete at deleted
  -- The check leaves the state, and the attempt that gives the plan begins with reading the
  -- records.
  obtain ⟨_, middle, checked, plans⟩ := Step.exists_of_bind_eq_ok deleted
  obtain rfl : database = middle := congrArg Prod.snd checked
  obtain ⟨plan, _, planned, -⟩ := Step.exists_of_bind_eq_ok plans
  obtain ⟨outcome, _, attempted⟩ := Step.exists_of_retrying_eq_ok planned
  obtain ⟨known, _, read, -⟩ := Step.exists_of_bind_eq_ok attempted
  exact exists_catalog_of_knownModels read

end Registry

end ModelCatalog
