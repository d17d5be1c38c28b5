import ModelCatalog.Proofs.WriteRun
import ModelCatalog.Registry.Delete

/-! Runs of deletions: what a call to delete leaves in the store, however its statements fare. -/

namespace ModelCatalog

open InProgress

/-- Take the relations to a model away, and tell whether there were any. -/
def Model.stripChange (target : String) (model : Model) : Model × Bool :=
  (model.stripReferences target, model.lostFields (model.stripReferences target))

/-- What a deletion makes of the record of another model. -/
def Record.stripped (record : Record) (target : String) (now : Nat) : Record :=
  if record.definition.references target then
    record.next (record.definition.stripReferences target) now
  else record

namespace Model

variable {model : Model} {target : String}

/-- Only a model that refers to the deleted one loses fields. -/
theorem stripReferences_eq_self_iff :
    model.stripReferences target = model ↔ model.references target = false := by
  -- A filter keeps a whole list exactly when everything in it passes.
  cases model
  simp [stripReferences, references, List.filter_eq_self]

/-- Taking relations away is a change of the models that refer to the deleted one. -/
theorem stripChange_eq (target : String) (model : Model) :
    stripChange target model = (model.stripReferences target, model.references target) := by
  -- Fields are lost exactly when the filter makes the list shorter.
  have loses : model.lostFields (model.stripReferences target) = model.references target := by
    rw [Bool.eq_iff_iff]
    simp [lostFields, stripReferences, references, List.length_filter_eq_length_iff]
  rw [stripChange, loses]

end Model

/-- A deletion takes the relations to the deleted model away from the definition of another. -/
theorem Record.definition_stripped (record : Record) (target : String) (now : Nat) :
    (record.stripped target now).definition = record.definition.stripReferences target := by
  unfold stripped
  split
  · -- A model that refers to the deleted one is rewritten without the fields that do.
    rfl
  · -- Any other model is left, and it has nothing to lose.
    rename_i apart
    exact (Model.stripReferences_eq_self_iff.mpr (Bool.not_eq_true _ ▸ apart)).symm

namespace Catalog

/-- Take the relations to a model away from others, in order. -/
def stripped (catalog : Catalog) (target : String) (now : Nat) (others : List String) : Catalog :=
  others.foldl (fun catalog other => catalog.amended other false (Model.stripChange target) now)
    catalog

/-- Delete a model and the relations of others to it. -/
def deleted (catalog : Catalog) (name : String) (now : Nat) : Catalog :=
  Roster.erase name (catalog.stripped name now
    ((DeletePlan.referencingModels catalog.models name).map Model.name))

/-- The plan to delete what is stored under a name. -/
def deletion (catalog : Catalog) (name : String) : Except Error DeletePlan :=
  match catalog.find? name with
  | none => .error (.notFound name)
  | some record => DeletePlan.ofRecord catalog.models record

variable {catalog : Catalog} {target : String} {now : Nat}

/-- Taking relations away leaves the records alone that are not among the others. -/
theorem find?_stripped_of_notMem {others : List String} {name : String} (apart : name ∉ others) :
    (catalog.stripped target now others).find? name = catalog.find? name := by
  -- Each turn before the end is that of another name.
  induction others generalizing catalog with
  | nil => rfl
  | cons first rest ih =>
    rw [List.mem_cons, not_or] at apart
    exact (ih apart.2).trans (find?_amended_of_ne (fun _ => rfl) apart.1)

/-- Taking relations away takes them from the record of each of the others. -/
theorem find?_stripped {others : List String} (distinct : others.Nodup) {name : String}
    (listed : name ∈ others) :
    (catalog.stripped target now others).find? name =
      (catalog.amended name false (Model.stripChange target) now).find? name := by
  induction others generalizing catalog with
  | nil => cases listed
  | cons first rest ih =>
    rw [List.nodup_cons] at distinct
    -- Names are different, so that a record changes at its own turn and at no other.
    rcases List.mem_cons.mp listed with rfl | later
    · exact find?_stripped_of_notMem distinct.1
    · have differ : name ≠ first := by
        rintro rfl
        exact distinct.1 later
      exact (ih distinct.2 later).trans (find?_amended_congr (fun _ => rfl)
        (find?_amended_of_ne (fun _ => rfl) differ))

/-- The models that refer to one are others. -/
theorem notMem_referencing (catalog : Catalog) (name : String) :
    name ∉ (DeletePlan.referencingModels catalog.models name).map Model.name := by
  intro listed
  obtain ⟨model, referring, same⟩ := List.mem_map.mp listed
  -- A model is not among those that refer to it, even where it does.
  have other := (List.mem_filter.mp referring).2
  simp [same] at other

/-- The names of the models that refer to one are different. -/
theorem nodup_referencing (catalog : Catalog) (name : String) :
    ((DeletePlan.referencingModels catalog.models name).map Model.name).Nodup :=
  -- They are some of the stored models, in the same order, and those have different names.
  (Roster.names_nodup catalog.models).sublist (List.filter_sublist.map Model.name)

/-- A stored model is among those that refer to one when it is another one and has a relation to
it. -/
theorem mem_referencing {record : Record} {name other : String}
    (stored : catalog.find? other = some record) :
    other ∈ (DeletePlan.referencingModels catalog.models name).map Model.name ↔
      other ≠ name ∧ record.definition.references name = true := by
  have known : catalog.models.find? other = some record.definition := by
    rw [find?_models, definition?, stored]
    rfl
  obtain rfl : record.definition.name = other := Roster.name_of_find? known
  simp only [DeletePlan.referencingModels, List.mem_map, List.mem_filter, Bool.and_eq_true,
    bne_iff_ne]
  constructor
  · rintro ⟨model, ⟨isKnown, apart, refers⟩, same⟩
    -- There is one model of that name.
    have found : catalog.models.find? model.name = some model := Roster.mem_iff_find?.mp isKnown
    rw [same, known, Option.some.injEq] at found
    exact found ▸ ⟨apart, refers⟩
  · rintro ⟨apart, refers⟩
    exact ⟨record.definition, ⟨Roster.mem_iff_find?.mpr known, apart, refers⟩, rfl⟩

/-- A deletion takes the record of a model away, and strips all others. -/
theorem find?_deleted (catalog : Catalog) (gone : String) (now : Nat) (name : String) :
    (catalog.deleted gone now).find? name =
      if name = gone then none
      else (catalog.find? name).map fun record => record.stripped gone now := by
  rw [deleted, Roster.find?_erase]
  by_cases same : gone = name
  · rw [if_pos same, if_pos same.symm]
  · rw [if_neg same, if_neg (Ne.symm same)]
    by_cases listed : name ∈ (DeletePlan.referencingModels catalog.models gone).map Model.name
    · -- A model that refers to the deleted one is rewritten.
      obtain ⟨model, referring, named⟩ := List.mem_map.mp listed
      have known : catalog.definition? name = some model := by
        rw [← find?_models, ← named]
        exact Roster.mem_iff_find?.mp (List.mem_filter.mp referring).1
      obtain ⟨record, stored, rfl⟩ := Option.map_eq_some_iff.mp known
      have refers := ((mem_referencing stored).mp listed).2
      rw [find?_stripped (nodup_referencing catalog gone) listed, amended_of_stored known,
        Model.stripChange_eq, if_pos refers, find?_written]
      have own : (record.definition.stripReferences gone).name = name := named
      rw [if_pos own, own, stored, Option.map_some, Record.stripped, if_pos refers]
      rfl
    · rw [find?_stripped_of_notMem listed]
      cases stored : catalog.find? name with
      | none => rfl
      | some record =>
        -- Another model stays when it does not refer to the deleted one.
        have apart : ¬record.definition.references gone = true := fun refers =>
          listed ((mem_referencing stored).mpr ⟨Ne.symm same, refers⟩)
        rw [Option.map_some, Record.stripped, if_neg apart]

end Catalog

/-- A plan that was made to delete a record is about that record. -/
theorem DeletePlan.fits_of_ofRecord {known : Models} {record : Record} {plan : DeletePlan}
    (planned : ofRecord known record = .ok plan) :
    plan.model = record.name ∧
      plan.referencing = (referencingModels known record.name).map Model.name ∧
      plan.expect = .version record.version := by
  -- Planning names the table and its join tables first, either of which may be refused.
  obtain ⟨table, -, planned⟩ := Outcome.bind_eq_ok.mp planned
  obtain ⟨joins, -, planned⟩ := Outcome.bind_eq_ok.mp planned
  cases planned
  exact ⟨rfl, rfl, rfl⟩

namespace Catalog

variable {catalog : Catalog} {name : String} {plan : DeletePlan}

/-- A deletion that was planned is about the record of the name. -/
theorem fits_of_deletion (planned : catalog.deletion name = .ok plan) :
    ∃ record, catalog.find? name = some record ∧ plan.model = name ∧
      plan.referencing = (DeletePlan.referencingModels catalog.models name).map Model.name ∧
      plan.expect = .version record.version := by
  unfold deletion at planned
  split at planned
  · cases planned
  · rename_i record stored
    -- The record that is found bears the name.
    have own : record.name = name := Roster.name_of_find? stored
    have fits := DeletePlan.fits_of_ofRecord planned
    rw [own] at fits
    exact ⟨record, stored, fits⟩

/-- A deletion that cannot be planned tells of no statement. -/
theorem planning_deletion (catalog : Catalog) (name : String) :
    Planning (catalog.deletion name) := by
  -- A model that is missing is not found, and one that is there is planned for.
  unfold deletion
  split
  · exact .error trivial
  · exact DeletePlan.planning_ofRecord _ _

end Catalog

namespace Registry

variable (executor : Executor) (configuration : Configuration)
variable {database : Database} {catalog : Catalog}

/-- Relations are taken away at the first attempt. -/
theorem stripAll_run (target : String) (others : List String) :
    ∀ {progress : InProgress Database} {catalog : Catalog},
      progress.state.store = catalog.store →
      ∃ after, (registryWith executor configuration).stripAll target others progress =
          (.ok (), after) ∧
        Follows progress after (catalog.stripped target progress.state.now others) := by
  induction others with
  | nil => exact fun {progress _} holds => ⟨progress, rfl, holds, rfl, Nat.le_refl _⟩
  | cons first rest ih =>
    intro progress catalog holds
    have keepsName : ∀ model, (Model.stripChange target model).1.name = model.name := fun _ => rfl
    -- The others go on from the catalog that the first one left, at the same time.
    obtain ⟨middle, amended, follows⟩ := amend_run executor configuration holds first false
      keepsName
    obtain ⟨after, ran, later⟩ := ih follows.store
    rw [follows.now] at later
    exact ⟨after, (Step.bind_of_ok amended).trans ran, follows.trans later⟩

/-- A deletion whose guard holds goes through. -/
theorem lift_delete_run {progress : InProgress Database}
    (holds : progress.state.store = catalog.store) {name : String} {expect : Expect}
    (guarded : expect.holds (catalog.find? name) = true) :
    lift ((Database.backendWith executor).delete name expect) progress =
      (.ok (), { progress with
        state := { progress.state with store := Catalog.store (Roster.erase name catalog) } }) := by
  -- The guard is all that could refuse the call to the store.
  have gone : Database.delete name expect progress.state =
      (.ok (), { progress.state with store := Catalog.store (Roster.erase name catalog) }) := by
    rw [Database.delete, holds, Catalog.delete_store guarded]
  show lift (Database.delete name expect) progress = _
  rw [lift, gone]

/-- A plan to delete is carried out, unless its statements are refused. -/
theorem applyDelete_run {progress : InProgress Database}
    (holds : progress.state.store = catalog.store) {name : String} {plan : DeletePlan}
    (planned : catalog.deletion name = .ok plan) :
    (∃ after, (registryWith executor configuration).applyDelete plan progress = (.ok (), after) ∧
      Follows progress after (catalog.deleted name progress.state.now)) ∨
    ∃ error after, (registryWith executor configuration).applyDelete plan progress =
      (.error error, after) ∧ Follows progress after catalog ∧ error.IsRejection ∧
        ¬executor.Accepts := by
  -- The plan was made of the record that is stored.
  obtain ⟨record, stored, model, referencing, expect⟩ := Catalog.fits_of_deletion planned
  unfold applyDelete
  obtain ⟨applying, began, first, -⟩ := setStatus_run executor holds .applying
  rw [Step.bind_of_ok began]
  rcases runBatch_run executor first.store plan.model plan.statements with
    ⟨built, ran, second, -⟩ | ⟨error, after, refused, second, rejected, -, rejects⟩
  · rw [Step.bind_of_ok ran]
    obtain ⟨propagating, went, third, -⟩ := setStatus_run executor second.store .propagating
    rw [Step.bind_of_ok went]
    obtain ⟨stripping, stripped, fourth⟩ := stripAll_run executor configuration plan.model
      plan.referencing third.store
    rw [Step.bind_of_ok stripped]
    -- The own record is none of those that were changed, so it is still the one that was read.
    have guarded : plan.expect.holds ((catalog.stripped plan.model propagating.state.now
        plan.referencing).find? plan.model) = true := by
      rw [model, referencing, expect,
        Catalog.find?_stripped_of_notMem (Catalog.notMem_referencing _ _), stored]
      simp [Expect.holds]
    rw [Step.bind_of_ok (lift_delete_run executor fourth.store guarded)]
    -- The time has stood still all along.
    have follows := ((first.trans second).trans third).trans fourth
    have times := ((first.trans second).trans third).now
    refine Or.inl ⟨_, rfl, ?_, follows.now, Nat.le_trans follows.steps (Nat.le_add_right _ _)⟩
    rw [Catalog.deleted, ← referencing, ← model, ← times]
    rfl
  · rw [Step.bind_of_error refused]
    -- Refused statements leave every record as it was.
    exact Or.inr ⟨error, after, rfl, first.trans second, rejected, rejects⟩

/-- One attempt to plan a deletion reads the record and plans. -/
theorem Shows.tryLockForDelete {σ : Type} {registry : Registry σ} {state : σ}
    (shows : registry.Shows state catalog) (name : String) :
    registry.tryLockForDelete name state = ((catalog.deletion name).map .ok, state) := by
  have known := shows.knownModels
  have read := shows.get name
  unfold Registry.tryLockForDelete
  rw [Step.bind_of_ok known]
  cases stored : catalog.find? name with
  | none =>
    -- The lookup fails before a plan is made, as planning without a record does.
    have missing : registry.record name state = (.error (.notFound name), state) := by
      refine (Step.bind_of_ok read).trans ?_
      rw [stored]
      rfl
    rw [Step.bind_of_error missing, Catalog.deletion, stored]
    rfl
  -- The record was read, and the plan is made of it.
  | some record =>
    have found : registry.record name state = (.ok record, state) := by
      refine (Step.bind_of_ok read).trans ?_
      rw [stored]
      rfl
    have planning : catalog.deletion name = DeletePlan.ofRecord catalog.models record := by
      rw [Catalog.deletion, stored]
    rw [Step.bind_of_ok found, Step.bind_of_ok known, ← planning]
    cases planned : catalog.deletion name with
    | error error => rfl
    | ok plan =>
      -- The names that were secured are those of the models that refer to the record.
      have covered : (deleteSet catalog.models name).covers plan.referencing = true := by
        obtain ⟨_, -, -, referencing, -⟩ := Catalog.fits_of_deletion planned
        rw [NameSet.covers, List.all_eq_true, referencing]
        intro other listed
        rw [deleteSet, Roster.contains_eq, Roster.find?_insert]
        -- The deleted name itself is locked as well.
        split
        · rfl
        · rw [← Roster.contains_eq, Roster.contains_ofList]
          exact listed
      refine (Step.bind_of_ok rfl).trans ?_
      simp only [covered, reduceIte]
      rfl

/-- What a call to delete has found out before it begins: why it is refused, or its plan. -/
def preparedDelete (catalog : Catalog) (name : String) : Except Error DeletePlan := do
  let _ ← Identifier.checkAt (some ⟨name, none⟩) name
  catalog.deletion name

/-- A deletion is prepared when its name is an identifier and it is planned. -/
theorem preparedDelete_eq_ok {name : String} {plan : DeletePlan} :
    preparedDelete catalog name = .ok plan ↔
      isIdentifier name = true ∧ catalog.deletion name = .ok plan := by
  -- The name is checked first, and what the check returns is not used.
  unfold preparedDelete
  rw [Outcome.bind_eq_ok]
  constructor
  · rintro ⟨admitted, checked, planned⟩
    exact ⟨(Identifier.checkAt_eq_ok.mp checked).1, planned⟩
  · rintro ⟨identifier, planned⟩
    obtain ⟨admitted, checked⟩ : ∃ admitted,
        Identifier.checkAt (some ⟨name, none⟩) name = .ok admitted :=
      Identifier.exists_checkAt_eq_ok.mpr identifier
    exact ⟨admitted, checked, planned⟩

/-- A deletion that cannot be prepared is refused before anything is tried. -/
theorem planning_preparedDelete (catalog : Catalog) (name : String) :
    Planning (preparedDelete catalog name) :=
  -- Neither the check of the name nor the plan tells of a statement.
  .bind (Identifier.planning_checkAt _ _) fun _ => Catalog.planning_deletion _ _

/-- A call to delete reads, and then it is refused or carries out its plan. -/
theorem Shows.delete {σ : Type} {registry : Registry σ} {state : σ}
    (shows : registry.Shows state catalog) (name : String) :
    registry.delete name state =
      match preparedDelete catalog name with
      | .error error => (.error error, state)
      | .ok plan => journaled registry.backend name .delete (registry.applyDelete plan) state := by
  unfold preparedDelete
  cases checked : Identifier.checkAt (some ⟨name, none⟩) name with
  | error error => exact Step.bind_of_error (congrArg (·, state) checked)
  -- Once the name is admitted, the locks are taken with the first plan, or planning stops there.
  | ok admitted =>
    have locks := shows.tryLockForDelete name
    refine (Step.bind_of_ok (congrArg (·, state) checked)).trans ?_
    simp only [bind, Except.bind]
    cases planned : catalog.deletion name with
    | error error =>
      rw [planned] at locks
      exact Step.bind_of_error (Step.retrying_of_error locks _)
    | ok plan =>
      rw [planned] at locks
      exact Step.bind_of_ok (Step.retrying_of_ok locks _)

/-- A call to delete is refused before anything is done, or it is planned. -/
theorem delete_cases (holds : database.store = catalog.store) (name : String) :
    (∃ error, (registryWith executor configuration).delete name database =
        (.error error, database) ∧ ¬error.IsRejection) ∨
      isIdentifier name = true ∧ ∃ plan, catalog.deletion name = .ok plan := by
  have begins := (shows_database executor configuration holds).delete name
  -- What is prepared from the catalog decides how the call begins.
  cases prepared : preparedDelete catalog name with
  | ok plan =>
    obtain ⟨identifier, planned⟩ := preparedDelete_eq_ok.mp prepared
    exact Or.inr ⟨identifier, plan, planned⟩
  | error error =>
    rw [prepared] at begins
    exact Or.inl ⟨error, begins,
      (planning_preparedDelete catalog name error prepared).not_isRejection⟩

/-- A planned deletion is carried out, unless its statements are refused, and then nothing
changes. -/
theorem delete_of_planned (holds : database.store = catalog.store) {name : String}
    {plan : DeletePlan} (identifier : isIdentifier name = true)
    (planned : catalog.deletion name = .ok plan) :
    (∃ final, (registryWith executor configuration).delete name database = (.ok (), final) ∧
        final.now = database.now ∧ final.store = (catalog.deleted name database.now).store) ∨
      ∃ error final, (registryWith executor configuration).delete name database =
          (.error error, final) ∧ final.now = database.now ∧ final.store = catalog.store ∧
        error.IsRejection ∧ ¬executor.Accepts := by
  have works : (registryWith executor configuration).delete name database =
      journaled (Database.backendWith executor) name .delete
        ((registryWith executor configuration).applyDelete plan) database := by
    rw [(shows_database executor configuration holds).delete,
      preparedDelete_eq_ok.mpr ⟨identifier, planned⟩]
  obtain ⟨begun, kept, times, -, completes, stops⟩ := journaled_run executor database name
    .delete ((registryWith executor configuration).applyDelete plan)
  rw [works]
  rcases applyDelete_run executor configuration (kept.trans holds) planned with
    ⟨after, ran, follows⟩ | ⟨error, after, refused, follows, rejected, rejects⟩
  · -- The journal adds nothing to the store; the plan has been carried out at the time that it
    -- began.
    obtain ⟨final, done, left, time⟩ := completes () after ran
    rw [times] at follows
    exact Or.inl ⟨final, done, time.trans (follows.now.trans times), left.trans follows.store⟩
  · obtain ⟨final, failed, left, time⟩ := stops error after refused
    exact Or.inr ⟨_, final, failed, time.trans (follows.now.trans times),
      left.trans follows.store, isRejection_failure rejected, rejects⟩

end Registry

end ModelCatalog
