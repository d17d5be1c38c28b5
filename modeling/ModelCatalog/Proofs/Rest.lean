import ModelCatalog.Proofs.RepairTurns

/-! Models at rest: a repair of stored models has nothing to do exactly when each relation by itself
is as the repair would leave it. -/

namespace ModelCatalog

open WritePlan RepairPlan

variable {system : SystemModels}

/-- A member that is filed already may be filed again. -/
theorem Roster.insert_eq_self {α : Type} [Named α] {roster : Roster α} {member : α}
    (found : roster.find? (Named.name member) = some member) : roster.insert member = roster := by
  -- Rosters are told apart by lookups, and filing again answers each as before.
  refine eq_of_find? fun name => ?_
  rw [find?_insert]
  split
  · rename_i same
    rw [← same, found]
  · rfl

/-- A plan of a repair that has nothing to do. -/
def RepairPlan.idle (scanned : Nat) : RepairPlan where
  updates := []
  statements := []
  report := .untouched scanned

/-- Models at rest: every definition equals itself, relations lead to models that are there, what
can be resolved is resolved, and every relation that awaits a counterpart on another model has it
there. -/
structure AtRest (system : SystemModels) (models : Models) : Prop where
  /-- No default is a number that differs from itself. -/
  equal : ∀ name model, models.find? name = some model → model.sameAs model = true
  leads : ∀ name model, models.find? name = some model → ∀ field ∈ model.fields,
    leadsSomewhere system models name field = true
  resolved : ∀ name model, models.find? name = some model → ∀ resolved,
    Context.resolve ⟨system, models⟩ (some model) model = .ok resolved → resolved = model
  placed : ∀ name fieldName field relation target,
    Awaits system models name fieldName field relation target →
      (insertionOf name field relation).PlacedIn name target

/-! ## Models at rest are left alone -/

namespace AtRest

variable {models : Models} {report : RepairReport}

/-- Models at rest are resolved. -/
theorem resolveOne_eq (rest : AtRest system models) (name : String) :
    resolveOne system ⟨models, report⟩ name = ⟨models, report⟩ := by
  -- Either the model is filed as it was, which changes nothing, or the turn does nothing.
  rcases resolveOne_cases system ⟨models, report⟩ name with
    ⟨model, resolved, found, done, after⟩ | same
  · have equal := rest.resolved name model found resolved done
    subst equal
    have named : Named.name resolved = name := Roster.name_of_find? found
    rw [after, Roster.insert_eq_self (named.symm ▸ found)]
    simp
  · exact same

/-- In models at rest every counterpart is in place. -/
theorem mendField_eq (rest : AtRest system models) (name fieldName : String) :
    mendField system name ⟨models, report⟩ fieldName = ⟨models, report⟩ := by
  -- Only a relation that awaits its counterpart does anything, and that is in place.
  rcases mendField_cases system ⟨models, report⟩ name fieldName with
    ⟨field, relation, target, awaits, after⟩ | same
  · obtain ⟨mate, only, current⟩ := rest.placed name fieldName field relation target awaits
    have named : Named.name target = relation.target := Roster.name_of_find? awaits.found
    have listed : mate ∈ target.fields.filter fun one => one.pairsWith name field.name
        (field.counterpartName name) := only ▸ List.mem_singleton_self mate
    obtain ⟨present, pairs⟩ := List.mem_filter.mp listed
    -- The counterpart was there, it is not changed, and so it is counted neither way.
    have existed := Model.isSome_counterpartIndex? present pairs
    have unchanged : (target.upsertCounterpart name field.name
        (insertionOf name field relation).counterpart).changed = false :=
      Model.upsertCounterpart_unchanged_of_placed only current
        (Model.sameList_of_sameAs (rest.equal _ target awaits.found))
    have kept : (target.upsertCounterpart name field.name
        (insertionOf name field relation).counterpart).target = target :=
      Model.upsertCounterpart_of_placed only current
    rw [after, placing]
    simp [countUpsert, kept, existed, unchanged,
      Roster.insert_eq_self (named.symm ▸ awaits.found)]
  · exact same

/-- Models at rest have nothing to be mended. -/
theorem mendOne_eq (rest : AtRest system models) (name : String) :
    mendOne system ⟨models, report⟩ name = ⟨models, report⟩ := by
  -- A missing model is passed over, and the fields of one that is there are tried in turn.
  unfold mendOne
  split
  · rfl
  · exact List.foldl_fixed' (rest.mendField_eq name) _

/-- A repair leaves models at rest alone. -/
theorem repair_eq (rest : AtRest system models) (report : RepairReport) :
    repair system models report = ⟨models, report⟩ := by
  -- No field is pruned, no model resolved anew and no counterpart placed.
  rw [repair, pruneAll_eq_self rest.leads, List.foldl_fixed' rest.resolveOne_eq,
    List.foldl_fixed' rest.mendOne_eq]

end AtRest

/-! ## What is left alone is at rest -/

/-- The number of times that fields were added, updated or removed. -/
def RepairReport.work (report : RepairReport) : Nat :=
  report.fieldsAdded + report.fieldsUpdated + report.fieldsRemoved

namespace RepairPlan

variable {progress : Progress} {name : String}

/-- The work that is done so far. -/
def Progress.work (progress : Progress) : Nat := progress.report.work

/-- Steps that undo no work undo none together. -/
theorem work_foldl {step : Progress → String → Progress}
    (grows : ∀ progress name, progress.work ≤ (step progress name).work)
    (names : List String) (progress : Progress) :
    progress.work ≤ (names.foldl step progress).work := by
  -- The induction is on the names that are left, from whatever is done so far.
  induction names generalizing progress with
  | nil => exact Nat.le_refl _
  | cons first rest ih => exact Nat.le_trans (grows progress first) (ih _)

/-- Where steps do no work together, and each that does none changes nothing, nothing is changed. -/
theorem foldl_quiet {step : Progress → String → Progress}
    (grows : ∀ progress name, progress.work ≤ (step progress name).work)
    (still : ∀ progress name, (step progress name).work = progress.work →
      step progress name = progress)
    {names : List String} {progress : Progress}
    (quiet : (names.foldl step progress).work = progress.work) :
    names.foldl step progress = progress ∧ ∀ name ∈ names, step progress name = progress := by
  induction names with
  | nil => simp
  | cons first rest ih =>
    -- The first step has done no work, since the others have not undone it.
    have head := grows progress first
    have later := work_foldl grows rest (step progress first)
    rw [List.foldl_cons] at quiet ⊢
    have same := still progress first (by omega)
    rw [same] at quiet ⊢
    obtain ⟨whole, each⟩ := ih quiet
    exact ⟨whole, by simpa [same] using each⟩

/-- To put a counterpart in place undoes no work, and where it does none the counterpart was there
already and stays. -/
theorem work_placing {field : Field} {relation : Relation} {target : Model}
    (found : progress.models.find? relation.target = some target) :
    progress.work ≤ (placing progress name field relation target).work ∧
      ((placing progress name field relation target).work = progress.work →
        placing progress name field relation target = progress ∧
          (insertionOf name field relation).PlacedIn name target) := by
  -- The counts only grow, so the first half is arithmetic.
  simp only [placing, Progress.work, RepairReport.work, countUpsert]
  refine ⟨by omega, fun none_done => ?_⟩
  -- Where no work is counted, the counterpart was there and has not changed.
  cases existed :
      (target.counterpartIndex? name field.name (field.counterpartName name)).isSome with
  | false =>
    -- A counterpart that was missing counts as added.
    simp only [existed] at none_done
    simp at none_done
    omega
  | true =>
    cases changed : (target.upsertCounterpart name field.name
        (insertionOf name field relation).counterpart).changed with
    | true =>
      simp only [existed, changed] at none_done
      simp at none_done
      omega
    -- Neither was it missing nor has it changed, so putting it in place is the identity.
    | false =>
      have plain : (insertionOf name field relation).counterpart.default = none := rfl
      have kept := Model.eq_of_upsertCounterpart_unchanged
        (Field.unambiguous_of_plain plain) changed
      have named : Named.name target = relation.target := Roster.name_of_find? found
      have placed := Insertion.placedIn_upsertCounterpart (faces_insertionOf name field relation)
        target
      have same : (target.upsertCounterpart name (insertionOf name field relation).field
          (insertionOf name field relation).counterpart).target = target := kept
      rw [same] at placed
      exact ⟨by simp [kept, Roster.insert_eq_self (named.symm ▸ found)], placed⟩

/-- Mending one relation undoes no work, and changes nothing where it does none. -/
theorem work_mendField (system : SystemModels) (name : String) (progress : Progress)
    (fieldName : String) :
    progress.work ≤ (mendField system name progress fieldName).work ∧
      ((mendField system name progress fieldName).work = progress.work →
        mendField system name progress fieldName = progress) := by
  -- Only a counterpart that is put in place makes work.
  rcases mendField_cases system progress name fieldName with
    ⟨field, relation, target, awaits, after⟩ | same
  · obtain ⟨grows, still⟩ := @work_placing progress name field relation target awaits.found
    rw [after]
    exact ⟨grows, fun quiet => (still quiet).1⟩
  · rw [same]
    exact ⟨Nat.le_refl _, fun _ => rfl⟩

/-- A turn of one model undoes no work, and changes nothing where it does none; then no relation of
the model changes anything. -/
theorem work_mendOne (system : SystemModels) (progress : Progress) (name : String) :
    progress.work ≤ (mendOne system progress name).work ∧
      ((mendOne system progress name).work = progress.work →
        mendOne system progress name = progress ∧
        ∀ model, progress.models.find? name = some model → ∀ pair ∈ model.relations,
          mendField system name progress pair.1.name = progress) := by
  unfold mendOne
  cases found : progress.models.find? name with
  | none => simp
  | some model =>
    have grows := fun progress field => (work_mendField system name progress field).1
    have still := fun progress field => (work_mendField system name progress field).2
    -- The turn is a fold over the relations, and each of its steps undoes no work.
    refine ⟨work_foldl grows _ progress, fun none_done => ?_⟩
    obtain ⟨whole, each⟩ := foldl_quiet grows still none_done
    refine ⟨whole, fun again same pair listed => ?_⟩
    cases same
    exact each _ (List.mem_map_of_mem listed)

/-- To resolve one model undoes no work. -/
theorem work_resolveOne (system : SystemModels) (progress : Progress) (name : String) :
    progress.work ≤ (resolveOne system progress name).work := by
  rcases resolveOne_cases system progress name with ⟨model, resolved, -, -, same⟩ | same
  · -- A model that has grown counts, and one that has shrunk does not.
    rw [same]
    simp only [Progress.work, RepairReport.work]
    omega
  · exact Nat.le_of_eq (by rw [same])

/-- To resolve one model leaves the others. -/
theorem find?_resolveOne_of_ne (system : SystemModels) (progress : Progress) {name other : String}
    (apart : other ≠ name) :
    (resolveOne system progress name).models.find? other = progress.models.find? other := by
  -- A model that is resolved is filed under its own name, which is not the other one.
  rcases resolveOne_cases system progress name with ⟨model, resolved, found, done, same⟩ | same
  · have named : Named.name resolved = name :=
      (Context.of_resolve done).1.trans (Roster.name_of_find? found)
    rw [same, Roster.find?_insert, named, if_neg (Ne.symm apart)]
  · rw [same]

/-- To resolve several models leaves the others. -/
theorem find?_resolveAll_of_notMem (system : SystemModels) {names : List String} {other : String}
    (apart : other ∉ names) (progress : Progress) :
    (names.foldl (resolveOne system) progress).models.find? other =
      progress.models.find? other := by
  -- Each of the names is another one, whatever the turns before it have done.
  induction names generalizing progress with
  | nil => rfl
  | cons first rest ih =>
    rw [List.mem_cons, not_or] at apart
    rw [List.foldl_cons, ih apart.2, find?_resolveOne_of_ne system progress apart.1]

/-- To resolve several models that equal what they are resolved to in the end changes nothing. -/
theorem resolveAll_quiet {names : List String} (once : names.Nodup)
    (equal : ∀ name model, progress.models.find? name = some model → ∃ final,
      (names.foldl (resolveOne system) progress).models.find? name = some final ∧
        model.sameAs final = true) :
    names.foldl (resolveOne system) progress = progress ∧
      ∀ name ∈ names, resolveOne system progress name = progress := by
  induction names with
  | nil => simp
  | cons first rest ih =>
    obtain ⟨fresh, restOnce⟩ := List.nodup_cons.mp once
    -- What the first model is resolved to is what is there in the end, and so it is the model.
    have same : resolveOne system progress first = progress := by
      rcases resolveOne_cases system progress first with
        ⟨model, resolved, found, done, after⟩ | same
      · have named : Named.name resolved = first :=
          (Context.of_resolve done).1.trans (Roster.name_of_find? found)
        obtain ⟨final, last, alike⟩ := equal first model found
        rw [List.foldl_cons, find?_resolveAll_of_notMem system fresh, after, ← named,
          Roster.find?_insert_self, Option.some.injEq] at last
        subst last
        have unchanged := Model.eq_of_sameAs alike (Context.of_resolve done).2
        subst unchanged
        rw [after, Roster.insert_eq_self (named.symm ▸ found)]
        simp
      · exact same
    rw [List.foldl_cons, same] at equal ⊢
    -- The first turn is the identity, so the rest start from the same models.
    obtain ⟨whole, each⟩ := ih restOnce equal
    exact ⟨whole, by simpa [same] using each⟩

/-- Pruning undoes no work, and where it does none it changes nothing. -/
theorem work_pruneAll (system : SystemModels) (scanned : Models) (report : RepairReport) :
    report.work ≤ (pruneAll system scanned report).work ∧
      ((pruneAll system scanned report).work = report.work →
        pruneAll system scanned report = ⟨scanned, report⟩ ∧
          ∀ name model, scanned.find? name = some model → ∀ field ∈ model.fields,
            leadsSomewhere system scanned name field = true) := by
  refine ⟨?_, fun none_done => ?_⟩
  · simp only [pruneAll, Progress.work, RepairReport.work]
    omega
  · -- The fields taken are counted over all models, so where none is, no model has lost any.
    have none_lost : (scanned.members.map fun model =>
        model.fields.length - (prune system scanned model).fields.length).foldl (· + ·) 0 = 0 := by
      simp only [pruneAll, Progress.work, RepairReport.work] at none_done
      omega
    rw [← List.sum_eq_foldl_nat, List.sum_eq_zero_iff_forall_eq_nat] at none_lost
    -- No model is shorter for it, and so each of its fields leads somewhere.
    have leads : ∀ name model, scanned.find? name = some model → ∀ field ∈ model.fields,
        leadsSomewhere system scanned name field = true := by
      intro name model found
      have own : model.name = name := Roster.name_of_find? found
      have lost := none_lost _ (List.mem_map_of_mem (Roster.mem_of_find? found))
      have shorter := List.length_filter_le (leadsSomewhere system scanned model.name) model.fields
      simp only [prune] at lost
      rw [← own]
      exact List.length_filter_eq_length_iff.mp (by omega)
    exact ⟨pruneAll_eq_self leads report, leads⟩

/-- Models that a repair does no work on, and that equal what it leaves, are at rest. -/
theorem atRest_of_quiet {scanned : Models} {report : RepairReport}
    (quiet : (repair system scanned report).work = report.work)
    (equal : ∀ name model, scanned.find? name = some model → ∃ final,
      (repair system scanned report).models.find? name = some final ∧
        model.sameAs final = true) : AtRest system scanned := by
  rw [repair] at quiet equal
  obtain ⟨prunes, unpruned⟩ := work_pruneAll system scanned report
  have mends := fun progress name => (work_mendOne system progress name).1
  have still := fun progress name none_done => ((work_mendOne system progress name).2 none_done).1
  -- The work is counted over the three parts of the repair, and none is done by any of them.
  have resolves :=
    work_foldl (work_resolveOne system) scanned.names (pruneAll system scanned report)
  have later := work_foldl mends scanned.names
    (scanned.names.foldl (resolveOne system) (pruneAll system scanned report))
  -- Nothing was pruned, so the models to be resolved are those that were scanned.
  obtain ⟨pruned, leads⟩ := unpruned (by omega)
  rw [pruned] at quiet equal resolves later
  have start : (Progress.mk scanned report).work = report.work := rfl
  have quietTurns : (scanned.names.foldl (mendOne system)
      (scanned.names.foldl (resolveOne system) ⟨scanned, report⟩)).work =
        (scanned.names.foldl (resolveOne system) ⟨scanned, report⟩).work := by omega
  -- No turn of mending has done any work, so each has left the models as they were.
  obtain ⟨mended, turns⟩ := foldl_quiet mends still quietTurns
  rw [mended] at equal
  have once : scanned.names.Nodup := Roster.names_nodup scanned
  obtain ⟨resolved, each⟩ := @resolveAll_quiet system ⟨scanned, report⟩ scanned.names once equal
  rw [resolved] at equal turns
  have listed : ∀ name model, scanned.find? name = some model → name ∈ scanned.names := by
    intro name model found
    exact List.mem_map.mpr ⟨model, Roster.mem_of_find? found, Roster.name_of_find? found⟩
  refine ⟨fun name model found => ?_, leads, fun name model found after done => ?_, ?_⟩
  · -- What is stored equals what the repair leaves.
    obtain ⟨final, again, alike⟩ := equal name model found
    rw [show scanned.find? name = some final from again, Option.some.injEq] at found
    exact found ▸ alike
  · -- What the model is resolved to was filed, and that has changed nothing.
    have step := each name (listed name model found)
    have filed : (resolveOne system ⟨scanned, report⟩ name).models = scanned.insert after := by
      simp [resolveOne, found, done]
    have named : Named.name after = name :=
      (Context.of_resolve done).1.trans (Roster.name_of_find? found)
    have same : scanned.insert after = scanned := by rw [← filed, step]
    rw [← same, ← named, Roster.find?_insert_self, Option.some.injEq] at found
    exact found
  · -- A counterpart that is awaited was put in place without any work.
    intro name fieldName field relation target awaits
    obtain ⟨source, found, isField⟩ := awaits.source
    have turn := turns name (listed name source found)
    have quietTurn := (work_mendOne system ⟨scanned, report⟩ name).2 (by rw [turn])
    obtain ⟨present, named⟩ := Model.mem_of_field? isField
    -- The turn of the source came to the relation, and it did no work there.
    have step := quietTurn.2 source found (field, relation)
      (Model.mem_relations.mpr ⟨present, awaits.related⟩)
    rw [named, mendField_of_awaits awaits] at step
    exact ((work_placing awaits.found).2 (by rw [step])).2

/-! ## Plans that have nothing to do -/

/-- The stored definitions, under their names. -/
def scanned (records : List Record) : Models := Roster.ofList (records.map Record.definition)

/-- What a repair makes of stored definitions. -/
def repaired (system : SystemModels) (records : List Record) : Progress :=
  repair system (scanned records) (.untouched records.length)

variable {records : List Record}

/-- A plan of a repair consists of what the repair changed, of the statements for the columns that
are missing, and of the counts. -/
theorem ofRecords_eq_ok {plan : RepairPlan} : ofRecords system records false = .ok plan ↔
    ∃ statements,
      missingColumns system (scanned records) (repaired system records).models = .ok statements ∧
      plan =
        { updates := updated records (scanned records) (repaired system records).models
          statements := statements
          report := { (repaired system records).report with
            modelsUpdated :=
              (updated records (scanned records) (repaired system records).models).length } } := by
  -- A plan that is not a rehearsal is made of these parts, and only the statements can fail.
  unfold ofRecords
  simp only [Bool.false_eq_true, reduceIte, Outcome.bind_eq_ok, Outcome.pure_eq_ok]
  exact exists_congr fun _ => and_congr_right fun _ => eq_comm

/-- The stored definition of a name is that of its record. -/
theorem find?_scanned (distinct : (records.map Record.name).Nodup) {name : String} {model : Model} :
    (scanned records).find? name = some model ↔
      ∃ record ∈ records, record.definition = model ∧ model.name = name := by
  -- Names are apart, so each finds one definition.
  have apart : ((records.map Record.definition).map Named.name).Nodup := by
    rw [List.map_map]
    exact distinct
  rw [scanned, Roster.find?_ofList apart]
  constructor
  · intro found
    obtain ⟨record, listed, same⟩ := List.mem_map.mp (List.mem_of_find?_eq_some found)
    have named : Named.name model = name := by simpa using List.find?_some found
    exact ⟨record, listed, same, named⟩
  · rintro ⟨record, listed, rfl, rfl⟩
    have inList : record.definition ∈ records.map Record.definition := List.mem_map_of_mem listed
    -- What is found under the name of the definition is the definition, since names are apart.
    obtain ⟨first, found⟩ : ∃ first, (records.map Record.definition).find?
        (fun other => Named.name other == Named.name record.definition) = some first :=
      Option.isSome_iff_exists.mp (List.find?_isSome.mpr ⟨record.definition, inList, by simp⟩)
    have same : Named.name first = Named.name record.definition := by
      simpa using List.find?_some found
    rw [List.inj_on_of_nodup_map apart (List.mem_of_find?_eq_some found) inList same] at found
    exact found

/-- Every record has its definition under its name. -/
theorem find?_scanned_of_mem (distinct : (records.map Record.name).Nodup) {record : Record}
    (listed : record ∈ records) :
    (scanned records).find? record.name = some record.definition :=
  -- The names differ, so that no other record comes first under this one.
  (find?_scanned distinct).mpr ⟨record, listed, rfl, rfl⟩

/-- Every stored definition has a version. -/
theorem isSome_versionOf (distinct : (records.map Record.name).Nodup) {name : String}
    {model : Model} (found : (scanned records).find? name = some model) :
    (versionOf records name).isSome = true := by
  -- Versions are looked up in the records that the definitions were taken from.
  obtain ⟨record, listed, rfl, named⟩ := (find?_scanned distinct).mp found
  rw [versionOf, Option.isSome_map, List.find?_isSome]
  exact ⟨record, List.mem_reverse.mpr listed, by simpa [Record.name] using named⟩

/-- A model is updated, with the version it was read at, when it is left under its name and what was
there does not equal it. -/
theorem mem_updated {before models : Models} {model : Model} {version : Nat} :
    (model, version) ∈ updated records before models ↔
      models.find? model.name = some model ∧
        (∀ stored, before.find? model.name = some stored → stored.sameAs model = false) ∧
        versionOf records model.name = some version := by
  -- An update is listed when the model differs from the stored one and its version is known.
  simp only [updated, List.mem_filterMap]
  constructor
  · rintro ⟨left, listed, made⟩
    cases changed : (before.find? left.name).any fun stored => stored.sameAs left with
    | true => simp [changed] at made
    -- Only a model that differs is listed, with the version it was read at.
    | false =>
      simp only [changed, Bool.false_eq_true, reduceIte, Option.map_eq_some_iff, Prod.mk.injEq]
        at made
      obtain ⟨number, held, rfl, rfl⟩ := made
      exact ⟨Roster.mem_iff_find?.mp listed, fun stored was => by simpa [was] using changed, held⟩
  · rintro ⟨found, changed, held⟩
    refine ⟨model, Roster.mem_of_find? found, ?_⟩
    -- Where nothing was stored there is nothing to equal, so the model counts as changed.
    have differs : ((before.find? model.name).any fun stored => stored.sameAs model) = false := by
      cases was : before.find? model.name with
      | none => rfl
      | some stored => simpa using changed stored was
    simp [differs, held]

/-- What is updated is one of the models that are left. -/
theorem mem_of_mem_updated {models : Models} {update : Model × Nat}
    (listed : update ∈ updated records (scanned records) models) : update.1 ∈ models.members :=
  -- Only models that are left are listed.
  Roster.mem_of_find? (mem_updated.mp listed).1

/-- A model that is left is updated exactly when the stored definition does not equal it. -/
theorem exists_mem_updated (distinct : (records.map Record.name).Nodup) {models : Models}
    {name : String} {model final : Model} (found : (scanned records).find? name = some model)
    (last : models.find? name = some final) :
    (∃ version, (final, version) ∈ updated records (scanned records) models) ↔
      model.sameAs final = false := by
  have named : final.name = name := Roster.name_of_find? last
  subst named
  -- The version is there in any case, so all depends on the comparison.
  obtain ⟨version, held⟩ := Option.isSome_iff_exists.mp (isSome_versionOf distinct found)
  constructor
  · rintro ⟨other, listed⟩
    exact (mem_updated.mp listed).2.1 model found
  · intro changed
    refine ⟨version, mem_updated.mpr ⟨last, fun stored was => ?_, held⟩⟩
    rw [found, Option.some.injEq] at was
    exact was ▸ changed

/-- Nothing is updated exactly when every stored definition equals the one that is left. -/
theorem updated_eq_nil (distinct : (records.map Record.name).Nodup) {models : Models}
    (same : ∀ name, (models.find? name).isSome = ((scanned records).find? name).isSome) :
    updated records (scanned records) models = [] ↔
      ∀ name model, (scanned records).find? name = some model →
        ∃ final, models.find? name = some final ∧ model.sameAs final = true := by
  constructor
  · intro none_updated name model found
    -- The repair leaves the same names, so that there is a definition to compare with.
    have there := same name
    rw [found] at there
    obtain ⟨final, last⟩ := Option.isSome_iff_exists.mp there
    refine ⟨final, last, ?_⟩
    have kept := exists_mem_updated distinct found last
    rw [none_updated] at kept
    simpa using kept
  · intro equal
    -- What is updated differs from what was stored.
    refine List.eq_nil_iff_forall_not_mem.mpr fun ⟨final, version⟩ listed => ?_
    have last := Roster.mem_iff_find?.mp (mem_of_mem_updated listed)
    have there := same (Named.name final)
    rw [last] at there
    obtain ⟨model, found⟩ := Option.isSome_iff_exists.mp there.symm
    obtain ⟨again, sameLast, alike⟩ := equal _ model found
    rw [last, Option.some.injEq] at sameLast
    subst sameLast
    have changed := (exists_mem_updated distinct found last).mp ⟨version, listed⟩
    exact Bool.false_ne_true (changed.symm.trans alike)

/-- There are no columns to add to models that equal what was stored. -/
theorem missingColumns_of_equal {models : Models}
    (equal : ∀ name model, models.find? name = some model → model.sameAs model = true) :
    missingColumns system models models = .ok [] := by
  have each : models.members.mapM (missingColumnsOf ⟨system, models⟩ models) =
      .ok (models.members.map fun _ => []) := by
    -- Each model equals what it is compared with, and so it misses no column.
    refine Outcome.mapM_eq_ok.mpr ?_
    rw [List.forall₂_map_right_iff, List.forall₂_same]
    intro model listed
    have found : models.find? model.name = some model := Roster.mem_iff_find?.mp listed
    simp [missingColumnsOf, found, equal _ model found]
  rw [missingColumns, Outcome.bind_eq_ok]
  exact ⟨_, each, by simp [pure, Except.pure]⟩

/-- A repair of stored models has nothing to do exactly when they are at rest. -/
theorem ofRecords_eq_idle_iff (distinct : (records.map Record.name).Nodup) :
    ofRecords system records false = .ok (idle records.length) ↔
      AtRest system (scanned records) := by
  have same := (defaultsFrom_repair system (scanned records) (.untouched records.length)).same
  constructor
  · -- A plan without updates and without counts comes of a repair that did no work.
    intro planned
    obtain ⟨statements, -, isIdle⟩ := ofRecords_eq_ok.mp planned
    simp only [idle, RepairPlan.mk.injEq] at isIdle
    obtain ⟨updates, -, report⟩ := isIdle
    refine @atRest_of_quiet system (scanned records) (.untouched records.length) ?_
      ((updated_eq_nil distinct same).mp updates.symm)
    simp only [RepairReport.untouched, RepairReport.mk.injEq] at report
    obtain ⟨-, added, changed, removed, -⟩ := report
    change (repaired system records).report.work = 0
    simp only [RepairReport.work, ← added, ← changed, ← removed]
  · -- At rest the repair is the identity, and it plans neither statements nor updates.
    intro rest
    have left : repaired system records = ⟨scanned records, .untouched records.length⟩ :=
      rest.repair_eq _
    refine ofRecords_eq_ok.mpr ⟨[], ?_, ?_⟩
    · rw [left]
      exact missingColumns_of_equal rest.equal
    · have updates : updated records (scanned records) (scanned records) = [] :=
        (updated_eq_nil distinct fun _ => rfl).mpr fun name model found =>
          ⟨model, found, rest.equal name model found⟩
      rw [left, updates]
      rfl

end RepairPlan

end ModelCatalog
