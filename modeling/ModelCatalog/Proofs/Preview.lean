import ModelCatalog.CommandLine.Run
import ModelCatalog.Proofs.Recording
import ModelCatalog.Proofs.Redefinition
import ModelCatalog.Proofs.RelationInvariant
import ModelCatalog.Proofs.Retracing

/-! Previews: among all stored models a preview shows the tables that a definition creates, and the
command to preview, which leaves the stored version of the model out, shows them when the document
retraces that version. -/

namespace ModelCatalog

/-- The statement creates a table, that of a model or a join table. -/
def Statement.isCreation : Statement → Bool
  | createTable .. | createJoinTable .. => true
  | addColumn .. | dropTable _ => false

/-! ## Plans and previews -/

namespace WritePlan

variable {context : Context} {old : Option Record} {declared : Model} {plan : WritePlan}

/-- Of the statements of a plan those that create tables are the ones its definition is compiled
to. -/
theorem exists_synthesis (planned : context.planWrite old declared = .ok plan) :
    ∃ synthesis, (context.withModel plan.definition).synthesize plan.definition = .ok synthesis ∧
      plan.submitted.filter Statement.isCreation = synthesis.statements := by
  have sound := sound_of_planWrite planned
  -- Counterparts on other models are given columns and nothing else.
  have others : (plan.edits.flatMap TargetEdit.columns).filter Statement.isCreation = [] := by
    refine List.filter_eq_nil_iff.mpr fun statement listed => ?_
    obtain ⟨edit, isEdit, isColumn⟩ := List.mem_flatMap.mp listed
    obtain ⟨before, known⟩ := Option.isSome_iff_exists.mp (sound.isSome_target isEdit)
    obtain ⟨⟨_, _, _, rfl, -⟩, -⟩ := adds_of_edit planned isEdit known isColumn
    exact Bool.false_ne_true
  obtain ⟨resolved, drops, synthesis, columns, edits, -, -, -, dropped, compiled, lacking, -,
    rfl⟩ := planWrite_eq_ok.mp planned
  refine ⟨synthesis, compiled, ?_⟩
  have declares := Context.declares_of_synthesize compiled
  -- Tables to drop are dropped, and columns added; what is left are the tables of the synthesis.
  have noDrops : drops.filter Statement.isCreation = [] := by
    refine List.filter_eq_nil_iff.mpr fun statement listed => ?_
    -- Each statement that drops was made for one of the tables to drop.
    obtain ⟨name, -, made⟩ := Outcome.exists_input_of_mapM_eq_ok dropped listed
    obtain ⟨_, rfl, -⟩ := of_dropTableOf made
    exact Bool.false_ne_true
  have noColumns : columns.filter Statement.isCreation = [] := by
    refine List.filter_eq_nil_iff.mpr fun statement listed => ?_
    cases old with
    -- A first version adds no columns.
    | none =>
      cases lacking
      cases listed
    | some record =>
      obtain ⟨⟨_, _, _, rfl, -⟩, -⟩ := (of_newColumns lacking).1 statement listed
      exact Bool.false_ne_true
  -- The table of the synthesis and its join tables are what is created.
  have table : synthesis.table.isCreation = true := by
    obtain ⟨_, _, same, -⟩ := declares.table
    rw [same]
    rfl
  have joins : synthesis.joinTables.filter Statement.isCreation = synthesis.joinTables := by
    refine List.filter_eq_self.mpr fun statement listed => ?_
    obtain ⟨⟨_, _, _, rfl, -⟩, -⟩ := declares.joins statement listed
    rfl
  simp only [submitted, List.filter_append, List.filter_cons, table, noDrops, noColumns, joins,
    others, reduceIte, List.nil_append, List.append_nil, List.cons_append, Synthesis.statements]

end WritePlan

namespace Registry

variable {σ : Type} {registry : Registry σ} {context : Context} {old : Option Record}
  {declared : Model} {plan : WritePlan} {known : Models}

/-- A preview validates, resolves and compiles. -/
theorem preview_eq (registry : Registry σ) (known : Models) (definition : Model) :
    registry.preview known definition = (do
      definition.validate registry.configuration.system known
      let resolved ← Context.resolve ⟨registry.configuration.system, known⟩
        (known.find? definition.name) definition
      let synthesis ← Context.synthesize
        (Context.withModel ⟨registry.configuration.system, known⟩ resolved) resolved
      return synthesis.statements) := rfl

/-- When a definition is planned, a preview among the same other models shows the tables that it
creates if it resolves the definition alike. -/
theorem preview_of_planned (planned : context.planWrite old declared = .ok plan)
    (system : registry.configuration.system = context.system)
    (same : ∀ name, name ≠ declared.name → known.find? name = context.known.find? name)
    (done : Context.resolve ⟨context.system, known⟩ (known.find? declared.name) declared =
      .ok plan.definition) :
    registry.preview known declared = .ok (plan.submitted.filter Statement.isCreation) := by
  -- Validation, resolution and compilation of the preview are those of the plan.
  obtain ⟨synthesis, compiled, created⟩ := WritePlan.exists_synthesis planned
  obtain ⟨distinct, resolved⟩ := WritePlan.resolve_of_planWrite planned
  have own : plan.definition.name = declared.name := Context.name_of_resolve distinct resolved
  obtain ⟨_, _, _, _, _, valid, -⟩ := WritePlan.planWrite_eq_ok.mp planned
  have finite := (Model.admitted_of_validate valid).finite
  -- Only the names of the known models matter to validation, and these are the same.
  have validAgain : declared.validate context.system known = .ok () := by
    rw [← valid]
    refine Model.validate_congr rfl rfl finite finite fun name differ => ?_
    rw [Roster.contains_eq, Roster.contains_eq, same name differ]
  -- Next to the definition itself the same models are known.
  have alike : Context.withModel ⟨context.system, known⟩ plan.definition =
      context.withModel plan.definition := by
    refine congrArg (Context.mk context.system) (Roster.eq_of_find? fun name => ?_)
    rw [Roster.find?_insert, Roster.find?_insert]
    -- Under the own name stands the new version, and under any other the same model.
    split
    · rfl
    · rename_i apart
      exact same name fun isOwn => apart (own.trans isOwn.symm)
  rw [preview_eq, system, created]
  refine Outcome.bind_eq_ok.mpr ⟨(), validAgain, Outcome.bind_eq_ok.mpr ⟨_, done, ?_⟩⟩
  rw [alike]
  exact Outcome.bind_eq_ok.mpr ⟨synthesis, compiled, rfl⟩

end Registry

/-! ## Commands -/

namespace Command

variable {configuration : Configuration} {files : Files} {file : String} {database : Database}
  {output : Json} {catalog : Catalog} {model : Model}

/-- A command that succeeds shows its result, and next to it the statements that were recorded. -/
theorem of_withRecorded {α : Type} {step : Step Database α} {json : α → Json}
    (shown : withRecorded step json database = .ok output) :
    ∃ value after, step database = (.ok value, after) ∧ (after.recorder.applied ≠ [] →
      output = .object [("result", json value),
        ("dryRun", .array (after.recorder.applied.map .string))]) := by
  unfold withRecorded at shown
  -- The output is made from the value, and only a recorder that is not empty gives a second part.
  cases ran : step database with
  | mk outcome after =>
    rw [ran] at shown
    cases outcome with
    | error error => cases shown
    | ok value =>
      refine ⟨value, after, rfl, fun recorded => ?_⟩
      have some : after.recorder.applied.isEmpty = false := by simpa using recorded
      simp only [some, Bool.false_eq_true, reduceIte] at shown
      exact (Except.ok.inj shown).symm

/-- A command to define that succeeds has planned the definition of its document, has executed the
statements of the plan, and shows these. -/
theorem of_define (holds : database.store = catalog.store)
    (defined : (Command.define file).run configuration files database = .ok output) :
    ∃ model plan record after, readModel files file = .ok model ∧
      (configuration.context catalog).planWrite (catalog.find? model.name)
        (configuration.declared model.name model.fields) = .ok plan ∧
      (Noted.registry ⟨Database.backend, configuration⟩).define model.name model.fields
        ⟨(Command.define file).rehearsalOf database, []⟩ = (.ok record, ⟨after, plan.submitted⟩) ∧
      output = .object [("result", recordJson record),
        ("dryRun", .array (plan.submitted.map fun statement => .string statement.sql))] := by
  obtain ⟨model, read, shown⟩ := Outcome.bind_eq_ok.mp defined
  obtain ⟨record, after, ran, isOutput⟩ := of_withRecorded shown
  let begun : Noted Database := ⟨(Command.define file).rehearsalOf database, []⟩
  have ran : (registryWith .recording configuration).write model.name model.fields false
      begun.state = (.ok record, after) := ran
  have begins : begun.state.store = catalog.store := holds
  -- The registry that takes notes runs as the other one does, and notes what it submits.
  obtain ⟨allowed, plan, planned, -, -⟩ := Registry.of_successful_write begins ran
  obtain ⟨notes, noted, -, submits⟩ :=
    Noted.write_run .recording configuration begins model.name model.fields false
  have isNotes : notes = plan.submitted := submits plan record
    ((Registry.preparedWrite_eq_ok configuration).mpr ⟨allowed, planned⟩) (by rw [ran])
  subst isNotes
  rw [ran] at noted
  -- The recorder begins empty, and so it shows what was submitted.
  have recorded : Noted.Recorded ⟨after, plan.submitted⟩ := by
    have kept := Noted.recorded_write configuration begins ⟨rfl, rfl⟩ model.name model.fields false
    rwa [noted] at kept
  refine ⟨model, plan, record, after, read, planned, noted, ?_⟩
  -- A plan creates at least the table of its model, so the recorder is not empty.
  have applied : after.recorder.applied = plan.submitted.map Statement.sql := recorded.2
  have builds : plan.submitted ≠ [] := fun none =>
    (WritePlan.fits_of_planWrite planned).1.builds (List.append_eq_nil_iff.mp none).1
  rw [isOutput (by simpa [applied] using builds), applied, List.map_map]
  rfl

/-- The command to preview shows the statements of the preview. -/
theorem preview_eq_ok (read : readModel files file = .ok model) {statements : List Statement}
    (previewed : (previewOf ⟨Database.backend, configuration⟩ model
      ((Command.preview file).rehearsalOf database)).1 = .ok statements) :
    (Command.preview file).run configuration files database =
      .ok (.array (statements.map statementJson)) := by
  -- The file is read first, and then the command runs on its own rehearsal.
  refine Outcome.bind_eq_ok.mpr ⟨model, read, ?_⟩
  show withResult (previewOf ⟨Database.backend, configuration⟩ model) _ _ = _
  rw [withResult, previewed]

/-- The command to preview shows what the registry does when the model itself is not known. -/
theorem preview_run (holds : database.store = catalog.store)
    (read : readModel files file = .ok model) {statements : List Statement}
    (previewed : (registryWith .recording configuration).preview
      (catalog.models.erase model.name) model = .ok statements) :
    (Command.preview file).run configuration files database =
      .ok (.array (statements.map statementJson)) := by
  -- The rehearsal begins with the records of the catalog, and reading them changes nothing.
  have begins : ((Command.preview file).rehearsalOf database).store = catalog.store := holds
  have known := (Registry.shows_database .recording configuration begins).knownModels
  refine preview_eq_ok read ?_
  show (previewOf (registryWith .recording configuration) model _).1 = _
  rw [previewOf, Step.bind_of_ok known, previewed]
  rfl

/-- Statements that are shown alike are about the same tables. -/
theorem tables_of_map_statementJson {one other : List Statement}
    (same : one.map statementJson = other.map statementJson) :
    one.map (fun statement => statement.table.text) =
      other.map fun statement => statement.table.text := by
  -- The two lists are taken apart together, and the table is one of the entries of each object.
  induction one generalizing other with
  -- Lists of different lengths are shown differently.
  | nil =>
    cases other with
    | nil => rfl
    | cons first rest => cases same
  | cons head tail ih =>
    cases other with
    | nil => cases same
    | cons first rest =>
      rw [List.map_cons, List.map_cons, List.cons.injEq] at same
      -- Each object has the name of the table for one of its members.
      obtain ⟨-, table, -⟩ : head.kind.label = first.kind.label ∧
          head.table.text = first.table.text ∧ head.sql = first.sql := by
        simpa [statementJson] using same.1
      rw [List.map_cons, List.map_cons, table, ih same.2]

end Command

namespace Reachable

variable {configuration : Configuration} {subjects : String → Prop} {database : Database}
  {files : Command.Files} {file : String} {output : Json}

/-- Where the command to define succeeds on a document, it shows what it has executed, and a preview
of the definition among all stored models shows the tables which that creates. The command to
preview shows the same when no audit fields are added and the model is not stored yet, or, as long
as no call was about a system model, when the document retraces the stored version. -/
theorem preview_of_define (reached : Reachable configuration subjects database)
    (defined : (Command.define file).run configuration files database = .ok output) :
    ∃ model record after executed, Command.readModel files file = .ok model ∧
      (Noted.registry ⟨Database.backend, configuration⟩).define model.name model.fields
        ⟨(Command.define file).rehearsalOf database, []⟩ = (.ok record, ⟨after, executed⟩) ∧
      output = .object [("result", Command.recordJson record),
        ("dryRun", .array (executed.map fun statement => .string statement.sql))] ∧
      (∃ known, Registry.knownModels ⟨Database.backend, configuration⟩ database =
          (.ok known, database) ∧
        (registryWith .recording configuration).preview known
          (configuration.declared model.name model.fields) =
            .ok (executed.filter Statement.isCreation)) ∧
      (configuration.declared model.name model.fields = model →
        (∀ stored, database.store.get model.name = .ok (some stored) →
          (∀ other, subjects other → configuration.system.contains other = false) ∧
            model.Retraces configuration.system stored.definition) →
        (Command.preview file).run configuration files database =
          .ok (.array ((executed.filter Statement.isCreation).map Command.statementJson))) := by
  obtain ⟨catalog, holds, -⟩ := reached.exists_catalog
  obtain ⟨model, plan, record, after, read, planned, ran, isOutput⟩ :=
    Command.of_define holds defined
  obtain ⟨-, resolved⟩ := WritePlan.resolve_of_planWrite planned
  have found : (configuration.context catalog).known.find? model.name =
      (catalog.find? model.name).map Record.definition := configuration.find?_context catalog _
  have previewed : (registryWith .recording configuration).preview catalog.models
      (configuration.declared model.name model.fields) =
        -- Planning began with the same models, so the preview resolves the definition alike.
        .ok (plan.submitted.filter Statement.isCreation) := by
    refine Registry.preview_of_planned planned rfl (fun _ _ => rfl) ?_
    rw [← resolved, ← found]
    rfl
  refine ⟨model, record, after, plan.submitted, read, ran, isOutput, ⟨catalog.models,
    (Registry.shows_database .recording configuration holds).knownModels, previewed⟩,
    fun whole retraces => Command.preview_run holds read ?_⟩
  -- What is left is the preview without the model, once its audit fields are those it had.
  rw [whole] at planned resolved previewed
  cases isStored : catalog.find? model.name with
  | none =>
    -- Where the model is not stored there is nothing to leave out.
    have missing : catalog.models.find? model.name = none := by
      rw [Catalog.find?_models, Catalog.definition?, isStored, Option.map_none]
    rw [Roster.erase_eq_self missing]
    exact previewed
  | some stored =>
    rw [isStored] at resolved found
    obtain ⟨systemless, retraces⟩ := retraces stored (by rw [holds, Catalog.get_store, isStored])
    have symmetric : Symmetric configuration.system catalog.models := by
      obtain ⟨other, otherHolds, -, symmetric⟩ := (reached.mono systemless).exists_symmetric
      rwa [Catalog.eq_of_store_eq (holds.symm.trans otherHolds)]
    -- The other models stay where they are when the model itself is left out.
    have others : ∀ name, name ≠ model.name →
        (catalog.models.erase model.name).find? name = catalog.models.find? name := by
      intro name differ
      rw [Roster.find?_erase, if_neg (Ne.symm differ)]
    refine Registry.preview_of_planned planned rfl others ?_
    rw [Roster.find?_erase, if_pos rfl]
    exact (@Context.resolve_of_retraces (configuration.context catalog)
      ⟨configuration.system, catalog.models.erase model.name⟩ _ _ symmetric found rfl others
      retraces).trans resolved

/-- A document that gives posts a many-to-many relation, and says only where it leads. -/
def postDocument (field target : String) : Command.Files := fun _ =>
  .ok ("\x7b\"collectionName\": \"Post\", \"fields\": [\x7b\"name\": \"" ++ field ++
    "\", \"type\": \"relation\", \"relation\": \"many-to-many\", \"target\": \"" ++ target ++
    "\"\x7d]\x7d")

/-- The definition of posts with a many-to-many relation, and a name for its join table. -/
def joining (field target table : String) : Call :=
  .change (.define "Post"
    [.ofRelation field { Relation.to .manyToMany target with joinTable := some table }])

/-- A state in which posts were defined with a join table for their tags. -/
def labelled : Database :=
  ((joining "tags" "Tag" "post_tags").run (registryWith .idle .standard) tagged).2

/-- Posts that were defined with a join table for their tags are defined without it, and previewed
so: the table is found on the tags. -/
theorem preview_of_define_labelled :
    Reachable .standard (Configuration.standard.system.contains · = false) labelled ∧
      (∃ output, (Command.define "post.json").run .standard (postDocument "tags" "Tag") labelled =
        .ok output) ∧
      ∃ record after executed, (Noted.registry ⟨Database.backend, .standard⟩).define "Post"
          [.ofRelation "tags" (.to .manyToMany "Tag")]
          ⟨(Command.define "post.json").rehearsalOf labelled, []⟩ =
            (.ok record, ⟨after, executed⟩) ∧
        (executed.filter Statement.isCreation).map (fun statement => statement.table.text) =
          ["Post", "post_tags"] ∧
        (Command.preview "post.json").run .standard (postDocument "tags" "Tag") labelled =
          .ok (.array ((executed.filter Statement.isCreation).map Command.statementJson)) := by
  -- The state is reached by two successful definitions.
  have reached : Reachable .standard (Configuration.standard.system.contains · = false)
      labelled := by
    refine of_success reached_tagged .idle (joining "tags" "Tag" "post_tags") ?_ (by decide +kernel)
    show Configuration.standard.system.contains "Post" = false
    decide +kernel
  -- The command is evaluated for its success, and the general statement says what it shows.
  obtain ⟨output, defined⟩ := Outcome.exists_of_isOk (show ((Command.define "post.json").run
    .standard (postDocument "tags" "Tag") labelled).isOk = true by decide +kernel)
  obtain ⟨model, record, after, executed, read, ran, -, -, previewed⟩ :=
    preview_of_define reached defined
  have isModel : Command.readModel (postDocument "tags" "Tag") "post.json" =
      .ok ⟨"Post", [.ofRelation "tags" (.to .manyToMany "Tag")]⟩ := by decide +kernel
  rw [isModel, Except.ok.injEq] at read
  subst read
  dsimp only at ran previewed
  -- The document retraces what is stored, which is decided for the stored record.
  have retraces : (labelled.store.get "Post").map (Option.map fun stored =>
      decide (Model.Retraces .standard ⟨"Post", [.ofRelation "tags" (.to .manyToMany "Tag")]⟩
        stored.definition)) = .ok (some true) := by decide +kernel
  have tables : (((Noted.registry ⟨Database.backend, .standard⟩).define "Post"
      [.ofRelation "tags" (.to .manyToMany "Tag")]
      ⟨(Command.define "post.json").rehearsalOf labelled, []⟩).2.statements.filter
        Statement.isCreation).map (fun statement => statement.table.text) =
          ["Post", "post_tags"] := by decide +kernel
  rw [ran] at tables
  refine ⟨reached, ⟨output, defined⟩, record, after, executed, ran, tables,
    previewed rfl fun stored found => ⟨fun _ inCatalog => inCatalog, ?_⟩⟩
  rw [found] at retraces
  exact of_decide_eq_true (Option.some.inj (Except.ok.inj retraces))

/-- A state in which posts were defined with a join table for their editors, who are users. -/
def edited : Database :=
  ((joining "editors" "User" "post_editors").run (registryWith .idle .standard)
    (.empty false 0)).2

/-- Posts that were defined with a join table for their editors are defined without it, and keep it,
but they are previewed with another one. -/
theorem preview_differs_edited :
    Reachable .standard (Configuration.standard.system.contains · = false) edited ∧
      ∃ record after executed, (Noted.registry ⟨Database.backend, .standard⟩).define "Post"
          [.ofRelation "editors" (.to .manyToMany "User")]
          ⟨(Command.define "post.json").rehearsalOf edited, []⟩ =
            (.ok record, ⟨after, executed⟩) ∧
        (Command.define "post.json").run .standard (postDocument "editors" "User") edited =
          .ok (.object [("result", Command.recordJson record),
            ("dryRun", .array (executed.map fun statement => .string statement.sql))]) ∧
        (executed.filter Statement.isCreation).map (fun statement => statement.table.text) =
          ["Post", "post_editors"] ∧
        (∃ shown : List Statement,
          shown.map (fun statement => statement.table.text) = ["Post", "Post_editors_User"] ∧
          (Command.preview "post.json").run .standard (postDocument "editors" "User") edited =
            .ok (.array (shown.map Command.statementJson))) ∧
        (Command.preview "post.json").run .standard (postDocument "editors" "User") edited ≠
          .ok (.array ((executed.filter Statement.isCreation).map Command.statementJson)) := by
  have reached : Reachable .standard (Configuration.standard.system.contains · = false)
      edited := by
    refine of_success (.empty false 0) .idle (joining "editors" "User" "post_editors") ?_
      (by decide +kernel)
    show Configuration.standard.system.contains "Post" = false
    decide +kernel
  -- The command succeeds, so that what it shows is known in general.
  obtain ⟨catalog, holds, -⟩ := reached.exists_catalog
  obtain ⟨output, defined⟩ := Outcome.exists_of_isOk (show ((Command.define "post.json").run
    .standard (postDocument "editors" "User") edited).isOk = true by decide +kernel)
  obtain ⟨model, plan, record, after, read, -, ran, rfl⟩ := Command.of_define holds defined
  have isModel : Command.readModel (postDocument "editors" "User") "post.json" =
      .ok ⟨"Post", [.ofRelation "editors" (.to .manyToMany "User")]⟩ := by decide +kernel
  rw [isModel, Except.ok.injEq] at read
  subst read
  dsimp only at ran
  -- The definition keeps the recorded table.
  have tables : (((Noted.registry ⟨Database.backend, .standard⟩).define "Post"
      [.ofRelation "editors" (.to .manyToMany "User")]
      ⟨(Command.define "post.json").rehearsalOf edited, []⟩).2.statements.filter
        Statement.isCreation).map (fun statement => statement.table.text) =
          ["Post", "post_editors"] := by decide +kernel
  rw [ran] at tables
  -- The preview is evaluated for its tables, which are not those that were created.
  obtain ⟨shown, previewed, others⟩ := Outcome.map_eq_ok.mp
    (show ((Command.previewOf ⟨Database.backend, .standard⟩
      ⟨"Post", [.ofRelation "editors" (.to .manyToMany "User")]⟩
      ((Command.preview "post.json").rehearsalOf edited)).1.map
        (List.map fun statement => statement.table.text)) =
          .ok ["Post", "Post_editors_User"] by decide +kernel)
  have shows := Command.preview_eq_ok isModel previewed
  refine ⟨reached, record, after, plan.submitted, ran, defined, tables, ⟨shown, others, shows⟩,
    fun same => ?_⟩
  -- Statements that are shown alike are about the same tables, and these are not.
  rw [shows, Except.ok.injEq, Json.array.injEq] at same
  have equal := Command.tables_of_map_statementJson same
  rw [others, tables] at equal
  exact absurd equal (by decide)

end Reachable

end ModelCatalog
