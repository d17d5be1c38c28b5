import ModelCatalog.Proofs.Declarations
import ModelCatalog.Proofs.Roster

/-! The schema of a database: its tables and their columns, and what statements make of them. -/

namespace ModelCatalog

/-- A table of a database. -/
structure Table where
  name : String
  columns : NameSet

instance : Named Table := ⟨Table.name⟩

/-- The tables of a database, in order of name. -/
abbrev Schema := Roster Table

namespace Statement

/-- The statement creates a table of this name, unless there is one. -/
def Creates (statement : Statement) (name : String) : Prop :=
  match statement with
  | createTable table _ => table.text = name
  | createJoinTable table _ _ => table.text = name
  | _ => False

/-- The statement drops the table of this name. -/
def Drops (statement : Statement) (name : String) : Prop :=
  ∃ table, statement = dropTable table ∧ table.text = name

/-- The tables that a statement needs: the one it alters, and those it refers to. A table may refer
to itself in the statement that creates it. -/
def needs : Statement → List String
  | createTable table columns =>
    (columns.flatMap Column.references).filter fun name => name != table.text
  | createJoinTable table left right => (createJoinTable table left right).references
  | addColumn table column => table.text :: column.references
  | dropTable _ => []

variable {statement : Statement} {table column name : String}

/-- A statement that adds a column drops nothing. -/
theorem Adds.not_drops (adds : statement.Adds table column) : ¬statement.Drops name := by
  -- Adding a column is a statement of its own kind.
  obtain ⟨_, _, rfl, -⟩ := adds
  rintro ⟨_, same, -⟩
  cases same

/-- A statement that creates a table drops nothing. -/
theorem Creates.not_drops {other : String} (creates : statement.Creates other) :
    ¬statement.Drops name := by
  rintro ⟨_, rfl, -⟩
  -- To drop a table is no way to create one.
  exact creates

/-- A statement that drops a table creates nothing. -/
theorem Drops.not_creates {other : String} (drops : statement.Drops other) :
    ¬statement.Creates name :=
  -- A statement that drops and creates would be of two kinds.
  fun creates => creates.not_drops drops

end Statement

namespace Schema

/-- Create a table, unless there is one of its name. -/
def create (schema : Schema) (name : String) (columns : List String) : Schema :=
  if schema.contains name then schema else schema.insert ⟨name, Roster.ofList columns⟩

/-- Add a column to a table, if there is one of the name. -/
def addColumn (schema : Schema) (name column : String) : Schema :=
  match schema.find? name with
  | some table => schema.insert ⟨name, table.columns.insert column⟩
  | none => schema

/-- Carry out a statement. -/
def apply (schema : Schema) : Statement → Schema
  | .createTable table columns =>
    schema.create table.text (columns.map fun column => column.name.text)
  | .createJoinTable table left right => schema.create table.text [left.name.text, right.name.text]
  | .addColumn table column => schema.addColumn table.text column.name.text
  | .dropTable table => schema.erase table.text

/-- Carry out statements, one after the other. -/
def replay (schema : Schema) (statements : List Statement) : Schema := statements.foldl apply schema

/-- A table of the schema has a column. -/
def HasColumn (schema : Schema) (name column : String) : Prop :=
  ∃ table, schema.find? name = some table ∧ table.columns.contains column = true

/-- Each of the statements finds the tables it needs, apart from those of system models, when its
turn comes. -/
def Admits (system : SystemModels) (schema : Schema) (statements : List Statement) : Prop :=
  ∀ earlier statement later, statements = earlier ++ statement :: later →
    ∀ name ∈ statement.needs, system.contains name = false →
      (schema.replay earlier).contains name = true

variable {schema : Schema} {name table column : String} {statement : Statement}
  {statements : List Statement}

/-! ## One statement -/

/-- After a table was created there is one of its name, and there are the others. -/
theorem contains_create {columns : List String} :
    (schema.create name columns).contains table = true ↔
      name = table ∨ schema.contains table = true := by
  -- When there is a table of the name nothing happens, and otherwise one is filed under it.
  unfold create
  split
  · rename_i there
    constructor
    · exact Or.inr
    · rintro (rfl | other)
      · exact there
      · exact other
  · rw [Roster.contains_eq, Roster.contains_eq, Roster.find?_insert]
    have own : (Named.name (⟨name, Roster.ofList columns⟩ : Table) : String) = name := rfl
    rw [own]
    split <;> simp [*]

/-- Adding a column adds no table. -/
theorem contains_addColumn :
    (schema.addColumn name column).contains table = schema.contains table := by
  -- The altered table is filed under its old name.
  unfold addColumn
  split
  · rename_i found there
    have own : (Named.name (⟨name, found.columns.insert column⟩ : Table) : String) = name := rfl
    rw [Roster.contains_eq, Roster.contains_eq, Roster.find?_insert, own]
    split
    · rename_i same
      rw [← same, there]
      rfl
    · rfl
  · rfl

/-- After a statement there is a table when it was created, or when it was there and not dropped. -/
theorem contains_apply :
    (schema.apply statement).contains name = true ↔
      statement.Creates name ∨ schema.contains name = true ∧ ¬statement.Drops name := by
  -- Three of the four kinds drop nothing, and the fourth creates nothing.
  cases statement with
  | createTable table columns =>
    have kept : ¬(Statement.createTable table columns).Drops name :=
      Statement.Creates.not_drops (show Statement.Creates _ table.text from rfl)
    simp only [apply, contains_create, Statement.Creates, kept, not_false_eq_true, and_true]
  | createJoinTable table left right =>
    have kept : ¬(Statement.createJoinTable table left right).Drops name :=
      Statement.Creates.not_drops (show Statement.Creates _ table.text from rfl)
    simp only [apply, contains_create, Statement.Creates, kept, not_false_eq_true, and_true]
  | addColumn table column =>
    have kept : ¬(Statement.addColumn table column).Drops name :=
      Statement.Adds.not_drops ⟨table, column, rfl, rfl, rfl⟩
    simp only [apply, contains_addColumn, Statement.Creates, kept, not_false_eq_true, and_true,
      false_or]
  | dropTable table =>
    have drops : (Statement.dropTable table).Drops name ↔ table.text = name := by
      constructor
      · rintro ⟨_, same, named⟩
        cases same
        exact named
      · exact fun named => ⟨table, rfl, named⟩
    -- Only here a table goes, namely the one that is named.
    simp only [apply, Statement.Creates, false_or, drops]
    rw [Roster.contains_eq, Roster.contains_eq, Roster.find?_erase]
    split <;> simp [*]

/-- A column stays when a table is created. -/
theorem HasColumn.create (has : schema.HasColumn name column) (created : String)
    (columns : List String) : (schema.create created columns).HasColumn name column := by
  obtain ⟨found, there, held⟩ := has
  unfold Schema.create
  split
  · exact ⟨found, there, held⟩
  · -- A table that is there is not created anew.
    rename_i absent
    have apart : created ≠ name := by
      rintro rfl
      rw [Roster.contains_eq, there] at absent
      exact absent rfl
    exact ⟨found, (Roster.find?_insert_of_ne schema apart).trans there, held⟩

/-- A column stays when another one is added. -/
theorem HasColumn.addColumn (has : schema.HasColumn name column) (altered added : String) :
    (schema.addColumn altered added).HasColumn name column := by
  obtain ⟨found, there, held⟩ := has
  unfold Schema.addColumn
  split
  · rename_i target alteredThere
    by_cases same : altered = name
    · -- The table that is altered keeps its columns.
      rw [same, there, Option.some.injEq] at alteredThere
      subst alteredThere
      have stays : (found.columns.insert added).contains column = true :=
        (Roster.contains_insertAll found.columns [added] column).mpr (Or.inr held)
      refine ⟨⟨altered, found.columns.insert added⟩, ?_, stays⟩
      rw [Roster.find?_insert]
      exact if_pos same
    · exact ⟨found, (Roster.find?_insert_of_ne schema same).trans there, held⟩
  · exact ⟨found, there, held⟩

/-- A column stays unless its table is dropped. -/
theorem HasColumn.apply (has : schema.HasColumn name column) (kept : ¬statement.Drops name) :
    (schema.apply statement).HasColumn name column := by
  -- The other statements only add, and one that drops takes its own table alone.
  cases statement with
  | createTable table columns => exact has.create _ _
  | createJoinTable table left right => exact has.create _ _
  | addColumn table added => exact has.addColumn _ _
  | dropTable table =>
    obtain ⟨found, there, held⟩ := has
    refine ⟨found, ?_, held⟩
    show Roster.find? (Roster.erase table.text schema) name = some found
    rw [Roster.find?_erase, if_neg fun same => kept ⟨table, rfl, same⟩]
    exact there

/-- A column that is added to a table is there. -/
theorem hasColumn_of_adds (adds : statement.Adds name column)
    (there : schema.contains name = true) : (schema.apply statement).HasColumn name column := by
  obtain ⟨own, added, rfl, rfl, rfl⟩ := adds
  rw [Roster.contains_eq, Option.isSome_iff_exists] at there
  -- The table is filed again with the column among its others.
  obtain ⟨found, there⟩ := there
  have isAdded : (found.columns.insert added.name.text).contains added.name.text = true :=
    (Roster.contains_insertAll found.columns [added.name.text] _).mpr
      (Or.inl (List.mem_singleton.mpr rfl))
  refine ⟨⟨own.text, found.columns.insert added.name.text⟩, ?_, isAdded⟩
  show (schema.addColumn own.text added.name.text).find? own.text = _
  rw [addColumn, there]
  exact Roster.find?_insert_self schema _

/-- A table that was not there has the columns it is created with. -/
theorem hasColumn_of_create {own : Identifier} {columns : List Column} {added : Column}
    (listed : added ∈ columns) (absent : schema.contains own.text = false) :
    (schema.apply (.createTable own columns)).HasColumn own.text added.name.text := by
  -- The table is filed as it is declared, since there is none of its name.
  refine ⟨⟨own.text, Roster.ofList (columns.map fun column => column.name.text)⟩, ?_,
    (Roster.contains_ofList _ _).mpr (List.mem_map.mpr ⟨added, listed, rfl⟩)⟩
  show (schema.create own.text _).find? own.text = _
  rw [create, absent]
  exact Roster.find?_insert_self schema _

/-! ## Statements in order -/

/-- Statements carried out after others are carried out on what the others leave. -/
theorem replay_append (schema : Schema) (earlier later : List Statement) :
    schema.replay (earlier ++ later) = (schema.replay earlier).replay later :=
  -- Statements are carried out from the first to the last.
  List.foldl_append

/-- A table stays unless it is dropped. -/
theorem contains_replay (there : schema.contains name = true)
    (kept : ∀ statement ∈ statements, ¬statement.Drops name) :
    (schema.replay statements).contains name = true := by
  -- The schema changes with every statement, so the induction leaves it open.
  induction statements generalizing schema with
  | nil => exact there
  | cons first rest ih =>
    have next := contains_apply.mpr (Or.inr ⟨there, kept first List.mem_cons_self⟩)
    exact ih next fun statement listed => kept statement (List.mem_cons_of_mem _ listed)

/-- A table that is created is there unless it is dropped. -/
theorem contains_replay_of_creates (listed : statement ∈ statements)
    (creates : statement.Creates name)
    (kept : ∀ statement ∈ statements, ¬statement.Drops name) :
    (schema.replay statements).contains name = true := by
  -- Behind the statement that creates the table nothing takes it away.
  obtain ⟨earlier, later, rfl⟩ := List.append_of_mem listed
  rw [replay_append]
  have made : ((schema.replay earlier).apply statement).contains name = true :=
    contains_apply.mpr (Or.inl creates)
  show (((schema.replay earlier).apply statement).replay later).contains name = true
  exact contains_replay made fun other isLater =>
    kept other (List.mem_append_right _ (List.mem_cons_of_mem _ isLater))

/-- A table that is there in the end was there before and was not dropped, or it was created. -/
theorem of_contains_replay (there : (schema.replay statements).contains name = true) :
    (schema.contains name = true ∧ ∀ statement ∈ statements, ¬statement.Drops name) ∨
      ∃ statement ∈ statements, statement.Creates name := by
  -- Whatever the rest does not create was there behind the first statement.
  induction statements generalizing schema with
  | nil => exact Or.inl ⟨there, fun _ listed => by cases listed⟩
  | cons first rest ih =>
    rcases ih there with ⟨next, kept⟩ | ⟨statement, listed, creates⟩
    · rcases contains_apply.mp next with creates | ⟨before, keptFirst⟩
      · exact Or.inr ⟨first, List.mem_cons_self, creates⟩
      · exact Or.inl ⟨before, List.forall_mem_cons.mpr ⟨keptFirst, kept⟩⟩
    · exact Or.inr ⟨statement, List.mem_cons_of_mem _ listed, creates⟩

/-- A column stays unless its table is dropped. -/
theorem HasColumn.replay (has : schema.HasColumn name column)
    (kept : ∀ statement ∈ statements, ¬statement.Drops name) :
    (schema.replay statements).HasColumn name column := by
  -- Every statement leaves the column for the next.
  induction statements generalizing schema with
  | nil => exact has
  | cons first rest ih =>
    exact ih (has.apply (kept first List.mem_cons_self)) fun statement listed =>
      kept statement (List.mem_cons_of_mem _ listed)

/-- A column that is added to a table that stays is there in the end. -/
theorem hasColumn_replay_of_adds (there : schema.contains name = true)
    (listed : statement ∈ statements) (adds : statement.Adds name column)
    (kept : ∀ statement ∈ statements, ¬statement.Drops name) :
    (schema.replay statements).HasColumn name column := by
  -- The table is there when the turn of the statement comes, and it stays from then on.
  obtain ⟨earlier, later, rfl⟩ := List.append_of_mem listed
  rw [replay_append]
  have reached : (schema.replay earlier).contains name = true :=
    contains_replay there fun other isEarlier => kept other (List.mem_append_left _ isEarlier)
  show (((schema.replay earlier).apply statement).replay later).HasColumn name column
  exact (hasColumn_of_adds adds reached).replay fun other isLater =>
    kept other (List.mem_append_right _ (List.mem_cons_of_mem _ isLater))

/-! ## Tables that are needed -/

variable {system : SystemModels}

/-- Statements find what they need when the first of them do, and then the rest. -/
theorem Admits.append {first rest : List Statement} (admits : schema.Admits system first)
    (further : (schema.replay first).Admits system rest) :
    schema.Admits system (first ++ rest) := by
  -- A statement stands among the first, and has its turn there, or among the rest.
  intro earlier statement later split name needed outside
  rcases List.append_eq_append_iff.mp split with ⟨between, same, isRest⟩ | ⟨between, same, isLater⟩
  · -- The statement is one of the rest.
    rw [same, replay_append]
    exact further between statement later isRest name needed outside
  · cases between with
    | nil =>
      rw [List.append_nil] at same
      rw [← same]
      exact further [] statement later isLater.symm name needed outside
    | cons head tail =>
      cases isLater
      exact admits earlier statement tail same name needed outside

/-- Statements find what they need when it is there from the start and none of them drops it. -/
theorem admits_of_contains (there : ∀ statement ∈ statements, ∀ name ∈ statement.needs,
    system.contains name = false → schema.contains name = true ∧
      ∀ other ∈ statements, ¬other.Drops name) : schema.Admits system statements := by
  -- Only the statements before the one in question count, and none of those drops the table.
  rintro earlier statement later rfl name needed outside
  obtain ⟨before, kept⟩ := there statement (List.mem_append_right _ List.mem_cons_self) name needed
    outside
  exact contains_replay before fun other isEarlier => kept other (List.mem_append_left _ isEarlier)

end Schema

end ModelCatalog
