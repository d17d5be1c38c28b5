import ModelCatalog.Proofs.PlannedLiterals
import ModelCatalog.Proofs.RedactedRepair

/-! Sealed SQL: no text of a definition gets out of the quotes that it stands in, and none has a say
in what stands outside. -/

namespace ModelCatalog

/-! ## Single statements -/

/-- A statement is sealed. Its SQL ends outside of quotes; the names in it are identifiers; its
literals are those of its columns, which are those of the fields of a definition. -/
structure Statement.Sealed (definition : Model) (statement : Statement) : Prop where
  scanned : ∃ tokens, Token.ofSql statement.sql = some tokens ∧
    (∀ text, Token.name text ∈ tokens → isIdentifier text = true) ∧
    tokens.filterMap Token.literal? = statement.columns.flatMap Column.literals
  columns : ∀ column ∈ statement.columns,
    (Token.ofSql column.sql).map (List.filterMap Token.literal?) = some column.literals
  renders : statement.Renders definition

/-- Two statements are the same outside of their literals. -/
def Statement.SameOutside (one other : Statement) : Prop :=
  ∃ tokens others, Token.ofSql one.sql = some tokens ∧ Token.ofSql other.sql = some others ∧
    tokens.map Token.redacted = others.map Token.redacted

namespace Statement

/-- A statement that renders a definition is sealed. -/
theorem Renders.sealed {definition : Model} {statement : Statement}
    (renders : statement.Renders definition) : statement.Sealed definition where
  scanned := by
    -- Reading gives back the tokens that the statement was written from, and names and literals are
    -- read off these.
    refine ⟨statement.tokens, (statement.reads renders.isUnmarked).ofSql_eq, fun text listed => ?_,
      statement.literals_tokens⟩
    exact statement.names_tokens text (List.mem_filterMap.mpr ⟨_, listed, rfl⟩)
  columns := by
    intro column listed
    rw [(column.reads (renders.isUnmarked column listed)).ofSql_eq, Option.map_some,
      column.literals_tokens]
  renders := renders

/-- Statements that are the same but for texts are the same outside of their literals. -/
theorem sameOutside_of_redacted {definition other : Model} {one another : Statement}
    (renders : one.Renders definition) (rendersOther : another.Renders other)
    (same : one.redacted = another.redacted) : one.SameOutside another := by
  refine ⟨one.tokens, another.tokens, (one.reads renders.isUnmarked).ofSql_eq,
    (another.reads rendersOther.isUnmarked).ofSql_eq, ?_⟩
  -- Both are read back as their tokens, and redacted tokens are those of the redacted statement.
  rw [← tokens_redacted, ← tokens_redacted, same]

/-- Lists of statements that are the same but for texts are the same outside of their literals,
statement by statement. -/
theorem sameOutside_of_map_redacted {statements others : List Statement}
    (renders : ∀ statement ∈ statements, ∃ definition, statement.Renders definition)
    (rendersOther : ∀ statement ∈ others, ∃ definition, statement.Renders definition)
    (same : statements.map redacted = others.map redacted) :
    List.Forall₂ SameOutside statements others := by
  -- Equal lists are equally long, so the two are taken apart together.
  induction statements generalizing others with
  | nil =>
    rw [List.map_eq_nil_iff.mp same.symm]
    exact .nil
  | cons first rest ih =>
    cases others with
    -- One list cannot end before the other.
    | nil => cases same
    | cons second others =>
      rw [List.map_cons, List.map_cons, List.cons.injEq] at same
      -- The first statements are alike by the lemma about one statement, and the rest by induction.
      obtain ⟨definition, head⟩ := renders first List.mem_cons_self
      obtain ⟨other, headOther⟩ := rendersOther second List.mem_cons_self
      exact .cons (sameOutside_of_redacted head headOther same.1)
        (ih (fun statement later => renders statement (List.mem_cons_of_mem _ later))
          (fun statement later => rendersOther statement (List.mem_cons_of_mem _ later)) same.2)

end Statement

/-! ## What is planned -/

/-- What statements are planned for. -/
inductive PlanRequest where
  /-- The tables of a definition. -/
  | synthesis (definition : Model)
  /-- The first version of a model, or the next one. -/
  | write (old : Option Record) (definition : Model)
  | deletion (record : Record)
  | repair (records : List Record) (reapplying : Bool)

namespace PlanRequest

/-- The statements that are planned, in the order of execution. -/
def statements (context : Context) : PlanRequest → Except Error (List Statement)
  | synthesis definition => (context.synthesize definition).map Synthesis.statements
  | write old definition => (context.planWrite old definition).map WritePlan.submitted
  | deletion record => (DeletePlan.ofRecord context.known record).map DeletePlan.statements
  | repair records reapplying =>
    (RepairPlan.ofRecords context.system records reapplying).map RepairPlan.statements

/-- The definitions that are planned for. -/
def definitions : PlanRequest → List Model
  | synthesis definition => [definition]
  | write _ definition => [definition]
  | deletion record => [record.definition]
  | repair records _ => records.map Record.definition

/-- The request, with an empty text for every text. -/
def redacted : PlanRequest → PlanRequest
  | synthesis definition => synthesis definition.redacted
  | write old definition => write (old.map Record.redacted) definition.redacted
  | deletion record => deletion record.redacted
  | repair records reapplying => repair (records.map Record.redacted) reapplying

variable {context : Context} {request : PlanRequest} {statements : List Statement}

/-- Each planned statement renders a definition that shares its plain fields with one that is
planned for, or with one that is known. -/
theorem exists_renders (unmarked : Token.isUnmarked context.system.keyType = true)
    (planned : request.statements context = .ok statements) :
    ∀ statement ∈ statements, ∃ given ∈ request.definitions ++ context.known.members,
      ∃ definition : Model, definition.SharesPlain given ∧ statement.Renders definition := by
  -- Each request has a planner of its own, which was shown to render what it plans.
  cases request with
  -- What a definition is compiled to renders that definition.
  | synthesis definition =>
    obtain ⟨synthesis, done, rfl⟩ := Outcome.map_eq_ok.mp planned
    exact fun statement listed => ⟨definition, by simp [definitions], definition, ⟨rfl, rfl⟩,
      Context.renders_of_synthesize done unmarked statement listed⟩
  -- A write renders the new version, and the edited definitions of its targets.
  | write old definition =>
    obtain ⟨plan, done, rfl⟩ := Outcome.map_eq_ok.mp planned
    exact WritePlan.renders_of_planWrite done unmarked
  -- A deletion only drops.
  | deletion record =>
    obtain ⟨plan, done, rfl⟩ := Outcome.map_eq_ok.mp planned
    exact fun statement listed => ⟨record.definition, by simp [definitions], record.definition,
      ⟨rfl, rfl⟩, DeletePlan.renders_of_ofRecord done record.definition statement listed⟩
  -- A repair renders the definitions that it leaves.
  | repair records reapplying =>
    obtain ⟨plan, done, rfl⟩ := Outcome.map_eq_ok.mp planned
    intro statement listed
    obtain ⟨given, isGiven, rendered⟩ :=
      RepairPlan.renders_of_ofRecords done unmarked statement listed
    exact ⟨given, List.mem_append_left _ isGiven, rendered⟩

/-- Where everything is the same but for texts, and the options of choices differ, the same
statements are planned but for texts. -/
theorem exists_statements_of_redacted {other : Context} {later : PlanRequest}
    (sameContext : context.redacted = other.redacted) (same : request.redacted = later.redacted)
    (distinct : ∀ definition ∈ later.definitions, definition.DistinctOptions)
    (planned : request.statements context = .ok statements) :
    ∃ again, later.statements other = .ok again ∧
      again.map Statement.redacted = statements.map Statement.redacted := by
  obtain ⟨systems, knownSame⟩ := Context.redacted_eq_iff.mp sameContext
  -- The later request is one of the same kind.
  cases request <;> cases later <;>
    simp only [redacted, reduceCtorEq, synthesis.injEq, write.injEq, deletion.injEq,
      repair.injEq] at same
  -- The two definitions compile to statements that are the same but for texts.
  case synthesis.synthesis definition twin =>
    obtain ⟨synthesis, done, rfl⟩ := Outcome.map_eq_ok.mp planned
    obtain ⟨again, doneAgain, alike⟩ := Context.exists_synthesize_of_redacted same sameContext
      (distinct twin List.mem_cons_self) done
    have statements_redacted : ∀ synthesis : Synthesis,
        synthesis.statements.map Statement.redacted = synthesis.redacted.statements :=
      fun _ => rfl
    refine ⟨again.statements, Outcome.map_eq_ok.mpr ⟨again, doneAgain, rfl⟩, ?_⟩
    rw [statements_redacted, statements_redacted, alike]
  -- The two plans hold statements that are the same but for texts.
  case write.write old definition older twin =>
    obtain ⟨plan, done, rfl⟩ := Outcome.map_eq_ok.mp planned
    obtain ⟨again, doneAgain, alike⟩ := Context.exists_planWrite_of_redacted sameContext same.1
      same.2 (distinct twin List.mem_cons_self) done
    exact ⟨again.submitted, Outcome.map_eq_ok.mpr ⟨again, doneAgain, rfl⟩, alike⟩
  -- A deletion reads no texts, so that the plan is the very same.
  case deletion.deletion record twin =>
    refine ⟨statements, ?_, rfl⟩
    simp only [PlanRequest.statements] at planned ⊢
    rw [← planned, ← DeletePlan.ofRecord_redacted, ← DeletePlan.ofRecord_redacted context.known,
      same, knownSame]
  -- Repairs of records that are the same but for texts go side by side.
  case repair.repair records reapplying others _ =>
    obtain ⟨sameRecords, rfl⟩ := same
    obtain ⟨plan, done, rfl⟩ := Outcome.map_eq_ok.mp planned
    obtain ⟨again, doneAgain, alike⟩ := RepairPlan.exists_ofRecords_of_redacted sameRecords
      (fun record listed => distinct record.definition (List.mem_map_of_mem listed)) done
    rw [systems] at doneAgain
    exact ⟨again.statements, Outcome.map_eq_ok.mpr ⟨again, doneAgain, rfl⟩, alike⟩

/-- Planned statements are sealed. What is planned when only texts are replaced, while the options
of choices still differ, is the same outside of its literals. -/
theorem sealed_of_planned (unmarked : Token.isUnmarked context.system.keyType = true)
    (planned : request.statements context = .ok statements) :
    (∀ statement ∈ statements, ∃ given ∈ request.definitions ++ context.known.members,
      ∃ definition : Model, definition.SharesPlain given ∧ statement.Sealed definition) ∧
    ∀ (other : Context) (later : PlanRequest), context.redacted = other.redacted →
      request.redacted = later.redacted →
      (∀ definition ∈ later.definitions, definition.DistinctOptions) →
      ∃ again, later.statements other = .ok again ∧
        List.Forall₂ Statement.SameOutside statements again := by
  -- What is planned renders definitions on both sides, and that is all that sealing and reading
  -- need.
  have rendered := exists_renders unmarked planned
  constructor
  · intro statement listed
    obtain ⟨given, isGiven, definition, plain, renders⟩ := rendered statement listed
    exact ⟨given, isGiven, definition, plain, renders.sealed⟩
  · intro other later sameContext same distinct
    obtain ⟨again, plannedAgain, alike⟩ :=
      exists_statements_of_redacted sameContext same distinct planned
    have sameSystem := (Context.redacted_eq_iff.mp sameContext).1
    have renderedAgain := exists_renders (sameSystem ▸ unmarked) plannedAgain
    refine ⟨again, plannedAgain, Statement.sameOutside_of_map_redacted ?_ ?_ alike.symm⟩
    · intro statement listed
      obtain ⟨_, -, definition, -, renders⟩ := rendered statement listed
      exact ⟨definition, renders⟩
    · intro statement listed
      obtain ⟨_, -, definition, -, renders⟩ := renderedAgain statement listed
      exact ⟨definition, renders⟩

/-- A definition of reviews in one of two states, with a title. -/
def reviews (options : List String) (state title : String) : Model where
  name := "Review"
  fields :=
    [(Field.ofKind "state" (.choice options)).withDefault (.text state),
      (Field.ofScalar "title" .text).withDefault (.text title)]

/-- No other models are known. -/
def alone : Context := ⟨.standard, ∅⟩

/-- Reviews are planned whatever quotes stand in their texts, and alike with other texts. -/
theorem sealed_of_planned_reviews :
    Token.isUnmarked alone.system.keyType = true ∧
    ∃ statements, (write none (reviews ["it's", "\"new\""] "it's" "'; DROP")).statements alone =
        .ok statements ∧
      statements.map Statement.sql =
        ["CREATE TABLE IF NOT EXISTS \"Review\" (\n" ++
          "  \"id\" INT PRIMARY KEY GENERATED ALWAYS AS IDENTITY,\n" ++
          "  \"state\" VARCHAR(255) CHECK (\"state\" IN ('it''s', '\"new\"')) DEFAULT 'it''s',\n" ++
          "  \"title\" VARCHAR(255) DEFAULT '''; DROP'\n)"] ∧
      (∀ statement ∈ statements, ∃ given ∈
          [reviews ["it's", "\"new\""] "it's" "'; DROP"] ++ alone.known.members,
        ∃ definition : Model, definition.SharesPlain given ∧ statement.Sealed definition) ∧
      ∃ again, (write none (reviews ["old", "new"] "old" "")).statements alone = .ok again ∧
        List.Forall₂ Statement.SameOutside statements again := by
  -- The plan is evaluated once, for its SQL; the rest is the general statement.
  have unmarked : Token.isUnmarked alone.system.keyType = true := by decide
  have evaluated :
      ((write none (reviews ["it's", "\"new\""] "it's" "'; DROP")).statements alone).map
      (List.map Statement.sql) = .ok
        ["CREATE TABLE IF NOT EXISTS \"Review\" (\n" ++
          "  \"id\" INT PRIMARY KEY GENERATED ALWAYS AS IDENTITY,\n" ++
          "  \"state\" VARCHAR(255) CHECK (\"state\" IN ('it''s', '\"new\"')) DEFAULT 'it''s',\n" ++
          "  \"title\" VARCHAR(255) DEFAULT '''; DROP'\n)"] := by
    decide +kernel
  obtain ⟨statements, planned, texts⟩ := Outcome.map_eq_ok.mp evaluated
  obtain ⟨safe, alike⟩ := sealed_of_planned unmarked planned
  refine ⟨unmarked, statements, planned, texts, safe, alike alone _ rfl rfl ?_⟩
  -- The options that come in the stead of the first differ as well.
  intro definition listed field present options kind
  obtain rfl := List.mem_singleton.mp listed
  rcases List.mem_cons.mp present with rfl | other
  · cases kind
    decide
  · obtain rfl := List.mem_singleton.mp other
    cases kind

end PlanRequest

end ModelCatalog
