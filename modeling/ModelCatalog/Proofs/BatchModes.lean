import ModelCatalog.Execution.Recorder

/-! Batches in both modes: a recorder that applies a batch as a whole asks its rules what one asks
that applies the statements in turn, and differs only in what it keeps of a batch that fails. -/

namespace ModelCatalog

namespace FailureRule

/-- None of the rules concerns the statement. -/
def Pass (rules : List FailureRule) (sql : String) : Prop :=
  ∀ rule ∈ rules, rule.matchesSql sql = false

/-- The first of the rules that concerns the statement refuses it and is spent. -/
def Refuse (rules : List FailureRule) (sql : String) (cause : StatementFailure)
    (left : List FailureRule) : Prop :=
  ∃ earlier rule later, rules = earlier ++ rule :: later ∧ Pass earlier sql ∧
    rule.matchesSql sql = true ∧ cause = rule.failure ∧
    left = earlier ++ rule.spend.toList ++ later

variable {rules left : List FailureRule} {sql : String} {cause : StatementFailure}

/-! ## One statement -/

/-- A statement that no rule concerns uses none. -/
theorem fireRule_of_pass (pass : Pass rules sql) : fireRule sql rules = none := by
  -- Each rule is asked in turn, and each has nothing to do with the statement.
  induction rules with
  | nil => rfl
  | cons rule rest ih =>
    obtain ⟨head, tail⟩ := List.forall_mem_cons.mp pass
    simp [fireRule, head, ih tail]

/-- The rules in front of the first that concerns a statement stay as they are. -/
theorem fireRule_of_refuse (refuse : Refuse rules sql cause left) :
    fireRule sql rules = some (cause, left) := by
  obtain ⟨earlier, rule, later, rfl, pass, concerns, rfl, rfl⟩ := refuse
  -- The induction is on the rules that are passed over.
  induction earlier with
  | nil => simp [fireRule, concerns]
  | cons first rest ih =>
    obtain ⟨head, tail⟩ := List.forall_mem_cons.mp pass
    simp [fireRule, head, ih tail]

/-- Rules let a statement pass, or one of them is the first that concerns it. -/
theorem pass_or_refuse (rules : List FailureRule) (sql : String) :
    Pass rules sql ∨ ∃ cause left, Refuse rules sql cause left := by
  -- The first rule that concerns the statement is the one that is found.
  cases found : rules.find? fun rule => rule.matchesSql sql with
  | none => exact .inl fun rule listed => by simpa using List.find?_eq_none.mp found rule listed
  | some rule =>
    obtain ⟨concerns, earlier, later, rfl, pass⟩ := List.find?_eq_some_iff_append.mp found
    exact .inr ⟨rule.failure, _, earlier, rule, later, rfl,
      fun other listed => by simpa using pass other listed, concerns, rfl, rfl⟩

/-! ## A batch -/

/-- The rules let a batch pass, or there is a first statement that they refuse. -/
theorem pass_or_refuse_batch (rules : List FailureRule) (batch : List String) :
    (∀ sql ∈ batch, Pass rules sql) ∨ ∃ before sql after cause left,
      batch = before ++ sql :: after ∧ (∀ earlier ∈ before, Pass rules earlier) ∧
        Refuse rules sql cause left := by
  -- A statement that passes leaves the rules alone, so all statements meet the same ones.
  induction batch with
  | nil => exact .inl (by simp)
  | cons first rest ih =>
    rcases pass_or_refuse rules first with passes | ⟨cause, left, refused⟩
    · rcases ih with all | ⟨before, sql, after, cause, left, rfl, passed, refused⟩
      · exact .inl (List.forall_mem_cons.mpr ⟨passes, all⟩)
      · exact .inr ⟨first :: before, sql, after, cause, left, rfl,
          List.forall_mem_cons.mpr ⟨passes, passed⟩, refused⟩
    · exact .inr ⟨[], first, rest, cause, left, rfl, by simp, refused⟩

end FailureRule

open FailureRule

namespace Recorder

variable {rules left : List FailureRule} {before : List String} {sql : String}
  {cause : StatementFailure}

/-- Statements that pass are passed over, and the rules are asked about the next ones. -/
theorem consult_of_pass (passed : ∀ sql ∈ before, Pass rules sql) (start : Nat)
    (rest : List String) :
    consult start (before ++ rest) rules = consult (start + before.length) rest rules := by
  -- The position grows with every statement, so the induction leaves it open.
  induction before generalizing start with
  | nil => rfl
  | cons first others ih =>
    obtain ⟨head, tail⟩ := List.forall_mem_cons.mp passed
    simp only [List.cons_append, consult, fireRule_of_pass head, ih tail, List.length_cons]
    congr 1
    omega

/-- A batch that the rules let pass is applied in either mode. -/
theorem executeBatch_of_pass (recorder : Recorder)
    (passed : ∀ sql ∈ before, Pass recorder.rules sql) :
    recorder.executeBatch before =
      (.ok (), { recorder with applied := recorder.applied ++ before }) := by
  -- No statement uses a rule, so the rules are left as they were.
  have asked : consult 0 before recorder.rules = (none, recorder.rules) := by
    simpa [consult] using consult_of_pass passed 0 []
  simp only [executeBatch, asked]

/-- A batch fails at the first statement that is refused, and what is applied depends on the
mode. -/
theorem executeBatch_of_refuse (recorder : Recorder)
    (passed : ∀ sql ∈ before, Pass recorder.rules sql)
    (refused : Refuse recorder.rules sql cause left) (after : List String) :
    recorder.executeBatch (before ++ sql :: after) =
      (.error (.inBatch before.length cause), { recorder with
        applied := recorder.applied ++ if recorder.transactional then [] else before
        rules := left }) := by
  have asked : consult 0 (before ++ sql :: after) recorder.rules =
      (some (before.length, cause), left) := by
    simp [consult_of_pass passed, consult, fireRule_of_refuse refused]
  -- The prefix that is taken is all that stands before the position.
  cases mode : recorder.transactional <;> simp [executeBatch, asked, mode]

/-- Statements that pass are applied one after the other, and the next ones follow them. -/
theorem executeInOrder_of_pass (recorder : Recorder)
    (passed : ∀ sql ∈ before, Pass recorder.rules sql) (start : Nat) (rest : List String) :
    executeInOrder execute start (before ++ rest) recorder =
      executeInOrder execute (start + before.length) rest
        { recorder with applied := recorder.applied ++ before } := by
  -- A statement that is applied leaves the rules that the others are held against.
  induction before generalizing start recorder with
  | nil => simp
  | cons first others ih =>
    obtain ⟨head, tail⟩ := List.forall_mem_cons.mp passed
    have applied : execute first recorder =
        (.ok (), { recorder with applied := recorder.applied ++ [first] }) := by
      simp only [execute, fireRule_of_pass head]
    rw [List.cons_append, executeInOrder, applied]
    simp only [ih { recorder with applied := recorder.applied ++ [first] } tail,
      List.append_assoc, List.singleton_append, List.length_cons, Nat.add_comm,
      Nat.add_left_comm]

/-- Executed in order, statements are applied up to the first that is refused. -/
theorem executeInOrder_of_refuse (recorder : Recorder)
    (passed : ∀ sql ∈ before, Pass recorder.rules sql)
    (refused : Refuse recorder.rules sql cause left) (after : List String) :
    executeInOrder execute 0 (before ++ sql :: after) recorder =
      (.error (.inBatch before.length cause),
        { recorder with applied := recorder.applied ++ before, rules := left }) := by
  -- What stands in front is passed over, and then the next statement is the one refused.
  rw [executeInOrder_of_pass recorder passed]
  simp [executeInOrder, execute, fireRule_of_refuse refused]

/-- A transactional batch and a sequential one, on the same rules and after the same statements:
both are applied as a whole when no rule concerns a statement; otherwise both fail at the first
statement that is refused, for the same cause and with the same rules left, where one has applied
nothing and the other the statements before. A sequential batch is what the statements executed in
order come to. -/
theorem executeBatch_modes (applied : List String) (rules : List FailureRule)
    (batch : List String) :
    let sequential : Recorder := ⟨applied, rules, false⟩
    let transactional : Recorder := ⟨applied, rules, true⟩
    sequential.executeBatch batch = executeInOrder execute 0 batch sequential ∧
    ((transactional.executeBatch batch).1 = .ok () ↔ (sequential.executeBatch batch).1 = .ok ()) ∧
    ((∀ sql ∈ batch, Pass rules sql) ∧
        transactional.executeBatch batch = (.ok (), ⟨applied ++ batch, rules, true⟩) ∧
        sequential.executeBatch batch = (.ok (), ⟨applied ++ batch, rules, false⟩) ∨
      ∃ before sql after cause left, batch = before ++ sql :: after ∧
        (∀ earlier ∈ before, Pass rules earlier) ∧ Refuse rules sql cause left ∧
        transactional.executeBatch batch =
          (.error (.inBatch before.length cause), ⟨applied, left, true⟩) ∧
        sequential.executeBatch batch =
          (.error (.inBatch before.length cause), ⟨applied ++ before, left, false⟩)) := by
  intro sequential transactional
  rcases pass_or_refuse_batch rules batch with
    all | ⟨before, sql, after, cause, left, rfl, passed, refused⟩
  · -- Without a refusal every statement is applied, by both modes and by the statements in turn.
    have inOrder : executeInOrder execute 0 batch sequential =
        (.ok (), ⟨applied ++ batch, rules, false⟩) := by
      simpa [executeInOrder] using executeInOrder_of_pass sequential all 0 []
    have whole := transactional.executeBatch_of_pass all
    have inTurn := sequential.executeBatch_of_pass all
    refine ⟨inTurn.trans inOrder.symm, ?_, .inl ⟨all, whole, inTurn⟩⟩
    rw [whole, inTurn]
  · -- Both modes come to the statement that is refused with the rules that they began with.
    have inOrder := sequential.executeInOrder_of_refuse passed refused after
    have whole : transactional.executeBatch (before ++ sql :: after) =
        (.error (.inBatch before.length cause), ⟨applied, left, true⟩) := by
      simpa [transactional] using transactional.executeBatch_of_refuse passed refused after
    have inTurn := sequential.executeBatch_of_refuse passed refused after
    refine ⟨inTurn.trans inOrder.symm, ?_,
      .inr ⟨before, sql, after, cause, left, rfl, passed, refused, whole, inTurn⟩⟩
    rw [whole, inTurn]

/-- A rule that refuses for the last time is gone afterwards, and the next one that concerns the
statement stays as it was. -/
example : (executeBatch ["SELECT 1", "DROP Post"]
    ⟨[], [⟨"Post", .disconnected "reset", some 1⟩, ⟨"DROP", injected, none⟩], false⟩).2 =
    ⟨["SELECT 1"], [⟨"DROP", injected, none⟩], false⟩ := by
  decide +kernel

end Recorder

end ModelCatalog
