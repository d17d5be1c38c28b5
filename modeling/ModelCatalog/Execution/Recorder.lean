import ModelCatalog.Execution.Failure

/-! Execution on record: statements are noted down, and chosen ones are refused. -/

namespace ModelCatalog

/-- The pattern occurs somewhere in the text. -/
def occursIn (pattern : List Char) : List Char → Bool
  | [] => pattern.isEmpty
  | first :: rest => pattern.isPrefixOf (first :: rest) || occursIn pattern rest

/-- The pattern occurs somewhere in the text. -/
def textOccursIn (pattern text : String) : Bool := occursIn pattern.toList text.toList

/-- Statements that contain the pattern fail, as often as remains or without end. -/
structure FailureRule where
  pattern : String
  failure : StatementFailure
  remaining : Option Nat
  deriving DecidableEq, Repr

namespace FailureRule

/-- The rule concerns a statement. -/
def matchesSql (rule : FailureRule) (sql : String) : Bool := textOccursIn rule.pattern sql

/-- What is left of a rule after it was used once more. -/
def spend (rule : FailureRule) : Option FailureRule :=
  match rule.remaining with
  | none => some rule
  -- A rule with nothing left is used once and then is gone as well.
  | some left => if left ≤ 1 then none else some { rule with remaining := some (left - 1) }

end FailureRule

/-- Use the first rule that concerns a statement: its failure, and the rules that are left. -/
def fireRule (sql : String) : List FailureRule → Option (StatementFailure × List FailureRule)
  | [] => none
  | rule :: rest =>
    -- Only the rule that is used is changed, and the others keep their places.
    if rule.matchesSql sql then some (rule.failure, rule.spend.toList ++ rest)
    else (fireRule sql rest).map fun fired => (fired.1, rule :: fired.2)

/-- Run statements one after the other up to the first failure, whatever executes them. -/
def executeInOrder {State : Type}
    (execute : String → State → Except StatementFailure Unit × State) (index : Nat) :
    List String → State → Except StatementFailure Unit × State
  | [], state => (.ok (), state)
  | sql :: rest, state =>
    match execute sql state with
    | (.ok _, next) => executeInOrder execute (index + 1) rest next
    | (.error failure, next) => (.error (.inBatch index failure), next)

/-- An executor that notes down what it would run. -/
structure Recorder where
  /-- The SQL of every applied statement, in order. -/
  applied : List String
  rules : List FailureRule
  /-- A batch is applied as a whole or not at all. -/
  transactional : Bool
  deriving DecidableEq, Repr

namespace Recorder

/-- A recorder without statements and rules. -/
def new (transactional : Bool) : Recorder := ⟨[], [], transactional⟩

/-- Refuse the statements that a rule concerns. -/
def addRule (recorder : Recorder) (rule : FailureRule) : Recorder :=
  { recorder with rules := recorder.rules ++ [rule] }

/-- The failure of statements that are refused for no reason of their own. -/
def injected : StatementFailure := .rejected "injected failure" none

/-- Refuse every statement that contains the pattern. -/
def failWhenContains (recorder : Recorder) (pattern : String) : Recorder :=
  recorder.addRule ⟨pattern, injected, none⟩

/-- Forget all rules. -/
def clearRules (recorder : Recorder) : Recorder := { recorder with rules := [] }

/-- Forget all applied statements. -/
def clear (recorder : Recorder) : Recorder := { recorder with applied := [] }

/-- Some applied statement contains the pattern. -/
def saw (recorder : Recorder) (pattern : String) : Bool :=
  recorder.applied.any fun sql => textOccursIn pattern sql

/-- Apply one statement, unless a rule refuses it. -/
def execute (sql : String) (recorder : Recorder) : Except StatementFailure Unit × Recorder :=
  match fireRule sql recorder.rules with
  | some (failure, left) => (.error failure, { recorder with rules := left })
  | none => (.ok (), { recorder with applied := recorder.applied ++ [sql] })

/-- Ask the rules about statements in order: the position and the failure of the first that is
refused, and the rules that are left. -/
def consult (index : Nat) :
    List String → List FailureRule → Option (Nat × StatementFailure) × List FailureRule
  | [], rules => (none, rules)
  | sql :: rest, rules =>
    match fireRule sql rules with
    -- Later statements are not asked about, so their rules keep what they have.
    | some (failure, left) => (some (index, failure), left)
    | none => consult (index + 1) rest rules

/-- Apply a batch: all of it, or, when a statement is refused, the statements before that one;
a transactional recorder then applies none. -/
def executeBatch (batch : List String) (recorder : Recorder) :
    Except StatementFailure Unit × Recorder :=
  match consult 0 batch recorder.rules with
  | (none, rules) =>
    (.ok (), { recorder with applied := recorder.applied ++ batch, rules := rules })
  | (some (index, failure), rules) =>
    -- The rules that were used are spent in either mode.
    let applied :=
      if recorder.transactional then recorder.applied
      else recorder.applied ++ batch.take index
    (.error (.inBatch index failure), { recorder with applied := applied, rules := rules })

end Recorder

end ModelCatalog
