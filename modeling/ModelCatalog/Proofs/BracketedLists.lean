import ModelCatalog.Proofs.StatementTokens

/-! Lists in brackets: which texts stay within a part of such a list, and how the names that its
parts begin with are read. -/

namespace ModelCatalog

namespace Token

/-! ## Brackets -/

/-- How many brackets are open behind a token of a list, of how many before it, unless the token
ends its part of the list. -/
def depth? (depth : Nat) : Token → Option Nat
  | plain character =>
    if character = '(' then some (depth + 1)
    else if character = ')' then if depth = 0 then none else some (depth - 1)
    else if character = ',' ∧ depth = 0 then none
    else some depth
  | _ => some depth

/-- How many brackets are open behind some tokens, unless they reach beyond their part. -/
def level (depth : Nat) (tokens : List Token) : Option Nat := tokens.foldlM depth? depth

/-- The text stays within a part of a list: it closes its quotes and its brackets, and has no comma
outside of these. -/
def staysWithin (text : String) : Bool := (ofSql text).bind (level 0) == some 0

/-- The second of two lists of tokens starts at the level that the first one leads to. -/
theorem level_append (depth : Nat) (first second : List Token) :
    level depth (first ++ second) =
      (level depth first).bind fun middle => level middle second :=
  -- Levels are a fold that stops at a token that does not fit.
  List.foldlM_append

/-- Parts that keep the level keep it with a separator between them that does. -/
theorem level_intercalate {depth : Nat} {separator : List Token}
    (keeps : level depth separator = some depth) {parts : List (List Token)}
    (each : ∀ part ∈ parts, level depth part = some depth) :
    level depth (separator.intercalate parts) = some depth := by
  induction parts with
  | nil => rfl
  | cons first rest ih =>
    -- Behind its own tokens each part is at the level it began at, and so is the separator.
    have own := each first List.mem_cons_self
    cases rest with
    | nil => simpa using own
    | cons next others =>
      rw [List.intercalate_cons_cons, level_append, level_append, own, Option.bind_some, keeps,
        Option.bind_some]
      exact ih fun part later => each part (List.mem_cons_of_mem _ later)

/-- Numbers are written without brackets and commas. -/
theorem level_of_isNumeric {text : String} (numeric : isNumeric text = true) (depth : Nat) :
    level depth (plains text) = some depth := by
  rw [isNumeric, List.all_eq_true] at numeric
  rw [plains]
  generalize text.toList = characters at numeric
  induction characters with
  | nil => rfl
  | cons character rest ih =>
    -- Neither a bracket nor a comma may stand in a number.
    have other : ∀ mark : Char, isNumeral mark = false → character ≠ mark := by
      rintro mark refused rfl
      exact Bool.false_ne_true (refused.symm.trans (numeric _ List.mem_cons_self))
    -- Any other character leaves the level as it is.
    have stays : depth? depth (plain character) = some depth := by
      simp only [depth?, other '(' (by decide), other ')' (by decide), other ',' (by decide),
        if_false, false_and]
    show (depth? depth (plain character)).bind _ = _
    rw [stays]
    exact ih fun later listed => numeric later (List.mem_cons_of_mem _ listed)

/-! ## Readers -/

/-- Where a reader of the columns of a table stands. -/
inductive Site where
  /-- Ahead of the list. -/
  | ahead
  /-- Before a column, or before the end of the list. -/
  | before
  /-- In the declaration of a column, behind so many brackets that are open there. -/
  | within (depth : Nat)
  /-- Behind the list. -/
  | behind

/-- Where the reader stands behind a token, unless the token has no business there. -/
def Site.next : Site → Token → Option Site
  | ahead, token => some (if token = plain '(' then before else ahead)
  | before, name _ => some (within 0)
  | before, plain character =>
    if character = ' ' ∨ character = '\n' then some before
    else if character = ')' then some behind
    else none
  | before, literal _ => none
  | within depth, token =>
    match depth? depth token with
    | some inner => some (within inner)
    | none => some (if token = plain ',' then before else behind)
  | behind, _ => none

/-- The names in quotes that the declarations of a list of columns begin with, if each of them does
and the tokens end behind the list. -/
def declared? : Site → List Token → Option (List String)
  | .behind, [] => some []
  | _, [] => none
  | .before, name text :: rest => (declared? (.within 0) rest).map (text :: ·)
  | site, token :: rest => (site.next token).bind fun after => declared? after rest

/-- Ahead of the list everything but a bracket is passed over. -/
theorem declared?_ahead {tokens : List Token} (outside : plain '(' ∉ tokens) (rest : List Token) :
    declared? .ahead (tokens ++ plain '(' :: rest) = declared? .before rest := by
  induction tokens with
  | nil => rfl
  -- None of the tokens in front is the bracket, so the reader stays ahead.
  | cons token later ih =>
    rw [List.mem_cons, not_or] at outside
    rw [List.cons_append, declared?, Site.next, if_neg (Ne.symm outside.1)]
    · exact ih outside.2
    · exact nofun

/-- Within a declaration tokens are passed over. -/
theorem declared?_within {depth inner : Nat} {tokens : List Token}
    (leads : level depth tokens = some inner) (rest : List Token) :
    declared? (.within depth) (tokens ++ rest) = declared? (.within inner) rest := by
  -- The level is what the reader counts, and it never falls below that of the declaration.
  induction tokens generalizing depth with
  | nil =>
    cases leads
    rfl
  | cons token later ih =>
    obtain ⟨middle, step, after⟩ := Option.bind_eq_some_iff.mp leads
    rw [List.cons_append, declared?, Site.next, step]
    · exact ih after
    · exact nofun

/-- The declarations of a list are read as the names that they begin with. -/
theorem declared?_parts {names : List String} {parts : List (List Token)}
    (begin : List.Forall₂ (fun text part => ∃ tail, part = name text :: tail ∧
      level 0 tail = some 0) names parts) :
    declared? .before ((plains ",\n  ").intercalate parts ++ plains "\n)") = some names := by
  -- The induction is on the declarations: each is passed over, and what ends it is a comma or the
  -- end of the list.
  induction begin with
  | nil => rfl
  | @cons text part names parts head tail ih =>
    obtain ⟨later, rfl, stays⟩ := head
    cases parts with
    | nil =>
      cases tail
      rw [List.intercalate_singleton, List.cons_append, declared?, declared?_within stays]
      rfl
    | cons next others =>
      -- A comma outside of brackets ends the declaration, and blanks come before the next.
      rw [List.intercalate_cons_cons, List.append_assoc, List.append_assoc, List.cons_append,
        declared?, declared?_within stays]
      have between : ∀ rest, declared? (.within 0) (plains ",\n  " ++ rest) =
          declared? .before rest := fun rest => rfl
      rw [between, ih]
      rfl

/-- A text that stays within a part has tokens that do. -/
theorem exists_tokens_of_staysWithin {text : String} (stays : staysWithin text = true) :
    ∃ tokens, ofSql text = some tokens ∧ level 0 tokens = some 0 :=
  -- Staying within a part means that there are tokens and that they lead back to the outer level.
  Option.bind_eq_some_iff.mp (beq_iff_eq.mp stays)

/-- The types of scalar columns stay within a declaration. -/
theorem staysWithin_columnType (type : ScalarType) : staysWithin type.columnType = true := by
  -- The types are listed one by one.
  cases type <;> decide

end Token

end ModelCatalog
