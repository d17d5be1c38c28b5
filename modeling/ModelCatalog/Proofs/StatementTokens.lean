import ModelCatalog.Proofs.Tokens

/-! Tokens of statements: the SQL of a statement is read as the names and the literals that its
columns declare, whatever these are. -/

namespace ModelCatalog

/-! ## Texts without marks, and numbers -/

namespace Token

/-- The character may stand in the written form of a number or of the lack of one. -/
def isNumeral (character : Char) : Bool :=
  character.isAlphanum || character == '-' || character == '+' || character == '.'

/-- All characters of the text may stand in the written form of a number. -/
def isNumeric (text : String) : Bool := text.toList.all isNumeral

/-- Numbers are written without marks. -/
theorem isUnmarked_of_isNumeric {text : String} (numeric : isNumeric text = true) :
    isUnmarked text = true := by
  -- No character of a number is one of the two kinds of quotes.
  rw [isNumeric, List.all_eq_true] at numeric
  rw [isUnmarked, List.all_eq_true]
  intro character listed
  rw [isMark_eq_false (by decide) (by decide) (numeric character listed)]
  rfl

/-- Texts in a row are numeric when both are. -/
@[simp] theorem isNumeric_append (one other : String) :
    isNumeric (one ++ other) = (isNumeric one && isNumeric other) := by
  -- A text is numeric when each of its characters is, on whichever side it stands.
  simp [isNumeric]

/-- A digit may stand in a number. -/
theorem isNumeral_of_isDigit {character : Char} (digit : character.isDigit = true) :
    isNumeral character = true := by
  -- Digits are among the letters and digits that a number may consist of.
  simp [isNumeral, Char.isAlphanum, digit]

/-- A text of digits is numeric. -/
theorem isNumeric_ofList_digits {characters : List Char}
    (digits : ∀ character ∈ characters, character.isDigit = true) :
    isNumeric (String.ofList characters) = true := by
  -- Each character of the text is one of the digits.
  rw [isNumeric, String.toList_ofList, List.all_eq_true]
  exact fun character listed => isNumeral_of_isDigit (digits character listed)

/-- The digits of a number are digits. -/
theorem isDigit_toDigits (number : Nat) :
    ∀ character ∈ Nat.toDigits 10 number, character.isDigit = true :=
  -- The digits are taken from a table that has nothing else.
  fun _ => Nat.isDigit_of_mem_toDigits (by decide) (by decide)

/-- A natural number is written as a numeric text. -/
theorem isNumeric_repr (number : Nat) : isNumeric number.repr = true := by
  -- The text of a number is the text of its digits.
  have digits := isNumeric_ofList_digits (isDigit_toDigits number)
  rwa [isNumeric, String.toList_ofList, ← Nat.toList_repr] at digits

/-- A whole number is written as a numeric text. -/
theorem isNumeric_toString (number : Int) : isNumeric (toString number) = true := by
  -- A negative number is a sign in front of a natural one.
  cases number with
  | ofNat magnitude => exact isNumeric_repr magnitude
  | negSucc magnitude =>
    have written : toString (Int.negSucc magnitude) = "-" ++ Nat.repr (magnitude + 1) := rfl
    rw [written, isNumeric_append, isNumeric_repr]
    rfl

variable {layout : NumberLayout}

/-- A decimal with all its places is written as a numeric text. -/
theorem isNumeric_writeOut (whole : isNumeric layout.wholeMark = true) (decimal : Decimal) :
    isNumeric (layout.writeOut decimal) = true := by
  have digits := isDigit_toDigits decimal.digits
  have zero : ('0' : Char).isDigit = true := by decide
  unfold NumberLayout.writeOut
  dsimp only
  -- Either zeros are added behind the digits, or the point stands somewhere among them.
  split
  · -- The zeros behind the digits of a whole number are digits as well.
    rw [isNumeric_append, whole, isNumeric_ofList_digits]
    · rfl
    · intro character listed
      rcases List.mem_append.mp listed with front | back
      · exact digits character front
      · exact List.eq_of_mem_replicate back ▸ zero
  · rename_i down _
    -- On both sides of the point there are digits, some of them zeros in front.
    have padded : ∀ character ∈ List.replicate (down + 1 + 1 -
        (Nat.toDigits 10 decimal.digits).length) '0' ++ Nat.toDigits 10 decimal.digits,
        character.isDigit = true := by
      intro character listed
      rcases List.mem_append.mp listed with front | back
      · exact List.eq_of_mem_replicate front ▸ zero
      · exact digits character back
    rw [isNumeric_append, isNumeric_append,
      isNumeric_ofList_digits fun character listed =>
        padded character (List.mem_of_mem_take listed),
      isNumeric_ofList_digits fun character listed =>
        padded character (List.mem_of_mem_drop listed)]
    decide

/-- A decimal with an exponent is written as a numeric text. -/
theorem isNumeric_writeExponent (leading : Int) {digits : List Char}
    (areDigits : ∀ character ∈ digits, character.isDigit = true) :
    isNumeric (NumberLayout.writeExponent leading digits) = true := by
  -- Each of the parts is numeric: the sign, the mantissa, the letter and the power.
  have sign : isNumeric (if 0 ≤ leading then "+" else "") = true := by
    split <;> decide
  have power : isNumeric "e" = true := by decide
  unfold NumberLayout.writeExponent
  dsimp only
  rw [isNumeric_append, isNumeric_append, isNumeric_append, sign, power, isNumeric_toString,
    Bool.and_true, Bool.and_true, Bool.and_true]
  -- The mantissa has a point behind the first digit when there are more of them.
  split
  · rename_i first second rest
    have opening := isNumeral_of_isDigit (areDigits first List.mem_cons_self)
    have following := isNumeric_ofList_digits fun character listed =>
      areDigits character (List.mem_cons_of_mem first listed)
    simpa [isNumeric, opening, show isNumeral '.' = true by decide] using following
  · -- A single digit has no point behind it.
    exact isNumeric_ofList_digits areDigits

/-- A number is written as a numeric text. -/
theorem isNumeric_write (whole : isNumeric layout.wholeMark = true) (number : Binary64) :
    isNumeric (layout.write number) = true := by
  -- A number that is none has a word of letters, and every other is a sign with one of the two
  -- forms.
  have sign : isNumeric (if number.isNegative then "-" else "") = true := by
    split <;> decide
  unfold NumberLayout.write
  dsimp only
  split
  · decide
  · split
    · rw [isNumeric_append, sign]
      decide
    · rw [isNumeric_append, sign, Bool.true_and]
      split
      · exact isNumeric_writeOut whole _
      · exact isNumeric_writeExponent _ (isDigit_toDigits _)

end Token

/-! ## Tokens of declarations -/

open Token

/-- The tokens of a default. -/
def DefaultValue.tokens : DefaultValue → List Token
  | text value => [.literal value]
  | other => plains other.sql

/-- The literals of a default. -/
def DefaultValue.literals : DefaultValue → List String
  | text value => [value]
  | _ => []

namespace Column

/-- The tokens of the name of a column. -/
def nameTokens (column : Column) : List Token :=
  if column.bare then plains column.name.text else [.name column.name.text]

/-- The tokens of a constraint on a column. -/
def constraintTokens (column : Column) : Constraint → List Token
  | .oneOf options =>
    plains "CHECK (" ++ column.nameTokens ++ plains " IN (" ++
      (plains ", ").intercalate (options.map fun option => [Token.literal option]) ++ plains "))"
  | .references table onDelete =>
    plains "REFERENCES " ++ [Token.name table.text] ++ plains "(" ++
      [Token.name idIdentifier.text] ++ plains ")" ++
      match onDelete with
      | some action => plains " ON DELETE " ++ plains action.sql
      | none => []
  | .default value => plains "DEFAULT " ++ value.tokens
  | other => plains (column.constraintSql other)

/-- The tokens of the declaration of a column. -/
def tokens (column : Column) : List Token :=
  (plains " ").intercalate
    (column.nameTokens :: plains column.type :: column.constraints.map column.constraintTokens)

/-- The tokens of the declaration of a column whose type is read as some tokens. -/
def tokensWith (column : Column) (type : List Token) : List Token :=
  (plains " ").intercalate
    (column.nameTokens :: type :: column.constraints.map column.constraintTokens)

end Column

/-- The literals of a constraint. -/
def Constraint.literals : Constraint → List String
  | oneOf options => options
  | default value => value.literals
  | _ => []

/-- The literals in the declaration of a column. -/
def Column.literals (column : Column) : List String :=
  column.constraints.flatMap Constraint.literals

namespace Statement

/-- The columns that a statement declares. -/
def columns : Statement → List Column
  | createTable _ columns => columns
  | createJoinTable _ left right => [left, right]
  | addColumn _ column => [column]
  | dropTable _ => []

/-- The tokens of a statement that creates a table, with those of its parts. -/
def creationTokens (table : Identifier) (parts : List (List Token)) : List Token :=
  plains "CREATE TABLE IF NOT EXISTS " ++ [Token.name table.text] ++ plains " (\n  " ++
    (plains ",\n  ").intercalate parts ++ plains "\n)"

/-- The tokens of a statement. -/
def tokens : Statement → List Token
  | createTable table columns => creationTokens table (columns.map Column.tokens)
  | createJoinTable table left right =>
    creationTokens table [left.tokens, right.tokens,
      plains "PRIMARY KEY (" ++ left.nameTokens ++ plains ", " ++ right.nameTokens ++ plains ")"]
  | addColumn table column =>
    plains "ALTER TABLE " ++ [Token.name table.text] ++ plains " ADD COLUMN IF NOT EXISTS " ++
      column.tokens
  | dropTable table =>
    plains "DROP TABLE IF EXISTS " ++ [Token.name table.text] ++ plains " CASCADE"

end Statement

/-! ## Reading declarations -/

/-- A default is read as its tokens. -/
theorem DefaultValue.reads (value : DefaultValue) : Reads value.sql value.tokens := by
  -- A text stands in quotes, and all other defaults are words and numbers without marks.
  cases value with
  | text value => exact reads_quoteLiteral value
  | now => exact (leads_plains (by decide)).reads
  | integer value => exact (leads_plains (isUnmarked_of_isNumeric (isNumeric_toString _))).reads
  | float value => exact (leads_plains (isUnmarked_of_isNumeric (isNumeric_write rfl value))).reads
  | boolean value => cases value <;> exact (leads_plains (by decide)).reads

namespace Column

variable {column : Column}

/-- The name of a column is read as its tokens. -/
theorem reads_nameSql (column : Column) : Reads column.nameSql column.nameTokens := by
  -- Bare or in quotes, the name is read whole.
  unfold nameSql nameTokens
  split
  · exact (leads_plains (isUnmarked_identifier _)).reads
  · exact reads_quoted _

/-- A constraint is read as its tokens. -/
theorem reads_constraintSql (column : Column) (constraint : Constraint) :
    Reads (column.constraintSql constraint) (column.constraintTokens constraint) := by
  -- Most constraints are words, and only options and references hold something in quotes.
  cases constraint with
  | primaryKey => exact (leads_plains (show isUnmarked "PRIMARY KEY" = true by decide)).reads
  | identity =>
    exact (leads_plains (show isUnmarked "GENERATED ALWAYS AS IDENTITY" = true by decide)).reads
  | unique => exact (leads_plains (show isUnmarked "UNIQUE" = true by decide)).reads
  | notNull => exact (leads_plains (show isUnmarked "NOT NULL" = true by decide)).reads
  | oneOf options =>
    have options : Reads (String.intercalate ", " (options.map quoteLiteral))
        ((plains ", ").intercalate (options.map fun option => [Token.literal option])) := by
      refine reads_intercalate (by decide) (by decide) ?_
      -- Each option is a literal of its own, and a comma stands between two of them.
      rw [List.forall₂_map_left_iff, List.forall₂_map_right_iff]
      exact List.forall₂_same.mpr fun option _ => reads_quoteLiteral option
    have opened : Leads ("CHECK (" ++ column.nameSql ++ " IN (")
        (plains "CHECK (" ++ column.nameTokens ++ plains " IN (") :=
      ((leads_plains (by decide)).append_reads column.reads_nameSql).append_plains (by decide)
        (by decide)
    exact ((opened.append_reads options).append_plains (by decide) (by decide)).reads
  | references table onDelete =>
    have referred : Leads ("REFERENCES " ++ table.quoted ++ "(" ++ idIdentifier.quoted ++ ")")
        (plains "REFERENCES " ++ [Token.name table.text] ++ plains "(" ++
          [Token.name idIdentifier.text] ++ plains ")") :=
      ((((leads_plains (by decide)).append_reads (reads_quoted table)).append_plains (by decide)
        (by decide)).append_reads (reads_quoted idIdentifier)).append_plains (by decide) (by decide)
    cases onDelete with
    | none => exact (referred.append leads_empty).reads
    | some action =>
      have follows : Leads (" ON DELETE " ++ action.sql)
          (plains " ON DELETE " ++ plains action.sql) :=
        (leads_plains (by decide)).append (leads_plains (by cases action <;> decide))
      exact (referred.append follows).reads
  -- The word comes first, and the value is read behind it.
  | default value => exact (leads_plains (by decide)).append_reads value.reads

/-- The declaration of a column is read as its tokens, with those that its type is read as. -/
theorem reads_tokensWith {type : List Token} (reads : Reads column.type type) :
    Reads column.sql (column.tokensWith type) := by
  -- Spaces separate the name, the type and the constraints, and are silent between them.
  refine reads_intercalate (by decide) (by decide) (.cons column.reads_nameSql (.cons reads ?_))
  rw [List.forall₂_map_left_iff, List.forall₂_map_right_iff]
  exact List.forall₂_same.mpr fun constraint _ => column.reads_constraintSql constraint

/-- The declaration of a column is read as its tokens. -/
theorem reads (unmarked : isUnmarked column.type = true) : Reads column.sql column.tokens :=
  -- What is left of the type is that it has no marks, so it is read as plain characters.
  reads_tokensWith (leads_plains unmarked).reads

end Column

namespace Statement

/-- A statement that creates a table is read as its tokens when its parts are. -/
theorem reads_creationSql (table : Identifier) {parts : List String} {tokens : List (List Token)}
    (reads : List.Forall₂ Reads parts tokens) :
    Reads (creationSql table parts) (creationTokens table tokens) := by
  -- What stands before the list ends outside of quotes, and so do the list and the bracket behind
  -- it.
  have opened : Leads ("CREATE TABLE IF NOT EXISTS " ++ table.quoted ++ " (\n  ")
      (plains "CREATE TABLE IF NOT EXISTS " ++ [Token.name table.text] ++ plains " (\n  ") :=
    ((leads_plains (by decide)).append_reads (reads_quoted table)).append_plains (by decide)
      (by decide)
  have listed := reads_intercalate (show isUnmarked ",\n  " = true by decide) (by decide) reads
  exact ((opened.append_reads listed).append_plains (by decide) (by decide)).reads

/-- A statement is read as its tokens. -/
theorem reads (statement : Statement)
    (unmarked : ∀ column ∈ statement.columns, isUnmarked column.type = true) :
    Reads statement.sql statement.tokens := by
  -- A statement is fixed words around a quoted table and the declarations of columns.
  cases statement with
  | createTable table columns =>
    refine reads_creationSql table ?_
    rw [List.forall₂_map_left_iff, List.forall₂_map_right_iff]
    exact List.forall₂_same.mpr fun column listed => column.reads (unmarked column listed)
  | createJoinTable table left right =>
    -- Behind the two columns stands the key, which names both of them.
    -- The key is two names between fixed words.
    have key : Leads ("PRIMARY KEY (" ++ left.nameSql ++ ", " ++ right.nameSql ++ ")")
        (plains "PRIMARY KEY (" ++ left.nameTokens ++ plains ", " ++ right.nameTokens ++
          plains ")") :=
      ((((leads_plains (by decide)).append_reads left.reads_nameSql).append_plains (by decide)
        (by decide)).append_reads right.reads_nameSql).append_plains (by decide) (by decide)
    exact reads_creationSql table (.cons (left.reads (unmarked left (by simp [columns])))
      (.cons (right.reads (unmarked right (by simp [columns]))) (.cons key.reads .nil)))
  | addColumn table column =>
    have opened : Leads ("ALTER TABLE " ++ table.quoted ++ " ADD COLUMN IF NOT EXISTS ")
        (plains "ALTER TABLE " ++ [Token.name table.text] ++
          plains " ADD COLUMN IF NOT EXISTS ") :=
      ((leads_plains (by decide)).append_reads (reads_quoted table)).append_plains (by decide)
        (by decide)
    exact opened.append_reads (column.reads (unmarked column (by simp [columns])))
  | dropTable table =>
    exact (((leads_plains (by decide)).append_reads (reads_quoted table)).append_plains (by decide)
      (by decide)).reads

end Statement

/-! ## Names and literals among the tokens -/

namespace Token

/-- What is gathered of parts with a silent separator between them is gathered part by part. -/
theorem filterMap_intercalate {α β : Type} {gather : α → Option β} {separator : List α}
    (silent : separator.filterMap gather = []) (parts : List (List α)) :
    (separator.intercalate parts).filterMap gather = parts.flatMap (List.filterMap gather) := by
  -- The separator only stands between two parts, so a single one is a case of its own.
  induction parts with
  | nil => simp
  | cons first rest ih =>
    cases rest with
    | nil => simp
    | cons next others =>
      rw [List.intercalate_cons_cons, List.filterMap_append, List.filterMap_append, silent, ih]
      simp

/-- A name is no literal. -/
@[simp] theorem literal?_name (text : String) : literal? (name text) = none := rfl

/-- A literal has its value. -/
@[simp] theorem literal?_literal (value : String) : literal? (literal value) = some value := rfl

/-- A name has its text. -/
@[simp] theorem name?_name (text : String) : name? (name text) = some text := rfl

/-- A literal is no name. -/
@[simp] theorem name?_literal (value : String) : name? (literal value) = none := rfl

/-- Characters outside of quotes are no literals. -/
@[simp] theorem filterMap_literal?_plains (text : String) :
    -- Every token of such a text is a plain one.
    (plains text).filterMap literal? = [] := by
  simp [plains, literal?]

/-- Characters outside of quotes are no names. -/
@[simp] theorem filterMap_name?_plains (text : String) : (plains text).filterMap name? = [] := by
  -- Every token of such a text is a plain one.
  simp [plains, name?]

end Token

/-- The literals among the tokens of a default are its own. -/
@[simp] theorem DefaultValue.literals_tokens (value : DefaultValue) :
    value.tokens.filterMap literal? = value.literals := by
  -- Only a text is written as a literal, and everything else as plain characters.
  cases value <;> simp [tokens, literals]

/-- There are no names among the tokens of a default. -/
@[simp] theorem DefaultValue.names_tokens (value : DefaultValue) :
    value.tokens.filterMap name? = [] := by
  -- A text is written as a literal, and everything else as plain characters.
  cases value <;> simp [tokens]

namespace Column

variable (column : Column)

/-- The name of a column is no literal. -/
@[simp] theorem literals_nameTokens : column.nameTokens.filterMap literal? = [] := by
  -- The name is a name token or plain characters, and neither is a literal.
  unfold nameTokens
  split <;> simp

/-- Where the name of a column stands in quotes it is an identifier. -/
theorem names_nameTokens :
    ∀ text ∈ column.nameTokens.filterMap name?, isIdentifier text = true := by
  -- A name that is not in quotes is written as plain characters, which hold no name token.
  unfold nameTokens
  split
  · simp
  · simpa using column.name.valid

/-- The literals among the tokens of a constraint are its own. -/
theorem literals_constraintTokens (constraint : Constraint) :
    (column.constraintTokens constraint).filterMap literal? = constraint.literals := by
  -- Only options and defaults have literals.
  cases constraint with
  | oneOf options =>
    simp [constraintTokens, Constraint.literals, filterMap_intercalate, List.flatMap_map]
  | references table onDelete =>
    cases onDelete <;> simp [constraintTokens, Constraint.literals, List.filterMap_cons]
  | default value => simp [constraintTokens, Constraint.literals]
  | _ => simp [constraintTokens, Constraint.literals]

/-- The names among the tokens of a constraint are identifiers. -/
theorem names_constraintTokens (constraint : Constraint) :
    ∀ text ∈ (column.constraintTokens constraint).filterMap name?, isIdentifier text = true := by
  -- The names are those of the column and of the table referred to.
  cases constraint with
  | oneOf options =>
    simpa [constraintTokens, filterMap_intercalate, List.flatMap_map] using
      column.names_nameTokens
  | references table onDelete =>
    have identifiers := And.intro table.valid idIdentifier.valid
    cases onDelete <;> simpa [constraintTokens, List.filterMap_cons] using identifiers
  | default value => simp [constraintTokens]
  | _ => simp [constraintTokens]

/-- The literals among the tokens of a column are those of its constraints. -/
theorem literals_tokens : column.tokens.filterMap literal? = column.literals := by
  -- Between the parts stand spaces only, and name and type hold no literals.
  rw [tokens, filterMap_intercalate (by simp)]
  simp [literals, List.flatMap_map, literals_constraintTokens]

/-- The names among the tokens of a column are identifiers. -/
theorem names_tokens : ∀ text ∈ column.tokens.filterMap name?, isIdentifier text = true := by
  -- A name can stand in front or in one of the constraints.
  rw [tokens, filterMap_intercalate (by simp)]
  simp only [List.flatMap_cons, List.flatMap_map, filterMap_name?_plains, List.nil_append,
    List.forall_mem_append]
  refine ⟨column.names_nameTokens, fun text listed => ?_⟩
  obtain ⟨constraint, -, named⟩ := List.mem_flatMap.mp listed
  exact column.names_constraintTokens constraint text named

end Column

namespace Statement

/-- The literals of a statement that creates a table are those of its parts. -/
theorem literals_creationTokens (table : Identifier) (parts : List (List Token)) :
    (creationTokens table parts).filterMap literal? = parts.flatMap (List.filterMap literal?) := by
  -- What is written around the parts holds no literals, and neither does the name of the table.
  simp [creationTokens, filterMap_intercalate, List.filterMap_cons]

/-- The names of a statement that creates a table are that of the table and those of its parts. -/
theorem names_creationTokens (table : Identifier) (parts : List (List Token)) :
    (creationTokens table parts).filterMap name? =
      table.text :: parts.flatMap (List.filterMap name?) := by
  -- Around the parts the table is the only name.
  simp [creationTokens, filterMap_intercalate]

/-- The literals among the tokens of a statement are those of its columns. -/
theorem literals_tokens (statement : Statement) :
    statement.tokens.filterMap literal? = statement.columns.flatMap Column.literals := by
  cases statement <;>
    -- The literals of each kind of statement are gathered part by part, and the words have none.
    simp [tokens, columns, literals_creationTokens, List.flatMap_map, List.filterMap_cons,
      Column.literals_tokens]

/-- The names among the tokens of a statement are identifiers. -/
theorem names_tokens (statement : Statement) :
    ∀ text ∈ statement.tokens.filterMap name?, isIdentifier text = true := by
  cases statement with
  -- The table is an identifier, and the other names come from the columns.
  | createTable table columns =>
    rw [tokens, names_creationTokens, List.flatMap_map, List.forall_mem_cons]
    refine ⟨table.valid, fun text listed => ?_⟩
    obtain ⟨column, -, named⟩ := List.mem_flatMap.mp listed
    exact column.names_tokens text named
  | createJoinTable table left right =>
    -- The key names the two columns once more.
    simp only [tokens, names_creationTokens, List.flatMap_cons, List.flatMap_nil, List.append_nil,
      List.filterMap_append, filterMap_name?_plains, List.nil_append, List.forall_mem_cons,
      List.forall_mem_append]
    exact ⟨table.valid, left.names_tokens, right.names_tokens, left.names_nameTokens,
      right.names_nameTokens⟩
  | addColumn table column =>
    simp only [tokens, List.filterMap_append, filterMap_name?_plains, List.nil_append,
      List.append_nil, List.forall_mem_append]
    -- The table is one name, and all others are names in the column.
    exact ⟨by simpa using table.valid, column.names_tokens⟩
  | dropTable table => simpa [tokens, List.filterMap_cons] using table.valid

end Statement

end ModelCatalog
