import ModelCatalog.Proofs.Validation
import ModelCatalog.Sql.Statement

/-! Tokens of SQL: what stands outside of quotes, names in double quotes and literals in single
quotes. -/

namespace ModelCatalog

/-- A token of SQL. Outside of quotes every character counts by itself. -/
inductive Token where
  | plain (character : Char)
  /-- A text between double quotes. -/
  | name (text : String)
  /-- A text between single quotes. -/
  | literal (value : String)
  deriving DecidableEq

namespace Token

/-- The character opens and closes a text in quotes. -/
def isMark (character : Char) : Bool := character == '"' || character == '\''

/-- The token of a text between two marks. -/
def ofQuoted (mark : Char) (read : List Char) : Token :=
  if mark = '"' then name (String.ofList read) else literal (String.ofList read)

/-- Where a scanner of SQL stands. -/
inductive Mode where
  | outside
  /-- Behind a mark, with what has been read since. -/
  | inside (mark : Char) (read : List Char)
  /-- At a mark that ends the text in quotes, unless it follows once more. -/
  | closing (mark : Char) (read : List Char)

/-- The tokens of a text, unless it ends inside quotes. A mark that stands twice inside its own
quotes is part of the text there. -/
def scan : Mode → List Char → Option (List Token)
  | .outside, [] => some []
  | .inside _ _, [] => none
  | .closing mark read, [] => some [ofQuoted mark read]
  | .outside, character :: rest =>
    if isMark character then scan (.inside character []) rest
    else (scan .outside rest).map (plain character :: ·)
  | .inside mark read, character :: rest =>
    if character = mark then scan (.closing mark read) rest
    else scan (.inside mark (read ++ [character])) rest
  | .closing mark read, character :: rest =>
    if character = mark then scan (.inside mark (read ++ [mark])) rest
    else
      (if isMark character then scan (.inside character []) rest
      else (scan .outside rest).map (plain character :: ·)).map (ofQuoted mark read :: ·)

/-- The tokens of a piece of SQL, unless it ends inside quotes. -/
def ofSql (sql : String) : Option (List Token) := scan .outside sql.toList

/-- The name that a token is. -/
def name? : Token → Option String
  | name text => some text
  | _ => none

/-- The value of the literal that a token is. -/
def literal? : Token → Option String
  | literal value => some value
  | _ => none

/-- The token, with an empty text for any literal. -/
def redacted : Token → Token
  | literal _ => literal ""
  | other => other

/-- The characters of a text, each for itself. -/
def plains (text : String) : List Token := text.toList.map plain

/-- No character of the text opens or closes quotes. -/
def isUnmarked (text : String) : Bool := text.toList.all fun character => !isMark character

/-- The marks are the two kinds of quotes. -/
theorem eq_of_isMark {character : Char} (mark : isMark character = true) :
    character = '"' ∨ character = '\'' := by
  -- The test compares with these two characters.
  simpa [isMark] using mark

/-- Where no mark is allowed, what is allowed is no mark. -/
theorem isMark_eq_false {allowed : Char → Bool} (double : allowed '"' = false)
    (single : allowed '\'' = false) {character : Char} (isAllowed : allowed character = true) :
    isMark character = false := by
  -- A mark that is allowed would be one of the two quotes, and neither is.
  refine Bool.eq_false_iff.mpr fun mark => ?_
  rcases eq_of_isMark mark with rfl | rfl
  · exact Bool.false_ne_true (double.symm.trans isAllowed)
  · exact Bool.false_ne_true (single.symm.trans isAllowed)

/-- What follows does not begin with a mark. -/
def StartsPlain (rest : List Char) : Prop := ∀ character ∈ rest.head?, isMark character = false

/-- A text has these tokens in front of whatever follows it. -/
def Leads (text : String) (tokens : List Token) : Prop :=
  ∀ rest, scan .outside (text.toList ++ rest) = (scan .outside rest).map (tokens ++ ·)

/-- A text has these tokens in front of what does not begin with a mark. -/
def Reads (text : String) (tokens : List Token) : Prop :=
  ∀ rest, StartsPlain rest →
    scan .outside (text.toList ++ rest) = (scan .outside rest).map (tokens ++ ·)

section

variable {one other : String} {first second : List Token}

/-! ## Texts in a row -/

/-- A text that has its tokens in front of anything has them in front of this. -/
theorem Leads.reads (leads : Leads one first) : Reads one first := fun rest _ => leads rest

/-- A text alone has its tokens. -/
theorem Reads.ofSql_eq (reads : Reads one first) : ofSql one = some first := by
  -- The text is read in front of nothing, which begins plainly.
  have alone := reads [] (by simp [StartsPlain])
  rw [List.append_nil] at alone
  simp [ofSql, alone, scan]

/-- Texts in a row have their tokens in a row. -/
theorem Leads.append_reads (leads : Leads one first) (reads : Reads other second) :
    Reads (one ++ other) (first ++ second) := by
  intro rest apart
  -- The first text has its tokens in front of the second one, which has its own in front of the
  -- rest.
  rw [String.toList_append, List.append_assoc, leads, reads rest apart, Option.map_map]
  simp [Function.comp_def]

/-- Texts in a row, in front of anything, have their tokens in a row. -/
theorem Leads.append (leads : Leads one first) (later : Leads other second) :
    Leads (one ++ other) (first ++ second) := by
  intro rest
  -- The second text, with what follows it, is what follows the first.
  rw [String.toList_append, List.append_assoc, leads, later, Option.map_map]
  simp [Function.comp_def]

/-- The empty text has no tokens. -/
theorem leads_empty : Leads "" [] := by
  intro rest
  -- Nothing is scanned, so what follows is scanned from the start.
  simp

/-- A text without marks has its characters for tokens. -/
theorem leads_plains {text : String} (unmarked : isUnmarked text = true) :
    Leads text (plains text) := by
  intro rest
  rw [isUnmarked, List.all_eq_true] at unmarked
  rw [plains]
  generalize text.toList = characters at unmarked
  -- The scanner stays outside from one character to the next.
  induction characters with
  | nil => simp
  | cons character later ih =>
    have plain : isMark character = false := by simpa using unmarked character List.mem_cons_self
    have step := ih fun other listed => unmarked other (List.mem_cons_of_mem _ listed)
    rw [List.cons_append, scan, plain, if_neg Bool.false_ne_true, step, Option.map_map]
    rfl

/-- A text without marks that has a character ends what a mark may have closed before it. -/
theorem Reads.append_plains (reads : Reads one first) {text : String}
    (unmarked : isUnmarked text = true) (some_text : text ≠ "") :
    Leads (one ++ text) (first ++ plains text) := by
  intro rest
  have apart : StartsPlain (text.toList ++ rest) := by
    intro character head
    -- The text starts with one of its own characters, as it has one.
    rw [isUnmarked, List.all_eq_true] at unmarked
    cases written : text.toList with
    | nil => exact absurd (String.toList_eq_nil_iff.mp written) some_text
    | cons start later =>
      rw [written] at head unmarked
      obtain rfl : start = character := by simpa using head
      simpa using unmarked start List.mem_cons_self
  rw [String.toList_append, List.append_assoc, reads _ apart, leads_plains unmarked,
    Option.map_map]
  simp [Function.comp_def]

/-- Texts with a separator between them have their tokens with those of the separator between
them. -/
theorem reads_intercalate {separator : String} (unmarked : isUnmarked separator = true)
    (some_text : separator ≠ "") {texts : List String} {tokens : List (List Token)}
    (reads : List.Forall₂ Reads texts tokens) :
    Reads (separator.intercalate texts) ((plains separator).intercalate tokens) := by
  -- The induction is on the texts; the last has no separator behind it.
  induction reads with
  | nil => exact leads_empty.reads
  | cons head tail ih =>
    cases tail with
    | nil => simpa using head
    | cons next others =>
      -- The separator stands between the first text and the rest.
      rw [String.intercalate_cons_cons, List.intercalate_cons_cons]
      exact (head.append_plains unmarked some_text).append_reads ih

/-! ## Texts in quotes -/

/-- What follows the end of a text in quotes is scanned outside, unless it is the mark again. -/
theorem scan_closing {mark : Char} {rest : List Char} (isQuote : isMark mark = true)
    (apart : StartsPlain rest) (read : List Char) :
    scan (.closing mark read) rest = (scan .outside rest).map (ofQuoted mark read :: ·) := by
  -- At the end of the input the quote is closed.
  cases rest with
  | nil => rfl
  | cons character later =>
    -- What follows is no mark, so it is not the mark a second time.
    have plain : isMark character = false := apart character rfl
    have differ : character ≠ mark := by
      rintro rfl
      exact Bool.false_ne_true (plain.symm.trans isQuote)
    simp [scan, differ, plain]

/-- Where a scanner can stand: only marks open quotes. -/
def Mode.Quoted : Mode → Prop
  | .outside => True
  | .inside mark _ | .closing mark _ => isMark mark = true

/-- What is read to the end of a text is read so in front of what does not begin with a mark. -/
theorem scan_append {mode : Mode} {text rest : List Char} {tokens : List Token}
    (quoted : mode.Quoted) (done : scan mode text = some tokens) (apart : StartsPlain rest) :
    scan mode (text ++ rest) = (scan .outside rest).map (tokens ++ ·) := by
  -- The cases are those of the scanner, and only at the end of the text it is told apart from rest.
  fun_induction scan mode text generalizing tokens with
  | case1 =>
    cases done
    simp
  | case2 => cases done
  -- The text ends at a mark, and what follows it is no mark, so that the quotes are closed.
  | case3 mark read =>
    cases done
    exact scan_closing quoted apart read
  | case4 character later isQuote ih =>
    rw [List.cons_append, scan, if_pos isQuote]
    exact ih isQuote done
  | case5 character later plain ih =>
    obtain ⟨others, scanned, rfl⟩ := Option.map_eq_some_iff.mp done
    rw [List.cons_append, scan, if_neg plain, ih trivial scanned, Option.map_map]
    rfl
  | case6 read character later ih =>
    rw [List.cons_append, scan, if_pos rfl]
    exact ih quoted done
  | case7 mark read character later differ ih =>
    rw [List.cons_append, scan, if_neg differ]
    exact ih quoted done
  | case8 read character later ih =>
    rw [List.cons_append, scan, if_pos rfl]
    exact ih quoted done
  -- The mark has closed its quotes, and the character after it opens others or stands for itself.
  | case9 mark read character later differ ihQuoted ihPlain =>
    obtain ⟨others, scanned, rfl⟩ := Option.map_eq_some_iff.mp done
    rw [List.cons_append, scan, if_neg differ]
    split at scanned
    · rename_i isQuote
      rw [if_pos isQuote, ihQuoted isQuote scanned, Option.map_map]
      rfl
    · rename_i plain
      obtain ⟨tail, tailScanned, rfl⟩ := Option.map_eq_some_iff.mp scanned
      rw [if_neg plain, ihPlain trivial tailScanned, Option.map_map, Option.map_map]
      rfl

/-- A text that alone has some tokens has them in front of what does not begin with a mark. -/
theorem reads_of_ofSql {text : String} {tokens : List Token} (done : ofSql text = some tokens) :
    Reads text tokens := by
  intro rest apart
  -- Scanning starts outside of any quotes, and what follows leaves the last token as it is.
  have quoted : Mode.outside.Quoted := trivial
  exact scan_append quoted done apart

/-- A text with the marks in it written twice is read as it is. -/
theorem scan_inside {mark : Char} {rest : List Char} (isQuote : isMark mark = true)
    (apart : StartsPlain rest) (value read : List Char) :
    scan (.inside mark read) (value.flatMap (fun character =>
        if character = mark then [mark, mark] else [character]) ++ mark :: rest) =
      (scan .outside rest).map (ofQuoted mark (read ++ value) :: ·) := by
  -- The characters already read are the accumulator, so the induction leaves them open.
  induction value generalizing read with
  | nil => simp [scan, scan_closing isQuote apart]
  | cons character later ih =>
    -- The mark is read from two marks, and any other character from itself.
    by_cases here : character = mark
    · have twice := ih (read ++ [mark])
      simpa [scan, here, List.append_assoc] using twice
    · have once := ih (read ++ [character])
      simpa [scan, here, List.append_assoc] using once

/-- A string literal is read as its value. -/
theorem reads_quoteLiteral (value : String) : Reads (quoteLiteral value) [literal value] := by
  intro rest apart
  -- The quotes stand around the value, in which each quote is doubled.
  have written : (quoteLiteral value).toList ++ rest = '\'' :: (value.toList.flatMap
      (fun character => if character = '\'' then ['\'', '\''] else [character]) ++
        '\'' :: rest) := by
    simp [quoteLiteral]
  rw [written, scan, if_pos (by decide), scan_inside (by decide) apart]
  simp [ofQuoted]

/-- An identifier contains no marks. -/
theorem isUnmarked_identifier (identifier : Identifier) : isUnmarked identifier.text = true := by
  have valid := identifier.valid
  unfold isIdentifier at valid
  rw [isUnmarked]
  cases written : identifier.text.toList with
  | nil => rfl
  | cons first rest =>
    simp only [written, Bool.and_eq_true, List.all_eq_true] at valid
    obtain ⟨⟨opening, following⟩, -⟩ := valid
    -- No mark may open an identifier or follow in it.
    rw [List.all_cons, isMark_eq_false (by decide) (by decide) opening, List.all_eq_true.mpr]
    · rfl
    · intro character listed
      rw [isMark_eq_false (by decide) (by decide) (following character listed)]
      rfl

/-- An identifier in quotes is read as a name. -/
theorem reads_quoted (identifier : Identifier) :
    Reads identifier.quoted [name identifier.text] := by
  intro rest apart
  have unmarked := isUnmarked_identifier identifier
  rw [isUnmarked, List.all_eq_true] at unmarked
  -- There are no marks that would have to stand twice.
  have same : identifier.text.toList.flatMap
      (fun character => if character = '"' then ['"', '"'] else [character]) =
        identifier.text.toList := by
    have alone : ∀ character ∈ identifier.text.toList,
        (if character = '"' then ['"', '"'] else [character]) = [character] := by
      intro character listed
      rw [if_neg]
      rintro rfl
      exact absurd (unmarked _ listed) (by decide)
    rw [List.flatMap_def, List.map_congr_left alone, ← List.flatMap_def, List.flatMap_singleton']
  -- So the text stands between the marks as it is.
  have written : identifier.quoted.toList ++ rest = '"' :: (identifier.text.toList.flatMap
      (fun character => if character = '"' then ['"', '"'] else [character]) ++ '"' :: rest) := by
    simp [Identifier.quoted, same]
  rw [written, scan, if_pos (by decide), scan_inside (by decide) apart]
  simp [ofQuoted]

end

end Token

end ModelCatalog
