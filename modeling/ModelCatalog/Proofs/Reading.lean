import ModelCatalog.Document.Reader
import ModelCatalog.Proofs.Numbers
import ModelCatalog.Proofs.Outcome

/-! Documents read from texts: whatever a text holds, the numbers that are read from it are those
that JSON has. -/

namespace ModelCatalog

namespace Draft

mutual

/-- Every number in a draft is one that JSON has. -/
def Proper : Draft → Prop
  | number value => ∀ found, value = some found → found.Proper
  | array items _ => AreProper items
  | object members _ => HaveProper members
  | _ => True

/-- Every number in some items is one that JSON has. -/
def AreProper : List Draft → Prop
  | [] => True
  | item :: rest => item.Proper ∧ AreProper rest

/-- Every number in the values of some members is one that JSON has. -/
def HaveProper : List (Option String × Draft) → Prop
  | [] => True
  | (_, value) :: rest => value.Proper ∧ HaveProper rest

end

/-- Items have proper numbers when each of them does. -/
theorem areProper_iff {items : List Draft} : AreProper items ↔ ∀ item ∈ items, item.Proper := by
  -- The items are looked at one by one.
  induction items with
  | nil => simp [AreProper]
  | cons first rest ih => simp [AreProper, ih]

/-- What is scanned has proper numbers, a value as well as items and members. -/
theorem proper_scan (fuel : Nat) :
    (∀ characters, (scanValue fuel characters).1.Proper) ∧
      (∀ characters, AreProper (scanItems fuel characters).1) ∧
      ∀ characters, HaveProper (scanMembers fuel characters).1 := by
  -- A value scans its items and members with less fuel, and these scan values with less.
  induction fuel with
  | zero => exact ⟨fun _ => trivial, fun _ => trivial, fun _ => trivial⟩
  | succ fuel ih =>
    obtain ⟨value, items, members⟩ := ih
    refine ⟨fun characters => ?_, fun characters => ?_, fun characters => ?_⟩
    · -- Most values are no numbers, and one that is was made from a numeral.
      unfold scanValue
      split
      · trivial
      · trivial
      · trivial
      · split <;> trivial
      · split
        · trivial
        · exact items _
      · split
        · trivial
        · exact members _
      · split
        · exact fun found isNumber => Numeral.proper_value isNumber
        · trivial
    · -- Each item is a value, whether another one follows or not.
      unfold scanItems
      dsimp only
      split
      · exact ⟨value _, items _⟩
      · exact ⟨value _, trivial⟩
      · exact ⟨value _, trivial⟩
    · -- Each member has a value once its name and the colon have been read.
      unfold scanMembers
      dsimp only
      split
      · split
        · trivial
        · split
          · split
            · exact ⟨value _, members _⟩
            · exact ⟨value _, trivial⟩
            · exact ⟨value _, trivial⟩
          · exact ⟨trivial, trivial⟩
      · trivial

/-- A text is read as a draft with proper numbers. -/
theorem proper_ofText (text : String) : (ofText text).1.Proper := (proper_scan _).1 _

/-- A number that is the value of a draft is one that JSON has. -/
theorem proper_of_value? {draft : Draft} {depth : Nat} {number : JsonNumber}
    (proper : draft.Proper) (done : draft.value? depth = some (.number number)) :
    number.Proper := by
  -- Only a number has one for its value.
  cases draft with
  | number value =>
    have read : value.map Json.number = some (.number number) := by cases depth <;> exact done
    obtain ⟨found, isFound, same⟩ := Option.map_eq_some_iff.mp read
    exact Json.number.inj same ▸ proper found isFound
  -- An array has an array for its value, if it has one.
  | array items closed =>
    cases depth with
    | zero => cases done
    | succ depth =>
      obtain ⟨values, -, done⟩ := Option.bind_eq_some_iff.mp done
      split at done <;> cases done
  -- An object has an object for its value, if it has one.
  | object members closed =>
    cases depth with
    | zero => cases done
    | succ depth =>
      obtain ⟨values, -, done⟩ := Option.bind_eq_some_iff.mp done
      split at done <;> cases done
  -- A string has a string for its value.
  | string text =>
    have read : text.map Json.string = some (.number number) := by cases depth <;> exact done
    obtain ⟨found, -, same⟩ := Option.map_eq_some_iff.mp read
    cases same
  | _ => cases depth <;> cases done

end Draft

/-- The default of a field document is no number, or one that JSON has. -/
def FieldDocument.Proper (document : FieldDocument) : Prop :=
  ∀ number, document.default = some (.number number) → number.Proper

/-- The defaults of a model document are no numbers, or such that JSON has. -/
def ModelDocument.Proper (document : ModelDocument) : Prop :=
  ∀ field ∈ document.fields, field.Proper

namespace Reading

section Documents

variable {α : Type} {shape : Shape α} {keeps : α → Prop}

/-- What every attribute keeps that is read from proper numbers, a whole document keeps. -/
theorem keeps_readMembers
    (set : ∀ {key value document after}, value.Proper → keeps document →
      shape.set key value document = .ok after → keeps after)
    {closed : Bool} {members : List (Option String × Draft)} {seen : List String}
    {document after : α} (proper : Draft.HaveProper members) (before : keeps document)
    (done : readMembers shape closed seen document members = .ok after) : keeps after := by
  -- The members are read in order, each of them behind those that were seen.
  induction members generalizing seen document with
  | nil =>
    unfold readMembers at done
    split at done
    · cases done
    · split at done
      · cases done
      · exact Except.ok.inj done ▸ before
  | cons first rest ih =>
    obtain ⟨name, value⟩ := first
    cases name with
    -- A member without a name cannot be read.
    | none => cases done
    | some name =>
      unfold readMembers at done
      dsimp only at done
      split at done
      · -- The attribute is a known one, which must not come twice.
        obtain ⟨-, done⟩ := Outcome.unless_throw_eq_ok.mp done
        obtain ⟨next, isNext, done⟩ := Outcome.bind_eq_ok.mp done
        exact ih proper.2 (set proper.1 before isNext) done
      · -- An attribute that is not known is passed over where the shape allows it.
        split at done
        · exact ih proper.2 before done
        · cases done

/-- As above, for attributes that stand in the order of declaration. -/
theorem keeps_readItems
    (set : ∀ {key value document after}, value.Proper → keeps document →
      shape.set key value document = .ok after → keeps after)
    {closed : Bool} {items : List Draft} {attributes : List (String × Bool)} {count : Nat}
    {document after : α} (proper : Draft.AreProper items) (before : keeps document)
    (done : readItems shape closed count attributes document items = .ok after) : keeps after := by
  -- Items and attributes are walked side by side, and either may end before the other.
  induction items generalizing attributes count document with
  | nil =>
    cases attributes with
    -- Nothing is missing, and the array has to have ended.
    | nil =>
      unfold readItems at done
      split at done
      · exact Except.ok.inj done ▸ before
      · cases done
    -- What is missing must be optional.
    | cons next others =>
      unfold readItems at done
      split at done
      · cases done
      · split at done
        · cases done
        · exact Except.ok.inj done ▸ before
  | cons item items ih =>
    cases attributes with
    -- An item more than there are attributes is refused.
    | nil => cases done
    | cons next others =>
      unfold readItems at done
      obtain ⟨reached, isReached, done⟩ := Outcome.bind_eq_ok.mp done
      exact ih proper.2 (set proper.1 before isReached) done

/-- What the blank document has and every attribute keeps, a document has that is read. -/
theorem keeps_readDocument (blank : keeps shape.blank)
    (set : ∀ {key value document after}, value.Proper → keeps document →
      shape.set key value document = .ok after → keeps after)
    {draft : Draft} {document : α} (proper : draft.Proper)
    (done : readDocument shape draft = .ok document) : keeps document := by
  -- A document is written as members or as items, and nothing else is one.
  unfold readDocument at done
  split at done
  · exact keeps_readMembers set proper blank done
  · exact keeps_readItems set proper blank done
  · cases done

end Documents

/-- What is read of every item of an array, all items have. -/
theorem keeps_readList {α : Type} {read : Draft → Read α} {keeps : α → Prop} {draft : Draft}
    {values : List α} (each : ∀ {item value}, item.Proper → read item = .ok value → keeps value)
    (proper : draft.Proper) (done : readList read draft = .ok values) :
    ∀ value ∈ values, keeps value := by
  -- Only an array that is closed gives its values.
  unfold readList at done
  split at done
  · obtain ⟨found, isFound, done⟩ := Outcome.bind_eq_ok.mp done
    split at done
    · obtain rfl := Outcome.pure_eq_ok.mp done
      -- Each value was read from one of the items.
      intro value present
      obtain ⟨item, isItem, isValue⟩ := Outcome.exists_input_of_mapM_eq_ok isFound present
      exact each (Draft.areProper_iff.mp proper item isItem) isValue
    · cases done
  · cases done

/-- A number that is read as a default is one that JSON has. -/
theorem proper_of_readDefault {depth : Nat} {draft : Draft} {number : JsonNumber}
    (proper : draft.Proper)
    (done : readOptional (readValue depth) draft = .ok (some (.number number))) :
    number.Proper := by
  -- Where nothing is stated there is no number, and otherwise the value is that of the draft.
  unfold readOptional at done
  split at done
  · cases done
  · obtain ⟨value, isValue, same⟩ := Outcome.map_eq_ok.mp done
    obtain rfl := Option.some.inj same
    unfold readValue at isValue
    split at isValue
    · rename_i found isFound
      exact Draft.proper_of_value? proper (Except.ok.inj isValue ▸ isFound)
    · cases isValue

/-- Reading an attribute of a field keeps its default proper. -/
theorem proper_set {depth : Nat} {key : String} {value : Draft} {document after : FieldDocument}
    (proper : value.Proper) (before : document.Proper)
    (done : (fieldShape depth).set key value document = .ok after) : after.Proper := by
  unfold fieldShape at done
  dsimp only at done
  -- Every attribute but the default leaves the default as it is.
  split at done
  case h_7 =>
    obtain ⟨default, isDefault, done⟩ := Outcome.bind_eq_ok.mp done
    obtain rfl := Outcome.pure_eq_ok.mp done
    rintro number rfl
    exact proper_of_readDefault proper isDefault
  case h_15 => exact Outcome.pure_eq_ok.mp done ▸ before
  all_goals
    obtain ⟨_, -, done⟩ := Outcome.bind_eq_ok.mp done
    exact Outcome.pure_eq_ok.mp done ▸ before

/-- A field document that is read has a proper default. -/
theorem proper_readField {depth : Nat} {draft : Draft} {document : FieldDocument}
    (proper : draft.Proper) (done : readDocument (fieldShape depth) draft = .ok document) :
    document.Proper := by
  -- A document begins without a default, and each key sets one that was read from a proper draft.
  have blank : FieldDocument.Proper (fieldShape depth).blank := fun number none => by cases none
  exact keeps_readDocument blank proper_set proper done

/-- A model document that is read has proper defaults. -/
theorem proper_readModel {draft : Draft} {document : ModelDocument} (proper : draft.Proper)
    (done : readDocument modelShape draft = .ok document) : document.Proper := by
  have blank : ModelDocument.Proper modelShape.blank := fun field none => by cases none
  refine keeps_readDocument blank (fun {key value document after} proper before done => ?_)
    proper done
  unfold modelShape at done
  dsimp only at done
  -- Of the two attributes one brings the fields.
  split at done
  · obtain ⟨_, -, done⟩ := Outcome.bind_eq_ok.mp done
    exact Outcome.pure_eq_ok.mp done ▸ before
  · obtain ⟨fields, areRead, done⟩ := Outcome.bind_eq_ok.mp done
    obtain rfl := Outcome.pure_eq_ok.mp done
    exact keeps_readList proper_readField proper areRead
  · exact Outcome.pure_eq_ok.mp done ▸ before

end Reading

/-- A document that is read from a text has proper defaults. -/
theorem ModelDocument.proper_of_ofText {text : String} {document : ModelDocument}
    (done : ofText text = .ok document) : document.Proper := by
  -- What is read is a document of the draft, and nothing follows it in the text.
  unfold ofText at done
  cases read : Reading.readText? (Reading.readDocument Reading.modelShape) text with
  | error fault =>
    rw [read] at done
    cases done
  | ok found =>
    rw [read] at done
    obtain rfl := Except.ok.inj done
    obtain ⟨value, isValue, rest⟩ := Outcome.bind_eq_ok.mp read
    split at rest
    · exact Outcome.pure_eq_ok.mp rest ▸ Reading.proper_readModel (Draft.proper_ofText text) isValue
    · cases rest

end ModelCatalog
