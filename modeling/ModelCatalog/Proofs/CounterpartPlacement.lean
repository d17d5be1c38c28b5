import ModelCatalog.Proofs.Counterpart

/-! Where a counterpart is put, what it takes over from the field that was there, and that it can
be put there again or taken away without touching anything else. -/

namespace ModelCatalog

namespace Field

variable {desired existing : Field} {new old : Relation}

/-- A counterpart is required when the field was whose place it takes. -/
@[simp] theorem required_mergeInto : (desired.mergeInto existing).required = existing.required :=
  rfl

/-- A counterpart is unique when the field was whose place it takes. -/
@[simp] theorem unique_mergeInto : (desired.mergeInto existing).unique = existing.unique := rfl

/-- A relation that is brought up to date keeps the attributes of its column. -/
theorem relation?_mergeInto_relation (related : desired.relation? = some new)
    (wasRelated : existing.relation? = some old) :
    (desired.mergeInto existing).relation? = some { new with
      foreignKey := if new.kind.hasColumn then old.foreignKey else new.foreignKey
      onDelete := old.onDelete } := by
  -- Both fields are relations, so the old one gives the attributes and the new one the rest.
  rw [relation?_eq_some] at related wasRelated
  simp only [relation?, mergeInto, related, wasRelated]

/-- What is removed as a counterpart pairs with the same field. -/
theorem pairsWith_of_isRemovedWith {field : Field} {source fieldName name : String}
    (removed : field.isRemovedWith source fieldName name = true) :
    field.pairsWith source fieldName name = true := by
  have leads := targets_of_isRemovedWith removed
  obtain ⟨relation, related, faces⟩ := targets_iff.mp leads
  simp only [isRemovedWith, related, Bool.and_eq_true, Bool.or_eq_true, beq_iff_eq] at removed
  refine pairsWith_iff.mpr ⟨leads, ?_⟩
  -- It bears the inverse name, or it has none and bears the name.
  rcases removed.2 with inverse | ⟨named, -⟩
  · exact Or.inr (invertsTo_iff.mpr ⟨relation, related, faces, inverse⟩)
  · exact Or.inl named

end Field

namespace Model

variable {target : Model} {source fieldName : String} {desired : Field} {relation : Relation}

/-! ## The place of a counterpart -/

/-- The field found as a counterpart has its place taken, and the others that pair are left out. -/
theorem upsertCounterpart_of_found {index : Nat}
    (found : target.counterpartIndex? source fieldName desired.name = some index) :
    let upsert := target.upsertCounterpart source fieldName desired
    let unpaired := fun (field : Field) => !field.pairsWith source fieldName desired.name
    ∃ existing old, target.fields[index]? = some existing ∧ existing.relation? = some old ∧
      upsert.field = desired.mergeInto existing ∧
      upsert.target.fields = (target.fields.take index).filter unpaired ++
        upsert.field :: (target.fields.drop (index + 1)).filter unpaired := by
  intro upsert unpaired
  obtain ⟨existing, there, pairs⟩ := exists_of_counterpartIndex? found
  obtain ⟨old, related, -⟩ := Field.targets_iff.mp (Field.pairsWith_iff.mp pairs).1
  -- Upserting goes by the index, and there is a field at it.
  exact ⟨existing, old, there, related, by simp only [upsert, upsertCounterpart, found, there],
    by simp only [upsert, unpaired, upsertCounterpart, found, there]⟩

/-- Where no counterpart is found, the desired one comes last. -/
theorem upsertCounterpart_of_missing
    (missing : target.counterpartIndex? source fieldName desired.name = none) :
    (target.upsertCounterpart source fieldName desired).field = desired ∧
      (target.upsertCounterpart source fieldName desired).target.fields =
        target.fields ++ [desired] := by
  -- The search decides alone whether a field is replaced or one is added.
  simp [upsertCounterpart, missing]

/-- A counterpart in place has the pairing that was desired. -/
theorem relation?_upsertCounterpart (related : desired.relation? = some relation) :
    ∃ foreignKey onDelete, (target.upsertCounterpart source fieldName desired).field.relation? =
      some { relation with foreignKey := foreignKey, onDelete := onDelete } := by
  -- What is in the list afterwards is merged from the desired counterpart.
  rw [← mergeInto_upsertCounterpart]
  exact Field.relation?_mergeInto related _

/-! ## Whether there is a change -/

/-- Putting a counterpart in place brings in no default but its own. -/
theorem Comparable.upsertCounterpart (comparable : target.Comparable)
    (desiredComparable : desired.Comparable) :
    (target.upsertCounterpart source fieldName desired).target.Comparable := by
  intro field present
  -- A field of the result is the counterpart, or it was there and does not pair.
  rcases mem_upsertCounterpart.mp present with rfl | ⟨before, -⟩
  · -- The counterpart has the default that was desired.
    have same := Field.default_mergeInto desired
      (target.upsertCounterpart source fieldName desired).field
    rw [mergeInto_upsertCounterpart] at same
    simpa only [Field.Comparable, same] using desiredComparable
  · exact comparable field before

/-- A change is reported where there is one, if no default could be spelled differently. -/
theorem changed_upsertCounterpart_iff (comparable : target.Comparable)
    (unambiguous : desired.Unambiguous) :
    (target.upsertCounterpart source fieldName desired).changed = true ↔
      (target.upsertCounterpart source fieldName desired).target.fields ≠ target.fields := by
  rw [← Bool.not_eq_false, not_iff_not]
  constructor
  · intro unchanged
    rw [eq_of_upsertCounterpart_unchanged unambiguous unchanged]
  · intro same
    -- Every field equals itself, so a list that stayed the same is seen as such.
    have self := Field.sameList_self_of_comparable comparable
    simp only [upsertCounterpart] at same ⊢
    rw [same, self, Bool.not_true]

/-! ## Taking it away again -/

/-- Removing a counterpart that was just put in place takes that field and no other. -/
theorem removeCounterpart_upsertCounterpart (inverts : desired.invertsTo source fieldName = true) :
    let upsert := target.upsertCounterpart source fieldName desired
    ∃ front back, upsert.target.fields = front ++ upsert.field :: back ∧
      (upsert.target.removeCounterpart source fieldName desired.name).fields = front ++ back := by
  intro upsert
  -- The counterpart is the one field that pairs, and nothing that does not pair is removed.
  obtain ⟨front, back, split, noneInFront, -, noneInBack⟩ := List.filter_eq_cons_iff.mp
    (@filter_pairsWith_upsertCounterpart target _ _ _ (Field.targets_of_invertsTo inverts))
  have stays : ∀ field : Field, ¬field.pairsWith source fieldName desired.name = true →
      (!field.isRemovedWith source fieldName desired.name) = true := by
    intro field unpaired
    rw [Bool.not_eq_true', Bool.eq_false_iff]
    exact fun removed => unpaired (Field.pairsWith_of_isRemovedWith removed)
  have goes := Field.isRemovedWith_of_invertsTo
    (@invertsTo_upsertCounterpart target _ _ _ inverts) desired.name
  refine ⟨front, back, split, ?_⟩
  -- Nothing in front of the counterpart goes, and nothing behind it.
  have keptFront : front.filter (fun field =>
      !field.isRemovedWith source fieldName desired.name) = front :=
    List.filter_eq_self.mpr fun field present => stays field (noneInFront field present)
  have keptBack : back.filter (fun field =>
      !field.isRemovedWith source fieldName desired.name) = back :=
    List.filter_eq_self.mpr fun field present =>
      stays field (List.filter_eq_nil_iff.mp noneInBack field present)
  rw [removeCounterpart, show upsert.target.fields = _ from split, List.filter_append,
    List.filter_cons_of_neg (by simp [goes]), keptFront, keptBack]

/-- Putting a counterpart in place leaves one field that pairs with the source field. It has the
pairing that was desired, the place and the column attributes of the counterpart that was found, and
comes last if none was; no field that does not pair is touched. A change is reported where there is
one, putting the counterpart in place once more makes none, and removing it takes this one field. -/
theorem upsertCounterpart_places (related : desired.relation? = some relation)
    (faces : relation.target = source) (inverse : relation.inverseName = some fieldName)
    (comparable : target.Comparable) (desiredComparable : desired.Comparable) :
    let upsert := target.upsertCounterpart source fieldName desired
    let placed := upsert.field
    let again := upsert.target.upsertCounterpart source fieldName desired
    let pairs := fun (field : Field) => field.pairsWith source fieldName desired.name
    let unpaired := fun (field : Field) => !pairs field
    upsert.target.fields.filter pairs = [placed] ∧
    (placed.name = desired.name ∧ ∃ held, placed.relation? = some held ∧
      held.kind = relation.kind ∧ held.target = source ∧ held.inverseName = some fieldName ∧
      held.joinTable = relation.joinTable) ∧
    (∀ index, target.counterpartIndex? source fieldName desired.name = some index →
      ∃ existing old held, target.fields[index]? = some existing ∧ existing.relation? = some old ∧
        placed.relation? = some held ∧
        upsert.target.fields = (target.fields.take index).filter unpaired ++
          placed :: (target.fields.drop (index + 1)).filter unpaired ∧
        placed.required = existing.required ∧ placed.unique = existing.unique ∧
        held.onDelete = old.onDelete ∧
        (held.kind.hasColumn = true → held.foreignKey = old.foreignKey)) ∧
    (target.counterpartIndex? source fieldName desired.name = none →
      placed = desired ∧ upsert.target.fields = target.fields ++ [desired]) ∧
    upsert.target.fields.filter unpaired = target.fields.filter unpaired ∧
    (upsert.changed = true ↔ Field.sameList upsert.target.fields target.fields = false) ∧
    (desired.Unambiguous → (upsert.changed = true ↔ upsert.target.fields ≠ target.fields)) ∧
    (again.target = upsert.target ∧ again.field = placed ∧ again.changed = false) ∧
    ∃ front back, upsert.target.fields = front ++ placed :: back ∧
      (upsert.target.removeCounterpart source fieldName desired.name).fields = front ++ back := by
  intro upsert placed again pairs unpaired
  have leads : desired.targets source = true := Field.targets_iff.mpr ⟨_, related, faces⟩
  have inverts : desired.invertsTo source fieldName = true :=
    Field.invertsTo_iff.mpr ⟨_, related, faces, inverse⟩
  have only : upsert.target.fields.filter pairs = [placed] :=
    filter_pairsWith_upsertCounterpart leads
  have current : desired.mergeInto placed = placed :=
    mergeInto_upsertCounterpart target source fieldName desired
  have placedPairs : pairs placed = true :=
    (List.mem_filter.mp (only ▸ List.mem_singleton_self placed)).2
  refine ⟨only, ⟨name_field_upsertCounterpart target source fieldName desired, ?_⟩, ?_,
    upsertCounterpart_of_missing, ?_, ?_, changed_upsertCounterpart_iff comparable, ?_,
    removeCounterpart_upsertCounterpart inverts⟩
  · obtain ⟨foreignKey, onDelete, held⟩ :=
      @relation?_upsertCounterpart target source fieldName desired relation related
    exact ⟨_, held, rfl, faces, inverse, rfl⟩
  · intro index found
    -- What stands at the index is updated in its place, and what else pairs goes.
    obtain ⟨existing, old, there, wasRelated, merged, result⟩ := upsertCounterpart_of_found found
    have held := Field.relation?_mergeInto_relation related wasRelated
    rw [← merged] at held
    refine ⟨existing, old, _, there, wasRelated, held, result, ?_, ?_, rfl,
      fun column => if_pos column⟩
    · rw [show placed = _ from merged, Field.required_mergeInto]
    · rw [show placed = _ from merged, Field.unique_mergeInto]
  · -- Neither the fields that were replaced nor their replacement is among those that do not pair.
    refine filter_upsertCounterpart (fun field _ paired => ?_) ?_
    · simp only [unpaired, pairs, paired, Bool.not_true]
    · simpa only [unpaired, Bool.not_eq_false'] using placedPairs
  · simp only [upsert, upsertCounterpart, Bool.not_eq_true']
  · refine ⟨upsertCounterpart_of_placed only current, ?_, ?_⟩
    · -- Once more there is one field that pairs, and the list is what it was.
      have same := upsertCounterpart_of_placed only current
      have once := @filter_pairsWith_upsertCounterpart upsert.target source fieldName desired leads
      rw [same] at once
      exact List.singleton_inj.mp (once.symm.trans only)
    · exact upsertCounterpart_unchanged_of_placed only current
        (Field.sameList_self_of_comparable (comparable.upsertCounterpart desiredComparable))

/-- A writer whose posts are listed under two names, around a relation of another kind. -/
def bylined : Model where
  name := "Writer"
  fields := [
    { Field.ofRelation "articles" { Relation.to .manyToOne "Post" with
        inverseName := some "author", onDelete := some .cascade } with required := true },
    .ofRelation "reviews" { Relation.to .oneToMany "Post" with inverseName := some "reviewer" },
    .ofRelation "posts" { Relation.to .oneToMany "Post" with inverseName := some "author" }]

/-- What the writer is to have instead. -/
def byline : Field :=
  .ofRelation "entries" { Relation.to .manyToOne "Post" with inverseName := some "author" }

/-- The first of the two is renamed where it stands and keeps its column, and the other goes. -/
theorem upsertCounterpart_places_bylined :
    let upsert := bylined.upsertCounterpart "Post" "author" byline
    bylined.Comparable ∧ byline.Comparable ∧ upsert.target.fields =
      [{ Field.ofRelation "entries" { Relation.to .manyToOne "Post" with
          inverseName := some "author", onDelete := some .cascade } with required := true },
        .ofRelation "reviews" { Relation.to .oneToMany "Post" with
          inverseName := some "reviewer" }] ∧
      upsert.changed = true ∧
      (upsert.target.upsertCounterpart "Post" "author" byline).changed = false ∧
      ∃ front back, upsert.target.fields = front ++ upsert.field :: back ∧
        (upsert.target.removeCounterpart "Post" "author" "entries").fields = front ++ back := by
  intro upsert
  have plain : ∀ field ∈ bylined.fields, field.default = none := by decide
  have comparable : bylined.Comparable := fun field present =>
    (Field.finite_of_plain (plain field present)).comparable
  have desiredComparable : byline.Comparable := (Field.finite_of_plain rfl).comparable
  obtain ⟨-, -, found, -, -, -, changed, again, removed⟩ :=
    -- The index of the field that is found is evaluated, and so is the list that this makes.
    @upsertCounterpart_places bylined "Post" "author" byline _ rfl rfl rfl comparable
      desiredComparable
  obtain ⟨_, _, _, -, -, -, result, -⟩ := found 0 (by decide)
  refine ⟨comparable, desiredComparable, result.trans (by decide), ?_, again.2.2, removed⟩
  exact (changed (Field.unambiguous_of_plain rfl)).mpr (result.trans_ne (by decide))

end Model

end ModelCatalog
