import ModelCatalog.Proofs.Repair
import ModelCatalog.Proofs.SelfMates

/-! Clearing: what a field loses when it is brought up to date with the field it is the mate of. -/

namespace ModelCatalog

open Resolution WritePlan

/-- The relation without what its kind has no use for: a foreign key where there is no column, and a
join table where there is none. -/
def Relation.cleared (relation : Relation) : Relation :=
  { relation with
    foreignKey := if relation.kind.hasColumn then relation.foreignKey else none
    joinTable := if relation.kind.usesJoinTable then relation.joinTable else none }

/-- A relation says nothing that its kind has no use for. -/
def Relation.Fits (relation : Relation) : Prop :=
  (relation.kind.hasColumn = false → relation.foreignKey = none) ∧
    (relation.kind.usesJoinTable = false → relation.joinTable = none)

instance (relation : Relation) : Decidable relation.Fits :=
  inferInstanceAs (Decidable ((_ → _) ∧ (_ → _)))

/-- A relation is cleared exactly when it says nothing that its kind has no use for. -/
theorem Relation.cleared_eq_self_iff {relation : Relation} :
    relation.cleared = relation ↔ relation.Fits := by
  -- Either conditional is decided by a property of the kind.
  obtain ⟨kind, target, inverseName, foreignKey, joinTable, onDelete⟩ := relation
  cases column : kind.hasColumn <;> cases table : kind.usesJoinTable <;>
    simp [cleared, Fits, column, table, eq_comm]

namespace Field

/-- The field as it stands when it has been brought up to date: without a default, and without what
the kind of its relation has no use for. -/
def cleared (field : Field) : Field :=
  match field.kind with
  | .relation relation => { field with default := none, kind := .relation relation.cleared }
  | _ => field

variable {field mate : Field} {relation : Relation} {source target : String}

/-- Clearing keeps the name. -/
@[simp] theorem name_cleared (field : Field) : field.cleared.name = field.name := by
  -- Whatever the kind is, only the default and the relation are replaced.
  unfold cleared
  split <;> rfl

/-- Clearing a field clears its relation. -/
theorem relation?_cleared (field : Field) :
    field.cleared.relation? = field.relation?.map Relation.cleared := by
  -- Only a relation has something to clear, and the others have no relation.
  unfold cleared relation?
  cases held : field.kind <;> simp [held]

/-- Clearing keeps the target. -/
@[simp] theorem targets_cleared (field : Field) (model : String) :
    field.cleared.targets model = field.targets model := by
  -- Clearing a relation keeps where it leads.
  unfold cleared targets
  cases held : field.kind <;> simp [held, Relation.cleared]

/-- Clearing keeps the name of the counterpart. -/
@[simp] theorem counterpartName_cleared (field : Field) (model : String) :
    field.cleared.counterpartName model = field.counterpartName model := by
  -- The name comes from the inverse name, which a cleared relation keeps.
  unfold counterpartName
  rw [relation?_cleared]
  cases field.relation? <;> rfl

/-- Clearing once more changes nothing. -/
@[simp] theorem cleared_cleared (field : Field) : field.cleared.cleared = field.cleared := by
  unfold cleared
  cases held : field.kind with
  | relation relation =>
    -- The kind stays, and with it what it has use for.
    cases column : relation.kind.hasColumn <;> cases table : relation.kind.usesJoinTable <;>
      simp [Relation.cleared, column, table]
  | _ => simp [held]

/-- A field that stands for a relation is cleared exactly when it has no default and its relation
says nothing that its kind has no use for. -/
theorem cleared_eq_self_iff (related : field.relation? = some relation) :
    field.cleared = field ↔ field.default = none ∧ relation.Fits := by
  -- The kind of the field is the relation, and clearing sets the default and the relation.
  rw [relation?_eq_some] at related
  obtain ⟨name, required, unique, default, kind⟩ := field
  simp only at related
  subst related
  rw [← Relation.cleared_eq_self_iff]
  simp [cleared, eq_comm]

/-- Mates stay mates when one of them is cleared. -/
theorem Mates.cleared_left (mates : field.Mates source target mate) :
    field.cleared.Mates source target mate := by
  obtain ⟨relation, back, related, backRelated, leads, returns, named, inverse, kind, joined⟩ :=
    mates.sides
  refine ⟨relation.cleared, back, by rw [relation?_cleared, related]; rfl, backRelated, leads,
    returns, named, by rw [inverse, name_cleared], kind, fun uses => ?_⟩
  -- A kind with a join table keeps it.
  have usesToo : relation.kind.usesJoinTable = true := uses
  simp only [Relation.cleared, usesToo, if_true]
  exact joined usesToo

/-- Mates stay mates when both are cleared or not. -/
theorem Mates.of_cleared {one other : Field} (mates : field.Mates source target mate)
    (same : one = field ∨ one = field.cleared) (alike : other = mate ∨ other = mate.cleared) :
    one.Mates source target other := by
  -- One side is cleared first, and the other side afterwards.
  have left : one.Mates source target mate := by
    rcases same with rfl | rfl
    · exact mates
    · exact mates.cleared_left
  rcases alike with rfl | rfl
  · exact left
  · exact left.symm.cleared_left.symm

/-- To bring a mate up to date is to clear it. -/
theorem Mates.mergeInto_eq (mates : field.Mates source target mate)
    (related : field.relation? = some relation) :
    (insertionOf source field relation).counterpart.mergeInto mate = mate.cleared := by
  -- What the two say of each other is spelled out first.
  obtain ⟨held, back, heldRelation, backRelated, -, returns, -, inverse, kind, joined⟩ :=
    mates.sides
  rw [related, Option.some.injEq] at heldRelation
  subst heldRelation
  have named := mates.counterpartName source
  rw [relation?_eq_some] at backRelated
  -- Kind, target, inverse and join table are the mate's; a foreign key is kept where one belongs.
  have table : (if relation.kind.usesJoinTable then relation.joinTable else none) =
      if relation.kind.usesJoinTable then back.joinTable else none := by
    split
    · rename_i uses
      exact (joined uses).symm
    · rfl
  -- The foreign key and the deletion rule are the mate's own, and all else is the same on both
  -- sides.
  have facing : { relation.facing source field.name with
      foreignKey := if (relation.facing source field.name).kind.hasColumn then back.foreignKey
        else (relation.facing source field.name).foreignKey
      onDelete := back.onDelete } = back.cleared := by
    cases back
    simp only at table kind returns inverse
    simp [Relation.facing, Relation.cleared, table, kind, returns, inverse]
  unfold mergeInto cleared
  simp only [backRelated, insertionOf, ofRelation, ofKind, facing, named]

end Field

namespace Model

variable {model target : Model} {names : List String} {name : String}

/-- The model with the fields of these names cleared. -/
def clearedAt (model : Model) (names : List String) : Model :=
  { model with
    fields := model.fields.map fun field =>
      if field.name ∈ names then field.cleared else field }

/-- Clearing fields keeps the name of the model. -/
@[simp] theorem name_clearedAt (model : Model) (names : List String) :
    (model.clearedAt names).name = model.name := rfl

/-- Nothing is cleared under no names. -/
@[simp] theorem clearedAt_nil (model : Model) : model.clearedAt [] = model := by
  -- No field bears one of no names, so each is left as it is.
  simp [clearedAt]

/-- A field of a model of which some are cleared is one of the model, or a cleared one. -/
theorem exists_of_mem_clearedAt {field : Field} (present : field ∈ (model.clearedAt names).fields) :
    ∃ before ∈ model.fields, field = before ∨ field = before.cleared := by
  obtain ⟨before, listed, rfl⟩ := List.mem_map.mp present
  -- Each field has one image under the map.
  refine ⟨before, listed, ?_⟩
  split
  · exact Or.inr rfl
  · exact Or.inl rfl

/-- Every field of a model is there, cleared or not, when some are cleared. -/
theorem exists_mem_clearedAt {field : Field} (names : List String)
    (present : field ∈ model.fields) :
    ∃ after ∈ (model.clearedAt names).fields, after = field ∨ after = field.cleared := by
  -- The field at the same place is the one that was there, or its cleared form.
  refine ⟨_, List.mem_map_of_mem present, ?_⟩
  split
  · exact Or.inr rfl
  · exact Or.inl rfl

/-- Clearing fields keeps the names of all. -/
theorem names_clearedAt (model : Model) (names : List String) :
    (model.clearedAt names).fields.map Field.name = model.fields.map Field.name := by
  -- Place by place the name is kept, whether the field there is cleared or not.
  rw [clearedAt, List.map_map]
  refine List.map_congr_left fun field _ => ?_
  simp only [Function.comp_apply]
  split <;> simp

/-- To clear fields under some names after others is to clear them under all. -/
theorem clearedAt_clearedAt (model : Model) (first rest : List String) :
    (model.clearedAt first).clearedAt rest = model.clearedAt (first ++ rest) := by
  simp only [clearedAt, List.map_map, List.mem_append]
  congr 1
  refine List.map_congr_left fun field _ => ?_
  -- A field whose name is in both lists is cleared twice, to the same end.
  by_cases early : field.name ∈ first <;> by_cases late : field.name ∈ rest <;>
    simp [early, late]

/-- Clearing fields leaves a model alone exactly when these fields are cleared. -/
theorem clearedAt_eq_self_iff :
    model.clearedAt names = model ↔
      ∀ field ∈ model.fields, field.name ∈ names → field.cleared = field := by
  have fields : model.clearedAt names = model ↔ (model.clearedAt names).fields = model.fields := by
    cases model
    simp [clearedAt]
  -- A map leaves a list alone when it leaves each member.
  rw [fields, clearedAt]
  nth_rewrite 2 [← List.map_id model.fields]
  rw [List.map_inj_left]
  refine forall₂_congr fun field _ => ?_
  by_cases listed : field.name ∈ names <;> simp [listed]

/-- A field that has a mate keeps it when fields are cleared on either side. -/
theorem HasMate.clearedAt {source : String} {field after : Field}
    (mated : target.HasMate source field) (same : after = field ∨ after = field.cleared)
    (names : List String) : (target.clearedAt names).HasMate source after := by
  -- The mate is there still, cleared or not, and mates may be cleared on either side.
  obtain ⟨mate, present, mates⟩ := mated
  obtain ⟨other, listed, alike⟩ := exists_mem_clearedAt names present
  exact ⟨other, listed, mates.of_cleared same alike⟩

/-- What pairs with a field is its mate, when no other field inverts to it. -/
theorem eq_of_pairsWith (distinct : (target.fields.map Field.name).Nodup)
    {source : String} {field mate other : Field} (present : mate ∈ target.fields)
    (mates : field.Mates source target.name mate)
    (only : ∀ other ∈ target.fields, other.invertsTo source field.name = true → other = mate)
    (listed : other ∈ target.fields)
    (pairs : other.pairsWith source field.name (field.counterpartName source) = true) :
    other = mate := by
  -- What pairs bears the name of the mate or inverts to the field.
  rcases (Field.pairsWith_iff.mp pairs).2 with same | inverts
  · exact eq_of_name_eq distinct listed present (same.trans (mates.counterpartName source))
  · exact only other listed inverts

/-- The mate of a field is the one field of its model that pairs with it, when no other inverts to
it. -/
theorem filter_pairsWith_of_mates (distinct : (target.fields.map Field.name).Nodup)
    {source : String} {field mate : Field} (present : mate ∈ target.fields)
    (mates : field.Mates source target.name mate)
    (only : ∀ other ∈ target.fields, other.invertsTo source field.name = true → other = mate) :
    target.fields.filter (fun other =>
      other.pairsWith source field.name (field.counterpartName source)) = [mate] :=
  -- The mate pairs with the field, and whatever pairs is the mate.
  filter_eq_singleton distinct present
    (Field.pairsWith_of_invertsTo mates.symm.invertsTo _)
    fun _ listed pairs => eq_of_pairsWith distinct present mates only listed pairs

/-- A counterpart is in place exactly when the one mate of its field is cleared. -/
theorem placedIn_iff_of_mates (distinct : (target.fields.map Field.name).Nodup)
    {source : String} {field mate : Field} {relation : Relation} (present : mate ∈ target.fields)
    (mates : field.Mates source target.name mate) (related : field.relation? = some relation)
    (only : ∀ other ∈ target.fields, other.invertsTo source field.name = true → other = mate) :
    (insertionOf source field relation).PlacedIn source target ↔ mate.cleared = mate := by
  have alone := filter_pairsWith_of_mates distinct present mates only
  constructor
  · -- The one field that pairs is the one that is placed, and it is the mate.
    rintro ⟨placed, pairs, current⟩
    have same : [placed] = [mate] := pairs.symm.trans alone
    cases same
    rw [← mates.mergeInto_eq related, current]
  · exact fun cleared => ⟨mate, alone, (mates.mergeInto_eq related).trans cleared⟩

/-- Fields that do not have the name of the mate neither pair with the field nor are cleared for
it. -/
theorem beside_mate (distinct : (target.fields.map Field.name).Nodup)
    {source : String} {field mate : Field} (present : mate ∈ target.fields)
    (mates : field.Mates source target.name mate)
    (only : ∀ other ∈ target.fields, other.invertsTo source field.name = true → other = mate)
    {side : List Field} (each : ∀ other ∈ side, other ∈ target.fields ∧ other.name ≠ mate.name) :
    side.filter (fun other =>
        !other.pairsWith source field.name (field.counterpartName source)) = side ∧
      side.map (fun other => if other.name ∈ [mate.name] then other.cleared else other) = side := by
  -- What would pair is the mate, and so would what is cleared; both bear its name.
  refine ⟨List.filter_eq_self.mpr fun other listed => ?_, ?_⟩
  · rw [Bool.not_eq_true', Bool.eq_false_iff]
    intro pairs
    obtain ⟨inTarget, differ⟩ := each other listed
    exact differ (congrArg Field.name (eq_of_pairsWith distinct present mates only inTarget pairs))
  · refine (List.map_congr_left fun other listed => ?_).trans (List.map_id _)
    simp [(each other listed).2]

/-- To put the counterpart of a field in place that has one mate is to clear the mate. -/
theorem upsertCounterpart_of_mates (distinct : (target.fields.map Field.name).Nodup)
    {source : String} {field mate : Field} {relation : Relation} (present : mate ∈ target.fields)
    (mates : field.Mates source target.name mate) (related : field.relation? = some relation)
    (only : ∀ other ∈ target.fields, other.invertsTo source field.name = true → other = mate) :
    (target.upsertCounterpart source field.name
      (insertionOf source field relation).counterpart).target = target.clearedAt [mate.name] := by
  -- Only the fields can differ, and the models are one when these are.
  suffices fields : (target.upsertCounterpart source field.name
      (insertionOf source field relation).counterpart).target.fields =
        (target.clearedAt [mate.name]).fields by
    simpa [upsertCounterpart, clearedAt] using fields
  rcases upsertCounterpart_cases target source field.name
      (insertionOf source field relation).counterpart with
    ⟨front, existing, back, before, pairs, merged, after⟩ | ⟨unpaired, -, -⟩
  · -- The field that is updated pairs, so it is the mate.
    have same : existing = mate :=
      eq_of_pairsWith distinct present mates only (by simp [before]) pairs
    subst same
    rw [mates.mergeInto_eq related] at merged
    -- Names are apart, so on neither side of the mate is there another field of its name.
    have apart := distinct
    rw [before, List.map_append, List.map_cons, List.nodup_append, List.nodup_cons] at apart
    obtain ⟨frontKept, frontUncleared⟩ := @beside_mate target distinct source field existing present
      mates only front fun other listed =>
        ⟨by simp [before, listed], apart.2.2 _ (List.mem_map_of_mem listed) _ (by simp)⟩
    obtain ⟨backKept, backUncleared⟩ := @beside_mate target distinct source field existing present
      mates only back fun other listed =>
        ⟨by simp [before, listed], fun same => apart.2.1.1 (same ▸ List.mem_map_of_mem listed)⟩
    have claimed : (insertionOf source field relation).counterpart.name =
      field.counterpartName source := rfl
    rw [after, claimed, frontKept, backKept, merged, clearedAt, before]
    simp only [List.map_append, List.map_cons, frontUncleared, backUncleared]
    simp
  · -- The mate pairs, so it cannot be that nothing does.
    have never := unpaired mate present
    rw [show (insertionOf source field relation).counterpart.name = field.counterpartName source
      from rfl, Field.pairsWith_of_invertsTo mates.symm.invertsTo] at never
    cases never

/-! ## Pairing of self-relations that have mates -/

/-- Every relation of a model to itself has a mate in the model. -/
def SelvesHaveMates (model : Model) : Prop :=
  ∀ field ∈ model.fields, field.targets model.name = true → model.HasMate model.name field

/-- A model whose self-relations have mates is closed. -/
theorem SelvesHaveMates.closed (mated : model.SelvesHaveMates) : model.Closed := by
  -- The mate leads back, and it bears the name that the field claims.
  intro field present targets
  obtain ⟨mate, listed, mates⟩ := mated field present targets
  exact ⟨mate, listed, mates.symm.targets, (mates.counterpartName model.name).symm⟩

/-- Self-relations keep their mates when fields are cleared. -/
theorem SelvesHaveMates.clearedAt (mated : model.SelvesHaveMates) (names : List String) :
    (model.clearedAt names).SelvesHaveMates := by
  -- The field stood there before, cleared or not, and its mate stands there as well.
  intro field present targets
  obtain ⟨before, listed, same⟩ := exists_of_mem_clearedAt present
  have leads : before.targets model.name = true := by
    rcases same with rfl | rfl
    · exact targets
    · rwa [name_clearedAt, Field.targets_cleared] at targets
  exact (mated before listed leads).clearedAt same names

/-- The mate of a self-relation is the one field that inverts to it. -/
theorem SelvesHaveMates.eq_of_invertsTo (mated : model.SelvesHaveMates)
    (distinct : (model.fields.map Field.name).Nodup) {field mate other : Field}
    (present : field ∈ model.fields) (matePresent : mate ∈ model.fields)
    (mates : field.Mates model.name model.name mate) (listed : other ∈ model.fields)
    (inverts : other.invertsTo model.name field.name = true) : other = mate := by
  obtain ⟨back, backPresent, backMates⟩ :=
    mated other listed (Field.targets_of_invertsTo inverts)
  -- The mate of the other field is the field itself, whose mates have one name.
  have same : back = field := by
    refine eq_of_name_eq distinct backPresent present ?_
    rw [← backMates.counterpartName model.name,
      Field.counterpartName_of_invertsTo inverts model.name]
  subst same
  -- Both fields are the mates of one field, and so they bear the name it claims.
  refine eq_of_name_eq distinct listed matePresent ?_
  rw [← mates.counterpartName model.name, ← backMates.symm.counterpartName model.name]

/-- A step of pairing clears the mate of a self-relation, unless that is its own. -/
theorem SelvesHaveMates.pairSelf_eq (mated : model.SelvesHaveMates)
    (distinct : (model.fields.map Field.name).Nodup) {field : Field}
    (present : field ∈ model.fields) (targets : field.targets model.name = true) :
    pairSelf model field.name = .ok (model.clearedAt
      (if field.counterpartName model.name = field.name then []
        else [field.counterpartName model.name])) := by
  obtain ⟨mate, matePresent, mates⟩ := mated field present targets
  obtain ⟨relation, back, related, backRelated, leads, -, -, -, kind, -⟩ := mates.sides
  -- The mate bears the name that the relation claims, and so it is what is paired.
  have found := field?_of_mem distinct present
  have named := mates.counterpartName model.name
  have counterpartName : (Field.ofRelation (field.counterpartName model.name)
      (relation.facing model.name field.name)).name = field.counterpartName model.name := rfl
  unfold pairSelf
  simp only [found, related, Field.counterpart?_eq, Option.map_some, counterpartName]
  by_cases own : field.counterpartName model.name = field.name
  · -- The field is its own mate, so that its kind is its own inverse.
    have same := eq_of_name_eq distinct matePresent present (named.symm.trans own)
    subst same
    rw [related, Option.some.injEq] at backRelated
    subst backRelated
    simp [own, kind.symm]
  · -- Otherwise the counterpart is put over the mate, which clears it.
    have cleared := upsertCounterpart_of_mates distinct matePresent mates related
      fun other listed inverts =>
        mated.eq_of_invertsTo distinct present matePresent mates listed inverts
    rw [if_neg own, if_neg own, named, ← cleared]
    rw [← named]
    rfl

/-- The names of the self-relations that pairing brings up to date: those that are the counterpart
of another one. -/
def pairedNames (model : Model) : List String :=
  ((model.fields.filter fun field => field.targets model.name).filter fun field =>
    field.counterpartName model.name != field.name).map fun field =>
      field.counterpartName model.name

/-- Pairing clears the self-relations of a model that are mates of others, where all have mates. -/
theorem SelvesHaveMates.pairSelves_eq (mated : model.SelvesHaveMates)
    (distinct : (model.fields.map Field.name).Nodup) :
    pairSelves model = .ok (model.clearedAt model.pairedNames) := by
  -- The induction is on the self-relations to come; some names have been cleared for those before.
  have run : ∀ (todo : List Field) (done : List String),
      (∀ field ∈ todo, field ∈ model.fields ∧ field.targets model.name = true) →
      (todo.map Field.name).foldlM pairSelf (model.clearedAt done) =
        .ok (model.clearedAt (done ++ (todo.filter fun field =>
          field.counterpartName model.name != field.name).map fun field =>
            field.counterpartName model.name)) := by
    intro todo
    induction todo with
    | nil =>
      intro done _
      simp [pure, Except.pure]
    | cons first rest ih =>
      intro done all
      obtain ⟨present, targets⟩ := all first List.mem_cons_self
      -- The relation may have been cleared on the way, under the same name and to the same end.
      obtain ⟨after, listed, same⟩ := exists_mem_clearedAt done present
      have facts : after.name = first.name ∧ after.targets model.name = true ∧
          after.counterpartName model.name = first.counterpartName model.name := by
        rcases same with rfl | rfl <;> simp [targets]
      -- With names and mates as before, the step clears what the first relation claims.
      have step := (mated.clearedAt done).pairSelf_eq
        (by rw [names_clearedAt]; exact distinct) listed facts.2.1
      rw [name_clearedAt, facts.1, facts.2.2, clearedAt_clearedAt] at step
      have later := ih (done ++ if first.counterpartName model.name = first.name then []
        else [first.counterpartName model.name]) fun field member =>
          all field (List.mem_cons_of_mem _ member)
      rw [List.map_cons, List.foldlM_cons, step]
      refine later.trans ?_
      -- A relation that is its own mate adds no name to those cleared.
      by_cases own : first.counterpartName model.name = first.name <;> simp [own]
  -- Beginning with no names cleared, all self-relations come in turn.
  have whole := run (model.fields.filter fun field => field.targets model.name) [] (by simp)
  rw [Resolution.pairSelves_eq, selfNames]
  simpa [pairedNames] using whole

/-- A self-relation is brought up to date by pairing exactly when it is not its own inverse. -/
theorem SelvesHaveMates.mem_pairedNames (mated : model.SelvesHaveMates)
    (distinct : (model.fields.map Field.name).Nodup) {field : Field}
    (present : field ∈ model.fields) :
    field.name ∈ model.pairedNames ↔
      field.targets model.name = true ∧ field.invertsTo model.name field.name = false := by
  simp only [pairedNames, List.mem_map, List.mem_filter, bne_iff_ne, ne_eq]
  constructor
  · rintro ⟨other, ⟨⟨listed, targets⟩, differ⟩, claims⟩
    -- The field is the mate of the one that claims it.
    obtain ⟨mate, matePresent, mates⟩ := mated other listed targets
    have same := eq_of_name_eq distinct matePresent present
      ((mates.counterpartName model.name).symm.trans claims)
    subst same
    refine ⟨mates.symm.targets, Bool.eq_false_iff.mpr fun inverts => differ ?_⟩
    rw [claims, ← mates.symm.counterpartName model.name,
      Field.counterpartName_of_invertsTo inverts model.name]
  · -- The mate of the field claims it, and the field would be its own mate if that were the same.
    rintro ⟨targets, foreign⟩
    obtain ⟨mate, matePresent, mates⟩ := mated field present targets
    refine ⟨mate, ⟨⟨matePresent, mates.symm.targets⟩, fun own => ?_⟩,
      mates.symm.counterpartName model.name⟩
    rw [mates.symm.counterpartName model.name] at own
    rw [own, mates.invertsTo] at foreign
    cases foreign

end Model

end ModelCatalog
