import ModelCatalog.Proofs.Refill

/-! Retracing: when a definition is resolved as it would be over its stored version although nothing
is known of that, since the other sides of its relations tell what it leaves out. -/

namespace ModelCatalog

open Resolution WritePlan

/-! ## What a definition leaves out -/

/-- What a relation leaves out is what its stored version would fill in also where that is not
known: a relation within the model leaves out nothing, the join table with a system model has the
name that it would get, and the field on another model of the catalog is found by what it is told by
there. -/
structure Relation.Retraces (system : SystemModels) (source : String) (stored : Model)
    (fieldName : String) (relation previous : Relation) : Prop where
  own : relation.target = source → relation.Resolved system
  shared : system.contains relation.target = true → relation.kind.usesJoinTable = true →
    relation.joinTable = none → previous.kind.usesJoinTable = true →
    previous.joinTable = some (relation.joinTableName source fieldName)
  named : leadsOut system source relation → relation.inverseName = none →
    previous.inverseName ≠ some fieldName
  alone : leadsOut system source relation → relation.kind.usesJoinTable = true →
    relation.joinTable = none → ∀ name ∈ relation.inverseName, ∀ other ∈ stored.fields,
      other.invertsTo relation.target name = true → other.name = fieldName

/-- A definition retraces its stored version when no self-relation is given up together with fields
of it, and each relation that the stored version has as well retraces that one. -/
structure Model.Retraces (system : SystemModels) (declared stored : Model) : Prop where
  kept : dropSelfCounterparts stored declared = declared
  relations : ∀ field ∈ declared.fields, ∀ relation ∈ field.relation?,
    ∀ previous ∈ previousRelation (some stored) field.name relation.target,
      relation.Retraces system declared.name stored field.name previous

instance (system : SystemModels) (relation : Relation) : Decidable (relation.Resolved system) :=
  decidable_of_iff
    ((system.contains relation.target = false → relation.inverseName.isSome = true) ∧
      (relation.kind.usesJoinTable = true → relation.joinTable.isSome = true))
    ⟨fun ⟨named, joined⟩ => ⟨named, joined⟩, fun ⟨named, joined⟩ => ⟨named, joined⟩⟩

instance (system : SystemModels) (source : String) (relation : Relation) :
    Decidable (leadsOut system source relation) :=
  inferInstanceAs (Decidable (_ ∧ _))

set_option synthInstance.maxSize 256 in
instance (system : SystemModels) (source : String) (stored : Model) (fieldName : String)
    (relation previous : Relation) :
    Decidable (relation.Retraces system source stored fieldName previous) :=
  decidable_of_iff
    ((relation.target = source → relation.Resolved system) ∧
      (system.contains relation.target = true → relation.kind.usesJoinTable = true →
        relation.joinTable = none → previous.kind.usesJoinTable = true →
        previous.joinTable = some (relation.joinTableName source fieldName)) ∧
      (leadsOut system source relation → relation.inverseName = none →
        previous.inverseName ≠ some fieldName) ∧
      (leadsOut system source relation → relation.kind.usesJoinTable = true →
        relation.joinTable = none → ∀ name ∈ relation.inverseName, ∀ other ∈ stored.fields,
          other.invertsTo relation.target name = true → other.name = fieldName))
    ⟨fun ⟨own, shared, named, alone⟩ => ⟨own, shared, named, alone⟩,
      fun ⟨own, shared, named, alone⟩ => ⟨own, shared, named, alone⟩⟩

instance (system : SystemModels) (declared stored : Model) :
    Decidable (declared.Retraces system stored) :=
  decidable_of_iff
    (dropSelfCounterparts stored declared = declared ∧
      ∀ field ∈ declared.fields, ∀ relation ∈ field.relation?,
        ∀ previous ∈ previousRelation (some stored) field.name relation.target,
          relation.Retraces system declared.name stored field.name previous)
    ⟨fun ⟨kept, relations⟩ => ⟨kept, relations⟩, fun ⟨kept, relations⟩ => ⟨kept, relations⟩⟩

/-! ## The other side -/

namespace Symmetric

variable {system : SystemModels} {known : Models} {stored : Model} {field : Field}
  {previous : Relation}

/-- The mate of a stored field is the one field of the target that pairs with it, under its own name
and any other that is the inverse of no other stored field there. -/
theorem exists_placed (symmetric : Symmetric system known)
    (found : known.find? stored.name = some stored) (present : field ∈ stored.fields)
    (related : field.relation? = some previous) (out : leadsOut system stored.name previous) :
    ∃ target mate, known.find? previous.target = some target ∧
      field.Mates stored.name previous.target mate ∧
      ∀ name, (name ≠ mate.name → ∀ other ∈ stored.fields,
          other.invertsTo previous.target name = true → other.name = field.name) →
        target.fields.filter (fun again => again.pairsWith stored.name field.name name) =
          [mate] := by
  obtain ⟨target, targetFound, mate, matePresent, mates⟩ :=
    symmetric.mated stored.name stored found field present previous related out
  have own : target.name = previous.target := Roster.name_of_find? targetFound
  rw [own] at mates
  -- Whatever inverts to the field is its mate, as the graph holds no doubles.
  have inverting : ∀ again ∈ target.fields, again.invertsTo stored.name field.name = true →
      again = mate := fun again listed inverts =>
    symmetric.eq_of_invertsTo found targetFound (Ne.symm out.1) present mates matePresent listed
      inverts
  refine ⟨target, mate, targetFound, mates, fun name alone => ?_⟩
  refine Model.filter_eq_singleton (symmetric.tidy _ _ targetFound).distinct matePresent
    (Field.pairsWith_of_invertsTo mates.symm.invertsTo _) fun again listed pairs => ?_
  obtain ⟨returns, named | inverts⟩ := Field.pairsWith_iff.mp pairs
  · -- What pairs under the name of the mate is the field of that name.
    by_cases isMate : name = mate.name
    · exact Model.eq_of_name_eq (symmetric.tidy _ _ targetFound).distinct listed matePresent
        (named.trans isMate)
    · -- A field of another name has a mate in the stored version, and that is the field itself.
      obtain ⟨back, backRelated, leads⟩ := Field.targets_iff.mp returns
      obtain ⟨first, firstFound, twin, twinPresent, twinMates⟩ :=
        symmetric.mated previous.target target targetFound again listed back backRelated
          ⟨leads ▸ Ne.symm out.1, leads ▸ symmetric.inCatalog _ _ found⟩
      rw [leads, found, Option.some.injEq] at firstFound
      subst firstFound
      have same := alone isMate twin twinPresent (named ▸ twinMates.symm.invertsTo)
      exact inverting again listed (same ▸ twinMates.invertsTo)
  · exact inverting again listed inverts

end Symmetric

/-! ## Filling in -/

namespace Resolution

variable {context later : Context} {stored snapshot : Model} {fieldName : String}
  {relation previous : Relation}

/-- A previous version makes no difference to a join table that comes out the same without it. -/
theorem joinTableOf_of_agrees {source : String} {target : Option Model}
    (agrees : relation.joinTable = none → previous.kind.usesJoinTable = true →
      ∃ table, previous.joinTable = some table ∧
        joinTableOf source fieldName target none relation = some table) :
    joinTableOf source fieldName target none relation =
      joinTableOf source fieldName target (some previous) relation := by
  -- Only a join table that is not declared can come from the previous version.
  cases declared : relation.joinTable with
  -- A table that is stated is taken in either case.
  | some stated => simp [joinTableOf, declared]
  | none =>
    cases inherits : previous.kind.usesJoinTable with
    -- Nor does a previous version of another kind hand a table on.
    | false => simp [joinTableOf, inherits]
    | true =>
      obtain ⟨table, inherited, same⟩ := agrees declared inherits
      rw [same]
      simp [joinTableOf, declared, inherits, inherited]

section

variable {target : Model} {field mate : Field}

/-- The other side is filled in under its own name, whether that is inherited or read off the
target, where it is the one field that pairs. -/
theorem filledName_of_mate (system : later.system = context.system)
    (same : targetOf later snapshot relation.target = targetOf context snapshot relation.target)
    (known : targetOf context snapshot relation.target = some target)
    (isPrevious : previousRelation (some stored) field.name relation.target = some previous)
    (inverse : previous.inverseName = some mate.name)
    (inverts : mate.invertsTo snapshot.name field.name = true)
    (only : target.fields.filter (fun again =>
      again.pairsWith snapshot.name field.name mate.name) = [mate])
    (differs : relation.inverseName = none → mate.name ≠ field.name) :
    filledName later none snapshot field.name relation =
      filledName context (some stored) snapshot field.name relation := by
  have unknown : previousRelation none field.name relation.target = none := rfl
  rw [filledName, filledName, system]
  split
  · -- No name is filled in for a relation to a system model.
    rfl
  · rw [same, known, isPrevious, unknown, inverseNameOf, inverseNameOf]
    cases declared : relation.inverseName with
    -- A name that is stated stands in either case.
    | some stated => simp
    | none =>
      -- The other side is told by its name there, as it does not share that of the field.
      have claims := claimant_of_placed only inverts
      rw [if_neg (differs declared)] at claims
      simp [claims, inverse]

/-- Under the name that a relation is filled in with over its stored version, the other side is the
one field that pairs, if it is under any name that may be declared and under its own. -/
theorem exists_filledName_of_mate
    (isPrevious : previousRelation (some stored) field.name relation.target = some previous)
    (outside : context.system.contains relation.target = false)
    (inverse : previous.inverseName = some mate.name)
    (only : ∀ name, name ∈ relation.inverseName ∨ name = mate.name →
      target.fields.filter (fun again => again.pairsWith snapshot.name field.name name) = [mate]) :
    ∃ name, filledName context (some stored) snapshot field.name relation = some name ∧
      target.fields.filter (fun again => again.pairsWith snapshot.name field.name name) =
        [mate] := by
  -- The relation leads to no system model, so its name is filled in from the previous version.
  rw [filledName, if_neg (by simp [outside]), isPrevious, inverseNameOf]
  cases declared : relation.inverseName with
  | some stated => exact ⟨stated, by simp, only stated (Or.inl declared)⟩
  | none => exact ⟨mate.name, by simp [inverse], only mate.name (Or.inr rfl)⟩

end

/-- A relation out of a stored model that retraces its stored version is filled in from the other
side as it is from that version. -/
theorem fillRelation_of_out (symmetric : Symmetric context.system context.known)
    (found : context.known.find? snapshot.name = some stored)
    (system : later.system = context.system)
    (same : targetOf later snapshot relation.target = targetOf context snapshot relation.target)
    (isPrevious : previousRelation (some stored) fieldName relation.target = some previous)
    (out : leadsOut context.system snapshot.name relation)
    (retraces : relation.Retraces context.system snapshot.name stored fieldName previous) :
    fillRelation later none snapshot fieldName relation =
      fillRelation context (some stored) snapshot fieldName relation := by
  -- The stored version has a mate in the target, which tells all that it would hand on.
  obtain ⟨field, present, rfl, related, leads⟩ := exists_of_previousRelation isPrevious
  have own : stored.name = snapshot.name := Roster.name_of_find? found
  obtain ⟨target, mate, targetFound, mates, placed⟩ := symmetric.exists_placed (own ▸ found)
    present related ⟨by rw [leads, own]; exact out.1, by rw [leads]; exact out.2⟩
  obtain ⟨held, back, heldRelation, backRelation, -, -, inverse, -, kind, joined⟩ := mates.sides
  rw [related, Option.some.injEq] at heldRelation
  subst heldRelation
  rw [leads] at targetFound
  rw [own, leads] at placed
  have known : targetOf context snapshot relation.target = some target := by
    rw [targetOf, if_neg out.1, targetFound]
  have unknown : previousRelation none field.name relation.target = none := rfl
  -- Under the name of the mate there is nothing else to be told apart.
  have itself := placed mate.name fun other => absurd rfl other
  have named : filledName later none snapshot field.name relation =
      filledName context (some stored) snapshot field.name relation := by
    -- The name is the mate's, and the relation leaves it out only where it differs from that of the
    -- field.
    refine filledName_of_mate system same known isPrevious inverse (own ▸ mates.symm.invertsTo)
      itself fun declared => ?_
    have inherited := retraces.named out declared
    rwa [inverse, ne_eq, Option.some.injEq] at inherited
  have tables : filledTable later none snapshot field.name relation =
      filledTable context (some stored) snapshot field.name relation := by
    rw [filledTable, filledTable, named, same, known, isPrevious, unknown]
    split
    · rename_i uses
      refine joinTableOf_of_agrees fun declared inherits => ?_
      have declared : relation.joinTable = none := declared
      -- The table of the stored version is that of the other side, which is told by its name.
      obtain ⟨name, isName, only⟩ := exists_filledName_of_mate isPrevious out.2 inverse
        fun name given => given.elim
          (fun stated => placed name fun _ => retraces.alone out uses declared name stated)
          (fun isMate => isMate ▸ itself)
      have shared := sharedJoinTable_of_placed only backRelation
        (by rw [kind, RelationKind.usesJoinTable_inverse, inherits])
      obtain ⟨table, isTable⟩ := Option.isSome_iff_exists.mp
        -- A stored relation that inherits has been given a table, and its mate has the same one.
        (((symmetric.tidy _ _ found).resolved field present previous related).joined inherits)
      have isBack : back.joinTable = some table := (joined inherits).trans isTable
      exact ⟨table, isTable, by simp [joinTableOf, declared, isName, shared, isBack]⟩
    · -- A relation of another kind has no join table.
      rfl
  rw [fillRelation_eq later, fillRelation_eq context, named, tables]

/-- A relation of a stored model to a system model that retraces its stored version gets the join
table that this has. -/
theorem fillRelation_of_shared (symmetric : Symmetric context.system context.known)
    (system : later.system = context.system)
    (same : targetOf later snapshot relation.target = targetOf context snapshot relation.target)
    (isPrevious : previousRelation (some stored) fieldName relation.target = some previous)
    (apart : relation.target ≠ snapshot.name)
    (isSystem : context.system.contains relation.target = true)
    (retraces : relation.Retraces context.system snapshot.name stored fieldName previous) :
    fillRelation later none snapshot fieldName relation =
      fillRelation context (some stored) snapshot fieldName relation := by
  have unknown : previousRelation none fieldName relation.target = none := rfl
  -- No model of the catalog stands for a system model.
  have known : targetOf context snapshot relation.target = none := by
    -- Names of known models are outside the system models.
    rw [targetOf, if_neg apart]
    by_contra isKnown
    obtain ⟨model, found⟩ := Option.ne_none_iff_exists'.mp isKnown
    rw [symmetric.inCatalog _ _ found] at isSystem
    cases isSystem
  -- Nothing is filled in for the name of a relation to a system model.
  have named : ∀ (context : Context) old, context.system.contains relation.target = true →
      filledName context old snapshot fieldName relation = relation.inverseName :=
    fun _ _ isSystem => if_pos isSystem
  have tables : filledTable later none snapshot fieldName relation =
      filledTable context (some stored) snapshot fieldName relation := by
    rw [filledTable, filledTable, named later none (system ▸ isSystem),
      named context (some stored) isSystem, same, known, isPrevious, unknown]
    split
    · rename_i uses
      refine joinTableOf_of_agrees fun declared inherits => ?_
      have declared : relation.joinTable = none := declared
      refine ⟨_, retraces.shared isSystem uses declared inherits, ?_⟩
      simp [joinTableOf, Relation.joinTableName, declared]
    · rfl
  rw [fillRelation_eq later, fillRelation_eq context, named later none (system ▸ isSystem),
    named context (some stored) isSystem, tables]

/-- A relation that retraces what there is of it in the stored version is filled in without that as
it is over it. -/
theorem fillRelation_of_retraces (symmetric : Symmetric context.system context.known)
    (found : context.known.find? snapshot.name = some stored)
    (system : later.system = context.system)
    (known : ∀ name, name ≠ snapshot.name → later.known.find? name = context.known.find? name)
    (retraces : ∀ previous ∈ previousRelation (some stored) fieldName relation.target,
      relation.Retraces context.system snapshot.name stored fieldName previous) :
    fillRelation later none snapshot fieldName relation =
      fillRelation context (some stored) snapshot fieldName relation := by
  have same : targetOf later snapshot relation.target =
      targetOf context snapshot relation.target := by
    unfold targetOf
    split
    · rfl
    · -- The target is another model, so it is found alike.
      rename_i apart
      exact known _ apart
  cases isPrevious : previousRelation (some stored) fieldName relation.target with
  | none =>
    -- A relation that is new takes nothing over.
    have unknown : previousRelation none fieldName relation.target = none := rfl
    simp only [fillRelation_eq, filledName, filledTable, system, same, isPrevious, unknown]
  | some previous =>
    have retraces := retraces previous isPrevious
    -- A relation of the model to itself has to state everything, and then nothing is filled in.
    by_cases own : relation.target = snapshot.name
    · rw [fillRelation_eq_self (system ▸ retraces.own own),
        fillRelation_eq_self (retraces.own own)]
    · by_cases isSystem : context.system.contains relation.target = true
      · exact fillRelation_of_shared symmetric system same isPrevious own isSystem retraces
      · exact fillRelation_of_out symmetric found system same isPrevious
          ⟨own, Bool.eq_false_iff.mpr isSystem⟩ retraces

end Resolution

/-- A definition that retraces its stored version is resolved without that as it is over it. -/
theorem Context.resolve_of_retraces {context : Context} (later : Context) {declared stored : Model}
    (symmetric : Symmetric context.system context.known)
    (found : context.known.find? declared.name = some stored)
    (system : later.system = context.system)
    (known : ∀ name, name ≠ declared.name → later.known.find? name = context.known.find? name)
    (retraces : declared.Retraces context.system stored) :
    later.resolve none declared = context.resolve (some stored) declared := by
  -- Nothing of the definition is dropped for the snapshot, so its fields are filled in one by one.
  have whole : snapshot (some stored) declared = declared := retraces.kept
  have same : filled later none declared = filled context (some stored) declared := by
    have fields : declared.fields.map (fillField later none declared) =
        declared.fields.map (fillField context (some stored) declared) :=
      List.map_congr_left fun field present => fillField_congr fun relation related =>
        fillRelation_of_retraces symmetric found system known
          (retraces.relations field present relation related)
    rw [filled, filled, whole]
    exact congrArg (Model.mk declared.name) fields
  rw [resolve_eq, resolve_eq, same, system]

end ModelCatalog
