import ModelCatalog.Proofs.RelationGraph

/-! Filling in again: a relation is filled in the same way when what it was filled in with before
has been written, to the version of the source or to the target. -/

namespace ModelCatalog

open WritePlan

namespace Resolution

variable {context later : Context} {old older : Option Model} {snapshot other : Model}
  {fieldName : String} {relation : Relation}

/-- The previous version of a relation stands in a field of its name. -/
theorem exists_of_previousRelation {model : Model} {fieldName target : String} {held : Relation}
    (previous : previousRelation (some model) fieldName target = some held) :
    ∃ field ∈ model.fields, field.name = fieldName ∧ field.relation? = some held ∧
      held.target = target := by
  -- The previous version is looked up by the name of the field, and taken where it leads the same
  -- way.
  obtain ⟨field, found, previous⟩ := Option.bind_eq_some_iff.mp previous
  obtain ⟨relation, related, same⟩ := Option.bind_eq_some_iff.mp previous
  obtain ⟨leads, rfl⟩ : relation.target = target ∧ relation = held := by simpa using same
  obtain ⟨present, named⟩ := Model.mem_of_field? found
  exact ⟨field, present, named, related, leads⟩

/-- The model that a relation of a snapshot leads to, as far as it is known. -/
def targetOf (context : Context) (snapshot : Model) (target : String) : Option Model :=
  if target = snapshot.name then some snapshot else context.known.find? target

/-- The inverse name that a relation is filled in with. -/
def filledName (context : Context) (old : Option Model) (snapshot : Model) (fieldName : String)
    (relation : Relation) : Option String :=
  if context.system.contains relation.target then relation.inverseName
  else inverseNameOf snapshot.name fieldName (targetOf context snapshot relation.target)
    (previousRelation old fieldName relation.target) relation

/-- The join table that a relation is filled in with. -/
def filledTable (context : Context) (old : Option Model) (snapshot : Model) (fieldName : String)
    (relation : Relation) : Option String :=
  if relation.kind.usesJoinTable then
    joinTableOf snapshot.name fieldName (targetOf context snapshot relation.target)
      (previousRelation old fieldName relation.target)
      { relation with inverseName := filledName context old snapshot fieldName relation }
  else relation.joinTable

/-- Filling in gives an inverse name and a join table, and keeps all else. -/
theorem fillRelation_eq (context : Context) (old : Option Model) (snapshot : Model)
    (fieldName : String) (relation : Relation) :
    fillRelation context old snapshot fieldName relation =
      { relation with
        inverseName := filledName context old snapshot fieldName relation
        joinTable := filledTable context old snapshot fieldName relation } := by
  -- The two conditions are those of the definition, and in each case the same name is filled in.
  unfold fillRelation filledName filledTable
  by_cases system : context.system.contains relation.target = true <;>
    by_cases uses : relation.kind.usesJoinTable = true <;>
    simp [system, uses, targetOf, filledName]

/-- A relation is filled in alike where its target is known alike. -/
theorem fillRelation_congr (system : later.system = context.system)
    (same : targetOf later snapshot relation.target = targetOf context snapshot relation.target) :
    fillRelation later old snapshot fieldName relation =
      fillRelation context old snapshot fieldName relation := by
  -- The name and the table are filled in from the system models and the target alone.
  simp only [fillRelation_eq, filledName, filledTable, system, same]

/-- A relation is filled in from a previous version that was filled in before. -/
theorem fillRelation_of_previous (system : later.system = context.system)
    (previous : previousRelation older fieldName relation.target =
      some (fillRelation context old snapshot fieldName relation)) :
    fillRelation later older other fieldName relation =
      fillRelation context old snapshot fieldName relation := by
  -- What was filled in has a name and a table wherever they are needed, so that the previous
  -- version always has one to hand on.
  have resolved := @resolved_fillRelation context old snapshot fieldName relation
  rw [fillRelation_eq context] at previous resolved ⊢
  have named : filledName later older other fieldName relation =
      filledName context old snapshot fieldName relation := by
    unfold filledName at previous ⊢
    rw [system]
    split
    · rfl
    · -- What is not declared is inherited, since it was filled in.
      rename_i inCatalog
      rw [if_neg inCatalog] at previous
      have given := resolved.named (by simpa using inCatalog)
      simp only [filledName, if_neg inCatalog] at given
      obtain ⟨name, isName⟩ := Option.isSome_iff_exists.mp given
      rw [isName] at previous ⊢
      unfold inverseNameOf at isName ⊢
      -- A declared name is kept, and otherwise that of the previous version comes first.
      rw [previous]
      cases declared : relation.inverseName with
      | some stated => simpa [declared] using isName
      | none => simp
  have joined : filledTable later older other fieldName relation =
      filledTable context old snapshot fieldName relation := by
    unfold filledTable at previous ⊢
    split
    · rename_i uses
      rw [if_pos uses] at previous
      have given := resolved.joined uses
      simp only [filledTable, if_pos uses] at given
      obtain ⟨table, isTable⟩ := Option.isSome_iff_exists.mp given
      rw [isTable] at previous ⊢
      unfold joinTableOf at isTable ⊢
      -- So does the declared table, or that of the previous version.
      rw [previous]
      cases declared : relation.joinTable with
      | some stated => simpa [declared] using isTable
      | none => simp [uses]
    · rfl
  rw [fillRelation_eq later, named, joined]

/-! ## Counterparts in place -/

section

variable {after : Model} {source name : String} {mate : Field}

/-- The one field that pairs claims the source field, unless they share a name. -/
theorem claimant_of_placed
    (placed : after.fields.filter (fun field => field.pairsWith source fieldName name) = [mate])
    (inverts : mate.invertsTo source fieldName = true) :
    claimant after source fieldName = if mate.name = fieldName then none else some mate.name := by
  -- Any field that claims the source field pairs with it, and only the mate does.
  have only : ∀ field ∈ after.fields, field.invertsTo source fieldName = true → field = mate := by
    intro field present again
    have pairs : field.pairsWith source fieldName name = true :=
      Field.pairsWith_of_invertsTo again name
    exact List.mem_singleton.mp (placed ▸ List.mem_filter.mpr ⟨present, pairs⟩)
  have present : mate ∈ after.fields :=
    (List.mem_filter.mp (placed ▸ List.mem_singleton.mpr rfl)).1
  unfold claimant
  cases found : after.fields.find? fun field =>
      field.name != fieldName && field.invertsTo source fieldName with
  -- Without a claimant the mate can only share the name of the source field.
  | none =>
    have missing := List.find?_eq_none.mp found mate present
    rw [if_pos (by simpa [inverts] using missing)]
    rfl
  -- A claimant is the mate, which has another name then.
  | some field =>
    have holds := List.find?_some found
    rw [Bool.and_eq_true, bne_iff_ne] at holds
    have same := only field (List.mem_of_find?_eq_some found) holds.2
    rw [if_neg (same ▸ holds.1), same]
    rfl

/-- The one field that pairs shares its join table. -/
theorem sharedJoinTable_of_placed
    (placed : after.fields.filter (fun field => field.pairsWith source fieldName name) = [mate])
    {back : Relation} (related : mate.relation? = some back)
    (uses : back.kind.usesJoinTable = true) :
    sharedJoinTable after source fieldName name = back.joinTable := by
  have inFilter : mate ∈ [mate] := List.mem_singleton.mpr rfl
  rw [← placed, List.mem_filter] at inFilter
  unfold sharedJoinTable
  -- The counterpart that is looked for is the mate, the only field that pairs.
  cases found : after.counterpartIndex? source fieldName name with
  -- The mate pairs, so that something is found.
  | none =>
    have apart := Model.pairsWith_of_counterpartIndex?_none found mate inFilter.1
    rw [inFilter.2] at apart
    cases apart
  | some index =>
    obtain ⟨existing, there, pairs⟩ := Model.exists_of_counterpartIndex? found
    have same : existing ∈ [mate] :=
      placed ▸ List.mem_filter.mpr ⟨List.mem_of_getElem? there, pairs⟩
    rw [List.mem_singleton] at same
    subst same
    simp [there, related, uses]

/-- The inverse name is the same when a field of that name has been put in place. -/
theorem inverseNameOf_of_placed {target : Option Model} {previous : Option Relation}
    (named : inverseNameOf source fieldName target previous relation = some mate.name)
    (placed : after.fields.filter (fun field => field.pairsWith source fieldName name) = [mate])
    (inverts : mate.invertsTo source fieldName = true) :
    inverseNameOf source fieldName (some after) previous relation = some mate.name := by
  have claims := claimant_of_placed placed inverts
  -- The three sources of a name are tried in order, and only the last of them looks at the target.
  unfold inverseNameOf at named ⊢
  cases declared : relation.inverseName with
  -- A name that is stated comes first.
  | some stated => simpa [declared] using named
  | none =>
    cases inherited : previous.bind Relation.inverseName with
    -- A name that is inherited comes next.
    | some earlier => simpa [declared, inherited] using named
    | none =>
      rw [declared, inherited, Option.none_or, Option.none_or] at named
      rw [Option.none_or, Option.none_or, Option.bind_some, claims]
      split
      · -- No claimant bears the name of the source field, so the name was the default.
        rename_i sameName
        cases target with
        | none => exact named
        | some before =>
          rw [Option.bind_some] at named
          cases claimed : claimant before source fieldName with
          | none => simpa [claimed] using named
          -- A claimant never bears the name of the source field, but the name that came out was
          -- that name.
          | some claiming =>
            unfold claimant at claimed
            obtain ⟨field, found, isClaiming⟩ := Option.map_eq_some_iff.mp claimed
            have holds := List.find?_some found
            rw [Bool.and_eq_true, bne_iff_ne] at holds
            rw [claimant, found, Option.map_some, Option.some_or, Option.some.injEq, sameName]
              at named
            exact absurd named holds.1
      · -- Otherwise the mate is the claimant, and its name comes out.
        rfl

/-- The join table is the same when a field that uses it has been put in place. -/
theorem joinTableOf_of_placed {target : Option Model} {previous : Option Relation}
    {back : Relation}
    (joined : joinTableOf source fieldName target previous relation = back.joinTable)
    (named : relation.inverseName = some name)
    (placed : after.fields.filter (fun field => field.pairsWith source fieldName name) = [mate])
    (related : mate.relation? = some back) (uses : back.kind.usesJoinTable = true) :
    joinTableOf source fieldName (some after) previous relation = back.joinTable := by
  have shared := sharedJoinTable_of_placed placed related uses
  unfold joinTableOf at joined ⊢
  -- Only the shared table depends on the target, and it is the one that came out before.
  cases declared : relation.joinTable with
  -- A table that is stated comes first.
  | some stated => simpa [declared] using joined
  | none =>
    cases inherited : previous.bind fun previous =>
        if previous.kind.usesJoinTable then previous.joinTable else none with
    -- A table that is inherited comes next.
    | some earlier => simpa [declared, inherited] using joined
    | none =>
      simp only [declared, inherited, named, Option.none_or, Option.bind_eq_bind,
        Option.bind_some] at joined ⊢
      rw [shared]
      cases table : back.joinTable with
      | some _ => rfl
      | none =>
        -- Without a table on the other side there was none before either.
        rw [table] at joined
        simp at joined

end

/-- A relation is filled in alike where its counterpart has been put in place. -/
theorem fillRelation_of_placed (system : later.system = context.system) {field : Field}
    {after : Model} (out : leadsOut context.system snapshot.name relation)
    (isField : field.name = fieldName)
    (related : field.relation? = some (fillRelation context old snapshot fieldName relation))
    (found : later.known.find? relation.target = some after)
    (placed : (insertionOf snapshot.name field
      (fillRelation context old snapshot fieldName relation)).PlacedIn snapshot.name after) :
    fillRelation later old snapshot fieldName relation =
      fillRelation context old snapshot fieldName relation := by
  subst isField
  obtain ⟨mate, only, current⟩ := placed
  have resolved := @resolved_fillRelation context old snapshot field.name relation
  have inverts := (faces_insertionOf snapshot.name field _).invertsTo_of_current current
  -- The counterpart in place mates with the relation, so its name and its table are those filled
  -- in.
  obtain ⟨held, back, heldRelation, backRelation, -, -, inverse, -, kind, joined⟩ :=
    (Field.mates_of_current related resolved (by rw [target_fillRelation]; exact out.2)
      current).sides
  rw [related, Option.some.injEq] at heldRelation
  subst heldRelation
  have known : targetOf later snapshot relation.target = some after := by
    rw [targetOf, if_neg out.1, found]
  have isName : filledName context old snapshot field.name relation = some mate.name := by
    rw [fillRelation_eq] at inverse
    exact inverse
  have named : filledName later old snapshot field.name relation =
      filledName context old snapshot field.name relation := by
    rw [isName]
    unfold filledName at isName ⊢
    rw [if_neg (by simp [out.2])] at isName
    rw [system, if_neg (by simp [out.2]), known]
    exact inverseNameOf_of_placed isName only inverts
  have tables : filledTable later old snapshot field.name relation =
      filledTable context old snapshot field.name relation := by
    unfold filledTable
    rw [named]
    split
    · rename_i uses
      have isTable : back.joinTable = filledTable context old snapshot field.name relation := by
        rw [joined (by rw [kind_fillRelation]; exact uses), fillRelation_eq]
      rw [filledTable, if_pos uses] at isTable
      have counterpart : (insertionOf snapshot.name field
          (fillRelation context old snapshot field.name relation)).counterpart.name =
            mate.name := Field.counterpartName_of_inverse related inverse _
      rw [counterpart] at only
      rw [known, ← isTable]
      refine joinTableOf_of_placed isTable.symm isName only backRelation ?_
      rw [kind, RelationKind.usesJoinTable_inverse, kind_fillRelation]
      exact uses
    · rfl
  rw [fillRelation_eq later, fillRelation_eq context, named, tables]

end Resolution

end ModelCatalog
