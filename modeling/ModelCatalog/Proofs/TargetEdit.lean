import ModelCatalog.Proofs.Counterpart
import ModelCatalog.Relation.WritePlan

/-! Edits to the targets of a source: what an edit leaves behind, and that it need be applied only
once. -/

namespace ModelCatalog

namespace Insertion

/-- The counterpart faces the source: it relates to it, inverts to the field it stands for, and
has no default. -/
structure Faces (source : String) (insertion : Insertion) : Prop where
  inverts : insertion.counterpart.invertsTo source insertion.field = true
  plain : insertion.counterpart.default = none

/-- A counterpart is in place on a target: it is the one field that pairs, and up to date. -/
def PlacedIn (source : String) (target : Model) (insertion : Insertion) : Prop :=
  ∃ placed, target.fields.filter
      (fun field => field.pairsWith source insertion.field insertion.counterpart.name) = [placed] ∧
    insertion.counterpart.mergeInto placed = placed

/-- Two insertions are apart when neither their fields nor their counterparts share a name. -/
def Apart (one other : Insertion) : Prop :=
  one.field ≠ other.field ∧ one.counterpart.name ≠ other.counterpart.name

variable {source : String} {one other insertion : Insertion} {target : Model}

/-- A field that is up to date with a counterpart inverts to the same source field. -/
theorem Faces.invertsTo_of_current (faces : insertion.Faces source) {field : Field}
    -- Merging keeps the target and the inverse name of a relation, by which inversion goes.
    (current : insertion.counterpart.mergeInto field = field) :
    field.invertsTo source insertion.field = true := by
  obtain ⟨relation, related, target, inverse⟩ := Field.invertsTo_iff.mp faces.inverts
  obtain ⟨foreignKey, onDelete, merged⟩ := Field.relation?_mergeInto related field
  rw [current] at merged
  exact Field.invertsTo_iff.mpr ⟨_, merged, target, inverse⟩

/-- A field that is up to date with one counterpart does not pair with another one apart. -/
theorem pairsWith_of_current (faces : one.Faces source) (apart : one.Apart other) {field : Field}
    (current : one.counterpart.mergeInto field = field) :
    field.pairsWith source other.field other.counterpart.name = false := by
  -- It has the name of the one counterpart and inverts to the one source field.
  have named : field.name = one.counterpart.name := by
    rw [← current]
    rfl
  obtain ⟨relation, related, -, inverse⟩ :=
    Field.invertsTo_iff.mp (faces.invertsTo_of_current current)
  rw [Bool.eq_false_iff]
  intro pairs
  rcases (Field.pairsWith_iff.mp pairs).2 with same | inverts
  · exact apart.2 (named ▸ same)
  · obtain ⟨again, relatedAgain, -, inverseAgain⟩ := Field.invertsTo_iff.mp inverts
    rw [related, Option.some.injEq] at relatedAgain
    subst relatedAgain
    rw [inverse, Option.some.injEq] at inverseAgain
    exact apart.1 inverseAgain

/-- Putting a counterpart in place puts it in place. -/
theorem placedIn_upsertCounterpart (faces : insertion.Faces source) (target : Model) :
    insertion.PlacedIn source
      (target.upsertCounterpart source insertion.field insertion.counterpart).target :=
  -- Exactly one field pairs with the source field afterwards, and it is up to date.
  ⟨_, Model.filter_pairsWith_upsertCounterpart (Field.targets_of_invertsTo faces.inverts),
    Model.mergeInto_upsertCounterpart target source insertion.field insertion.counterpart⟩

/-- Putting another counterpart in place leaves one that is in place. -/
theorem PlacedIn.upsertCounterpart (placed : one.PlacedIn source target)
    (faces : one.Faces source) (otherFaces : other.Faces source) (apart : one.Apart other) :
    one.PlacedIn source
      (target.upsertCounterpart source other.field other.counterpart).target := by
  -- The field in place pairs with its own insertion, and the other is apart from that.
  obtain ⟨field, only, current⟩ := placed
  refine ⟨field, ?_, current⟩
  rw [Model.filter_upsertCounterpart, only]
  · intro found present pairs
    -- The one field that pairs with the first counterpart does not pair with the second.
    rw [Bool.eq_false_iff]
    intro pairsOne
    have same : found ∈ [field] := only ▸ List.mem_filter.mpr ⟨present, pairsOne⟩
    rw [List.mem_singleton] at same
    subst same
    rw [pairsWith_of_current faces apart current] at pairs
    cases pairs
  · exact pairsWith_of_current otherFaces ⟨apart.1.symm, apart.2.symm⟩
      (Model.mergeInto_upsertCounterpart target source other.field other.counterpart)

/-- A counterpart in place is a field of the target. -/
theorem PlacedIn.exists_mem (placed : insertion.PlacedIn source target) :
    ∃ field ∈ target.fields, insertion.counterpart.mergeInto field = field := by
  obtain ⟨field, only, current⟩ := placed
  -- What the filter leaves is the one field, and it was a field of the target.
  have found : field ∈ [field] := List.mem_singleton.mpr rfl
  exact ⟨field, (List.mem_filter.mp (only ▸ found)).1, current⟩

/-- A counterpart that is in place on a target is in place on an equal one. -/
theorem PlacedIn.of_sameAs {again : Model} (faces : insertion.Faces source)
    (placed : insertion.PlacedIn source target) (same : again.sameAs target = true) :
    insertion.PlacedIn source again := by
  obtain ⟨field, only, current⟩ := placed
  have alike : Field.sameList (again.fields.filter fun field =>
      field.pairsWith source insertion.field insertion.counterpart.name) [field] = true :=
    only ▸ Field.sameList_filter (Model.sameList_of_sameAs same) fun _ _ outline =>
      Field.pairsWith_congr outline _ _ _
  obtain ⟨twin, _, equal, none, isOnly⟩ :=
    List.forall₂_cons_right_iff.mp (Field.sameList_iff.mp alike)
  obtain rfl := List.forall₂_nil_right_iff.mp none
  -- The field in place has no default that could be spelled differently.
  have plain : field.default = Option.none := by
    rw [← current]
    exact faces.plain
  rw [Field.eq_of_sameAs_of_plain plain equal] at isOnly
  exact ⟨field, isOnly, current⟩

end Insertion

namespace TargetEdit

variable {source : String}

/-! ## Removals -/

/-- Removals keep the fields that none of them takes. -/
theorem fields_applyRemovals (target : Model) (removals : List Removal) :
    (applyRemovals source target removals).fields =
      target.fields.filter fun field =>
        removals.all fun removal => !field.isRemovedWith source removal.field removal.name := by
  -- Each removal filters what the ones before it left.
  induction removals generalizing target with
  | nil => exact (List.filter_eq_self.mpr fun _ _ => rfl).symm
  | cons first rest ih =>
    have step : applyRemovals source target (first :: rest) =
        applyRemovals source (target.removeCounterpart source first.field first.name) rest := rfl
    rw [step, ih]
    simp only [Model.removeCounterpart, List.filter_filter, List.all_cons]
    exact List.filter_congr fun field _ => Bool.and_comm _ _

/-- Removals keep the name of the target. -/
@[simp] theorem name_applyRemovals (target : Model) (removals : List Removal) :
    (applyRemovals source target removals).name = target.name := by
  -- Each removal only filters the fields.
  induction removals generalizing target with
  | nil => rfl
  | cons first rest ih => exact ih _

/-! ## Insertions -/

/-- Insertions keep the name of the target. -/
@[simp] theorem name_applyInsertions (target : Model) (insertions : List Insertion) :
    (applyInsertions source target insertions).1.name = target.name := by
  -- Each insertion only touches the fields.
  induction insertions generalizing target with
  | nil => rfl
  | cons first rest ih => exact ih _

/-- Insertions keep the fields that pair with none of them, in order. -/
theorem filter_applyInsertions {kept : Field → Bool} {insertions : List Insertion}
    (faces : ∀ insertion ∈ insertions, insertion.Faces source)
    (apart : ∀ insertion ∈ insertions, ∀ field : Field,
      field.pairsWith source insertion.field insertion.counterpart.name = true →
        kept field = false)
    (target : Model) :
    (applyInsertions source target insertions).1.fields.filter kept =
      target.fields.filter kept := by
  -- Every counterpart put in place pairs with its own insertion.
  induction insertions generalizing target with
  | nil => rfl
  | cons first rest ih =>
    have step := ih (fun insertion later => faces insertion (List.mem_cons_of_mem _ later))
      (fun insertion later => apart insertion (List.mem_cons_of_mem _ later))
      (target.upsertCounterpart source first.field first.counterpart).target
    have own := apart first List.mem_cons_self
    have firstFaces := faces first List.mem_cons_self
    have current := Model.mergeInto_upsertCounterpart target source first.field first.counterpart
    refine step.trans (Model.filter_upsertCounterpart (fun field _ => own field) (own _ ?_))
    exact Field.pairsWith_of_invertsTo (firstFaces.invertsTo_of_current current) _

/-- Further insertions leave a counterpart in place that is apart from all of them. -/
theorem placedIn_applyInsertions_of_apart {one : Insertion} {insertions : List Insertion}
    (face : one.Faces source) (faces : ∀ insertion ∈ insertions, insertion.Faces source)
    (apart : ∀ insertion ∈ insertions, one.Apart insertion) {target : Model}
    (placed : one.PlacedIn source target) :
    one.PlacedIn source (applyInsertions source target insertions).1 := by
  -- Each insertion leaves the counterpart in place for the ones that follow.
  induction insertions generalizing target with
  | nil => exact placed
  | cons first rest ih =>
    refine ih (fun insertion later => faces insertion (List.mem_cons_of_mem _ later))
      (fun insertion later => apart insertion (List.mem_cons_of_mem _ later)) ?_
    exact placed.upsertCounterpart face (faces first List.mem_cons_self)
      (apart first List.mem_cons_self)

/-- Insertions that are apart from each other are all in place afterwards. -/
theorem placedIn_applyInsertions {insertions : List Insertion}
    (faces : ∀ insertion ∈ insertions, insertion.Faces source)
    (apart : insertions.Pairwise Insertion.Apart) (target : Model) :
    ∀ insertion ∈ insertions,
      insertion.PlacedIn source (applyInsertions source target insertions).1 := by
  induction insertions generalizing target with
  | nil => simp
  | cons first rest ih =>
    obtain ⟨firstApart, restApart⟩ := List.pairwise_cons.mp apart
    have restFaces : ∀ insertion ∈ rest, insertion.Faces source :=
      fun insertion later => faces insertion (List.mem_cons_of_mem _ later)
    intro insertion member
    -- The first one is put in place, and the rest are apart from it.
    rcases List.mem_cons.mp member with rfl | later
    · exact placedIn_applyInsertions_of_apart (faces _ List.mem_cons_self) restFaces firstApart
        (Insertion.placedIn_upsertCounterpart (faces _ List.mem_cons_self) target)
    · exact ih restFaces restApart _ insertion later

/-- Insertions that are all in place change nothing. -/
theorem applyInsertions_of_placed {insertions : List Insertion} {target : Model}
    (placed : ∀ insertion ∈ insertions, insertion.PlacedIn source target)
    (comparable : Field.sameList target.fields target.fields = true) :
    applyInsertions source target insertions = (target, false) := by
  -- The target is the same for every insertion, since none changes it.
  induction insertions with
  | nil => rfl
  | cons first rest ih =>
    obtain ⟨field, only, current⟩ := placed first List.mem_cons_self
    have same := Model.upsertCounterpart_of_placed only current
    have unchanged := Model.upsertCounterpart_unchanged_of_placed only current comparable
    simp only [applyInsertions, same, unchanged, Bool.false_or]
    rw [ih fun insertion later => placed insertion (List.mem_cons_of_mem _ later)]

/-- A field of a target with insertions is either up to date with one of them, or one from before
that pairs with none. -/
theorem mem_applyInsertions {insertions : List Insertion} {target : Model} {field : Field}
    (present : field ∈ (applyInsertions source target insertions).1.fields) :
    (∃ insertion ∈ insertions, insertion.counterpart.mergeInto field = field) ∨
      field ∈ target.fields ∧ ∀ insertion ∈ insertions,
        field.pairsWith source insertion.field insertion.counterpart.name = false := by
  -- What the first insertion leaves is either its counterpart or a field that does not pair.
  induction insertions generalizing target with
  | nil => exact Or.inr ⟨present, by simp⟩
  | cons first rest ih =>
    rcases ih present with ⟨insertion, later, current⟩ | ⟨inMiddle, apart⟩
    · exact Or.inl ⟨insertion, List.mem_cons_of_mem _ later, current⟩
    · rcases Model.mem_upsertCounterpart.mp inMiddle with same | ⟨before, apartFirst⟩
      · refine Or.inl ⟨first, List.mem_cons_self, ?_⟩
        rw [same]
        exact Model.mergeInto_upsertCounterpart target source first.field first.counterpart
      · refine Or.inr ⟨before, fun insertion member => ?_⟩
        rcases List.mem_cons.mp member with rfl | later
        · exact apartFirst
        · exact apart insertion later

/-- Insertions that report no change make none. -/
theorem eq_of_applyInsertions_unchanged {insertions : List Insertion}
    (plain : ∀ insertion ∈ insertions, insertion.counterpart.default = none) {target : Model}
    (unchanged : (applyInsertions source target insertions).2 = false) :
    (applyInsertions source target insertions).1 = target := by
  -- No change at all means none at the first insertion and none at the rest.
  induction insertions generalizing target with
  | nil => rfl
  | cons first rest ih =>
    simp only [applyInsertions, Bool.or_eq_false_iff] at unchanged
    have same := Model.eq_of_upsertCounterpart_unchanged
      (Field.unambiguous_of_plain (plain first List.mem_cons_self)) unchanged.1
    have step := ih (fun insertion later => plain insertion (List.mem_cons_of_mem _ later))
      unchanged.2
    rw [same] at step
    simp only [applyInsertions, same]
    exact step

/-! ## Whole edits -/

/-- An edit is in order when its counterparts face the source and are apart from each other, and
no field both loses and gets a counterpart. -/
structure Orderly (source : String) (edit : TargetEdit) : Prop where
  faces : ∀ insertion ∈ edit.insertions, insertion.Faces source
  apart : edit.insertions.Pairwise Insertion.Apart
  disjoint : ∀ removal ∈ edit.removals, ∀ insertion ∈ edit.insertions,
    removal.field ≠ insertion.field

/-- An edit is settled in a target when there is nothing left to do. -/
structure SettledIn (source : String) (target : Model) (edit : TargetEdit) : Prop where
  placed : ∀ insertion ∈ edit.insertions, insertion.PlacedIn source target
  removed : ∀ removal ∈ edit.removals, ∀ field ∈ target.fields,
    field.isRemovedWith source removal.field removal.name = false

variable {edit : TargetEdit} {target : Model}

/-- An edit keeps the name of the target. -/
@[simp] theorem name_apply (edit : TargetEdit) (source : String) (target : Model) :
    (edit.apply source target).1.name = target.name := by
  -- Both halves of an edit keep the name.
  simp [apply]

/-- A field of an edited target is either up to date with one of the counterparts that came, or
one from before that neither went nor pairs with any of them. -/
theorem mem_apply {field : Field} (present : field ∈ (edit.apply source target).1.fields) :
    (∃ insertion ∈ edit.insertions, insertion.counterpart.mergeInto field = field) ∨
      field ∈ target.fields ∧
        (∀ removal ∈ edit.removals,
          field.isRemovedWith source removal.field removal.name = false) ∧
        ∀ insertion ∈ edit.insertions,
          field.pairsWith source insertion.field insertion.counterpart.name = false := by
  -- What no insertion has put there was left over by the removals.
  rcases mem_applyInsertions present with placed | ⟨left, apart⟩
  · exact Or.inl placed
  · rw [fields_applyRemovals, List.mem_filter] at left
    refine Or.inr ⟨left.1, fun removal member => ?_, apart⟩
    simpa using List.all_eq_true.mp left.2 removal member

/-- An edit keeps the fields that lead elsewhere than to the source, in order. -/
theorem filter_apply (faces : ∀ insertion ∈ edit.insertions, insertion.Faces source)
    (target : Model) :
    (edit.apply source target).1.fields.filter (fun field => !field.targets source) =
      target.fields.filter fun field => !field.targets source := by
  -- Insertions and removals both concern fields that lead to the source.
  refine (filter_applyInsertions faces ?_ _).trans ?_
  · intro insertion _ field pairs
    simp [(Field.pairsWith_iff.mp pairs).1]
  · rw [fields_applyRemovals, List.filter_filter]
    refine List.filter_congr fun field _ => ?_
    cases elsewhere : field.targets source with
    | true => simp
    | false =>
      simp only [Bool.not_false, Bool.true_and, List.all_eq_true, Bool.not_eq_true']
      intro removal _
      rw [Bool.eq_false_iff]
      intro removed
      rw [Field.targets_of_isRemovedWith removed] at elsewhere
      cases elsewhere

/-- An edit changes its target only in fields that lead to the source. -/
theorem Orderly.stripReferences_apply (orderly : edit.Orderly source) (target : Model) :
    (edit.apply source target).1.stripReferences source = target.stripReferences source := by
  -- Both sides have the same name, and the fields that lead elsewhere are the same.
  unfold Model.stripReferences
  rw [filter_apply orderly.faces, name_apply]

/-- A field that leads elsewhere than to the source is in the target before an edit exactly when
it is there afterwards. -/
theorem mem_apply_of_not_targets (faces : ∀ insertion ∈ edit.insertions, insertion.Faces source)
    {field : Field} (elsewhere : field.targets source = false) :
    field ∈ (edit.apply source target).1.fields ↔ field ∈ target.fields := by
  -- The field passes the filter that the edit does not change.
  have kept := filter_apply faces target
  have within : ∀ fields : List Field,
      field ∈ fields ↔ field ∈ fields.filter fun field => !field.targets source := by
    simp [List.mem_filter, elsewhere]
  rw [within, kept, ← within]

/-- An edit in order is settled once it is applied. -/
theorem Orderly.settledIn_apply (orderly : edit.Orderly source) (target : Model) :
    edit.SettledIn source (edit.apply source target).1 := by
  -- The insertions come last, so what remains is that they bring back nothing that was removed.
  refine ⟨placedIn_applyInsertions orderly.faces orderly.apart _, ?_⟩
  intro removal member field present
  rcases mem_apply present with ⟨insertion, inserted, current⟩ | ⟨-, removed, -⟩
  · -- A counterpart that came inverts to another field than the one that lost its own.
    obtain ⟨relation, related, -, inverse⟩ := Field.invertsTo_iff.mp
      ((orderly.faces insertion inserted).invertsTo_of_current current)
    have differ := orderly.disjoint removal member insertion inserted
    simp [Field.isRemovedWith, related, inverse, Ne.symm differ]
  · exact removed removal member

/-- A settled edit changes nothing. -/
theorem SettledIn.apply_eq (settled : edit.SettledIn source target)
    (comparable : Field.sameList target.fields target.fields = true) :
    edit.apply source target = (target, false) := by
  -- Nothing is removed, and the insertions find their counterparts in place.
  have kept : applyRemovals source target edit.removals = target := by
    have same : (applyRemovals source target edit.removals).fields = target.fields := by
      rw [fields_applyRemovals, List.filter_eq_self]
      intro field present
      simp only [List.all_eq_true, Bool.not_eq_true']
      exact fun removal member => settled.removed removal member field present
    have named := @name_applyRemovals source target edit.removals
    cases after : applyRemovals source target edit.removals
    cases target
    simp_all
  simp only [apply, kept, applyInsertions_of_placed settled.placed comparable]
  simp [Model.lostFields]

/-- An edit that is settled in a target is settled in an equal one. -/
theorem SettledIn.of_sameAs {other : Model} (orderly : edit.Orderly source)
    (settled : edit.SettledIn source target) (same : other.sameAs target = true) :
    edit.SettledIn source other := by
  refine ⟨fun insertion listed =>
    (settled.placed insertion listed).of_sameAs (orderly.faces insertion listed) same, ?_⟩
  -- Insertions are settled by their own lemma, and a removal by the twin of the field.
  intro removal listed field present
  obtain ⟨twin, inTarget, alike⟩ :=
    Model.exists_of_outline_eq (Model.outline_eq_of_sameAs same) present
  rw [← Field.isRemovedWith_congr alike]
  exact settled.removed removal listed twin inTarget

/-- An edit that reports a change makes another definition of its target. -/
theorem Orderly.sameAs_eq_false (orderly : edit.Orderly source) (comparable : target.Comparable)
    (changed : (edit.apply source target).2 = true) :
    target.sameAs (edit.apply source target).1 = false := by
  by_contra same
  -- Otherwise there was nothing left to do in the target.
  have settled := SettledIn.of_sameAs orderly (orderly.settledIn_apply target)
    (Bool.not_eq_false _ ▸ same)
  rw [settled.apply_eq (Field.sameList_self_of_comparable comparable)] at changed
  cases changed

/-- An edit that reports no change makes none. -/
theorem Orderly.eq_of_unchanged (orderly : edit.Orderly source)
    (unchanged : (edit.apply source target).2 = false) :
    (edit.apply source target).1 = target := by
  simp only [apply, Bool.or_eq_false_iff] at unchanged
  obtain ⟨keptAll, insertedNone⟩ := unchanged
  -- A removal would have cost a field, which an edit reports.
  have pruned : applyRemovals source target edit.removals = target := by
    have counted : (applyRemovals source target edit.removals).fields.length =
        target.fields.length := by
      simpa [Model.lostFields] using keptAll
    have named := @name_applyRemovals source target edit.removals
    -- A list that was filtered without getting shorter is the list itself.
    have same : (applyRemovals source target edit.removals).fields = target.fields := by
      rw [fields_applyRemovals] at counted ⊢
      exact List.filter_eq_self.mpr (List.length_filter_eq_length_iff.mp counted)
    cases after : applyRemovals source target edit.removals
    cases target
    simp_all
  rw [apply, eq_of_applyInsertions_unchanged
    (fun insertion member => (orderly.faces insertion member).plain) insertedNone, pruned]

end TargetEdit

end ModelCatalog
