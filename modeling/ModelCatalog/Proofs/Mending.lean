import ModelCatalog.Proofs.MendTurn

/-! Mending: what the turns of all models, one after the other, make of a graph. -/

namespace ModelCatalog

open WritePlan RepairPlan

namespace Models

/-- A model has a relation to another one under this name. -/
def HasRelation (known : Models) (holder target name : String) : Prop :=
  ∃ model, known.find? holder = some model ∧
    ∃ field ∈ model.fields, field.targets target = true ∧ field.name = name

/-- A model has a relation to another one that claims this name there. -/
def HasClaim (known : Models) (holder target name : String) : Prop :=
  ∃ model, known.find? holder = some model ∧
    ∃ field ∈ model.fields, field.targets target = true ∧ field.counterpartName holder = name

/-- A name can become that of a relation in the course of a repair: it is one already, or the
other side claims it. -/
def Foresees (known : Models) (holder target name : String) : Prop :=
  known.HasRelation holder target name ∨ known.HasClaim target holder name

/-- A claim of a source on a target was never to be met: no relation to the source has the name
there, and something else has it or may come to have it. -/
structure Denies (known : Models) (source target name : String) : Prop where
  claimed : known.HasClaim source target name
  unmet : ¬known.HasRelation target source name
  taken : (∃ model, known.find? target = some model ∧
      ∃ field ∈ model.fields, field.name = name ∧ field.targets source = false) ∨
    ∃ other, other ≠ source ∧ other ≠ target ∧ known.HasClaim other target name

end Models

variable {system : SystemModels}

/-- A graph fit to be mended: its models are tidy and unambiguous, and their relations lead to
models that are there. -/
structure Mendable (system : SystemModels) (known : Models) : Prop where
  inCatalog : ∀ name model, known.find? name = some model → system.contains name = false
  tidy : ∀ name model, known.find? name = some model → model.Tidy system
  unambiguous : ∀ name model, known.find? name = some model → model.Unambiguous system
  stored : ∀ name model, known.find? name = some model → ∀ field ∈ model.fields,
    ∀ relation, field.relation? = some relation → leadsOut system name relation →
      ∃ target, known.find? relation.target = some target

/-- A graph on its way through mending, after the turns of some models. -/
structure Mending (system : SystemModels) (start : Models) (turns : List String)
    (known : Models) : Prop where
  mendable : Mendable system known
  /-- The models are those there were at the start. -/
  same : ∀ name, (known.find? name).isSome = (start.find? name).isSome
  /-- Only the turn of a model changes what relates to it. -/
  waiting : ∀ source, source ∉ turns → ∀ name model before, known.find? name = some model →
    start.find? name = some before → ∀ field : Field, field.targets source = true →
      (field ∈ model.fields ↔ field ∈ before.fields)
  /-- What leads nowhere else stays. -/
  kept : ∀ name model before, known.find? name = some model → start.find? name = some before →
    ∀ field : Field,
      (∀ relation, field.relation? = some relation → ¬leadsOut system name relation) →
      (field ∈ model.fields ↔ field ∈ before.fields)
  /-- The names on both sides of a relation were foreseen. -/
  foreseen : ∀ name model, known.find? name = some model → ∀ field ∈ model.fields,
    ∀ relation, field.relation? = some relation → leadsOut system name relation →
      start.Foresees name relation.target field.name ∧
        start.Foresees relation.target name (field.counterpartName name)
  /-- A relation of a model that had its turn has a mate, or the claim was never to be met. -/
  settled : ∀ name ∈ turns, ∀ model, known.find? name = some model → ∀ field ∈ model.fields,
    ∀ relation, field.relation? = some relation → leadsOut system name relation →
      (∃ target, known.find? relation.target = some target ∧ target.HasMate name field) ∨
        start.Denies name relation.target (field.counterpartName name)

namespace Mending

variable {start known : Models} {turns : List String} {source : Model}

/-- Mending begins before the first turn. -/
theorem refl (mendable : Mendable system start) : Mending system start [] start where
  mendable := mendable
  same := fun _ => rfl
  -- Before the first turn every model is the one it was.
  waiting := by
    intro source _ name model before found earlier field _
    rw [found, Option.some.injEq] at earlier
    rw [earlier]
  kept := by
    intro name model before found earlier field _
    rw [found, Option.some.injEq] at earlier
    rw [earlier]
  foreseen := by
    intro name model found field present relation related out
    -- The field has its own name, and claims the one of its counterpart.
    have targets : field.targets relation.target = true :=
      Field.targets_iff.mpr ⟨relation, related, rfl⟩
    exact ⟨Or.inl ⟨model, found, field, present, targets, rfl⟩,
      Or.inr ⟨model, found, field, present, targets, rfl⟩⟩
  settled := by simp

/-- A model was there at the start. -/
theorem exists_start (mending : Mending system start turns known) {name : String} {model : Model}
    (found : known.find? name = some model) : ∃ before, start.find? name = some before := by
  -- Both collections have the same names.
  rw [← Option.isSome_iff_exists, ← mending.same, found]
  rfl

/-- A claim that is barred when its turn comes was never to be met. -/
theorem denies_of_bars (mending : Mending system start turns known)
    (found : known.find? source.name = some source) (waits : source.name ∉ turns) {field : Field}
    {relation : Relation} (present : field ∈ source.fields)
    (related : field.relation? = some relation) (out : leadsOut system source.name relation)
    {target : Model} (targetFound : known.find? relation.target = some target)
    (barred : target.bars source.name (field.counterpartName source.name) = true) :
    start.Denies source.name relation.target (field.counterpartName source.name) := by
  -- The name is barred by a field of the target that leads elsewhere.
  have tidy := mending.mendable.tidy _ target targetFound
  obtain ⟨blocker, inTarget, named, elsewhere⟩ := (Model.bars_iff tidy.distinct).mp barred
  obtain ⟨before, earlier⟩ := mending.exists_start targetFound
  -- A relation of the name back to the source would still be there, beside the blocker.
  have unmet : ¬start.HasRelation relation.target source.name
      (field.counterpartName source.name) := by
    rintro ⟨model, inStart, other, otherPresent, back, sameName⟩
    rw [earlier, Option.some.injEq] at inStart
    subst inStart
    have there := (mending.waiting _ waits _ target before targetFound earlier other back).mpr
      otherPresent
    have same := Model.eq_of_name_eq tidy.distinct inTarget there (named.trans sameName.symm)
    rw [same, back] at elsewhere
    cases elsewhere
  refine ⟨?_, unmet, ?_⟩
  · rcases (mending.foreseen _ source found field present relation related out).2 with met | claim
    · exact absurd met unmet
    · exact claim
  · by_cases leads : ∃ held, blocker.relation? = some held ∧ leadsOut system relation.target held
    · -- The blocker has its name from a relation at the start, on one side or the other.
      obtain ⟨held, heldRelation, away⟩ := leads
      have differ : held.target ≠ source.name :=
        (Field.not_targets_iff heldRelation).mp elsewhere
      rcases (mending.foreseen _ target targetFound blocker inTarget held heldRelation away).1 with
        ⟨model, inStart, other, otherPresent, targets, sameName⟩ | claim
      · refine Or.inl ⟨model, inStart, other, otherPresent, sameName.trans named, ?_⟩
        exact Field.not_targets_of_ne targets differ
      · rw [named] at claim
        exact Or.inr ⟨held.target, differ, away.1, claim⟩
    · -- A blocker that leads nowhere else was there from the start.
      have stays : ∀ held, blocker.relation? = some held → ¬leadsOut system relation.target held :=
        fun held heldRelation away => leads ⟨held, heldRelation, away⟩
      exact Or.inl ⟨before, earlier, blocker,
        (mending.kept _ target before targetFound earlier blocker stays).mp inTarget, named,
        elsewhere⟩

variable {next : Models}

/-- A model after a turn is what the turn has made of one before. -/
theorem exists_of_turned
    (turned : ∀ name, next.find? name = (known.find? name).map (mended system source))
    {name : String} {model : Model} (found : next.find? name = some model) :
    ∃ before, known.find? name = some before ∧ before.name = name ∧
      model = mended system source before := by
  -- A turn changes what is found under the names, and no names.
  rw [turned] at found
  obtain ⟨before, inKnown, rfl⟩ := Option.map_eq_some_iff.mp found
  exact ⟨before, inKnown, Roster.name_of_find? inKnown, rfl⟩

/-- A turn of one model leaves a graph fit to be mended. -/
theorem mendable_of_turned (mendable : Mendable system known)
    (found : known.find? source.name = some source)
    (turned : ∀ name, next.find? name = (known.find? name).map (mended system source)) :
    Mendable system next := by
  -- Every model of the graph is one from before, mended by the turn.
  have tidy := mendable.tidy _ source found
  refine ⟨?_, ?_, ?_, ?_⟩
  · -- Names stay, so they stay outside the system models.
    intro name model inNext
    obtain ⟨before, inKnown, -⟩ := exists_of_turned turned inNext
    exact mendable.inCatalog name before inKnown
  · -- The source is not mended, and a mended model is tidy when both were.
    intro name model inNext
    obtain ⟨before, inKnown, own, rfl⟩ := exists_of_turned turned inNext
    by_cases same : before.name = source.name
    · rw [← own, same, found, Option.some.injEq] at inKnown
      rw [← inKnown, mended_self]
      exact tidy
    · exact tidy_mended tidy (mendable.tidy name before inKnown) same
  · -- Counterparts of one source claim different names.
    intro name model inNext
    obtain ⟨before, inKnown, -, rfl⟩ := exists_of_turned turned inNext
    exact unambiguous_mended tidy (mendable.tidy name before inKnown)
      (mendable.unambiguous name before inKnown)
  · intro name model inNext field present relation related out
    obtain ⟨before, inKnown, -, rfl⟩ := exists_of_turned turned inNext
    -- A field that came leads to the source, and the others lead where they did.
    have known : ∃ target, known.find? relation.target = some target := by
      by_cases back : relation.target = source.name
      · exact ⟨source, back ▸ found⟩
      · have elsewhere : field.targets source.name = false :=
          (Field.not_targets_iff related).mpr back
        have distinct := (mendable.tidy name before inKnown).distinct
        exact mendable.stored name before inKnown field
          ((mem_mended_of_not_targets distinct elsewhere).mp present) relation related out
    obtain ⟨target, targetFound⟩ := known
    exact ⟨mended system source target, by rw [turned, targetFound]; rfl⟩

/-- After the turn of a model its own relations are settled. -/
theorem settled_self (mending : Mending system start turns known)
    (found : known.find? source.name = some source) (waits : source.name ∉ turns)
    (turned : ∀ name, next.find? name = (known.find? name).map (mended system source))
    {field : Field} {relation : Relation} (present : field ∈ source.fields)
    (related : field.relation? = some relation) (out : leadsOut system source.name relation) :
    (∃ target, next.find? relation.target = some target ∧ target.HasMate source.name field) ∨
      start.Denies source.name relation.target (field.counterpartName source.name) := by
  -- The counterpart is put in place unless its name is barred.
  obtain ⟨target, targetFound⟩ :=
    mending.mendable.stored _ source found field present relation related out
  have named : target.name = relation.target := Roster.name_of_find? targetFound
  cases barred : target.bars source.name (field.counterpartName source.name) with
  | true =>
    exact Or.inr (mending.denies_of_bars found waits present related out targetFound barred)
  | false =>
    refine Or.inl ⟨mended system source target, by rw [turned, targetFound]; rfl, ?_⟩
    exact hasMate_mended (mending.mendable.tidy _ source found)
      (mending.mendable.unambiguous _ source found)
      (mending.mendable.tidy _ target targetFound).distinct present related out named.symm barred

/-- A relation to the source that has a mate there pairs with it, so it does not outlast the turn as
one that pairs with nothing. -/
theorem not_hasMate_of_unpaired (mending : Mending system start turns known) {model : Model}
    (inKnown : known.find? model.name = some model) {field : Field} {relation : Relation}
    (present : field ∈ model.fields) (related : field.relation? = some relation)
    (out : leadsOut system model.name relation) (back : relation.target = source.name)
    (unpaired : ∀ one ∈ source.fields, ∀ held, one.relation? = some held →
      leadsOut system source.name held → held.target = model.name →
      model.bars source.name (one.counterpartName source.name) = false →
      field.pairsWith source.name one.name (one.counterpartName source.name) = false) :
    ¬source.HasMate model.name field := by
  rintro ⟨mate, matePresent, mates⟩
  -- The mate itself is a relation of the source that would have to be paired.
  obtain ⟨mateRelation, mateRelated, leads⟩ := Field.targets_iff.mp mates.symm.targets
  have away : leadsOut system source.name mateRelation :=
    ⟨leads ▸ fun same => out.1 (back.trans same.symm),
      leads ▸ mending.mendable.inCatalog _ model inKnown⟩
  have named : mate.counterpartName source.name = field.name :=
    mates.symm.counterpartName source.name
  -- The name that the mate claims is that of the field, which is not barred to the source.
  have free : model.bars source.name (mate.counterpartName source.name) = false := by
    have distinct := (mending.mendable.tidy _ model inKnown).distinct
    rw [Bool.eq_false_iff]
    intro barred
    obtain ⟨blocker, inModel, sameName, elsewhere⟩ := (Model.bars_iff distinct).mp barred
    have same := Model.eq_of_name_eq distinct inModel present (sameName.trans named)
    rw [same] at elsewhere
    exact (Field.not_targets_iff related).mp elsewhere back
  have apart := unpaired mate matePresent mateRelation mateRelated away leads free
  have pairs : field.pairsWith source.name mate.name (mate.counterpartName source.name) = true :=
    Field.pairsWith_of_invertsTo mates.invertsTo _
  exact Bool.false_ne_true (apart.symm.trans pairs)

/-- A mate in one model of a field of another stays in the turn of a third one. -/
theorem hasMate_mended_of_ne (mending : Mending system start turns known) {model target : Model}
    {field : Field} (targetFound : known.find? target.name = some target)
    (apart : model.name ≠ source.name) (mated : target.HasMate model.name field) :
    (mended system source target).HasMate model.name field := by
  obtain ⟨mate, matePresent, mates⟩ := mated
  -- The mate leads to the model of the field, and that is not the one whose turn it is.
  have elsewhere : mate.targets source.name = false :=
    Field.not_targets_of_ne mates.symm.targets apart
  have distinct := (mending.mendable.tidy _ target targetFound).distinct
  refine ⟨mate, (mem_mended_of_not_targets distinct elsewhere).mpr matePresent, ?_⟩
  rw [name_mended]
  exact mates

/-- After the turn of a model the relations stay settled of those that had their turn before. -/
theorem settled_other (mending : Mending system start turns known)
    (found : known.find? source.name = some source) (waits : source.name ∉ turns)
    (turned : ∀ name, next.find? name = (known.find? name).map (mended system source))
    {model : Model} (inKnown : known.find? model.name = some model) (had : model.name ∈ turns)
    {field : Field} {relation : Relation}
    (present : field ∈ (mended system source model).fields)
    (related : field.relation? = some relation) (out : leadsOut system model.name relation) :
    (∃ target, next.find? relation.target = some target ∧ target.HasMate model.name field) ∨
      start.Denies model.name relation.target (field.counterpartName model.name) := by
  -- A turn touches the relations to the source and their mates, and no others.
  have tidy := mending.mendable.tidy _ source found
  have distinct := (mending.mendable.tidy _ model inKnown).distinct
  have sourceStays : next.find? source.name = some source := by
    rw [turned, found, Option.map_some, mended_self]
  by_cases back : relation.target = source.name
  · rcases mem_mended tidy distinct present with
      ⟨origin, inSource, -, -, -, -, -, mates, -⟩ | ⟨before, unpaired⟩
    · -- A field that came is the mate of a relation of the source.
      exact Or.inl ⟨source, back ▸ sourceStays, origin, inSource, mates.symm⟩
    · rcases mending.settled _ had model inKnown field before relation related out with
        ⟨target, targetFound, mated⟩ | denied
      · -- A field that stayed pairs with no relation of the source, so that it had no mate there.
        rw [back, found, Option.some.injEq] at targetFound
        subst targetFound
        exact absurd mated
          (mending.not_hasMate_of_unpaired inKnown before related out back unpaired)
      · exact Or.inr denied
  · -- Relations between two others are not touched on either side.
    have elsewhere : field.targets source.name = false :=
      (Field.not_targets_iff related).mpr back
    have before := (mem_mended_of_not_targets distinct elsewhere).mp present
    rcases mending.settled _ had model inKnown field before relation related out with
      ⟨target, targetFound, mated⟩ | denied
    · have named : target.name = relation.target := Roster.name_of_find? targetFound
      refine Or.inl ⟨mended system source target, by rw [turned, targetFound]; rfl, ?_⟩
      exact mending.hasMate_mended_of_ne (named.symm ▸ targetFound)
        (fun same => waits (same ▸ had)) mated
    · exact Or.inr denied

/-- The names that a turn brings about were foreseen. -/
theorem foreseen_of_turned (mending : Mending system start turns known)
    (found : known.find? source.name = some source)
    {model : Model} (inKnown : known.find? model.name = some model) {field : Field}
    {relation : Relation} (present : field ∈ (mended system source model).fields)
    (related : field.relation? = some relation) (out : leadsOut system model.name relation) :
    start.Foresees model.name relation.target field.name ∧
      start.Foresees relation.target model.name (field.counterpartName model.name) := by
  -- A field of a turn is the mate of a relation of the source, or it was there before.
  have distinct := (mending.mendable.tidy _ model inKnown).distinct
  rcases mem_mended (mending.mendable.tidy _ source found) distinct present with
    ⟨origin, inSource, held, heldRelation, away, leads, -, mates, -⟩ | ⟨before, -⟩
  · -- The two sides of a relation bear each other's names.
    obtain ⟨sourceSide, targetSide⟩ :=
      mending.foreseen _ source found origin inSource held heldRelation away
    obtain ⟨again, relatedAgain, back⟩ := Field.targets_iff.mp mates.symm.targets
    rw [related, Option.some.injEq] at relatedAgain
    subst relatedAgain
    rw [mates.counterpartName, leads] at targetSide
    rw [leads] at sourceSide
    rw [back, mates.symm.counterpartName]
    exact ⟨targetSide, sourceSide⟩
  · exact mending.foreseen _ model inKnown field before relation related out

/-- One more turn. -/
theorem step (mending : Mending system start turns known)
    (found : known.find? source.name = some source) (waits : source.name ∉ turns)
    (turned : ∀ name, next.find? name = (known.find? name).map (mended system source)) :
    Mending system start (source.name :: turns) next := by
  -- What does not lead to the source stays where it is.
  have same_of_not_targets : ∀ name before, known.find? name = some before → ∀ field : Field,
      field.targets source.name = false →
        (field ∈ (mended system source before).fields ↔ field ∈ before.fields) :=
    fun name before inKnown field elsewhere =>
      mem_mended_of_not_targets (mending.mendable.tidy name before inKnown).distinct elsewhere
  refine ⟨mendable_of_turned mending.mendable found turned, ?_, ?_, ?_, ?_, ?_⟩
  · -- A turn leaves the names.
    intro name
    rw [turned, Option.isSome_map, mending.same]
  · -- What relates to another model than the source is as it was before the turn.
    intro other unturned name model first inNext inStart field targets
    rw [List.mem_cons, not_or] at unturned
    obtain ⟨before, inKnown, -, rfl⟩ := exists_of_turned turned inNext
    have elsewhere : field.targets source.name = false :=
      Field.not_targets_of_ne targets unturned.1
    rw [same_of_not_targets name before inKnown field elsewhere]
    exact mending.waiting other unturned.2 name before first inKnown inStart field targets
  · intro name model first inNext inStart field stays
    obtain ⟨before, inKnown, own, rfl⟩ := exists_of_turned turned inNext
    refine Iff.trans ?_ (mending.kept name before first inKnown inStart field stays)
    by_cases same : name = source.name
    · -- The source itself is not changed.
      rw [same, found, Option.some.injEq] at inKnown
      rw [← inKnown, mended_self]
    · -- Any other model keeps the fields that do not lead to the source.
      refine same_of_not_targets name before inKnown field ?_
      rw [Bool.eq_false_iff]
      intro targets
      obtain ⟨relation, related, leads⟩ := Field.targets_iff.mp targets
      exact stays relation related ⟨leads ▸ Ne.symm same,
        leads ▸ mending.mendable.inCatalog _ source found⟩
  · -- What a relation claims and what bars it could be told before the turn.
    intro name model inNext field present relation related out
    obtain ⟨before, inKnown, rfl, rfl⟩ := exists_of_turned turned inNext
    exact mending.foreseen_of_turned found inKnown present related out
  · -- A model had its turn just now, or it had it before and stays settled.
    intro name had model inNext field present relation related out
    obtain ⟨before, inKnown, rfl, rfl⟩ := exists_of_turned turned inNext
    rcases List.mem_cons.mp had with own | earlier
    · rw [own, found, Option.some.injEq] at inKnown
      subst inKnown
      rw [mended_self] at present
      exact mending.settled_self found waits turned present related out
    · exact mending.settled_other found waits turned inKnown earlier present related out

/-- Turns of different models, one after the other. -/
theorem run (names : List String) {progress : Progress} {turns : List String}
    (mending : Mending system start turns progress.models) (once : names.Nodup)
    (fresh : ∀ name ∈ names, name ∉ turns)
    (there : ∀ name ∈ names, (progress.models.find? name).isSome = true) :
    Mending system start (names.reverse ++ turns)
      (names.foldl (mendOne system) progress).models := by
  -- The induction is on the turns to come; each begins with the models that are left.
  induction names generalizing progress turns with
  | nil => exact mending
  | cons first rest ih =>
    -- The model whose turn it is was there all along.
    obtain ⟨source, found⟩ := Option.isSome_iff_exists.mp (there first List.mem_cons_self)
    have own : source.name = first := Roster.name_of_find? found
    subst own
    have distinct := (mending.mendable.tidy _ source found).distinct
    have turned : ∀ name, (mendOne system progress source.name).models.find? name =
        (progress.models.find? name).map (mended system source) :=
      fun name => find?_mendOne found distinct name
    -- The later turns are those of other models, all of which are there.
    obtain ⟨unlisted, restOnce⟩ := List.nodup_cons.mp once
    have next := mending.step found (fresh _ List.mem_cons_self) turned
    have later := ih next restOnce
      (fun name listed => by
        rw [List.mem_cons, not_or]
        refine ⟨?_, fresh name (List.mem_cons_of_mem _ listed)⟩
        rintro rfl
        exact unlisted listed)
      (fun name listed => by
        rw [turned, Option.isSome_map]
        exact there name (List.mem_cons_of_mem _ listed))
    rw [List.reverse_cons, List.append_assoc]
    exact later

end Mending

end ModelCatalog
