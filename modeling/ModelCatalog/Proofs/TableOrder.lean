import Mathlib.Data.Fintype.Pigeonhole
import Mathlib.Data.Fintype.Sets
import Mathlib.Logic.Relation
import ModelCatalog.Proofs.Counterpart
import ModelCatalog.Proofs.Roster
import ModelCatalog.Relation.TableOrder

/-! The order of tables: every model has one place in it, and comes after a model it needs unless
that one depends on a cycle. -/

namespace ModelCatalog

/-- A model needs another one of the collection when a column of its own refers to the table of the
other, which is no system model. -/
def Models.Needs (system : SystemModels) (models : Models) (name other : String) : Prop :=
  ∃ model ∈ models.members, model.name = name ∧ other ≠ name ∧ system.contains other = false ∧
    models.contains other = true ∧ ∃ field ∈ model.fields, ∃ relation ∈ field.relation?,
      relation.kind.hasColumn = true ∧ relation.target = other

instance (system : SystemModels) (models : Models) (name other : String) :
    Decidable (models.Needs system name other) :=
  inferInstanceAs (Decidable (∃ model ∈ models.members, model.name = name ∧ other ≠ name ∧
    system.contains other = false ∧ models.contains other = true ∧
    ∃ field ∈ model.fields, ∃ relation ∈ field.relation?,
      relation.kind.hasColumn = true ∧ relation.target = other))

/-- What is needed is a model of the collection. -/
theorem Models.Needs.mem_names {system : SystemModels} {models : Models} {name other : String}
    (needed : models.Needs system name other) : other ∈ models.names := by
  -- The dependencies are looked for among the names of the collection.
  obtain ⟨-, -, -, -, -, known, -⟩ := needed
  obtain ⟨model, listed, same⟩ := List.any_eq_true.mp known
  exact List.mem_map.mpr ⟨model, listed, by simpa using same⟩

namespace TableOrder

/-- The dependencies of a model are the models that it needs. -/
theorem mem_dependencies {system : SystemModels} {models : Models} {model : Model}
    (listed : model ∈ models.members) {other : String} :
    other ∈ dependencies system models model ↔ models.Needs system model.name other := by
  -- A dependency is counted under the conditions of the need, and names tell the models apart.
  simp only [dependencies, List.mem_filterMap]
  constructor
  · rintro ⟨⟨field, relation⟩, paired, kept⟩
    obtain ⟨present, related⟩ := Model.mem_relations.mp paired
    split at kept
    · rename_i counted
      simp only [Bool.and_eq_true, bne_iff_ne, Bool.not_eq_true'] at counted
      obtain ⟨⟨⟨inline, differ⟩, outside⟩, known⟩ := counted
      cases kept
      exact ⟨model, listed, rfl, differ, outside, known, field, present, relation, related,
        inline, rfl⟩
    · cases kept
  · rintro ⟨twin, twinListed, same, differ, outside, known, field, present, relation, related,
      inline, rfl⟩
    -- Names tell the models apart, so the one that has the need is the one that is listed.
    obtain rfl : twin = model :=
      List.inj_on_of_nodup_map (Roster.names_nodup models) twinListed listed same
    refine ⟨(field, relation), Model.mem_relations.mpr ⟨present, related⟩, ?_⟩
    simp [inline, differ, outside, known]

/-! ## Arrangements -/

/-- Behind the names placed so far come the others as they should: each after everything it needs,
or else as the first by name of those that are left when every one of these needs another. -/
def Arranged (needs : String → String → Prop) : List String → List String → Prop
  | _, [] => True
  | placed, name :: rest =>
    ((∀ other, needs name other → other ∈ placed) ∨
      (∀ later ∈ rest, name < later) ∧
        ∀ left ∈ name :: rest, ∃ other ∈ name :: rest, needs left other) ∧
    Arranged needs (placed ++ [name]) rest

variable {needs : String → String → Prop}

/-- Names that need only what is placed can come next, in any order. -/
theorem Arranged.batch {placed batch rest : List String}
    (ready : ∀ name ∈ batch, ∀ other, needs name other → other ∈ placed)
    (after : Arranged needs (placed ++ batch) rest) : Arranged needs placed (batch ++ rest) := by
  -- What is placed only grows, so a name of the batch stays ready when others of it come first.
  induction batch generalizing placed with
  | nil => simpa using after
  | cons name batch ih =>
    refine ⟨Or.inl (ready name (List.mem_cons_self ..)), ih ?_ (by simpa using after)⟩
    intro later listed other needed
    exact List.mem_append_left _ (ready later (List.mem_cons_of_mem _ listed) other needed)

/-- What an arrangement says about a name is about those in front of it and those behind it. -/
theorem Arranged.at {placed front rest : List String} {name : String}
    (arranged : Arranged needs placed (front ++ name :: rest)) :
    (∀ other, needs name other → other ∈ placed ++ front) ∨
      (∀ later ∈ rest, name < later) ∧
        ∀ left ∈ name :: rest, ∃ other ∈ name :: rest, needs left other := by
  -- The names in front are placed one by one.
  induction front generalizing placed with
  | nil => simpa using arranged.1
  | cons first front ih => simpa using ih arranged.2

/-! ## Rounds -/

/-- A model is ready when everything it depends on is placed. -/
def isReady (dependencies : Model → List String) (placed : List String) (model : Model) : Bool :=
  (dependencies model).all placed.contains

/-- Between two rounds the models that are left stand in order of name, and what one of them needs
is placed or left too. -/
structure Waiting (dependencies : Model → List String) (needs : String → String → Prop)
    (left : List Model) (placed : List String) : Prop where
  ordered : left.Pairwise fun earlier later => earlier.name < later.name
  agree : ∀ model ∈ left, ∀ other, other ∈ dependencies model ↔ needs model.name other
  closed : ∀ model ∈ left, ∀ other, needs model.name other →
    other ∈ placed ∨ other ∈ left.map Model.name

namespace Waiting

variable {dependencies : Model → List String} {left : List Model} {placed : List String}

/-- No two models that are left share a name. -/
theorem distinct (waiting : Waiting dependencies needs left placed) :
    (left.map Model.name).Nodup := by
  -- What is left is in strict order of names.
  refine List.pairwise_map.mpr (waiting.ordered.imp ?_)
  intro earlier later before same
  exact String.lt_irrefl _ (same ▸ before)

/-- A model is ready when everything it needs is placed. -/
theorem isReady_iff (waiting : Waiting dependencies needs left placed) {model : Model}
    (listed : model ∈ left) : isReady dependencies placed model = true ↔
      ∀ other, needs model.name other → other ∈ placed := by
  -- Readiness asks for the listed dependencies, and these are what the model needs.
  simp only [isReady, List.all_eq_true, List.contains_iff_mem, waiting.agree model listed]

/-- When no model is ready, each needs one that is left. -/
theorem exists_needed (waiting : Waiting dependencies needs left placed)
    (stuck : left.filter (isReady dependencies placed) = []) {model : Model}
    (listed : model ∈ left) : ∃ other ∈ left.map Model.name, needs model.name other := by
  -- Some need of the model is not placed, and then it is left.
  have notReady := List.filter_eq_nil_iff.mp stuck model listed
  rw [waiting.isReady_iff listed] at notReady
  obtain ⟨other, missing⟩ := not_forall.mp notReady
  obtain ⟨needed, notPlaced⟩ := Classical.not_imp.mp missing
  exact ⟨other, (waiting.closed model listed other needed).resolve_left notPlaced, needed⟩

/-- The models that are not ready wait behind those that are. -/
theorem ready (waiting : Waiting dependencies needs left placed) :
    Waiting dependencies needs (left.filter fun model => !isReady dependencies placed model)
      (placed ++ (left.filter (isReady dependencies placed)).map Model.name) where
  ordered := waiting.ordered.filter _
  agree model listed := waiting.agree model (List.mem_filter.mp listed).1
  closed := by
    -- What a waiting model needs has been placed before, is placed now, or waits as well.
    intro model listed other needed
    rcases waiting.closed model (List.mem_filter.mp listed).1 other needed with before | isLeft
    · exact Or.inl (List.mem_append_left _ before)
    · obtain ⟨twin, twinLeft, rfl⟩ := List.mem_map.mp isLeft
      by_cases now : isReady dependencies placed twin = true
      · exact Or.inl (List.mem_append_right _ (List.mem_map_of_mem
          (List.mem_filter.mpr ⟨twinLeft, now⟩)))
      · exact Or.inr (List.mem_map_of_mem (List.mem_filter.mpr ⟨twinLeft, by simpa using now⟩))

/-- Behind the first model all others wait. -/
theorem stuck {first : Model} {rest : List Model}
    (waiting : Waiting dependencies needs (first :: rest) placed) :
    Waiting dependencies needs rest (placed ++ [first.name]) where
  -- The first model leaves those that are left for those that are placed, and neither order
  -- changes.
  ordered := (List.pairwise_cons.mp waiting.ordered).2
  agree model listed := waiting.agree model (List.mem_cons_of_mem _ listed)
  closed model listed other needed := by
    simpa [or_assoc] using waiting.closed model (List.mem_cons_of_mem _ listed) other needed

/-- What a round places, and who is left after it. -/
theorem arrange_succ (rounds : Nat) :
    arrange dependencies (rounds + 1) left placed =
      arrange dependencies rounds
        (left.filter fun model =>
          !((if (left.filter (isReady dependencies placed)).isEmpty then left.take 1
            else left.filter (isReady dependencies placed)).map Model.name).contains model.name)
        (placed ++ (if (left.filter (isReady dependencies placed)).isEmpty then left.take 1
          else left.filter (isReady dependencies placed)).map Model.name) := rfl

/-- A round that finds models ready places these. -/
theorem arrange_ready (waiting : Waiting dependencies needs left placed)
    (some_ready : left.filter (isReady dependencies placed) ≠ []) (rounds : Nat) :
    arrange dependencies (rounds + 1) left placed =
      arrange dependencies rounds (left.filter fun model => !isReady dependencies placed model)
        (placed ++ (left.filter (isReady dependencies placed)).map Model.name) := by
  -- The batch is told apart by names, which no two models share.
  have batched : ∀ model ∈ left,
      ((left.filter (isReady dependencies placed)).map Model.name).contains model.name =
        isReady dependencies placed model := by
    intro model listed
    rw [Bool.eq_iff_iff, List.contains_iff_mem, List.mem_map]
    constructor
    · rintro ⟨twin, inBatch, same⟩
      obtain ⟨twinLeft, readily⟩ := List.mem_filter.mp inBatch
      rwa [← List.inj_on_of_nodup_map waiting.distinct twinLeft listed same]
    · intro readily
      exact ⟨model, List.mem_filter.mpr ⟨listed, readily⟩, rfl⟩
  -- What the batch leaves are the models that are not ready.
  have others : (left.filter fun model =>
      !((left.filter (isReady dependencies placed)).map Model.name).contains model.name) =
        left.filter fun model => !isReady dependencies placed model :=
    List.filter_congr fun model listed => by rw [batched model listed]
  rw [arrange_succ, if_neg (by simpa using some_ready), others]

/-- A round that finds no model ready places the first one. -/
theorem arrange_stuck {first : Model} {rest : List Model}
    (waiting : Waiting dependencies needs (first :: rest) placed)
    (stuck : (first :: rest).filter (isReady dependencies placed) = []) (rounds : Nat) :
    arrange dependencies (rounds + 1) (first :: rest) placed =
      arrange dependencies rounds rest (placed ++ [first.name]) := by
  -- Names are apart, so no one else is taken out with the first model.
  have others : ((first :: rest).filter fun model =>
      !([first.name].contains model.name)) = rest := by
    rw [List.filter_cons_of_neg (by simp)]
    refine List.filter_eq_self.mpr fun model listed => ?_
    have differ : first.name ≠ model.name := fun same =>
      (List.nodup_cons.mp waiting.distinct).1 (same ▸ List.mem_map_of_mem listed)
    simpa using differ.symm
  rw [arrange_succ, if_pos (List.isEmpty_iff.mpr stuck)]
  simp only [List.take_succ_cons, List.take_zero, List.map_cons, List.map_nil, others]

end Waiting

/-- The rounds place the models that are left behind the others, each once and as they should. -/
theorem arrange_arranged {dependencies : Model → List String} {rounds : Nat} {left : List Model}
    {placed : List String} (waiting : Waiting dependencies needs left placed)
    (enough : left.length ≤ rounds) :
    ∃ order, arrange dependencies rounds left placed = placed ++ order ∧
      order.Perm (left.map Model.name) ∧ Arranged needs placed order := by
  -- Induction on the rounds: each places at least one model, so that there are as many as needed.
  induction rounds generalizing left placed with
  | zero =>
    obtain rfl : left = [] := List.length_eq_zero_iff.mp (Nat.le_zero.mp enough)
    exact ⟨[], by simp [arrange], List.Perm.nil, trivial⟩
  | succ rounds ih =>
    by_cases stuck : left.filter (isReady dependencies placed) = []
    · cases left with
      | nil => simpa [arrange] using ih waiting (Nat.zero_le _)
      | cons first rest =>
        -- No model is ready: the first one takes its place, and all others are left.
        obtain ⟨order, same, permuted, arranged⟩ :=
          ih waiting.stuck (Nat.le_of_succ_le_succ enough)
        refine ⟨first.name :: order, ?_, permuted.cons _, Or.inr ⟨?_, ?_⟩, arranged⟩
        · rw [waiting.arrange_stuck stuck, same]
          simp
        · intro later isLater
          obtain ⟨model, listed, rfl⟩ := List.mem_map.mp (permuted.mem_iff.mp isLater)
          exact (List.pairwise_cons.mp waiting.ordered).1 model listed
        · have names : (first.name :: order).Perm ((first :: rest).map Model.name) :=
            permuted.cons _
          intro name listed
          obtain ⟨model, isLeft, rfl⟩ := List.mem_map.mp (names.mem_iff.mp listed)
          obtain ⟨other, isOther, needed⟩ := waiting.exists_needed stuck isLeft
          exact ⟨other, names.mem_iff.mpr isOther, needed⟩
    · -- Those that are ready take their places together, and fewer are left.
      obtain ⟨model, inBatch⟩ := List.exists_mem_of_ne_nil _ stuck
      obtain ⟨listed, readily⟩ := List.mem_filter.mp inBatch
      have fewer : (left.filter fun model => !isReady dependencies placed model).length <
          left.length :=
        List.length_filter_lt_length_iff_exists.mpr ⟨model, listed, by simp [readily]⟩
      obtain ⟨order, same, permuted, arranged⟩ := ih waiting.ready (by omega)
      refine ⟨(left.filter (isReady dependencies placed)).map Model.name ++ order, ?_, ?_,
        Arranged.batch ?_ arranged⟩
      · -- The names come in the order in which the rounds go.
        rw [waiting.arrange_ready stuck, same, List.append_assoc]
      · refine (permuted.append_left _).trans ?_
        rw [← List.map_append]
        exact (List.filter_append_perm _ left).map Model.name
      · -- Whoever is in the batch has all that it needs among those placed.
        intro name inBatch
        obtain ⟨model, listed, rfl⟩ := List.mem_map.mp inBatch
        obtain ⟨isLeft, readily⟩ := List.mem_filter.mp listed
        exact (waiting.isReady_iff isLeft).mp readily

/-! ## Cycles -/

/-- Where each of finitely many names needs another of them, all of them depend on a cycle. -/
theorem exists_cycle {stuck : List String}
    (each : ∀ left ∈ stuck, ∃ other ∈ stuck, needs left other) {start : String}
    (listed : start ∈ stuck) :
    ∃ cycle, Relation.ReflTransGen needs start cycle ∧ Relation.TransGen needs cycle cycle := by
  -- Going from each name to one that it needs comes back to a name it has met.
  choose next among needed using each
  let step (name : { name // name ∈ stuck }) : { name // name ∈ stuck } :=
    ⟨next name.1 name.2, among name.1 name.2⟩
  -- The walk goes on forever within finitely many names, and so it meets one of them twice.
  let walk (count : Nat) : { name // name ∈ stuck } := step^[count] ⟨start, listed⟩
  have onward : ∀ count, needs (walk count).1 (walk (count + 1)).1 := by
    intro count
    simp only [walk, Function.iterate_succ_apply']
    exact needed _ _
  have reached : ∀ count, Relation.ReflTransGen needs start (walk count).1 := by
    intro count
    induction count with
    | zero => exact .refl
    | succ count ih => exact ih.tail (onward count)
  have further : ∀ count more,
      Relation.TransGen needs (walk count).1 (walk (count + more + 1)).1 := by
    intro count more
    induction more with
    | zero => exact .single (onward count)
    | succ more ih => exact ih.tail (onward (count + more + 1))
  -- Two counts lead to one name, and the walk from the earlier to the later is a cycle.
  obtain ⟨one, other, differ, same⟩ := Finite.exists_ne_map_eq_of_infinite walk
  rcases Nat.lt_or_gt_of_ne differ with before | before
  · obtain ⟨more, rfl⟩ := Nat.exists_eq_add_of_lt before
    refine ⟨(walk one).1, reached one, ?_⟩
    nth_rewrite 2 [same]
    exact further one more
  · obtain ⟨more, rfl⟩ := Nat.exists_eq_add_of_lt before
    refine ⟨(walk other).1, reached other, ?_⟩
    nth_rewrite 2 [← same]
    exact further other more

end TableOrder

namespace Models

open TableOrder

variable {system : SystemModels} {models : Models}

/-- The order of tables has the models of the collection and arranges them as they should be. -/
theorem arranged_tableOrder : (models.tableOrder system).Perm models.names ∧
    Arranged (models.Needs system) [] (models.tableOrder system) := by
  -- At the start all models wait and nothing is placed.
  have waiting : Waiting (dependencies system models) (models.Needs system) models.members [] :=
    { ordered := models.ordered
      agree := fun model listed other => mem_dependencies listed
      closed := fun model listed other needed => Or.inr needed.mem_names }
  obtain ⟨order, same, permuted, arranged⟩ := arrange_arranged waiting (Nat.le_refl _)
  have whole : models.tableOrder system = order := same
  exact whole ▸ ⟨permuted, arranged⟩

/-- The order of tables has every model. -/
theorem name_mem_tableOrder {model : Model} (listed : model ∈ models.members) :
    model.name ∈ models.tableOrder system :=
  -- The order is a permutation of the names.
  arranged_tableOrder.1.mem_iff.mpr (List.mem_map_of_mem listed)

/-- The order of tables has every model once. Each comes after all that it needs, or else as the
first by name when every model that is left needs another of these. So a model comes after one that
it needs, unless that one depends on a cycle. -/
theorem tableOrder_places (system : SystemModels) (models : Models) :
    (models.tableOrder system).Perm models.names ∧ models.names.Nodup ∧
    (∀ front name rest, models.tableOrder system = front ++ name :: rest →
      (∀ other, models.Needs system name other → other ∈ front) ∨
        (∀ later ∈ rest, name < later) ∧
          ∀ left ∈ name :: rest, ∃ other ∈ name :: rest, models.Needs system left other) ∧
    ∀ name other, models.Needs system name other →
      (¬ ∃ cycle, Relation.ReflTransGen (models.Needs system) other cycle ∧
        Relation.TransGen (models.Needs system) cycle cycle) →
      [other, name].Sublist (models.tableOrder system) := by
  obtain ⟨permuted, arranged⟩ := @arranged_tableOrder system models
  have places : ∀ front name rest, models.tableOrder system = front ++ name :: rest →
      (∀ other, models.Needs system name other → other ∈ front) ∨
        (∀ later ∈ rest, name < later) ∧
          ∀ left ∈ name :: rest, ∃ other ∈ name :: rest, models.Needs system left other := by
    intro front name rest split
    exact Arranged.at (split ▸ arranged : Arranged _ [] (front ++ name :: rest))
  refine ⟨permuted, Roster.names_nodup models, places, fun name other needed acyclic => ?_⟩
  obtain ⟨model, listed, rfl, -⟩ := id needed
  obtain ⟨front, rest, split⟩ :=
    List.append_of_mem (@name_mem_tableOrder system models model listed)
  have before : other ∈ front := by
    by_contra behind
    -- Then the other one is left too, where each name needs another, and depends on a cycle.
    have isLeft : other ∈ model.name :: rest := by
      have somewhere := permuted.mem_iff.mpr needed.mem_names
      rw [split, List.mem_append] at somewhere
      exact somewhere.resolve_left behind
    rcases places front model.name rest split with all | ⟨-, each⟩
    · exact behind (all other needed)
    · -- Each name that is left needs another one that is left.
      exact acyclic (exists_cycle each isLeft)
  rw [split]
  exact (List.singleton_sublist.mpr before).append
    (List.singleton_sublist.mpr (List.mem_cons_self ..))

/-- Accounts and profiles that need each other, writers, and posts that need an account and a
writer. -/
def postedAccounts : Models := Roster.ofList [
  { name := "Account", fields := [.ofRelation "profile" (.to .oneToOne "Profile")] },
  { name := "Post", fields := [.ofRelation "account" (.to .manyToOne "Account"),
      .ofRelation "writer" (.to .manyToOne "Writer")] },
  { name := "Profile", fields := [.ofRelation "account" (.to .oneToOne "Account")] },
  { name := "Writer", fields := [] }]

/-- The posts come after the writers, whom no cycle holds up. -/
theorem tableOrder_places_postedAccounts :
    ["Writer", "Post"].Sublist (postedAccounts.tableOrder .standard) ∧
      postedAccounts.tableOrder .standard = ["Writer", "Account", "Post", "Profile"] := by
  obtain ⟨-, -, -, behind⟩ := tableOrder_places .standard postedAccounts
  -- Writers have no fields, and so they need nobody.
  have idle : ∀ other, ¬postedAccounts.Needs .standard "Writer" other := by
    intro other needed
    have none : ∀ other ∈ postedAccounts.names,
        ¬postedAccounts.Needs .standard "Writer" other := by decide +kernel
    exact none other needed.mem_names needed
  refine ⟨behind "Post" "Writer" (by decide +kernel) ?_, by decide +kernel⟩
  rintro ⟨cycle, reached, round⟩
  rcases reached.cases_head with rfl | ⟨other, needed, -⟩
  · obtain ⟨other, needed, -⟩ := Relation.TransGen.head'_iff.mp round
    exact idle other needed
  · exact idle other needed

/-- Persons and profiles that need each other, and accounts that need a person. -/
def personalAccounts : Models := Roster.ofList [
  { name := "Account", fields := [.ofRelation "person" (.to .manyToOne "Person")] },
  { name := "Person", fields := [.ofRelation "profile"
      { (Relation.to .oneToOne "Profile") with inverseName := some "person" }] },
  { name := "Profile", fields := [.ofRelation "person"
      { (Relation.to .oneToOne "Person") with inverseName := some "profile" }] }]

/-- No person depends on an account, but the accounts, which need a person, come first. -/
theorem tableOrder_misplaces_account :
    personalAccounts.Needs .standard "Account" "Person" ∧
      ¬Relation.TransGen (personalAccounts.Needs .standard) "Person" "Account" ∧
      personalAccounts.tableOrder .standard = ["Account", "Person", "Profile"] ∧
      ¬["Person", "Account"].Sublist (personalAccounts.tableOrder .standard) := by
  refine ⟨by decide +kernel, fun depends => ?_, by decide +kernel, by decide +kernel⟩
  -- No person and no profile needs anybody but persons and profiles.
  have closed : ∀ name ∈ ["Person", "Profile"], ∀ other ∈ personalAccounts.names,
      personalAccounts.Needs .standard name other → other ∈ ["Person", "Profile"] := by
    decide +kernel
  -- Whatever a person depends on is a person or a profile.
  have within : ∀ other, Relation.TransGen (personalAccounts.Needs .standard) "Person" other →
      other ∈ ["Person", "Profile"] := by
    intro other depends
    induction depends with
    | single needed => exact closed _ (by decide) _ needed.mem_names needed
    | tail _ needed ih => exact closed _ ih _ needed.mem_names needed
  exact absurd (within _ depends) (by decide)

end Models

end ModelCatalog
