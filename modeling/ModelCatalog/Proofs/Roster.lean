import Mathlib.Data.List.Nodup
import ModelCatalog.Roster

/-! Look-up laws of rosters: what filing, taking out and changing members does to each name. -/

namespace ModelCatalog.Roster

variable {α β : Type} [Named α] [Named β]

/-- Among members in order of name, a member is found under its own name. -/
theorem find?_of_mem {members : List α} {found : α}
    (ordered : members.Pairwise (fun a b => Named.name a < Named.name b))
    (present : found ∈ members) :
    members.find? (fun member => Named.name member == Named.name found) = some found := by
  -- The first member is either the one sought or has a smaller name.
  induction members with
  | nil => simp at present
  | cons first rest ih =>
    obtain ⟨smallest, tail⟩ := List.pairwise_cons.mp ordered
    rcases List.mem_cons.mp present with rfl | later
    · -- The member sought is the first one.
      simp
    · have differ : Named.name first ≠ Named.name found := by
        intro same
        exact String.lt_irrefl _ (same ▸ smallest found later)
      rw [List.find?_cons_of_neg (by simpa using differ)]
      exact ih tail later

/-- Membership is look-up under the own name. -/
theorem mem_iff_find? {roster : Roster α} {member : α} :
    member ∈ roster.members ↔ roster.find? (Named.name member) = some member := by
  -- In order of name there is only one member of a name to be found.
  constructor
  · exact fun present => find?_of_mem roster.ordered present
  · exact fun found => List.mem_of_find?_eq_some found

/-- What is found under a name is a member. -/
theorem mem_of_find? {roster : Roster α} {name : String} {member : α}
    (found : roster.find? name = some member) : member ∈ roster.members :=
  -- A search gives only what is listed.
  List.mem_of_find?_eq_some found

/-- What is found under a name bears it. -/
theorem name_of_find? {roster : Roster α} {name : String} {member : α}
    (found : roster.find? name = some member) : Named.name member = name := by
  -- A search gives only what passes its test, and the test is on the name.
  simpa using List.find?_some found

/-- A name is present exactly when something is found under it. -/
theorem contains_eq (roster : Roster α) (name : String) :
    roster.contains name = (roster.find? name).isSome := by
  -- Both ask whether some member passes the same test.
  rw [Bool.eq_iff_iff]
  simp [contains, find?]

/-- Placing a member changes what is found under its name and nothing else. -/
theorem find?_place (member : α) (name : String) {members : List α}
    (ordered : members.Pairwise (fun a b => Named.name a < Named.name b)) :
    (place member members).find? (fun other => Named.name other == name) =
      if Named.name member = name then some member
      else members.find? (fun other => Named.name other == name) := by
  -- The member stands in front of all larger names, so no other of its name comes before it.
  induction members with
  | nil => by_cases same : Named.name member = name <;> simp [place, same]
  | cons first rest ih =>
    obtain ⟨-, tail⟩ := List.pairwise_cons.mp ordered
    have later := ih tail
    simp only [place]
    split
    · by_cases same : Named.name member = name <;> simp [same]
    · -- The member goes behind the first one, or in its stead.
      rename_i notBefore
      split
      · -- Behind the first one: look-ups of the name of the first one are not affected.
        rename_i after
        by_cases head : Named.name first = name
        · have differ : Named.name member ≠ name := by
            rintro rfl
            exact String.lt_irrefl _ (head ▸ after)
          simp [head, differ]
        · simpa [List.find?_cons, head] using later
      · -- In its stead: neither name comes before the other, so they are equal.
        rename_i notAfter
        have same : Named.name member = Named.name first :=
          String.le_antisymm (String.not_lt.mp notAfter) (String.not_lt.mp notBefore)
        by_cases head : Named.name first = name
        · simp [same, head]
        · simp [same, head]

/-- Filing a member changes what is found under its name and nothing else. -/
theorem find?_insert (roster : Roster α) (member : α) (name : String) :
    (roster.insert member).find? name =
      if Named.name member = name then some member else roster.find? name :=
  -- Filing puts the member in its place among those that are in order.
  find?_place member name roster.ordered

/-- A filed member is found under its name. -/
@[simp] theorem find?_insert_self (roster : Roster α) (member : α) :
    (roster.insert member).find? (Named.name member) = some member := by
  -- The name is the member's own.
  simp [find?_insert]

/-- Filing a member leaves other names alone. -/
theorem find?_insert_of_ne (roster : Roster α) {member : α} {name : String}
    (differ : Named.name member ≠ name) :
    (roster.insert member).find? name = roster.find? name := by
  -- The name is not the member's own.
  simp [find?_insert, differ]

/-- What is found after filing a member is the member itself, or it was found before. -/
theorem of_find?_insert {roster : Roster α} {member other : α} {name : String}
    (found : (roster.insert member).find? name = some other) :
    (Named.name member = name ∧ member = other) ∨ roster.find? name = some other := by
  -- The name is that of the member, or what was there is found.
  rw [find?_insert] at found
  split at found
  · rename_i here
    exact Or.inl ⟨here, Option.some.inj found⟩
  · exact Or.inr found

/-- Filing a member in the stead of one of its name adds no name. -/
theorem isSome_find?_insert {roster : Roster α} {member former : α}
    (found : roster.find? (Named.name member) = some former) {name : String} :
    ((roster.insert member).find? name).isSome = (roster.find? name).isSome := by
  -- Under the name of the member there was one before and is one now.
  rw [find?_insert]
  split
  · rename_i here
    rw [← here, found]
    rfl
  · rfl

/-- Taking out a name removes what is found under it and nothing else. -/
theorem find?_erase (roster : Roster α) (gone name : String) :
    (roster.erase gone).find? name = if gone = name then none else roster.find? name := by
  simp only [find?, erase, List.find?_filter]
  -- Filtering out one name leaves the look-up of any other as it was.
  by_cases same : gone = name
  · subst same
    simp
  · rw [if_neg same]
    congr 1
    funext member
    by_cases here : Named.name member = name
    · simp [here, Ne.symm same]
    · simp [here]

/-- Changing members under their names changes what is found. -/
theorem find?_map (change : α → β)
    (keepsName : ∀ member, Named.name (change member) = Named.name member)
    (roster : Roster α) (name : String) :
    (roster.map change keepsName).find? name = (roster.find? name).map change := by
  -- The search asks for names alone, so it may come before the change as well as after it.
  have alike : (fun member => Named.name member == name) ∘ change =
      fun member => Named.name member == name :=
    funext fun member => congrArg (· == name) (keepsName member)
  rw [find?, map, List.find?_map, alike, find?]

/-- Members in order of name are listed in the one order that their names allow. -/
theorem eq_of_mem_iff {one other : List α}
    (ordered : one.Pairwise (fun a b => Named.name a < Named.name b))
    (otherOrdered : other.Pairwise (fun a b => Named.name a < Named.name b))
    (same : ∀ member, member ∈ one ↔ member ∈ other) : one = other := by
  -- Without repetitions the two lists are permutations, and there is one order.
  -- A name is not less than itself, so no member is listed twice.
  have distinct : ∀ members : List α,
      members.Pairwise (fun a b => Named.name a < Named.name b) → members.Nodup := by
    intro members ordered
    refine ordered.imp ?_
    rintro a b before rfl
    exact String.lt_irrefl _ before
  have permuted : one.Perm other :=
    (List.perm_ext_iff_of_nodup (distinct one ordered) (distinct other otherOrdered)).mpr same
  -- Two members that stand either way round would each have the smaller name.
  refine permuted.eq_of_pairwise ?_ ordered otherOrdered
  intro a b _ _ before after
  exact absurd (String.lt_trans before after) (String.lt_irrefl _)

/-- Rosters with the same members at the same names are equal. -/
theorem eq_of_find? {one other : Roster α} (same : ∀ name, one.find? name = other.find? name) :
    one = other := by
  -- Look-ups tell which members there are, and the order is that of their names.
  have equal : one.members = other.members := by
    refine eq_of_mem_iff one.ordered other.ordered fun member => ?_
    rw [mem_iff_find?, mem_iff_find?, same]
  cases one
  cases other
  simpa using equal

/-- Taking out a name under which nothing is found changes nothing. -/
theorem erase_eq_self {roster : Roster α} {gone : String} (missing : roster.find? gone = none) :
    roster.erase gone = roster := by
  -- The two are compared name by name, and the one taken out has nothing to lose.
  refine eq_of_find? fun name => ?_
  rw [find?_erase]
  split
  · rename_i same
    rw [← same, missing]
  · rfl

/-- After filing a list of distinct names, its members are found first. -/
theorem find?_insertAll (roster : Roster α) {members : List α}
    (distinct : (members.map Named.name).Nodup) (name : String) :
    (roster.insertAll members).find? name =
      (members.find? fun member => Named.name member == name).or (roster.find? name) := by
  -- The members are filed one after the other, and none in the stead of another.
  induction members generalizing roster with
  | nil => simp [insertAll]
  | cons first rest ih =>
    rw [List.map_cons, List.nodup_cons] at distinct
    obtain ⟨fresh, distinct⟩ := distinct
    have step : (roster.insertAll (first :: rest)).find? name =
        ((roster.insert first).insertAll rest).find? name := rfl
    rw [step, ih _ distinct, find?_insert]
    -- The name is that of the first member, which none of the others bears, or it is looked for
    -- further on.
    by_cases here : Named.name first = name
    · have absent : rest.find? (fun member => Named.name member == name) = none := by
        simp only [List.find?_eq_none, beq_iff_eq]
        intro member present same
        exact fresh (List.mem_map.mpr ⟨member, present, same.trans here.symm⟩)
      simp [here, absent]
    · simp [here]

/-- The roster of a list of distinct names finds what the list holds. -/
theorem find?_ofList {members : List α} (distinct : (members.map Named.name).Nodup)
    (name : String) :
    (ofList members).find? name = members.find? fun member => Named.name member == name := by
  -- In the beginning nothing is found under any name.
  have nothing : (empty : Roster α).find? name = none := rfl
  rw [ofList, find?_insertAll _ distinct, nothing, Option.or_none]

/-- The names present in a roster are pairwise distinct. -/
theorem names_nodup (roster : Roster α) : (roster.members.map Named.name).Nodup := by
  -- A name that comes before another one is not equal to it.
  refine List.pairwise_map.mpr (roster.ordered.imp ?_)
  intro a b before same
  exact String.lt_irrefl _ (same ▸ before)

/-- Filing names one after the other keeps exactly those filed. -/
theorem contains_insertAll (set : NameSet) (names : List String) (name : String) :
    (set.insertAll names).contains name = true ↔ name ∈ names ∨ set.contains name = true := by
  -- Every name is filed into the set that the names before it have left.
  induction names generalizing set with
  | nil => simp [insertAll]
  | cons first rest ih =>
    have step : (set.insertAll (first :: rest)).contains name =
        ((set.insert first).insertAll rest).contains name := rfl
    have own : (Named.name first : String) = first := rfl
    rw [step, ih, contains_eq, contains_eq, find?_insert, own]
    by_cases here : first = name
    · simp [here]
    · simp [here, Ne.symm here]

/-- The set of a list of names holds exactly these. -/
theorem contains_ofList (names : List String) (name : String) :
    (ofList names).contains name = true ↔ name ∈ names := by
  -- In the beginning the set holds nothing.
  have nothing : (empty : NameSet).contains name = false := rfl
  rw [ofList, contains_insertAll, nothing]
  simp

/-- Taking names out of a set one after the other leaves the others. -/
theorem contains_foldl_erase (set : NameSet) (gone : List String) (name : String) :
    (gone.foldl (fun held name => held.erase name) set).contains name = true ↔
      set.contains name = true ∧ name ∉ gone := by
  -- Every name is taken out of the set that the names before it have left.
  induction gone generalizing set with
  | nil => simp
  | cons first rest ih =>
    rw [List.foldl_cons, ih, contains_eq, contains_eq, find?_erase]
    by_cases here : first = name
    · simp [here]
    · simp [here, Ne.symm here]

/-- The members of a set of names are the names it contains. -/
theorem mem_members_iff (set : NameSet) (name : String) :
    name ∈ set.members ↔ set.contains name = true := by
  -- A name is filed under itself.
  have own : ∀ member : String, (Named.name member : String) = member := fun _ => rfl
  simp [contains, own]

end ModelCatalog.Roster
