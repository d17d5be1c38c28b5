/-! Collections with at most one member for each name: rosters, which are in order of name, and lists
from which later members of a name are left out. -/

namespace ModelCatalog

/-- Keep the first element of each key, in order. -/
def distinctBy {α : Type} (key : α → String) : List α → List α
  | [] => []
  | first :: rest => first :: (distinctBy key rest).filter fun other => key other != key first

/-- A thing that is filed under a name. -/
class Named (α : Type) where
  name : α → String

instance : Named String := ⟨id⟩

/-- Members in increasing order of name, so that no two share a name. -/
structure Roster (α : Type) [Named α] where
  members : List α
  ordered : members.Pairwise (fun earlier later => Named.name earlier < Named.name later)

/-- A set of names, in order. -/
abbrev NameSet := Roster String

namespace Roster

variable {α : Type} [Named α]

/-- Put a member in its place, in the stead of one of the same name. -/
def place (member : α) : List α → List α
  | [] => [member]
  | first :: rest =>
    if Named.name member < Named.name first then member :: first :: rest
    else if Named.name first < Named.name member then first :: place member rest
    else member :: rest

/-- Placing a member adds it and keeps some of the others. -/
theorem mem_of_mem_place {member found : α} {members : List α}
    (h : found ∈ place member members) : found = member ∨ found ∈ members := by
  -- Each branch rebuilds the list from the member and the old elements.
  induction members with
  | nil => simpa [place] using h
  | cons first rest ih =>
    simp only [place] at h
    split at h
    · simpa using h
    · split at h
      · rcases List.mem_cons.mp h with same | deeper
        · exact Or.inr (by simp [same])
        · rcases ih deeper with new | old
          · exact Or.inl new
          · exact Or.inr (by simp [old])
      · rcases List.mem_cons.mp h with same | old
        · exact Or.inl same
        · exact Or.inr (by simp [old])

/-- Placing a member keeps the order. -/
theorem place_ordered (member : α) {members : List α}
    (ordered : members.Pairwise (fun a b => Named.name a < Named.name b)) :
    (place member members).Pairwise (fun a b => Named.name a < Named.name b) := by
  -- The member goes in front of the first larger name, or replaces its equal.
  induction members with
  | nil => simp [place]
  | cons first rest ih =>
    obtain ⟨smallest, tail⟩ := List.pairwise_cons.mp ordered
    simp only [place]
    split
    · rename_i before
      refine List.pairwise_cons.mpr ⟨fun other found => ?_, ordered⟩
      rcases List.mem_cons.mp found with rfl | later
      · exact before
      · exact String.lt_trans before (smallest other later)
    · split
      · rename_i after
        refine List.pairwise_cons.mpr ⟨fun other found => ?_, ih tail⟩
        rcases mem_of_mem_place found with rfl | later
        · exact after
        · exact smallest other later
      · rename_i notBefore notAfter
        have same : Named.name member = Named.name first :=
          String.le_antisymm (String.not_lt.mp notAfter) (String.not_lt.mp notBefore)
        refine List.pairwise_cons.mpr ⟨fun other later => ?_, tail⟩
        rw [same]
        exact smallest other later

/-- The roster without members. -/
def empty : Roster α := ⟨[], List.Pairwise.nil⟩

instance : EmptyCollection (Roster α) := ⟨empty⟩

instance : Inhabited (Roster α) := ⟨empty⟩

/-- File a member under its name, in the stead of an earlier one. -/
def insert (member : α) (roster : Roster α) : Roster α :=
  ⟨place member roster.members, place_ordered member roster.ordered⟩

/-- Take out the member of a name, if there is one. -/
def erase (name : String) (roster : Roster α) : Roster α :=
  ⟨roster.members.filter (fun member => Named.name member != name),
    roster.ordered.filter _⟩

/-- The member of a name. -/
def find? (roster : Roster α) (name : String) : Option α :=
  roster.members.find? fun member => Named.name member == name

/-- A member of this name is present. -/
def contains (roster : Roster α) (name : String) : Bool :=
  roster.members.any fun member => Named.name member == name

/-- The names present, in order. -/
def names (roster : Roster α) : List String := roster.members.map Named.name

/-- The number of members. -/
def size (roster : Roster α) : Nat := roster.members.length

/-- File all of a list into a roster, later members in the stead of earlier ones. -/
def insertAll (roster : Roster α) (members : List α) : Roster α :=
  members.foldl (fun roster member => roster.insert member) roster

/-- The roster of a list; of several members of one name the last stays. -/
def ofList (members : List α) : Roster α := empty.insertAll members

/-- Change every member without changing its name. -/
def map {β : Type} [Named β] (change : α → β)
    (keepsName : ∀ member, Named.name (change member) = Named.name member)
    (roster : Roster α) : Roster β :=
  ⟨roster.members.map change, by
    simpa [List.pairwise_map, keepsName] using roster.ordered⟩

end Roster

end ModelCatalog
