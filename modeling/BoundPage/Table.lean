/-!
# Tables

A table from names to values that keeps its entries in the order in which the names first arrived.  Setting a name that
is present leaves it in its place.  The names are distinct, which is part of the type.
-/
namespace BoundPage

/-- Sets the value of a name among pairs: in place if it is there, at the end otherwise. -/
def setEntry {α : Type} (name : String) (value : α) : List (String × α) → List (String × α)
  | [] => [(name, value)]
  | e :: es => if e.1 = name then (name, value) :: es else e :: setEntry name value es

theorem names_setEntry_of_mem {α : Type} (name : String) (value : α) :
    ∀ es : List (String × α), name ∈ es.map Prod.fst →
      (setEntry name value es).map Prod.fst = es.map Prod.fst
  | [], h => by simp at h
  | e :: es, h => by
    unfold setEntry
    split
    · next he => simp [he]
    · next he =>
      have : name ∈ es.map Prod.fst := by
        rcases List.mem_cons.1 (by simpa using h : name ∈ e.1 :: es.map Prod.fst) with h | h
        · exact absurd h.symm he
        · exact h
      simp [names_setEntry_of_mem name value es this]

theorem names_setEntry_of_not_mem {α : Type} (name : String) (value : α) :
    ∀ es : List (String × α), name ∉ es.map Prod.fst →
      (setEntry name value es).map Prod.fst = es.map Prod.fst ++ [name]
  | [], _ => rfl
  | e :: es, h => by
    have h' : name ∉ e.1 :: es.map Prod.fst := by simpa using h
    simp only [List.mem_cons, not_or] at h'
    unfold setEntry
    rw [if_neg (fun he => h'.1 he.symm)]
    simp [names_setEntry_of_not_mem name value es h'.2]

theorem nodup_setEntry {α : Type} (name : String) (value : α) (es : List (String × α))
    (h : (es.map Prod.fst).Nodup) : ((setEntry name value es).map Prod.fst).Nodup := by
  by_cases hm : name ∈ es.map Prod.fst
  · rw [names_setEntry_of_mem name value es hm]; exact h
  · rw [names_setEntry_of_not_mem name value es hm, List.nodup_append]
    refine ⟨h, by simp, ?_⟩
    intro a ha b hb
    simp only [List.mem_singleton] at hb
    subst hb
    exact fun hab => hm (hab ▸ ha)

/-- Pairs of names and values, in order of arrival. -/
structure Table (α : Type) where
  entries : List (String × α)
  nodup : (entries.map Prod.fst).Nodup := by decide

namespace Table

variable {α β : Type}

instance : EmptyCollection (Table α) := ⟨⟨[], List.nodup_nil⟩⟩

instance : Inhabited (Table α) := ⟨∅⟩

def names (t : Table α) : List String := t.entries.map Prod.fst

def size (t : Table α) : Nat := t.entries.length

def isEmpty (t : Table α) : Bool := t.entries.isEmpty

def get? (t : Table α) (name : String) : Option α :=
  (t.entries.find? fun e => e.1 == name).map Prod.snd

def contains (t : Table α) (name : String) : Bool := (t.get? name).isSome

def insert (t : Table α) (name : String) (value : α) : Table α :=
  ⟨setEntry name value t.entries, nodup_setEntry name value t.entries t.nodup⟩

def erase (t : Table α) (name : String) : Table α where
  entries := t.entries.filter fun e => e.1 != name
  nodup := t.nodup.sublist (List.filter_sublist.map Prod.fst)

def insertAll (t : Table α) (es : List (String × α)) : Table α :=
  es.foldl (fun t e => t.insert e.1 e.2) t

def ofList (es : List (String × α)) : Table α := (∅ : Table α).insertAll es

def map (f : α → β) (t : Table α) : Table β where
  entries := t.entries.map fun e => (e.1, f e.2)
  nodup := by
    have : (t.entries.map fun e => (e.1, f e.2)).map Prod.fst = t.entries.map Prod.fst := by
      simp [List.map_map, Function.comp_def]
    rw [this]; exact t.nodup

/-- The table of the images of all values, if all of them have one. -/
def mapM? (f : α → Option β) (t : Table α) : Option (Table β) :=
  (t.entries.mapM fun e => (f e.2).map fun b => (e.1, b)).map ofList

end Table
end BoundPage
