/-!
Lists of keyed values in ascending key order, the order of Unicode code points. Inserting keeps one
value per key; looking up takes the first.
-/

namespace DocumentEngine

/-- Values under keys in ascending order. -/
abbrev Keyed (α : Type) := List (String × α)

namespace Keyed

variable {α β : Type}

/-- The value under a key. -/
def get? : Keyed α → String → Option α
  | [], _ => none
  | (k, v) :: m, key => if k = key then some v else get? m key

/-- Whether a key has a value. -/
def contains (m : Keyed α) (key : String) : Bool := (get? m key).isSome

/-- Puts a value under a key, in place of the value it had. -/
def insert : Keyed α → String → α → Keyed α
  | [], key, value => [(key, value)]
  | (k, v) :: m, key, value =>
    if k = key then (key, value) :: m
    else if key < k then (key, value) :: (k, v) :: m
    else (k, v) :: insert m key value

/-- Takes a key out. -/
def erase (m : Keyed α) (key : String) : Keyed α := m.filter fun entry => entry.1 != key

/-- Collects entries in any order; of two with one key the last counts. -/
def ofList (entries : List (String × α)) : Keyed α :=
  entries.foldl (fun m entry => insert m entry.1 entry.2) []

/-- Puts every entry of `other` over this one. -/
def union (m other : Keyed α) : Keyed α :=
  other.foldl (fun m entry => insert m entry.1 entry.2) m

/-- The keys in order. -/
def keys (m : Keyed α) : List String := m.map Prod.fst

/-- The values in key order. -/
def values (m : Keyed α) : List α := m.map Prod.snd

/-- Changes every value and keeps the keys. -/
def mapValues (f : α → β) (m : Keyed α) : Keyed β := m.map fun entry => (entry.1, f entry.2)

/-- Changes the value under a key, starting from `default` where there is none. -/
def update (m : Keyed α) (key : String) (default : α) (f : α → α) : Keyed α :=
  insert m key (f ((get? m key).getD default))

end Keyed

end DocumentEngine
