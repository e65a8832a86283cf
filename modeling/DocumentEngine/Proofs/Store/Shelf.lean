import DocumentEngine.Proofs.Keyed
import DocumentEngine.Proofs.Store.Layout
import DocumentEngine.Proofs.Store.Place
import DocumentEngine.Json.Printer

/-!
The documents of a store as a map. A shelf has documents by type and id; the files of a store
represent it where each of its documents is the content of its file and all other files are
unfinished writes. Every change of one file that an operation makes is a change of the shelf, or of
nothing but an unfinished write.
-/

namespace DocumentEngine

open FileTree (Fits)
open Path (IsStep)

/-- Documents by type and id, those of a type in the order of their ids. -/
abbrev Shelf := String → Keyed Document

namespace Shelf

/-- The shelf without documents. -/
def empty : Shelf := fun _ => []

/-- The document of a type and an id. -/
def get? (m : Shelf) (type id : String) : Option Document := (m type).get? id

/-- Puts a document under a type and an id, in place of the one there. -/
def put (m : Shelf) (type id : String) (doc : Document) : Shelf := fun other =>
  if other = type then (m type).insert id doc else m other

/-- Takes the document of a type and an id out. -/
def remove (m : Shelf) (type id : String) : Shelf := fun other =>
  if other = type then (m type).erase id else m other

/-- The ids of every type are in ascending order. -/
def Ascending (m : Shelf) : Prop := ∀ type, (m type).Ascending

variable {m : Shelf}

theorem get?_put (m : Shelf) (type id : String) (doc : Document) (t n : String) :
    (m.put type id doc).get? t n = if t = type ∧ n = id then some doc else m.get? t n := by
  unfold get? put
  by_cases ht : t = type
  · subst ht
    rw [if_pos rfl, Keyed.get?_insert]
    by_cases hn : n = id
    · simp [hn]
    · simp [hn, Ne.symm hn]
  · simp [ht]

theorem put_put (m : Shelf) (type id : String) (doc doc' : Document) :
    (m.put type id doc).put type id doc' = m.put type id doc' := by
  funext other
  unfold put
  by_cases h : other = type
  · rw [if_pos h, if_pos h, if_pos rfl, Keyed.insert_insert]
  · rw [if_neg h, if_neg h, if_neg h]

theorem get?_remove (m : Shelf) (type id t n : String) :
    (m.remove type id).get? t n = if t = type ∧ n = id then none else m.get? t n := by
  unfold get? remove
  by_cases ht : t = type
  · subst ht
    rw [if_pos rfl]
    by_cases hn : n = id
    · rw [hn, Keyed.get?_erase_self, if_pos ⟨rfl, rfl⟩]
    · rw [Keyed.get?_erase_of_ne _ (Ne.symm hn), if_neg fun h => hn h.2]
  · simp [ht]

theorem ascending_empty : empty.Ascending := fun _ => List.Pairwise.nil

theorem Ascending.put (h : m.Ascending) (type id : String) (doc : Document) :
    (m.put type id doc).Ascending := by
  intro t
  unfold Shelf.put
  split
  · exact Keyed.ascending_insert (h type) id doc
  · exact h t

theorem Ascending.remove (h : m.Ascending) (type id : String) : (m.remove type id).Ascending := by
  intro t
  unfold Shelf.remove
  split
  · exact (h type).erase id
  · exact h t

end Shelf

namespace Store

/-- What stands under a name in the directory of a type is what a shelf says: the content of its
document, or an unfinished write. All that stands there has a path that the system takes. -/
structure Shelved (s : Store) (m : Shelf) (type name : String) (held : Option Entry) : Prop where
  document : idFault? name = none →
    held = (m.get? type name).map fun doc => .file (some (Json.pretty (.obj doc)))
  legal : (m.get? type name).isSome = true → idFault? name = none
  other : held.isSome = true → isTempName name = true ∨ idFault? name = none
  temp : isTempName name = true → held ≠ some .directory
  fits : held.isSome = true → Fits ((s.typeDir type).join name)

/-- The files of a store that hold the documents of a shelf, and unfinished writes beside them. -/
structure Represents (s : Store) (base : List String) (files : FileTree) (m : Shelf) : Prop
    extends s.Rooted base files where
  ascending : m.Ascending
  shelved : ∀ type name, s.Shelved m type name (files.get? (base ++ [type, name]))

/-- Two trees that differ below the directories of types at most in one file, which is there in the
second as given. No directory is gone. -/
structure ChangedAt (base : List String) (files after : FileTree) (type name : String)
    (held : Option Entry) : Prop where
  sound : after.Sound
  kept : ∀ place, files.get? place = some .directory → after.get? place = some .directory
  there : after.get? (base ++ [type, name]) = held
  others : ∀ t n, ¬ (t = type ∧ n = name) →
    after.get? (base ++ [t, n]) = files.get? (base ++ [t, n])

variable {s : Store} {base : List String} {files after : FileTree} {m m' : Shelf}
  {type name id : String} {doc : Document} {held : Option Entry}

theorem place_ne {t n : String} (h : ¬ (t = type ∧ n = name)) :
    base ++ [t, n] ≠ base ++ [type, name] := by
  simpa using h

theorem Shelved.congr (h : s.Shelved m type name held) (hm : m'.get? type name = m.get? type name) :
    s.Shelved m' type name held :=
  ⟨hm ▸ h.document, hm ▸ h.legal, h.other, h.temp, h.fits⟩

/-- An empty directory represents the shelf without documents. -/
theorem represents_empty (hsound : files.Sound) (hroot : files.locate s.root = .ok base)
    (hdir : files.get? base = some .directory)
    (hempty : ∀ place, place ≠ [] → files.get? (base ++ place) = none) :
    s.Represents base files Shelf.empty where
  sound := hsound
  leads := hroot
  directory := hdir
  ascending := Shelf.ascending_empty
  shelved type name := by
    rw [hempty [type, name] (by simp)]
    exact ⟨fun _ => rfl, fun h => (by cases h), fun h => (by cases h), fun _ => (by simp),
      fun h => (by cases h)⟩

namespace Represents

/-- Files that hold the same below the directories of types represent the same shelf. -/
theorem of_same (h : s.Represents base files m) (hsound : after.Sound)
    (hkept : ∀ place, files.get? place = some .directory → after.get? place = some .directory)
    (hsame : ∀ t n, after.get? (base ++ [t, n]) = files.get? (base ++ [t, n])) :
    s.Represents base after m where
  toRooted := h.toRooted.of_directories hsound hkept
  ascending := h.ascending
  shelved t n := hsame t n ▸ h.shelved t n

/-- A change of one file is a change of a shelf at the type and the name of the file. -/
theorem changed (h : s.Represents base files m) (hc : ChangedAt base files after type name held)
    (hordered : m'.Ascending) (hsame : ∀ t n, ¬ (t = type ∧ n = name) → m'.get? t n = m.get? t n)
    (hheld : s.Shelved m' type name held) : s.Represents base after m' where
  toRooted := h.toRooted.of_directories hc.sound hc.kept
  ascending := hordered
  shelved t n := by
    by_cases heq : t = type ∧ n = name
    · rw [heq.1, heq.2, hc.there]
      exact hheld
    · rw [hc.others t n heq]
      exact (h.shelved t n).congr (hsame t n heq)

/-- An unfinished write may come, change or go. -/
theorem temp (h : s.Represents base files m) (hc : ChangedAt base files after type name held)
    (htemp : isTempName name = true) (hheld : held ≠ some .directory)
    (hfits : held.isSome = true → Fits ((s.typeDir type).join name)) :
    s.Represents base after m := by
  have hillegal : idFault? name ≠ none := fun hlegal => by
    rw [isTempName_of_idFault? hlegal] at htemp
    cases htemp
  exact h.changed hc h.ascending (fun _ _ _ => rfl)
    ⟨fun hlegal => absurd hlegal hillegal, (h.shelved type name).legal, fun _ => .inl htemp,
      fun _ => hheld, hfits⟩

/-- A file that has the content of a document now is that of its type and id. -/
theorem put (h : s.Represents base files m)
    (hc : ChangedAt base files after type id (some (.file (some (Json.pretty (.obj doc))))))
    (hid : idFault? id = none) (hfits : Fits ((s.typeDir type).join id)) :
    s.Represents base after (m.put type id doc) := by
  refine h.changed hc (h.ascending.put type id doc)
    (fun t n hne => by rw [Shelf.get?_put, if_neg hne]) ⟨fun _ => ?_, fun _ => hid, fun _ => .inr hid,
      fun _ => by simp, fun _ => hfits⟩
  rw [Shelf.get?_put, if_pos ⟨rfl, rfl⟩]
  rfl

/-- A file that is gone is no document any more. -/
theorem remove (h : s.Represents base files m) (hc : ChangedAt base files after type id none) :
    s.Represents base after (m.remove type id) := by
  have hgone : (m.remove type id).get? type id = none := by
    rw [Shelf.get?_remove, if_pos ⟨rfl, rfl⟩]
  refine h.changed hc (h.ascending.remove type id)
    (fun t n hne => by rw [Shelf.get?_remove, if_neg hne]) ⟨fun _ => ?_, fun hthere => ?_,
      fun hthere => ?_, fun _ => by simp, fun hthere => ?_⟩
  · rw [hgone]
    rfl
  · rw [hgone] at hthere
    cases hthere
  · cases hthere
  · cases hthere

end Represents

end Store

end DocumentEngine
