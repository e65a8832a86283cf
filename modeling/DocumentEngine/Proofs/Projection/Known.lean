import DocumentEngine.Projection.Fill
import DocumentEngine.Proofs.Keyed

/-!
What a batch knows. Remembering the documents of a fetch makes every id known that was asked for,
and what becomes known is a document under the id it holds or an id that no document of the fetch
holds. The ids that a round lacks are those of its slots that are not known.
-/

namespace DocumentEngine

/-- The text of the id that a document of a type holds. -/
def DocumentType.idOf? (t : DocumentType) (doc : Document) : Option String :=
  doc.get? t.identifierName >>= Json.idText?

namespace Batch

theorem foldl_defer (b : Batch) (slots : List Slot) :
    slots.foldl defer b = { b with pending := b.pending ++ slots } := by
  induction slots generalizing b with
  | nil => rw [List.foldl_nil, List.append_nil]
  | cons slot slots ih =>
    rw [List.foldl_cons, ih, defer, List.append_assoc, List.singleton_append]

theorem known?_remember (b : Batch) (type id : String) (found : Option Document)
    (type' id' : String) :
    (b.remember type id found).known? type' id' =
      if type = type' ∧ id = id' then some found else b.known? type' id' := by
  unfold known? remember Keyed.update
  dsimp only
  rw [Keyed.get?_insert]
  by_cases htype : type = type'
  · subst htype
    rw [if_pos rfl, Option.bind_eq_bind, Option.bind_some, Keyed.get?_insert]
    by_cases hid : id = id'
    · rw [if_pos hid, if_pos ⟨rfl, hid⟩]
    · rw [if_neg hid, if_neg fun h => hid h.2]
      cases b.memo.get? type <;> rfl
  · rw [if_neg htype, if_neg fun h => htype h.1]

theorem isMemoized_remember {b : Batch} {type' id' : String} (h : b.isMemoized type' id' = true)
    (type id : String) (found : Option Document) :
    (b.remember type id found).isMemoized type' id' = true := by
  unfold isMemoized
  rw [known?_remember]
  split
  · rfl
  · exact h

/-- The batch with a document remembered under the id it holds. -/
def rememberFound (t : DocumentType) (b : Batch) (doc : Document) : Batch :=
  match t.idOf? doc with
  | some id => b.remember t.name id (some doc)
  | none => b

/-- The batch with an id remembered as missed, if nothing is known of it. -/
def rememberMissed (t : DocumentType) (b : Batch) (id : String) : Batch :=
  if b.isMemoized t.name id then b else b.remember t.name id none

theorem rememberAll_eq (b : Batch) (t : DocumentType) (ids : List String) (docs : List Document) :
    b.rememberAll t ids docs = ids.foldl (rememberMissed t) (docs.foldl (rememberFound t) b) := rfl

section

variable {t : DocumentType} {b : Batch} {type id : String}

theorem pending_rememberAll (ids : List String) (docs : List Document) :
    (b.rememberAll t ids docs).pending = b.pending := by
  have hfound : ∀ b : Batch, (docs.foldl (rememberFound t) b).pending = b.pending := by
    intro b
    induction docs generalizing b with
    | nil => rfl
    | cons doc docs ih =>
      rw [List.foldl_cons, ih, rememberFound]
      split <;> rfl
  have hmissed : ∀ b : Batch, (ids.foldl (rememberMissed t) b).pending = b.pending := by
    intro b
    induction ids generalizing b with
    | nil => rfl
    | cons id ids ih =>
      rw [List.foldl_cons, ih, rememberMissed]
      split <;> rfl
  rw [rememberAll_eq, hmissed, hfound]

theorem isMemoized_rememberFound (h : b.isMemoized type id = true) (docs : List Document) :
    (docs.foldl (rememberFound t) b).isMemoized type id = true := by
  induction docs generalizing b with
  | nil => exact h
  | cons doc docs ih =>
    refine ih ?_
    unfold rememberFound
    split
    · exact isMemoized_remember h ..
    · exact h

theorem isMemoized_rememberMissed (h : b.isMemoized type id = true) (ids : List String) :
    (ids.foldl (rememberMissed t) b).isMemoized type id = true := by
  induction ids generalizing b with
  | nil => exact h
  | cons id ids ih =>
    refine ih ?_
    unfold rememberMissed
    split
    · exact h
    · exact isMemoized_remember h ..

theorem isMemoized_of_mem_found {docs : List Document} {doc : Document} (hdoc : doc ∈ docs)
    (hid : t.idOf? doc = some id) :
    (docs.foldl (rememberFound t) b).isMemoized t.name id = true := by
  induction docs generalizing b with
  | nil => cases hdoc
  | cons head docs ih =>
    rcases List.mem_cons.mp hdoc with rfl | hdoc
    · refine isMemoized_rememberFound ?_ docs
      simp [rememberFound, hid, isMemoized, known?_remember]
    · exact ih hdoc

theorem isMemoized_rememberAll (h : b.isMemoized type id = true) (ids : List String)
    (docs : List Document) : (b.rememberAll t ids docs).isMemoized type id = true :=
  isMemoized_rememberMissed (isMemoized_rememberFound h docs) ids

/-- Every id that was asked for is known. -/
theorem isMemoized_of_mem {ids : List String} (h : id ∈ ids) (docs : List Document) :
    (b.rememberAll t ids docs).isMemoized t.name id = true := by
  rw [rememberAll_eq]
  generalize docs.foldl (rememberFound t) b = found
  induction ids generalizing found with
  | nil => cases h
  | cons head ids ih =>
    rw [List.foldl_cons]
    rcases List.mem_cons.mp h with rfl | h
    · refine isMemoized_rememberMissed ?_ ids
      unfold rememberMissed
      by_cases hknown : found.isMemoized t.name id
      · rwa [if_pos hknown]
      · rw [if_neg hknown, isMemoized, known?_remember, if_pos ⟨rfl, rfl⟩, Option.isSome_some]
    · exact ih h _

theorem known?_of_rememberFound {docs : List Document} {found : Option Document}
    (h : (docs.foldl (rememberFound t) b).known? type id = some found) :
    b.known? type id = some found ∨
      type = t.name ∧ ∃ doc ∈ docs, t.idOf? doc = some id ∧ found = some doc := by
  induction docs generalizing b with
  | nil => exact .inl h
  | cons doc docs ih =>
    rcases ih h with hknown | ⟨htype, doc', hdoc', hrest⟩
    · unfold rememberFound at hknown
      split at hknown
      · rename_i id' hid
        rw [known?_remember] at hknown
        split at hknown
        · rename_i heq
          cases hknown
          exact .inr ⟨heq.1.symm, doc, List.mem_cons_self, heq.2 ▸ hid, rfl⟩
        · exact .inl hknown
      · exact .inl hknown
    · exact .inr ⟨htype, doc', List.mem_cons_of_mem _ hdoc', hrest⟩

theorem known?_of_rememberMissed {ids : List String} {found : Option Document}
    (h : (ids.foldl (rememberMissed t) b).known? type id = some found) :
    b.known? type id = some found ∨
      type = t.name ∧ id ∈ ids ∧ b.isMemoized type id = false ∧ found = none := by
  induction ids generalizing b with
  | nil => exact .inl h
  | cons head ids ih =>
    rcases ih h with hknown | ⟨htype, hid, hfresh, hnone⟩
    · unfold rememberMissed at hknown
      split at hknown
      · exact .inl hknown
      · rename_i hfresh
        rw [known?_remember] at hknown
        split at hknown
        · rename_i heq
          cases hknown
          obtain ⟨rfl, rfl⟩ := heq
          exact .inr ⟨rfl, List.mem_cons_self, by simpa using hfresh, rfl⟩
        · exact .inl hknown
    · refine .inr ⟨htype, List.mem_cons_of_mem _ hid, ?_, hnone⟩
      by_contra hmemo
      have hmemo : b.isMemoized type id = true := by simpa using hmemo
      have hthen := isMemoized_rememberMissed (t := t) hmemo [head]
      rw [List.foldl_cons, List.foldl_nil, hfresh] at hthen
      cases hthen

/-- What is known after a fetch was known before, or is a document of the fetch, or an id that was
asked for and that no document of the fetch holds. -/
theorem known?_of_rememberAll {ids : List String} {docs : List Document} {found : Option Document}
    (h : (b.rememberAll t ids docs).known? type id = some found) :
    b.known? type id = some found ∨ type = t.name ∧
      ((∃ doc ∈ docs, t.idOf? doc = some id ∧ found = some doc) ∨
        (id ∈ ids ∧ (∀ doc ∈ docs, t.idOf? doc ≠ some id) ∧ found = none)) := by
  rw [rememberAll_eq] at h
  rcases known?_of_rememberMissed h with hknown | ⟨rfl, hid, hfresh, hnone⟩
  · rcases known?_of_rememberFound hknown with hknown | ⟨htype, hdoc⟩
    · exact .inl hknown
    · exact .inr ⟨htype, .inl hdoc⟩
  · refine .inr ⟨rfl, .inr ⟨hid, fun doc hdoc heq => ?_, hnone⟩⟩
    rw [isMemoized_of_mem_found hdoc heq] at hfresh
    cases hfresh

/-- What is known of other types stays as it is. -/
theorem isMemoized_of_rememberAll {ids : List String} {docs : List Document} (htype : type ≠ t.name)
    (h : (b.rememberAll t ids docs).isMemoized type id = true) : b.isMemoized type id = true := by
  obtain ⟨found, hfound⟩ := Option.isSome_iff_exists.mp h
  rcases known?_of_rememberAll hfound with hknown | ⟨heq, -⟩
  · exact Option.isSome_iff_exists.mpr ⟨found, hknown⟩
  · exact absurd heq htype

/-- What a batch remembers after a fetch depends on what it remembered before. -/
theorem memo_rememberAll_congr {b b' : Batch} (h : b.memo = b'.memo) (ids : List String)
    (docs : List Document) : (b.rememberAll t ids docs).memo = (b'.rememberAll t ids docs).memo := by
  have hremember : ∀ {b b' : Batch}, b.memo = b'.memo → ∀ type id found,
      (b.remember type id found).memo = (b'.remember type id found).memo := by
    intro b b' h type id found
    rw [remember, remember, h]
  have hfound : ∀ {b b' : Batch}, b.memo = b'.memo →
      (docs.foldl (rememberFound t) b).memo = (docs.foldl (rememberFound t) b').memo := by
    induction docs with
    | nil => exact id
    | cons doc docs ih =>
      intro b b' h
      refine ih ?_
      unfold rememberFound
      cases t.idOf? doc with
      | none => exact h
      | some id => exact hremember h t.name id (some doc)
  have hmissed : ∀ {b b' : Batch}, b.memo = b'.memo →
      (ids.foldl (rememberMissed t) b).memo = (ids.foldl (rememberMissed t) b').memo := by
    induction ids with
    | nil => exact id
    | cons id ids ih =>
      intro b b' h
      refine ih ?_
      have hsame : b.isMemoized t.name id = b'.isMemoized t.name id := by
        rw [isMemoized, isMemoized, known?, known?, h]
      unfold rememberMissed
      rw [hsame]
      split
      · exact h
      · exact hremember h t.name id none
  rw [rememberAll_eq, rememberAll_eq]
  exact hmissed (hfound h)

end

/-- Whether an id of a type is among those collected. -/
def Collected (found : Keyed (Keyed Unit)) (type id : String) : Prop :=
  ∃ ids, found.get? type = some ids ∧ ids.contains id = true

theorem collected_update (found : Keyed (Keyed Unit)) (type id : String) :
    Collected (found.update type [] fun ids => ids.insert id ()) type id :=
  ⟨_, Keyed.get?_insert_self .., by rw [Keyed.contains, Keyed.get?_insert_self]; rfl⟩

theorem Collected.update {found : Keyed (Keyed Unit)} {type' id' : String}
    (h : Collected found type' id') (type id : String) :
    Collected (found.update type [] fun ids => ids.insert id ()) type' id' := by
  obtain ⟨ids, hget, hid⟩ := h
  unfold Collected Keyed.update
  rw [Keyed.get?_insert]
  by_cases htype : type = type'
  · refine ⟨_, if_pos htype, ?_⟩
    subst htype
    rw [hget, Option.getD_some, Keyed.contains, Keyed.get?_insert]
    split
    · rfl
    · exact hid
  · exact ⟨ids, by rw [if_neg htype, hget], hid⟩

theorem Collected.updates {found : Keyed (Keyed Unit)} {type' id' : String}
    (h : Collected found type' id') (type : String) (ids : List String) :
    Collected (ids.foldl (fun found id => found.update type [] fun ids => ids.insert id ()) found)
      type' id' := by
  induction ids generalizing found with
  | nil => exact h
  | cons id ids ih => exact ih (h.update type id)

theorem collected_updates (found : Keyed (Keyed Unit)) (type : String) {ids : List String}
    {id : String} (hid : id ∈ ids) :
    Collected (ids.foldl (fun found id => found.update type [] fun ids => ids.insert id ()) found)
      type id := by
  induction ids generalizing found with
  | nil => cases hid
  | cons head ids ih =>
    rw [List.foldl_cons]
    rcases List.mem_cons.mp hid with rfl | hid
    · exact (collected_update found type id).updates type ids
    · exact ih _ hid

theorem mem_keys_of_contains {ids : Keyed Unit} {id : String} (h : ids.contains id = true) :
    id ∈ ids.keys := by
  obtain ⟨found, hfound⟩ := Option.isSome_iff_exists.mp h
  exact List.mem_map_of_mem (Keyed.mem_of_get? hfound)

/-- An id of a slot is known or among the missing ones of its type. -/
theorem isMemoized_or_mem_missing (b : Batch) {round : List Slot} {slot : Slot}
    (hslot : slot ∈ round) {id : String} (hid : id ∈ slot.pointer.ids) :
    b.isMemoized slot.type id = true ∨ ∃ ids, (slot.type, ids) ∈ b.missing round ∧ id ∈ ids := by
  by_cases hknown : b.isMemoized slot.type id = true
  · exact .inl hknown
  right
  have hwanted : id ∈ slot.pointer.ids.filter fun id => !b.isMemoized slot.type id :=
    List.mem_filter.mpr ⟨hid, by simpa using hknown⟩
  have hcollected : ∀ found, Collected (round.foldl b.addMissing found) slot.type id := by
    have hstays : ∀ (round : List Slot) (found : Keyed (Keyed Unit)),
        Collected found slot.type id → Collected (round.foldl b.addMissing found) slot.type id := by
      intro round found h
      induction round generalizing found with
      | nil => exact h
      | cons head round ih => exact ih _ (h.updates head.type _)
    intro found
    induction round generalizing found with
    | nil => cases hslot
    | cons head round ih =>
      rw [List.foldl_cons]
      rcases List.mem_cons.mp hslot with rfl | hslot
      · exact hstays round _ (collected_updates found slot.type hwanted)
      · exact ih hslot _
  obtain ⟨ids, hget, hcontains⟩ := hcollected []
  exact ⟨ids.keys, List.mem_map_of_mem (f := fun entry => (entry.1, Keyed.keys entry.2))
    (Keyed.mem_of_get? hget), mem_keys_of_contains hcontains⟩

/-- Types come with ids, and ids come as a relation of types and ids allows. -/
def Covers (allowed : String → String → Prop) (found : Keyed (Keyed Unit)) : Prop :=
  ∀ entry ∈ found, entry.2 ≠ [] ∧ ∀ id ∈ entry.2.keys, allowed entry.1 id

theorem Covers.update {allowed : String → String → Prop} {found : Keyed (Keyed Unit)}
    (h : Covers allowed found) {type id : String} (hid : allowed type id) :
    Covers allowed (found.update type [] fun ids => ids.insert id ()) := by
  intro entry hentry
  rcases Keyed.mem_insert hentry with rfl | hentry
  · dsimp only
    generalize hids : (found.get? type).getD [] = ids
    have hbefore : ∀ other ∈ ids.keys, allowed type other := by
      intro other hother
      cases hget : found.get? type with
      | none =>
        rw [hget] at hids
        rw [← hids] at hother
        cases hother
      | some known =>
        rw [hget] at hids
        rw [← hids] at hother
        exact (h _ (Keyed.mem_of_get? hget)).2 other hother
    refine ⟨fun hnil => ?_, fun other hother => ?_⟩
    · have hget := Keyed.get?_insert_self ids id ()
      rw [hnil] at hget
      cases hget
    · obtain ⟨pair, hpair, rfl⟩ := List.mem_map.mp hother
      rcases Keyed.mem_insert hpair with rfl | hpair
      · exact hid
      · exact hbefore _ (List.mem_map_of_mem hpair)
  · exact h entry hentry

/-- Ids are missing for a type only where they are not known and slots of the type ask for them. -/
theorem covers_missing (b : Batch) (allowed : String → String → Prop) {round : List Slot}
    (hround : ∀ slot ∈ round, ∀ id ∈ slot.pointer.ids, b.isMemoized slot.type id = false →
      allowed slot.type id) {type : String} {ids : List String}
    (h : (type, ids) ∈ b.missing round) : ids ≠ [] ∧ ∀ id ∈ ids, allowed type id := by
  have hslots : ∀ slots ⊆ round, ∀ found, Covers allowed found →
      Covers allowed (slots.foldl b.addMissing found) := by
    intro slots
    induction slots with
    | nil => exact fun _ _ h => h
    | cons slot slots ih =>
      intro hsub found hfound
      refine ih (fun x hx => hsub (List.mem_cons_of_mem _ hx)) _ ?_
      have hids : ∀ ids ⊆ slot.pointer.ids.filter fun id => !b.isMemoized slot.type id,
          ∀ found, Covers allowed found → Covers allowed
            (ids.foldl (fun found id => found.update slot.type [] fun ids => ids.insert id ())
              found) := by
        intro ids
        induction ids with
        | nil => exact fun _ _ h => h
        | cons id ids ih =>
          intro hsub' found hfound
          obtain ⟨hid, hunknown⟩ := List.mem_filter.mp (hsub' List.mem_cons_self)
          refine ih (fun x hx => hsub' (List.mem_cons_of_mem _ hx)) _ (hfound.update ?_)
          exact hround slot (hsub List.mem_cons_self) id hid (by simpa using hunknown)
      exact hids _ (List.Subset.refl _) found hfound
  obtain ⟨entry, hentry, heq⟩ := List.mem_map.mp h
  cases heq
  obtain ⟨hne, hall⟩ := hslots round (List.Subset.refl _) [] (by rintro _ ⟨⟩) entry hentry
  exact ⟨fun hnil => hne (List.map_eq_nil_iff.mp hnil), hall⟩

/-- Ids are missing for a type only where slots of the type ask for them. -/
theorem exists_slot_of_mem_missing (b : Batch) {round : List Slot} {type : String}
    {ids : List String} (h : (type, ids) ∈ b.missing round) :
    ids ≠ [] ∧ ∀ id ∈ ids, ∃ slot ∈ round, slot.type = type ∧ id ∈ slot.pointer.ids :=
  b.covers_missing (fun type id => ∃ slot ∈ round, slot.type = type ∧ id ∈ slot.pointer.ids)
    (fun slot hslot _ hid _ => ⟨slot, hslot, rfl, hid⟩) h

/-- No missing id is known. -/
theorem isMemoized_of_mem_missing (b : Batch) {round : List Slot} {type : String}
    {ids : List String} (h : (type, ids) ∈ b.missing round) {id : String} (hid : id ∈ ids) :
    b.isMemoized type id = false :=
  (b.covers_missing (fun type id => b.isMemoized type id = false)
    (fun _ _ _ _ hunknown => hunknown) h).2 id hid

/-- The missing ids of a type stand together. -/
theorem nodup_types_missing (b : Batch) (round : List Slot) :
    ((b.missing round).map Prod.fst).Nodup := by
  have hids : ∀ (type : String) (ids : List String) (found : Keyed (Keyed Unit)),
      found.Ascending → (ids.foldl (fun found id =>
        found.update type [] fun ids => ids.insert id ()) found).Ascending := by
    intro type ids
    induction ids with
    | nil => exact fun _ h => h
    | cons id ids ih => exact fun found h => ih _ (Keyed.ascending_insert h type _)
  have hslots : ∀ (slots : List Slot) (found : Keyed (Keyed Unit)), found.Ascending →
      (slots.foldl b.addMissing found).Ascending := by
    intro slots
    induction slots with
    | nil => exact fun _ h => h
    | cons slot slots ih => exact fun found h => ih _ (hids slot.type _ found h)
  have htypes : (b.missing round).map Prod.fst = (round.foldl b.addMissing []).map Prod.fst := by
    rw [missing, Keyed.mapValues, List.map_map]
    rfl
  rw [htypes]
  exact List.pairwise_map.mpr ((hslots round [] .nil).imp fun h => h.ne)

end Batch

end DocumentEngine
