import DocumentEngine.Keyed
import Mathlib.Data.String.Basic
import Mathlib.Tactic.Common

/-!
Looking up in keyed lists. A look-up sees the value that was put under its key last, and no other
key changes what it sees; none of this needs the keys to be in order. Keys that are in order stay so.
-/

namespace DocumentEngine.Keyed

variable {α β : Type}

theorem get?_cons (k : String) (v : α) (m : Keyed α) (key : String) :
    Keyed.get? ((k, v) :: m) key = if k = key then some v else get? m key := rfl

theorem insert_nil (key : String) (value : α) : Keyed.insert [] key value = [(key, value)] := rfl

theorem insert_cons (m : Keyed α) (k : String) (v : α) (key : String) (value : α) :
    Keyed.insert ((k, v) :: m) key value =
      if k = key then (key, value) :: m
      else if key < k then (key, value) :: (k, v) :: m
      else (k, v) :: m.insert key value := rfl

theorem get?_insert (m : Keyed α) (key : String) (value : α) (other : String) :
    (m.insert key value).get? other = if key = other then some value else m.get? other := by
  induction m with
  | nil => rfl
  | cons entry m ih =>
    obtain ⟨k, v⟩ := entry
    rw [insert_cons]
    by_cases hk : k = key
    · subst hk
      rw [if_pos rfl, get?_cons, get?_cons]
      by_cases ho : k = other <;> simp [ho]
    · rw [if_neg hk]
      by_cases hlt : key < k
      · rw [if_pos hlt, get?_cons]
      · rw [if_neg hlt, get?_cons, ih, get?_cons]
        by_cases ho : k = other
        · have hne : key ≠ other := fun h => hk (ho.trans h.symm)
          simp [ho, hne]
        · simp [ho]

@[simp]
theorem get?_insert_self (m : Keyed α) (key : String) (value : α) :
    (m.insert key value).get? key = some value := by
  simp [get?_insert]

theorem get?_insert_of_ne (m : Keyed α) {key other : String} (value : α) (h : key ≠ other) :
    (m.insert key value).get? other = m.get? other := by
  simp [get?_insert, h]

theorem insert_insert (m : Keyed α) (key : String) (value value' : α) :
    (m.insert key value).insert key value' = m.insert key value' := by
  induction m with
  | nil => simp [insert_nil, insert_cons]
  | cons entry m ih =>
    obtain ⟨k, v⟩ := entry
    by_cases hk : k = key
    · simp [insert_cons, hk]
    · by_cases hlt : key < k
      · simp [insert_cons, hk, hlt]
      · simp [insert_cons, hk, hlt, ih]

theorem insert_cons_self (m : Keyed α) (key : String) (v value : α) :
    Keyed.insert ((key, v) :: m) key value = (key, value) :: m := by
  simp [insert_cons]

theorem insert_cons_lt (m : Keyed α) {key k : String} (v value : α) (h : key < k) :
    Keyed.insert ((k, v) :: m) key value = (key, value) :: (k, v) :: m := by
  simp [insert_cons, h, h.ne']

theorem insert_cons_gt (m : Keyed α) {key k : String} (v value : α) (h : k < key) :
    Keyed.insert ((k, v) :: m) key value = (k, v) :: m.insert key value := by
  simp [insert_cons, h.ne, h.not_gt]

/-- Values under different keys may be put in either order. -/
theorem insert_comm (m : Keyed α) {key other : String} (hne : key ≠ other) (value value' : α) :
    (m.insert key value).insert other value' = (m.insert other value').insert key value := by
  induction m with
  | nil =>
    rcases lt_or_gt_of_ne hne with h | h
    · simp [insert_nil, insert_cons, hne, hne.symm, h, h.not_gt]
    · simp [insert_nil, insert_cons, hne, hne.symm, h, h.not_gt]
  | cons entry m ih =>
    obtain ⟨k, v⟩ := entry
    rcases lt_trichotomy key k with h | rfl | h
    · rw [insert_cons_lt m v value h]
      rcases lt_trichotomy other k with h' | rfl | h'
      · rw [insert_cons_lt m v value' h']
        rcases lt_or_gt_of_ne hne with hlt | hlt
        · rw [insert_cons_gt _ _ _ hlt, insert_cons_lt _ _ _ h', insert_cons_lt _ _ _ hlt]
        · rw [insert_cons_lt _ _ _ hlt, insert_cons_gt _ _ _ hlt, insert_cons_lt _ _ _ h]
      · rw [insert_cons_gt _ _ _ h, insert_cons_self, insert_cons_lt _ _ _ h]
      · rw [insert_cons_gt _ _ _ (h.trans h'), insert_cons_gt _ _ _ h', insert_cons_lt _ _ _ h]
    · rw [insert_cons_self]
      rcases lt_or_gt_of_ne hne with hlt | hlt
      · rw [insert_cons_gt _ _ _ hlt, insert_cons_gt _ _ _ hlt, insert_cons_self]
      · rw [insert_cons_lt _ _ _ hlt, insert_cons_lt _ _ _ hlt, insert_cons_gt _ _ _ hlt,
          insert_cons_self]
    · rw [insert_cons_gt m v value h]
      rcases lt_trichotomy other k with h' | rfl | h'
      · rw [insert_cons_lt _ _ _ h', insert_cons_lt _ _ _ h', insert_cons_gt _ _ _ (h'.trans h),
          insert_cons_gt _ _ _ h]
      · rw [insert_cons_self, insert_cons_self, insert_cons_gt _ _ _ h]
      · rw [insert_cons_gt _ _ _ h', insert_cons_gt _ _ _ h', insert_cons_gt _ _ _ h, ih]

theorem mem_of_get? {m : Keyed α} {key : String} {value : α} (h : m.get? key = some value) :
    (key, value) ∈ m := by
  induction m with
  | nil => cases h
  | cons entry m ih =>
    obtain ⟨k, v⟩ := entry
    rw [get?_cons] at h
    by_cases hk : k = key
    · rw [if_pos hk] at h
      cases h
      exact hk ▸ List.mem_cons_self
    · rw [if_neg hk] at h
      exact List.mem_cons_of_mem _ (ih h)

theorem get?_isSome_of_mem {m : Keyed α} {key : String} {value : α}
    (h : (key, value) ∈ m) : (m.get? key).isSome = true := by
  induction m with
  | nil => cases h
  | cons entry m ih =>
    obtain ⟨k, v⟩ := entry
    rw [get?_cons]
    split
    · rfl
    · rename_i hne
      rcases List.mem_cons.mp h with heq | h
      · cases heq
        exact absurd rfl hne
      · exact ih h

theorem mem_insert {m : Keyed α} {key : String} {value : α} {entry : String × α}
    (h : entry ∈ m.insert key value) : entry = (key, value) ∨ entry ∈ m := by
  induction m with
  | nil => exact .inl (List.mem_singleton.mp h)
  | cons head m ih =>
    obtain ⟨k, v⟩ := head
    rw [insert_cons] at h
    split at h
    · rcases List.mem_cons.mp h with h | h
      · exact .inl h
      · exact .inr (List.mem_cons_of_mem _ h)
    · split at h
      · rcases List.mem_cons.mp h with h | h
        · exact .inl h
        · exact .inr h
      · rcases List.mem_cons.mp h with h | h
        · exact .inr (h ▸ List.mem_cons_self)
        · rcases ih h with h | h
          · exact .inl h
          · exact .inr (List.mem_cons_of_mem _ h)

theorem keys_insert_subset {m : Keyed α} {keys : List String} (h : m.keys ⊆ keys) {key : String}
    (hkey : key ∈ keys) (value : α) : (m.insert key value).keys ⊆ keys := by
  intro other hother
  obtain ⟨entry, hentry, rfl⟩ := List.mem_map.mp hother
  rcases mem_insert hentry with rfl | hentry
  · exact hkey
  · exact h (List.mem_map_of_mem hentry)

theorem union_cons (m : Keyed α) (key : String) (value : α) (entries : List (String × α)) :
    m.union ((key, value) :: entries) = (m.insert key value).union entries := rfl

/-- A value under a key that no entry has may be put before or after the entries. -/
theorem insert_union (m : Keyed α) {entries : List (String × α)} {key : String}
    (h : key ∉ entries.map Prod.fst) (value : α) :
    (m.union entries).insert key value = (m.insert key value).union entries := by
  induction entries generalizing m with
  | nil => rfl
  | cons entry entries ih =>
    obtain ⟨k, v⟩ := entry
    rw [List.map_cons, List.mem_cons, not_or] at h
    rw [union_cons, union_cons, ih _ h.2, insert_comm m (Ne.symm h.1)]

theorem get?_union_of_notMem (m : Keyed α) {entries : List (String × α)} {key : String}
    (h : key ∉ entries.map Prod.fst) : (m.union entries).get? key = m.get? key := by
  induction entries generalizing m with
  | nil => rfl
  | cons entry entries ih =>
    obtain ⟨k, v⟩ := entry
    rw [List.map_cons, List.mem_cons, not_or] at h
    rw [union_cons, ih _ h.2, get?_insert_of_ne m v (Ne.symm h.1)]

/-- An element of a list that no later one with the same key replaces. -/
def Latest {γ κ : Type} (key : γ → κ) (xs : List γ) (x : γ) : Prop :=
  ∃ before after, xs = before ++ x :: after ∧ ∀ later ∈ after, key later ≠ key x

section

variable {γ δ κ : Type} {key : γ → κ} {x y : γ} {xs : List γ}

theorem Latest.mem (h : Latest key xs x) : x ∈ xs := by
  obtain ⟨before, after, rfl, -⟩ := h
  exact List.mem_append_right _ List.mem_cons_self

theorem latest_cons : Latest key (y :: xs) x ↔
    Latest key xs x ∨ (x = y ∧ ∀ later ∈ xs, key later ≠ key x) := by
  constructor
  · rintro ⟨before, after, hxs, hafter⟩
    cases before with
    | nil =>
      cases hxs
      exact .inr ⟨rfl, hafter⟩
    | cons head before =>
      cases hxs
      exact .inl ⟨before, after, rfl, hafter⟩
  · rintro (⟨before, after, rfl, hafter⟩ | ⟨rfl, hafter⟩)
    · exact ⟨y :: before, after, rfl, hafter⟩
    · exact ⟨[], xs, rfl, hafter⟩

theorem latest_map {f : δ → γ} {zs : List δ} : Latest key (zs.map f) x ↔
    ∃ z, Latest (fun z => key (f z)) zs z ∧ f z = x := by
  induction zs with
  | nil =>
    constructor
    · intro h
      cases h.mem
    · rintro ⟨z, h, -⟩
      cases h.mem
  | cons head zs ih =>
    rw [List.map_cons, latest_cons, ih]
    constructor
    · rintro (⟨z, h, rfl⟩ | ⟨rfl, h⟩)
      · exact ⟨z, latest_cons.mpr (.inl h), rfl⟩
      · exact ⟨head, latest_cons.mpr (.inr ⟨rfl, fun later hlater =>
          h _ (List.mem_map_of_mem hlater)⟩), rfl⟩
    · rintro ⟨z, h, rfl⟩
      rcases latest_cons.mp h with hrest | ⟨rfl, hlast⟩
      · exact .inl ⟨z, hrest, rfl⟩
      · refine .inr ⟨rfl, fun later hlater => ?_⟩
        obtain ⟨w, hw, rfl⟩ := List.mem_map.mp hlater
        exact hlast w hw

/-- Keys that agree on the elements of a list have the same latest ones. -/
theorem Latest.of_key {key' : γ → δ} (h : Latest key xs x)
    (hkeys : ∀ y ∈ xs, key' y = key' x → key y = key x) : Latest key' xs x := by
  obtain ⟨before, after, rfl, hafter⟩ := h
  exact ⟨before, after, rfl, fun later hlater heq => hafter later hlater
    (hkeys later (List.mem_append_right _ (List.mem_cons_of_mem _ hlater)) heq)⟩

end

/-- Entries under other keys do not change what is seen under a key. -/
theorem get?_union_filter {m m' : Keyed α} {key : String} (h : m.get? key = m'.get? key)
    (entries : List (String × α)) :
    (m.union entries).get? key = (m'.union (entries.filter (·.1 = key))).get? key := by
  induction entries generalizing m m' with
  | nil => exact h
  | cons entry entries ih =>
    rw [union_cons]
    by_cases hkey : entry.1 = key
    · rw [List.filter_cons_of_pos (by simpa using hkey)]
      exact ih (by rw [get?_insert, get?_insert, h])
    · rw [List.filter_cons_of_neg (by simpa using hkey)]
      exact ih ((get?_insert_of_ne m entry.2 hkey).trans h)

theorem mem_union {m : Keyed α} {entries : List (String × α)} {entry : String × α}
    (h : entry ∈ m.union entries) : entry ∈ m ∨ entry ∈ entries := by
  induction entries generalizing m with
  | nil => exact .inl h
  | cons next entries ih =>
    rcases ih (m := m.insert next.1 next.2) h with h | h
    · rcases mem_insert h with rfl | h
      · exact .inr List.mem_cons_self
      · exact .inl h
    · exact .inr (List.mem_cons_of_mem _ h)

theorem mem_keys_union {m : Keyed α} {entries : List (String × α)} {key : String}
    (h : key ∈ (m.union entries).keys) : key ∈ m.keys ∨ key ∈ entries.map Prod.fst := by
  obtain ⟨entry, hentry, rfl⟩ := List.mem_map.mp h
  exact (mem_union hentry).imp (List.mem_map_of_mem ·) (List.mem_map_of_mem ·)

theorem mem_of_get?_ofList {entries : List (String × α)} {key : String} {value : α}
    (h : (ofList entries).get? key = some value) : (key, value) ∈ entries := by
  rcases mem_union (m := []) (mem_of_get? h) with h | h
  · cases h
  · exact h

theorem isSome_get?_union (m : Keyed α) {entries : List (String × α)} {key : String}
    (h : (m.get? key).isSome = true ∨ key ∈ entries.map Prod.fst) :
    ((m.union entries).get? key).isSome = true := by
  induction entries generalizing m with
  | nil => exact h.resolve_right List.not_mem_nil
  | cons entry entries ih =>
    refine ih (m.insert entry.1 entry.2) ?_
    rw [get?_insert]
    rcases h with h | h
    · left
      split
      · rfl
      · exact h
    · rcases List.mem_cons.mp h with rfl | h
      · exact .inl (by rw [if_pos rfl]; rfl)
      · exact .inr h

theorem get?_union_of_mem (m : Keyed α) {entries : List (String × α)}
    (hkeys : (entries.map Prod.fst).Nodup) {key : String} {value : α}
    (h : (key, value) ∈ entries) : (m.union entries).get? key = some value := by
  induction entries generalizing m with
  | nil => cases h
  | cons entry entries ih =>
    obtain ⟨hnotin, hkeys⟩ := List.nodup_cons.mp hkeys
    rw [union_cons]
    rcases List.mem_cons.mp h with rfl | h
    · rw [get?_union_of_notMem _ hnotin, get?_insert_self]
    · exact ih _ hkeys h

theorem get?_erase_self (m : Keyed α) (key : String) :
    (m.erase key).get? key = none := by
  induction m with
  | nil => rfl
  | cons entry m ih =>
    obtain ⟨k, v⟩ := entry
    unfold Keyed.erase at ih ⊢
    by_cases hk : k = key
    · rwa [List.filter_cons_of_neg (by simpa using hk)]
    · rw [List.filter_cons_of_pos (by simpa using hk), get?_cons, if_neg hk, ih]

/-- The keys of a keyed list are in ascending order. -/
def Ascending (m : Keyed α) : Prop := List.Pairwise (fun a b => a.1 < b.1) m

theorem Ascending.nodup_keys {m : Keyed α} (h : m.Ascending) : m.keys.Nodup :=
  List.pairwise_map.mpr (h.imp fun hlt => ne_of_lt hlt)

theorem ascending_insert {m : Keyed α} (h : m.Ascending) (key : String) (value : α) :
    (m.insert key value).Ascending := by
  induction m with
  | nil => exact List.pairwise_singleton ..
  | cons entry m ih =>
    obtain ⟨k, v⟩ := entry
    obtain ⟨hk, hm⟩ := List.pairwise_cons.mp h
    rw [insert_cons]
    split
    · rename_i heq
      exact List.pairwise_cons.mpr ⟨fun other hother => heq ▸ hk other hother, hm⟩
    · rename_i hne
      split
      · rename_i hlt
        refine List.pairwise_cons.mpr ⟨fun other hother => ?_, h⟩
        rcases List.mem_cons.mp hother with rfl | hother
        · exact hlt
        · exact hlt.trans (hk other hother)
      · rename_i hnot
        refine List.pairwise_cons.mpr ⟨fun other hother => ?_, ih hm⟩
        rcases mem_insert hother with rfl | hother
        · exact lt_of_le_of_ne (not_lt.mp hnot) hne
        · exact hk other hother

theorem ascending_union {m : Keyed α} (h : m.Ascending) (entries : List (String × α)) :
    (m.union entries).Ascending := by
  induction entries generalizing m with
  | nil => exact h
  | cons entry entries ih => exact ih (ascending_insert h entry.1 entry.2)

theorem insert_of_forall_lt {m : Keyed α} {key : String} (h : ∀ entry ∈ m, entry.1 < key) (value : α) :
    m.insert key value = m ++ [(key, value)] := by
  induction m with
  | nil => rfl
  | cons entry m ih =>
    obtain ⟨k, v⟩ := entry
    obtain ⟨hfirst, hrest⟩ := List.forall_mem_cons.mp h
    rw [insert_cons_gt m v value hfirst, ih hrest]
    rfl

/-- Entries that stand in order already are collected as they are. -/
theorem ofList_of_ascending {m : Keyed α} (h : m.Ascending) : ofList m = m := by
  have happend : ∀ (rest before : List (String × α)), Ascending (before ++ rest) →
      union before rest = before ++ rest := by
    intro rest
    induction rest with
    | nil => intro before _; simp [union]
    | cons entry rest ih =>
      intro before hall
      have hbefore := (List.pairwise_append.mp hall).2.2
      rw [union_cons, insert_of_forall_lt fun other hother =>
        hbefore other hother entry List.mem_cons_self]
      rw [ih _ (by simpa [Ascending] using hall)]
      simp
  exact happend m [] h

theorem get?_erase_of_ne (m : Keyed α) {key other : String} (h : key ≠ other) :
    (m.erase key).get? other = m.get? other := by
  induction m with
  | nil => rfl
  | cons entry m ih =>
    obtain ⟨k, v⟩ := entry
    unfold Keyed.erase at ih ⊢
    by_cases hk : k = key
    · rw [List.filter_cons_of_neg (by simpa using hk), ih, get?_cons, if_neg (hk ▸ h)]
    · rw [List.filter_cons_of_pos (by simpa using hk), get?_cons, get?_cons, ih]

/-- In ascending order a key has no value but the one that is looked up. -/
theorem Ascending.get?_of_mem {m : Keyed α} (h : m.Ascending) {key : String} {value : α}
    (hmem : (key, value) ∈ m) : m.get? key = some value := by
  induction m with
  | nil => cases hmem
  | cons entry m ih =>
    obtain ⟨k, v⟩ := entry
    obtain ⟨hk, hm⟩ := List.pairwise_cons.mp h
    rw [get?_cons]
    rcases List.mem_cons.mp hmem with heq | hmem
    · cases heq
      rw [if_pos rfl]
    · rw [if_neg (hk _ hmem).ne]
      exact ih hm hmem

/-- What is put over entries in ascending order: of the entries of each key the latest, and what was
there under other keys. -/
theorem mem_union_iff {m : Keyed α} (h : m.Ascending) {entries : List (String × α)}
    {entry : String × α} : entry ∈ m.union entries ↔
      Latest Prod.fst entries entry ∨ (entry ∈ m ∧ entry.1 ∉ entries.map Prod.fst) := by
  induction entries generalizing m with
  | nil =>
    refine ⟨fun hmem => .inr ⟨hmem, List.not_mem_nil⟩, fun hmem => ?_⟩
    exact hmem.elim (fun hlatest => by cases hlatest.mem) And.left
  | cons head entries ih =>
    have hnotin : (∀ later ∈ entries, later.1 ≠ entry.1) ↔ entry.1 ∉ entries.map Prod.fst := by
      rw [List.mem_map, not_exists]
      exact forall_congr' fun later => not_and.symm
    have hput : entry ∈ m.insert head.1 head.2 ↔ entry = head ∨ (entry ∈ m ∧ entry.1 ≠ head.1) := by
      have hmem : ∀ {m : Keyed α}, m.Ascending → (entry ∈ m ↔ m.get? entry.1 = some entry.2) :=
        fun hm => ⟨hm.get?_of_mem, mem_of_get?⟩
      rw [hmem (ascending_insert h head.1 head.2), hmem h, get?_insert]
      by_cases hkey : head.1 = entry.1
      · rw [if_pos hkey]
        constructor
        · intro hvalue
          exact .inl (Prod.ext hkey.symm (Option.some.inj hvalue).symm)
        · rintro (rfl | ⟨-, hne⟩)
          · rfl
          · exact absurd hkey.symm hne
      · rw [if_neg hkey]
        constructor
        · exact fun hvalue => .inr ⟨hvalue, Ne.symm hkey⟩
        · rintro (rfl | ⟨hvalue, -⟩)
          · exact absurd rfl hkey
          · exact hvalue
    rw [union_cons, ih (ascending_insert h head.1 head.2), latest_cons, hput, hnotin, List.map_cons,
      List.mem_cons, not_or]
    constructor
    · rintro (hlatest | ⟨rfl | ⟨hmem, hne⟩, hrest⟩)
      · exact .inl (.inl hlatest)
      · exact .inl (.inr ⟨rfl, hrest⟩)
      · exact .inr ⟨hmem, hne, hrest⟩
    · rintro ((hlatest | ⟨rfl, hrest⟩) | ⟨hmem, hne, hrest⟩)
      · exact .inl hlatest
      · exact .inr ⟨.inl rfl, hrest⟩
      · exact .inr ⟨.inr ⟨hmem, hne⟩, hrest⟩

theorem Ascending.erase {m : Keyed α} (h : m.Ascending) (key : String) :
    (m.erase key).Ascending := h.sublist List.filter_sublist

theorem get?_eq_none_iff {m : Keyed α} {key : String} : m.get? key = none ↔ key ∉ m.keys := by
  rw [← Option.not_isSome_iff_eq_none, not_iff_not]
  constructor
  · intro h
    obtain ⟨value, hvalue⟩ := Option.isSome_iff_exists.mp h
    exact List.mem_map_of_mem (mem_of_get? hvalue)
  · intro h
    obtain ⟨⟨k, value⟩, hmem, rfl⟩ := List.mem_map.mp h
    exact get?_isSome_of_mem hmem

theorem get?_map (f : α → β) (m : Keyed α) (key : String) :
    get? (m.map fun entry => (entry.1, f entry.2)) key = (m.get? key).map f := by
  induction m with
  | nil => rfl
  | cons entry m ih =>
    rw [List.map_cons, get?_cons, get?_cons, ih]
    split <;> rfl

/-- Entries without repeated keys are found in any order. -/
theorem get?_ofList {entries : List (String × α)} (h : (entries.map Prod.fst).Nodup) (key : String) :
    (ofList entries).get? key = get? entries key := by
  cases hfound : get? entries key with
  | some value => exact get?_union_of_mem [] h (mem_of_get? hfound)
  | none => exact get?_union_of_notMem [] (get?_eq_none_iff.mp hfound)

end DocumentEngine.Keyed
