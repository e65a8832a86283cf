import DocumentEngine.Text.Split
import Mathlib.Data.String.Basic
import Mathlib.Tactic.Common

/-!
Cuts of texts, and their order. A separator between two texts cuts between their parts; texts without
the separator, and names of one word, are left whole. Texts are ordered by code points; in UTF-8 this
is the order of the bytes, since the bytes of a smaller code point are less at the first place where
two encodings differ.
-/

namespace DocumentEngine.Text

theorem splitChars_of_notMem {sep : Char} {cs : List Char} (h : sep ∉ cs) :
    splitChars sep cs = [cs] := by
  induction cs with
  | nil => rfl
  | cons c cs ih =>
    simp only [List.mem_cons, not_or] at h
    rw [splitChars, if_neg (Ne.symm h.1), ih h.2]

theorem splitChars_ne_nil (sep : Char) (cs : List Char) : splitChars sep cs ≠ [] := by
  cases cs with
  | nil => exact List.cons_ne_nil _ _
  | cons c cs =>
    unfold splitChars
    split
    · exact List.cons_ne_nil _ _
    · split <;> exact List.cons_ne_nil _ _

/-- A cut at a separator gives the parts before it and the parts after it. -/
theorem splitChars_append (sep : Char) (before after : List Char) :
    splitChars sep (before ++ sep :: after) = splitChars sep before ++ splitChars sep after := by
  induction before with
  | nil =>
    rw [List.nil_append, splitChars.eq_def]
    simp [splitChars]
  | cons c before ih =>
    rw [List.cons_append, splitChars, splitChars, ih]
    by_cases hc : c = sep
    · rw [if_pos hc, if_pos hc, List.cons_append]
    · rw [if_neg hc, if_neg hc]
      cases hparts : splitChars sep before with
      | nil => exact absurd hparts (splitChars_ne_nil sep before)
      | cons part parts => rfl

theorem notMem_of_mem_splitChars {sep : Char} {cs part : List Char}
    (h : part ∈ splitChars sep cs) : sep ∉ part := by
  induction cs generalizing part with
  | nil =>
    rw [List.mem_singleton.mp h]
    exact List.not_mem_nil
  | cons c cs ih =>
    unfold splitChars at h
    by_cases hc : c = sep
    · rw [if_pos hc] at h
      rcases List.mem_cons.mp h with rfl | h
      · exact List.not_mem_nil
      · exact ih h
    · rw [if_neg hc] at h
      cases hparts : splitChars sep cs with
      | nil => exact absurd hparts (splitChars_ne_nil sep cs)
      | cons first rest =>
        rw [hparts] at h ih
        rcases List.mem_cons.mp h with rfl | h
        · rw [List.mem_cons, not_or]
          exact ⟨Ne.symm hc, ih List.mem_cons_self⟩
        · exact ih (List.mem_cons_of_mem _ h)

theorem subset_of_mem_splitChars {sep : Char} {cs part : List Char}
    (h : part ∈ splitChars sep cs) : part ⊆ cs := by
  induction cs generalizing part with
  | nil =>
    rw [List.mem_singleton.mp h]
    exact List.nil_subset _
  | cons c cs ih =>
    unfold splitChars at h
    by_cases hc : c = sep
    · rw [if_pos hc] at h
      rcases List.mem_cons.mp h with rfl | h
      · exact List.nil_subset _
      · exact List.subset_cons_of_subset c (ih h)
    · rw [if_neg hc] at h
      cases hparts : splitChars sep cs with
      | nil => exact absurd hparts (splitChars_ne_nil sep cs)
      | cons first rest =>
        rw [hparts] at h ih
        rcases List.mem_cons.mp h with rfl | h
        · exact List.cons_subset_cons c (ih List.mem_cons_self)
        · exact List.subset_cons_of_subset c (ih (List.mem_cons_of_mem _ h))

theorem splitAt_of_notMem {sep : Char} {s : String} (h : sep ∉ s.toList) :
    splitAt sep s = [s] := by
  rw [splitAt, splitChars_of_notMem h, List.map_singleton, String.ofList_toList]

theorem notMem_of_mem_splitAt {sep : Char} {s part : String} (h : part ∈ splitAt sep s) :
    sep ∉ part.toList := by
  obtain ⟨cs, hcs, rfl⟩ := List.mem_map.mp h
  rw [String.toList_ofList]
  exact notMem_of_mem_splitChars hcs

/-- Parts without separators that are put together with them are cut apart again. -/
theorem splitAt_intercalate {sep : Char} {parts : List String} (hne : parts ≠ [])
    (h : ∀ part ∈ parts, sep ∉ part.toList) :
    splitAt sep ((String.singleton sep).intercalate parts) = parts := by
  induction parts with
  | nil => exact absurd rfl hne
  | cons part parts ih =>
    rw [List.forall_mem_cons] at h
    cases parts with
    | nil => rw [String.intercalate_singleton, splitAt_of_notMem h.1]
    | cons next parts =>
      have hrest := ih (List.cons_ne_nil next parts) h.2
      unfold splitAt at hrest ⊢
      rw [String.intercalate_cons_cons, String.toList_append, String.toList_append,
        String.toList_singleton, List.append_assoc, List.singleton_append, splitChars_append,
        splitChars_of_notMem h.1, List.map_append, hrest, List.map_singleton, String.ofList_toList,
        List.singleton_append]

/-- A name that begins a new word at its first character at most. -/
def IsWord (name : String) : Prop :=
  name ≠ "" ∧ ∀ c ∈ name.toList.tail, isUppercase c = false

instance (name : String) : Decidable (IsWord name) :=
  decidable_of_iff (name ≠ "" ∧ (name.toList.tail.all fun c => !isUppercase c) = true) (by
    simp [IsWord])

theorem camelChars_append {c : Char} {cs : List Char} (h : ∀ c ∈ cs, isUppercase c = false)
    {rest : List Char} (hrest : ∀ d ∈ rest.head?, isUppercase d = true) :
    camelChars (c :: cs ++ rest) = (c :: cs) :: camelChars rest := by
  induction cs generalizing c with
  | nil =>
    cases rest with
    | nil => rfl
    | cons d rest =>
      rw [List.singleton_append, camelChars, if_pos (hrest d rfl)]
  | cons d cs ih =>
    have hd : isUppercase d = false := h d List.mem_cons_self
    have hword := ih (c := d) fun c hc => h c (List.mem_cons_of_mem _ hc)
    rw [List.cons_append, List.cons_append, camelChars, hd, if_neg Bool.false_ne_true,
      ← List.cons_append, hword]

/-- A word in front of a text that begins with a capital is cut off as it is. -/
theorem camelWords_append {name rest : String} (h : IsWord name)
    (hrest : ∀ d ∈ rest.toList.head?, isUppercase d = true) :
    camelWords (name ++ rest) = name :: camelWords rest := by
  obtain ⟨c, cs, hcs⟩ : ∃ c cs, name.toList = c :: cs :=
    List.exists_cons_of_ne_nil fun hnil => h.1 (String.toList_eq_nil_iff.mp hnil)
  have htail := h.2
  rw [hcs, List.tail_cons] at htail
  unfold camelWords
  rw [String.toList_append, hcs, camelChars_append htail hrest, List.map_cons, ← hcs,
    String.ofList_toList]

theorem camelWords_of_isWord {name : String} (h : IsWord name) : camelWords name = [name] := by
  have hword := @camelWords_append name "" h (by simp)
  rwa [String.append_empty] at hword

/-- The bytes of a text in UTF-8. -/
def bytes (text : String) : List UInt8 := text.toByteArray.data.toList

theorem bytes_eq (text : String) : bytes text = text.toList.flatMap String.utf8EncodeChar := by
  unfold bytes
  rw [← String.utf8Encode_toList, List.utf8Encode]
  simp

private theorem cons_ofNat_lt_cons {m n : Nat} (hm : m < 256) (hn : n < 256)
    (l l' : List UInt8) :
    UInt8.ofNat m :: l < UInt8.ofNat n :: l' ↔ m < n ∨ (m = n ∧ l < l') := by
  rw [List.cons_lt_cons_iff, UInt8.lt_iff_toNat_lt, ← UInt8.toNat_inj,
    UInt8.toNat_ofNat_of_lt' hm, UInt8.toNat_ofNat_of_lt' hn]

/-- The bytes of a smaller code point are less, whatever comes behind either. -/
theorem encode_append_lt {c d : Char} (h : c < d) (rest rest' : List UInt8) :
    String.utf8EncodeChar c ++ rest < String.utf8EncodeChar d ++ rest' := by
  have hlt : c.val.toNat < d.val.toNat := h
  have hd : d.val.toNat < 1114112 := by
    have := d.valid
    unfold UInt32.isValidChar Nat.isValidChar at this
    omega
  unfold String.utf8EncodeChar
  dsimp only
  generalize c.val.toNat = m at hlt
  generalize d.val.toNat = n at hlt hd
  -- a longer encoding starts with a larger byte; within one length the digits decide
  have h4096 : ∀ k : Nat, k / 4096 = k / 64 / 64 := fun k => by omega
  have h262144 : ∀ k : Nat, k / 262144 = k / 64 / 64 / 64 := fun k => by omega
  simp only [h4096, h262144]
  split_ifs <;>
    simp (disch := omega) only [List.cons_append, List.nil_append, cons_ofNat_lt_cons] <;> omega

theorem flatMap_encode_lt {cs ds : List Char} (h : cs < ds) :
    cs.flatMap String.utf8EncodeChar < ds.flatMap String.utf8EncodeChar := by
  induction cs generalizing ds with
  | nil =>
    cases ds with
    | nil => exact absurd h (lt_irrefl _)
    | cons d ds =>
      rw [List.flatMap_nil, List.flatMap_cons]
      obtain ⟨b, bytes, hb⟩ := List.exists_cons_of_ne_nil (@String.utf8EncodeChar_ne_nil d)
      rw [hb, List.cons_append]
      exact List.nil_lt_cons _ _
  | cons c cs ih =>
    cases ds with
    | nil => exact absurd h (List.not_lt_nil _)
    | cons d ds =>
      rw [List.flatMap_cons, List.flatMap_cons]
      rcases List.cons_lt_cons_iff.mp h with hcd | ⟨rfl, hrest⟩
      · exact encode_append_lt hcd _ _
      · exact List.append_left_lt (ih hrest)

/-- The order of texts is the order of their bytes. -/
theorem lt_iff_bytes_lt {a b : String} : a < b ↔ bytes a < bytes b := by
  have hlt : ∀ {a b : String}, a < b → bytes a < bytes b := by
    intro a b h
    rw [bytes_eq, bytes_eq]
    exact flatMap_encode_lt (String.lt_iff_toList_lt.mp h)
  refine ⟨hlt, fun h => ?_⟩
  rcases lt_trichotomy a b with hab | rfl | hba
  · exact hab
  · exact absurd h (List.lt_irrefl _)
  · exact absurd (hlt hba) (List.lt_asymm h)

theorem le_iff_bytes_le {a b : String} : a ≤ b ↔ bytes a ≤ bytes b := by
  rw [← not_lt, lt_iff_bytes_lt]
  exact List.not_lt

end DocumentEngine.Text
