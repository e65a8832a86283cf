import DocumentEngine.Proofs.Text

/-!
The words of a camel-case name. A name is cut in one way only so that each word but the first begins
with a capital and no capital stands within a word.
-/

namespace DocumentEngine.Text

@[simp] theorem concat_nil : concat [] = "" := String.join_nil

@[simp] theorem concat_cons (word : String) (words : List String) :
    concat (word :: words) = word ++ concat words := String.join_cons

@[simp] theorem concat_append (front back : List String) :
    concat (front ++ back) = concat front ++ concat back := String.join_append

theorem mem_concat_iff {c : Char} {words : List String} :
    c ∈ (concat words).toList ↔ ∃ word ∈ words, c ∈ word.toList := by
  induction words with
  | nil => simp
  | cons word words ih => simp [ih]

/-- The words of a name: nothing is lost, and a new word begins exactly at a capital, or at the
beginning of the name. -/
structure IsCut (name : String) (words : List String) : Prop where
  whole : concat words = name
  isWord : ∀ word ∈ words, IsWord word
  capital : ∀ word ∈ words.tail, ∃ c ∈ word.toList.head?, isUppercase c = true

theorem IsWord.exists_cons {word : String} (h : IsWord word) :
    ∃ c cs, word.toList = c :: cs ∧ ∀ d ∈ cs, isUppercase d = false := by
  obtain ⟨c, cs, hcs⟩ : ∃ c cs, word.toList = c :: cs :=
    List.exists_cons_of_ne_nil fun hnil => h.1 (String.toList_eq_nil_iff.mp hnil)
  refine ⟨c, cs, hcs, ?_⟩
  have htail := h.2
  rwa [hcs, List.tail_cons] at htail

theorem isWord_ofList {c : Char} {cs : List Char} (h : ∀ d ∈ cs, isUppercase d = false) :
    IsWord (String.ofList (c :: cs)) := by
  refine ⟨fun hempty => ?_, by simpa using h⟩
  have hlist := String.toList_eq_nil_iff.mpr hempty
  rw [String.toList_ofList] at hlist
  cases hlist

namespace IsCut

variable {name word : String} {words : List String}

theorem nil : IsCut "" [] := ⟨rfl, by simp, by simp⟩

theorem eq_nil_iff (h : IsCut name words) : words = [] ↔ name = "" := by
  rw [← h.whole]
  constructor
  · rintro rfl
    rfl
  · intro hempty
    cases words with
    | nil => rfl
    | cons word words =>
      rw [concat_cons, String.append_eq_empty_iff] at hempty
      exact absurd hempty.1 (h.isWord word List.mem_cons_self).1

theorem tail (h : IsCut name (word :: words)) : IsCut (concat words) words where
  whole := rfl
  isWord := fun w hw => h.isWord w (List.mem_cons_of_mem _ hw)
  capital := fun w hw => h.capital w (List.mem_of_mem_tail hw)

/-- What stands behind the first word begins with a capital. -/
theorem head_concat (h : IsCut name (word :: words)) :
    ∀ d ∈ (concat words).toList.head?, isUppercase d = true := by
  intro d hd
  cases words with
  | nil => simp at hd
  | cons next words =>
    obtain ⟨c, hc, hcapital⟩ := h.capital next List.mem_cons_self
    obtain ⟨rest, hrest⟩ := List.head?_eq_some_iff.mp hc
    rw [concat_cons, String.toList_append, hrest, List.cons_append, List.head?_cons] at hd
    cases hd
    exact hcapital

/-- A cut name is cut by the words that it is read as. -/
theorem camelWords_eq (h : IsCut name words) : camelWords name = words := by
  induction words generalizing name with
  | nil =>
    rw [← h.whole]
    rfl
  | cons word words ih =>
    rw [← h.whole, concat_cons,
      camelWords_append (h.isWord word List.mem_cons_self) h.head_concat, ih h.tail]

/-- A character in front of a name is a word of its own, or the first letter of the first word. -/
theorem exists_push (h : IsCut name words) (c : Char) :
    ∃ words, IsCut (String.singleton c ++ name) words := by
  have hsingle : IsWord (String.singleton c) := isWord_ofList (List.forall_mem_nil _)
  cases words with
  | nil =>
    obtain rfl := h.eq_nil_iff.mp rfl
    exact ⟨[String.singleton c], by simp, by simpa using hsingle, by simp⟩
  | cons word words =>
    obtain ⟨d, ds, hword, hds⟩ := (h.isWord word List.mem_cons_self).exists_cons
    have hrest : ∀ w ∈ words, IsWord w := fun w hw => h.isWord w (List.mem_cons_of_mem _ hw)
    cases hd : isUppercase d with
    | true =>
      refine ⟨String.singleton c :: word :: words, by rw [concat_cons, h.whole], ?_, ?_⟩
      · exact List.forall_mem_cons.mpr ⟨hsingle, h.isWord⟩
      · refine List.forall_mem_cons.mpr ⟨⟨d, ?_, hd⟩, h.capital⟩
        rw [hword]
        rfl
    | false =>
      refine ⟨(String.singleton c ++ word) :: words, ?_, ?_, h.capital⟩
      · rw [concat_cons, String.append_assoc, ← concat_cons, h.whole]
      · refine List.forall_mem_cons.mpr ⟨?_, hrest⟩
        have hlonger : String.singleton c ++ word = String.ofList (c :: d :: ds) := by
          rw [← String.toList_inj, String.toList_append, hword, String.toList_ofList,
            String.toList_singleton, List.singleton_append]
        rw [hlonger]
        exact isWord_ofList (List.forall_mem_cons.mpr ⟨hd, hds⟩)

end IsCut

theorem isCut_camelWords (name : String) : IsCut name (camelWords name) := by
  have hexists : ∀ cs : List Char, ∃ words, IsCut (String.ofList cs) words := by
    intro cs
    induction cs with
    | nil => exact ⟨[], .nil⟩
    | cons c cs ih =>
      obtain ⟨words, hwords⟩ := ih
      obtain ⟨longer, hlonger⟩ := hwords.exists_push c
      refine ⟨longer, ?_⟩
      convert hlonger using 1
      rw [← String.toList_inj, String.toList_append, String.toList_ofList, String.toList_ofList,
        String.toList_singleton, List.singleton_append]
  obtain ⟨words, hwords⟩ := hexists name.toList
  rw [String.ofList_toList] at hwords
  rwa [hwords.camelWords_eq]

/-- A name has one cut. -/
theorem isCut_iff {name : String} {words : List String} :
    IsCut name words ↔ words = camelWords name := by
  refine ⟨fun h => h.camelWords_eq.symm, ?_⟩
  rintro rfl
  exact isCut_camelWords name

@[simp] theorem concat_camelWords (name : String) : concat (camelWords name) = name :=
  (isCut_camelWords name).whole

theorem ne_empty_of_mem_camelWords {name word : String} (h : word ∈ camelWords name) : word ≠ "" :=
  ((isCut_camelWords name).isWord word h).1

theorem subset_of_mem_camelWords {name word : String} (h : word ∈ camelWords name) :
    word.toList ⊆ name.toList := by
  intro c hc
  rw [← concat_camelWords name, mem_concat_iff]
  exact ⟨word, h, hc⟩

end DocumentEngine.Text
