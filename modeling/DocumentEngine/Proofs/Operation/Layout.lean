import DocumentEngine.Operation.Descriptor
import DocumentEngine.Proofs.Keyed
import DocumentEngine.Proofs.Request.Layout
import DocumentEngine.Proofs.Schema.Exact
import DocumentEngine.Proofs.Text

/-!
The text of descriptors. A name stands before a colon; behind it stand parts with one comma between
them: the assigned fields in brackets, the set values in braces and the context in quotes, in any
order, each once at most. Blanks may stand around every piece.
-/

namespace DocumentEngine

namespace Descriptor

/-- Blanks and nothing else. -/
def Blank (cs : List Char) : Prop := ∀ c ∈ cs, Text.isBlank c = true

instance (cs : List Char) : Decidable (Blank cs) :=
  decidable_of_iff (cs.all Text.isBlank = true) List.all_eq_true

/-- A text of letters, digits and underscores. -/
def IsName (s : String) : Prop :=
  (s.toList.all fun c => Text.isAlphanumeric c || c = '_') = true

instance (s : String) : Decidable (IsName s) := inferInstanceAs (Decidable (_ = true))

/-- Things in order, with one comma between them and blanks around each. -/
inductive Row {α : Type} (Spelled : α → List Char → Prop) : List α → List Char → Prop where
  | nil {gap : List Char} (hgap : Blank gap) : Row Spelled [] gap
  | last {a : α} {before cs after : List Char} (hbefore : Blank before) (h : Spelled a cs)
      (hafter : Blank after) : Row Spelled [a] (before ++ (cs ++ after))
  | more {a : α} {as : List α} {before cs after rest : List Char} (hbefore : Blank before)
      (h : Spelled a cs) (hafter : Blank after) (hne : as ≠ []) (hrest : Row Spelled as rest) :
      Row Spelled (a :: as) (before ++ (cs ++ (after ++ ',' :: rest)))

/-- The text of a value: a flag, a 64-bit integer in digits, or a text between quotes, which has no
quote in it. -/
inductive ValueSpelled : Json → List Char → Prop where
  | flag (b : Bool) : ValueSpelled (.bool b) (if b then "true" else "false").toList
  | integer {n : Int} {cs : List Char} (h : Number.SpellsInteger cs n)
      (hlow : Number.minSigned ≤ n) (hhigh : n ≤ Number.maxSigned) : ValueSpelled (.int n) cs
  | text {s : String} (h : '"' ∉ s.toList) : ValueSpelled (.str s) ('"' :: (s.toList ++ ['"']))

/-- The text of a key with its value. -/
inductive EntrySpelled : String × Json → List Char → Prop where
  | intro {key : String} {v : Json} {before after cs : List Char} (hbefore : Blank before)
      (hafter : Blank after) (h : ValueSpelled v cs) :
      EntrySpelled (key, v) (key.toList ++ (before ++ ':' :: (after ++ cs)))

/-- A part of a descriptor behind its name. -/
inductive Part where
  | assign (names : List String)
  | set (entries : List (String × Json))
  | context (word : String)

namespace Part

/-- The word in front of the equals sign. -/
def key : Part → String
  | assign _ => "assign"
  | set _ => "set"
  | context _ => "context"

/-- The characters around what is written behind the equals sign. -/
def marks : Part → Char × Char
  | assign _ => ('[', ']')
  | set _ => ('\x7b', '\x7d')
  | context _ => ('"', '"')

/-- The text between the marks. -/
inductive Inside : Part → List Char → Prop where
  | assign {names : List String} {cs : List Char}
      (h : Row (fun name word => word = name.toList) names cs) : Inside (.assign names) cs
  | set {entries : List (String × Json)} {cs : List Char} (h : Row EntrySpelled entries cs) :
      Inside (.set entries) cs
  | context {word : String} (h : '"' ∉ word.toList) : Inside (.context word) word.toList

/-- What stands behind the equals sign. -/
def value (p : Part) (inside : List Char) : List Char := p.marks.1 :: (inside ++ [p.marks.2])

/-- The text of a part. -/
inductive Spelled : Part → List Char → Prop where
  | intro {p : Part} {before after inside : List Char} (hbefore : Blank before)
      (hafter : Blank after) (h : p.Inside inside) :
      Spelled p (p.key.toList ++ (before ++ '=' :: (after ++ p.value inside)))

/-- The descriptor with a part in place of what it had. -/
def put (d : Descriptor) : Part → Descriptor
  | assign names => { d with assign := names }
  | set entries => { d with set := Keyed.ofList entries }
  | context word => { d with context := some word }

end Part

/-- The parts of a descriptor, each once at most: the assigned fields in order, the set values in
any order, and the context where there is one. Without fields or without values the part may be
left out. -/
structure Comprises (d : Descriptor) (parts : List Part) : Prop where
  once : (parts.map Part.key).Nodup
  assign : ∀ names, .assign names ∈ parts → names = d.assign
  assigned : d.assign ≠ [] → .assign d.assign ∈ parts
  set : ∀ entries, .set entries ∈ parts → entries.Perm d.set
  written : d.set ≠ [] → ∃ entries, .set entries ∈ parts
  context : ∀ word, .context word ∈ parts ↔ d.context = some word

/-- A text of a descriptor: the name, a colon and the parts. Without parts the colon may be left
out. -/
inductive Renders (d : Descriptor) (text : String) : Prop where
  | full {parts : List Part} {before after body : List Char} (hparts : d.Comprises parts)
      (hbefore : Blank before) (hafter : Blank after) (hbody : Row Part.Spelled parts body)
      (h : text.toList = before ++ (d.name.toList ++ (after ++ ':' :: body)))
  | bare {before after : List Char} (hparts : d.Comprises []) (hbefore : Blank before)
      (hafter : Blank after) (h : text.toList = before ++ (d.name.toList ++ after))

/-- A descriptor whose names, fields and keys are words. -/
structure WellFormed (d : Descriptor) : Prop where
  nonempty : d.name ≠ ""
  name : IsName d.name
  fields : ∀ field ∈ d.assign, field ≠ "" ∧ IsName field
  ordered : d.set.Ascending
  keys : ∀ entry ∈ d.set, IsName entry.1

/-! Characters -/

variable {cs before after rest gap inside : List Char} {c : Char}

theorem isNumeric_of_isBlank (h : Text.isBlank c = true) : Text.isNumeric c = false := by
  have hall : ∀ n ∈ Text.blanks, Text.within Text.numericBoundaries n = false := by decide +kernel
  exact hall _ (Text.mem_blanks h)

theorem isWordChar_of_isBlank (h : Text.isBlank c = true) : Text.isWordChar c = false := by
  have hall : ∀ n ∈ Text.blanks, Text.within Text.wordMarkBoundaries n = false := by decide +kernel
  rw [Text.isWordChar, Text.isAlphabetic_of_isBlank h, hall _ (Text.mem_blanks h)]
  rfl

/-- The characters that part the pieces of a descriptor. -/
def divisions : List Char := [',', ':', '=', '[', ']', '\x7b', '\x7d', '"', '\'']

/-- A name has neither blanks nor divisions. -/
theorem IsName.plain {s : String} (h : IsName s) (hc : c ∈ s.toList) :
    Text.isBlank c = false ∧ c ∉ divisions := by
  have hname := List.all_eq_true.mp h c hc
  constructor
  · rw [Bool.eq_false_iff]
    intro hblank
    have hword : c ≠ '_' := by
      rintro rfl
      exact absurd hblank (by decide)
    simp [Text.isAlphanumeric, Text.isAlphabetic_of_isBlank hblank, isNumeric_of_isBlank hblank,
      hword] at hname
  · intro hdivision
    have hall : divisions.all (fun d => !(Text.isAlphanumeric d || d = '_')) = true := by
      decide +kernel
    have hnone := List.all_eq_true.mp hall c hdivision
    rw [hname] at hnone
    cases hnone

/-- A separator stands in no word. -/
theorem isWordChar_of_isSeparator (h : isSeparator c = true) : Text.isWordChar c = false := by
  rw [isSeparator, Bool.or_eq_true, decide_eq_true_eq] at h
  rcases h with rfl | h
  · decide +kernel
  · exact isWordChar_of_isBlank h

theorem Blank.nil : Blank [] := fun _ hc => absurd hc List.not_mem_nil

theorem Blank.separator (h : Blank cs) : ∀ c ∈ cs, isSeparator c = true := fun c hc => by
  rw [isSeparator, h c hc, Bool.or_true]

theorem Blank.notMem (h : Blank cs) (hc : Text.isBlank c = false) : c ∉ cs := fun hmem => by
  rw [h c hmem] at hc
  cases hc

theorem Blank.dropWhile_append (h : Blank gap) (hhead : ∀ c ∈ cs.head?, Text.isBlank c = false) :
    (gap ++ cs).dropWhile Text.isBlank = cs :=
  (Request.takeWhile_run h hhead).2

/-- A text that neither begins nor ends with a blank. -/
structure Tight (cs : List Char) : Prop where
  head : ∀ c ∈ cs.head?, Text.isBlank c = false
  last : ∀ c ∈ cs.getLast?, Text.isBlank c = false

theorem Tight.of_forall (h : ∀ c ∈ cs, Text.isBlank c = false) : Tight cs where
  head := fun c hc => h c (List.mem_of_mem_head? hc)
  last := fun c hc => h c (List.mem_of_mem_getLast? hc)

theorem IsName.tight {s : String} (h : IsName s) : Tight s.toList :=
  .of_forall fun _ hc => (h.plain hc).1

/-- What stands between tight texts does not matter. -/
theorem Tight.between {ds : List Char} (hcs : Tight cs) (hne : cs ≠ []) (hds : Tight ds)
    (hne' : ds ≠ []) (middle : List Char) : Tight (cs ++ (middle ++ ds)) where
  head := fun c hc => by
    rw [List.head?_append_of_ne_nil _ hne] at hc
    exact hcs.head c hc
  last := fun c hc => by
    rw [← List.append_assoc, List.getLast?_append_of_ne_nil _ hne'] at hc
    exact hds.last c hc

/-- Blanks around a text that has none at its ends are taken off. -/
theorem trimChars_between (hbefore : Blank before) (h : Tight cs) (hafter : Blank after) :
    Text.trimChars (before ++ (cs ++ after)) = cs := by
  unfold Text.trimChars
  rw [List.dropWhile_append_of_pos hbefore]
  cases cs with
  | nil =>
    have hnone : after.dropWhile Text.isBlank = [] := List.dropWhile_eq_nil_iff.mpr hafter
    rw [List.nil_append, hnone]
    rfl
  | cons c cs =>
    have hafter' : Blank after.reverse := fun d hd => hafter d (List.mem_reverse.mp hd)
    rw [List.cons_append, List.dropWhile_cons_of_neg (by simp [h.head c rfl]), ← List.cons_append,
      List.reverse_append, hafter'.dropWhile_append, List.reverse_reverse]
    rw [List.head?_reverse]
    exact h.last

theorem Tight.trimChars_eq (h : Tight cs) : Text.trimChars cs = cs := by
  have htrim := trimChars_between .nil h .nil
  rwa [List.nil_append, List.append_nil] at htrim

/-- The marks around what stands behind an equals sign. -/
def enclosures : List (Char × Char) := [('[', ']'), ('\x7b', '\x7d'), ('"', '"')]

theorem Part.marks_mem (p : Part) : p.marks ∈ enclosures := by
  cases p <;> simp [Part.marks, enclosures]

theorem Part.tight_value (p : Part) (inside : List Char) : Tight (p.value inside) := by
  have hall : ∀ marks ∈ enclosures,
      Text.isBlank marks.1 = false ∧ Text.isBlank marks.2 = false := by
    decide
  constructor
  · rintro c ⟨⟩
    exact (hall _ p.marks_mem).1
  · intro c hc
    rw [Part.value, ← List.cons_append, List.getLast?_concat] at hc
    cases hc
    exact (hall _ p.marks_mem).2

/-! Rows -/

section

variable {α : Type} {Spelled : α → List Char → Prop} {as : List α}

theorem Row.notMem (hrow : Row Spelled as cs) (hcomma : c ≠ ',') (hblank : Text.isBlank c = false)
    (h : ∀ a ∈ as, ∀ part, Spelled a part → c ∉ part) : c ∉ cs := by
  induction hrow with
  | nil hgap => exact hgap.notMem hblank
  | last hbefore hpart hafter =>
    simp [hbefore.notMem hblank, hafter.notMem hblank, h _ List.mem_cons_self _ hpart]
  | more hbefore hpart hafter _ _ ih =>
    have hrest := ih fun a ha => h a (List.mem_cons_of_mem _ ha)
    simp [hbefore.notMem hblank, hafter.notMem hblank, h _ List.mem_cons_self _ hpart, hcomma,
      hrest]

theorem Row.length_le (hrow : Row Spelled as cs) (h : ∀ a part, Spelled a part → part ≠ []) :
    as.length ≤ cs.length := by
  induction hrow with
  | nil => exact Nat.zero_le _
  | last _ hpart _ =>
    have hpos := List.length_pos_iff.mpr (h _ _ hpart)
    simp only [List.length_append, List.length_cons, List.length_nil]
    omega
  | more _ hpart _ _ _ ih =>
    have hpos := List.length_pos_iff.mpr (h _ _ hpart)
    simp only [List.length_append, List.length_cons]
    omega

/-- A row of texts without commas is cut into them. -/
theorem Row.exists_parts (hrow : Row Spelled as cs)
    (h : ∀ a ∈ as, ∀ part, Spelled a part → ',' ∉ part ∧ Tight part) :
    ∃ parts, List.Forall₂ Spelled as parts ∧
      (Text.splitChars ',' cs).map Text.trimChars = if as = [] then [[]] else parts := by
  have hcomma : Text.isBlank ',' = false := by decide
  induction hrow with
  | @nil gap hgap =>
    refine ⟨[], .nil, ?_⟩
    have htrim : Text.trimChars (gap ++ ([] ++ [])) = [] :=
      trimChars_between hgap (.of_forall (by simp)) .nil
    rw [Text.splitChars_of_notMem (hgap.notMem hcomma), if_pos rfl, List.map_singleton]
    simpa using htrim
  | @last a before part after hbefore hpart hafter =>
    obtain ⟨hnone, htight⟩ := h a List.mem_cons_self part hpart
    refine ⟨[part], .cons hpart .nil, ?_⟩
    have hwhole : ',' ∉ before ++ (part ++ after) := by
      simp [hbefore.notMem hcomma, hafter.notMem hcomma, hnone]
    rw [Text.splitChars_of_notMem hwhole, List.map_singleton,
      trimChars_between hbefore htight hafter, if_neg (List.cons_ne_nil _ _)]
  | @more a as before part after rest hbefore hpart hafter hne hrest ih =>
    obtain ⟨hnone, htight⟩ := h a List.mem_cons_self part hpart
    obtain ⟨parts, hparts, hsplit⟩ := ih fun b hb => h b (List.mem_cons_of_mem a hb)
    refine ⟨part :: parts, .cons hpart hparts, ?_⟩
    have hwhole : ',' ∉ before ++ (part ++ after) := by
      simp [hbefore.notMem hcomma, hafter.notMem hcomma, hnone]
    have hcut : before ++ (part ++ (after ++ ',' :: rest)) =
        (before ++ (part ++ after)) ++ ',' :: rest := by
      simp only [List.append_assoc]
    rw [hcut, Text.splitChars_append, Text.splitChars_of_notMem hwhole, List.map_append,
      List.map_singleton, trimChars_between hbefore htight hafter, hsplit, if_neg hne,
      if_neg (List.cons_ne_nil _ _), List.singleton_append]

end

end Descriptor

end DocumentEngine
