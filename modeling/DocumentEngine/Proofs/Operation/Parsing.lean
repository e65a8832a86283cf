import DocumentEngine.Proofs.Operation.Layout
import DocumentEngine.Proofs.Operation.Values
import Mathlib

/-!
Reading descriptors. The text of a descriptor is read as that descriptor exactly where the keys of
its set values are not empty and the texts among them have neither commas nor closing braces: a map
ends at the first closing brace and is cut at every comma, inside quotes as well. No text at all is
read as a descriptor with such a value.
-/

namespace DocumentEngine

theorem Keyed.ofList_perm {α : Type} {entries : List (String × α)} {m : Keyed α}
    (h : entries.Perm m) (hm : m.Ascending) : Keyed.ofList entries = m := by
  have hfound : ∀ entry ∈ entries, Keyed.get? m entry.1 = some entry.2 := fun entry hentry =>
    hm.get?_of_mem (h.mem_iff.mp hentry)
  have hfold : Keyed.ofList entries = Keyed.ofList m := by
    refine h.foldl_eq' (fun a ha b hb built => ?_) []
    by_cases hkey : a.1 = b.1
    · have hvalue := hfound a ha
      rw [hkey, hfound b hb] at hvalue
      rw [Prod.ext hkey (Option.some.inj hvalue).symm]
    · exact Keyed.insert_comm built hkey a.2 b.2
  rw [hfold, Keyed.ofList_of_ascending hm]

namespace Descriptor

variable {cs before after rest gap inside value : List Char} {c : Char}

/-! Values -/

theorem plain_of_spellsInteger {n : Int} (h : Number.SpellsInteger cs n) (hc : c ∈ cs) :
    c = '-' ∨ c = '+' ∨ c.isDigit = true := by
  obtain ⟨sign, digits, -, hall, rfl, -⟩ := h
  rcases List.mem_append.mp hc with hc | hc
  · rcases sign with _ | _ | _ <;> simp_all [Number.signText]
  · exact .inr (.inr (hall c hc))

/-- The characters of the text of a value that is no text. -/
theorem ValueSpelled.plain {v : Json} (h : ValueSpelled v cs) (htext : ∀ s, v ≠ .str s)
    (hc : c ∈ cs) : Text.isBlank c = false ∧ c ∉ divisions := by
  cases h with
  | flag b =>
    have hall : ∀ b : Bool, (if b then "true" else "false").toList.all
        (fun c => !Text.isBlank c && !divisions.contains c) = true := by decide
    simpa using List.all_eq_true.mp (hall b) c hc
  | integer hspells =>
    rcases plain_of_spellsInteger hspells hc with rfl | rfl | hdigit
    · decide
    · decide
    · refine ⟨Number.isBlank_of_isDigit hdigit, fun hmem => ?_⟩
      have hall : divisions.all (fun d => !d.isDigit) = true := by decide
      have hnone := List.all_eq_true.mp hall c hmem
      rw [hdigit] at hnone
      cases hnone
  | text => exact absurd rfl (htext _)

theorem ValueSpelled.tight {v : Json} (h : ValueSpelled v cs) : Tight cs := by
  by_cases htext : ∃ s, v = .str s
  · obtain ⟨s, rfl⟩ := htext
    cases h with
    | text =>
      constructor
      · rintro c ⟨⟩
        decide
      · intro c hc
        rw [← List.cons_append, List.getLast?_concat] at hc
        cases hc
        decide
  · exact .of_forall fun c hc => (h.plain (not_exists.mp htext) hc).1

theorem ValueSpelled.ne_nil {v : Json} (h : ValueSpelled v cs) : cs ≠ [] := by
  cases h with
  | flag b => cases b <;> decide
  | integer hspells =>
    obtain ⟨sign, digits, hne, -, rfl, -⟩ := hspells
    exact List.append_ne_nil_of_right_ne_nil _ hne
  | text => exact List.cons_ne_nil _ _

theorem unquote_quoted (cs : List Char) : unquote ('"' :: (cs ++ ['"'])) = cs := by
  rw [unquote, inner?_concat]
  rfl

theorem unquote_of_plain (h : ∀ c ∈ cs, c ∉ divisions) : unquote cs = cs := by
  cases cs with
  | nil => rfl
  | cons c cs =>
    have hmarks := h c List.mem_cons_self
    have hdouble : c ≠ '"' := by
      rintro rfl
      exact hmarks (by decide)
    have hsingle : c ≠ '\'' := by
      rintro rfl
      exact hmarks (by decide)
    rw [unquote, inner?_of_ne hdouble, inner?_of_ne hsingle]
    rfl

/-- A text in quotes is no number. -/
theorem valueOf_quoted (cs : List Char) :
    valueOf ('"' :: (cs ++ ['"'])) = .str (String.ofList cs) := by
  have htrue : '"' :: (cs ++ ['"']) ≠ "true".toList := by simp
  have hfalse : '"' :: (cs ++ ['"']) ≠ "false".toList := by simp
  have hinteger : Number.signed? ('"' :: (cs ++ ['"'])) = none := by
    rw [Option.eq_none_iff_forall_not_mem]
    intro n hn
    have hspells := (Number.signed?_eq_some_iff.mp hn).1
    exact absurd (plain_of_spellsInteger hspells List.mem_cons_self) (by decide)
  have hdecimal : ∀ d, Number.double? ('"' :: (cs ++ ['"'])) ≠ some (.finite d) := by
    intro d hd
    rw [Number.double?_plain (by rintro c ⟨⟩; decide)] at hd
    obtain ⟨-, hmagnitude⟩ := Number.unsignedDouble?_eq_finite_iff.mp hd
    obtain ⟨c, rest, hcons, hc⟩ := Number.head_of_magnitude? hmagnitude
    cases hcons
    exact absurd hc (by decide)
  unfold valueOf
  rw [if_neg htrue, if_neg hfalse, hinteger]
  dsimp only
  split
  · exact absurd ‹_› (hdecimal _)
  · rw [unquote_quoted]

/-- A value is read from its text. -/
theorem ValueSpelled.valueOf_eq {v : Json} (h : ValueSpelled v cs) : valueOf cs = v := by
  cases h with
  | flag b => cases b <;> rfl
  | @integer n _ hspells hlow hhigh =>
    have hread := Number.signed?_eq_some_iff.mpr ⟨hspells, hlow, hhigh⟩
    have htrue : cs ≠ "true".toList := by
      rintro rfl
      have hnone : Number.signed? "true".toList = none := by decide
      rw [hnone] at hread
      cases hread
    have hfalse : cs ≠ "false".toList := by
      rintro rfl
      have hnone : Number.signed? "false".toList = none := by decide
      rw [hnone] at hread
      cases hread
    rw [valueOf, if_neg htrue, if_neg hfalse, hread]
  | @text s => rw [valueOf_quoted, String.ofList_toList]

/-! Lists and maps -/

theorem names_row {fields : List String}
    (hrow : Row (fun name word => word = name.toList) fields cs)
    (h : ∀ field ∈ fields, field ≠ "" ∧ IsName field) :
    names ('[' :: (cs ++ [']'])) = .ok fields := by
  obtain ⟨parts, hparts, hcut⟩ := hrow.exists_parts fun field hfield word hword => by
    subst hword
    exact ⟨fun hcomma => ((h field hfield).2.plain hcomma).2 (by decide), (h field hfield).2.tight⟩
  have hwords : parts.map (fun item => String.ofList (unquote item)) = fields := by
    clear hcut hrow
    induction hparts with
    | nil => rfl
    | @cons field word fields words hword _ ih =>
      subst hword
      have hplain := fun c hc => ((h field List.mem_cons_self).2.plain (c := c) hc).2
      rw [List.map_cons, unquote_of_plain hplain, String.ofList_toList,
        ih fun other hother => h other (List.mem_cons_of_mem _ hother)]
  unfold names
  rw [inner?_concat]
  dsimp only
  have hitems : ((Text.splitChars ',' cs).map fun item =>
      String.ofList (unquote (Text.trimChars item))) =
        (if fields = [] then [[]] else parts).map fun item => String.ofList (unquote item) := by
    rw [← hcut, List.map_map]
    rfl
  rw [hitems]
  by_cases hnil : fields = []
  · rw [if_pos hnil, hnil]
    rfl
  · rw [if_neg hnil, hwords, List.filter_eq_self.mpr]
    exact fun field hfield => by simpa using (h field hfield).1

/-- The texts among set values that a map can hold, and keys that are not empty. -/
def Settable (entry : String × Json) : Prop :=
  entry.1 ≠ "" ∧ ∀ s, entry.2 = .str s → ',' ∉ s.toList ∧ '\x7d' ∉ s.toList

theorem EntrySpelled.notMem {entry : String × Json} (h : EntrySpelled entry cs)
    (hname : IsName entry.1) (hset : Settable entry) (hc : c = ',' ∨ c = '\x7d') : c ∉ cs := by
  have hblank : Text.isBlank c = false := by rcases hc with rfl | rfl <;> decide
  have hdivision : c ∈ divisions := by rcases hc with rfl | rfl <;> decide
  have hcolon : c ≠ ':' := by rcases hc with rfl | rfl <;> decide
  obtain @⟨key, v, before, after, text, hbefore, hafter, hvalue⟩ := h
  have hkey : c ∉ key.toList := fun hmem => (hname.plain hmem).2 hdivision
  have htext : c ∉ text := by
    by_cases hstr : ∃ s, v = .str s
    · obtain ⟨s, rfl⟩ := hstr
      have hfree := hset.2 s rfl
      cases hvalue
      rcases hc with rfl | rfl <;> simp [hfree]
    · exact fun hmem => (hvalue.plain (not_exists.mp hstr) hmem).2 hdivision
  simp [hkey, hbefore.notMem hblank, hafter.notMem hblank, hcolon, htext]

theorem EntrySpelled.tight {entry : String × Json} (h : EntrySpelled entry cs)
    (hname : IsName entry.1) (hne : entry.1 ≠ "") : Tight cs := by
  obtain @⟨key, v, before, after, text, hbefore, hafter, hvalue⟩ := h
  have hkey : key.toList ≠ [] := fun hnil => hne (String.toList_eq_nil_iff.mp hnil)
  have hbetween := hname.tight.between hkey hvalue.tight hvalue.ne_nil (before ++ ':' :: after)
  simpa only [List.append_assoc, List.cons_append] using hbetween

/-- An entry is read from its text. -/
theorem EntrySpelled.entry_eq {found : String × Json} (h : EntrySpelled found cs)
    (hname : IsName found.1) (hne : found.1 ≠ "") : entry cs = .ok found := by
  obtain @⟨key, v, before, after, text, hbefore, hafter, hvalue⟩ := h
  have hcolon : ':' ∉ key.toList ++ before := by
    rw [List.mem_append, not_or]
    exact ⟨fun hmem => (hname.plain hmem).2 (by decide), hbefore.notMem (by decide)⟩
  have hkey : key.toList.isEmpty = false := by
    rw [List.isEmpty_eq_false_iff]
    exact fun hnil => hne (String.toList_eq_nil_iff.mp hnil)
  have hleft : Text.trimChars (key.toList ++ before) = key.toList :=
    trimChars_between .nil hname.tight hbefore
  have hright : Text.trimChars (after ++ text) = text := by
    have htrim := trimChars_between hafter hvalue.tight .nil
    rwa [List.append_nil] at htrim
  have hunquote : unquote key.toList = key.toList :=
    unquote_of_plain fun c hc => (hname.plain hc).2
  unfold entry
  rw [← List.append_assoc, splitOnce?_append hcolon]
  dsimp only
  rw [hleft, hunquote, hkey, hright, hvalue.valueOf_eq, String.ofList_toList]
  rfl

theorem entries_row {set : List (String × Json)} (hrow : Row EntrySpelled set cs)
    (hname : ∀ entry ∈ set, IsName entry.1) (hset : ∀ entry ∈ set, Settable entry) :
    entries ('\x7b' :: (cs ++ ['\x7d'])) = .ok (Keyed.ofList set) := by
  obtain ⟨parts, hparts, hcut⟩ := hrow.exists_parts fun e he part hpart =>
    ⟨hpart.notMem (hname e he) (hset e he) (.inl rfl), hpart.tight (hname e he) (hset e he).1⟩
  have hread : parts.mapM entry = .ok set ∧ ∀ part ∈ parts, part ≠ [] := by
    clear hcut hrow
    induction hparts with
    | nil => exact ⟨rfl, by simp⟩
    | @cons e part set parts hpart _ ih =>
      obtain ⟨hrest, hall⟩ := ih (fun e he => hname e (List.mem_cons_of_mem _ he))
        fun e he => hset e (List.mem_cons_of_mem _ he)
      have hfirst := hpart.entry_eq (hname e List.mem_cons_self) (hset e List.mem_cons_self).1
      refine ⟨by rw [List.mapM_cons, hfirst, hrest]; rfl, List.forall_mem_cons.mpr ⟨?_, hall⟩⟩
      rintro rfl
      cases hfirst
  have hfilter : ((Text.splitChars ',' cs).map Text.trimChars).filter (fun part => !part.isEmpty) =
      parts := by
    rw [hcut]
    split
    · rename_i hnil
      subst hnil
      cases hparts
      rfl
    · exact List.filter_eq_self.mpr fun part hpart => by simpa using hread.2 part hpart
  unfold entries
  rw [inner?_concat]
  dsimp only
  rw [hfilter, hread.1]
  rfl

/-! Fragments -/

theorem enclosed?_append {opening closing : Char} (h : closing ∉ inside) (rest : List Char) :
    enclosed? opening closing (opening :: (inside ++ closing :: rest)) =
      some (opening :: (inside ++ [closing]), rest) := by
  rw [enclosed?, if_pos rfl, splitOnce?_append h]
  rfl

theorem enclosed?_of_ne {opening : Char} (h : c ≠ opening) (closing : Char) (cs : List Char) :
    enclosed? opening closing (c :: cs) = none := if_neg h

/-- A value between marks is read up to the first closing mark. -/
theorem value?_append {marks : Char × Char} (hmarks : marks ∈ enclosures) (h : marks.2 ∉ inside)
    (rest : List Char) : value? (marks.1 :: (inside ++ marks.2 :: rest)) =
      some (marks.1 :: (inside ++ [marks.2]), rest) := by
  simp only [enclosures, List.mem_cons, List.not_mem_nil, or_false] at hmarks
  unfold value?
  rcases hmarks with rfl | rfl | rfl
  · rw [enclosed?_append h]
    rfl
  · rw [enclosed?_of_ne (by decide), enclosed?_append h]
    rfl
  · rw [enclosed?_of_ne (by decide), enclosed?_of_ne (by decide), enclosed?_append h]
    rfl

theorem assigned?_append (hbefore : Blank before) (hafter : Blank after)
    (hhead : ∀ c ∈ cs.head?, Text.isBlank c = false) :
    assigned? (before ++ '=' :: (after ++ cs)) = value? cs := by
  have hsign : (before ++ '=' :: (after ++ cs)).dropWhile Text.isBlank = '=' :: (after ++ cs) :=
    hbefore.dropWhile_append (by rintro c ⟨⟩; decide)
  unfold assigned?
  rw [hsign]
  exact congrArg value? (hafter.dropWhile_append hhead)

/-- What is no word is passed over. -/
theorem nextFragment?_skip (h : ∀ c ∈ before, Text.isWordChar c = false) (gap cs : List Char)
    (fuel : Nat) : nextFragment? gap (before.length + fuel) (before ++ cs) =
      nextFragment? (gap ++ before) fuel cs := by
  induction before generalizing gap with
  | nil => rw [List.length_nil, Nat.zero_add, List.nil_append, List.append_nil]
  | cons c before ih =>
    rw [List.forall_mem_cons] at h
    rw [List.length_cons, Nat.add_right_comm, List.cons_append, nextFragment?,
      if_neg (by simp [h.1]), ih h.2, List.append_assoc, List.singleton_append]

theorem nextFragment?_word {word : List Char} (hword : ∀ c ∈ word, Text.isWordChar c = true)
    (hne : word ≠ []) (hend : ∀ c ∈ rest.head?, Text.isWordChar c = false)
    (hassigned : assigned? rest = some (value, after)) (gap : List Char) (fuel : Nat) :
    nextFragment? gap (fuel + 1) (word ++ rest) =
      some (⟨gap, String.ofList word, value⟩, after) := by
  obtain ⟨c, word, rfl⟩ := List.exists_cons_of_ne_nil hne
  rw [List.forall_mem_cons] at hword
  obtain ⟨htake, hdrop⟩ := Request.takeWhile_run hword.2 hend
  rw [List.cons_append, nextFragment?, if_pos hword.1]
  dsimp only
  rw [htake, hdrop, hassigned]

theorem nextFragment?_separators (h : ∀ c ∈ cs, isSeparator c = true) (gap : List Char)
    (fuel : Nat) : nextFragment? gap fuel cs = none := by
  induction cs generalizing gap fuel with
  | nil => cases fuel <;> rfl
  | cons c cs ih =>
    rw [List.forall_mem_cons] at h
    cases fuel with
    | zero => rfl
    | succ fuel =>
      rw [nextFragment?, if_neg (by simp [isWordChar_of_isSeparator h.1]), ih h.2]

theorem Part.isWordChar_key (p : Part) : ∀ c ∈ p.key.toList, Text.isWordChar c = true := by
  have hall : ["assign", "set", "context"].all (fun word => word.toList.all Text.isWordChar) =
      true := by decide +kernel
  refine List.all_eq_true.mp (List.all_eq_true.mp hall p.key ?_)
  cases p <;> simp [Part.key]

/-- A part is read as a fragment, behind whatever separators. -/
theorem fragments_part {p : Part} (hgap : ∀ c ∈ gap, isSeparator c = true)
    (hbefore : Blank before) (hafter : Blank after) (hclosing : p.marks.2 ∉ inside)
    (rest : List Char) (fuel : Nat) :
    fragments (fuel + 1)
        (gap ++ (p.key.toList ++ (before ++ '=' :: (after ++ (p.value inside ++ rest))))) =
      (⟨gap, p.key, p.value inside⟩ :: (fragments fuel rest).1, (fragments fuel rest).2) := by
  have hvalue : value? (p.value inside ++ rest) = some (p.value inside, rest) := by
    have hread := value?_append p.marks_mem hclosing rest
    simpa only [Part.value, List.cons_append, List.append_assoc, List.nil_append] using hread
  have hassigned : assigned? (before ++ '=' :: (after ++ (p.value inside ++ rest))) =
      some (p.value inside, rest) := by
    rw [assigned?_append hbefore hafter, hvalue]
    rintro c ⟨⟩
    exact (p.tight_value inside).head _ rfl
  have hend : ∀ c ∈ (before ++ '=' :: (after ++ (p.value inside ++ rest))).head?,
      Text.isWordChar c = false := by
    intro c hc
    cases before with
    | nil =>
      cases hc
      decide +kernel
    | cons d before =>
      obtain rfl : d = c := Option.some.inj hc
      exact isWordChar_of_isBlank (hbefore d List.mem_cons_self)
  have hne : p.key.toList ≠ [] := by cases p <;> simp [Part.key]
  generalize before ++ '=' :: (after ++ (p.value inside ++ rest)) = behind at hassigned hend
  have hlength : (gap ++ (p.key.toList ++ behind)).length + 1 =
      gap.length + ((p.key.toList ++ behind).length + 1) := by
    rw [List.length_append, Nat.add_assoc]
  rw [fragments, hlength, nextFragment?_skip (fun c hc => isWordChar_of_isSeparator (hgap c hc)),
    nextFragment?_word p.isWordChar_key hne hend hassigned, List.nil_append, String.ofList_toList]

theorem fragments_separators (h : ∀ c ∈ cs, isSeparator c = true) (fuel : Nat) :
    fragments fuel cs = ([], cs) := by
  cases fuel with
  | zero => rfl
  | succ fuel => rw [fragments, nextFragment?_separators h]

theorem checkGap_of_separators (h : ∀ c ∈ gap, isSeparator c = true) {least most : Nat}
    (hleast : least ≤ gap.count ',') (hmost : gap.count ',' ≤ most) :
    checkGap gap least most = .ok () := by
  have hnone : gap.dropWhile isSeparator = [] := List.dropWhile_eq_nil_iff.mpr h
  unfold checkGap
  rw [hnone]
  simp [hleast, hmost]

/-- What is written behind the equals sign of a part is read as what the part says. -/
def Part.Readable (p : Part) : Prop := ∀ inside, p.Inside inside →
  p.marks.2 ∉ inside ∧ ∀ (d : Descriptor) (gap : List Char),
    d.add ⟨gap, p.key, p.value inside⟩ = .ok (p.put d)

theorem addAll_cons {d more : Descriptor} {f : Fragment} {first : Bool} {n : Nat}
    (hgap : checkGap f.gap n n = .ok ()) (hcount : n = if first then 0 else 1)
    (hadd : d.add f = .ok more) (fs : List Fragment) :
    addAll d first (f :: fs) = addAll more false fs := by
  subst hcount
  rw [addAll]
  cases first with
  | true => simp only [if_true] at hgap ⊢; rw [hgap, hadd]; rfl
  | false => simp only [Bool.false_eq_true, if_false] at hgap ⊢; rw [hgap, hadd]; rfl

theorem Blank.count_comma (h : Blank cs) : cs.count ',' = 0 :=
  List.count_eq_zero.mpr (h.notMem (by decide))

/-- A part behind separators is a fragment, which says what the part says. There is one comma among
the separators, unless they stand at the front. -/
theorem Part.Spelled.exists_fragment {p : Part} (hcs : p.Spelled cs) (hread : p.Readable)
    (hlead : Blank before) (hgap : ∀ c ∈ gap, isSeparator c = true) : ∃ f : Fragment,
      (∀ rest fuel, fragments (fuel + 1) (gap ++ (before ++ (cs ++ rest))) =
        (f :: (fragments fuel rest).1, (fragments fuel rest).2)) ∧
      ∀ (d : Descriptor) (first : Bool), gap.count ',' = (if first then 0 else 1) →
        ∀ fs, addAll d first (f :: fs) = addAll (p.put d) false fs := by
  obtain @⟨front, back, inside, hfront, hback, hinside⟩ := hcs
  obtain ⟨hclosing, hadd⟩ := hread inside hinside
  have hall : ∀ c ∈ gap ++ before, isSeparator c = true := fun c hc =>
    (List.mem_append.mp hc).elim (hgap c) (hlead.separator c)
  refine ⟨⟨gap ++ before, p.key, p.value inside⟩, fun rest fuel => ?_, fun d first hcount fs => ?_⟩
  · have hpart := fragments_part (p := p) hall hfront hback hclosing rest fuel
    simpa only [List.append_assoc, List.cons_append] using hpart
  · have hcommas : (gap ++ before).count ',' = gap.count ',' := by
      rw [List.count_append, hlead.count_comma, Nat.add_zero]
    exact addAll_cons (checkGap_of_separators hall hcommas.ge hcommas.le) hcount (hadd d _) fs

/-- The parts of a body are read as fragments, which say what the parts say. -/
theorem exists_fragments {parts : List Part} {body : List Char}
    (hrow : Row Part.Spelled parts body) (hread : ∀ p ∈ parts, p.Readable) (hne : parts ≠ [])
    (hgap : ∀ c ∈ gap, isSeparator c = true) {fuel : Nat} (hfuel : parts.length ≤ fuel) :
    ∃ found tail, fragments fuel (gap ++ body) = (found, tail) ∧ Blank tail ∧
      ∀ (d : Descriptor) (first : Bool), gap.count ',' = (if first then 0 else 1) →
        addAll d first found = .ok (parts.foldl Part.put d) := by
  induction hrow generalizing gap fuel with
  | nil => exact absurd rfl hne
  | @last p before cs after hbefore hcs hafter =>
    obtain ⟨fuel, rfl⟩ := Nat.exists_eq_add_one_of_ne_zero
      (Nat.ne_of_gt (Nat.lt_of_lt_of_le (Nat.succ_pos _) hfuel))
    obtain ⟨f, hfragment, hadd⟩ := hcs.exists_fragment (hread p List.mem_cons_self) hbefore hgap
    rw [hfragment, fragments_separators hafter.separator]
    exact ⟨_, _, rfl, hafter, fun d first hcount => hadd d first hcount []⟩
  | @more p parts before cs after rest hbefore hcs hafter hrest _ ih =>
    obtain ⟨fuel, rfl⟩ := Nat.exists_eq_add_one_of_ne_zero
      (Nat.ne_of_gt (Nat.lt_of_lt_of_le (Nat.succ_pos _) hfuel))
    obtain ⟨f, hfragment, hadd⟩ := hcs.exists_fragment (hread p List.mem_cons_self) hbefore hgap
    have hcomma : ∀ c ∈ after ++ [','], isSeparator c = true := by
      intro c hc
      rcases List.mem_append.mp hc with hc | hc
      · exact hafter.separator c hc
      · rw [List.mem_singleton.mp hc]
        rfl
    obtain ⟨found, tail, hfound, htail, hadded⟩ := ih
      (fun q hq => hread q (List.mem_cons_of_mem p hq)) hrest hcomma (Nat.le_of_succ_le_succ hfuel)
    rw [List.append_assoc, List.singleton_append] at hfound
    rw [hfragment, hfound]
    refine ⟨_, _, rfl, htail, fun d first hcount => ?_⟩
    rw [hadd d first hcount, List.foldl_cons]
    exact hadded _ false (by rw [List.count_append, hafter.count_comma]; rfl)

/-! Descriptors -/

variable {d : Descriptor} {parts : List Part} {text : String}

/-- No value of a part holds the mark that closes it. -/
theorem Part.closing_notMem (hd : d.WellFormed) (hparts : d.Comprises parts)
    (hset : ∀ entry ∈ d.set, Settable entry) {p : Part} (hp : p ∈ parts) {inside : List Char}
    (hinside : p.Inside inside) : p.marks.2 ∉ inside := by
  cases hinside with
  | @assign names _ hrow =>
    obtain rfl := hparts.assign names hp
    change ']' ∉ inside
    refine hrow.notMem (by decide) (by decide) fun field hfield word hword hmem => ?_
    subst hword
    exact ((hd.fields field hfield).2.plain hmem).2 (by decide)
  | @set entries _ hrow =>
    have hperm := hparts.set entries hp
    change '\x7d' ∉ inside
    exact hrow.notMem (by decide) (by decide) fun e he part hpart =>
      hpart.notMem (hd.keys e (hperm.mem_iff.mp he)) (hset e (hperm.mem_iff.mp he)) (.inr rfl)
  | @context word hquote => exact hquote

theorem Part.readable (hd : d.WellFormed) (hparts : d.Comprises parts)
    (hset : ∀ entry ∈ d.set, Settable entry) {p : Part} (hp : p ∈ parts) : p.Readable := by
  refine fun inside hinside => ⟨p.closing_notMem hd hparts hset hp hinside, fun e gap => ?_⟩
  unfold add
  dsimp only
  rw [(p.tight_value inside).trimChars_eq]
  cases hinside with
  | @assign names _ hrow =>
    obtain rfl := hparts.assign names hp
    change (Descriptor.names ('[' :: (inside ++ [']'])) >>= _) = _
    rw [names_row hrow hd.fields]
    rfl
  | @set entries _ hrow =>
    have hperm := hparts.set entries hp
    change (Descriptor.entries ('\x7b' :: (inside ++ ['\x7d'])) >>= _) = _
    rw [entries_row hrow (fun e he => hd.keys e (hperm.mem_iff.mp he))
      fun e he => hset e (hperm.mem_iff.mp he)]
    rfl
  | @context word hquote =>
    change Except.ok
      { e with context := some (String.ofList (unquote ('"' :: (_ ++ ['"'])))) } = _
    rw [unquote_quoted, String.ofList_toList]
    rfl

section

variable {β : Type} {π : Descriptor → β} {key : String}

/-- What parts with other keys leave alone stays. -/
theorem foldl_put_of_ne (hother : ∀ (d : Descriptor) (p : Part), p.key ≠ key → π (p.put d) = π d)
    (h : ∀ p ∈ parts, p.key ≠ key) (d : Descriptor) :
    π (parts.foldl Part.put d) = π d := by
  induction parts generalizing d with
  | nil => rfl
  | cons p parts ih =>
    rw [List.forall_mem_cons] at h
    rw [List.foldl_cons, ih h.2, hother d p h.1]

/-- What the one part with a key says counts. -/
theorem foldl_put_of_mem (hother : ∀ (d : Descriptor) (p : Part), p.key ≠ key → π (p.put d) = π d)
    {p : Part} (hp : p ∈ parts) (hkey : p.key = key) (honce : (parts.map Part.key).Nodup) {x : β}
    (hput : ∀ d, π (p.put d) = x) (d : Descriptor) :
    π (parts.foldl Part.put d) = x := by
  induction parts generalizing d with
  | nil => cases hp
  | cons q parts ih =>
    rw [List.map_cons, List.nodup_cons] at honce
    rcases List.mem_cons.mp hp with rfl | hp
    · have hrest : ∀ q ∈ parts, q.key ≠ key := fun q hq heq =>
        honce.1 (List.mem_map.mpr ⟨q, hq, heq.trans hkey.symm⟩)
      rw [List.foldl_cons, foldl_put_of_ne hother hrest, hput]
    · exact ih hp honce.2 _

/-- Where the part with a key says what counts, and this counts already where there is no such part,
all parts together say it. -/
theorem foldl_put_eq (hother : ∀ (d : Descriptor) (p : Part), p.key ≠ key → π (p.put d) = π d)
    (honce : (parts.map Part.key).Nodup) {x : β} {d : Descriptor}
    (hsaid : ∀ p ∈ parts, p.key = key → ∀ d, π (p.put d) = x)
    (hunsaid : (∀ p ∈ parts, p.key ≠ key) → π d = x) : π (parts.foldl Part.put d) = x := by
  by_cases hsome : ∃ p ∈ parts, p.key = key
  · obtain ⟨p, hp, hkey⟩ := hsome
    exact foldl_put_of_mem hother hp hkey honce (hsaid p hp hkey) d
  · have hne : ∀ p ∈ parts, p.key ≠ key := fun p hp hkey => hsome ⟨p, hp, hkey⟩
    rw [foldl_put_of_ne hother hne, hunsaid hne]

end

theorem Part.name_put (d : Descriptor) (p : Part) : (p.put d).name = d.name := by
  cases p <;> rfl

theorem Part.assign_put (d : Descriptor) (p : Part) (h : p.key ≠ "assign") :
    (p.put d).assign = d.assign := by
  cases p with
  | assign => exact absurd rfl h
  | set => rfl
  | context => rfl

theorem Part.set_put (d : Descriptor) (p : Part) (h : p.key ≠ "set") : (p.put d).set = d.set := by
  cases p with
  | assign => rfl
  | set => exact absurd rfl h
  | context => rfl

theorem Part.context_put (d : Descriptor) (p : Part) (h : p.key ≠ "context") :
    (p.put d).context = d.context := by
  cases p with
  | assign => rfl
  | set => rfl
  | context => exact absurd rfl h

theorem Comprises.assign_foldl_put (h : d.Comprises parts) :
    (parts.foldl Part.put { name := d.name }).assign = d.assign := by
  refine foldl_put_eq Part.assign_put h.once (fun p hp hkey _ => ?_) fun hnone => ?_
  · cases p with
    | assign names => exact h.assign names hp
    | set | context => simp [Part.key] at hkey
  · by_contra hne
    exact hnone _ (h.assigned (Ne.symm hne)) rfl

theorem Comprises.set_foldl_put (h : d.Comprises parts) (hd : d.WellFormed) :
    (parts.foldl Part.put { name := d.name }).set = d.set := by
  refine foldl_put_eq Part.set_put h.once (fun p hp hkey _ => ?_) fun hnone => ?_
  · cases p with
    | set entries => exact Keyed.ofList_perm (h.set entries hp) hd.ordered
    | assign | context => simp [Part.key] at hkey
  · by_contra hne
    obtain ⟨entries, hentries⟩ := h.written (Ne.symm hne)
    exact hnone _ hentries rfl

theorem Comprises.context_foldl_put (h : d.Comprises parts) :
    (parts.foldl Part.put { name := d.name }).context = d.context := by
  refine foldl_put_eq Part.context_put h.once (fun p hp hkey _ => ?_) fun hnone => ?_
  · cases p with
    | context word => exact ((h.context word).mp hp).symm
    | assign | set => simp [Part.key] at hkey
  · cases hword : d.context with
    | none => rfl
    | some word => exact absurd rfl (hnone _ ((h.context word).mpr hword))

/-- The parts of a descriptor say what it is. -/
theorem Comprises.foldl_put (h : d.Comprises parts) (hd : d.WellFormed) :
    parts.foldl Part.put ({ name := d.name } : Descriptor) = d := by
  have hname : (parts.foldl Part.put { name := d.name }).name = d.name :=
    foldl_put_of_ne (fun d p (_ : p.key ≠ "") => p.name_put d)
      (fun p _ => by cases p <;> simp [Part.key]) _
  have hassign := h.assign_foldl_put
  have hset := h.set_foldl_put hd
  have hcontext := h.context_foldl_put
  generalize parts.foldl Part.put { name := d.name } = read at *
  obtain ⟨name, assign, set, context⟩ := d
  obtain ⟨_, _, _, _⟩ := read
  cases hname
  cases hassign
  cases hset
  cases hcontext
  rfl

theorem readBody_row {body : List Char} (hd : d.WellFormed) (hparts : d.Comprises parts)
    (hbody : Row Part.Spelled parts body) (hset : ∀ entry ∈ d.set, Settable entry) :
    readBody d.name.toList body = .ok d := by
  have hname : (d.name.toList.all fun c => Text.isAlphanumeric c || c = '_') = true := hd.name
  have hread : ∃ found tail, fragments body.length body = (found, tail) ∧
      addAll { name := d.name } true found = .ok d ∧ checkGap tail 0 1 = .ok () := by
    by_cases hne : parts = []
    · subst hne
      cases hbody with
      | nil hgap =>
        refine ⟨[], body, fragments_separators hgap.separator _, ?_,
          checkGap_of_separators hgap.separator (Nat.zero_le _) (by simp [hgap.count_comma])⟩
        exact congrArg Except.ok (hparts.foldl_put hd)
    · have hfuel := hbody.length_le fun p cs hcs => by
        cases hcs
        cases p <;> simp [Part.key]
      obtain ⟨found, tail, hfragments, htail, hadd⟩ := exists_fragments hbody
        (fun p hp => Part.readable hd hparts hset hp) hne Blank.nil.separator hfuel
      refine ⟨found, tail, hfragments, ?_,
        checkGap_of_separators htail.separator (Nat.zero_le _) (by simp [htail.count_comma])⟩
      rw [hadd _ true rfl, hparts.foldl_put hd]
  obtain ⟨found, tail, hfragments, hadd, htail⟩ := hread
  unfold readBody
  rw [hname, hfragments, String.ofList_toList]
  dsimp only
  rw [hadd]
  change (checkGap tail 0 1 >>= fun _ => Except.ok d) = _
  rw [htail]
  rfl

theorem colon_notMem_name (hname : IsName d.name) (hbefore : Blank before) (hafter : Blank after) :
    ':' ∉ before ++ (d.name.toList ++ after) := by
  have hcolon : ':' ∉ d.name.toList := fun hmem => (hname.plain hmem).2 (by decide)
  have hblank : Text.isBlank ':' = false := by decide
  simp [hbefore.notMem hblank, hafter.notMem hblank, hcolon]

theorem nameAndBody_append (hname : IsName d.name) (hbefore : Blank before) (hafter : Blank after)
    (body : List Char) :
    nameAndBody (before ++ (d.name.toList ++ (after ++ ':' :: body))) = (d.name.toList, body) := by
  have hcut : before ++ (d.name.toList ++ (after ++ ':' :: body)) =
      (before ++ (d.name.toList ++ after)) ++ ':' :: body := by simp only [List.append_assoc]
  rw [nameAndBody, hcut, splitOnce?_append (colon_notMem_name hname hbefore hafter)]
  dsimp only
  rw [trimChars_between hbefore hname.tight hafter]

theorem nameAndBody_bare (hname : IsName d.name) (hbefore : Blank before) (hafter : Blank after) :
    nameAndBody (before ++ (d.name.toList ++ after)) = (d.name.toList, []) := by
  have hcolon := colon_notMem_name hname hbefore hafter
  have hnone : splitOnce? ':' (before ++ (d.name.toList ++ after)) = none := by
    cases hsplit : splitOnce? ':' (before ++ (d.name.toList ++ after)) with
    | none => rfl
    | some parts =>
      rw [(eq_of_splitOnce? hsplit).2] at hcolon
      exact absurd (by simp) hcolon
  rw [nameAndBody, hnone]
  dsimp only
  rw [trimChars_between hbefore hname.tight hafter]

theorem ofText_of_renders (hd : d.WellFormed) (h : d.Renders text)
    (hset : ∀ entry ∈ d.set, Settable entry) : ofText text = .ok d := by
  have hname : d.name.toList.isEmpty = false := by
    rw [List.isEmpty_eq_false_iff]
    exact fun hnil => hd.nonempty (String.toList_eq_nil_iff.mp hnil)
  have hread : ∃ body, nameAndBody text.toList = (d.name.toList, body) ∧
      readBody d.name.toList body = .ok d := by
    cases h with
    | @full parts before after body hparts hbefore hafter hbody htext =>
      exact ⟨body, htext ▸ nameAndBody_append hd.name hbefore hafter body,
        readBody_row hd hparts hbody hset⟩
    | @bare before after hparts hbefore hafter htext =>
      exact ⟨[], htext ▸ nameAndBody_bare hd.name hbefore hafter,
        readBody_row hd hparts (.nil .nil) hset⟩
  obtain ⟨body, hcut, hread⟩ := hread
  unfold ofText
  rw [hcut]
  dsimp only
  rw [hname, hread]
  rfl

/-! Every text -/

theorem inner?_subset {opening closing : Char} {body : List Char}
    (h : inner? opening closing cs = some body) : body ⊆ cs := fun c hc => by
  rw [eq_of_inner? h]
  exact List.mem_cons_of_mem _ (List.mem_append_left _ hc)

theorem unquote_subset (cs : List Char) : unquote cs ⊆ cs := by
  unfold unquote
  cases hdouble : inner? '"' '"' cs with
  | some body => exact inner?_subset hdouble
  | none =>
    cases hsingle : inner? '\'' '\'' cs with
    | some body => exact inner?_subset hsingle
    | none => exact List.Subset.refl _

/-- The text that a value is read as is part of what it is read from. -/
theorem toList_subset_of_valueOf {s : String} (h : valueOf cs = .str s) : s.toList ⊆ cs := by
  unfold valueOf at h
  split at h
  · cases h
  · split at h
    · cases h
    · split at h
      · cases h
      · split at h
        · cases h
        · cases h
          rw [String.toList_ofList]
          exact unquote_subset cs

theorem settable_of_entry {found : String × Json} (h : entry cs = .ok found) (hcomma : ',' ∉ cs)
    (hbrace : '\x7d' ∉ cs) : Settable found := by
  unfold entry at h
  split at h
  · cases h
  · rename_i key value hsplit
    dsimp only at h
    split at h
    · cases h
    · rename_i hkey
      cases h
      refine ⟨fun hnil => hkey (List.isEmpty_iff.mpr (String.ofList_eq_empty_iff.mp hnil)),
        fun s hs => ?_⟩
      have hvalue : s.toList ⊆ cs := fun c hc => by
        rw [(eq_of_splitOnce? hsplit).2]
        exact List.mem_append_right _
          (List.mem_cons_of_mem _ (trimChars_subset _ (toList_subset_of_valueOf hs hc)))
      exact ⟨fun hmem => hcomma (hvalue hmem), fun hmem => hbrace (hvalue hmem)⟩

theorem settable_of_entries {raw : List Char} {set : Keyed Json} (hclosed : ClosesOnce raw)
    (h : entries raw = .ok set) : ∀ entry ∈ set, Settable entry := by
  unfold entries at h
  split at h
  · cases h
  · rename_i body hbody
    obtain ⟨found, hfound, h⟩ := Except.exists_of_bind_eq_ok h
    cases h
    have hall : ∀ entry ∈ found, Settable entry := by
      refine Except.forall_of_mapM_eq_ok (fun part hpart entry hentry => ?_) hfound
      obtain ⟨piece, hpiece, rfl⟩ := List.mem_map.mp (List.mem_filter.mp hpart).1
      refine settable_of_entry hentry (fun hcomma => ?_) fun hbrace => ?_
      · exact Text.notMem_of_mem_splitChars hpiece (trimChars_subset _ hcomma)
      · exact hclosed body hbody
          (Text.subset_of_mem_splitChars hpiece (trimChars_subset _ hbrace))
    exact fun entry hentry => hall entry ((Keyed.mem_union hentry).resolve_left List.not_mem_nil)

/-- No text is read as a descriptor that sets a text with a comma or a closing brace. -/
theorem settable_of_ofText (h : ofText text = .ok d) : ∀ entry ∈ d.set, Settable entry :=
  set_of_ofText settable_of_entries (fun _ hmem => absurd hmem List.not_mem_nil) h

/-- The text of a descriptor is read as that descriptor exactly where maps can hold its set values.
A text in quotes stands for itself, also where it is spelled as a flag or a number. -/
theorem ofText_eq_ok_iff_settable (hd : d.WellFormed) (h : d.Renders text) :
    (ofText text = .ok d ↔ ∀ entry ∈ d.set, Settable entry) ∧
      ∀ s : String, valueOf ('"' :: (s.toList ++ ['"'])) = .str s := by
  refine ⟨⟨settable_of_ofText, ofText_of_renders hd h⟩, fun s => ?_⟩
  rw [valueOf_quoted, String.ofList_toList]

/-- A promotion with the parts in another order, a quoted text that is spelled as a flag, and
blanks. -/
theorem ofText_eq_ok_iff_settable_promotion :
    let set := [("activo", .bool true), ("nivel", .int (-2)), ("nota", .str "true")]
    let d := { name := "promote", assign := ["cargo", "salario"], set, context := some "modify" }
    let text := "promote : set =\x7bnota: \"true\", activo: true,nivel :-2 \x7d, " ++
      "context = \"modify\",assign = [cargo, salario]"
    WellFormed d ∧ d.Renders text ∧ ofText text = .ok d := by
  intro set d text
  have hd : d.WellFormed :=
    { nonempty := by decide
      name := by decide +kernel
      fields := by decide +kernel
      ordered := by unfold Keyed.Ascending; decide +kernel
      keys := by decide +kernel }
  have hone : Blank [' '] := by decide
  have hnumber := Number.signed?_eq_some_iff.mp (by decide : Number.signed? ['-', '2'] = some (-2))
  have hnote : EntrySpelled ("nota", .str "true") _ := .intro .nil hone (.text (by decide))
  have hactive : EntrySpelled ("activo", .bool true) _ := .intro .nil hone (.flag true)
  have hlevel : EntrySpelled ("nivel", .int (-2)) _ :=
    .intro hone .nil (.integer hnumber.1 hnumber.2.1 hnumber.2.2)
  have hset : Part.Spelled (.set [("nota", .str "true"), ("activo", .bool true),
      ("nivel", .int (-2))]) _ := .intro hone .nil (.set (.more .nil hnote .nil (by simp)
        (.more hone hactive .nil (by simp) (.last .nil hlevel hone))))
  have hcontext : Part.Spelled (.context "modify") _ := .intro hone hone (.context (by decide))
  have hassign : Part.Spelled (.assign ["cargo", "salario"]) _ :=
    .intro hone hone (.assign (.more .nil rfl .nil (by simp) (.last hone rfl .nil)))
  have hbody := Row.more hone hset .nil (by simp)
    (.more hone hcontext .nil (by simp) (.last .nil hassign .nil))
  have hparts : d.Comprises [.set [("nota", .str "true"), ("activo", .bool true),
      ("nivel", .int (-2))], .context "modify", .assign ["cargo", "salario"]] :=
    { once := by decide
      assign := by simp [d]
      assigned := by simp [d]
      set := by
        simp only [List.mem_cons, Part.set.injEq, reduceCtorEq, List.not_mem_nil, or_false,
          forall_eq]
        decide
      written := by simp
      context := by simp [d, eq_comm] }
  have hrenders : d.Renders text := .full hparts .nil hone hbody (by decide +kernel)
  refine ⟨hd, hrenders, (ofText_eq_ok_iff_settable hd hrenders).1.mpr ?_⟩
  simp [d, set, Settable]

section

/-- A promotion that sets a note. -/
private def noted (note : String) : Descriptor :=
  { name := "promote", set := [("nota", .str note)] }

private theorem wellFormed_noted (note : String) : (noted note).WellFormed where
  nonempty := by simp [noted]
  name := by change IsName "promote"; decide +kernel
  fields := by simp [noted]
  ordered := List.pairwise_singleton _ _
  keys := by
    have hkey : IsName "nota" := by decide +kernel
    simpa [noted] using hkey

private theorem renders_noted {note : String} (h : '"' ∉ note.toList) :
    (noted note).Renders ("promote: set = \x7bnota: \"" ++ note ++ "\"\x7d") := by
  have hone : Blank [' '] := by decide
  have hentry : EntrySpelled ("nota", .str note) _ := .intro .nil hone (.text h)
  have hset : Part.Spelled (.set [("nota", .str note)]) _ :=
    .intro hone hone (.set (.last .nil hentry .nil))
  have hparts : (noted note).Comprises [.set [("nota", .str note)]] :=
    { once := by simp
      assign := by simp
      assigned := by simp [noted]
      set := by simp [noted]
      written := by simp
      context := by simp [noted] }
  refine .full hparts .nil .nil (.last hone hset .nil) ?_
  simp [noted, Part.key, Part.value, Part.marks]

/-- Quotes do not hold a text with a comma together: it is cut there, and what stands behind the
comma is refused, or becomes an entry of its own, even a number. -/
theorem exists_note_cut :
    (∃ note text, (noted note).WellFormed ∧ (noted note).Renders text ∧
      ofText text = .error (.malformed text (.entryWithoutColon "lead\""))) ∧
    ∃ note text, (noted note).WellFormed ∧ (noted note).Renders text ∧ ofText text =
      .ok { name := "promote",
            set := [("b", .int 5), ("c", .str "q\""), ("nota", .str "\"p")] } := by
  exact ⟨⟨"senior, lead", _, wellFormed_noted _, renders_noted (by decide), by cbv⟩,
    "p, b: 5, c: q", _, wellFormed_noted _, renders_noted (by decide), by cbv⟩

end

end Descriptor

end DocumentEngine
