import DocumentEngine.Json.Printer
import DocumentEngine.Proofs.Json.Numeral
import DocumentEngine.Proofs.Keyed
import Mathlib.Data.List.DropRight

/-!
Printed values are read as they were written: strings character by character, numbers as the
numerals that their texts spell, and containers part by part, over however many lines.
-/

namespace DocumentEngine

namespace Json

open Written (Piece readPieces joinPieces readString readValue readItems readMembers skipSpace)

/-- A value whose numbers all fit their kinds. -/
inductive InRange : Json → Prop where
  | null : InRange .null
  | bool (b : Bool) : InRange (.bool b)
  | num {n : Number} (h : n.InRange) : InRange (.num n)
  | str (s : String) : InRange (.str s)
  | arr {items : List Json} (h : ∀ v ∈ items, InRange v) : InRange (.arr items)
  | obj {members : List (String × Json)} (h : ∀ entry ∈ members, InRange entry.2) :
    InRange (.obj members)

/-- An object of values whose numbers fit. -/
theorem InRange.object {members : List (String × Json)} (h : ∀ entry ∈ members, entry.2.InRange) :
    (Json.object members).InRange :=
  .obj fun entry hentry => h entry ((Keyed.mem_union hentry).resolve_left List.not_mem_nil)

variable {rest : List Char} {fuel : Nat}

attribute [local simp] readPieces readValue readItems readMembers prettyAt prettyItems prettyMembers

theorem hexQuad?_hexDigit : ∀ n < 32,
    Written.hexQuad? '0' '0' (hexDigit (n / 16)) (hexDigit (n % 16)) = some n := by
  decide

theorem readPieces_escape {e c : Char} (h : Written.simpleEscape? e = some c) (rest : List Char) :
    readPieces ('\\' :: e :: rest) =
      (readPieces rest).map fun read => (.char c :: read.1, read.2) := by
  rw [readPieces]
  · rw [h]
    cases readPieces rest <;> rfl
  · rintro _ _ _ _ _ rfl
    cases h

theorem readPieces_control {c : Char} (h : c.toNat < 0x20) (rest : List Char) :
    readPieces ('\\' :: 'u' :: '0' :: '0' :: hexDigit (c.toNat / 16) :: hexDigit (c.toNat % 16) ::
      rest) = (readPieces rest).map fun read => (.char c :: read.1, read.2) := by
  have hquad := hexQuad?_hexDigit c.toNat h
  have hplain : ¬(0xD800 ≤ c.toNat ∧ c.toNat ≤ 0xDFFF) := by omega
  cases hread : readPieces rest <;> simp [hquad, hplain, hread]

theorem readPieces_plain {c : Char} (hquote : c ≠ '"') (hbackslash : c ≠ '\\')
    (h : ¬c.toNat < 0x20) (rest : List Char) :
    readPieces (c :: rest) =
      (readPieces rest).map fun read => (.char c :: read.1, read.2) := by
  rw [readPieces]
  · have hallowed : ¬(decide (c.toNat < 0x20) || decide (c = '\\')) = true := by simp [h, hbackslash]
    rw [if_neg hallowed]
    cases readPieces rest <;> rfl
  · exact hquote
  · exact fun _ _ _ _ _ hc => absurd hc hbackslash
  · exact fun _ _ hc => absurd hc hbackslash

/-- A character is read from the way it stands inside quotes. -/
theorem readPieces_escapeChar (c : Char) (rest : List Char) :
    readPieces (escapeChar c ++ rest) =
      (readPieces rest).map fun read => (.char c :: read.1, read.2) := by
  unfold escapeChar
  split
  case h_8 hquote hbackslash _ _ _ _ _ =>
    split
    · exact readPieces_control ‹_› rest
    · exact readPieces_plain hquote hbackslash ‹_› rest
  all_goals exact readPieces_escape rfl rest

theorem readPieces_quoted (cs rest : List Char) :
    readPieces (cs.flatMap escapeChar ++ '"' :: rest) = some (cs.map .char, rest) := by
  induction cs with
  | nil => rw [List.flatMap_nil, List.nil_append, readPieces, List.map_nil]
  | cons c cs ih =>
    rw [List.flatMap_cons, List.append_assoc, readPieces_escapeChar, ih]
    rfl

theorem joinPieces_chars (cs : List Char) : joinPieces (cs.map .char) = some cs := by
  induction cs with
  | nil => rw [List.map_nil, joinPieces]
  | cons c cs ih =>
    rw [List.map_cons, joinPieces, ih]
    rfl

theorem toList_quoted (s : String) :
    (quoted s).toList = '"' :: (s.toList.flatMap escapeChar ++ ['"']) := String.toList_ofList

/-- A string is read from its quotes. -/
theorem readString_quoted (s : String) (rest : List Char) :
    readString (s.toList.flatMap escapeChar ++ '"' :: rest) = some (some s, rest) := by
  rw [readString, readPieces_quoted]
  dsimp only [bind, Option.bind]
  rw [joinPieces_chars]
  simp

theorem skipSpace_newline (depth : Nat) (cs : List Char) :
    skipSpace ((newline depth).toList ++ cs) = skipSpace cs := by
  have hblank : ∀ c ∈ (newline depth).toList, Written.isSpace c = true := by
    intro c hc
    rw [newline, String.toList_ofList] at hc
    rcases List.mem_cons.mp hc with rfl | hc
    · decide
    · rw [List.eq_of_mem_replicate hc]
      decide
  exact List.dropWhile_append_of_pos hblank

theorem skipSpace_cons {c : Char} (h : Written.isSpace c = false) (cs : List Char) :
    skipSpace (c :: cs) = c :: cs := by
  simp [skipSpace, h]

theorem skipSpace_skipSpace (cs : List Char) : skipSpace (skipSpace cs) = skipSpace cs :=
  List.dropWhile_idempotent _ cs

variable {cs ds : List Char}

/-- Blanks before a value, before items and before members do not matter. -/
theorem readValue_congr (h : skipSpace cs = skipSpace ds) (fuel : Nat) :
    readValue fuel cs = readValue fuel ds := by
  cases fuel with
  | zero => rfl
  | succ fuel => rw [readValue, readValue, h]

theorem readItems_congr (h : skipSpace cs = skipSpace ds) (fuel : Nat) :
    readItems fuel cs = readItems fuel ds := by
  cases fuel with
  | zero => rfl
  | succ fuel => rw [readItems, readItems, readValue_congr h]

theorem readMembers_congr (h : skipSpace cs = skipSpace ds) (fuel : Nat) :
    readMembers fuel cs = readMembers fuel ds := by
  cases fuel with
  | zero => rfl
  | succ fuel => rw [readMembers, readMembers, h]

/-- A value is read from its text at any depth, with fuel for each character. -/
def Reads (v : Json) : Prop :=
  ∀ depth fuel rest, 2 * (prettyAt depth v).toList.length ≤ fuel → Ended rest →
    readValue fuel ((prettyAt depth v).toList ++ rest) = some (v.written, rest)

theorem exists_fuel {n fuel : Nat} (h : 2 * n ≤ fuel) (hn : 0 < n) : ∃ left, fuel = left + 1 :=
  Nat.exists_eq_add_one_of_ne_zero (by omega)

theorem readValue_numeral {c : Char} (h : c.isDigit = true ∨ c = '-') (fuel : Nat)
    (cs : List Char) :
    readValue (fuel + 1) (c :: cs) =
      (Written.readNumeral (c :: cs)).map fun read => (.num read.1, read.2) := by
  have hspace : Written.isSpace c = false := by
    rcases h with h | rfl
    · have hblank : ∀ d, Char.isDigit d = false → c ≠ d := by
        rintro d hd rfl
        rw [hd] at h
        cases h
      simp [Written.isSpace, hblank ' ' rfl, hblank '\n' rfl, hblank '\t' rfl, hblank '\r' rfl]
    · decide
  have hne : ∀ d, Char.isDigit d = false → d ≠ '-' → c ≠ d := by
    rintro d hd hminus rfl
    rcases h with h | h
    · rw [hd] at h
      cases h
    · exact hminus h
  rw [readValue, skipSpace_cons hspace]
  split
  case h_7 => cases Written.readNumeral (c :: cs) <;> rfl
  all_goals
    rename_i heq
    exact absurd (List.cons.inj heq).1 (hne _ rfl (by decide))

theorem reads_num {n : Number} (h : n.InRange) : Reads (.num n) := by
  intro depth fuel rest hfuel hrest
  have hspells := spells_ofNumber h
  have hread := readNumeral_number h hrest
  rw [prettyAt] at hfuel ⊢
  obtain ⟨c, cs, hcs, hc⟩ : ∃ c cs, n.text.toList = c :: cs ∧ (c.isDigit = true ∨ c = '-') := by
    rw [hspells.text, Numeral.text]
    cases hwhole : (Numeral.ofNumber n).whole with
    | nil => exact absurd hwhole hspells.proper.nonempty
    | cons c cs =>
      cases (Numeral.ofNumber n).negative with
      | true => exact ⟨'-', _, rfl, .inr rfl⟩
      | false => exact ⟨c, _, rfl, .inl (hspells.proper.whole c (hwhole ▸ List.mem_cons_self))⟩
  rw [hcs] at hfuel hread ⊢
  obtain ⟨fuel, rfl⟩ := exists_fuel hfuel (Nat.succ_pos _)
  rw [List.cons_append] at hread ⊢
  rw [readValue_numeral hc, hread]
  rfl

theorem readValue_quote (fuel : Nat) (cs : List Char) :
    readValue (fuel + 1) ('"' :: cs) = (readString cs).map fun read => (.str read.1, read.2) := by
  rw [readValue, skipSpace_cons (by decide)]
  cases h : readString cs <;> simp [h]

theorem reads_str (s : String) : Reads (.str s) := by
  intro depth fuel rest hfuel _
  rw [prettyAt, toList_quoted] at hfuel ⊢
  obtain ⟨fuel, rfl⟩ := exists_fuel hfuel (Nat.succ_pos _)
  rw [List.cons_append, List.append_assoc, List.singleton_append, readValue_quote,
    readString_quoted]
  rfl

theorem readItems_last {behind tail : List Char} {w : Written}
    (hv : readValue fuel cs = some (w, behind)) (hend : skipSpace behind = ']' :: tail) :
    readItems (fuel + 1) cs = some ([w], tail) := by
  simp [hv, hend]

theorem readItems_more {behind more tail : List Char} {w : Written} {ws : List Written}
    (hv : readValue fuel cs = some (w, behind)) (hcomma : skipSpace behind = ',' :: more)
    (hws : readItems fuel more = some (ws, tail)) :
    readItems (fuel + 1) cs = some (w :: ws, tail) := by
  simp [hv, hcomma, hws]

theorem readMembers_last {behind tail : List Char} (k : String) {w : Written}
    (hv : readValue fuel cs = some (w, behind)) (hend : skipSpace behind = '\x7d' :: tail) :
    readMembers (fuel + 1) ((quoted k).toList ++ (':' :: ' ' :: cs)) =
      some ([(some k, w)], tail) := by
  have hcolon : skipSpace (':' :: ' ' :: cs) = ':' :: ' ' :: cs := rfl
  have hblank : readValue fuel (' ' :: cs) = some (w, behind) :=
    (readValue_congr (by rfl) fuel).trans hv
  rw [toList_quoted, List.cons_append, List.append_assoc, List.singleton_append, readMembers,
    skipSpace_cons (by decide)]
  simp [readString_quoted, hcolon, hblank, hend]

theorem readMembers_more {behind more tail : List Char} (k : String) {w : Written}
    {ws : List (Option String × Written)} (hv : readValue fuel cs = some (w, behind))
    (hcomma : skipSpace behind = ',' :: more) (hws : readMembers fuel more = some (ws, tail)) :
    readMembers (fuel + 1) ((quoted k).toList ++ (':' :: ' ' :: cs)) =
      some ((some k, w) :: ws, tail) := by
  have hcolon : skipSpace (':' :: ' ' :: cs) = ':' :: ' ' :: cs := rfl
  have hblank : readValue fuel (' ' :: cs) = some (w, behind) :=
    (readValue_congr (by rfl) fuel).trans hv
  rw [toList_quoted, List.cons_append, List.append_assoc, List.singleton_append, readMembers,
    skipSpace_cons (by decide)]
  simp [readString_quoted, hcolon, hblank, hcomma, hws]

theorem ended_newline (depth : Nat) (cs : List Char) : Ended ((newline depth).toList ++ cs) := by
  rw [newline, String.toList_ofList]
  intro c hc
  cases hc
  exact .inr rfl

theorem ended_comma (cs : List Char) : Ended (',' :: cs) := by
  intro c hc
  cases hc
  exact .inl rfl

theorem toList_prettyItems_cons (depth : Nat) (v : Json) (vs : List Json) :
    (prettyItems depth (v :: vs)).toList =
      ',' :: ((newline depth).toList ++ ((prettyAt depth v).toList ++
        (prettyItems depth vs).toList)) := by
  have hcomma : ",".toList = [','] := rfl
  simp [hcomma]

/-- Items are read up to the closing bracket, where each of them is read. -/
theorem readItems_pretty (v : Json) (vs : List Json) (h : ∀ w ∈ v :: vs, Reads w)
    (depth outer fuel : Nat) (rest : List Char)
    (hfuel : 2 * ((prettyAt depth v).toList.length + (prettyItems depth vs).toList.length) < fuel) :
    readItems fuel ((prettyAt depth v).toList ++ ((prettyItems depth vs).toList ++
      ((newline outer).toList ++ ']' :: rest))) = some (writtenItems (v :: vs), rest) := by
  induction vs generalizing v fuel with
  | nil =>
    obtain ⟨fuel, rfl⟩ := Nat.exists_eq_add_one_of_ne_zero (n := fuel) (by omega)
    have hv := h v List.mem_cons_self depth fuel ((newline outer).toList ++ ']' :: rest) (by omega)
      (ended_newline outer _)
    rw [prettyItems, String.toList_empty, List.nil_append]
    refine readItems_last hv ?_
    rw [skipSpace_newline, skipSpace_cons (by decide)]
  | cons w ws ih =>
    obtain ⟨fuel, rfl⟩ := Nat.exists_eq_add_one_of_ne_zero (n := fuel) (by omega)
    rw [toList_prettyItems_cons] at hfuel ⊢
    simp only [List.length_cons, List.length_append] at hfuel
    have hws := ih w (fun x hx => h x (List.mem_cons_of_mem v hx)) fuel (by omega)
    have hv := fun cs => h v List.mem_cons_self depth fuel (',' :: cs) (by omega) (ended_comma cs)
    rw [List.cons_append, List.append_assoc, List.append_assoc]
    refine readItems_more (hv _) (skipSpace_cons (by decide) _) ?_
    rw [readItems_congr (skipSpace_newline depth _), hws]

theorem toList_prettyMembers_cons (depth : Nat) (k : String) (v : Json)
    (ms : List (String × Json)) :
    (prettyMembers depth ((k, v) :: ms)).toList =
      ',' :: ((newline depth).toList ++ ((quoted k).toList ++ (':' :: ' ' ::
        ((prettyAt depth v).toList ++ (prettyMembers depth ms).toList)))) := by
  have hcomma : ",".toList = [','] := rfl
  have hcolon : ": ".toList = [':', ' '] := rfl
  simp [hcomma, hcolon]

/-- Members are read up to the closing brace, where the value of each of them is read. -/
theorem readMembers_pretty (k : String) (v : Json) (ms : List (String × Json))
    (h : ∀ entry ∈ (k, v) :: ms, Reads entry.2) (depth outer fuel : Nat) (rest : List Char)
    (hfuel : 2 * ((prettyAt depth v).toList.length + (prettyMembers depth ms).toList.length) < fuel) :
    readMembers fuel ((quoted k).toList ++ (':' :: ' ' :: ((prettyAt depth v).toList ++
      ((prettyMembers depth ms).toList ++ ((newline outer).toList ++ '\x7d' :: rest))))) =
        some (writtenMembers ((k, v) :: ms), rest) := by
  induction ms generalizing k v fuel with
  | nil =>
    obtain ⟨fuel, rfl⟩ := Nat.exists_eq_add_one_of_ne_zero (n := fuel) (by omega)
    have hv := h (k, v) List.mem_cons_self depth fuel ((newline outer).toList ++ '\x7d' :: rest)
      (by dsimp only; omega) (ended_newline outer _)
    rw [prettyMembers, String.toList_empty, List.nil_append]
    refine readMembers_last k hv ?_
    rw [skipSpace_newline, skipSpace_cons (by decide)]
  | cons m ms ih =>
    obtain ⟨l, w⟩ := m
    obtain ⟨fuel, rfl⟩ := Nat.exists_eq_add_one_of_ne_zero (n := fuel) (by omega)
    rw [toList_prettyMembers_cons] at hfuel ⊢
    simp only [List.length_cons, List.length_append] at hfuel
    have hws := ih l w (fun x hx => h x (List.mem_cons_of_mem _ hx)) fuel (by omega)
    have hv := fun cs => h (k, v) List.mem_cons_self depth fuel (',' :: cs)
      (by dsimp only; omega) (ended_comma cs)
    simp only [List.cons_append, List.append_assoc]
    refine readMembers_more k (hv _) (skipSpace_cons (by decide) _) ?_
    rw [readMembers_congr (skipSpace_newline depth _), hws]

theorem readValue_closing {tail : List Char} (h : skipSpace cs = ']' :: tail) (fuel : Nat) :
    readValue fuel cs = none := by
  cases fuel with
  | zero => rfl
  | succ fuel =>
    rw [readValue, h]
    rfl

theorem readValue_items {behind : List Char} {ws : List Written}
    (h : readItems fuel cs = some (ws, behind)) :
    readValue (fuel + 1) ('[' :: cs) = some (.arr ws, behind) := by
  have hskip := readItems_congr (skipSpace_skipSpace cs) fuel
  have hopen : ∀ tail, skipSpace cs ≠ ']' :: tail := by
    intro tail hclosing
    cases fuel with
    | zero => cases h
    | succ fuel =>
      rw [readItems, readValue_closing hclosing] at h
      cases h
  rw [readValue, skipSpace_cons (by decide)]
  simp only
  rw [hskip, h]
  rfl

theorem readValue_members {behind : List Char} {ws : List (Option String × Written)}
    (h : readMembers fuel cs = some (ws, behind)) :
    readValue (fuel + 1) ('\x7b' :: cs) = some (.obj ws, behind) := by
  have hskip := readMembers_congr (skipSpace_skipSpace cs) fuel
  have hopen : ∀ tail, skipSpace cs ≠ '\x7d' :: tail := by
    intro tail hclosing
    cases fuel with
    | zero => cases h
    | succ fuel =>
      rw [readMembers, hclosing] at h
      simp at h
  rw [readValue, skipSpace_cons (by decide)]
  simp only
  rw [hskip, h]
  rfl

theorem toList_prettyAt_arr (depth : Nat) (v : Json) (vs : List Json) :
    (prettyAt depth (.arr (v :: vs))).toList =
      '[' :: ((newline (depth + 1)).toList ++ ((prettyAt (depth + 1) v).toList ++
        ((prettyItems (depth + 1) vs).toList ++ ((newline depth).toList ++ [']'])))) := by
  have hopening : "[".toList = ['['] := rfl
  have hclosing : "]".toList = [']'] := rfl
  simp [hopening, hclosing]

theorem toList_prettyAt_obj (depth : Nat) (k : String) (v : Json) (ms : List (String × Json)) :
    (prettyAt depth (.obj ((k, v) :: ms))).toList =
      '\x7b' :: ((newline (depth + 1)).toList ++ ((quoted k).toList ++
        (':' :: ' ' :: ((prettyAt (depth + 1) v).toList ++
          ((prettyMembers (depth + 1) ms).toList ++ ((newline depth).toList ++ ['\x7d'])))))) := by
  have hopening : "\x7b".toList = ['\x7b'] := rfl
  have hclosing : "\x7d".toList = ['\x7d'] := rfl
  have hcolon : ": ".toList = [':', ' '] := rfl
  simp [hopening, hclosing, hcolon]

theorem reads_arr {items : List Json} (h : ∀ v ∈ items, Reads v) : Reads (.arr items) := by
  intro depth fuel rest hfuel _
  cases items with
  | nil =>
    rw [prettyAt] at hfuel ⊢
    obtain ⟨fuel, rfl⟩ := exists_fuel hfuel (by decide)
    rfl
  | cons v vs =>
    rw [toList_prettyAt_arr] at hfuel ⊢
    simp only [List.length_cons, List.length_append] at hfuel
    obtain ⟨fuel, rfl⟩ := Nat.exists_eq_add_one_of_ne_zero (n := fuel) (by omega)
    simp only [List.cons_append, List.append_assoc, List.nil_append]
    refine readValue_items ?_
    rw [readItems_congr (skipSpace_newline _ _)]
    exact readItems_pretty v vs h (depth + 1) depth fuel rest (by omega)

theorem reads_obj {members : List (String × Json)} (h : ∀ entry ∈ members, Reads entry.2) :
    Reads (.obj members) := by
  intro depth fuel rest hfuel _
  cases members with
  | nil =>
    rw [prettyAt] at hfuel ⊢
    obtain ⟨fuel, rfl⟩ := exists_fuel hfuel (by decide)
    rfl
  | cons m ms =>
    obtain ⟨k, v⟩ := m
    rw [toList_prettyAt_obj] at hfuel ⊢
    simp only [List.length_cons, List.length_append] at hfuel
    obtain ⟨fuel, rfl⟩ := Nat.exists_eq_add_one_of_ne_zero (n := fuel) (by omega)
    simp only [List.cons_append, List.append_assoc, List.nil_append]
    refine readValue_members ?_
    rw [readMembers_congr (skipSpace_newline _ _)]
    exact readMembers_pretty k v ms h (depth + 1) depth fuel rest (by omega)

/-- Every value whose numbers fit their kinds is read from its text. -/
theorem InRange.reads {v : Json} (h : v.InRange) : Reads v := by
  induction h with
  | null =>
    intro depth fuel rest hfuel _
    rw [prettyAt] at hfuel ⊢
    obtain ⟨fuel, rfl⟩ := exists_fuel hfuel (by decide)
    rfl
  | bool b =>
    intro depth fuel rest hfuel _
    rw [prettyAt] at hfuel ⊢
    cases b <;>
    · obtain ⟨fuel, rfl⟩ := exists_fuel hfuel (by decide)
      rfl
  | num h => exact reads_num h
  | str s => exact reads_str s
  | arr _ ih => exact reads_arr ih
  | obj _ ih => exact reads_obj ih

/-- A printed value is read as it was written. -/
theorem InRange.ofText?_pretty {v : Json} (h : v.InRange) :
    Written.ofText? v.pretty = some v.written := by
  have hread := h.reads 0 (2 * v.pretty.toList.length + 2) [] (by
    unfold pretty
    omega) (fun _ hc => nomatch hc)
  rw [List.append_nil] at hread
  unfold Written.ofText?
  change (readValue (2 * v.pretty.toList.length + 2) v.pretty.toList).bind _ = _
  change readValue (2 * v.pretty.toList.length + 2) v.pretty.toList = _ at hread
  rw [hread]
  rfl

end Json

end DocumentEngine
