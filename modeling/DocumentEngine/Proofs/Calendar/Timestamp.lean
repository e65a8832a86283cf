import DocumentEngine.Calendar.Timestamp
import DocumentEngine.Proofs.Calendar.Date
import DocumentEngine.Proofs.Number.Text
import Mathlib.Data.List.TakeWhile

/-!
Points in time, read and written. What was read, from text or from milliseconds, lies in a day and
keeps a leap second at the end of a minute, and its text names it again as long as its year has four
digits. The sign in front of any other year is not RFC 3339, and a bare date has no time behind it.
-/

namespace DocumentEngine.Timestamp

open Number

/-- The year in which a point in time lies. -/
def year (t : Timestamp) : Int := (Date.ofDayNumber t.day).year

/-- A point in time of a day, a leap second at the end of its minute. -/
structure Proper (t : Timestamp) : Prop where
  second_lt : t.second < daySeconds
  milli_lt : t.milli < 1000
  leap : t.leap = true → t.second % 60 = 59

variable {t : Timestamp}

section Digits

variable {width n : Nat}

theorem toList_padded (width n : Nat) : (padded width n).toList =
    List.replicate (width - (Nat.toDigits 10 n).length) '0' ++ Nat.toDigits 10 n := by
  rw [padded, String.toList_ofList]

theorem isDigit_padded (width n : Nat) : ∀ c ∈ (padded width n).toList, c.isDigit = true := by
  intro c hc
  rw [toList_padded, List.mem_append] at hc
  exact hc.elim (isDigit_zeros _ c) (isDigit_toDigits n c)

theorem length_padded (hwidth : 0 < width) (h : n < 10 ^ width) :
    (padded width n).toList.length = width := by
  have hlength := (Nat.length_toDigits_le_iff (b := 10) (by decide) hwidth).mpr h
  rw [toList_padded, List.length_append, List.length_replicate]
  omega

theorem digitsValue_padded (width n : Nat) : digitsValue (padded width n).toList = n := by
  rw [toList_padded, digitsValue_zeros_append, digitsValue_toDigits]

theorem natural?_padded (width n : Nat) : natural? (padded width n).toList = some n := by
  refine natural?_eq_some_iff.mpr ⟨?_, isDigit_padded width n, digitsValue_padded width n⟩
  rw [toList_padded]
  exact List.append_ne_nil_of_right_ne_nil _ Nat.toDigits_ne_nil

/-- As many digits as the width says are read as the number that was written. -/
theorem digits?_padded (hwidth : 0 < width) (h : n < 10 ^ width) (rest : List Char) :
    digits? width ((padded width n).toList ++ rest) = some (n, rest) := by
  have hlength := length_padded hwidth h
  rw [digits?, List.take_left' hlength, List.drop_left' hlength, natural?_padded, Option.bind_some,
    if_pos]
  rw [List.length_append]
  omega

end Digits

/-- Three digits of fraction are read as the milliseconds. -/
theorem fraction?_padded {milli : Nat} (h : milli < 1000) :
    fraction? ('.' :: ((padded 3 milli).toList ++ ['Z'])) = some (milli, ['Z']) := by
  have hdigits := isDigit_padded 3 milli
  have hlength : (padded 3 milli).toList.length = 3 := length_padded (by decide) h
  have htake : ((padded 3 milli).toList ++ ['Z']).takeWhile Char.isDigit = (padded 3 milli).toList := by
    rw [List.takeWhile_append_of_pos hdigits]
    simp
  have hdrop : ((padded 3 milli).toList ++ ['Z']).dropWhile Char.isDigit = ['Z'] := by
    rw [List.dropWhile_append_of_pos hdigits]
    simp
  have hne : (padded 3 milli).toList.isEmpty = false := by
    rw [List.isEmpty_eq_false_iff]
    exact List.ne_nil_of_length_pos (by omega)
  simp only [fraction?, htake, hdrop, hne, List.take_left' hlength, digitsValue_padded]
  rfl

/-- The characters of the written form, the year aside. -/
theorem toList_text (t : Timestamp) : t.text.toList = (yearText t.year).toList ++
    '-' :: ((padded 2 (Date.ofDayNumber t.day).month).toList ++
    '-' :: ((padded 2 (Date.ofDayNumber t.day).day).toList ++
    'T' :: ((padded 2 (t.second / 3600)).toList ++
    ':' :: ((padded 2 (t.second / 60 % 60)).toList ++
    ':' :: ((padded 2 (if t.leap then 60 else t.second % 60)).toList ++
    '.' :: ((padded 3 t.milli).toList ++ ['Z'])))))) := by
  simp [text, year, String.toList_append, toString]

theorem ofParts?_valid {d : Date} (h : d.Valid) (hlow : 0 ≤ d.year) (hhigh : d.year ≤ 9999) :
    Date.ofParts? d.year.toNat d.month d.day = some d := by
  obtain ⟨hmonth, hmonth', hday, hday'⟩ := h
  rw [Int.toNat_of_nonneg hlow, Date.ofParts?, if_pos]
  simp only [Bool.and_eq_true, decide_eq_true_eq]
  unfold Date.minYear Date.maxYear
  omega

theorem daysInMonth_le (year : Int) (month : Nat) : Date.daysInMonth year month ≤ 31 := by
  unfold Date.daysInMonth
  split <;> (try split) <;> decide

theorem bounded?_of_le {high n : Nat} (h : n ≤ high) : bounded? 0 high n = some n := by
  rw [bounded?, if_pos]
  simpa using h

theorem char?_self (c : Char) (rest : List Char) : char? c (c :: rest) = some rest := if_pos rfl

/-- The fields of a text in universal time are read in their order. -/
theorem ofRfc3339?_fields {year month day hour minute second milli : Nat} {date : Date}
    (hyear : year < 10000) (hmonth : month < 100) (hday : day < 100) (hhour : hour ≤ 23)
    (hminute : minute ≤ 59) (hsecond : second ≤ 60) (hmilli : milli < 1000)
    (hdate : Date.ofParts? year month day = some date)
    (htime : ofSeconds? date.dayNumber
      (3600 * hour + 60 * minute + min second 59 : Nat) milli (second == 60) = some t) :
    ofRfc3339? ((padded 4 year).toList ++ '-' :: ((padded 2 month).toList ++
      '-' :: ((padded 2 day).toList ++ 'T' :: ((padded 2 hour).toList ++
      ':' :: ((padded 2 minute).toList ++ ':' :: ((padded 2 second).toList ++
      '.' :: ((padded 3 milli).toList ++ ['Z']))))))) = some t := by
  have htwo : ∀ n < 100, ∀ rest, digits? 2 ((padded 2 n).toList ++ rest) = some (n, rest) :=
    fun n hn => digits?_padded (by decide) hn
  unfold ofRfc3339?
  -- the date
  refine Option.bind_eq_some_iff.mpr ⟨_, digits?_padded (by decide) hyear _, ?_⟩
  refine Option.bind_eq_some_iff.mpr ⟨_, char?_self _ _, ?_⟩
  refine Option.bind_eq_some_iff.mpr ⟨_, htwo month hmonth _, ?_⟩
  refine Option.bind_eq_some_iff.mpr ⟨_, char?_self _ _, ?_⟩
  refine Option.bind_eq_some_iff.mpr ⟨_, htwo day hday _, ?_⟩
  -- the time of day and its zone
  refine Option.bind_eq_some_iff.mpr ⟨_, rfl, ?_⟩
  refine Option.bind_eq_some_iff.mpr ⟨_, htwo hour (by omega) _, ?_⟩
  refine Option.bind_eq_some_iff.mpr ⟨_, char?_self _ _, ?_⟩
  refine Option.bind_eq_some_iff.mpr ⟨_, htwo minute (by omega) _, ?_⟩
  refine Option.bind_eq_some_iff.mpr ⟨_, char?_self _ _, ?_⟩
  refine Option.bind_eq_some_iff.mpr ⟨_, htwo second (by omega) _, ?_⟩
  refine Option.bind_eq_some_iff.mpr ⟨_, fraction?_padded hmilli, ?_⟩
  refine Option.bind_eq_some_iff.mpr ⟨(0, []), rfl, ?_⟩
  -- the fields are within their bounds
  refine Option.bind_eq_some_iff.mpr ⟨_, hdate, ?_⟩
  refine Option.bind_eq_some_iff.mpr ⟨_, bounded?_of_le hhour, ?_⟩
  refine Option.bind_eq_some_iff.mpr ⟨_, bounded?_of_le hminute, ?_⟩
  refine Option.bind_eq_some_iff.mpr ⟨_, bounded?_of_le hsecond, ?_⟩
  rw [← htime, ← Int.sub_zero ((3600 * hour + 60 * minute + min second 59 : Nat) : Int)]
  push_cast
  rfl

/-- The seconds of a day stand for a point in time of that day. -/
theorem ofSeconds?_self (hsecond : t.second < daySeconds) (hlow : 0 ≤ t.year)
    (hhigh : t.year ≤ 9999) : ofSeconds? t.day t.second t.milli t.leap = some t := by
  dsimp only [daySeconds] at hsecond
  have hdays : (t.second : Int) / (86400 : Nat) = 0 := by omega
  have hrest : ((t.second : Int) % (86400 : Nat)).toNat = t.second := by omega
  unfold ofSeconds?
  dsimp only [daySeconds]
  rw [hdays, hrest, Int.add_zero, if_pos]
  simp only [Bool.and_eq_true, decide_eq_true_eq]
  unfold Date.minYear Date.maxYear
  unfold year at hlow hhigh
  omega

/-- Hours, minutes and seconds make the seconds of the day, where a leap second counts as the one
before it. -/
theorem Proper.seconds_eq (h : t.Proper) : 3600 * (t.second / 3600) + 60 * (t.second / 60 % 60) +
    min (if t.leap then 60 else t.second % 60) 59 = t.second := by
  cases hleap : t.leap with
  | false =>
    rw [if_neg (by decide)]
    omega
  | true =>
    have hlast := h.leap hleap
    rw [if_pos rfl]
    omega

theorem leap_eq (t : Timestamp) : ((if t.leap then 60 else t.second % 60) == 60) = t.leap := by
  cases t.leap with
  | false =>
    rw [if_neg (by decide), beq_eq_false_iff_ne]
    omega
  | true => rfl

/-- In a year of four digits the text names its point in time. -/
theorem ofRfc3339?_text (h : t.Proper) (hlow : 0 ≤ t.year) (hhigh : t.year ≤ 9999) :
    ofRfc3339? t.text.toList = some t := by
  have hsecond := h.second_lt
  dsimp only [daySeconds] at hsecond
  have hvalid := Date.valid_ofDayNumber t.day
  have hmonth := hvalid.month_le
  have hday := hvalid.day_le.trans (daysInMonth_le _ _)
  have hyear : yearText t.year = padded 4 t.year.toNat := if_pos (by simp [hlow, hhigh])
  rw [toList_text, hyear]
  refine ofRfc3339?_fields (by omega) (by omega) (by omega) (by omega) (by omega) ?_ h.milli_lt
    (ofParts?_valid hvalid hlow hhigh) ?_
  · split <;> omega
  · rw [h.seconds_eq, leap_eq, Date.dayNumber_ofDayNumber]
    exact ofSeconds?_self h.second_lt hlow hhigh

/-! What is read is proper. -/

theorem proper_of_ofSeconds? {day seconds : Int} {milli : Nat} {leap : Bool} (hmilli : milli < 1000)
    (hleap : leap = true → seconds % 60 = 59) (h : ofSeconds? day seconds milli leap = some t) :
    t.Proper := by
  unfold ofSeconds? at h
  dsimp only [daySeconds] at h
  split at h
  · cases h
    refine ⟨?_, hmilli, fun hlast => ?_⟩
    · dsimp only [daySeconds]
      omega
    · have hseconds := hleap hlast
      dsimp only
      omega
  · cases h

theorem proper_of_ofMillis? {millis : Int} (h : ofMillis? millis = some t) : t.Proper :=
  proper_of_ofSeconds? (by omega) (fun hleap => by cases hleap) h

/-- The fraction of a second comes to less than a second. -/
theorem fraction?_lt {cs rest : List Char} {milli : Nat} (h : fraction? cs = some (milli, rest)) :
    milli < 1000 := by
  unfold fraction? at h
  split at h
  · rename_i more
    dsimp only at h
    split at h
    · cases h
    cases h
    have hdigits : ∀ c ∈ (more.takeWhile Char.isDigit ++ ['0', '0']).take 3, c.isDigit = true := by
      intro c hc
      rcases List.mem_append.mp (List.mem_of_mem_take hc) with hc | hc
      · exact List.mem_takeWhile_imp hc
      · simp at hc
        subst hc
        decide
    refine (digitsValue_lt hdigits).trans_le ?_
    exact Nat.pow_le_pow_right (by decide) (List.length_take_le _ _)
  · cases h
    decide

/-- Zones lie whole minutes apart. -/
theorem offset?_dvd {cs rest : List Char} {offset : Int} (h : offset? cs = some (offset, rest)) :
    (60 : Int) ∣ offset := by
  unfold offset? at h
  split at h
  · cases h
  split at h
  · cases h
    decide
  split at h
  · simp only [Option.bind_eq_bind, Option.bind_eq_some_iff] at h
    obtain ⟨_, -, _, -, _, -, hours, -, minutes, -, h⟩ := h
    cases h
    split
    · exact ⟨_, rfl⟩
    · exact (Int.dvd_neg).mpr ⟨_, rfl⟩
  · cases h

theorem proper_of_ofRfc3339? {cs : List Char} (h : ofRfc3339? cs = some t) : t.Proper := by
  unfold ofRfc3339? at h
  -- the fields of the date and the time of day, each with the mark behind it
  iterate 11 obtain ⟨_, -, h⟩ := Option.bind_eq_some_iff.mp h
  obtain ⟨⟨milli, _⟩, hmilli, h⟩ := Option.bind_eq_some_iff.mp h
  obtain ⟨⟨offset, _⟩, hoffset, h⟩ := Option.bind_eq_some_iff.mp h
  obtain ⟨date, -, h⟩ := Option.bind_eq_some_iff.mp h
  obtain ⟨hour, -, h⟩ := Option.bind_eq_some_iff.mp h
  obtain ⟨minute, -, h⟩ := Option.bind_eq_some_iff.mp h
  obtain ⟨second, -, h⟩ := Option.bind_eq_some_iff.mp h
  have hminutes := offset?_dvd hoffset
  dsimp only at h
  split at h
  · refine proper_of_ofSeconds? (fraction?_lt hmilli) (fun hleap => ?_) h
    have hlast := beq_iff_eq.mp hleap
    omega
  · cases h

theorem proper_of_ofDate? {cs : List Char} (h : ofDate? cs = some t) : t.Proper := by
  unfold ofDate? at h
  iterate 6 obtain ⟨_, -, h⟩ := Option.bind_eq_some_iff.mp h
  split at h
  · cases h
    exact ⟨show 0 < daySeconds by decide, show 0 < 1000 by decide, fun hleap => by cases hleap⟩
  · cases h

theorem proper_of_ofText? {s : String} (h : ofText? s = some t) : t.Proper := by
  unfold ofText? at h
  dsimp only at h
  cases hread : ofRfc3339? (Text.trimChars s.toList) with
  | some read =>
    rw [hread] at h
    cases h
    exact proper_of_ofRfc3339? hread
  | none =>
    rw [hread] at h
    exact proper_of_ofDate? h

/-! A bare date reads blanks, digits, signs and nothing else. -/

section Letters

variable {c : Char} {cs rest : List Char}

theorem mem_dropWhile {p : Char → Bool} (hc : c ∈ cs) (hp : p c = false) : c ∈ cs.dropWhile p := by
  rw [← List.takeWhile_append_dropWhile (p := p) (l := cs), List.mem_append] at hc
  refine hc.resolve_left fun hfront => ?_
  rw [List.mem_takeWhile_imp hfront] at hp
  cases hp

theorem mem_drop_digits {count : Nat} (hc : c ∈ cs) (hdigit : c.isDigit = false) :
    c ∈ cs.drop ((cs.take count).takeWhile Char.isDigit).length := by
  obtain ⟨back, hback⟩ :=
    (List.takeWhile_prefix Char.isDigit (l := cs.take count)).trans (List.take_prefix count cs)
  rw [← hback, List.mem_append] at hc
  nth_rewrite 2 [← hback]
  rw [List.drop_left]
  refine hc.resolve_left fun hfront => ?_
  rw [List.mem_takeWhile_imp hfront] at hdigit
  cases hdigit

theorem mem_of_char? {mark : Char} (h : char? mark cs = some rest) (hc : c ∈ cs) (hne : c ≠ mark) :
    c ∈ rest := by
  cases cs with
  | nil => cases hc
  | cons d ds =>
    rw [char?] at h
    split at h
    · rename_i hmark
      cases h
      exact (List.mem_cons.mp hc).resolve_left (hmark ▸ hne)
    · cases h

theorem mem_of_upTo? {count n : Nat} (h : upTo? count cs = some (n, rest)) (hc : c ∈ cs)
    (hblank : Text.isBlank c = false) (hdigit : c.isDigit = false) : c ∈ rest := by
  obtain ⟨m, -, hrest⟩ := Option.map_eq_some_iff.mp h
  cases hrest
  exact mem_drop_digits (mem_dropWhile hc hblank) hdigit

theorem mem_of_year? {year : Int} (h : year? cs = some (year, rest)) (hc : c ∈ cs)
    (hblank : Text.isBlank c = false) (hdigit : c.isDigit = false) (hsign : c ≠ '-' ∧ c ≠ '+') :
    c ∈ rest := by
  have hbody := mem_dropWhile hc hblank
  have hsigned : ∀ body : List Char, c ∈ body → c ∈ body.drop (body.takeWhile Char.isDigit).length := by
    intro body hbody
    have hdrop := @mem_drop_digits c body body.length hbody hdigit
    rwa [List.take_length] at hdrop
  unfold year? at h
  split at h
  · rename_i body hshape
    rw [hshape, List.mem_cons] at hbody
    obtain ⟨n, -, hrest⟩ := Option.map_eq_some_iff.mp h
    cases hrest
    exact hsigned body (hbody.resolve_left hsign.1)
  · rename_i body hshape
    rw [hshape, List.mem_cons] at hbody
    obtain ⟨n, -, hrest⟩ := Option.map_eq_some_iff.mp h
    cases hrest
    exact hsigned body (hbody.resolve_left hsign.2)
  · obtain ⟨⟨n, left⟩, hread, hrest⟩ := Option.map_eq_some_iff.mp h
    cases hrest
    exact mem_of_upTo? hread hbody hblank hdigit

end Letters

/-- A text with a time of day is no bare date. -/
theorem ofDate?_eq_none {cs : List Char} (h : 'T' ∈ cs) : ofDate? cs = none := by
  rw [Option.eq_none_iff_forall_ne_some]
  intro t hread
  unfold ofDate? at hread
  obtain ⟨⟨year, rest⟩, hyear, hread⟩ := Option.bind_eq_some_iff.mp hread
  obtain ⟨behindYear, hmark, hread⟩ := Option.bind_eq_some_iff.mp hread
  obtain ⟨⟨month, behindMonth⟩, hmonth, hread⟩ := Option.bind_eq_some_iff.mp hread
  obtain ⟨beforeDay, hmark', hread⟩ := Option.bind_eq_some_iff.mp hread
  obtain ⟨⟨day, behindDay⟩, hday, hread⟩ := Option.bind_eq_some_iff.mp hread
  obtain ⟨date, -, hread⟩ := Option.bind_eq_some_iff.mp hread
  have hstays := mem_of_year? hyear h (by decide) (by decide) (by decide)
  have hstays := mem_of_upTo? hmonth (mem_of_char? hmark hstays (by decide)) (by decide) (by decide)
  have hstays := mem_of_upTo? hday (mem_of_char? hmark' hstays (by decide)) (by decide) (by decide)
  split at hread
  · rename_i hempty
    rw [List.isEmpty_iff.mp hempty] at hstays
    cases hstays
  · cases hread

/-- A sign in front of the year is not RFC 3339. -/
theorem ofRfc3339?_eq_none {c : Char} (h : c.isDigit = false) (cs : List Char) :
    ofRfc3339? (c :: cs) = none := by
  have hdigits : digits? 4 (c :: cs) = none := by
    simp [digits?, natural?, h]
  unfold ofRfc3339?
  rw [hdigits]
  rfl

/-- The written form has no blanks. -/
theorem trimChars_text (t : Timestamp) : Text.trimChars t.text.toList = t.text.toList := by
  refine Evaluation.trimChars_of_no_blank fun c hc => ?_
  have hpadded : ∀ width n, c ∈ (padded width n).toList → Text.isBlank c = false :=
    fun width n h => isBlank_of_isDigit (isDigit_padded width n c h)
  have hyear : c ∈ (yearText t.year).toList → Text.isBlank c = false := by
    intro h
    unfold yearText at h
    split at h
    · exact hpadded _ _ h
    · rw [String.toList_append, List.mem_append] at h
      refine h.elim (fun hsign => ?_) (hpadded _ _)
      have hmark : c = '-' ∨ c = '+' := by
        split at hsign <;> simp at hsign <;> simp [hsign]
      rcases hmark with rfl | rfl <;> decide
  rw [toList_text] at hc
  simp only [List.mem_append, List.mem_cons, List.not_mem_nil, or_false] at hc
  rcases hc with h | rfl | h | rfl | h | rfl | h | rfl | h | rfl | h | rfl | h | rfl
  · exact hyear h
  all_goals first | exact hpadded _ _ h | decide

/-- The text of a point in time names it in a year of four digits. -/
theorem ofText?_text (h : t.Proper) (hlow : 0 ≤ t.year) (hhigh : t.year ≤ 9999) :
    ofText? t.text = some t := by
  unfold ofText?
  dsimp only
  rw [trimChars_text, ofRfc3339?_text h hlow hhigh]
  rfl

/-- The text of a point in time names none in any other year. -/
theorem ofText?_text_eq_none (h : t.year < 0 ∨ 9999 < t.year) : ofText? t.text = none := by
  have hdate : ofDate? t.text.toList = none := ofDate?_eq_none (by simp [toList_text])
  have hsign : ∃ c cs, t.text.toList = c :: cs ∧ c.isDigit = false := by
    rw [toList_text, yearText, if_neg (by simp; omega), String.toList_append]
    split
    · exact ⟨'-', _, rfl, rfl⟩
    · exact ⟨'+', _, rfl, rfl⟩
  obtain ⟨c, cs, htext, hdigit⟩ := hsign
  unfold ofText?
  dsimp only
  rw [trimChars_text, hdate, htext, ofRfc3339?_eq_none hdigit]
  rfl

end DocumentEngine.Timestamp
