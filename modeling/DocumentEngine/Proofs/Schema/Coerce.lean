import DocumentEngine.Proofs.Calendar.Timestamp
import DocumentEngine.Schema.Coerce

/-!
Coercing what was coerced. Each kind holds values of its own, takes them again and leaves them as they
are, so that a stored value can be read and sent back. Only points in time outside the years 0 to
9999 are printed with a sign in front of the year, and their texts are refused. Only text that spells
no finite number turns into null.
-/

namespace DocumentEngine.ScalarKind

variable {kind : ScalarKind} {v w : Json}

/-- The values that a kind holds. -/
inductive Holds : ScalarKind → Json → Prop where
  | null (kind : ScalarKind) : Holds kind .null
  | id (s : String) : Holds .id (.str s)
  | string (s : String) : Holds .string (.str s)
  | int (n : Int) : Holds .int (.int n)
  | float (n : Number) : Holds .float (.num n)
  | boolean (b : Bool) : Holds .boolean (.bool b)
  | dateTime (time : Timestamp) : Holds .dateTime (.str time.text)

theorem coerce_null (kind : ScalarKind) : kind.coerce .null = .ok .null := by
  cases kind <;> rfl

theorem coerce_arr (kind : ScalarKind) (items : List Json) :
    (kind.coerce (.arr items)).isOk = false := by
  cases kind <;> rfl

theorem coerce_dateTime_str (s : String) :
    coerce .dateTime (.str s) = coerceTime (.text .dateTime s) (Timestamp.ofText? s) := rfl

theorem coerce_dateTime_num (n : Number) : coerce .dateTime (.num n) =
    coerceTime (.number .dateTime n) (n.toSigned? >>= Timestamp.ofMillis?) := rfl

theorem coerceTime_eq_ok_iff {cause : CoercionError} {time : Option Timestamp} :
    coerceTime cause time = .ok w ↔ ∃ t, time = some t ∧ w = .str t.text := by
  cases time with
  | none => simp [coerceTime]
  | some t => simp [coerceTime, eq_comm]

theorem coerce_of_ofText? {s : String} {time : Timestamp} (h : Timestamp.ofText? s = some time) :
    coerce .dateTime (.str s) = .ok (.str time.text) := by
  rw [coerce_dateTime_str, h]
  rfl

theorem holds_of_coerce_num {n : Number} (h : kind.coerce (.num n) = .ok w) : Holds kind w := by
  cases kind with
  | id =>
    cases h
    exact .id _
  | string =>
    cases h
    exact .string _
  | int =>
    cases n with
    | int n =>
      cases h
      exact .int n
    | double d =>
      change (if _ then _ else _) = _ at h
      split at h
      · cases h
        exact .int _
      · cases h
  | float =>
    cases h
    exact .float n
  | boolean =>
    unfold coerce at h
    dsimp only at h
    split at h <;> cases h
    · exact .boolean false
    · exact .boolean true
  | dateTime =>
    obtain ⟨time, -, rfl⟩ := coerceTime_eq_ok_iff.mp h
    exact .dateTime time

theorem holds_of_coerce_str {s : String} (h : kind.coerce (.str s) = .ok w) : Holds kind w := by
  cases kind with
  | id =>
    cases h
    exact .id s
  | string =>
    cases h
    exact .string s
  | int =>
    unfold coerce at h
    dsimp only at h
    split at h <;> cases h
    exact .int _
  | float =>
    unfold coerce at h
    dsimp only at h
    split at h
    · cases h
      unfold doubleJson
      split
      · exact .float _
      · exact .null .float
    · cases h
  | boolean =>
    change coerceFlag _ = _ at h
    unfold coerceFlag at h
    split at h
    · cases h
      exact .boolean true
    · split at h <;> cases h
      exact .boolean false
  | dateTime =>
    obtain ⟨time, -, rfl⟩ := coerceTime_eq_ok_iff.mp h
    exact .dateTime time

/-- A kind coerces to values that it holds. -/
theorem holds_of_coerce (h : kind.coerce v = .ok w) : Holds kind w := by
  cases v with
  | null =>
    rw [coerce_null] at h
    cases h
    exact .null kind
  | bool b =>
    cases kind with
    | string =>
      cases h
      exact .string _
    | boolean =>
      cases h
      exact .boolean b
    | _ => cases h
  | num n => exact holds_of_coerce_num h
  | str s => exact holds_of_coerce_str h
  | arr items =>
    have herror := coerce_arr kind items
    rw [h] at herror
    cases herror
  | obj members => cases kind <;> cases h

/-- A kind without points in time takes what it holds as it is. -/
theorem Holds.coerce_eq (h : Holds kind w) (hkind : kind ≠ .dateTime) : kind.coerce w = .ok w := by
  cases h with
  | null => exact coerce_null kind
  | dateTime time => exact absurd rfl hkind
  | _ => rfl

/-- A kind takes what it holds, a point in time where its text can be read. -/
theorem Holds.coerce_isOk (h : Holds kind w)
    (htime : kind = .dateTime → ∀ s, w = .str s → (Timestamp.ofText? s).isSome = true) :
    (kind.coerce w).isOk = true := by
  by_cases hkind : kind = .dateTime
  · subst hkind
    cases h with
    | null => rw [coerce_null]; rfl
    | dateTime time =>
      obtain ⟨read, hread⟩ := Option.isSome_iff_exists.mp (htime rfl time.text rfl)
      rw [coerce_of_ofText? hread]
      rfl
  · rw [h.coerce_eq hkind]
    rfl

/-- Only null, and text for a number, turn into null. -/
theorem eq_null_of_coerce (h : kind.coerce v = .ok .null) :
    v = .null ∨ kind = .float ∧ ∃ s, v = .str s := by
  by_cases hfloat : kind = .float ∧ ∃ s, v = .str s
  · exact .inr hfloat
  refine .inl ?_
  cases v with
  | null => rfl
  | bool b => cases kind <;> cases h
  | num n =>
    cases kind with
    | int =>
      cases n with
      | int n => cases h
      | double d =>
        change (if _ then _ else _) = _ at h
        split at h <;> cases h
    | boolean =>
      unfold coerce at h
      dsimp only at h
      split at h <;> cases h
    | dateTime =>
      obtain ⟨time, -, htext⟩ := coerceTime_eq_ok_iff.mp h
      cases htext
    | _ => cases h
  | str s =>
    cases kind with
    | float => exact absurd ⟨rfl, s, rfl⟩ hfloat
    | int =>
      unfold coerce at h
      dsimp only at h
      split at h <;> cases h
    | boolean =>
      change coerceFlag _ = _ at h
      unfold coerceFlag at h
      split at h
      · cases h
      · split at h <;> cases h
    | dateTime =>
      obtain ⟨time, -, htext⟩ := coerceTime_eq_ok_iff.mp h
      cases htext
    | _ => cases h
  | arr items =>
    have herror := coerce_arr kind items
    rw [h] at herror
    cases herror
  | obj members => cases kind <;> cases h

variable {kind : ScalarKind} {v w : Json}

/-- A point in time is printed as it was read, from text or from milliseconds. -/
theorem exists_time_of_coerce (h : coerce .dateTime v = .ok w) :
    w = .null ∨ ∃ time : Timestamp, time.Proper ∧ w = .str time.text := by
  cases v with
  | null =>
    cases h
    exact .inl rfl
  | str s =>
    obtain ⟨time, hread, rfl⟩ := coerceTime_eq_ok_iff.mp h
    exact .inr ⟨time, Timestamp.proper_of_ofText? hread, rfl⟩
  | num n =>
    obtain ⟨time, hread, rfl⟩ := coerceTime_eq_ok_iff.mp h
    obtain ⟨millis, -, hread⟩ := Option.bind_eq_some_iff.mp hread
    exact .inr ⟨time, Timestamp.proper_of_ofMillis? hread, rfl⟩
  | _ => cases h

/-- The text of a point in time is refused in all other years. -/
theorem coerce_time_eq_error {time : Timestamp} (h : time.year < 0 ∨ 9999 < time.year) :
    coerce .dateTime (.str time.text) = .error (.text .dateTime time.text) := by
  rw [coerce_dateTime_str, Timestamp.ofText?_text_eq_none h]
  rfl

/-- What a kind made of a value it takes again and leaves as it is, except the text of a point in
time whose year has not four digits: there the kind refuses what it wrote. -/
theorem coerce_again (h : kind.coerce v = .ok w) :
    (kind.coerce w = .ok w ↔ ∀ time : Timestamp, kind = .dateTime → w = .str time.text →
      0 ≤ time.year ∧ time.year ≤ 9999) ∧
    ∀ time : Timestamp, kind = .dateTime → w = .str time.text →
      time.year < 0 ∨ 9999 < time.year → kind.coerce w = .error (.text kind time.text) := by
  have hrefused : ∀ time : Timestamp, kind = .dateTime → w = .str time.text →
      time.year < 0 ∨ 9999 < time.year → kind.coerce w = .error (.text kind time.text) := by
    rintro time rfl rfl hyear
    exact coerce_time_eq_error hyear
  refine ⟨⟨fun hkept time hkind htext => ?_, fun hyears => ?_⟩, hrefused⟩
  · by_contra hyear
    rw [hrefused time hkind htext (by omega)] at hkept
    cases hkept
  · by_cases hkind : kind = .dateTime
    · subst hkind
      obtain rfl | ⟨time, hproper, rfl⟩ := exists_time_of_coerce h
      · exact coerce_null _
      · obtain ⟨hlow, hhigh⟩ := hyears time rfl rfl
        exact coerce_of_ofText? (Timestamp.ofText?_text hproper hlow hhigh)
    · exact (holds_of_coerce h).coerce_eq hkind

/-- A leap second of another zone is printed in universal time, and taken again. -/
theorem coerce_again_leap :
    coerce .dateTime (.str " 1998-12-31T18:59:60.5-05:00 ") = .ok (.str "1998-12-31T23:59:60.500Z") ∧
    coerce .dateTime (.str "1998-12-31T23:59:60.500Z") = .ok (.str "1998-12-31T23:59:60.500Z") := by
  have htext : (⟨10591, 86399, 500, true⟩ : Timestamp).text = "1998-12-31T23:59:60.500Z" := by
    decide +kernel
  have hread : coerce .dateTime (.str " 1998-12-31T18:59:60.5-05:00 ") =
      .ok (.str "1998-12-31T23:59:60.500Z") := by
    rw [← htext]
    exact coerce_of_ofText? (by decide +kernel)
  refine ⟨hread, (coerce_again hread).1.mpr fun time _ hsame => ?_⟩
  by_contra hyear
  have hnone := Timestamp.ofText?_text_eq_none (t := time) (by omega)
  rw [← Json.str.inj hsame] at hnone
  exact absurd hnone (by decide +kernel)

/-- The milliseconds of the first midnight of the year 10000 are taken for a point in time, but not
the text that was made of them. -/
theorem exists_not_coerced_again : ∃ v w, coerce .dateTime v = .ok w ∧
    coerce .dateTime w = .error (.text .dateTime "+10000-01-01T00:00:00.000Z") := by
  have htext : (⟨2932897, 0, 0, false⟩ : Timestamp).text = "+10000-01-01T00:00:00.000Z" := by
    decide +kernel
  have hread : ((Number.int 253402300800000).toSigned? >>= Timestamp.ofMillis?) =
      some ⟨2932897, 0, 0, false⟩ := by decide +kernel
  refine ⟨.num (.int 253402300800000), .str "+10000-01-01T00:00:00.000Z", ?_, ?_⟩
  · rw [coerce_dateTime_num, hread, ← htext]
    rfl
  · rw [← htext]
    exact coerce_time_eq_error (.inr (by decide +kernel))

end DocumentEngine.ScalarKind
