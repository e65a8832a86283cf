import DocumentEngine.Json.Basic

/-!
Equality of JSON values can be decided.
-/

namespace DocumentEngine.Json

mutual

/-- Whether two values are equal. -/
def equal : Json → Json → Bool
  | .null, .null => true
  | .bool a, .bool b => a == b
  | .num a, .num b => decide (a = b)
  | .str a, .str b => a == b
  | .arr a, .arr b => equalItems a b
  | .obj a, .obj b => equalMembers a b
  | _, _ => false

/-- Whether two lists hold equal items. -/
def equalItems : List Json → List Json → Bool
  | [], [] => true
  | a :: as, b :: bs => equal a b && equalItems as bs
  | _, _ => false

/-- Whether two objects hold equal members in the same order. -/
def equalMembers : List (String × Json) → List (String × Json) → Bool
  | [], [] => true
  | (k, a) :: as, (l, b) :: bs => k == l && equal a b && equalMembers as bs
  | _, _ => false

end

mutual

theorem eq_of_equal : (v w : Json) → equal v w = true → v = w
  | .null, w, h => by
    cases w with
    | null => rfl
    | _ => cases h
  | .bool a, w, h => by
    cases w with
    | bool b => exact congrArg _ (beq_iff_eq.mp h)
    | _ => cases h
  | .num a, w, h => by
    cases w with
    | num b => exact congrArg _ (of_decide_eq_true h)
    | _ => cases h
  | .str a, w, h => by
    cases w with
    | str b => exact congrArg _ (beq_iff_eq.mp h)
    | _ => cases h
  | .arr as, w, h => by
    cases w with
    | arr bs => exact congrArg _ (eq_of_equalItems as bs h)
    | _ => cases h
  | .obj as, w, h => by
    cases w with
    | obj bs => exact congrArg _ (eq_of_equalMembers as bs h)
    | _ => cases h

theorem eq_of_equalItems : (vs ws : List Json) → equalItems vs ws = true → vs = ws
  | [], ws, h => by
    cases ws with
    | nil => rfl
    | cons w ws => cases h
  | v :: vs, ws, h => by
    cases ws with
    | nil => cases h
    | cons w ws =>
      obtain ⟨hv, hvs⟩ := Bool.and_eq_true_iff.mp h
      rw [eq_of_equal v w hv, eq_of_equalItems vs ws hvs]

theorem eq_of_equalMembers : (vs ws : List (String × Json)) → equalMembers vs ws = true → vs = ws
  | [], ws, h => by
    cases ws with
    | nil => rfl
    | cons w ws => cases h
  | (k, v) :: vs, ws, h => by
    cases ws with
    | nil => cases h
    | cons w ws =>
      obtain ⟨hhead, hvs⟩ := Bool.and_eq_true_iff.mp h
      obtain ⟨hk, hv⟩ := Bool.and_eq_true_iff.mp hhead
      rw [eq_of_equal v w.2 hv, eq_of_equalMembers vs ws hvs, beq_iff_eq.mp hk]

end

mutual

theorem equal_self : (v : Json) → equal v v = true
  | .null => rfl
  | .bool b => beq_self_eq_true b
  | .num _ => decide_eq_true rfl
  | .str s => beq_self_eq_true s
  | .arr vs => equalItems_self vs
  | .obj ms => equalMembers_self ms

theorem equalItems_self : (vs : List Json) → equalItems vs vs = true
  | [] => rfl
  | v :: vs => Bool.and_eq_true_iff.mpr ⟨equal_self v, equalItems_self vs⟩

theorem equalMembers_self : (ms : List (String × Json)) → equalMembers ms ms = true
  | [] => rfl
  | (k, v) :: ms => Bool.and_eq_true_iff.mpr
      ⟨Bool.and_eq_true_iff.mpr ⟨beq_self_eq_true k, equal_self v⟩, equalMembers_self ms⟩

end

instance : DecidableEq Json := fun v w =>
  decidable_of_iff (equal v w = true) ⟨eq_of_equal v w, fun h => h ▸ equal_self v⟩

end DocumentEngine.Json
