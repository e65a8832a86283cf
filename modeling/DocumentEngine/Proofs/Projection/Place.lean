import DocumentEngine.Proofs.Keyed
import DocumentEngine.Response.Basic

/-!
Putting values at paths. A value put at a path is replaced by the next one there; what is put below
a path is put into the value there; and at paths that part ways the order does not matter.
-/

namespace DocumentEngine

/-- Paths that part ways at some step. -/
inductive ResponsePath.Diverge : ResponsePath → ResponsePath → Prop
  | head {a b : PathSegment} (p q : ResponsePath) : a ≠ b → Diverge (a :: p) (b :: q)
  | tail (a : PathSegment) {p q : ResponsePath} : Diverge p q → Diverge (a :: p) (a :: q)

namespace ResponsePath.Diverge

theorem symm {p q : ResponsePath} (h : Diverge p q) : Diverge q p := by
  induction h with
  | head p q hne => exact .head q p hne.symm
  | tail a _ ih => exact .tail a ih

theorem append {p q : ResponsePath} (h : Diverge p q) (r s : ResponsePath) :
    Diverge (p ++ r) (q ++ s) := by
  induction h with
  | head p q hne => exact .head _ _ hne
  | tail a _ ih => exact .tail a ih

theorem under {p q : ResponsePath} (h : Diverge p q) (path : ResponsePath) :
    Diverge (path ++ p) (path ++ q) := by
  induction path with
  | nil => exact h
  | cons a path ih => exact .tail a ih

theorem of_isPrefix {p q r s : ResponsePath} (h : Diverge p q) (hr : p <+: r) (hs : q <+: s) :
    Diverge r s := by
  obtain ⟨t, rfl⟩ := hr
  obtain ⟨u, rfl⟩ := hs
  exact h.append t u

end ResponsePath.Diverge

namespace Json

attribute [local simp] setAt

theorem setAt_key {members : List (String × Json)} {name : String} {child : Json}
    (h : Keyed.get? members name = some child) (new : Json) (rest : ResponsePath) :
    (Json.obj members).setAt new (.key name :: rest) =
      .obj (Keyed.insert members name (child.setAt new rest)) := by
  simp [h]

theorem setAt_index {items : List Json} {i : Nat} {child : Json} (h : items[i]? = some child)
    (new : Json) (rest : ResponsePath) :
    (Json.arr items).setAt new (.index i :: rest) = .arr (items.set i (child.setAt new rest)) := by
  simp [h]

/-- A value put below a path is put into the value that was put there. -/
theorem setAt_setAt_below (v w new : Json) (path rest : ResponsePath) :
    (v.setAt w path).setAt new (path ++ rest) = v.setAt (w.setAt new rest) path := by
  induction path generalizing v with
  | nil => rfl
  | cons step path ih =>
    cases step with
    | key name =>
      cases v with
      | obj members =>
        cases h : Keyed.get? members name with
        | none => simp [h]
        | some child =>
          rw [setAt_key h, setAt_key h, List.cons_append,
            setAt_key (Keyed.get?_insert_self members name _), Keyed.insert_insert, ih]
      | _ => rfl
    | index i =>
      cases v with
      | arr items =>
        cases h : items[i]? with
        | none => simp [h]
        | some child =>
          have hi : i < items.length := (List.getElem?_eq_some_iff.mp h).1
          have hset : (items.set i (child.setAt w path))[i]? = some (child.setAt w path) := by
            rw [List.getElem?_set_self hi]
          rw [setAt_index h, setAt_index h, List.cons_append, setAt_index hset, List.set_set, ih]
      | _ => rfl

/-- Of two values put at one path the last one stays. -/
theorem setAt_setAt (v w new : Json) (path : ResponsePath) :
    (v.setAt w path).setAt new path = v.setAt new path := by
  have h := setAt_setAt_below v w new path []
  rwa [List.append_nil] at h

/-- At two steps of one value the order of putting does not matter. -/
theorem setAt_comm_step (v x y : Json) {a b : PathSegment} (hne : a ≠ b) (p q : ResponsePath) :
    (v.setAt x (a :: p)).setAt y (b :: q) = (v.setAt y (b :: q)).setAt x (a :: p) := by
  cases v with
  | obj members =>
    cases a with
    | index i =>
      cases b with
      | index j => rfl
      | key other => cases h : Keyed.get? members other <;> simp [h]
    | key name =>
      cases b with
      | index j => cases h : Keyed.get? members name <;> simp [h]
      | key other =>
        have hnames : name ≠ other := fun h => hne (congrArg PathSegment.key h)
        cases h : Keyed.get? members name with
        | none =>
          cases h' : Keyed.get? members other with
          | none => simp [h, h']
          | some child' =>
            have hstill := (Keyed.get?_insert_of_ne members (child'.setAt y q) hnames.symm).trans h
            simp [h, h', hstill]
        | some child =>
          have hthen := Keyed.get?_insert_of_ne members (child.setAt x p) hnames
          cases h' : Keyed.get? members other with
          | none => simp [h, h', hthen]
          | some child' =>
            have hstill := (Keyed.get?_insert_of_ne members (child'.setAt y q) hnames.symm).trans h
            simp [h, h', hthen, hstill, Keyed.insert_comm members hnames]
  | arr items =>
    cases a with
    | key name =>
      cases b with
      | key other => rfl
      | index j => cases h : items[j]? <;> simp [h]
    | index i =>
      cases b with
      | key other => cases h : items[i]? <;> simp [h]
      | index j =>
        have hindices : i ≠ j := fun h => hne (congrArg PathSegment.index h)
        cases h : items[i]? with
        | none =>
          cases h' : items[j]? with
          | none => simp [h, h']
          | some child' => simp [h, h', List.getElem?_set_ne hindices.symm]
        | some child =>
          cases h' : items[j]? with
          | none => simp [h, h', List.getElem?_set_ne hindices]
          | some child' =>
            simp [h, h', List.getElem?_set_ne hindices,
              List.getElem?_set_ne hindices.symm, List.set_comm _ _ hindices]
  | _ => cases a <;> cases b <;> rfl

/-- At paths that part ways the order of putting does not matter. -/
theorem setAt_comm (v x y : Json) {p q : ResponsePath} (h : p.Diverge q) :
    (v.setAt x p).setAt y q = (v.setAt y q).setAt x p := by
  induction h generalizing v with
  | head p q hne => exact setAt_comm_step v x y hne p q
  | tail a _ ih =>
    cases a with
    | key name =>
      cases v with
      | obj members =>
        cases h : Keyed.get? members name with
        | none => simp [h]
        | some child =>
          simp [h, Keyed.get?_insert_self, Keyed.insert_insert, ih]
      | _ => rfl
    | index i =>
      cases v with
      | arr items =>
        cases h : items[i]? with
        | none => simp [h]
        | some child =>
          have hi : i < items.length := (List.getElem?_eq_some_iff.mp h).1
          simp [h, List.getElem?_set_self hi, List.set_set, ih]
      | _ => rfl

/-- The value one step into a value. -/
def step? (v : Json) : PathSegment → Option Json
  | .key name => v.get? name
  | .index i => v.arr? >>= (·[i]?)

/-- The value that a path leads to. -/
def at? (v : Json) : ResponsePath → Option Json
  | [] => some v
  | a :: rest => v.step? a >>= (·.at? rest)

theorem at?_cons {v child : Json} {a : PathSegment} (h : v.step? a = some child)
    (rest : ResponsePath) : v.at? (a :: rest) = child.at? rest := by
  rw [at?, h]
  rfl

theorem at?_append {v child : Json} {path : ResponsePath} (h : v.at? path = some child)
    (rest : ResponsePath) : v.at? (path ++ rest) = child.at? rest := by
  induction path generalizing v with
  | nil =>
    cases h
    rfl
  | cons a path ih =>
    obtain ⟨inner, hstep, hrest⟩ := Option.bind_eq_some_iff.mp h
    rw [List.cons_append, at?_cons hstep, ih hrest]

theorem step?_setAt_self {v child : Json} {a : PathSegment} (h : v.step? a = some child)
    (new : Json) (rest : ResponsePath) :
    (v.setAt new (a :: rest)).step? a = some (child.setAt new rest) := by
  cases a with
  | key name =>
    cases v with
    | obj members =>
      rw [setAt_key h]
      exact Keyed.get?_insert_self members name _
    | _ => cases h
  | index i =>
    cases v with
    | arr items =>
      have hitem : items[i]? = some child := h
      have hi : i < items.length := (List.getElem?_eq_some_iff.mp hitem).1
      rw [setAt_index hitem]
      exact List.getElem?_set_self hi
    | _ => cases h

theorem setAt_of_step?_eq_none {v : Json} {a : PathSegment} (h : v.step? a = none) (new : Json)
    (rest : ResponsePath) : v.setAt new (a :: rest) = v := by
  cases a with
  | key name =>
    cases v with
    | obj members =>
      have hnone : Keyed.get? members name = none := h
      simp [hnone]
    | _ => rfl
  | index i =>
    cases v with
    | arr items =>
      have hnone : items[i]? = none := h
      simp [hnone]
    | _ => rfl

theorem step?_setAt_of_ne (v new : Json) {a b : PathSegment} (hne : a ≠ b) (rest : ResponsePath) :
    (v.setAt new (a :: rest)).step? b = v.step? b := by
  cases hstep : v.step? a with
  | none => rw [setAt_of_step?_eq_none hstep]
  | some child =>
    cases a with
    | key name =>
      cases v with
      | obj members =>
        rw [setAt_key hstep]
        cases b with
        | key other =>
          exact Keyed.get?_insert_of_ne members _ fun heq => hne (congrArg PathSegment.key heq)
        | index j => rfl
      | _ => cases hstep
    | index i =>
      cases v with
      | arr items =>
        have hitem : items[i]? = some child := hstep
        rw [setAt_index hitem]
        cases b with
        | key other => rfl
        | index j =>
          exact List.getElem?_set_ne fun heq => hne (congrArg PathSegment.index heq)
      | _ => cases hstep

/-- A value put at a path that leads somewhere is what the path leads to then. -/
theorem at?_setAt_self {v : Json} {path : ResponsePath} (h : (v.at? path).isSome) (new : Json) :
    (v.setAt new path).at? path = some new := by
  induction path generalizing v with
  | nil => rfl
  | cons a path ih =>
    obtain ⟨value, hvalue⟩ := Option.isSome_iff_exists.mp h
    obtain ⟨child, hstep, hrest⟩ := Option.bind_eq_some_iff.mp hvalue
    rw [at?_cons (step?_setAt_self hstep new path)]
    exact ih (Option.isSome_iff_exists.mpr ⟨value, hrest⟩)

/-- A value put at a path changes nothing at paths that part ways from it. -/
theorem at?_setAt_of_diverge (v new : Json) {path other : ResponsePath} (h : path.Diverge other) :
    (v.setAt new path).at? other = v.at? other := by
  induction h generalizing v with
  | head p q hne => rw [at?, at?, step?_setAt_of_ne v new hne]
  | @tail a p q _ ih =>
    cases hstep : v.step? a with
    | none => rw [setAt_of_step?_eq_none hstep]
    | some child => rw [at?_cons (step?_setAt_self hstep new p), at?_cons hstep, ih]

end Json

end DocumentEngine
