import DocumentEngine.Engine.Action
import DocumentEngine.Store.Basic
import Mathlib.Data.List.Forall2

/-!
Running actions. What an action gives and leaves is computed step by step; two states are alike when
they hold the same files and made up the same number of identifiers, which is all that an action
can see of a state.
-/

namespace DocumentEngine

/-- States that differ at most in their counters, their log and their notes. -/
structure State.Alike (a b : State) : Prop where
  files : a.files = b.files
  minted : a.minted = b.minted

namespace State.Alike

theorem refl (a : State) : a.Alike a := ⟨rfl, rfl⟩

theorem symm {a b : State} (h : a.Alike b) : b.Alike a := ⟨h.files.symm, h.minted.symm⟩

theorem trans {a b c : State} (h : a.Alike b) (h' : b.Alike c) : a.Alike c :=
  ⟨h.files.trans h'.files, h.minted.trans h'.minted⟩

theorem warn (a : State) (event : String) (fields : List (String × String)) :
    (a.warn event fields).Alike a := ⟨rfl, rfl⟩

end State.Alike

/-- A result that comes of another is the result of what follows it. -/
theorem Except.exists_of_bind_eq_ok {ε α β : Type} {x : Except ε α} {f : α → Except ε β} {b : β}
    (h : x >>= f = .ok b) : ∃ a, x = .ok a ∧ f a = .ok b := by
  cases x with
  | error cause => cases h
  | ok a => exact ⟨a, rfl, h⟩

/-- A function that gives results for a list gives them for its elements, in their order. -/
theorem Except.forall₂_of_mapM_eq_ok {ε α β : Type} {f : α → Except ε β} {xs : List α}
    {ys : List β} (h : xs.mapM f = .ok ys) : List.Forall₂ (fun x y => f x = .ok y) xs ys := by
  induction xs generalizing ys with
  | nil =>
    cases h
    exact .nil
  | cons x xs ih =>
    rw [List.mapM_cons] at h
    obtain ⟨first, hfirst, h⟩ := Except.exists_of_bind_eq_ok h
    obtain ⟨others, hothers, h⟩ := Except.exists_of_bind_eq_ok h
    cases h
    exact .cons hfirst (ih hothers)

/-- What holds of the results of a function for the elements of a list holds of all its results for
the list. -/
theorem Except.forall_of_mapM_eq_ok {ε α β : Type} {f : α → Except ε β} {p : β → Prop} {xs : List α}
    {ys : List β} (hf : ∀ x ∈ xs, ∀ {y}, f x = .ok y → p y) (h : xs.mapM f = .ok ys) :
    ∀ y ∈ ys, p y := by
  have hresults := Except.forall₂_of_mapM_eq_ok h
  clear h
  induction hresults with
  | nil => exact fun _ hmem => absurd hmem List.not_mem_nil
  | cons hfirst _ ih =>
    exact List.forall_mem_cons.mpr ⟨hf _ List.mem_cons_self hfirst,
      ih fun x hx => hf x (List.mem_cons_of_mem _ hx)⟩

/-- A result that is no failure is its value, whatever would stand for a failure. -/
theorem Except.eq_ok_getD {ε α : Type} {x : Except ε α} (h : x.isOk = true) (a : α) :
    x = .ok (x.toOption.getD a) := by
  cases x with
  | error cause => cases h
  | ok b => rfl

namespace Action

variable {ε α β : Type}

/-- An action that fails with an error or changes the state. -/
abbrev Act (ε α : Type) := ExceptT ε (StateM State) α

/-- What an action gives, and the state that it leaves. -/
def exec (x : Act ε α) (state : State) : Except ε α × State := x.run.run state

@[simp]
theorem exec_pure (a : α) (state : State) : exec (pure a : Act ε α) state = (.ok a, state) := rfl

@[simp]
theorem exec_throw (e : ε) (state : State) :
    exec (throw e : Act ε α) state = (.error e, state) := rfl

theorem exec_bind (x : Act ε α) (f : α → Act ε β) (state : State) :
    exec (x >>= f) state =
      match exec x state with
      | (.ok a, state) => exec (f a) state
      | (.error e, state) => (.error e, state) := by
  have hbind : exec (x >>= f) state =
      (ExceptT.bindCont f (exec x state).1).run (exec x state).2 := rfl
  rw [hbind]
  rcases exec x state with ⟨r, state'⟩
  cases r <;> rfl

theorem exec_bind_ok {x : Act ε α} {f : α → Act ε β} {state state' : State} {a : α}
    (h : exec x state = (.ok a, state')) : exec (x >>= f) state = exec (f a) state' := by
  rw [exec_bind, h]

theorem exec_bind_error {x : Act ε α} {f : α → Act ε β} {state state' : State} {e : ε}
    (h : exec x state = (.error e, state')) : exec (x >>= f) state = (.error e, state') := by
  rw [exec_bind, h]

/-- An action that succeeds after another has a result of that. -/
theorem exec_bind_eq_ok {x : Act ε α} {f : α → Act ε β} {state state' : State} {b : β}
    (h : exec (x >>= f) state = (.ok b, state')) :
    ∃ a between, exec x state = (.ok a, between) ∧ exec (f a) between = (.ok b, state') := by
  rw [exec_bind] at h
  rcases hx : exec x state with ⟨result, between⟩
  rw [hx] at h
  cases result with
  | ok a => exact ⟨a, between, rfl, h⟩
  | error cause => cases h

theorem exists_exec_eq_ok {x : Act ε α} {state : State} {a : α}
    (h : (exec x state).1.toOption = some a) : ∃ after, exec x state = (.ok a, after) := by
  rcases hrun : exec x state with ⟨_ | found, after⟩
  · rw [hrun] at h
    cases h
  · rw [hrun] at h
    cases h
    exact ⟨after, rfl⟩

/-- Of two actions, one after the other, the first fails, or the second goes on from its result. -/
theorem exec_bind_cases {x : Act ε α} {f : α → Act ε β} {state state' : State} {result : Except ε β}
    (h : exec (x >>= f) state = (result, state')) :
    (∃ e, exec x state = (.error e, state') ∧ result = .error e) ∨
      ∃ a between, exec x state = (.ok a, between) ∧ exec (f a) between = (result, state') := by
  rw [exec_bind] at h
  rcases hx : exec x state with ⟨cause | a, between⟩
  · rw [hx] at h
    cases h
    exact .inl ⟨cause, rfl, rfl⟩
  · rw [hx] at h
    exact .inr ⟨a, between, rfl, h⟩

theorem exec_bind_pure (x : Act ε α) (g : α → β) (state : State) :
    (exec (x >>= fun a => pure (g a)) state).2 = (exec x state).2 := by
  rw [exec_bind]
  rcases exec x state with ⟨_ | a, after⟩ <;> rfl

theorem exec_discard (x : Act ε α) (state : State) :
    (exec (discard x) state).2 = (exec x state).2 := exec_bind_pure x (fun _ => ()) state

@[simp]
theorem exec_get (state : State) : exec (get : Act ε State) state = (.ok state, state) := rfl

@[simp]
theorem exec_set (new state : State) : exec (set new : Act ε PUnit) state = (.ok ⟨⟩, new) := rfl

@[simp]
theorem exec_modify (f : State → State) (state : State) :
    exec (modify f : Act ε PUnit) state = (.ok ⟨⟩, f state) := rfl

@[simp]
theorem exec_ofExcept (x : Except ε α) (state : State) :
    exec (MonadExcept.ofExcept x : Act ε α) state = (x, state) := by
  cases x <;> rfl

@[simp]
theorem exec_lift (x : Except StoreError α) (state : State) :
    exec (Store.lift x) state = (x, state) := exec_ofExcept x state

@[simp]
theorem exec_engineLift (x : Except EngineError α) (state : State) :
    exec (EngineM.lift x) state = (x, state) := exec_ofExcept x state

theorem exec_outcome (x : EngineM α) (state : State) :
    exec (EngineM.outcome x) state = (.ok (exec x state).1, (exec x state).2) := rfl

theorem exec_ofStore (x : Act StoreError α) (state : State) :
    exec (EngineM.ofStore x) state =
      ((exec x state).1.mapError EngineError.ofStore, (exec x state).2) := by
  rcases h : exec x state with ⟨r, state'⟩
  have hx : x.run state = (r, state') := h
  unfold exec EngineM.ofStore
  change (x.run >>= _ : StateM State _).run state = _
  rw [StateT.run_bind]
  change ((x.run state) >>= _ : Id _) = _
  rw [hx]
  cases r <;> rfl

/-- An action that leaves the files as they are. -/
def Quiet (x : Act ε α) : Prop := ∀ state : State, (exec x state).2.files = state.files

namespace Quiet

theorem of_pure (a : α) : Quiet (pure a : Act ε α) := fun _ => rfl

theorem of_throw (e : ε) : Quiet (throw e : Act ε α) := fun _ => rfl

theorem of_bind {x : Act ε α} {f : α → Act ε β} (hx : Quiet x) (hf : ∀ a, Quiet (f a)) :
    Quiet (x >>= f) := by
  intro state
  have hfiles := hx state
  rw [exec_bind]
  rcases h : exec x state with ⟨r, between⟩
  rw [h] at hfiles
  cases r with
  | ok a => exact (hf a between).trans hfiles
  | error e => exact hfiles

theorem of_modify {f : State → State} (hf : ∀ state, (f state).files = state.files) :
    Quiet (modify f : Act ε PUnit) := hf

theorem of_ite {c : Prop} [Decidable c] {x y : Act ε α} (hx : Quiet x) (hy : Quiet y) :
    Quiet (if c then x else y) := by
  split
  · exact hx
  · exact hy

theorem of_engineLift (x : Except EngineError α) : Quiet (EngineM.lift x) := by
  intro state
  rw [exec_engineLift]

theorem of_ofStore {x : Act StoreError α} (h : Quiet x) : Quiet (EngineM.ofStore x) := by
  intro state
  rw [exec_ofStore]
  exact h state

end Quiet

/-- Two actions that give the same from states alike and leave states alike. -/
def Agree (x y : Act ε α) : Prop :=
  ∀ s s' : State, s.Alike s' → (exec x s).1 = (exec y s').1 ∧ (exec x s).2.Alike (exec y s').2

namespace Agree

theorem of_pure (a : α) : Agree (pure a : Act ε α) (pure a) := fun _ _ h => ⟨rfl, h⟩

theorem of_throw (e : ε) : Agree (throw e : Act ε α) (throw e) := fun _ _ h => ⟨rfl, h⟩

theorem of_bind {x y : Act ε α} {f g : α → Act ε β} (hx : Agree x y)
    (hf : ∀ a, Agree (f a) (g a)) : Agree (x >>= f) (y >>= g) := by
  intro s s' h
  obtain ⟨hvalue, hstate⟩ := hx s s' h
  rw [exec_bind, exec_bind]
  rcases hex : exec x s with ⟨r, t⟩
  rcases hey : exec y s' with ⟨r', t'⟩
  rw [hex, hey] at hvalue hstate
  dsimp only at hvalue hstate
  subst hvalue
  cases r with
  | ok a => exact hf a t t' hstate
  | error e => exact ⟨rfl, hstate⟩

/-- What follows a look at the state may look at all that states alike share. -/
theorem of_get_bind {f g : State → Act ε α} (hf : ∀ s s', s.Alike s' → Agree (f s) (g s')) :
    Agree (get >>= f) (get >>= g) := by
  intro s s' h
  rw [exec_bind_ok (exec_get s), exec_bind_ok (exec_get s')]
  exact hf s s' h s s' h

theorem of_set {a b : State} (h : a.Alike b) :
    Agree (set a : Act ε PUnit) (set b) := fun _ _ _ => ⟨rfl, h⟩

theorem of_modify {f g : State → State} (hf : ∀ s, (f s).Alike s) (hg : ∀ s, (g s).Alike s) :
    Agree (modify f : Act ε PUnit) (modify g) :=
  fun s s' h => ⟨rfl, ((hf s).trans h).trans (hg s').symm⟩

theorem of_lift (x : Except StoreError α) : Agree (Store.lift x) (Store.lift x) := by
  intro s s' h
  rw [exec_lift, exec_lift]
  exact ⟨rfl, h⟩

theorem of_engineLift (x : Except EngineError α) : Agree (EngineM.lift x) (EngineM.lift x) := by
  intro s s' h
  rw [exec_engineLift, exec_engineLift]
  exact ⟨rfl, h⟩

theorem of_map {x y : Act ε α} (f : α → β) (h : Agree x y) : Agree (f <$> x) (f <$> y) := by
  rw [map_eq_pure_bind, map_eq_pure_bind]
  exact .of_bind h fun a => .of_pure (f a)

/-- The outcomes of actions that agree are the same values. -/
theorem of_outcome {x y : EngineM α} (h : Agree x y) :
    Agree (EngineM.outcome x) (EngineM.outcome y) := by
  intro s s' halike
  obtain ⟨hvalue, hstate⟩ := h s s' halike
  rw [exec_outcome, exec_outcome, hvalue]
  exact ⟨rfl, hstate⟩

theorem of_ofStore {x y : Act StoreError α} (h : Agree x y) :
    Agree (EngineM.ofStore x) (EngineM.ofStore y) := by
  intro s s' halike
  obtain ⟨hvalue, hstate⟩ := h s s' halike
  rw [exec_ofStore, exec_ofStore, hvalue]
  exact ⟨rfl, hstate⟩

theorem of_ite {c : Prop} [Decidable c] {x y x' y' : Act ε α} (hx : Agree x x') (hy : Agree y y') :
    Agree (if c then x else y) (if c then x' else y') := by
  split
  · exact hx
  · exact hy

end Agree

end Action

end DocumentEngine
