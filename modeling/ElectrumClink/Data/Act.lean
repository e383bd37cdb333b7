import Mathlib.Logic.Basic

/-!
# Stateful computations that can raise

`Act σ α` runs on a state of type `σ` and returns a value of type `α`, or raises; what it wrote
before it raised stays written.

The evaluation lemmas run a computation on a given state, one statement at a time.
-/

universe u v

/-- A computation over a state: the value, or `none` when it raises, and the state it leaves. -/
def Act (σ : Type u) (α : Type v) := σ → Option α × σ

namespace Act

variable {σ : Type u} {α β : Type v}

/-- Run `f` on the result of `x`, unless `x` raised. -/
protected def bind (x : Act σ α) (f : α → Act σ β) : Act σ β := fun s =>
  match x s with
  | (some a, t) => f a t
  | (none, t) => (none, t)

instance : Monad (Act σ) where
  pure a := fun s => (some a, s)
  bind := Act.bind

/-- Read the state. -/
def get {σ : Type u} : Act σ σ := fun s => (some s, s)

/-- Change the state. -/
def modify (f : σ → σ) : Act σ Unit := fun s => (some (), f s)

/-- Raise an exception. -/
def raise : Act σ α := fun s => (none, s)

/-! ## Evaluation -/

@[simp]
theorem pure_apply (a : α) (s : σ) : (pure a : Act σ α) s = (some a, s) := rfl

@[simp]
theorem get_apply (s : σ) : (get : Act σ σ) s = (some s, s) := rfl

@[simp]
theorem modify_apply (f : σ → σ) (s : σ) : modify f s = (some (), f s) := rfl

@[simp]
theorem raise_apply (s : σ) : (raise : Act σ α) s = (none, s) := rfl

/-- After a computation that returned, the rest runs on what it returned and left. -/
theorem bind_of_returned {x : Act σ α} {f : α → Act σ β} {s t : σ} {a : α}
    (h : x s = (some a, t)) : (x >>= f) s = f a t := by
  show Act.bind x f s = f a t
  rw [Act.bind, h]

/-- After a computation that raised, nothing runs. -/
theorem bind_of_raised {x : Act σ α} {f : α → Act σ β} {s t : σ} (h : x s = (none, t)) :
    (x >>= f) s = (none, t) := by
  show Act.bind x f s = (none, t)
  rw [Act.bind, h]

/-- Returning a fixed value at the end changes no state. -/
theorem bind_pure_snd (x : Act σ α) (b : β) (s : σ) :
    ((x >>= fun _ => pure b) s).2 = (x s).2 := by
  show (Act.bind x (fun _ => pure b) s).2 = (x s).2
  rw [Act.bind]
  rcases x s with ⟨_ | _, t⟩ <;> rfl

@[simp]
theorem ite_apply (p : Prop) [Decidable p] (x y : Act σ α) (s : σ) :
    (if p then x else y) s = if p then x s else y s := by
  split <;> rfl

end Act
