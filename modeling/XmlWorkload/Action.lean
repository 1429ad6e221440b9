import XmlWorkload.Error

/-!
# Actions that may fail

An action on a state gives a result or an error, and in either case the state that it leaves.  What
an action has done before it fails is not undone.
-/

set_option autoImplicit false

namespace XmlWorkload

/-- An action on a state of type `σ` with a result of type `α`. -/
def Action (σ α : Type) : Type := σ → Except Error α × σ

namespace Action

variable {σ τ α β : Type}

/-- The outcome of an action and the state that it leaves. -/
def run (action : Action σ α) (state : σ) : Except Error α × σ := action state

/-- The action that does nothing and gives a result. -/
def give (value : α) : Action σ α := fun state => (.ok value, state)

/-- The action that does nothing and fails. -/
def fail (error : Error) : Action σ α := fun state => (.error error, state)

/-- One action and, unless it fails, another one after it. -/
def andThen (action : Action σ α) (next : α → Action σ β) : Action σ β := fun state =>
  match action state with
  | (.ok value, state) => next value state
  | (.error error, state) => (.error error, state)

instance : Monad (Action σ) where
  pure := give
  bind := andThen

instance : LawfulMonad (Action σ) := LawfulMonad.mk' (Action σ)
  (fun action => by
    funext state
    change andThen action give state = action state
    unfold andThen give
    split <;> simp_all)
  (fun _ _ => rfl)
  (fun action f g => by
    funext state
    change andThen (andThen action f) g state = andThen action (fun a => andThen (f a) g) state
    unfold andThen
    cases h : action state with
    | mk result state => cases result <;> rfl)

/-- The state. -/
def getState : Action σ σ := fun state => (.ok state, state)

/-- Changes the state. -/
def change (f : σ → σ) : Action σ Unit := fun state => (.ok (), f state)

/-- A check or computation that does not look at the state. -/
def ofExcept (result : Except Error α) : Action σ α := fun state => (result, state)

/-- An action whose failure becomes a part of its result. -/
def attempt (action : Action σ α) : Action σ (Except Error α) := fun state =>
  let (result, state) := action state
  (.ok result, state)

/-- An action on a part of the state. -/
def on (part : τ → σ) (replace : σ → τ → τ) (action : Action σ α) : Action τ α := fun state =>
  let (result, changed) := action (part state)
  (result, replace changed state)

end Action

end XmlWorkload
