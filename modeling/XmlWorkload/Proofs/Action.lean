import Mathlib.Data.List.TakeWhile
import XmlWorkload.Action
import XmlWorkload.Name

/-!
# What actions do

The outcome of each way to make an action.  An action that puts names down in an order is described
by what its states show: it succeeds when all of them are names, and otherwise fails at the first
that is none.  Main statement: such descriptions compose, the names of the second action behind
those of the first.
-/

set_option autoImplicit false

namespace XmlWorkload

namespace Name

/-- The first of some texts that is no name. -/
def firstInvalid? (names : List String) : Option String := names.find? fun name => !isValid name

/-- The first invalid name of two rows is that of the first row, or else that of the second one. -/
theorem firstInvalid?_append (first second : List String) :
    firstInvalid? (first ++ second) = (firstInvalid? first).or (firstInvalid? second) :=
  List.find?_append

/-- There is no invalid name exactly when all names are valid. -/
theorem firstInvalid?_eq_none_iff {names : List String} :
    firstInvalid? names = none ↔ ∀ name ∈ names, isValid name = true := by
  simp [firstInvalid?]

/-- A text that is found to be no name is one of the texts, and no name. -/
theorem of_firstInvalid?_eq_some {names : List String} {name : String}
    (h : firstInvalid? names = some name) : name ∈ names ∧ isValid name = false := by
  have hfound := List.find?_some h
  exact ⟨List.mem_of_find?_eq_some h, by simpa using hfound⟩

/-- Texts that are names can be left out in front of others. -/
theorem firstInvalid?_append_of_valid {first : List String} (second : List String)
    (h : ∀ name ∈ first, isValid name = true) :
    firstInvalid? (first ++ second) = firstInvalid? second := by
  rw [firstInvalid?_append, firstInvalid?_eq_none_iff.2 h, Option.none_or]

/-- Without a text that is no name, nothing is cut off in front of the first one. -/
theorem takeWhile_isValid {names : List String} (h : firstInvalid? names = none) :
    names.takeWhile isValid = names :=
  List.takeWhile_eq_self_iff.2 (firstInvalid?_eq_none_iff.1 h)

/-- A name that is not valid is refused, with the name itself in the error. -/
theorem validate_of_not_isValid {name : String} (h : isValid name = false) :
    validate name = .error (.invalidName name) := by
  simp [validate, h]

end Name

namespace Action

variable {σ τ δ α β : Type}

/-- An action that only gives a value leaves the state as it is. -/
@[simp]
theorem run_pure (value : α) (state : σ) : (pure value : Action σ α).run state = (.ok value, state) :=
  rfl

/-- Looking at the state gives it and leaves it as it is. -/
@[simp]
theorem run_getState (state : σ) : (getState : Action σ σ).run state = (.ok state, state) := rfl

/-- A change of the state succeeds. -/
@[simp]
theorem run_change (f : σ → σ) (state : σ) : (change f).run state = (.ok (), f state) := rfl

/-- An action that fails leaves the state as it is. -/
@[simp]
theorem run_fail (error : Error) (state : σ) :
    (fail error : Action σ α).run state = (.error error, state) := rfl

/-- A result that was there already leaves the state as it is. -/
@[simp]
theorem run_ofExcept (result : Except Error α) (state : σ) :
    (ofExcept result).run state = (result, state) := rfl

/-- An attempt succeeds with the result of the action, and the state is what the action makes of it.
-/
@[simp]
theorem run_attempt (action : Action σ α) (state : σ) :
    action.attempt.run state = (.ok (action.run state).1, (action.run state).2) := rfl

/-- An action on a part of the state changes that part alone. -/
@[simp]
theorem run_on (part : τ → σ) (replace : σ → τ → τ) (action : Action σ α) (state : τ) :
    (action.on part replace).run state =
      ((action.run (part state)).1, replace (action.run (part state)).2 state) := rfl

/-- Behind an action that succeeds the next one runs with its value. -/
theorem run_bind_of_ok {action : Action σ α} {state left : σ} {value : α}
    (h : action.run state = (.ok value, left)) (next : α → Action σ β) :
    (action >>= next).run state = (next value).run left := by
  show andThen action next state = _
  rw [andThen, show action state = (.ok value, left) from h]
  rfl

/-- Behind an action that fails nothing more happens. -/
theorem run_bind_of_error {action : Action σ α} {state left : σ} {error : Error}
    (h : action.run state = (.error error, left)) (next : α → Action σ β) :
    (action >>= next).run state = (.error error, left) := by
  show andThen action next state = _
  rw [andThen, show action state = (.error error, left) from h]

/-- Two actions in a row succeed only if the first one does. -/
theorem of_bind_eq_ok {action : Action σ α} {next : α → Action σ β} {state left : σ} {value : β}
    (h : (action >>= next).run state = (.ok value, left)) :
    ∃ middle between, action.run state = (.ok middle, between) ∧
      (next middle).run between = (.ok value, left) := by
  rcases hrun : action.run state with ⟨error | middle, between⟩
  · rw [run_bind_of_error hrun] at h
    cases h
  · rw [run_bind_of_ok hrun] at h
    exact ⟨middle, between, rfl, h⟩

/-- What follows a look at the state runs with the state. -/
@[simp]
theorem run_getState_bind (next : σ → Action σ β) (state : σ) :
    (getState >>= next).run state = (next state).run state := rfl

/-- What follows a change of the state runs behind the change. -/
@[simp]
theorem run_change_bind (f : σ → σ) (next : Unit → Action σ β) (state : σ) :
    (change f >>= next).run state = (next ()).run (f state) := rfl

/-- What follows a result that succeeded runs with its value. -/
theorem run_ofExcept_bind_of_ok {result : Except Error α} {value : α} (h : result = .ok value)
    (next : α → Action σ β) (state : σ) :
    (ofExcept result >>= next).run state = (next value).run state :=
  run_bind_of_ok (by rw [run_ofExcept, h]) next

/-- Nothing follows a result that failed. -/
theorem run_ofExcept_bind_of_error {result : Except Error α} {error : Error}
    (h : result = .error error) (next : α → Action σ β) (state : σ) :
    (ofExcept result >>= next).run state = (.error error, state) :=
  run_bind_of_error (by rw [run_ofExcept, h]) next

/-- What an action does that puts names down in an order, told by what states show: it leads from
one thing shown to another and gives a value, unless one of the names is none, and then it fails at
the first such one and leaves a safe state. -/
def Writes (shows : δ → σ → Prop) (safe : σ → Prop) (names : List String) (action : Action σ α)
    (before : δ) (value : α) (after : δ) : Prop :=
  ∀ state, shows before state →
    match Name.firstInvalid? names with
    | none => ∃ left, action.run state = (.ok value, left) ∧ shows after left
    | some name => ∃ left, action.run state = (.error (.invalidName name), left) ∧ safe left

namespace Writes

variable {shows : δ → σ → Prop} {safe : σ → Prop}

/-- One action after another puts the names of both down. -/
theorem bind {first second : List String} {action : Action σ α} {next : α → Action σ β}
    {before middle after : δ} {value : α} {result : β}
    (h₁ : Writes shows safe first action before value middle)
    (h₂ : Writes shows safe second (next value) middle result after) :
    Writes shows safe (first ++ second) (action >>= next) before result after := by
  intro state hstate
  have hfirst := h₁ state hstate
  rw [Name.firstInvalid?_append]
  cases hnames : Name.firstInvalid? first with
  | some name =>
    rw [hnames] at hfirst
    obtain ⟨left, hleft, hsafe⟩ := hfirst
    exact ⟨left, run_bind_of_error hleft next, hsafe⟩
  | none =>
    rw [hnames] at hfirst
    obtain ⟨left, hleft, hshows⟩ := hfirst
    rw [Option.none_or, run_bind_of_ok hleft]
    exact h₂ left hshows

/-- The names to be checked may be written in another way. -/
theorem of_eq {names names' : List String} {action : Action σ α} {before after : δ} {value : α}
    (hnames : names' = names) (h : Writes shows safe names action before value after) :
    Writes shows safe names' action before value after := by
  rw [hnames]
  exact h

/-- An action that always succeeds puts no names down. -/
theorem of_ok {action : Action σ α} {before after : δ} {value : α}
    (h : ∀ state, shows before state →
      ∃ left, action.run state = (.ok value, left) ∧ shows after left) :
    Writes shows safe [] action before value after := h

/-- Giving a value does nothing. -/
theorem pure (value : α) (before : δ) :
    Writes shows safe [] (Pure.pure value) before value before :=
  of_ok fun state hstate => ⟨state, rfl, hstate⟩

/-- On a part of the state an action puts the same names down, if showing the part is enough to show
the whole before and after. -/
theorem on {shown : Type} {shows' : shown → τ → Prop} {safe' : τ → Prop} {part : τ → σ}
    {replace : σ → τ → τ} {names : List String} {action : Action σ α} {before after : δ}
    {before' after' : shown} {value : α}
    (h : Writes shows safe names action before value after)
    (hpart : ∀ state, shows' before' state → shows before (part state))
    (hshows : ∀ state left, shows' before' state → shows after left →
      shows' after' (replace left state))
    (hsafe : ∀ state left, safe left → safe' (replace left state)) :
    Writes shows' safe' names (action.on part replace) before' value after' := by
  intro state hstate
  have hrun := h (part state) (hpart state hstate)
  rw [run_on]
  cases hnames : Name.firstInvalid? names with
  | none =>
    rw [hnames] at hrun
    obtain ⟨left, hrun, hleft⟩ := hrun
    rw [hrun]
    exact ⟨_, rfl, hshows state left hstate hleft⟩
  | some name =>
    rw [hnames] at hrun
    obtain ⟨left, hrun, hleft⟩ := hrun
    rw [hrun]
    exact ⟨_, rfl, hsafe state left hleft⟩

/-- An action that succeeds exactly under a name puts that name down. -/
theorem of_name {action : Action σ α} {before after : δ} {value : α} {name : String}
    (hvalid : Name.isValid name = true → ∀ state, shows before state →
      ∃ left, action.run state = (.ok value, left) ∧ shows after left)
    (hinvalid : Name.isValid name = false → ∀ state, shows before state →
      ∃ left, action.run state = (.error (.invalidName name), left) ∧ safe left) :
    Writes shows safe [name] action before value after := by
  intro state hstate
  cases hname : Name.isValid name with
  | true =>
    have hnone : Name.firstInvalid? [name] = none := by simp [Name.firstInvalid?, hname]
    rw [hnone]
    exact hvalid hname state hstate
  | false =>
    have hsome : Name.firstInvalid? [name] = some name := by simp [Name.firstInvalid?, hname]
    rw [hsome]
    exact hinvalid hname state hstate

end Writes

end Action

end XmlWorkload
