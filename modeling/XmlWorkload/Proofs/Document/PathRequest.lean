import XmlWorkload.Document.OpenTree
import XmlWorkload.Proofs.Action

/-!
# Requests to open and close paths

The operations on the open elements of a document as data, so that rows of them can be spoken of.
Main statement: what opening and closing a path keep, every row of requests keeps
(`PathRequest.performAll_keeps`).
-/

set_option autoImplicit false

namespace XmlWorkload

/-- A request for the open elements of a document. -/
inductive PathRequest where
  | opening (path : List String)
  | closing (path : List String)
  | replacing (path : List String)
  deriving DecidableEq, Repr

namespace PathRequest

variable {σ : Type} [Sink σ]

/-- Makes a request, which gives the number of the element at its path unless it closes it. -/
def perform : PathRequest → Action (OpenTree × σ) (Option Nat)
  | .opening path => do
    let element ← OpenTree.openPath path
    pure (some element)
  | .closing path => do
    OpenTree.closePath path
    pure none
  | .replacing path => do
    let element ← OpenTree.replacePath path
    pure (some element)

/-- What is left of a tree and its sink by requests one after the other, whatever becomes of each. -/
def performAll (requests : List PathRequest) (state : OpenTree × σ) : OpenTree × σ :=
  requests.foldl (fun state request => (request.perform.run state).2) state

/-- Giving something else than an action does leaves what the action leaves. -/
theorem run_bind_pure {τ α β : Type} (action : Action τ α) (f : α → β) (state : τ) :
    ((action >>= fun value => pure (f value)).run state).2 = (action.run state).2 := by
  rcases hrun : action.run state with ⟨error | value, left⟩
  · rw [Action.run_bind_of_error hrun]
  · rw [Action.run_bind_of_ok hrun]
    rfl

/-- What a request makes of something that only depends on which paths are opened and closed. -/
def effect {δ : Type} (opened closed : List String → δ → δ) : PathRequest → δ → δ
  | .opening path, before => opened path before
  | .closing path, before => closed path before
  | .replacing path, before => opened path (closed path before)

section Keeping

variable {δ : Type} (opened closed : List String → δ → δ) (kept : δ → OpenTree × σ → Prop)
  (hopen : ∀ path before state, kept before state →
    kept (opened path before) ((OpenTree.openPath path).run state).2)
  (hclose : ∀ path before state, kept before state →
    ∃ left, (OpenTree.closePath path).run state = (.ok (), left) ∧ kept (closed path before) left)

include hopen hclose

/-- A request keeps what opening and closing keep. -/
theorem perform_keeps (request : PathRequest) {before : δ} {state : OpenTree × σ}
    (h : kept before state) :
    kept (request.effect opened closed before) (request.perform.run state).2 := by
  cases request with
  | opening path =>
    rw [perform, run_bind_pure]
    exact hopen path before state h
  | closing path =>
    obtain ⟨left, hleft, hkept⟩ := hclose path before state h
    rw [perform, run_bind_pure, hleft]
    exact hkept
  | replacing path =>
    obtain ⟨left, hleft, hkept⟩ := hclose path before state h
    rw [perform, run_bind_pure, OpenTree.replacePath, Action.run_bind_of_ok hleft]
    exact hopen path _ left hkept

/-- What opening and closing a path keep, every row of requests keeps. -/
theorem performAll_keeps (requests : List PathRequest) (before : δ) {state : OpenTree × σ}
    (h : kept before state) :
    kept (requests.foldl (fun before request => request.effect opened closed before) before)
      (performAll requests state) := by
  induction requests generalizing before state with
  | nil => exact h
  | cons request rest ih => exact ih _ (perform_keeps opened closed kept hopen hclose request h)

end Keeping

end PathRequest

end XmlWorkload
