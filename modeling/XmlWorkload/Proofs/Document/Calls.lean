import XmlWorkload.Proofs.Document.Alike
import XmlWorkload.Proofs.Document.Closing

/-!
# Rows of calls to a document

A document is called to write an emission or to be closed.  Main statements: a document that is not
live is left as it is by every row of calls (`performAll_of_not_live`), and documents in the same
state answer a row of calls in the same way until the first one is failed by its sink
(`performAll_until`).
-/

set_option autoImplicit false

namespace XmlWorkload.Document

/-- A call to a document. -/
inductive Call where
  | emit (emission : Emission)
  | close

variable {σ τ : Type} [Sink σ] [Sink τ]

/-- What a call does. -/
def Call.action : Call → Action (Document σ) Unit
  | .emit emission => Document.emit emission.path emission.template
  | .close => Document.close

/-- Calls to a document one after the other, whatever becomes of each, with their results. -/
def performAll : List Call → Document σ → List (Except Error Unit) × Document σ
  | [], document => ([], document)
  | call :: rest, document =>
    let first := call.action.run document
    let others := performAll rest first.2
    (first.1 :: others.1, others.2)

/-- The emission of a call, if it has one and was granted. -/
def Call.granted : Call → Except Error Unit → List Emission
  | .emit emission, result => Document.granted emission result
  | .close, _ => []

/-- The emissions that were granted, given the results of all calls. -/
def grantedIn : List Call → List (Except Error Unit) → List Emission
  | call :: calls, result :: results => call.granted result ++ grantedIn calls results
  | _, _ => []

section Resting

variable {document : Document σ}

/-- A document that is not live refuses every emission, and stays as it is. -/
theorem emit_refused (hlive : document.status ≠ .live) (emission : Emission) :
    ∃ error, (emit emission.path emission.template).run document = (.error error, document) := by
  by_cases hpath : emission.path = []
  · exact ⟨.emptyPath, emit_of_path_eq_nil emission hpath⟩
  cases hresolve : emission.template.resolve with
  | error error => exact ⟨error, emit_of_resolve_eq_error emission hpath hresolve⟩
  | ok elements =>
    obtain ⟨error, hrun, -⟩ := emit_of_not_live emission hpath hresolve hlive
    exact ⟨error, hrun⟩

/-- A call leaves a document as it is that is not live. -/
theorem Call.action_of_not_live (hlive : document.status ≠ .live) (call : Call) :
    (call.action.run document).2 = document := by
  cases call with
  | emit emission =>
    obtain ⟨error, hrun⟩ := emit_refused hlive emission
    exact congrArg Prod.snd hrun
  | close => exact close_of_not_live hlive

/-- Calls change nothing of a document that is not live. -/
theorem performAll_of_not_live (hlive : document.status ≠ .live) (calls : List Call) :
    (performAll calls document).2 = document := by
  induction calls with
  | nil => rfl
  | cons call rest ih =>
    show (performAll rest (call.action.run document).2).2 = document
    rw [call.action_of_not_live hlive]
    exact ih

end Resting

section Relating

variable {related : σ → τ → Prop} {parted : Error → σ → τ → Prop}

/-- The same call on related sinks comes to the same until one of them raises. -/
theorem Call.action_until (h : Sink.AlikeUntil related parted) (call : Call) :
    Action.AlikeUntil (Related related) (Parted parted) (call.action : Action (Document σ) Unit)
      call.action := by
  cases call with
  | emit emission => exact emit_until h emission.path emission.template
  | close => exact close_until h

/-- Documents that have parted stay so whatever the second one is called to do. -/
theorem performAll_keeps (h : Sink.AlikeUntil related parted) (calls : List Call) {error : Error}
    {first : Document σ} {second : Document τ} (hparted : Parted parted error first second) :
    Parted parted error first (performAll calls second).2 := by
  induction calls generalizing second with
  | nil => exact hparted
  | cons call rest ih => exact ih ((call.action_until h).keeps hparted)

/-- Documents in the same state answer calls in the same way and stay in the same state, unless the
first one is failed on the way; it stays as it is then, and the second one stays parted from it. -/
theorem performAll_until (h : Sink.AlikeUntil related parted) (calls : List Call)
    {first : Document σ} {second : Document τ} (hrelated : Related related first second) :
    ((performAll calls first).1 = (performAll calls second).1 ∧
        Related related (performAll calls first).2 (performAll calls second).2) ∨
      ∃ error, Parted parted error (performAll calls first).2 (performAll calls second).2 := by
  induction calls generalizing first second with
  | nil => exact .inl ⟨rfl, hrelated⟩
  | cons call rest ih =>
    rcases (call.action_until h).outcome hrelated with ⟨hresult, hleft⟩ | ⟨error, -, hparted⟩
    · refine (ih hleft).imp_left fun hrest => ⟨?_, hrest.2⟩
      rw [performAll, performAll, hresult, hrest.1]
    · refine .inr ⟨error, ?_⟩
      have hfailed : (call.action.run first).2.status ≠ .live := by
        rw [hparted.1]
        exact Status.noConfusion
      -- the first document rests from here on, while the second one goes on with the calls
      show Parted parted error (performAll rest (call.action.run first).2).2 _
      rw [performAll_of_not_live hfailed]
      exact performAll_keeps h rest hparted

/-- Documents in the same state on sinks that are alike answer calls in the same way and stay in the
same state. -/
theorem performAll_alike (h : Sink.Alike related) (calls : List Call) {first : Document σ}
    {second : Document τ} (hrelated : Related related first second) :
    (performAll calls first).1 = (performAll calls second).1 ∧
      Related related (performAll calls first).2 (performAll calls second).2 :=
  (performAll_until h.until calls hrelated).resolve_right
    fun ⟨_, _, hparted⟩ => hparted

end Relating

end XmlWorkload.Document
