import Mathlib.Logic.Relation
import XmlWorkload.Document.Set
import XmlWorkload.Proofs.Action
import XmlWorkload.Proofs.Markup.Reference
import XmlWorkload.Proofs.Document.Closing

/-!
# Callers of a set of documents

Any number of callers use one set of documents at the same time, each of them doing one thing after
the other: writing a template, or closing the set.  Writing looks the document up, writes to it, and
lets it go, and closing takes the documents out of the set and closes them one by one; between any
two of these steps others may take theirs.  Main statements: writing a template and closing the set
without interruption are runs of such steps (`reaches_emit`, `reaches_close`).
-/

set_option autoImplicit false

namespace XmlWorkload

/-- What holds of all in a row still does when one of them was replaced by one of which it holds. -/
theorem forall_replace {α : Type} {holds : α → Prop} {before after : List α} {old new : α}
    (h : ∀ other ∈ before ++ old :: after, holds other) (hnew : holds new) :
    ∀ other ∈ before ++ new :: after, holds other := by
  rw [List.forall_mem_append, List.forall_mem_cons] at h ⊢
  exact ⟨h.1, hnew, h.2.2⟩

/-- What a caller is in the middle of. -/
inductive Stage where
  | idle
  /-- The document with a number was looked up under an index, to be written to. -/
  | holding (index number : Nat) (emission : Emission)
  /-- The document with a number was written to. -/
  | leaving (number : Nat)
  /-- The set was closed, and these of its documents are still to be closed. -/
  | closing (entries : List (Nat × Nat))

/-- An emission to the document with an index, with its result. -/
structure Record where
  index : Nat
  emission : Emission
  result : Except Error Unit

/-- A set of documents with its callers and its history. -/
structure Service where
  mounted : MountedSet
  callers : List Stage
  /-- The indices under which documents were made, in the order of their numbers. -/
  made : List Nat
  /-- What was written to documents, in the order in which it happened. -/
  log : List Record

/-- The emissions of a history that were granted on an index. -/
def grantedOn (index : Nat) (log : List Record) : List Emission :=
  log.flatMap fun record =>
    if record.index = index then Document.granted record.emission record.result else []

namespace MountedSet

/-- Writing to a document that cannot be looked up fails as the lookup does. -/
theorem run_emit_of_error {mounted left : MountedSet} {index : Nat} {error : Error}
    (h : (acquire index).run mounted = (.error error, left)) (emission : Emission) :
    (emit index emission.path emission.template).run mounted = (.error error, left) := by
  unfold emit
  rw [Action.run_bind_of_error h]

/-- Writing to the document that was looked up comes to what the document says, and the document is
let go. -/
theorem run_emit_of_ok {mounted left : MountedSet} {index number : Nat}
    (h : (acquire index).run mounted = (.ok number, left)) (emission : Emission) :
    (emit index emission.path emission.template).run mounted =
      (((emitTo number emission.path emission.template).run left).1,
        (((emitTo number emission.path emission.template).run left).2).release number) := by
  unfold emit
  rw [Action.run_bind_of_ok h, Action.run_bind_of_ok (Action.run_attempt _ _)]
  simp

end MountedSet

namespace Service

/-- A set of documents with so many callers before anything happens. -/
def start (mounted : MountedSet) (callers : Nat) : Service :=
  ⟨mounted, List.replicate callers .idle, [], []⟩

/-- What a caller goes on with after a lookup. -/
def stageAfterLookUp (index : Nat) (emission : Emission) : Except Error Nat → Stage
  | .ok number => .holding index number emission
  | .error _ => .idle

/-- A caller between two rows of others looks up the document with an index. -/
def lookUp (service : Service) (before after : List Stage) (index : Nat) (emission : Emission) :
    Service :=
  let outcome := (MountedSet.acquire index).run service.mounted
  let growth := outcome.2.set.documents.size - service.mounted.set.documents.size
  ⟨outcome.2, before ++ stageAfterLookUp index emission outcome.1 :: after,
    service.made ++ List.replicate growth index, service.log⟩

/-- A caller between two rows of others writes to the document that it looked up. -/
def write (service : Service) (before after : List Stage) (index number : Nat)
    (emission : Emission) : Service :=
  let outcome := (MountedSet.emitTo number emission.path emission.template).run service.mounted
  ⟨outcome.2, before ++ .leaving number :: after, service.made,
    service.log ++ [⟨index, emission, outcome.1⟩]⟩

/-- A caller between two rows of others lets its document go. -/
def leave (service : Service) (before after : List Stage) (number : Nat) : Service :=
  { service with
    mounted := service.mounted.release number
    callers := before ++ .idle :: after }

/-- A caller between two rows of others closes the set and takes its documents out. -/
def drain (service : Service) (before after : List Stage) : Service :=
  { service with
    mounted := service.mounted.drain.2
    callers := before ++ .closing service.mounted.drain.1 :: after }

/-- A caller between two rows of others closes the next of the documents that it took out. -/
def closeNext (service : Service) (before after : List Stage) (entry : Nat × Nat)
    (rest : List (Nat × Nat)) : Service :=
  { service with
    mounted := (MountedSet.closeDrained entry service.mounted).2
    callers := before ++ .closing rest :: after }

/-- A caller between two rows of others has closed all documents that it took out. -/
def finish (service : Service) (before after : List Stage) : Service :=
  { service with callers := before ++ .idle :: after }

/-- One step of one caller. -/
inductive Step : Service → Service → Prop where
  | lookUp {service : Service} {before after : List Stage} (index : Nat) (emission : Emission)
      (h : service.callers = before ++ .idle :: after) :
      Step service (service.lookUp before after index emission)
  | write {service : Service} {before after : List Stage} {index number : Nat}
      {emission : Emission}
      (h : service.callers = before ++ .holding index number emission :: after) :
      Step service (service.write before after index number emission)
  | leave {service : Service} {before after : List Stage} {number : Nat}
      (h : service.callers = before ++ .leaving number :: after) :
      Step service (service.leave before after number)
  | drain {service : Service} {before after : List Stage}
      (h : service.callers = before ++ .idle :: after) :
      Step service (service.drain before after)
  | closeNext {service : Service} {before after : List Stage} {entry : Nat × Nat}
      {rest : List (Nat × Nat)}
      (h : service.callers = before ++ .closing (entry :: rest) :: after) :
      Step service (service.closeNext before after entry rest)
  | finish {service : Service} {before after : List Stage}
      (h : service.callers = before ++ .closing [] :: after) :
      Step service (service.finish before after)

/-- What steps of the callers lead to, in any order. -/
abbrev Reaches : Service → Service → Prop := Relation.ReflTransGen Step

/-- Writing a template without interruption is a run of one caller. -/
theorem reaches_emit (service : Service) {before after : List Stage}
    (h : service.callers = before ++ .idle :: after) (index : Nat) (emission : Emission) :
    ∃ later, Reaches service later ∧ later.callers = service.callers ∧
      later.mounted =
        ((MountedSet.emit index emission.path emission.template).run service.mounted).2 := by
  have hlook : Step service (service.lookUp before after index emission) := Step.lookUp _ _ h
  cases hacquire : (MountedSet.acquire index).run service.mounted with
  | mk result mounted =>
    cases result with
    | error error =>
      refine ⟨service.lookUp before after index emission, Relation.ReflTransGen.single hlook, ?_, ?_⟩
      · simp [lookUp, hacquire, stageAfterLookUp, h]
      · rw [MountedSet.run_emit_of_error hacquire]
        simp [lookUp, hacquire]
    | ok number =>
      have hholding : (service.lookUp before after index emission).callers =
          before ++ .holding index number emission :: after := by
        simp [lookUp, hacquire, stageAfterLookUp]
      have hwrite := Step.write hholding
      have hleave := Step.leave (show (((service.lookUp before after index emission).write before
        after index number emission).callers = before ++ .leaving number :: after) from rfl)
      refine ⟨_, ((Relation.ReflTransGen.single hlook).tail hwrite).tail hleave, h.symm, ?_⟩
      rw [MountedSet.run_emit_of_ok hacquire]
      simp [leave, write, lookUp, hacquire]

/-- Closing documents without interruption is a run of the caller that took them out. -/
theorem reaches_closeAll {before after : List Stage} (entries : List (Nat × Nat))
    (service : Service) (h : service.callers = before ++ .closing entries :: after) :
    ∃ later, Reaches service later ∧ later.callers = before ++ .idle :: after ∧
      later.mounted = (MountedSet.closeAll entries service.mounted).2 := by
  induction entries generalizing service with
  | nil => exact ⟨_, Relation.ReflTransGen.single (Step.finish h), rfl, rfl⟩
  | cons entry rest ih =>
    have hnext := Step.closeNext h
    obtain ⟨later, hreaches, hcallers, hmounted⟩ :=
      ih (service.closeNext before after entry rest) rfl
    refine ⟨later, Relation.ReflTransGen.head hnext hreaches, hcallers, ?_⟩
    rw [hmounted]
    rfl

/-- Closing the set without interruption is a run of one caller. -/
theorem reaches_close (service : Service) {before after : List Stage}
    (h : service.callers = before ++ .idle :: after) :
    ∃ later, Reaches service later ∧ later.callers = service.callers ∧
      later.mounted = (MountedSet.close.run service.mounted).2 := by
  have hdrain := Step.drain h
  obtain ⟨later, hreaches, hcallers, hmounted⟩ := reaches_closeAll
    service.mounted.drain.1 (service.drain before after) rfl
  refine ⟨later, Relation.ReflTransGen.head hdrain hreaches, hcallers.trans h.symm, ?_⟩
  rw [hmounted]
  rfl

end Service

end XmlWorkload
