import XmlWorkload.Proofs.Document.History
import XmlWorkload.Proofs.Run.Steady
import XmlWorkload.Proofs.Set.LeftBehind

/-!
# What workers with files of their own write

A crew whose workers share no file sends each document what the cycles emit to it, in the order of
the cycles, whatever the others do in between.  Main statements: every step keeps a crew traced
(`Crew.Traced.step`, `Crew.Traced.reaches`), so in the end each document is as if nothing but the
emissions to it had happened.
-/

set_option autoImplicit false

namespace XmlWorkload

namespace Document

/-- The history of emissions to one document, the document of an index. -/
def historyOf {σ : Type} [Sink σ] (index : Nat) (emissions : List Emission)
    (document : Document σ) : List Record :=
  List.zipWith (Record.mk index) emissions (emitAll emissions document).1

variable {σ : Type} [Sink σ]

/-- One more emission is the last one of a row. -/
theorem emitAll_concat (emissions : List Emission) (emission : Emission) (document : Document σ) :
    (emitAll (emissions ++ [emission]) document).2 =
      ((emit emission.path emission.template).run (emitAll emissions document).2).2 := by
  induction emissions generalizing document with
  | nil => rfl
  | cons first rest ih => exact ih _

/-- One more emission meets the document that those before it left. -/
theorem historyOf_concat (index : Nat) (emissions : List Emission) (emission : Emission)
    (document : Document σ) :
    historyOf index (emissions ++ [emission]) document = historyOf index emissions document ++
      [⟨index, emission,
        ((emit emission.path emission.template).run (emitAll emissions document).2).1⟩] := by
  induction emissions generalizing document with
  | nil => rfl
  | cons first rest ih => exact congrArg (List.cons _) (ih _)

end Document

/-- The part of a history that concerns an index. -/
def recordsOn (index : Nat) (log : List Record) : List Record :=
  log.filter fun record => record.index == index

/-- What was sent to the document of an index, whatever became of it. -/
def sentTo (index : Nat) (log : List Record) : List Emission :=
  (recordsOn index log).map Record.emission

/-- One more record on an index is the last one on it. -/
theorem recordsOn_concat (index : Nat) (log : List Record) (record : Record) :
    recordsOn index (log ++ [record]) =
      recordsOn index log ++ if record.index = index then [record] else [] := by
  unfold recordsOn
  rw [List.filter_append, List.filter_cons, List.filter_nil]
  by_cases heq : record.index = index
  · rw [if_pos heq, if_pos (beq_iff_eq.2 heq)]
  · rw [if_neg heq, if_neg fun hmeets => heq (beq_iff_eq.1 hmeets)]

/-- One more emission to an index is the last one sent to it. -/
theorem sentTo_concat (index : Nat) (log : List Record) (record : Record) :
    sentTo index (log ++ [record]) =
      sentTo index log ++ if record.index = index then [record.emission] else [] := by
  unfold sentTo
  rw [recordsOn_concat, List.map_append]
  by_cases heq : record.index = index <;> simp [heq]

namespace Crew

/-- The document that stands for an index on a disk of its own, after what was sent to it. -/
def loneAfter (lone : Nat → MountedDocument) (log : List Record) (index : Nat) : MountedDocument :=
  (Document.emitAll (sentTo index log) (lone index)).2

/-- A crew is traced: no two of its workers have a file in common; what was sent to a file and what
is still to be sent is what the cycles emit to it, in their order; the results are those on a disk
of its own; and so are the documents. -/
structure Traced (workload : Workload) (range : CycleRange) (origin : MountedSet)
    (lone : Nat → MountedDocument) (crew : Crew) : Prop where
  apart : crew.workers.Pairwise fun first second =>
    workload.Apart range.seed first.todo second.todo
  order : ∀ index, sentTo index crew.log ++
    (crew.workers.flatMap Worker.todo).flatMap (workload.emitsTo range.seed index) =
      workload.emissionsTo range index
  records : ∀ index, recordsOn index crew.log =
    Document.historyOf index (sentTo index crew.log) (lone index)
  unused : ∀ index, index ∉ crew.made → sentTo index crew.log = []
  mirrors : MountedSet.Mirrors origin crew.made (loneAfter lone crew.log) crew.mounted

variable {workload : Workload} {range : CycleRange} {origin : MountedSet} {crew later : Crew}
  {lone : Nat → MountedDocument} {stream : XmlStream MountedWriter} {written : MountedWriter}

section Apart

variable {before after : List Worker} {worker worker' : Worker}

/-- Workers stay apart when one of them has less to do. -/
theorem apart_replace
    (h : (before ++ worker :: after).Pairwise fun first second =>
      workload.Apart range.seed first.todo second.todo)
    (hless : ∀ cycle ∈ worker'.todo, cycle ∈ worker.todo) :
    (before ++ worker' :: after).Pairwise fun first second =>
      workload.Apart range.seed first.todo second.todo := by
  rw [List.pairwise_middle fun hapart => hapart.symm, List.pairwise_cons] at h ⊢
  exact ⟨fun other hother cycle hcycle => h.1 other hother cycle (hless cycle hcycle), h.2⟩

/-- The cycle in hand comes before all other cycles that emit to its file. -/
theorem emitsTo_append_eq {cycle : Nat} {rest : List Nat} {index : Nat}
    (h : (before ++ worker :: after).Pairwise fun first second =>
      workload.Apart range.seed first.todo second.todo)
    (htodo : worker.todo = cycle :: rest) (htodo' : worker'.todo = rest) :
    ((before ++ worker :: after).flatMap Worker.todo).flatMap
        (workload.emitsTo range.seed index) =
      workload.emitsTo range.seed index cycle ++
        ((before ++ worker' :: after).flatMap Worker.todo).flatMap
          (workload.emitsTo range.seed index) := by
  rw [List.pairwise_middle fun hapart => hapart.symm, List.pairwise_cons] at h
  simp only [List.flatMap_append, List.flatMap_cons, htodo, htodo', List.append_assoc]
  by_cases hmeets : workload.meets range.seed index cycle = true
  · obtain ⟨step, hresolve, rfl⟩ := Workload.meets_iff.1 hmeets
    have hnothing : (before.flatMap Worker.todo).flatMap
        (workload.emitsTo range.seed step.file) = [] := by
      rw [List.flatMap_assoc, List.flatMap_eq_nil_iff]
      intro other hother
      apply (h.1 other (List.mem_append_left _ hother)).flatMap_emitsTo _ hresolve
      rw [htodo]
      exact List.mem_cons_self
    rw [hnothing]
    rfl
  · have hnothing : workload.emitsTo range.seed index cycle = [] := by
      simpa [Workload.meets] using hmeets
    rw [hnothing]
    rfl

end Apart

namespace Traced

/-- A worker that writes what its cycle in hand emits sends the next of the emissions to its
file. -/
theorem step_write (hsteady : Steady workload range origin crew)
    (h : Traced workload range origin lone crew) {before after : List Worker} {rest : List Nat}
    {metrics : Metrics} {step : CycleStep} {number : Nat}
    (hworkers : crew.workers =
      before ++ ⟨step.cycle :: rest, .holding step.file number step.emission, metrics⟩ :: after)
    (hresolve : workload.resolve range.seed step.cycle = .ok step) :
    Traced workload range origin lone
      (crew.write before after step.cycle rest metrics step.file number step.emission) := by
  have hindex : crew.made[number]? = some step.file :=
    hsteady.service.holding step.file number step.emission (by simp [callers_eq hworkers])
  let outcome :=
    (MountedSet.emitTo number step.emission.path step.emission.template).run crew.mounted
  let record : Record := ⟨step.file, step.emission, outcome.1⟩
  have hothers : ∀ other, other ≠ step.file →
      loneAfter lone (crew.log ++ [record]) other = loneAfter lone crew.log other := by
    intro other hother
    unfold loneAfter
    rw [sentTo_concat, if_neg hother.symm, List.append_nil]
  have hown : loneAfter lone (crew.log ++ [record]) step.file =
      ((Document.emit step.emission.path step.emission.template).run
        (loneAfter lone crew.log step.file)).2 := by
    unfold loneAfter
    rw [sentTo_concat, if_pos rfl, Document.emitAll_concat]
  obtain ⟨hresult, hmirrors⟩ :=
    MountedSet.Mirrors.emitTo hsteady.service.mounted h.mirrors hindex step.emission hown hothers
  have hapart := h.apart
  have horder := h.order
  rw [hworkers] at hapart horder
  refine
    { apart := apart_replace hapart fun cycle hcycle => List.mem_cons_of_mem _ hcycle
      order := ?_
      records := ?_
      unused := ?_
      mirrors := hmirrors }
  · intro index
    let later := crew.write before after step.cycle rest metrics step.file number step.emission
    have hmove : _ = workload.emitsTo range.seed index step.cycle ++
        (later.workers.flatMap Worker.todo).flatMap (workload.emitsTo range.seed index) :=
      emitsTo_append_eq hapart rfl rfl
    rw [← horder index, hmove, Workload.emitsTo_of_ok hresolve, ← List.append_assoc]
    exact congrArg (· ++ _) (sentTo_concat index crew.log record)
  · intro index
    show recordsOn index (crew.log ++ [record]) =
      Document.historyOf index (sentTo index (crew.log ++ [record])) (lone index)
    rw [recordsOn_concat, sentTo_concat]
    by_cases heq : step.file = index
    · subst heq
      rw [if_pos rfl, if_pos rfl, Document.historyOf_concat, ← h.records]
      have hrecord := congrArg (Record.mk step.file step.emission) hresult
      exact congrArg (fun last => recordsOn step.file crew.log ++ [last]) hrecord
    · rw [if_neg heq, if_neg heq, List.append_nil, List.append_nil]
      exact h.records index
  · intro index hnew
    show sentTo index (crew.log ++ [record]) = []
    have hne : step.file ≠ index := by
      rintro rfl
      exact hnew (List.mem_of_getElem? hindex)
    rw [sentTo_concat, if_neg hne, List.append_nil]
    exact h.unused index hnew

/-- Every step of a worker keeps a crew traced. -/
theorem step (hprepared : Prepared workload range origin)
    (hstream : XmlStream.create (MountedSet.loneWriter origin.set.engine) origin.set.root
      origin.set.engine.declaration = (.ok stream, written))
    (hlone : ∀ index, lone index = Document.new (origin.set.filePath index) stream)
    (hsteady : Steady workload range origin crew) (h : Traced workload range origin lone crew)
    (hstep : Step workload range.seed crew later) : Traced workload range origin lone later := by
  have hapart := h.apart
  cases hstep with
  | @skip before after cycle rest metrics error hworkers hresolve hmild =>
    have horder := h.order
    rw [hworkers] at hapart horder
    refine
      { apart := apart_replace hapart fun other hother => List.mem_cons_of_mem _ hother
        order := ?_
        records := h.records
        unused := h.unused
        mirrors := h.mirrors }
    intro index
    let later := crew.skip before after cycle rest metrics error
    have hmove : _ = workload.emitsTo range.seed index cycle ++
        (later.workers.flatMap Worker.todo).flatMap (workload.emitsTo range.seed index) :=
      emitsTo_append_eq hapart rfl rfl
    rw [← horder index, hmove, Workload.emitsTo_of_error hresolve]
    rfl
  | @lookUp before after cycle rest metrics step hworkers hresolve =>
    have hcycle : cycle ∈ range.cycles :=
      hsteady.todo ⟨cycle :: rest, .idle, metrics⟩ (by simp [hworkers]) cycle List.mem_cons_self
    obtain ⟨number, left, hrun, -⟩ := hsteady.acquire_ok hprepared hcycle hresolve
    have hlater : (crew.lookUp before after cycle rest metrics step).workers =
        before ++ ⟨cycle :: rest, .holding step.file number step.emission, metrics⟩ :: after := by
      simp only [lookUp, hrun]
      rfl
    have hsame := todo_replace hworkers hlater rfl
    -- nothing was sent yet to a document that is made now
    have hnothing : step.file ∉ crew.made →
        loneAfter lone crew.log step.file =
          Document.new (origin.set.filePath step.file) stream := by
      intro hnew
      unfold loneAfter
      rw [h.unused step.file hnew, hlone]
      rfl
    rw [hworkers] at hapart
    refine
      { apart := ?_
        order := ?_
        records := h.records
        unused := fun index hnew => h.unused index fun hmem => hnew (List.mem_append_left _ hmem)
        mirrors := h.mirrors.acquire hsteady.service.mounted hsteady.isOpen hstream hnothing }
    · rw [hlater]
      exact apart_replace hapart fun other hother => hother
    · intro index
      rw [hsame]
      exact h.order index
  | @write before after cycle rest metrics index number emission hworkers =>
    obtain ⟨step, hresolve, rfl, rfl⟩ := hsteady.fits.of_holding hworkers
    obtain ⟨rfl, -⟩ := Workload.of_resolve hresolve
    exact h.step_write hsteady hworkers hresolve
  | @leave before after todo metrics number hworkers =>
    have hfocus := hsteady.service.focus (callers_eq hworkers)
    have hsame : (crew.leave before after todo metrics number).workers.flatMap Worker.todo =
        crew.workers.flatMap Worker.todo := todo_replace hworkers rfl rfl
    rw [hworkers] at hapart
    refine
      { apart := apart_replace hapart fun other hother => hother
        order := ?_
        records := h.records
        unused := h.unused
        mirrors := MountedSet.Mirrors.release hfocus hsteady.isOpen h.mirrors }
    intro index
    rw [hsame]
    exact h.order index

/-- In whatever order the workers take their steps, a crew stays traced. -/
theorem reaches (hprepared : Prepared workload range origin)
    (hstream : XmlStream.create (MountedSet.loneWriter origin.set.engine) origin.set.root
      origin.set.engine.declaration = (.ok stream, written))
    (hlone : ∀ index, lone index = Document.new (origin.set.filePath index) stream)
    (hsteady : Steady workload range origin crew) (h : Traced workload range origin lone crew)
    (hreaches : Reaches workload range.seed crew later) :
    Traced workload range origin lone later := by
  induction hreaches with
  | refl => exact h
  | tail hbefore hstep ih =>
    exact ih.step hprepared hstream hlone (hsteady.reaches hprepared hbefore) hstep

/-- When a crew is done each document was sent what the cycles emit to it, in their order. -/
theorem sentTo_of_done (h : Traced workload range origin lone crew) (hdone : crew.IsDone)
    (index : Nat) : sentTo index crew.log = workload.emissionsTo range index := by
  have hnothing : crew.workers.flatMap Worker.todo = [] := by
    rw [List.flatMap_eq_nil_iff]
    exact fun worker hworker => (hdone worker hworker).1
  have horder := h.order index
  rw [hnothing, List.flatMap_nil, List.append_nil] at horder
  exact horder

end Traced

/-- Workers with files of their own are traced before anything happens. -/
theorem traced_start {directory root : String} {engine : Engine} {disk left : Disk}
    {set : DocumentSet}
    (hcreate : (DocumentSet.create directory root engine).run disk = (.ok set, left))
    {workers : Nat} (hworkers : 0 < workers) (hexclusive : workload.Exclusive range workers)
    (lone : Nat → MountedDocument) :
    Traced workload range ⟨set, left⟩ lone (start range workers ⟨set, left⟩) where
  apart := List.pairwise_map.2 hexclusive.pairwise
  order := by
    intro index
    rw [todo_start]
    exact Workload.emissionsTo_eq_of_exclusive hexclusive hworkers index
  records := fun _ => rfl
  unused := fun _ _ => rfl
  mirrors := by
    intro number shared hshared
    obtain ⟨-, -, hset⟩ := DocumentSet.of_create hcreate
    change set.documents[number]? = some shared at hshared
    rw [hset] at hshared
    cases hshared

end Crew

end XmlWorkload
