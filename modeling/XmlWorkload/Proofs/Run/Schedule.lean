import XmlWorkload.Proofs.Run.Counted
import XmlWorkload.Proofs.Run.Outcome
import XmlWorkload.Proofs.Run.Traced

/-!
# Runs with one worker and with many

On a disk on which no operation fails, workers that share no file come to what one worker alone
comes to, whatever fails otherwise and in whatever order their steps fall.  Main statement: the
indices in use, everything that can be seen of the documents before and after they are closed, and
the totals are the same (`Crew.same_as_alone`).
-/

set_option autoImplicit false

namespace XmlWorkload

namespace MountedSet

/-- What can be seen of the document with an index. -/
def viewOf? (index : Nat) (mounted : MountedSet) : Option DocumentView :=
  (mounted.find? index).bind mounted.view?

/-- What can be seen of the document with an index after the set was closed. -/
def closedViewOf? (index : Nat) (mounted : MountedSet) : Option DocumentView :=
  (mounted.find? index).bind mounted.closeDocuments.2.view?

end MountedSet

/-- Histories that agree on every index are the same up to the order of what concerns different
indices. -/
theorem perm_of_recordsOn_eq {first second : List Record}
    (h : ∀ index, recordsOn index first = recordsOn index second) : first.Perm second := by
  classical
  rw [List.perm_iff_count]
  intro record
  have hcount := congrArg (List.count record) (h record.index)
  unfold recordsOn at hcount
  rwa [List.count_filter (by simp), List.count_filter (by simp)] at hcount

namespace Crew

variable {workload : Workload} {range : CycleRange} {origin : MountedSet} {crew : Crew}
  {lone : Nat → MountedDocument}

/-- The document with a number is found under an index exactly if it was made for the index. -/
theorem Steady.find?_eq_some_iff (h : Steady workload range origin crew) (index number : Nat) :
    crew.mounted.find? index = some number ↔ crew.made[number]? = some index :=
  h.service.mounted.ledger.find?_eq_some_iff h.isOpen

/-- No document is found under an index for which none was made. -/
theorem Steady.find?_eq_none (h : Steady workload range origin crew) {index : Nat}
    (hnew : index ∉ crew.made) : crew.mounted.find? index = none :=
  (h.service.mounted.ledger.find?_eq_none_iff h.isOpen).2 hnew

/-- The indices in use when a crew is done are those of the files of its cycles. -/
theorem Steady.indices_of_done (h : Steady workload range origin crew) (hdone : crew.IsDone) :
    crew.mounted.set.indices = (workload.fileIndices range).mergeSort := by
  have hregistry := h.service.mounted.registry
  change crew.mounted.set.registry = if crew.mounted.set.isClosed = true then [] else
    crew.made.zipIdx at hregistry
  rw [if_neg (by simp [h.isOpen])] at hregistry
  have hperm : crew.made.Perm (workload.fileIndices range) :=
    (List.perm_ext_iff_of_nodup h.service.mounted.nodup (List.nodup_dedup _)).2
      (h.mem_made_iff hdone)
  unfold DocumentSet.indices
  rw [hregistry, List.zipIdx_map_fst]
  have hsorted : ∀ indices : List Nat, indices.mergeSort.Pairwise (· ≤ ·) :=
    List.pairwise_mergeSort' (· ≤ ·)
  apply List.Perm.eq_of_pairwise' (hsorted crew.made) (hsorted (workload.fileIndices range))
  exact ((List.mergeSort_perm _ _).trans hperm).trans (List.mergeSort_perm _ _).symm

/-- What is seen of the documents of a crew that is done is seen under the indices of the files of
its cycles, and under no other. -/
theorem Steady.seen_of_done {α : Type} (h : Steady workload range origin crew)
    (hdone : crew.IsDone) {index : Nat} {see : Nat → Option α} {value : α}
    (hsee : ∀ number, crew.made[number]? = some index → see number = some value) :
    (crew.mounted.find? index).bind see =
      if index ∈ workload.fileIndices range then some value else none := by
  have hmade := h.mem_made_iff hdone index
  by_cases hindex : index ∈ crew.made
  · obtain ⟨number, hnumber⟩ := List.getElem?_of_mem hindex
    rw [if_pos (hmade.1 hindex), (h.find?_eq_some_iff index number).2 hnumber, Option.bind_some,
      hsee number hnumber]
  · rw [if_neg fun hfile => hindex (hmade.2 hfile), h.find?_eq_none hindex, Option.bind_none]

/-- What a document of a crew that is done looks like depends on the cycles alone. -/
theorem Traced.viewOf?_of_done (hsteady : Steady workload range origin crew)
    (h : Traced workload range origin lone crew) (hdone : crew.IsDone) (index : Nat) :
    crew.mounted.viewOf? index =
      if index ∈ workload.fileIndices range then
        some (Document.emitAll (workload.emissionsTo range index) (lone index)).2.view
      else none := by
  apply hsteady.seen_of_done hdone
  intro number hindex
  rw [← h.sentTo_of_done hdone]
  exact h.mirrors.view?_eq hsteady.service.mounted hsteady.isOpen hindex

/-- What a document of a crew that is done is left behind as depends on the cycles alone. -/
theorem Traced.closedViewOf?_of_done (hsteady : Steady workload range origin crew)
    (h : Traced workload range origin lone crew) (hdone : crew.IsDone) (index : Nat) :
    crew.mounted.closedViewOf? index =
      if index ∈ workload.fileIndices range then
        some (Document.emitAll (workload.emissionsTo range index) (lone index)).2.leftBehind
      else none := by
  have hmounted := mounted_of_done hsteady.service hdone
  apply hsteady.seen_of_done hdone
  intro number hindex
  rw [← h.sentTo_of_done hdone]
  exact h.mirrors.closeDocuments hmounted hsteady.isOpen hindex

/-- The history of an index depends on the cycles alone. -/
theorem Traced.recordsOn_of_done (h : Traced workload range origin lone crew)
    (hdone : crew.IsDone) (index : Nat) :
    recordsOn index crew.log =
      Document.historyOf index (workload.emissionsTo range index) (lone index) := by
  rw [h.records, h.sentTo_of_done hdone]

/-- Two runs came to the same: the indices in use, what can be seen of the document with each index
before and after the set is closed, and the numbers of cycles that were carried out, that wrote
their element and that failed. -/
structure SameOutcome (first second : Metrics × MountedSet) : Prop where
  indices : first.2.set.indices = second.2.set.indices
  view : ∀ index, first.2.viewOf? index = second.2.viewOf? index
  closedView : ∀ index, first.2.closedViewOf? index = second.2.closedViewOf? index
  attempted : first.1.attempted = second.1.attempted
  emitted : first.1.emitted = second.1.emitted
  failures : first.1.failures = second.1.failures

/-- Crews that are done have come to the same when both have traced the same cycles. -/
theorem sameOutcome_of_done {other : Crew} (hsteady : Steady workload range origin crew)
    (htraced : Traced workload range origin lone crew) (hcounted : Counted range crew)
    (hdone : crew.IsDone) (hsteady' : Steady workload range origin other)
    (htraced' : Traced workload range origin lone other) (hcounted' : Counted range other)
    (hdone' : other.IsDone) :
    SameOutcome (crew.metrics, crew.mounted) (other.metrics, other.mounted) := by
  obtain ⟨hattempted, hemitted, hsum⟩ := hcounted.totals hdone
  obtain ⟨hattempted', hemitted', hsum'⟩ := hcounted'.totals hdone'
  have hlogs : crew.log.Perm other.log := by
    apply perm_of_recordsOn_eq
    intro index
    rw [htraced.recordsOn_of_done hdone, htraced'.recordsOn_of_done hdone']
  have hgrants : grants crew.log = grants other.log := hlogs.countP_eq _
  refine
    { indices := ?_
      view := ?_
      closedView := ?_
      attempted := hattempted.trans hattempted'.symm
      emitted := ?_
      failures := ?_ }
  · rw [hsteady.indices_of_done hdone, hsteady'.indices_of_done hdone']
  · intro index
    rw [htraced.viewOf?_of_done hsteady hdone, htraced'.viewOf?_of_done hsteady' hdone']
  · intro index
    rw [htraced.closedViewOf?_of_done hsteady hdone, htraced'.closedViewOf?_of_done hsteady' hdone']
  · rw [hemitted, hemitted', hgrants]
  · show crew.metrics.failures = other.metrics.failures
    omega

/-- Workers that share no file come to what one worker alone comes to, on a disk on which no
operation fails and in whatever order their steps fall: with room, a directory that was made ready,
and files that can be made in it.  The steps come to an end, and then all cycles were carried out
unless one of them ends the work of its worker.  If they were, the indices in use, everything that
can be seen of the document with each index before and after the set is closed, and the totals are
those of one worker who carries out the same cycles.  If they were not, neither tells anything. -/
theorem same_as_alone {directory root : String} {engine : Engine} {disk left : Disk}
    {set : DocumentSet} (hroom : disk.room = none)
    (hcreate : (DocumentSet.create directory root engine).run disk = (.ok set, left))
    (hprepared : Prepared workload range ⟨set, left⟩) {workers : Nat} (hworkers : 0 < workers)
    (hexclusive : workload.Exclusive range workers) :
    let alone := MountedSet.populate workload range 1 ⟨set, left⟩
    (∃ crew, Reaches workload range.seed (start range workers ⟨set, left⟩) crew ∧
      crew.IsOver workload range.seed) ∧
    ∀ crew, Reaches workload range.seed (start range workers ⟨set, left⟩) crew →
      crew.IsOver workload range.seed →
      (crew.IsDone ↔ ∀ cycle ∈ range.cycles, ¬ workload.Overflows range.seed cycle) ∧
      (crew.IsDone → ∃ metrics, alone.1 = .ok metrics ∧
        SameOutcome (crew.metrics, crew.mounted) (metrics, alone.2)) ∧
      (¬ crew.IsDone → crew.work = .error .overflow ∧ alone.1 = .error .overflow) := by
  intro alone
  let origin : MountedSet := ⟨set, left⟩
  refine ⟨exists_over (fits_start range workers origin), ?_⟩
  intro crew hreaches hover
  -- the program carries the cycles out in one of the orders in which one worker can
  obtain ⟨single, hreaches', hover', hpopulate⟩ := reaches_populate workload range 1 origin
  have halone : alone = (single.work, single.mounted) := hpopulate
  have hiff := isDone_iff_of_start range hworkers hreaches hover
  have hiff' := isDone_iff_of_start range Nat.one_pos hreaches' hover'
  refine ⟨hiff, ?_, ?_⟩
  · intro hdone
    have hdone' : single.IsDone := hiff'.2 (hiff.1 hdone)
    have hsteady : Steady workload range origin (start range workers origin) :=
      steady_start hroom hcreate hworkers
    have hsteady' : Steady workload range origin (start range 1 origin) :=
      steady_start hroom hcreate Nat.one_pos
    obtain ⟨stream, written, hstream⟩ :=
      MountedSet.exists_loneStream set.engine hsteady.service.mounted.validRoot
    let lone := fun index => Document.new (set.filePath index) stream
    have htraced : Traced workload range origin lone (start range workers origin) :=
      traced_start hcreate hworkers hexclusive lone
    have htraced' : Traced workload range origin lone (start range 1 origin) :=
      traced_start hcreate Nat.one_pos (workload.exclusive_one range) lone
    rw [halone, work_of_isDone hdone']
    refine ⟨single.metrics, rfl, ?_⟩
    exact sameOutcome_of_done (hsteady.reaches hprepared hreaches)
      (htraced.reaches hprepared hstream (fun _ => rfl) hsteady hreaches)
      ((counted_start hworkers origin).reaches hreaches) hdone
      (hsteady'.reaches hprepared hreaches')
      (htraced'.reaches hprepared hstream (fun _ => rfl) hsteady' hreaches')
      ((counted_start Nat.one_pos origin).reaches hreaches') hdone'
  · intro hnot
    have hnot' : ¬ single.IsDone := fun hdone' => hnot (hiff.2 (hiff'.1 hdone'))
    rw [halone]
    exact ⟨work_of_not_isDone hover hnot, work_of_not_isDone hover' hnot'⟩

/-- A workload whose cycles write to two files in turn. -/
def pairedWorkload : Workload := .plain 2 Nat.two_pos

/-- Four cycles, the first of which is odd. -/
def pairedRange : CycleRange := ⟨42, 1, 4⟩

/-- An empty set in the only directory of a disk. -/
def pairedSet : MountedSet :=
  ⟨⟨"out", "root", .shared, [], false, #[]⟩, ⟨[], [(["out"], .directory)], #[], none⟩⟩

/-- The cycles of the paired workload write to two files in turn. -/
theorem resolve_paired (seed cycle : Nat) : pairedWorkload.resolve seed cycle =
    .ok ⟨cycle, "op0", .element, cycle % 2, ["n"], .empty⟩ :=
  Workload.resolve_plain Nat.two_pos seed cycle

/-- Of two workers one has the odd cycles and the other the even ones. -/
theorem exclusive_paired (range : CycleRange) : pairedWorkload.Exclusive range 2 := by
  intro first hfirst second hsecond cycle hcycle other hother step step' hstep hstep' hfile
  rw [resolve_paired] at hstep hstep'
  cases hstep
  cases hstep'
  have hparity : cycle % 2 = other % 2 := hfile
  rw [range.mem_cyclesOf_iff hfirst] at hcycle
  rw [range.mem_cyclesOf_iff hsecond] at hother
  omega

/-- The files of the paired workload can be made. -/
theorem prepared_paired : Prepared pairedWorkload pairedRange pairedSet := by
  have hfirst : pairedSet.disk.createFile (Path.join "out" (DocumentSet.fileName 0)) =
      (.ok 0, { pairedSet.disk.addEntry ["out", "xml0.xml"] (.file 0) with
        contents := #[.empty] }) := by rfl
  have hsecond : pairedSet.disk.createFile (Path.join "out" (DocumentSet.fileName 1)) =
      (.ok 0, { pairedSet.disk.addEntry ["out", "xml1.xml"] (.file 0) with
        contents := #[.empty] }) := by rfl
  intro cycle _ step hstep
  rw [resolve_paired] at hstep
  cases hstep
  rcases Nat.mod_two_eq_zero_or_one cycle with heven | hodd
  · rw [heven]
    exact ⟨0, _, hfirst⟩
  · rw [hodd]
    exact ⟨0, _, hsecond⟩

/-- However the steps of two workers fall who carry out four cycles in two files, they come to what
one worker comes to. -/
theorem same_as_alone_paired :
    Disk.empty.room = none ∧
      (DocumentSet.create "out" "root" .shared).run Disk.empty =
        (.ok pairedSet.set, pairedSet.disk) ∧
      Prepared pairedWorkload pairedRange ⟨pairedSet.set, pairedSet.disk⟩ ∧ 0 < 2 ∧
      pairedWorkload.Exclusive pairedRange 2 ∧
      (∃ crew, Reaches pairedWorkload 42 (start pairedRange 2 pairedSet) crew ∧ crew.IsDone) ∧
      ∀ crew, Reaches pairedWorkload 42 (start pairedRange 2 pairedSet) crew → crew.IsDone →
        ∃ metrics, (MountedSet.populate pairedWorkload pairedRange 1 pairedSet).1 = .ok metrics ∧
          SameOutcome (crew.metrics, crew.mounted)
            (metrics, (MountedSet.populate pairedWorkload pairedRange 1 pairedSet).2) := by
  have hcreate : (DocumentSet.create "out" "root" .shared).run Disk.empty =
      (.ok pairedSet.set, pairedSet.disk) := by rfl
  have hexclusive := exclusive_paired pairedRange
  obtain ⟨⟨crew, hreaches, hover⟩, hsame⟩ :=
    same_as_alone rfl hcreate prepared_paired Nat.two_pos hexclusive
  have hresolves : ∀ cycle ∈ pairedRange.cycles, ¬ pairedWorkload.Overflows 42 cycle :=
    fun cycle _ => Workload.not_overflows_of_resolve (resolve_paired 42 cycle)
  refine ⟨rfl, hcreate, prepared_paired, Nat.two_pos, hexclusive,
    ⟨crew, hreaches, (hsame crew hreaches hover).1.2 hresolves⟩, ?_⟩
  intro crew hreaches hdone
  exact (hsame crew hreaches hdone.isOver).2.1 hdone

end Crew

end XmlWorkload
