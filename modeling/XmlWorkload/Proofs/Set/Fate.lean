import XmlWorkload.Proofs.Set.Creation
import XmlWorkload.Proofs.Set.Making
import XmlWorkload.Proofs.Set.Service

/-!
# What becomes of the documents of a set

Whatever callers do to a set of documents on a disk with room, and in whatever order their steps
fall, the set stays sound: the claims of the callers are those that the documents count, and each
document has followed what was granted on its index.  Main statement: an index never gets a second
document, a set that was closed leaves every document closed or failed and every text as it is, and a
closed document has the reference document of what was granted on its index (`fate_of_documents`).
-/

set_option autoImplicit false

namespace XmlWorkload

namespace Stage

/-- The documents that a caller can use, by their numbers. -/
def claims : Stage → List Nat
  | .idle => []
  | .holding _ number _ => [number]
  | .leaving number => [number]
  | .closing entries => entries.map Prod.snd

/-- The documents that a caller has still to close, by their numbers. -/
def pending : Stage → List Nat
  | .closing entries => entries.map Prod.snd
  | _ => []

/-- What a caller is still to close it holds. -/
theorem pending_subset (stage : Stage) : ∀ number ∈ stage.pending, number ∈ stage.claims := by
  intro number hnumber
  cases stage with
  | closing entries => exact hnumber
  | idle => cases hnumber
  | holding index number' emission => cases hnumber
  | leaving number' => cases hnumber

/-- What callers add up to when one of them is looked at first. -/
theorem flatMap_perm {α : Type} (f : Stage → List α) (before after : List Stage) (stage : Stage) :
    ((before ++ stage :: after).flatMap f).Perm (f stage ++ (before ++ after).flatMap f) := by
  rw [List.flatMap_append, List.flatMap_cons, List.flatMap_append]
  exact List.perm_append_comm_assoc _ _ _

/-- Callers that are in the middle of nothing can use no document and have none to close. -/
theorem nothing_of_idle {callers : List Stage} (h : ∀ stage ∈ callers, stage = .idle) :
    callers.flatMap claims = [] ∧ callers.flatMap pending = [] := by
  rw [List.flatMap_eq_nil_iff, List.flatMap_eq_nil_iff]
  constructor
  · intro stage hstage
    rw [h stage hstage]
    rfl
  · intro stage hstage
    rw [h stage hstage]
    rfl

end Stage

namespace Service

/-- A set of documents with its callers is sound: the set is, for what the callers can use and have
to close, and whoever looked a document up holds the one of its index. -/
structure Sound (origin : MountedSet) (service : Service) : Prop where
  mounted : MountedSet.Sound origin service.made (service.callers.flatMap Stage.claims)
    (service.callers.flatMap Stage.pending) (fun index => grantedOn index service.log)
    service.mounted
  holding : ∀ (index number : Nat) (emission : Emission),
    .holding index number emission ∈ service.callers → service.made[number]? = some index

variable {origin : MountedSet} {service later : Service}

/-- The set of a sound service, with the caller that takes the next step first. -/
theorem Sound.focus (h : Sound origin service) {before after : List Stage} {stage : Stage}
    (hcallers : service.callers = before ++ stage :: after) :
    MountedSet.Sound origin service.made (stage.claims ++ (before ++ after).flatMap Stage.claims)
      (stage.pending ++ (before ++ after).flatMap Stage.pending)
      (fun index => grantedOn index service.log) service.mounted := by
  have hmounted := h.mounted
  rw [hcallers] at hmounted
  exact hmounted.of_perm (Stage.flatMap_perm _ before after stage)
    (Stage.flatMap_perm _ before after stage)

/-- A service is sound when its set is, with the caller that took the last step first. -/
theorem Sound.of_focus (before after : List Stage) (stage : Stage)
    (hcallers : service.callers = before ++ stage :: after)
    (hmounted : MountedSet.Sound origin service.made
      (stage.claims ++ (before ++ after).flatMap Stage.claims)
      (stage.pending ++ (before ++ after).flatMap Stage.pending)
      (fun index => grantedOn index service.log) service.mounted)
    (hholding : ∀ (index number : Nat) (emission : Emission),
      .holding index number emission ∈ service.callers → service.made[number]? = some index) :
    Sound origin service := by
  refine ⟨?_, hholding⟩
  rw [hcallers]
  exact hmounted.of_perm (Stage.flatMap_perm _ before after stage).symm
    (Stage.flatMap_perm _ before after stage).symm

/-- What callers are still to close they hold. -/
theorem pending_subset (callers : List Stage) :
    ∀ number ∈ callers.flatMap Stage.pending, number ∈ callers.flatMap Stage.claims := by
  intro number hnumber
  obtain ⟨stage, hstage, hpending⟩ := List.mem_flatMap.1 hnumber
  exact List.mem_flatMap.2 ⟨stage, hstage, stage.pending_subset number hpending⟩

/-- One more record grants one more emission on its index if it was granted. -/
theorem grantedOn_concat (index : Nat) (log : List Record) (record : Record) :
    grantedOn index (log ++ [record]) = grantedOn index log ++
      if record.index = index then Document.granted record.emission record.result else [] := by
  simp [grantedOn]

/-- Holding callers among others, one of whom is not holding. -/
theorem holding_of_replace {before after : List Stage} {stage stage' : Stage} {made : List Nat}
    (hholding : ∀ (index number : Nat) (emission : Emission),
      .holding index number emission ∈ before ++ stage :: after → made[number]? = some index)
    (hstage : ∀ (index number : Nat) (emission : Emission),
      stage' = .holding index number emission → made[number]? = some index) :
    ∀ (index number : Nat) (emission : Emission),
      .holding index number emission ∈ before ++ stage' :: after → made[number]? = some index := by
  have hall : ∀ other ∈ before ++ stage :: after, ∀ (index number : Nat) (emission : Emission),
      other = .holding index number emission → made[number]? = some index := by
    rintro other hother index number emission rfl
    exact hholding index number emission hother
  intro index number emission hmem
  exact forall_replace hall hstage _ hmem index number emission rfl

/-- Every step of a caller keeps a service sound. -/
theorem Sound.step (h : Sound origin service) (hstep : Step service later) :
    Sound origin later := by
  have hholding := h.holding
  -- in each case the caller that takes the step is put first and back in its place behind it
  cases hstep with
  | @lookUp before after index emission hcallers =>
    rw [hcallers] at hholding
    have hfocus := h.focus hcallers
    have hacquire := hfocus.acquire index
    rcases hrun : (MountedSet.acquire index).run service.mounted with ⟨error | number, left⟩
    · rw [hrun] at hacquire
      obtain rfl : left = service.mounted := hacquire
      apply Sound.of_focus before after .idle
      · simp only [Service.lookUp, hrun, stageAfterLookUp]
      · simp only [Service.lookUp, hrun, Nat.sub_self, List.replicate_zero, List.append_nil]
        exact hfocus
      · simp only [Service.lookUp, hrun, stageAfterLookUp, Nat.sub_self, List.replicate_zero,
          List.append_nil]
        exact hholding
    · rw [hrun] at hacquire
      obtain ⟨hindex, hsound⟩ := hacquire
      apply Sound.of_focus before after (.holding index number emission)
      · simp only [Service.lookUp, hrun, stageAfterLookUp]
      · simp only [Service.lookUp, hrun]
        exact hsound
      · simp only [Service.lookUp, hrun, stageAfterLookUp]
        refine holding_of_replace (?_ : ∀ (index number : Nat) (emission : Emission),
          .holding index number emission ∈ before ++ .idle :: after → _) ?_
        · intro index' number' emission' hmem
          have hbefore := hholding index' number' emission' hmem
          rw [List.getElem?_append_left (List.getElem?_eq_some_iff.1 hbefore).1]
          exact hbefore
        · rintro index' number' emission' ⟨⟩
          exact hindex
  | @write before after index number emission hcallers =>
    rw [hcallers] at hholding
    have hindex := hholding index number emission (by simp)
    have hfocus := h.focus hcallers
    have hemit := hfocus.emitTo List.mem_cons_self hindex emission
    apply Sound.of_focus before after (.leaving number) rfl
    · simp only [Service.write, grantedOn_concat]
      exact hemit
    · apply holding_of_replace hholding
      rintro index' number' emission' ⟨⟩
  | @leave before after number hcallers =>
    rw [hcallers] at hholding
    have hfocus := h.focus hcallers
    apply Sound.of_focus before after .idle rfl
    · exact hfocus.release (pending_subset (before ++ after))
    · apply holding_of_replace hholding
      rintro index' number' emission' ⟨⟩
  | @drain before after hcallers =>
    rw [hcallers] at hholding
    have hfocus := h.focus hcallers
    apply Sound.of_focus before after (.closing service.mounted.drain.1) rfl
    · exact hfocus.drain
    · apply holding_of_replace hholding
      rintro index' number' emission' ⟨⟩
  | @closeNext before after entry rest hcallers =>
    rw [hcallers] at hholding
    have hfocus := h.focus hcallers
    apply Sound.of_focus before after (.closing rest) rfl
    · apply hfocus.closeDrained
      intro number hnumber
      rcases List.mem_append.1 hnumber with hrest | hothers
      · exact List.mem_append_left _ hrest
      · exact List.mem_append_right _ (pending_subset (before ++ after) number hothers)
    · apply holding_of_replace hholding
      rintro index' number' emission' ⟨⟩
  | @finish before after hcallers =>
    rw [hcallers] at hholding
    have hfocus := h.focus hcallers
    refine Sound.of_focus before after .idle rfl hfocus ?_
    apply holding_of_replace hholding
    rintro index' number' emission' ⟨⟩

/-- Whatever steps callers take, a service stays sound. -/
theorem Sound.reaches (h : Sound origin service) (hreaches : Reaches service later) :
    Sound origin later := by
  induction hreaches with
  | refl => exact h
  | tail _ hstep ih => exact ih.step hstep

/-- A set that was just made is sound, whoever will call it. -/
theorem sound_start {directory root : String} {engine : Engine} {disk left : Disk}
    {set : DocumentSet} (hroom : disk.room = none)
    (hcreate : (DocumentSet.create directory root engine).run disk = (.ok set, left))
    (callers : Nat) : Sound ⟨set, left⟩ (start ⟨set, left⟩ callers) := by
  obtain ⟨hroot, hprepare, rfl⟩ := DocumentSet.of_create hcreate
  have hleft : left.room = none := by
    have hsame := DocumentSet.sameFiles_prepare directory disk
    rw [hprepare] at hsame
    exact hsame.room.trans hroom
  have hidle : ∀ stage ∈ List.replicate callers Stage.idle, stage = .idle :=
    fun _ hstage => List.eq_of_mem_replicate hstage
  obtain ⟨hclaims, hpending⟩ := Stage.nothing_of_idle hidle
  refine ⟨?_, ?_⟩
  · rw [start, hclaims, hpending]
    exact
      { directory := rfl
        root := rfl
        engine := rfl
        validRoot := (Name.validate_eq_ok_iff root).1 hroot
        room := hleft
        count := rfl
        files := rfl
        nodup := List.nodup_nil
        registry := rfl
        holders := by
          intro number shared hshared
          cases hshared
        follows := by
          intro number shared index hshared
          cases hshared
        claimed := by
          intro number hnumber
          cases hnumber
        pendingClaimed := by
          intro number hnumber
          cases hnumber
        live := by
          intro hclosed
          cases hclosed
        unused := fun _ _ => rfl }
  · intro index number emission hmem
    cases List.eq_of_mem_replicate hmem

/-- The set was closed, and the caller who took its documents out has closed them all. -/
def Drained (service : Service) : Prop :=
  service.mounted.set.isClosed = true ∧ ∀ stage ∈ service.callers, stage.pending = []

/-- Once all documents were closed none of them is live. -/
theorem Sound.dead_of_drained (h : Sound origin service) (hdrained : Drained service)
    {number : Nat} {shared : SharedDocument}
    (hshared : service.mounted.set.documents[number]? = some shared) :
    shared.document.status ≠ .live := by
  intro hlive
  have hpending := h.mounted.live hdrained.1 number shared hshared hlive
  obtain ⟨stage, hstage, hnumber⟩ := List.mem_flatMap.1 hpending
  rw [hdrained.2 stage hstage] at hnumber
  cases hnumber

/-- Once all documents were closed no step of a caller changes a text. -/
theorem Sound.text?_step (h : Sound origin service) (hdrained : Drained service)
    (hstep : Step service later) :
    Drained later ∧ ∀ number, later.mounted.text? number = service.mounted.text? number := by
  obtain ⟨hclosed, hpending⟩ := hdrained
  have hreplace : ∀ {before after : List Stage} {stage stage' : Stage},
      service.callers = before ++ stage :: after → stage'.pending = [] →
        ∀ other ∈ before ++ stage' :: after, other.pending = [] := by
    intro before after stage stage' hcallers hstage'
    rw [hcallers] at hpending
    exact forall_replace hpending hstage'
  cases hstep with
  | @lookUp before after index emission hcallers =>
    have hrun := MountedSet.run_acquire_of_closed hclosed index
    refine ⟨⟨?_, ?_⟩, ?_⟩
    · simp only [Service.lookUp, hrun, hclosed]
    · simp only [Service.lookUp, hrun, stageAfterLookUp]
      exact hreplace hcallers rfl
    · intro number
      simp only [Service.lookUp, hrun]
  | @write before after index number emission hcallers =>
    have hfocus := h.focus hcallers
    obtain ⟨shared, -, hshared, -⟩ := hfocus.ledger.exists_shared (hfocus.claimed number List.mem_cons_self)
    have hdead := h.dead_of_drained ⟨hclosed, hpending⟩ hshared
    have hsame := MountedSet.emitTo_of_not_live hshared hdead emission
    refine ⟨⟨?_, hreplace hcallers rfl⟩, ?_⟩
    · simp only [Service.write, hsame, hclosed]
    · intro number'
      simp only [Service.write, hsame]
  | @leave before after number hcallers =>
    have hfocus := h.focus hcallers
    obtain ⟨shared, -, hshared, -⟩ := hfocus.ledger.exists_shared (hfocus.claimed number List.mem_cons_self)
    refine ⟨⟨?_, hreplace hcallers rfl⟩, hfocus.text?_release⟩
    simp only [Service.leave, MountedSet.release_eq hshared, hclosed]
  | @drain before after hcallers =>
    have hnothing : service.mounted.drain.1 = [] := by
      unfold MountedSet.drain
      rw [h.mounted.registry, if_pos hclosed]
      exact List.mergeSort_nil
    refine ⟨⟨rfl, ?_⟩, fun _ => rfl⟩
    apply hreplace hcallers
    rw [hnothing]
    rfl
  | @closeNext before after entry rest hcallers =>
    have hentry := hpending (.closing (entry :: rest)) (by rw [hcallers]; simp)
    cases hentry
  | @finish before after hcallers =>
    exact ⟨⟨hclosed, hreplace hcallers rfl⟩, fun _ => rfl⟩

/-- Once a set is drained the texts of its documents stay as they are. -/
theorem Sound.text?_reaches (h : Sound origin service) (hdrained : Drained service)
    (hreaches : Reaches service later) (number : Nat) :
    later.mounted.text? number = service.mounted.text? number := by
  have hall : Drained later ∧
      ∀ number, later.mounted.text? number = service.mounted.text? number := by
    induction hreaches with
    | refl => exact ⟨hdrained, fun _ => rfl⟩
    | tail hreaches hstep ih =>
      obtain ⟨hdrained', htext⟩ := ih
      obtain ⟨hdrained'', htext'⟩ := (h.reaches hreaches).text?_step hdrained' hstep
      exact ⟨hdrained'', fun number => (htext' number).trans (htext number)⟩
  exact hall.2 number

/-- What becomes of the documents of a set on a disk with room, whatever its callers do in whatever
order their steps fall.  No index has more than one document, and there is one new file for each
document.  Once the set was closed and its documents were, each of them is closed or failed, and no
later step changes its text.  And a closed document has exactly the reference document of what was
granted on its index, in the order in which it was written. -/
theorem fate_of_documents {directory root : String} {engine : Engine} {disk left : Disk}
    {set : DocumentSet} (hroom : disk.room = none)
    (hcreate : (DocumentSet.create directory root engine).run disk = (.ok set, left))
    (callers : Nat) {service : Service}
    (hreaches : Reaches (start ⟨set, left⟩ callers) service) :
    (service.made.Nodup ∧ service.mounted.set.documents.size = service.made.length ∧
      service.mounted.disk.contents.size = left.contents.size + service.made.length ∧
      ∀ (number : Nat) (shared : SharedDocument),
        service.mounted.set.documents[number]? = some shared →
          shared.document.sink.output.file = left.contents.size + number) ∧
    (Drained service →
      (∀ (number : Nat) (shared : SharedDocument),
        service.mounted.set.documents[number]? = some shared →
          shared.document.status = .closed ∨ ∃ reason, shared.document.status = .failed reason) ∧
      ∀ later, Reaches service later →
        ∀ number, later.mounted.text? number = service.mounted.text? number) ∧
    (∀ (number : Nat) (shared : SharedDocument) (index : Nat),
      service.mounted.set.documents[number]? = some shared → shared.document.status = .closed →
        service.made[number]? = some index → ∃ text,
          Reference.text? engine.declaration root (grantedOn index service.log) = some text ∧
            service.mounted.text? number = some text.toUTF8) := by
  have hsound := (sound_start hroom hcreate callers).reaches hreaches
  obtain ⟨-, -, rfl⟩ := DocumentSet.of_create hcreate
  have hmounted := hsound.mounted
  refine ⟨⟨hmounted.nodup, hmounted.count, hmounted.files, ?_⟩, ?_, ?_⟩
  · intro number shared hshared
    have hnumber : number < service.made.length := by
      rw [← hmounted.count]
      exact (Array.getElem?_eq_some_iff.1 hshared).1
    exact (hmounted.follows number shared _ hshared (List.getElem?_eq_getElem hnumber)).isFile
  · intro hdrained
    refine ⟨?_, fun later hlater => hsound.text?_reaches hdrained hlater⟩
    intro number shared hshared
    have hdead := hsound.dead_of_drained hdrained hshared
    cases hstatus : shared.document.status with
    | live => exact absurd hstatus hdead
    | failed reason => exact .inr ⟨reason, rfl⟩
    | closed => exact .inl rfl
  · intro number shared index hshared hclosed hindex
    obtain ⟨tree, htree, htext⟩ :=
      (hmounted.follows number shared index hshared hindex).text_of_closed hclosed
    refine ⟨Reference.prologue engine.declaration ++ tree.render, ?_, ?_⟩
    · rw [Reference.text?, htree]
      rfl
    · rw [MountedSet.text?, hshared, Option.map_some, htext, Text.toUTF8_append]
      rfl

/-- Two callers of an empty set on a disk with one directory. -/
def smallStart : Service :=
  start ⟨⟨"out", "r", ⟨8, false⟩, [], false, #[]⟩, ⟨[], [(["out"], .directory)], #[], none⟩⟩ 2

/-- The first caller has looked a document up. -/
def smallLookUp : Service := smallStart.lookUp [] [.idle] 7 ⟨["a"], .empty⟩

/-- The second caller has closed the set and the document meanwhile. -/
def smallClose : Service :=
  (smallLookUp.drain [.holding 7 0 ⟨["a"], .empty⟩] []).closeNext
    [.holding 7 0 ⟨["a"], .empty⟩] [] (7, 0) []

/-- A document that one caller has looked up is closed by another one, and whatever comes later its
text stays the same. -/
theorem fate_of_documents_small :
    Disk.empty.room = none ∧
      (DocumentSet.create "out" "r" ⟨8, false⟩).run Disk.empty =
        (.ok smallStart.mounted.set, smallStart.mounted.disk) ∧
      Reaches (start ⟨smallStart.mounted.set, smallStart.mounted.disk⟩ 2) smallClose ∧
      Drained smallClose ∧ smallClose.made = [7] ∧
      smallClose.mounted.disk.contents.size = 1 ∧
      ∀ later, Reaches smallClose later →
        later.mounted.text? 0 = smallClose.mounted.text? 0 := by
  have hcreate : (DocumentSet.create "out" "r" ⟨8, false⟩).run Disk.empty =
      (.ok smallStart.mounted.set, smallStart.mounted.disk) := by rfl
  have hlooked : smallLookUp.callers = [.holding 7 0 ⟨["a"], .empty⟩] ++ .idle :: [] := by rfl
  have hentries : smallLookUp.mounted.drain.1 = [(7, 0)] := by
    have hregistry : smallLookUp.mounted.set.registry = [(7, 0)] := by rfl
    unfold MountedSet.drain
    rw [hregistry]
    exact List.mergeSort_singleton _
  have hdrained : (smallLookUp.drain [.holding 7 0 ⟨["a"], .empty⟩] []).callers =
      [.holding 7 0 ⟨["a"], .empty⟩] ++ .closing ((7, 0) :: []) :: [] := by
    simp only [Service.drain, hentries]
  have hreaches : Reaches smallStart smallClose :=
    ((Relation.ReflTransGen.single (Step.lookUp 7 ⟨["a"], .empty⟩ rfl)).tail
      (Step.drain hlooked)).tail (Step.closeNext hdrained)
  have hclosed : Drained smallClose := by
    refine ⟨?_, ?_⟩
    · rw [smallClose, Service.closeNext, MountedSet.isClosed_closeDrained]
      rfl
    · intro stage hstage
      rw [smallClose, Service.closeNext] at hstage
      simp only [List.cons_append, List.nil_append, List.mem_cons, List.not_mem_nil,
        or_false] at hstage
      rcases hstage with rfl | rfl <;> rfl
  have hmade : smallClose.made = [7] := by rfl
  obtain ⟨⟨-, -, hfiles, -⟩, hfate, -⟩ := fate_of_documents rfl hcreate 2 hreaches
  rw [hmade] at hfiles
  exact ⟨rfl, hcreate, hreaches, hclosed, hmade, hfiles,
    fun later hlater => (hfate hclosed).2 later hlater 0⟩

end Service

end XmlWorkload
