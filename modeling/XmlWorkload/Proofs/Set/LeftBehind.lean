import XmlWorkload.Proofs.Set.Live
import XmlWorkload.Proofs.Set.Mirror

/-!
# What a set leaves behind

Closing a set that nobody uses any more closes each of its documents and lets it go.  Main
statement: each document is left behind as it would be on a disk of its own, whether it could be
closed or not, with all that was written to it in its file (`MountedSet.Mirrors.closeDocuments`).
-/

set_option autoImplicit false

namespace XmlWorkload.MountedSet

variable {origin : MountedSet} {made claims pending numbers : List Nat}
  {taken : Nat → List Emission} {mounted : MountedSet} {lone : Nat → MountedDocument}
  {entry : Nat × Nat}

/-- Modifying a document twice is modifying it by both changes. -/
theorem modify_modify (documents : Array SharedDocument) (number : Nat)
    (first second : SharedDocument → SharedDocument) :
    (documents.modify number first).modify number second =
      documents.modify number fun shared => second (first shared) := by
  apply Array.ext_getElem?
  intro other
  simp only [Array.getElem?_modify]
  split
  · rw [Option.map_map]
    rfl
  · rfl

/-- A document that only the closing caller can use is closed, and its file receives all of it. -/
theorem Sound.closeDrained_last
    (h : Sound origin made (entry.2 :: claims) (entry.2 :: pending) taken mounted)
    {shared : SharedDocument} (hshared : mounted.set.documents[entry.2]? = some shared)
    (hlast : shared.holders = 1) :
    let outcome := FileDocument.act Document.close (shared.document, mounted.disk)
    let file := origin.disk.contents.size + entry.2
    ∃ disk, (MountedSet.closeDrained entry mounted).2 =
        ⟨{ mounted.set with
            documents := mounted.set.documents.modify entry.2 fun before =>
              ⟨outcome.2.1, before.holders - 1⟩ }, disk⟩ ∧
      Disk.SameBut file mounted.disk disk ∧
      disk.contentsOf file = outcome.2.1.text outcome.2.2 := by
  intro outcome file
  have hnumber := h.claimed entry.2 List.mem_cons_self
  have hindex := List.getElem?_eq_getElem hnumber
  have hheld : shared.holders ≠ 0 := by omega
  obtain ⟨hafter, hframe, -⟩ := ((h.follows entry.2 shared _ hshared hindex).held hheld).act_close
  obtain ⟨hframe', hcontents⟩ := hafter.discard
  refine ⟨outcome.2.1.discard outcome.2.2, ?_, hframe.trans hframe', hcontents⟩
  have hclosed : (mounted.set.documents.modify entry.2 fun before =>
      { before with document := outcome.2.1 })[entry.2]? = some ⟨outcome.2.1, 1⟩ := by
    rw [Array.getElem?_modify, if_pos rfl, hshared, ← hlast]
    rfl
  rw [closeDrained_eq, onDocument_eq hshared, release_eq hclosed, if_pos rfl]
  simp only [modify_modify]
  rfl

/-- The documents with some numbers are in the state of the documents that stand for their indices
on disks of their own, and all other documents were left behind as they would be there. -/
def PartlyClosed (origin : MountedSet) (made : List Nat) (lone : Nat → MountedDocument)
    (numbers : List Nat) (mounted : MountedSet) : Prop :=
  ∀ (number : Nat) (shared : SharedDocument), mounted.set.documents[number]? = some shared →
    ∀ index, made[number]? = some index →
      (number ∈ numbers → FileDocument.Twin (origin.disk.contents.size + number) mounted.disk
        shared.document (lone index)) ∧
      (number ∉ numbers → shared.view mounted.disk = (lone index).leftBehind)

/-- Closing the next of the documents leaves it behind. -/
theorem PartlyClosed.closeDrained
    (h : Sound origin made (entry.2 :: claims) (entry.2 :: pending) taken mounted)
    (hlast : ∀ shared, mounted.set.documents[entry.2]? = some shared → shared.holders = 1)
    (hnew : entry.2 ∉ numbers)
    (hpartly : PartlyClosed origin made lone (entry.2 :: numbers) mounted) :
    PartlyClosed origin made lone numbers (MountedSet.closeDrained entry mounted).2 := by
  obtain ⟨shared, index, hshared, hindex⟩ := h.ledger.exists_shared (h.claimed entry.2 List.mem_cons_self)
  have htwin := (hpartly entry.2 shared hshared index hindex).1 List.mem_cons_self
  obtain ⟨-, hclosed, -⟩ := htwin.act_close
  obtain ⟨disk, hrun, hframe, hcontents⟩ := h.closeDrained_last hshared (hlast shared hshared)
  rw [hrun]
  apply forall_modify
  · -- what happens to one file is not seen from the others
    intro other shared' hne hshared' other' hother'
    obtain ⟨hlive, hleft⟩ := hpartly other shared' hshared' other' hother'
    have hlt : other < made.length := (List.getElem?_eq_some_iff.1 hother').1
    have hsame : disk.contentsOf (origin.disk.contents.size + other) =
        mounted.disk.contentsOf (origin.disk.contents.size + other) := by
      apply hframe.others
      omega
    refine ⟨fun hmem => ?_, fun hmem => ?_⟩
    · apply (hlive (List.mem_cons_of_mem _ hmem)).frame (hframe.room.trans h.room) ?_ hsame
      rw [hframe.size, h.files]
      omega
    · have hfollows := h.follows other shared' other' hshared' hother'
      rw [← hleft fun hcons => (List.mem_cons.1 hcons).elim hne hmem]
      unfold SharedDocument.view
      rw [hfollows.text_frame hsame, hfollows.isFile, hsame]
  · intro shared' hshared' index' hindex'
    rw [hindex] at hindex'
    cases hindex'
    refine ⟨fun hmem => absurd hmem hnew, fun _ => ?_⟩
    have hisFile := hclosed.sink.output.ends.isFile
    have htext := hcontents.trans hclosed.text_eq
    rw [← hisFile] at htext
    have hholders : shared'.holders - 1 = 0 := by rw [hlast shared' hshared']
    unfold SharedDocument.view SharedDocument.text
    rw [if_pos hholders]
    show DocumentView.mk _ _ _ _ _ = DocumentView.mk _ _ _ _ _
    rw [DocumentView.mk.injEq]
    exact ⟨hclosed.status, hclosed.cursor, hclosed.emitted, htext, htext⟩

/-- Closing documents one after the other, each once, leaves all of them behind. -/
theorem PartlyClosed.closeAll (entries : List (Nat × Nat))
    (h : Sound origin made (entries.map Prod.snd) (entries.map Prod.snd) taken mounted)
    (hclosed : mounted.set.isClosed = true) (hnodup : (entries.map Prod.snd).Nodup)
    (hpartly : PartlyClosed origin made lone (entries.map Prod.snd) mounted) :
    Sound origin made [] [] taken (MountedSet.closeAll entries mounted).2 ∧
      PartlyClosed origin made lone [] (MountedSet.closeAll entries mounted).2 := by
  induction entries generalizing mounted with
  | nil => exact ⟨h, hpartly⟩
  | cons entry rest ih =>
    rw [List.map_cons, List.nodup_cons] at hnodup
    have hlast : ∀ shared, mounted.set.documents[entry.2]? = some shared → shared.holders = 1 := by
      intro shared hshared
      have hregistry := h.registry
      rw [if_pos hclosed] at hregistry
      rw [h.holders entry.2 shared hshared, hregistry, List.map_nil, List.nil_append, List.map_cons,
        List.count_cons_self, List.count_eq_zero_of_not_mem hnodup.1]
    have hnext := h.closeDrained fun _ hmem => hmem
    exact ih hnext ((isClosed_closeDrained entry mounted).trans hclosed) hnodup.2
      (hpartly.closeDrained h hlast hnodup.1)

/-- When an open set that nobody uses is closed, each document is left behind as it would be on a
disk of its own. -/
theorem Mirrors.closeDocuments (h : Sound origin made [] [] taken mounted)
    (hopen : mounted.set.isClosed = false) (hmirrors : Mirrors origin made lone mounted)
    {number index : Nat} (hindex : made[number]? = some index) :
    mounted.closeDocuments.2.view? number = some (lone index).leftBehind := by
  let entries := mounted.drain.1
  have hperm : (entries.map Prod.snd).Perm (List.range' 0 made.length) := h.drain_perm hopen
  have hpartly : PartlyClosed origin made lone (entries.map Prod.snd) mounted.drain.2 := by
    intro other shared hshared other' hother'
    refine ⟨fun _ => hmirrors other shared hshared other' hother', fun hmem => absurd ?_ hmem⟩
    have hlt : other < made.length := (List.getElem?_eq_some_iff.1 hother').1
    rw [hperm.mem_iff, List.mem_range'_1]
    omega
  have hdrained := h.drain
  simp only [List.append_nil] at hdrained
  obtain ⟨hsound, hclosed⟩ := PartlyClosed.closeAll entries hdrained rfl
    (hperm.nodup_iff.2 List.nodup_range') hpartly
  have hclose : mounted.closeDocuments.2 = (MountedSet.closeAll entries mounted.drain.2).2 := rfl
  obtain ⟨shared, -, hshared, -⟩ := hsound.ledger.exists_shared (List.getElem?_eq_some_iff.1 hindex).1
  unfold view?
  rw [hclose, hshared, Option.map_some]
  exact congrArg some ((hclosed number shared hshared index hindex).2 List.not_mem_nil)

end XmlWorkload.MountedSet
