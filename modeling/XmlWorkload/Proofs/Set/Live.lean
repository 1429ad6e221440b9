import XmlWorkload.Proofs.Set.Making

/-!
# Sets whose documents are live

As long as nothing that cannot be written was sent to a set, all its documents are live.  Main
statements: a live document takes exactly what can be written (`MountedSet.Sound.emitTo_cases`), and
a set whose documents are all live can be closed, with every document closed in the end
(`MountedSet.Sound.closeDocuments_of_allLive`).
-/

set_option autoImplicit false

namespace XmlWorkload

namespace MountedSet

/-- All documents of a set are live. -/
def AllLive (mounted : MountedSet) : Prop :=
  ∀ (number : Nat) (shared : SharedDocument),
    mounted.set.documents[number]? = some shared → shared.document.status = .live

/-- The documents with some numbers are live, and all other documents are closed. -/
def LiveAmong (numbers : List Nat) (mounted : MountedSet) : Prop :=
  ∀ (number : Nat) (shared : SharedDocument), mounted.set.documents[number]? = some shared →
    (number ∈ numbers → shared.document.status = .live) ∧
      (number ∉ numbers → shared.document.status = .closed)

/-- Closing documents leaves the set closed or open as it was. -/
theorem isClosed_closeAll (entries : List (Nat × Nat)) (mounted : MountedSet) :
    (closeAll entries mounted).2.set.isClosed = mounted.set.isClosed := by
  induction entries generalizing mounted with
  | nil => rfl
  | cons entry rest ih => exact (ih _).trans (isClosed_closeDrained entry mounted)

variable {mounted : MountedSet}

/-- Documents stay live when one of them is taken hold of. -/
theorem AllLive.hold (h : AllLive mounted) (number : Nat) : AllLive (mounted.hold number) :=
  forall_modify (fun other shared _ hshared => h other shared hshared)
    (fun shared hshared => h number shared hshared)

/-- Documents stay live when one of them is let go. -/
theorem AllLive.release (h : AllLive mounted) (number : Nat) : AllLive (mounted.release number) := by
  unfold MountedSet.release
  split
  · exact h
  · exact forall_modify (fun other shared _ hshared => h other shared hshared)
      (fun shared hshared => h number shared hshared)

/-- A live document that was added leaves all documents live. -/
theorem AllLive.push (h : AllLive mounted) {left : MountedSet} {document : FileDocument}
    (hdocuments : left.set.documents = mounted.set.documents.push ⟨document, 1⟩)
    (hlive : document.status = .live) : AllLive left := by
  intro number shared hshared
  rw [hdocuments, Array.getElem?_push] at hshared
  split at hshared
  · cases hshared
    exact hlive
  · exact h number shared hshared

namespace Sound

variable {origin : MountedSet} {made claims pending : List Nat} {taken : Nat → List Emission}
  {number : Nat}

/-- Writing to a document keeps all places. -/
theorem samePlaces_emitTo (h : Sound origin made claims pending taken mounted)
    (hclaim : number ∈ claims) (emission : Emission) :
    Disk.SamePlaces mounted.disk
      ((MountedSet.emitTo number emission.path emission.template).run mounted).2.disk := by
  obtain ⟨shared, index, hshared, hindex⟩ := h.ledger.exists_shared (h.claimed number hclaim)
  have hheld := h.ledger.holders_ne_zero hshared hclaim
  have hframe := (((h.follows number shared index hshared hindex).held hheld).act_emit emission).2
  rw [MountedSet.emitTo, onDocument_eq hshared]
  exact Disk.SamePlaces.of_sameBut hframe

/-- Letting a document go keeps all places. -/
theorem samePlaces_release (h : Sound origin made (number :: claims) pending taken mounted) :
    Disk.SamePlaces mounted.disk (mounted.release number).disk := by
  obtain ⟨shared, index, hshared, hindex⟩ := h.ledger.exists_shared (h.claimed number List.mem_cons_self)
  have hframe := (h.frame_release hshared).1
  rw [release_eq hshared]
  exact Disk.SamePlaces.of_sameBut hframe

/-- Where all documents are live, a document that a caller can use takes exactly what can be
written. -/
theorem emitTo_cases (h : Sound origin made claims pending taken mounted)
    (hlive : AllLive mounted) (hclaim : number ∈ claims) (emission : Emission)
    (hpath : emission.path ≠ []) :
    let outcome := (MountedSet.emitTo number emission.path emission.template).run mounted
    (Document.IsWritable emission ∧ outcome.1 = .ok () ∧ AllLive outcome.2) ∨
      (¬ Document.IsWritable emission ∧ ∃ error, outcome.1 = .error error) := by
  intro outcome
  obtain ⟨shared, index, hshared, hindex⟩ := h.ledger.exists_shared (h.claimed number hclaim)
  have hheld := h.ledger.holders_ne_zero hshared hclaim
  have hcases := ((h.follows number shared index hshared hindex).held hheld).act_emit_cases
    (hlive number shared hshared) emission hpath
  have houtcome := onDocument_eq hshared (Document.emit emission.path emission.template)
  change outcome = _ at houtcome
  rw [houtcome]
  rcases hcases with ⟨hwritable, hok, hstill⟩ | ⟨hwritable, error, herror⟩
  · exact .inl ⟨hwritable, hok, forall_modify
      (fun other shared' _ hshared' => hlive other shared' hshared') (fun _ _ => hstill)⟩
  · exact .inr ⟨hwritable, error, herror⟩

/-- Closing the next of the documents that were taken out of the set succeeds when it is live. -/
theorem closeDrained_of_live {entry : Nat × Nat} {numbers : List Nat}
    (h : Sound origin made (entry.2 :: claims) (entry.2 :: pending) taken mounted)
    (hpending : ∀ other ∈ pending, other ∈ claims) (hnew : entry.2 ∉ numbers)
    (hlive : LiveAmong (entry.2 :: numbers) mounted) :
    ∃ left, MountedSet.closeDrained entry mounted = (none, left) ∧
      Sound origin made claims pending taken left ∧ LiveAmong numbers left ∧
        Disk.SamePlaces mounted.disk left.disk := by
  obtain ⟨shared, index, hshared, hindex⟩ := h.ledger.exists_shared (h.claimed entry.2 List.mem_cons_self)
  have hheld := h.ledger.holders_ne_zero hshared List.mem_cons_self
  have hfollows := (h.follows entry.2 shared index hshared hindex).held hheld
  have hstatus := (hlive entry.2 shared hshared).1 List.mem_cons_self
  obtain ⟨hok, hclosed⟩ := hfollows.act_close_of_live hstatus
  obtain ⟨hafter, hframe, hdead⟩ := hfollows.act_close
  have hclose := onDocument_eq hshared Document.close
  let closed := ((onDocument entry.2 Document.close).run mounted).2
  have hdone : closed = _ := congrArg Prod.snd hclose
  have hresult : closeOne entry.2 mounted = (.ok (), closed) := by
    refine Prod.ext ?_ rfl
    exact (congrArg Prod.fst hclose).trans hok
  have hreplaced : Sound origin made (entry.2 :: claims) (entry.2 :: pending) taken closed := by
    rw [hdone]
    exact h.replace hshared hindex hheld hafter hframe (fun hlive => absurd hlive hdead)
      fun _ _ => rfl
  have hamong : LiveAmong numbers closed := by
    rw [hdone]
    apply forall_modify
    · intro other shared' hother hshared'
      have hboth := hlive other shared' hshared'
      refine ⟨fun hmem => hboth.1 (List.mem_cons_of_mem _ hmem), fun hmem => hboth.2 ?_⟩
      intro hcons
      rcases List.mem_cons.1 hcons with heq | hmem'
      · exact hother heq
      · exact hmem hmem'
    · intro _ _
      exact ⟨fun hmem => absurd hmem hnew, fun _ => hclosed⟩
  refine ⟨closed.release entry.2, ?_, ?_, ?_, ?_⟩
  · unfold MountedSet.closeDrained
    rw [hresult]
  · rw [← closeDrained_eq]
    exact h.closeDrained hpending
  · unfold MountedSet.release
    split
    · exact hamong
    · exact forall_modify (fun other shared' _ hshared' => hamong other shared' hshared')
        (fun shared' hshared' => hamong entry.2 shared' hshared')
  · have hplaces : Disk.SamePlaces mounted.disk closed.disk := by
      rw [hdone]
      exact Disk.SamePlaces.of_sameBut hframe
    exact hplaces.trans hreplaced.samePlaces_release

/-- Closing documents that are live, each once, succeeds and leaves all documents closed. -/
theorem closeAll_of_live (entries : List (Nat × Nat))
    (h : Sound origin made (entries.map Prod.snd ++ claims) (entries.map Prod.snd ++ pending) taken
      mounted)
    (hpending : ∀ other ∈ pending, other ∈ claims) (hnodup : (entries.map Prod.snd).Nodup)
    (hlive : LiveAmong (entries.map Prod.snd) mounted) :
    ∃ left, MountedSet.closeAll entries mounted = ([], left) ∧
      Sound origin made claims pending taken left ∧ LiveAmong [] left ∧
        Disk.SamePlaces mounted.disk left.disk := by
  induction entries generalizing mounted with
  | nil => exact ⟨mounted, rfl, h, hlive, Disk.SamePlaces.refl _⟩
  | cons entry rest ih =>
    rw [List.map_cons, List.nodup_cons] at hnodup
    have hrest : ∀ other ∈ rest.map Prod.snd ++ pending, other ∈ rest.map Prod.snd ++ claims := by
      intro other hother
      rcases List.mem_append.1 hother with hmem | hmem
      · exact List.mem_append_left _ hmem
      · exact List.mem_append_right _ (hpending other hmem)
    obtain ⟨closed, hclose, hsound, hamong, hplaces⟩ :=
      closeDrained_of_live h hrest hnodup.1 hlive
    obtain ⟨left, hothers, hsound', hamong', hplaces'⟩ := ih hsound hnodup.2 hamong
    refine ⟨left, ?_, hsound', hamong', hplaces.trans hplaces'⟩
    unfold MountedSet.closeAll
    simp only [hclose, hothers]
    rfl

/-- Every document is taken out of an open set that is closed, each once. -/
theorem drain_perm (h : Sound origin made claims pending taken mounted)
    (hopen : mounted.set.isClosed = false) :
    (mounted.drain.1.map Prod.snd).Perm (List.range' 0 made.length) := by
  have hregistry := h.registry
  rw [if_neg (by simp [hopen])] at hregistry
  rw [← List.zipIdx_map_snd 0 made, ← hregistry]
  exact (List.mergeSort_perm mounted.set.registry _).map Prod.snd

/-- An open set whose documents are all live, and which nobody uses, can be closed.  Every document
is closed then, and nobody can use it any more. -/
theorem closeDocuments_of_allLive (h : Sound origin made [] [] taken mounted)
    (hopen : mounted.set.isClosed = false) (hlive : AllLive mounted) :
    ∃ left, mounted.closeDocuments = ([], left) ∧ Sound origin made [] [] taken left ∧
      LiveAmong [] left ∧ left.set.isClosed = true ∧ Disk.SamePlaces mounted.disk left.disk := by
  let entries := mounted.drain.1
  have hperm : (entries.map Prod.snd).Perm (List.range' 0 made.length) := h.drain_perm hopen
  have hamong : LiveAmong (entries.map Prod.snd) mounted.drain.2 := by
    intro number shared hshared
    have hnumber : number < made.length := by
      rw [← h.count]
      exact (Array.getElem?_eq_some_iff.1 hshared).1
    refine ⟨fun _ => hlive number shared hshared, fun hmem => absurd ?_ hmem⟩
    rw [hperm.mem_iff, List.mem_range'_1]
    omega
  obtain ⟨left, hclose, hsound, hclosed, hplaces⟩ := closeAll_of_live entries h.drain
    (fun _ hmem => hmem) (hperm.nodup_iff.2 List.nodup_range') hamong
  refine ⟨left, hclose, hsound, hclosed, ?_, hplaces⟩
  have hkept := isClosed_closeAll entries mounted.drain.2
  rw [hclose] at hkept
  exact hkept

end Sound

end MountedSet

end XmlWorkload
