import XmlWorkload.Proofs.Set.Sound

/-!
# Operations on sound sets

Each step that a caller takes keeps a set sound.  Looking a document up claims it, and makes it if
its index was not in use; writing to a document is followed if it is granted; letting a document go
gives a claim back; and closing the set claims all its documents for the caller that closes them.
-/

set_option autoImplicit false

namespace XmlWorkload

namespace MountedSet

/-- An action on a document of the set replaces it and the disk. -/
theorem onDocument_eq {mounted : MountedSet} {number : Nat} {shared : SharedDocument}
    (hshared : mounted.set.documents[number]? = some shared)
    (action : Action MountedDocument Unit) :
    (onDocument number action).run mounted =
      ((FileDocument.act action (shared.document, mounted.disk)).1,
        ⟨{ mounted.set with
            documents := mounted.set.documents.modify number fun before =>
              { before with
                document := (FileDocument.act action (shared.document, mounted.disk)).2.1 } },
          (FileDocument.act action (shared.document, mounted.disk)).2.2⟩) := by
  simp only [Action.run, onDocument, hshared]

/-- Letting a document go replaces the number of its holders, and the disk if it was the last. -/
theorem release_eq {mounted : MountedSet} {number : Nat} {shared : SharedDocument}
    (hshared : mounted.set.documents[number]? = some shared) :
    mounted.release number =
      ⟨{ mounted.set with
          documents := mounted.set.documents.modify number fun before =>
            { before with holders := before.holders - 1 } },
        if shared.holders = 1 then shared.document.discard mounted.disk else mounted.disk⟩ := by
  simp only [release, hshared]

/-- What is done to a document leaves the set closed or open as it was. -/
theorem isClosed_onDocument (mounted : MountedSet) (number : Nat)
    (action : Action MountedDocument Unit) :
    ((onDocument number action).run mounted).2.set.isClosed = mounted.set.isClosed := by
  simp only [Action.run, onDocument]
  split <;> rfl

/-- Letting a document go leaves the set closed or open as it was. -/
theorem isClosed_release (mounted : MountedSet) (number : Nat) :
    (mounted.release number).set.isClosed = mounted.set.isClosed := by
  unfold release
  split <;> rfl

/-- Closing a document that was taken out of the set is closing it and letting it go. -/
theorem closeDrained_eq (entry : Nat × Nat) (mounted : MountedSet) :
    (closeDrained entry mounted).2 =
      ((onDocument entry.2 Document.close).run mounted).2.release entry.2 := by
  unfold closeDrained closeOne
  simp only [Action.run]
  rcases onDocument entry.2 Document.close mounted with ⟨⟨⟩ | ⟨⟩, left⟩ <;> rfl

/-- Closing a document leaves the set closed or open as it was. -/
theorem isClosed_closeDrained (entry : Nat × Nat) (mounted : MountedSet) :
    (closeDrained entry mounted).2.set.isClosed = mounted.set.isClosed := by
  rw [closeDrained_eq, isClosed_release, isClosed_onDocument]

/-- An action that leaves a document as it is leaves the set as it is. -/
theorem onDocument_of_act {mounted : MountedSet} {number : Nat} {shared : SharedDocument}
    (hshared : mounted.set.documents[number]? = some shared)
    {action : Action MountedDocument Unit} {result : Except Error Unit}
    (hrun : FileDocument.act action (shared.document, mounted.disk) =
      (result, shared.document, mounted.disk)) :
    (onDocument number action).run mounted = (result, mounted) := by
  have hdocuments : (mounted.set.documents.modify number fun before =>
      { before with document := shared.document }) = mounted.set.documents := by
    apply Array.ext_getElem?
    intro other
    rw [Array.getElem?_modify]
    by_cases heq : number = other
    · subst heq
      rw [if_pos rfl, hshared]
      rfl
    · rw [if_neg heq]
  rw [onDocument_eq hshared, hrun]
  simp only [hdocuments]

/-- Writing to a document that is not live changes nothing. -/
theorem emitTo_of_not_live {mounted : MountedSet} {number : Nat} {shared : SharedDocument}
    (hshared : mounted.set.documents[number]? = some shared)
    (hdead : shared.document.status ≠ .live) (emission : Emission) :
    ((MountedSet.emitTo number emission.path emission.template).run mounted).2 = mounted := by
  obtain ⟨error, hrun⟩ := FileDocument.act_emit_of_not_live mounted.disk hdead emission
  rw [emitTo, onDocument_of_act hshared hrun]

/-- Who holds a document and lets it go again leaves the set as it is, if it had a holder before. -/
theorem release_hold {mounted : MountedSet} {number : Nat} {shared : SharedDocument}
    (hshared : mounted.set.documents[number]? = some shared) (hheld : shared.holders ≠ 0) :
    (mounted.hold number).release number = mounted := by
  have hholding : (mounted.hold number).set.documents[number]? =
      some { shared with holders := shared.holders + 1 } := by
    simp only [hold, Array.getElem?_modify, if_true, hshared, Option.map_some]
  have hmore : ¬ shared.holders + 1 = 1 := by omega
  have hdocuments : ((mounted.hold number).set.documents.modify number fun before =>
      { before with holders := before.holders - 1 }) = mounted.set.documents := by
    apply Array.ext_getElem?
    intro other
    simp only [hold, Array.getElem?_modify]
    by_cases heq : number = other
    · subst heq
      simp [hshared]
    · simp [heq]
  rw [release_eq hholding, if_neg hmore, hdocuments]
  rfl

namespace Sound

variable {origin : MountedSet} {made claims pending : List Nat} {taken : Nat → List Emission}
  {mounted : MountedSet} {number : Nat}

/-- One of the documents was changed, and with it who claims it.  If the change suits this document
and touched no other file, the set is sound again. -/
theorem modify (h : Sound origin made claims pending taken mounted) {index : Nat}
    {shared : SharedDocument} (hshared : mounted.set.documents[number]? = some shared)
    (hindex : made[number]? = some index) {change : SharedDocument → SharedDocument} {disk : Disk}
    {claims' : List Nat} {taken' : Nat → List Emission}
    (hframe : Disk.SameBut (origin.disk.contents.size + number) mounted.disk disk)
    (hfollows : (change shared).Follows (front origin.set) origin.set.root
      (origin.disk.contents.size + number) (taken' index) disk)
    (hlive : (change shared).document.status = .live → shared.document.status = .live)
    (hholders : (change shared).holders + claims.count number =
      shared.holders + claims'.count number)
    (hclaims : ∀ other, other ≠ number → claims'.count other = claims.count other)
    (hpending : ∀ other ∈ pending, other ∈ claims')
    (htaken : ∀ other, other ≠ index → taken' other = taken other) :
    Sound origin made claims' pending taken'
      ⟨{ mounted.set with documents := mounted.set.documents.modify number change }, disk⟩ := by
  have honly : ∀ shared', mounted.set.documents[number]? = some shared' → shared' = shared := by
    intro shared' hshared'
    rw [hshared] at hshared'
    cases hshared'
    rfl
  have hledger := h.ledger.modify hshared hholders hclaims
  refine
    { directory := h.directory
      root := h.root
      engine := h.engine
      validRoot := h.validRoot
      room := hframe.room.trans h.room
      count := hledger.count
      files := hframe.size.trans h.files
      nodup := h.nodup
      registry := h.registry
      holders := hledger.holders
      follows := ?_
      claimed := hledger.claimed
      pendingClaimed := hpending
      live := ?_
      unused := ?_ }
  · intro other shared' index' hshared' hindex'
    revert index'
    apply forall_modify ?_ ?_ other shared' hshared'
    · intro other shared' hne hshared' index' hindex'
      -- every index has one document only, so nothing was granted on the index of another one
      have hindexNe : index' ≠ index := by
        rintro rfl
        exact hne (h.ledger.eq_of_index hindex' hindex)
      have hother := h.ledger.lt_length hshared'
      rw [htaken index' hindexNe]
      apply (h.follows other shared' index' hshared' hindex').frame (hframe.room.trans h.room)
      · rw [hframe.size, h.files]
        omega
      · apply hframe.others
        omega
    · intro shared' hshared' index' hindex'
      obtain rfl := honly shared' hshared'
      rw [hindex] at hindex'
      cases hindex'
      exact hfollows
  · intro hclosed
    apply forall_modify
    · intro other shared' _ hshared' hlive'
      exact h.live hclosed other shared' hshared' hlive'
    · intro shared' hshared' hlive'
      obtain rfl := honly shared' hshared'
      exact h.live hclosed number shared' hshared' (hlive hlive')
  · intro other hother
    have hne : other ≠ index := by
      rintro rfl
      exact hother (List.mem_of_getElem? hindex)
    rw [htaken other hne]
    exact h.unused other hother

/-- One more can use a document. -/
theorem hold (h : Sound origin made claims pending taken mounted)
    (hnumber : number < made.length)
    (hheld : ∀ shared, mounted.set.documents[number]? = some shared → shared.holders ≠ 0) :
    Sound origin made (number :: claims) pending taken (mounted.hold number) := by
  obtain ⟨shared, index, hshared, hindex⟩ := h.ledger.exists_shared hnumber
  have hfollows := h.follows number shared index hshared hindex
  apply h.modify hshared hindex (Disk.SameBut.refl _ _)
  · refine ⟨hfollows.isFile, fun _ => hfollows.held (hheld shared hshared), ?_⟩
    intro hnone
    exact absurd hnone (Nat.succ_ne_zero _)
  · intro hlive
    exact hlive
  · show shared.holders + 1 + _ = _
    rw [List.count_cons_self]
    omega
  · intro other hother
    exact List.count_cons_of_ne hother.symm
  · intro other hother
    exact List.mem_cons_of_mem number (h.pendingClaimed other hother)
  · intro _ _
    rfl

/-- A document that somebody can use may be replaced by one that follows more emissions, if no other
file was touched. -/
theorem replace (h : Sound origin made claims pending taken mounted) {index : Nat}
    {shared : SharedDocument} (hshared : mounted.set.documents[number]? = some shared)
    (hindex : made[number]? = some index) (hheld : shared.holders ≠ 0)
    {document : FileDocument} {disk : Disk} {taken' : Nat → List Emission}
    (hfollows : FileDocument.Follows (front origin.set) origin.set.root
      (origin.disk.contents.size + number) (taken' index) disk document)
    (hframe : Disk.SameBut (origin.disk.contents.size + number) mounted.disk disk)
    (hlive : document.status = .live → shared.document.status = .live)
    (hothers : ∀ other, other ≠ index → taken' other = taken other) :
    Sound origin made claims pending taken'
      ⟨{ mounted.set with
          documents := mounted.set.documents.modify number fun shared =>
            { shared with document } },
        disk⟩ := by
  apply h.modify hshared hindex hframe
  · refine ⟨hfollows.atEnd.isFile, fun _ => hfollows, ?_⟩
    intro hnone
    exact absurd hnone hheld
  · exact hlive
  · rfl
  · intro _ _
    rfl
  · exact h.pendingClaimed
  · exact hothers

/-- Writing to a document that a caller can use is followed if it is granted. -/
theorem emitTo (h : Sound origin made claims pending taken mounted) {index : Nat}
    (hclaim : number ∈ claims) (hindex : made[number]? = some index) (emission : Emission) :
    let outcome := (MountedSet.emitTo number emission.path emission.template).run mounted
    Sound origin made claims pending
      (fun other => taken other ++
        if index = other then Document.granted emission outcome.1 else []) outcome.2 := by
  intro outcome
  obtain ⟨shared, -, hshared, -⟩ := h.ledger.exists_shared (h.claimed number hclaim)
  have hheld := h.ledger.holders_ne_zero hshared hclaim
  have hfollows := (h.follows number shared index hshared hindex).held hheld
  obtain ⟨hafter, hframe⟩ := hfollows.act_emit emission
  have houtcome := onDocument_eq hshared (Document.emit emission.path emission.template)
  change outcome = _ at houtcome
  rw [houtcome]
  apply h.replace hshared hindex hheld
  · rw [if_pos rfl]
    exact hafter
  · exact hframe
  · intro hlive
    by_contra hdead
    obtain ⟨error, hrun⟩ := FileDocument.act_emit_of_not_live mounted.disk hdead emission
    rw [hrun] at hlive
    exact hdead hlive
  · intro other hother
    rw [if_neg fun heq => hother heq.symm, List.append_nil]

/-- A document that is not live any more needs not be closed. -/
theorem settle (h : Sound origin made claims (number :: pending) taken mounted)
    (hsettled : ∀ shared, mounted.set.documents[number]? = some shared →
      shared.document.status ≠ .live) :
    Sound origin made claims pending taken mounted :=
  { h with
    pendingClaimed := fun other hother =>
      h.pendingClaimed other (List.mem_cons_of_mem number hother)
    live := by
      intro hclosed other shared hshared hlive
      rcases List.mem_cons.1 (h.live hclosed other shared hshared hlive) with rfl | hpending
      · exact absurd hlive (hsettled shared hshared)
      · exact hpending }

/-- The disk on which a document was let go is as it was except for the file of the document, which
has the whole text when nobody else can use the document. -/
theorem frame_release (h : Sound origin made (number :: claims) pending taken mounted)
    {shared : SharedDocument} (hshared : mounted.set.documents[number]? = some shared) :
    let file := origin.disk.contents.size + number
    let disk := if shared.holders = 1 then shared.document.discard mounted.disk else mounted.disk
    Disk.SameBut file mounted.disk disk ∧
      (shared.holders = 1 → disk.contentsOf file = shared.document.text mounted.disk) := by
  intro file disk
  have hnumber := h.claimed number List.mem_cons_self
  obtain ⟨index, hindex⟩ : ∃ index, made[number]? = some index :=
    ⟨_, List.getElem?_eq_getElem hnumber⟩
  have hheld := h.ledger.holders_ne_zero hshared List.mem_cons_self
  obtain ⟨hframe, hcontents⟩ :=
    ((h.follows number shared index hshared hindex).held hheld).discard
  by_cases hlast : shared.holders = 1
  · simp only [disk, if_pos hlast]
    exact ⟨hframe, fun _ => hcontents⟩
  · simp only [disk, if_neg hlast]
    exact ⟨Disk.SameBut.refl file mounted.disk, fun heq => absurd heq hlast⟩

/-- Letting a document go gives a claim back. -/
theorem release (h : Sound origin made (number :: claims) pending taken mounted)
    (hpending : ∀ other ∈ pending, other ∈ claims) :
    Sound origin made claims pending taken (mounted.release number) := by
  have hnumber := h.claimed number List.mem_cons_self
  obtain ⟨shared, index, hshared, hindex⟩ := h.ledger.exists_shared hnumber
  have hheld := h.ledger.holders_ne_zero hshared List.mem_cons_self
  obtain ⟨hframe, hlast⟩ := h.frame_release hshared
  have hcount := h.holders number shared hshared
  rw [List.count_append, List.count_cons_self] at hcount
  rw [release_eq hshared]
  apply h.modify hshared hindex hframe
  · have hfollows := h.follows number shared index hshared hindex
    refine ⟨hfollows.isFile, ?_, ?_⟩
    · intro hothers
      have hmore : shared.holders ≠ 1 := fun heq => hothers (by rw [heq])
      rw [if_neg hmore]
      exact hfollows.held hheld
    · intro hnone
      have hone : shared.holders = 1 := by
        change shared.holders - 1 = 0 at hnone
        omega
      -- a document that nobody claims and that is not in the registry was closed or failed
      have hclosed : mounted.set.isClosed = true := by
        by_contra hopen
        have hregistered := h.ledger.count_registry hnumber
        rw [if_neg hopen] at hregistered
        omega
      have hdead : shared.document.status ≠ .live := by
        intro hlive
        have hclaimed := hpending number (h.live hclosed number shared hshared hlive)
        have := List.count_pos_iff.2 hclaimed
        omega
      refine ⟨hdead, ?_⟩
      intro hstatus
      obtain ⟨tree, htree, -, htext⟩ := (hfollows.held hheld).of_closed hstatus
      exact ⟨tree, htree, (hlast hone).trans htext⟩
  · intro hlive
    exact hlive
  · show shared.holders - 1 + _ = _
    rw [List.count_cons_self]
    omega
  · intro other hother
    exact (List.count_cons_of_ne hother.symm).symm
  · exact hpending
  · intro _ _
    rfl

/-- Letting a document go changes no text. -/
theorem text?_release (h : Sound origin made (number :: claims) pending taken mounted)
    (other : Nat) : (mounted.release number).text? other = mounted.text? other := by
  have hnumber := h.claimed number List.mem_cons_self
  obtain ⟨shared, index, hshared, hindex⟩ := h.ledger.exists_shared hnumber
  have hheld := h.ledger.holders_ne_zero hshared List.mem_cons_self
  have hfollows := h.follows number shared index hshared hindex
  obtain ⟨hframe, hlast⟩ := h.frame_release hshared
  rw [release_eq hshared]
  unfold text?
  simp only [Array.getElem?_modify]
  by_cases heq : number = other
  · subst heq
    simp only [if_true, hshared, Option.map_some, Option.some.injEq]
    by_cases hone : shared.holders = 1
    · have hcontents := hlast hone
      simp only [SharedDocument.text, hone, Nat.sub_self, if_true, hfollows.isFile] at hcontents ⊢
      rw [hcontents]
      rfl
    · have hmore : ¬ shared.holders - 1 = 0 := by omega
      simp only [SharedDocument.text, hone, hmore, hheld, if_false]
  · simp only [if_neg heq]
    cases hother : mounted.set.documents[other]? with
    | none => rfl
    | some shared' =>
      have hlt : other < made.length := by
        rw [← h.count]
        exact (Array.getElem?_eq_some_iff.1 hother).1
      have hfollows' := h.follows other shared' _ hother (List.getElem?_eq_getElem hlt)
      simp only [Option.map_some, Option.some.injEq]
      apply hfollows'.text_frame
      apply hframe.others
      omega

/-- Closing the set claims all its documents for the caller that will close them. -/
theorem drain (h : Sound origin made claims pending taken mounted) :
    let numbers := mounted.drain.1.map Prod.snd
    Sound origin made (numbers ++ claims) (numbers ++ pending) taken mounted.drain.2 := by
  intro numbers
  have hperm : numbers.Perm (mounted.set.registry.map Prod.snd) :=
    (List.mergeSort_perm mounted.set.registry _).map Prod.snd
  have hledger := h.ledger.drain hperm
  refine
    { directory := h.directory
      root := h.root
      engine := h.engine
      validRoot := h.validRoot
      room := h.room
      count := h.count
      files := h.files
      nodup := h.nodup
      registry := rfl
      holders := hledger.holders
      follows := h.follows
      claimed := hledger.claimed
      pendingClaimed := ?_
      live := ?_
      unused := h.unused }
  · intro number hnumber
    rcases List.mem_append.1 hnumber with hregistered | hpending
    · exact List.mem_append_left claims hregistered
    · exact List.mem_append_right numbers (h.pendingClaimed number hpending)
  · intro _ number shared hshared hlive
    by_cases hclosed : mounted.set.isClosed = true
    · exact List.mem_append_right numbers (h.live hclosed number shared hshared hlive)
    · apply List.mem_append_left
      have hnumber : number < made.length := by
        rw [← h.count]
        exact (Array.getElem?_eq_some_iff.1 hshared).1
      -- in an open set every document is registered, and so it is taken out
      have hregistered := h.ledger.count_registry hnumber
      rw [if_neg hclosed] at hregistered
      apply hperm.mem_iff.2
      apply List.count_pos_iff.1
      omega

/-- Closing the next of the documents that were taken out of the set gives the claims on it back. -/
theorem closeDrained {entry : Nat × Nat}
    (h : Sound origin made (entry.2 :: claims) (entry.2 :: pending) taken mounted)
    (hpending : ∀ other ∈ pending, other ∈ claims) :
    Sound origin made claims pending taken (MountedSet.closeDrained entry mounted).2 := by
  obtain ⟨shared, index, hshared, hindex⟩ := h.ledger.exists_shared (h.claimed entry.2 List.mem_cons_self)
  have hheld := h.ledger.holders_ne_zero hshared List.mem_cons_self
  obtain ⟨hafter, hframe, hdead⟩ := ((h.follows entry.2 shared index hshared hindex).held
    hheld).act_close
  have hclose := onDocument_eq hshared Document.close
  have hreplaced := h.replace hshared hindex hheld hafter hframe (fun hlive => absurd hlive hdead)
    fun _ _ => rfl
  -- the claim may be given back only after the document is settled
  have hsettled := hreplaced.settle (by
    intro shared' hshared'
    simp only [Array.getElem?_modify, if_true, hshared, Option.map_some,
      Option.some.injEq] at hshared'
    rw [← hshared']
    exact hdead)
  have hreleased := hsettled.release hpending
  rw [closeDrained_eq, hclose]
  exact hreleased

end Sound

end MountedSet

end XmlWorkload
