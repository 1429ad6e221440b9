import XmlWorkload.Proofs.Document.Kept
import XmlWorkload.Proofs.Set.Mirror

/-!
# Sets on a disk that others use

Others may fill the disk, make files on it and take places away, as long as they leave the files of
the set alone.  What still holds of the set then: its books are right, each document has a file of its
own, and each document that somebody can use has kept to the emissions that were granted on its
index.  Main statements: every operation on the set keeps it intact and spares all documents but one.
-/

set_option autoImplicit false

namespace XmlWorkload

/-- The number of the file of a document. -/
abbrev SharedDocument.file (shared : SharedDocument) : Nat := shared.document.sink.output.file

namespace MountedSet

/-- What others may make of the disk: they write to none of the files of the set. -/
structure Tolerates (mounted : MountedSet) (disk : Disk) : Prop where
  size : mounted.disk.contents.size ≤ disk.contents.size
  contents : ∀ (number : Nat) (shared : SharedDocument),
    mounted.set.documents[number]? = some shared →
      disk.contentsOf shared.file = mounted.disk.contentsOf shared.file

/-- A set tolerates the disk that it is on. -/
theorem tolerates_disk (mounted : MountedSet) : mounted.Tolerates mounted.disk :=
  ⟨le_rfl, fun _ _ _ => rfl⟩

/-- Nothing happened to the document with a number. -/
structure Untouched (before after : MountedSet) (number : Nat) : Prop where
  documents : after.set.documents[number]? = before.set.documents[number]?
  contents : ∀ shared, before.set.documents[number]? = some shared →
    after.disk.contentsOf shared.file = before.disk.contentsOf shared.file

/-- Nothing happened to the documents of a set except to the one with a number. -/
def Spares (number : Nat) (before after : MountedSet) : Prop :=
  ∀ other, other ≠ number → Untouched before after other

section Untouched

variable {number : Nat} {before middle after : MountedSet}

/-- A document of a set that stays as it is was not touched. -/
theorem Untouched.refl (mounted : MountedSet) (number : Nat) : Untouched mounted mounted number :=
  ⟨rfl, fun _ _ => rfl⟩

/-- A disk that a set tolerates touches no document. -/
theorem Tolerates.untouched {mounted : MountedSet} {disk : Disk} (h : mounted.Tolerates disk)
    (number : Nat) : Untouched mounted ⟨mounted.set, disk⟩ number :=
  ⟨rfl, h.contents number⟩

/-- A document that two steps do not touch is not touched by both together. -/
theorem Untouched.trans (h₁ : Untouched before middle number)
    (h₂ : Untouched middle after number) : Untouched before after number where
  documents := h₂.documents.trans h₁.documents
  contents shared hshared :=
    (h₂.contents shared (h₁.documents.trans hshared)).trans (h₁.contents shared hshared)

/-- What can be seen of a document that nothing happened to stays the same. -/
theorem Untouched.view?_eq (h : Untouched before after number) :
    after.view? number = before.view? number := by
  unfold view?
  rw [h.documents]
  cases hshared : before.set.documents[number]? with
  | none => rfl
  | some shared =>
    have hcontents := h.contents shared hshared
    simp only [Option.map_some, SharedDocument.view, SharedDocument.text, FileDocument.text,
      MountedWriter.text, hcontents]

/-- Two steps that spare all documents but one spare them together. -/
theorem Spares.trans (h₁ : Spares number before middle) (h₂ : Spares number middle after) :
    Spares number before after :=
  fun other hother => (h₁ other hother).trans (h₂ other hother)

end Untouched

/-- A set that started as another one is intact: `made` are the indices under which documents were
made, in the order of their numbers; `claims` are the numbers of the documents that others than the
set can use; and `taken` are the emissions that were granted on each index. -/
structure Intact (origin : DocumentSet) (made claims : List Nat) (taken : Nat → List Emission)
    (mounted : MountedSet) : Prop where
  directory : mounted.set.directory = origin.directory
  root : mounted.set.root = origin.root
  engine : mounted.set.engine = origin.engine
  validRoot : Name.isValid origin.root = true
  ledger : mounted.set.Ledger made claims
  inRange : ∀ (number : Nat) (shared : SharedDocument),
    mounted.set.documents[number]? = some shared → shared.file < mounted.disk.contents.size
  apart : ∀ (number other : Nat) (shared shared' : SharedDocument),
    mounted.set.documents[number]? = some shared →
      mounted.set.documents[other]? = some shared' → shared.file = shared'.file → number = other
  kept : ∀ (number : Nat) (shared : SharedDocument) (index : Nat),
    mounted.set.documents[number]? = some shared → made[number]? = some index →
      shared.holders ≠ 0 →
        shared.document.Kept (front origin) origin.root (taken index) mounted.disk
  unused : ∀ index, index ∉ made → taken index = []

namespace Intact

variable {origin : DocumentSet} {made claims claims' : List Nat} {taken : Nat → List Emission}
  {mounted : MountedSet} {number index : Nat} {shared : SharedDocument}

/-- The order in which documents are held does not matter. -/
theorem of_perm (h : Intact origin made claims taken mounted) (hclaims : claims.Perm claims') :
    Intact origin made claims' taken mounted :=
  { h with ledger := h.ledger.of_perm hclaims }

/-- Whatever others do on the disk, a set is intact if they leave its files alone. -/
theorem frame (h : Intact origin made claims taken mounted) {disk : Disk}
    (hdisk : mounted.Tolerates disk) : Intact origin made claims taken ⟨mounted.set, disk⟩ :=
  { h with
    inRange := fun number shared hshared => (h.inRange number shared hshared).trans_le hdisk.size
    kept := fun number shared index hshared hindex hheld =>
      (h.kept number shared index hshared hindex hheld).frame
        ((h.inRange number shared hshared).trans_le hdisk.size)
        (hdisk.contents number shared hshared) }

/-- A document that is held was kept. -/
theorem kept_of_claim (h : Intact origin made claims taken mounted) (hclaim : number ∈ claims)
    (hshared : mounted.set.documents[number]? = some shared) (hindex : made[number]? = some index) :
    shared.document.Kept (front origin) origin.root (taken index) mounted.disk :=
  h.kept number shared index hshared hindex (h.ledger.holders_ne_zero hshared hclaim)

/-- Writing to the file of one document leaves the files of the others alone. -/
theorem wrote_other (h : Intact origin made claims taken mounted) {disk : Disk}
    (hshared : mounted.set.documents[number]? = some shared)
    (hwrote : Disk.Wrote shared.file mounted.disk disk) {other : Nat} {shared' : SharedDocument}
    (hother : other ≠ number) (hshared' : mounted.set.documents[other]? = some shared') :
    disk.contentsOf shared'.file = mounted.disk.contentsOf shared'.file :=
  hwrote.others _ fun heq => hother (h.apart other number shared' shared hshared' hshared heq)

/-- One of the documents was changed, and with it who claims it.  If it has kept to what was granted
on its index, and nothing was written to another file, the set is intact again. -/
theorem modify (h : Intact origin made claims taken mounted)
    (hshared : mounted.set.documents[number]? = some shared) (hindex : made[number]? = some index)
    {change : SharedDocument → SharedDocument} {disk : Disk} {taken' : Nat → List Emission}
    (hfile : (change shared).file = shared.file)
    (hwrote : Disk.Wrote shared.file mounted.disk disk)
    (hkept : (change shared).holders ≠ 0 →
      (change shared).document.Kept (front origin) origin.root (taken' index) disk)
    (hholders : (change shared).holders + claims.count number =
      shared.holders + claims'.count number)
    (hclaims : ∀ other, other ≠ number → claims'.count other = claims.count other)
    (htaken : ∀ other, other ≠ index → taken' other = taken other) :
    let after : MountedSet :=
      ⟨{ mounted.set with documents := mounted.set.documents.modify number change }, disk⟩
    Intact origin made claims' taken' after ∧ Spares number mounted after := by
  intro after
  have honly : ∀ shared', mounted.set.documents[number]? = some shared' → shared = shared' :=
    fun shared' hshared' => Option.some.inj (hshared.symm.trans hshared')
  -- no document has come to have another file
  have hfiles : ∀ (other : Nat) (shared' : SharedDocument),
      after.set.documents[other]? = some shared' → ∃ before,
        mounted.set.documents[other]? = some before ∧ shared'.file = before.file := by
    apply forall_modify
    · exact fun other shared' _ hshared' => ⟨shared', hshared', rfl⟩
    · intro shared' hshared'
      obtain rfl := honly shared' hshared'
      exact ⟨shared, hshared, hfile⟩
  refine ⟨⟨h.directory, h.root, h.engine, h.validRoot, h.ledger.modify hshared hholders hclaims,
    ?_, ?_, ?_, ?_⟩, fun other hother => ⟨?_, fun shared' hshared' => ?_⟩⟩
  · intro other shared' hshared'
    obtain ⟨before, hbefore, heq⟩ := hfiles other shared' hshared'
    rw [heq]
    exact (h.inRange other before hbefore).trans_eq hwrote.size.symm
  · intro other other' shared' shared'' hshared' hshared'' heq
    obtain ⟨before, hbefore, hsame⟩ := hfiles other shared' hshared'
    obtain ⟨before', hbefore', hsame'⟩ := hfiles other' shared'' hshared''
    exact h.apart other other' before before' hbefore hbefore'
      (hsame.symm.trans (heq.trans hsame'))
  · intro other shared' index' hshared'
    revert index'
    apply forall_modify ?_ ?_ other shared' hshared'
    · intro other shared' hne hshared' index' hindex' hheld
      have hindexNe : index' ≠ index := by
        rintro rfl
        exact hne (h.ledger.eq_of_index hindex' hindex)
      rw [htaken index' hindexNe]
      apply (h.kept other shared' index' hshared' hindex' hheld).frame
      · exact (h.inRange other shared' hshared').trans_eq hwrote.size.symm
      · exact h.wrote_other hshared hwrote hne hshared'
    · intro shared' hshared' index' hindex' hheld
      obtain rfl := honly shared' hshared'
      obtain rfl : index = index' := Option.some.inj (hindex.symm.trans hindex')
      exact hkept hheld
  · intro other hother
    have hne : other ≠ index := by
      rintro rfl
      exact hother (List.mem_of_getElem? hindex)
    rw [htaken other hne]
    exact h.unused other hother
  · show (mounted.set.documents.modify number change)[other]? = _
    rw [Array.getElem?_modify, if_neg hother.symm]
  · exact h.wrote_other hshared hwrote hother hshared'

/-- As long as the set is open anyone can come to use a document of it. -/
theorem hold (h : Intact origin made claims taken mounted) (hopen : mounted.set.isClosed = false)
    (hindex : made[number]? = some index) :
    Intact origin made (number :: claims) taken (mounted.hold number) ∧
      Spares number mounted (mounted.hold number) := by
  obtain ⟨shared, -, hshared, -⟩ :=
    h.ledger.exists_shared (List.getElem?_eq_some_iff.1 hindex).1
  have hheld := h.ledger.holders_of_open hopen hshared
  apply h.modify hshared hindex rfl (Disk.Wrote.refl _ _)
  · exact fun _ => h.kept number shared index hshared hindex hheld
  · show shared.holders + 1 + _ = _
    rw [List.count_cons_self]
    omega
  · exact fun other hother => List.count_cons_of_ne hother.symm
  · exact fun _ _ => rfl

/-- An action on a document that keeps to what is granted on its index leaves the set intact. -/
theorem onDocument (h : Intact origin made claims taken mounted)
    (hshared : mounted.set.documents[number]? = some shared) (hindex : made[number]? = some index)
    (action : Action MountedDocument Unit) {taken' : Nat → List Emission}
    (hkept : (FileDocument.act action (shared.document, mounted.disk)).2.1.Kept (front origin)
      origin.root (taken' index) (FileDocument.act action (shared.document, mounted.disk)).2.2)
    (hfile : (FileDocument.act action (shared.document, mounted.disk)).2.1.sink.output.file =
      shared.file)
    (hwrote : Disk.Wrote shared.file mounted.disk
      (FileDocument.act action (shared.document, mounted.disk)).2.2)
    (htaken : ∀ other, other ≠ index → taken' other = taken other) :
    Intact origin made claims taken' ((MountedSet.onDocument number action).run mounted).2 ∧
      Spares number mounted ((MountedSet.onDocument number action).run mounted).2 := by
  rw [onDocument_eq hshared]
  exact h.modify hshared hindex hfile hwrote (fun _ => hkept) rfl (fun _ _ => rfl) htaken

/-- Writing to a document that somebody can use is followed if it is granted. -/
theorem emitTo (h : Intact origin made claims taken mounted) (hclaim : number ∈ claims)
    (hindex : made[number]? = some index) (emission : Emission) :
    let outcome := (MountedSet.emitTo number emission.path emission.template).run mounted
    Intact origin made claims
        (fun other => taken other ++
          if index = other then Document.granted emission outcome.1 else []) outcome.2 ∧
      Spares number mounted outcome.2 := by
  intro outcome
  obtain ⟨shared, -, hshared, -⟩ := h.ledger.exists_shared (h.ledger.claimed number hclaim)
  obtain ⟨hkept, hfile, hwrote⟩ := (h.kept_of_claim hclaim hshared hindex).act_emit emission
  have hresult : outcome.1 = _ := congrArg Prod.fst (onDocument_eq hshared _)
  apply h.onDocument hshared hindex (Document.emit emission.path emission.template) ?_ hfile hwrote
  · intro other hother
    rw [if_neg hother.symm, List.append_nil]
  · rw [if_pos rfl, hresult]
    exact hkept

/-- A configuration error changes nothing. -/
theorem emitTo_of_configuration (h : Intact origin made claims taken mounted)
    (hclaim : number ∈ claims) (hindex : made[number]? = some index) {emission : Emission}
    {error : Error}
    (herror : ((MountedSet.emitTo number emission.path emission.template).run mounted).1 =
      .error error)
    (hseverity : error.severity = .configuration) :
    ((MountedSet.emitTo number emission.path emission.template).run mounted).2 = mounted := by
  obtain ⟨shared, -, hshared, -⟩ := h.ledger.exists_shared (h.ledger.claimed number hclaim)
  rw [MountedSet.emitTo, onDocument_eq hshared] at herror
  have hrun := (h.kept_of_claim hclaim hshared hindex).act_emit_of_configuration herror hseverity
  rw [MountedSet.emitTo, onDocument_of_act hshared hrun]

/-- Closing a document that somebody can use closes it, or leaves it failed. -/
theorem closeOne (h : Intact origin made claims taken mounted) (hclaim : number ∈ claims)
    (hindex : made[number]? = some index) :
    let outcome := (MountedSet.closeOne number).run mounted
    Intact origin made claims taken outcome.2 ∧ Spares number mounted outcome.2 ∧
      ∃ before after, mounted.set.documents[number]? = some before ∧
        outcome.2.set.documents[number]? = some after ∧ after.file = before.file ∧
        FileDocument.Closes before.document outcome.1 after.document := by
  intro outcome
  obtain ⟨shared, -, hshared, -⟩ := h.ledger.exists_shared (h.ledger.claimed number hclaim)
  obtain ⟨hkept, hfile, hwrote, hcloses⟩ := (h.kept_of_claim hclaim hshared hindex).act_close
  obtain ⟨hintact, hspares⟩ := h.onDocument hshared hindex Document.close hkept hfile hwrote
    fun _ _ => rfl
  have houtcome : outcome = _ := onDocument_eq hshared Document.close
  let closed := FileDocument.act Document.close (shared.document, mounted.disk)
  refine ⟨hintact, hspares, shared, { shared with document := closed.2.1 }, hshared, ?_, hfile, ?_⟩
  · rw [congrArg Prod.snd houtcome]
    show (mounted.set.documents.modify number _)[number]? = _
    rw [Array.getElem?_modify, if_pos rfl, hshared]
    rfl
  · rw [congrArg Prod.fst houtcome]
    exact hcloses

/-- Letting a document go gives a claim back. -/
theorem release (h : Intact origin made (number :: claims) taken mounted) :
    Intact origin made claims taken (mounted.release number) ∧
      Spares number mounted (mounted.release number) := by
  obtain ⟨shared, index, hshared, hindex⟩ :=
    h.ledger.exists_shared (h.ledger.claimed number List.mem_cons_self)
  have hheld := h.ledger.holders_ne_zero hshared List.mem_cons_self
  rw [release_eq hshared]
  apply h.modify hshared hindex rfl
  · split
    · exact FileDocument.wrote_discard _ _
    · exact Disk.Wrote.refl _ _
  · intro hothers
    have hmore : shared.holders ≠ 1 := fun heq => hothers (by rw [heq])
    rw [if_neg hmore]
    exact h.kept number shared index hshared hindex hheld
  · show shared.holders - 1 + _ = _
    rw [List.count_cons_self]
    omega
  · exact fun other hother => (List.count_cons_of_ne hother.symm).symm
  · exact fun _ _ => rfl

end Intact

end MountedSet

end XmlWorkload
