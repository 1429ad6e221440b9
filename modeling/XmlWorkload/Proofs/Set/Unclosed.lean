import XmlWorkload.Proofs.Document.History
import XmlWorkload.Proofs.Set.Session

/-!
# Documents that cannot be closed

A set is closed once.  By then documents may be closed or failed, and others may fail while they are
closed.  Main statement: every document is attempted, all failures are reported together, and every
other document has its whole text in its file (`Session.outcome_of_close`).
-/

set_option autoImplicit false

namespace XmlWorkload.Session

open Relation

/-- Closing a closed set changes nothing. -/
theorem Intact.close_of_closed {origin : DocumentSet} {session : Session}
    (h : Intact origin session) (hclosed : session.mounted.set.isClosed = true) :
    session.mounted.set.indices = [] ∧
      MountedSet.close.run session.mounted = (.ok (), session.mounted) := by
  have hregistry : session.mounted.set.registry = [] := by
    rw [h.mounted.ledger.registry, if_pos hclosed]
  obtain ⟨⟨⟨directory, root, engine, registry, isClosed, documents⟩, disk⟩, held, made, log⟩ := session
  obtain rfl : registry = [] := hregistry
  obtain rfl : isClosed = true := hclosed
  refine ⟨List.mergeSort_nil, ?_⟩
  simp only [Action.run, MountedSet.close, MountedSet.closeDocuments, MountedSet.drain,
    List.mergeSort_nil, MountedSet.closeAll]
  rfl

/-- What closing a set comes to, whatever was done with its documents before and wherever the disk
runs full, also when others use the disk while the documents are closed.  Every document is closed or
failed with a result, and stays what it was if it was not live; a closed one has exactly the
reference document of what was granted on its index in its file.  The failures are reported together,
with their indices ascending, and the close succeeds exactly if every document is closed.  From then
on no index is in use, nothing can be looked up, and another close succeeds and changes nothing. -/
theorem outcome_of_close {directory root : String} {engine : Engine} {disk left : Disk}
    {set : DocumentSet}
    (hcreate : (DocumentSet.create directory root engine).run disk = (.ok set, left))
    {session : Session} (hreaches : Reaches (start ⟨set, left⟩) session)
    (hopen : session.mounted.set.isClosed = false) :
    session.mounted.ClosesSet (MountedSet.close.run session.mounted) ∧
    ∀ outcome, session.mounted.ClosesSet outcome →
      (∃ result : Nat → Except Error Unit,
        (∀ index ∈ session.mounted.set.indices, ∃ number before after,
          session.mounted.find? index = some number ∧
          session.mounted.set.documents[number]? = some before ∧
          outcome.2.set.documents[number]? = some after ∧
          before.document.Closes (result index) after.document ∧
          (result index = .ok () → after.document.status = .closed ∧
            after.document.sink.output.buffer = .empty ∧ ∃ text,
              Reference.text? engine.declaration root (grantedOn index session.log) = some text ∧
                outcome.2.disk.contentsOf after.file = text.toUTF8)) ∧
        let failures := failuresOf result session.mounted.set.indices
        outcome.1 = closingOutcome failures ∧ (failures.map Prod.fst).Pairwise (· < ·) ∧
          ∀ index error, (index, error) ∈ failures ↔
            index ∈ session.mounted.set.indices ∧ result index = .error error) ∧
      (outcome.1 = .ok () ↔ ∀ (number : Nat) (shared : SharedDocument),
        outcome.2.set.documents[number]? = some shared → shared.document.status = .closed) ∧
      ∀ later, Reaches { session with mounted := outcome.2 } later →
        later.mounted.set.indices = [] ∧
        (∀ index, (MountedSet.acquire index).run later.mounted =
          (.error .documentSetClosed, later.mounted)) ∧
        MountedSet.close.run later.mounted = (.ok (), later.mounted) := by
  refine ⟨session.mounted.closesSet_close, fun outcome hcloses => ?_⟩
  have hintact := ((intact_start hcreate).reaches hreaches).1
  obtain ⟨-, -, hset⟩ := DocumentSet.of_create hcreate
  have hledger := hintact.mounted.ledger
  obtain ⟨hascending, hindices⟩ := hledger.indices_of_open hopen
  obtain ⟨hafter, hclosed, result, hresult, hdocuments⟩ := hintact.mounted.closesSet hcloses
  have hclosedWith : ∀ index ∈ session.mounted.set.indices, ∃ number,
      session.mounted.find? index = some number ∧ session.made[number]? = some index ∧
        MountedSet.ClosedWith set (grantedOn index session.log) number (result index)
          session.mounted outcome.2 := by
    intro index hindex
    obtain ⟨number, hnumber⟩ := List.getElem?_of_mem ((hindices index).1 hindex)
    exact ⟨number, (hledger.find?_eq_some_iff hopen).2 hnumber, hnumber,
      hdocuments (index, number) ((hledger.mem_registry_iff hopen).2 hnumber)⟩
  refine ⟨⟨result, ?_, hresult, ?_, fun index error => mem_failuresOf_iff⟩, ?_, ?_⟩
  · intro index hindex
    obtain ⟨number, hfound, -, before, after, hbefore, hafter, hcloses, hstored⟩ :=
      hclosedWith index hindex
    refine ⟨number, before, after, hfound, hbefore, hafter, hcloses, fun hok => ?_⟩
    have hstatus := hcloses.ok_iff.1 hok
    obtain ⟨hbuffer, tree, htree, hcontents⟩ := hstored hstatus
    refine ⟨hstatus, hbuffer, Reference.prologue engine.declaration ++ tree.render, ?_, ?_⟩
    · rw [Reference.text?, show root = set.root by rw [hset], htree]
      rfl
    · rw [hcontents, Text.toUTF8_append, MountedSet.front, hset]
  · exact hascending.sublist (map_fst_failuresOf_sublist result _)
  · have houtcome : outcome.1 = .ok () ↔ failuresOf result session.mounted.set.indices = [] := by
      rw [hresult, closingOutcome]
      split <;> simp_all
    rw [houtcome, failuresOf_eq_nil_iff]
    constructor
    · intro hall number shared hshared
      obtain ⟨index, hindex⟩ : ∃ index, session.made[number]? = some index :=
        ⟨_, List.getElem?_eq_getElem (hafter.ledger.lt_length hshared)⟩
      have hmem := (hindices index).2 (List.mem_of_getElem? hindex)
      obtain ⟨other, -, hother, before, after, -, hafterShared, hcloses, -⟩ := hclosedWith index hmem
      obtain rfl := hledger.eq_of_index hindex hother
      obtain rfl : after = shared := Option.some.inj (hafterShared.symm.trans hshared)
      exact hcloses.ok_iff.1 (hall index hmem)
    · intro hall index hindex
      obtain ⟨number, -, -, before, after, -, hafterShared, hcloses, -⟩ := hclosedWith index hindex
      exact hcloses.ok_iff.2 (hall number after hafterShared)
  · -- nothing opens a closed set again
    intro later hlater
    have hlaterIntact := (hintact.step (.closeSet hcloses)).1
    have hlaterClosed := hlaterIntact.isClosed_reaches hclosed hlater
    obtain ⟨hnone, hagain⟩ := (hlaterIntact.reaches hlater).1.close_of_closed hlaterClosed
    exact ⟨hnone, MountedSet.run_acquire_of_closed hlaterClosed, hagain⟩

/-- A document of the set was looked up. -/
def smallFound : Session := (start smallSet).lookUp 7

/-- What has no name was written to the document, which is failed now. -/
def smallFailed : Session := smallFound.write (7, 0) ⟨["1"], .empty⟩

/-- The small session with a failed document can be reached. -/
theorem reaches_smallFailed : Reaches (start smallSet) smallFailed :=
  (ReflTransGen.single (.perform (.lookUp 7) trivial)).tail
    (.perform (.write (7, 0) ⟨["1"], .empty⟩) (List.mem_singleton.2 rfl))

/-- A document that failed before is reported with its reason when the set is closed. -/
theorem outcome_of_close_small :
    (DocumentSet.create "out" "r" ⟨8, false⟩).run Disk.empty = (.ok smallSet.set, smallSet.disk) ∧
      Reaches (start ⟨smallSet.set, smallSet.disk⟩) smallFailed ∧
      smallFailed.mounted.set.isClosed = false ∧
      (MountedSet.close.run smallFailed.mounted).1 =
        .error (.unclosedDocuments [(7, .documentUnusable (.invalidName "1"))]) := by
  obtain ⟨shared, hshared, hlive⟩ : ∃ shared, smallFound.mounted.set.documents[0]? = some shared ∧
      shared.document.status = .live := ⟨_, rfl, rfl⟩
  have hmounted : smallFailed.mounted = _ :=
    congrArg Prod.snd (MountedSet.onDocument_eq hshared (Document.emit ["1"] .empty))
  have hopen : smallFailed.mounted.set.isClosed = false := by
    rw [hmounted]
    rfl
  have hregistry : smallFailed.mounted.set.registry = [(7, 0)] := by
    rw [hmounted]
    rfl
  have hindices : smallFailed.mounted.set.indices = [7] := by
    rw [DocumentSet.indices, hregistry]
    exact List.mergeSort_singleton _
  refine ⟨create_smallSet, reaches_smallFailed, hopen, ?_⟩
  obtain ⟨hclose, hall⟩ := outcome_of_close create_smallSet reaches_smallFailed hopen
  obtain ⟨⟨result, hresult, houtcome, -⟩, -⟩ := hall _ hclose
  rw [hindices] at hresult houtcome
  obtain ⟨number, before, after, hnumber, hbefore, -, hcloses, -⟩ :=
    hresult 7 (List.mem_singleton.2 rfl)
  have hfailed : before.document.status = .failed (.invalidName "1") := by
    have hfound := ((intact_start create_smallSet).reaches
      (ReflTransGen.single (.perform (.lookUp 7) trivial))).1.mounted
    have hkept := hfound.kept_of_claim (List.mem_singleton.2 rfl) hshared rfl
    have hemit := Document.emit_of_follows ⟨["1"], .empty⟩ (hkept.follows_of_live hlive) hlive
      (by decide) Document.resolve_empty
    have hnames : Name.firstInvalid? (Document.emittedNames ⟨["1"], .empty⟩ []) = some "1" := by
      decide
    rw [hnames] at hemit
    obtain ⟨failed, hrun, hstatus, -⟩ := hemit
    rw [MountedSet.find?, hregistry] at hnumber
    obtain rfl : 0 = number := Option.some.inj hnumber
    rw [hmounted] at hbefore
    change (smallFound.mounted.set.documents.modify 0 _)[0]? = some before at hbefore
    rw [Array.getElem?_modify, if_pos rfl, hshared] at hbefore
    obtain rfl := Option.some.inj hbefore
    exact (congrArg (fun outcome => outcome.2.status) hrun).trans hstatus
  rw [houtcome, failuresOf_cons, hcloses.of_failed hfailed]
  rfl

end XmlWorkload.Session
