import XmlWorkload.Proofs.Set.Adding
import XmlWorkload.Proofs.Set.LeftBehind

/-!
# Closing all documents of a set

Closing goes through the documents one after the other, whatever becomes of each.  Main statement:
what becomes of every document and what is reported, wherever the disk runs full
(`MountedSet.Intact.closesSet`).
-/

set_option autoImplicit false

namespace XmlWorkload

/-- What a close that gave a result adds to the list of failures. -/
def failureOf? (index : Nat) : Except Error Unit → Option (Nat × Error)
  | .ok () => none
  | .error error => some (index, error)

/-- The failures of closes, in the order of their indices. -/
def failuresOf (result : Nat → Except Error Unit) (indices : List Nat) : List (Nat × Error) :=
  indices.filterMap fun index => failureOf? index (result index)

/-- The failures of a row are that of the first index and those of the rest. -/
theorem failuresOf_cons (result : Nat → Except Error Unit) (index : Nat) (rest : List Nat) :
    failuresOf result (index :: rest) =
      (failureOf? index (result index)).toList ++ failuresOf result rest := by
  rw [failuresOf, List.filterMap_cons]
  rcases result index with error | ⟨⟩ <;> rfl

/-- There is no failure exactly when everything succeeded. -/
theorem failuresOf_eq_nil_iff {result : Nat → Except Error Unit} {indices : List Nat} :
    failuresOf result indices = [] ↔ ∀ index ∈ indices, result index = .ok () := by
  rw [failuresOf, List.filterMap_eq_nil_iff]
  refine forall₂_congr fun index _ => ?_
  rcases result index with error | ⟨⟩ <;> simp [failureOf?]

/-- A failure is one of an index of the row, with the error that it came to. -/
theorem mem_failuresOf_iff {result : Nat → Except Error Unit} {indices : List Nat} {index : Nat}
    {error : Error} :
    (index, error) ∈ failuresOf result indices ↔ index ∈ indices ∧ result index = .error error := by
  rw [failuresOf, List.mem_filterMap]
  constructor
  · rintro ⟨other, hother, hfailure⟩
    rcases hresult : result other with fault | ⟨⟩
    · rw [hresult] at hfailure
      cases hfailure
      exact ⟨hother, hresult⟩
    · rw [hresult] at hfailure
      cases hfailure
  · rintro ⟨hindex, hresult⟩
    exact ⟨index, hindex, by rw [hresult]; rfl⟩

/-- Failures stand in the order of the indices, each index once. -/
theorem map_fst_failuresOf_sublist (result : Nat → Except Error Unit) (indices : List Nat) :
    ((failuresOf result indices).map Prod.fst).Sublist indices := by
  induction indices with
  | nil => exact .slnil
  | cons index rest ih =>
    rw [failuresOf_cons]
    rcases result index with error | ⟨⟩
    · exact ih.cons_cons index
    · exact ih.cons index

/-- The outcome of closing a set with these failures. -/
def closingOutcome (failures : List (Nat × Error)) : Except Error Unit :=
  if failures = [] then .ok () else .error (.unclosedDocuments failures)

namespace MountedSet

/-- The document with a number was closed with a result.  If it is closed now it holds nothing back,
and its file has the reference document of its emissions. -/
def ClosedWith (origin : DocumentSet) (emissions : List Emission) (number : Nat)
    (result : Except Error Unit) (before after : MountedSet) : Prop :=
  ∃ shared shared', before.set.documents[number]? = some shared ∧
    after.set.documents[number]? = some shared' ∧
    shared.document.Closes result shared'.document ∧
    (shared'.document.status = .closed → shared'.document.sink.output.buffer = .empty ∧
      ∃ tree, Reference.tree? origin.root emissions = some tree ∧
        after.disk.contentsOf shared'.file = front origin ++ tree.render.toUTF8)

section ClosedWith

variable {origin : DocumentSet} {emissions : List Emission} {number : Nat}
  {result : Except Error Unit} {before middle after : MountedSet}

/-- A document that was not touched before it was closed was closed as it had been. -/
theorem ClosedWith.of_untouched (h : ClosedWith origin emissions number result middle after)
    (huntouched : Untouched before middle number) :
    ClosedWith origin emissions number result before after := by
  obtain ⟨shared, shared', hshared, hafter⟩ := h
  exact ⟨shared, shared', huntouched.documents ▸ hshared, hafter⟩

/-- A document that is not touched after it was closed stays as it was left. -/
theorem ClosedWith.untouched (h : ClosedWith origin emissions number result before middle)
    (huntouched : Untouched middle after number) :
    ClosedWith origin emissions number result before after := by
  obtain ⟨shared, shared', hshared, hshared', hcloses, hstored⟩ := h
  refine ⟨shared, shared', hshared, huntouched.documents.trans hshared', hcloses, ?_⟩
  rwa [huntouched.contents shared' hshared']

end ClosedWith

/-- The failure of closing one document has its index and the error. -/
theorem failures_closeDrained (entry : Nat × Nat) (mounted : MountedSet) :
    (closeDrained entry mounted).1.toList.map (fun failure => (failure.index, failure.error)) =
      (failureOf? entry.1 ((closeOne entry.2).run mounted).1).toList := by
  unfold closeDrained
  simp only [Action.run]
  rcases closeOne entry.2 mounted with ⟨⟨⟩ | ⟨⟩, left⟩ <;> rfl

/-- Documents are closed one after the other, while others may use the disk in between. -/
inductive ClosesAll : List (Nat × Nat) → MountedSet → List UnclosedDocument → MountedSet → Prop where
  | nil (mounted : MountedSet) : ClosesAll [] mounted [] mounted
  | cons {entry : Nat × Nat} {rest : List (Nat × Nat)} {mounted after : MountedSet} {disk : Disk}
      {failures : List UnclosedDocument} (hdisk : mounted.Tolerates disk)
      (hrest : ClosesAll rest (closeDrained entry ⟨mounted.set, disk⟩).2 failures after) :
      ClosesAll (entry :: rest) mounted
        ((closeDrained entry ⟨mounted.set, disk⟩).1.toList ++ failures) after

/-- Closing documents while nobody else uses the disk. -/
theorem closesAll_closeAll (entries : List (Nat × Nat)) (mounted : MountedSet) :
    ClosesAll entries mounted (closeAll entries mounted).1 (closeAll entries mounted).2 := by
  induction entries generalizing mounted with
  | nil => exact .nil mounted
  | cons entry rest ih => exact .cons mounted.tolerates_disk (ih _)

/-- A set is closed with an outcome, while others may use the disk between any two documents. -/
def ClosesSet (mounted : MountedSet) (outcome : Except Error Unit × MountedSet) : Prop :=
  ∃ failures, ClosesAll mounted.drain.1 mounted.drain.2 failures outcome.2 ∧
    outcome.1 = closeResult failures

/-- Closing a set while nobody else uses the disk. -/
theorem closesSet_close (mounted : MountedSet) : mounted.ClosesSet (close.run mounted) :=
  ⟨_, closesAll_closeAll _ _, rfl⟩

/-- Closing documents leaves the set closed or open as it was. -/
theorem ClosesAll.isClosed {entries : List (Nat × Nat)} {mounted after : MountedSet}
    {failures : List UnclosedDocument} (h : ClosesAll entries mounted failures after) :
    after.set.isClosed = mounted.set.isClosed := by
  induction h with
  | nil => rfl
  | cons _ _ ih => exact ih.trans (isClosed_closeDrained _ _)

/-- The documents that are taken out of a set stand in the order of its indices. -/
theorem map_fst_drain (mounted : MountedSet) :
    mounted.drain.1.map Prod.fst = mounted.set.indices :=
  List.map_mergeSort fun _ _ _ _ => rfl

/-- A set is closed with the outcome of its failures. -/
theorem closeResult_eq (failures : List UnclosedDocument) :
    closeResult failures =
      closingOutcome (failures.map fun failure => (failure.index, failure.error)) := by
  cases failures <;> rfl

namespace Intact

variable {origin : DocumentSet} {made claims : List Nat} {taken : Nat → List Emission}
  {mounted : MountedSet}

/-- Closing the next of the documents that were taken out of the set, and letting it go. -/
theorem closeDrained {entry : Nat × Nat}
    (h : Intact origin made (entry.2 :: claims) taken mounted)
    (hindex : made[entry.2]? = some entry.1) :
    let left := (MountedSet.closeDrained entry mounted).2
    Intact origin made claims taken left ∧ Spares entry.2 mounted left ∧
      ClosedWith origin (taken entry.1) entry.2 ((MountedSet.closeOne entry.2).run mounted).1
        mounted left := by
  intro left
  let closed := ((MountedSet.closeOne entry.2).run mounted).2
  have hleft : left = closed.release entry.2 := closeDrained_eq entry mounted
  obtain ⟨hclosed, hspares, before, after, hbefore, hafter, -, hcloses⟩ :=
    h.closeOne List.mem_cons_self hindex
  obtain ⟨hreleased, hspares'⟩ := hclosed.release
  have hkept := hclosed.kept_of_claim List.mem_cons_self hafter hindex
  rw [hleft]
  refine ⟨hreleased, hspares.trans hspares', before, { after with holders := after.holders - 1 },
    hbefore, ?_, hcloses, fun hstatus => ?_⟩
  · rw [release_eq hafter]
    show (closed.set.documents.modify entry.2 _)[entry.2]? = _
    rw [Array.getElem?_modify, if_pos rfl, hafter]
    rfl
  · obtain ⟨tree, htree, hbuffer, hcontents⟩ := hkept.of_closed hstatus
    refine ⟨hbuffer, tree, htree, ?_⟩
    rw [← hcontents, release_eq hafter]
    -- letting a closed document go has nothing to bring to the file any more
    split
    · exact hkept.discard_of_closed hstatus
    · rfl

/-- Closing documents, each once, gives each its result, and their failures in their order. -/
theorem closesAll {entries : List (Nat × Nat)} {after : MountedSet}
    {failures : List UnclosedDocument} (hcloses : ClosesAll entries mounted failures after)
    (h : Intact origin made (entries.map Prod.snd ++ claims) taken mounted)
    (hmade : ∀ entry ∈ entries, made[entry.2]? = some entry.1)
    (hnodup : (entries.map Prod.fst).Nodup) :
    Intact origin made claims taken after ∧
      (∀ number, number ∉ entries.map Prod.snd → Untouched mounted after number) ∧
      ∃ result : Nat → Except Error Unit,
        failures.map (fun failure => (failure.index, failure.error)) =
          failuresOf result (entries.map Prod.fst) ∧
        ∀ entry ∈ entries,
          ClosedWith origin (taken entry.1) entry.2 (result entry.1) mounted after := by
  induction hcloses with
  | nil mounted => exact ⟨h, fun number _ => .refl mounted number, fun _ => .ok (), rfl, by simp⟩
  | @cons entry rest mounted after disk failures hdisk _ ih =>
    have hentry := hmade entry List.mem_cons_self
    have hrest : ∀ other ∈ rest, made[other.2]? = some other.1 :=
      fun other hother => hmade other (List.mem_cons_of_mem entry hother)
    obtain ⟨hnew, hnodup'⟩ := List.nodup_cons.1 hnodup
    -- documents of other indices have other numbers
    have hnumbers : ∀ other ∈ rest, other.2 ≠ entry.2 := by
      intro other hother heq
      have hsame := hrest other hother
      rw [heq, hentry] at hsame
      exact hnew (List.mem_map.2 ⟨other, hother, (Option.some.inj hsame).symm⟩)
    obtain ⟨hclosed, hspares, hfirst⟩ := (h.frame hdisk).closeDrained hentry
    obtain ⟨hintact, huntouched, result, hfailures, hothers⟩ := ih hclosed hrest hnodup'
    let first := ((MountedSet.closeOne entry.2).run ⟨mounted.set, disk⟩).1
    refine ⟨hintact, ?_, Function.update result entry.1 first, ?_, ?_⟩
    · intro number hnumber
      rw [List.map_cons, List.mem_cons, not_or] at hnumber
      exact ((hdisk.untouched number).trans (hspares number hnumber.1)).trans
        (huntouched number hnumber.2)
    · have hsame : failuresOf (Function.update result entry.1 first) (rest.map Prod.fst) =
          failuresOf result (rest.map Prod.fst) := by
        refine List.filterMap_congr fun index hindex => ?_
        have hne : index ≠ entry.1 := by
          rintro rfl
          exact hnew hindex
        rw [Function.update_of_ne hne]
      rw [List.map_append, failures_closeDrained, hfailures, List.map_cons, failuresOf_cons, hsame,
        Function.update_self]
    · intro other hother
      rcases List.mem_cons.1 hother with rfl | hother
      · rw [Function.update_self]
        apply (hfirst.of_untouched (hdisk.untouched other.2)).untouched
        apply huntouched
        rw [List.mem_map]
        rintro ⟨other', hother', heq⟩
        exact hnumbers other' hother' heq
      · have hne : other.1 ≠ entry.1 := fun heq => hnew (List.mem_map.2 ⟨other, hother, heq⟩)
        rw [Function.update_of_ne hne]
        exact (hothers other hother).of_untouched
          ((hdisk.untouched other.2).trans (hspares other.2 (hnumbers other hother)))

/-- Taking the documents out of an intact set leaves it intact, with them in hand. -/
theorem drain (h : Intact origin made claims taken mounted) :
    Intact origin made (mounted.drain.1.map Prod.snd ++ claims) taken mounted.drain.2 :=
  { h with
    ledger := h.ledger.drain ((List.mergeSort_perm mounted.set.registry _).map Prod.snd) }

/-- Closing a set gives each of its documents a result, and reports those that failed in the order of
the indices. -/
theorem closesSet (h : Intact origin made claims taken mounted)
    {outcome : Except Error Unit × MountedSet} (hcloses : mounted.ClosesSet outcome) :
    Intact origin made claims taken outcome.2 ∧ outcome.2.set.isClosed = true ∧
      ∃ result : Nat → Except Error Unit,
        outcome.1 = closingOutcome (failuresOf result mounted.set.indices) ∧
        ∀ entry ∈ mounted.set.registry,
          ClosedWith origin (taken entry.1) entry.2 (result entry.1) mounted outcome.2 := by
  obtain ⟨failures, hall, houtcome⟩ := hcloses
  have hperm : mounted.drain.1.Perm mounted.set.registry := List.mergeSort_perm _ _
  have hmade : ∀ entry ∈ mounted.drain.1, made[entry.2]? = some entry.1 := fun entry hentry =>
    h.ledger.getElem?_of_mem_registry (hperm.mem_iff.1 hentry)
  have hnodup : (mounted.drain.1.map Prod.fst).Nodup :=
    (hperm.map Prod.fst).nodup_iff.2 h.ledger.nodup_indices
  obtain ⟨hintact, -, result, hfailures, hclosed⟩ := h.drain.closesAll hall hmade hnodup
  refine ⟨hintact, hall.isClosed, result, ?_, fun entry hentry =>
    hclosed entry (hperm.mem_iff.2 hentry)⟩
  rw [houtcome, closeResult_eq, hfailures, map_fst_drain]

end Intact

end MountedSet

end XmlWorkload
