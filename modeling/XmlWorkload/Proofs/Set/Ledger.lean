import Mathlib.Data.List.Sort
import XmlWorkload.Document.Set

/-!
# The books of a set of documents

Which index has which document, and who can use it.  The documents stand in the order in which they
were made, each under an index of its own; as long as the set is open all of them are registered; and
each has as many holders as there are claims on it.  Main statements: what the operations on a set do
to its documents keeps the books right (`DocumentSet.Ledger.modify`, `DocumentSet.Ledger.push`,
`DocumentSet.Ledger.drain`).
-/

set_option autoImplicit false

namespace XmlWorkload

namespace MountedSet

/-- What holds of each document, by its number, still does when one of them was changed if it holds
of that one. -/
theorem forall_modify {holds : Nat → SharedDocument → Prop} {documents : Array SharedDocument}
    {changed : Nat} {change : SharedDocument → SharedDocument}
    (hothers : ∀ (number : Nat) (shared : SharedDocument), number ≠ changed →
      documents[number]? = some shared → holds number shared)
    (hchanged : ∀ shared, documents[changed]? = some shared → holds changed (change shared))
    (number : Nat) (shared : SharedDocument)
    (hshared : (documents.modify changed change)[number]? = some shared) :
    holds number shared := by
  rw [Array.getElem?_modify] at hshared
  by_cases heq : changed = number
  · subst heq
    rw [if_pos rfl] at hshared
    obtain ⟨shared₀, hshared₀, rfl⟩ := Option.map_eq_some_iff.1 hshared
    exact hchanged shared₀ hshared₀
  · rw [if_neg heq] at hshared
    exact hothers number shared (fun h => heq h.symm) hshared

end MountedSet

namespace DocumentSet

/-- Among the numbered indices of documents each is found with its own number. -/
theorem find?_zipIdx_eq_some_iff {made : List Nat} (hnodup : made.Nodup) {index : Nat}
    {entry : Nat × Nat} :
    (made.zipIdx.find? fun entry => entry.1 == index) = some entry ↔
      entry.1 = index ∧ made[entry.2]? = some index := by
  constructor
  · intro hfound
    have hindex : entry.1 = index := by simpa using List.find?_some hfound
    subst hindex
    exact ⟨rfl, List.mem_zipIdx_iff_getElem?.1 (List.mem_of_find?_eq_some hfound)⟩
  · rintro ⟨rfl, hindex⟩
    have hmem : entry ∈ made.zipIdx := List.mem_zipIdx_iff_getElem?.2 hindex
    obtain ⟨other, hother⟩ : ∃ other, (made.zipIdx.find? fun other => other.1 == entry.1) =
        some other := by
      rw [← Option.isSome_iff_exists, List.find?_isSome]
      exact ⟨entry, hmem, beq_self_eq_true _⟩
    have hfirst : other.1 = entry.1 := by simpa using List.find?_some hother
    have hindex' := List.mem_zipIdx_iff_getElem?.1 (List.mem_of_find?_eq_some hother)
    rw [hfirst] at hindex'
    have hsecond : other.2 = entry.2 :=
      (List.getElem?_inj (List.getElem?_eq_some_iff.1 hindex').1 hnodup).1
        (hindex'.trans hindex.symm)
    rw [hother, Prod.ext hfirst hsecond]

/-- The books of a set are right: `made` are the indices under which documents were made, in the
order of their numbers, and `claims` are the numbers of the documents that others than the set can
use, once for each time that they can. -/
structure Ledger (made claims : List Nat) (set : DocumentSet) : Prop where
  count : set.documents.size = made.length
  nodup : made.Nodup
  registry : set.registry = if set.isClosed = true then [] else made.zipIdx
  holders : ∀ (number : Nat) (shared : SharedDocument), set.documents[number]? = some shared →
    shared.holders = (set.registry.map Prod.snd ++ claims).count number
  claimed : ∀ number ∈ claims, number < made.length

namespace Ledger

variable {made claims claims' : List Nat} {set : DocumentSet} {index number : Nat}
  {shared : SharedDocument}

/-- The order of the claims does not matter. -/
theorem of_perm (h : Ledger made claims set) (hclaims : claims.Perm claims') :
    Ledger made claims' set where
  count := h.count
  nodup := h.nodup
  registry := h.registry
  holders := fun number shared hshared =>
    (h.holders number shared hshared).trans ((hclaims.append_left _).count_eq number)
  claimed := fun number hnumber => h.claimed number (hclaims.mem_iff.2 hnumber)

/-- A document with a number was made for some index. -/
theorem lt_length (h : Ledger made claims set) (hshared : set.documents[number]? = some shared) :
    number < made.length := by
  rw [← h.count]
  exact (Array.getElem?_eq_some_iff.1 hshared).1

/-- For every number below the count of documents there is one, made for some index. -/
theorem exists_shared (h : Ledger made claims set) (hnumber : number < made.length) :
    ∃ shared index, set.documents[number]? = some shared ∧ made[number]? = some index := by
  have hsize : number < set.documents.size := by
    rw [h.count]
    exact hnumber
  exact ⟨_, _, Array.getElem?_eq_getElem hsize, List.getElem?_eq_getElem hnumber⟩

/-- Documents with the same index are the same. -/
theorem eq_of_index (h : Ledger made claims set) {other : Nat} (hindex : made[number]? = some index)
    (hother : made[other]? = some index) : number = other :=
  (List.getElem?_inj (List.getElem?_eq_some_iff.1 hindex).1 h.nodup).1 (hindex.trans hother.symm)

/-- A number stands in the registry of an open set exactly once. -/
theorem count_registry (h : Ledger made claims set) (hnumber : number < made.length) :
    (set.registry.map Prod.snd).count number = if set.isClosed = true then 0 else 1 := by
  rw [h.registry]
  by_cases hclosed : set.isClosed = true
  · rw [if_pos hclosed, if_pos hclosed]
    rfl
  · rw [if_neg hclosed, if_neg hclosed, List.zipIdx_map_snd]
    apply List.count_eq_one_of_mem List.nodup_range'
    rw [List.mem_range'_1]
    omega

/-- Nobody knows of the document that would be made next. -/
theorem count_next (h : Ledger made claims set) :
    (set.registry.map Prod.snd ++ claims).count made.length = 0 := by
  rw [List.count_eq_zero, List.mem_append]
  rintro (hregistered | hclaim)
  · rw [h.registry] at hregistered
    by_cases hclosed : set.isClosed = true
    · rw [if_pos hclosed] at hregistered
      cases hregistered
    · rw [if_neg hclosed, List.zipIdx_map_snd, List.mem_range'_1] at hregistered
      omega
  · exact Nat.lt_irrefl _ (h.claimed made.length hclaim)

/-- A document that is claimed has a holder. -/
theorem holders_ne_zero (h : Ledger made claims set)
    (hshared : set.documents[number]? = some shared) (hclaim : number ∈ claims) :
    shared.holders ≠ 0 := by
  rw [h.holders number shared hshared, List.count_append]
  have hpositive : 0 < claims.count number := List.count_pos_iff.2 hclaim
  omega

/-- As long as the set is open every document of it has a holder. -/
theorem holders_of_open (h : Ledger made claims set) (hopen : set.isClosed = false)
    (hshared : set.documents[number]? = some shared) : shared.holders ≠ 0 := by
  have hregistered := h.count_registry (h.lt_length hshared)
  rw [if_neg (by simp [hopen])] at hregistered
  rw [h.holders number shared hshared, List.count_append]
  omega

/-- The registry of an open set has the documents under the indices that they were made for. -/
theorem mem_registry_iff (h : Ledger made claims set) (hopen : set.isClosed = false) :
    (index, number) ∈ set.registry ↔ made[number]? = some index := by
  rw [h.registry, if_neg (by simp [hopen])]
  exact List.mem_zipIdx_iff_getElem?

/-- What is found for an index is the number of its document. -/
theorem find?_eq_some_iff {mounted : MountedSet} (h : Ledger made claims mounted.set)
    (hopen : mounted.set.isClosed = false) :
    mounted.find? index = some number ↔ made[number]? = some index := by
  have hregistry : mounted.set.registry = made.zipIdx := by
    rw [h.registry, if_neg (by simp [hopen])]
  unfold MountedSet.find?
  rw [hregistry, Option.map_eq_some_iff]
  constructor
  · rintro ⟨entry, hentry, rfl⟩
    exact ((find?_zipIdx_eq_some_iff h.nodup).1 hentry).2
  · intro hindex
    exact ⟨(index, number), (find?_zipIdx_eq_some_iff h.nodup).2 ⟨rfl, hindex⟩, rfl⟩

/-- No document is found under an index in an open set exactly when none was made for it. -/
theorem find?_eq_none_iff {mounted : MountedSet} (h : Ledger made claims mounted.set)
    (hopen : mounted.set.isClosed = false) : mounted.find? index = none ↔ index ∉ made := by
  rw [Option.eq_none_iff_forall_ne_some, List.mem_iff_getElem?, not_exists]
  exact forall_congr' fun number => not_congr (h.find?_eq_some_iff hopen)

/-- One of the documents was changed, and with it who claims it. -/
theorem modify (h : Ledger made claims set) (hshared : set.documents[number]? = some shared)
    {change : SharedDocument → SharedDocument}
    (hholders : (change shared).holders + claims.count number =
      shared.holders + claims'.count number)
    (hclaims : ∀ other, other ≠ number → claims'.count other = claims.count other) :
    Ledger made claims' { set with documents := set.documents.modify number change } := by
  refine ⟨?_, h.nodup, h.registry, ?_, ?_⟩
  · rw [← h.count]
    exact Array.size_modify
  · apply MountedSet.forall_modify
    · intro other shared' hne hshared'
      rw [List.count_append, hclaims other hne, ← List.count_append]
      exact h.holders other shared' hshared'
    · intro shared' hshared'
      obtain rfl : shared = shared' := by
        rw [hshared] at hshared'
        exact Option.some.inj hshared'
      have hcount := h.holders number shared hshared
      rw [List.count_append] at hcount ⊢
      show _ = (set.registry.map Prod.snd).count number + claims'.count number
      omega
  · intro other hother
    by_cases heq : other = number
    · subst heq
      exact h.lt_length hshared
    · apply h.claimed
      rw [← List.count_pos_iff, ← hclaims other heq]
      exact List.count_pos_iff.2 hother

/-- A document was made under an index that was not in use, and registered. -/
theorem push (h : Ledger made claims set) (hopen : set.isClosed = false) (hnew : index ∉ made)
    (document : FileDocument) :
    Ledger (made ++ [index]) claims
      { set with
        registry := set.registry ++ [(index, set.documents.size)]
        documents := set.documents.push ⟨document, 1⟩ } := by
  have hnotClosed : ¬ set.isClosed = true := by simp [hopen]
  refine ⟨?_, ?_, ?_, ?_, ?_⟩
  · simp [h.count]
  · rw [List.nodup_append]
    refine ⟨h.nodup, List.nodup_singleton index, ?_⟩
    rintro other hother _ hindex rfl
    rw [List.mem_singleton] at hindex
    exact hnew (hindex ▸ hother)
  · rw [if_neg hnotClosed, h.registry, if_neg hnotClosed, h.count, List.zipIdx_append, Nat.zero_add]
    rfl
  · intro number shared hshared
    show shared.holders = ((set.registry ++ [(index, set.documents.size)]).map Prod.snd ++
      claims).count number
    rw [List.map_append, List.count_append, List.count_append, h.count]
    have hnext := h.count_next
    rw [List.count_append] at hnext
    rw [Array.getElem?_push, h.count] at hshared
    by_cases hlast : number = made.length
    · rw [if_pos hlast] at hshared
      cases hshared
      subst hlast
      simp only [List.map_cons, List.map_nil, List.count_cons_self, List.count_nil]
      omega
    · rw [if_neg hlast] at hshared
      have hother := h.holders number shared hshared
      rw [List.count_append] at hother
      have hne : made.length ≠ number := fun heq => hlast heq.symm
      simp only [List.map_cons, List.map_nil, List.count_cons_of_ne hne, List.count_nil]
      omega
  · intro number hnumber
    rw [List.length_append]
    exact Nat.lt_add_right 1 (h.claimed number hnumber)

/-- The numbers that stand in the registry are those of documents. -/
theorem getElem?_of_mem_registry (h : Ledger made claims set) {entry : Nat × Nat}
    (hentry : entry ∈ set.registry) : made[entry.2]? = some entry.1 := by
  rw [h.registry] at hentry
  by_cases hclosed : set.isClosed = true
  · rw [if_pos hclosed] at hentry
    cases hentry
  · rw [if_neg hclosed] at hentry
    exact List.mem_zipIdx_iff_getElem?.1 hentry

/-- The registry has no index twice. -/
theorem nodup_indices (h : Ledger made claims set) : (set.registry.map Prod.fst).Nodup := by
  rw [h.registry]
  split
  · exact List.nodup_nil
  · rw [List.zipIdx_map_fst]
    exact h.nodup

/-- The indices in use of an open set are those under which documents were made, ascending. -/
theorem indices_of_open (h : Ledger made claims set) (hopen : set.isClosed = false) :
    set.indices.Pairwise (· < ·) ∧ ∀ index, index ∈ set.indices ↔ index ∈ made := by
  have hperm : set.indices.Perm (set.registry.map Prod.fst) := List.mergeSort_perm _ _
  have hregistry : set.registry.map Prod.fst = made := by
    rw [h.registry, if_neg (by simp [hopen]), List.zipIdx_map_fst]
  refine ⟨?_, fun index => by rw [hperm.mem_iff, hregistry]⟩
  have hsorted : set.indices.Pairwise (· ≤ ·) := List.pairwise_mergeSort' (· ≤ ·) _
  have hnodup : set.indices.Nodup := hperm.nodup_iff.2 h.nodup_indices
  exact hsorted.imp₂ (fun _ _ hle hne => lt_of_le_of_ne hle hne) hnodup

/-- Whoever closes the set claims all documents that were registered. -/
theorem drain (h : Ledger made claims set) {numbers : List Nat}
    (hperm : numbers.Perm (set.registry.map Prod.snd)) :
    Ledger made (numbers ++ claims) { set with registry := [], isClosed := true } := by
  refine ⟨h.count, h.nodup, rfl, ?_, ?_⟩
  · intro number shared hshared
    rw [h.holders number shared hshared]
    show _ = (numbers ++ claims).count number
    rw [List.count_append, List.count_append, hperm.count_eq]
  · intro number hnumber
    rcases List.mem_append.1 hnumber with hregistered | hclaim
    · obtain ⟨entry, hentry, rfl⟩ := List.mem_map.1 (hperm.mem_iff.1 hregistered)
      exact (List.getElem?_eq_some_iff.1 (h.getElem?_of_mem_registry hentry)).1
    · exact h.claimed number hclaim

end Ledger

end DocumentSet

end XmlWorkload
