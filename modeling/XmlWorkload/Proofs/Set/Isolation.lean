import XmlWorkload.Proofs.Set.Paths
import XmlWorkload.Proofs.Set.Session

/-!
# Documents that do not disturb one another

Main statement: an index keeps its document as long as the set is open, a creation that failed
can be tried again, no operation on one index is seen from the documents of another one, and a
configuration error changes no document (`Session.isolation_of_documents`).
-/

set_option autoImplicit false

namespace XmlWorkload

namespace MountedSet

variable {origin : DocumentSet} {made claims : List Nat} {taken : Nat → List Emission}
  {mounted : MountedSet} {index : Nat}

/-- Only a place that is taken already is told as a file that exists. -/
theorem creationError_eq_fileExists_iff {path : String} {fault : IoFault} :
    creationError path fault = .fileExists path ↔ fault = .alreadyExists := by
  cases fault <;> simp [creationError]

/-- Only a place that is not found is told as such. -/
theorem creationError_eq_notFound_iff {path : String} {fault : IoFault} :
    creationError path fault = .io .notFound ↔ fault = .notFound := by
  cases fault <;> simp [creationError]

/-- No error of making a file is one of the configuration. -/
theorem severity_creationError (path : String) (fault : IoFault) :
    (creationError path fault).severity ≠ .configuration := by
  cases fault <;> simp [creationError, Error.severity]

/-- A lookup of an index without a document fails for what the disk has at its path, or for want of
room. -/
theorem Acquires.of_new {outcome : Except Error Nat × MountedSet}
    (h : Acquires made index mounted outcome) (hopen : mounted.set.isClosed = false)
    (hnew : index ∉ made) :
    let path := mounted.set.filePath index
    (outcome.1 = .error (.fileExists path) ↔
        (mounted.disk.createFile path).1 = .error .alreadyExists) ∧
      (outcome.1 = .error (.io .notFound) ↔
        (mounted.disk.createFile path).1 = .error .notFound) ∧
      (outcome.1 = .error (.fileExists path) ∨ outcome.1 = .error (.io .notFound) →
        outcome.2 = mounted) := by
  cases h with
  | closed hclosed =>
    rw [hopen] at hclosed
    cases hclosed
  | found _ hindex => exact absurd (List.mem_of_getElem? hindex) hnew
  | refused _ _ hcreate =>
    simp [hcreate, creationError_eq_fileExists_iff, creationError_eq_notFound_iff]
  | full _ _ hcreate => simp [hcreate]
  | added _ _ hcreate => simp [hcreate]

/-- Where a file can be made and there is room, an index gets its document. -/
theorem Acquires.of_creatable {outcome : Except Error Nat × MountedSet}
    (h : Acquires made index mounted outcome) (hopen : mounted.set.isClosed = false)
    (hnew : index ∉ made) (hcreatable : mounted.disk.Creatable (mounted.set.filePath index))
    (hroom : mounted.disk.HasRoom
      (Reference.prologue mounted.set.engine.declaration).toUTF8.size) :
    outcome.1 = .ok made.length ∧ outcome.2.set.isClosed = false := by
  obtain ⟨file, disk, hcreate⟩ := hcreatable
  cases h with
  | closed hclosed =>
    rw [hopen] at hclosed
    cases hclosed
  | found _ hindex => exact absurd (List.mem_of_getElem? hindex) hnew
  | refused _ _ hrefused =>
    rw [hrefused] at hcreate
    cases hcreate
  | full _ _ _ _ hfull => exact absurd hroom hfull
  | added => exact ⟨rfl, hopen⟩

/-- An emission that is refused for its configuration at most makes the document. -/
theorem Intact.emit_of_configuration (h : Intact origin made claims taken mounted)
    (emission : Emission) {error : Error}
    (herror : ((MountedSet.emit index emission.path emission.template).run mounted).1 =
      .error error)
    (hseverity : error.severity = .configuration) :
    let left := ((MountedSet.emit index emission.path emission.template).run mounted).2
    left = mounted ∨ index ∉ made ∧
      (∀ number view, mounted.view? number = some view → left.view? number = some view) ∧
      ∃ document, left.set.documents = mounted.set.documents.push ⟨document, 1⟩ ∧
        document.IsNew origin.engine.declaration origin.root left.disk := by
  intro left
  have hcases := h.acquire_cases index
  rcases hrun : (MountedSet.acquire index).run mounted with ⟨fault | number, found⟩
  · -- no lookup fails for a configuration
    rw [run_emit_of_error hrun] at herror
    rw [hrun] at hcases
    obtain rfl : fault = error := Except.error.inj herror
    cases hcases with
    | closed | full => cases hseverity
    | refused => exact absurd hseverity (severity_creationError _ _)
  · obtain ⟨hindex, hintact, -⟩ := h.acquire_ok hrun
    rw [run_emit_of_ok hrun] at herror
    have hleft : left = found.release number := by
      have hsame := hintact.emitTo_of_configuration List.mem_cons_self hindex herror hseverity
      simp only [left, run_emit_of_ok hrun, hsame]
    rw [hrun] at hcases
    cases hcases with
    | found hopen hfound =>
      obtain ⟨shared, -, hshared, -⟩ :=
        h.ledger.exists_shared (List.getElem?_eq_some_iff.1 hfound).1
      exact .inl (hleft.trans (release_hold hshared (h.ledger.holders_of_open hopen hshared)))
    | @added hopen hnew before disk hcreate hwrote document hfile hfresh =>
      have hlast : (mounted.adding index document disk).set.documents[made.length]? =
          some ⟨document, 1⟩ := by
        rw [← h.ledger.count]
        exact Array.getElem?_push_size
      have hadded : left = mounted.adding index document disk :=
        hleft.trans (release_hold hlast Nat.one_ne_zero)
      rw [h.root, h.engine] at hfresh
      obtain ⟨-, hspares⟩ := h.adding hopen hnew (size_of_wrote hcreate hwrote)
        (fun file => contentsOf_of_wrote hcreate hwrote) hfile hfresh.kept
      rw [hadded]
      refine .inr ⟨hnew, fun number view hview => ?_, document, rfl, hfresh⟩
      obtain ⟨shared, hshared, -⟩ := Option.map_eq_some_iff.1 hview
      rw [← hview]
      exact (hspares number (Nat.ne_of_lt (h.ledger.lt_length hshared))).view?_eq

end MountedSet

namespace Session

namespace Intact

variable {origin : DocumentSet} {session later : Session} {index number : Nat}

/-- A set puts its files where it did at first. -/
theorem filePath_eq (h : Intact origin session) :
    session.mounted.set.filePath = origin.filePath := by
  funext index
  rw [DocumentSet.filePath, DocumentSet.filePath, h.mounted.directory]

/-- As long as the set is open a lookup gives the document that was found for the index before. -/
theorem acquire_of_found (h : Intact origin session) (hopen : session.mounted.set.isClosed = false)
    (hfound : session.mounted.find? index = some number) (hreaches : Reaches session later)
    (hstill : later.mounted.set.isClosed = false) :
    (MountedSet.acquire index).run later.mounted = (.ok number, later.mounted.hold number) := by
  obtain ⟨hlater, hmade⟩ := h.reaches hreaches
  have hnumber := (h.mounted.ledger.find?_eq_some_iff hopen).1 hfound
  exact MountedSet.run_acquire_of_find? hstill
    ((hlater.mounted.ledger.find?_eq_some_iff hstill).2 (getElem?_mono hmade hnumber))

/-- An index gets its document once nothing is at its path and there is room. -/
theorem acquire_of_free (h : Intact origin session) (hopen : session.mounted.set.isClosed = false)
    (hnew : index ∉ session.made)
    (hfree : ∃ place, session.mounted.disk.locate (origin.filePath index) = .ok place ∧
      session.mounted.disk.entry? place = none)
    (hroom : session.mounted.disk.HasRoom
      (Reference.prologue origin.engine.declaration).toUTF8.size) :
    ∃ number, ((MountedSet.acquire index).run session.mounted).1 = .ok number ∧
      ((MountedSet.acquire index).run session.mounted).2.find? index = some number := by
  rw [← h.filePath_eq, ← DocumentSet.creatable_filePath_iff] at hfree
  rw [← h.mounted.engine] at hroom
  obtain ⟨hlooked, hstill⟩ := (h.mounted.acquire_cases index).of_creatable hopen hnew hfree hroom
  have hrun : (MountedSet.acquire index).run session.mounted = (.ok session.made.length,
      ((MountedSet.acquire index).run session.mounted).2) := Prod.ext hlooked rfl
  obtain ⟨hindex, hafter, -⟩ := h.mounted.acquire_ok hrun
  exact ⟨_, hlooked, (hafter.ledger.find?_eq_some_iff hstill).2 hindex⟩

/-- A document that was made can be viewed. -/
theorem exists_view (h : Intact origin session) (hindex : session.made[number]? = some index) :
    ∃ view, session.mounted.view? number = some view := by
  obtain ⟨shared, -, hshared, -⟩ :=
    h.mounted.ledger.exists_shared (List.getElem?_eq_some_iff.1 hindex).1
  exact ⟨_, Option.map_eq_some_iff.2 ⟨shared, hshared, rfl⟩⟩

end Intact

/-- What others than the one who uses a document do is not seen from it.  As long as a set is open an
index keeps its document, whatever else is done and whatever others make of the disk, and the indices
in use are those whose creation succeeded, ascending.  Different indices have different paths.  A
creation that fails because its file is there or its directory is missing changes nothing, and once
that is no longer so it succeeds, if there is room.  What is done on one index changes nothing that
can be seen of the documents of others.  And an emission that is refused for its configuration
changes no document; at most it makes one in which nothing is written. -/
theorem isolation_of_documents {directory root : String} {engine : Engine} {disk left : Disk}
    {set : DocumentSet}
    (hcreate : (DocumentSet.create directory root engine).run disk = (.ok set, left))
    {session : Session} (hreaches : Reaches (start ⟨set, left⟩) session) :
    let mounted := session.mounted
    let prologue := (Reference.prologue engine.declaration).toUTF8
    (mounted.set.isClosed = false →
      mounted.set.indices.Pairwise (· < ·) ∧
      (∀ index, index ∈ mounted.set.indices ↔ index ∈ session.made) ∧
      ∀ index number, (mounted.find? index = some number ↔ session.made[number]? = some index) ∧
        (mounted.find? index = some number →
          ∀ later, Reaches session later → later.mounted.set.isClosed = false →
            (MountedSet.acquire index).run later.mounted =
              (.ok number, later.mounted.hold number))) ∧
    Function.Injective mounted.set.filePath ∧
    (mounted.set.isClosed = false → ∀ index, index ∉ session.made →
      let path := mounted.set.filePath index
      let outcome := (MountedSet.acquire index).run mounted
      (outcome.1 = .error (.fileExists path) ↔
        ∃ place entry, mounted.disk.locate path = .ok place ∧
          mounted.disk.entry? place = some entry) ∧
      (outcome.1 = .error (.io .notFound) ↔ mounted.disk.locate path = .error .notFound) ∧
      (outcome.1 = .error (.fileExists path) ∨ outcome.1 = .error (.io .notFound) →
        outcome.2 = mounted) ∧
      ∀ later, Reaches session later → later.mounted.set.isClosed = false → index ∉ later.made →
        (∃ place, later.mounted.disk.locate path = .ok place ∧
          later.mounted.disk.entry? place = none) → later.mounted.disk.HasRoom prologue.size →
        ∃ number, ((MountedSet.acquire index).run later.mounted).1 = .ok number ∧
          ((MountedSet.acquire index).run later.mounted).2.find? index = some number) ∧
    (∀ operation, session.Allows operation → ∀ number index,
      session.made[number]? = some index → index ≠ operation.index →
        ∃ view, mounted.view? number = some view ∧
          (session.perform operation).mounted.view? number = some view) ∧
    ∀ (emission : Emission) error, error.severity = .configuration →
      (∀ handle ∈ session.held,
        let outcome := (MountedSet.emitTo handle.2 emission.path emission.template).run mounted
        outcome.1 = .error error → outcome.2 = mounted) ∧
      ∀ index,
        let outcome := (MountedSet.emit index emission.path emission.template).run mounted
        outcome.1 = .error error →
          outcome.2 = mounted ∨ index ∉ session.made ∧
            (∀ number view, mounted.view? number = some view →
              outcome.2.view? number = some view) ∧
            ∃ document, outcome.2.set.documents = mounted.set.documents.push ⟨document, 1⟩ ∧
              document.IsNew engine.declaration root outcome.2.disk := by
  have hintact := ((intact_start hcreate).reaches hreaches).1
  obtain ⟨-, -, rfl⟩ := DocumentSet.of_create hcreate
  refine ⟨fun hopen => ?_, session.mounted.set.filePath_injective, ?_, ?_, ?_⟩
  · obtain ⟨hascending, hindices⟩ := hintact.mounted.ledger.indices_of_open hopen
    exact ⟨hascending, hindices, fun index number =>
      ⟨hintact.mounted.ledger.find?_eq_some_iff hopen,
        fun hfound later hlater => hintact.acquire_of_found hopen hfound hlater⟩⟩
  · intro hopen index hnew path outcome
    obtain ⟨hexists, hmissing, hsame⟩ := (hintact.mounted.acquire_cases index).of_new hopen hnew
    refine ⟨hexists.trans Disk.createFile_alreadyExists_iff,
      hmissing.trans Disk.createFile_notFound_iff, hsame, ?_⟩
    intro later hlater hstill hnew' hfree hroom
    have hpath : path = _ := congrFun hintact.filePath_eq index
    rw [hpath] at hfree
    exact (hintact.reaches hlater).1.acquire_of_free hstill hnew' hfree hroom
  · intro operation hallowed number index hindex hne
    obtain ⟨view, hview⟩ := hintact.exists_view hindex
    exact ⟨view, hview,
      ((hintact.perform hallowed).spares number index hindex hne).trans hview⟩
  · intro emission error hseverity
    exact ⟨fun handle hheld herror => hintact.mounted.emitTo_of_configuration
        (List.mem_map_of_mem hheld) (hintact.held handle hheld) herror hseverity,
      fun index herror => hintact.mounted.emit_of_configuration emission herror hseverity⟩

/-- The small set, with something at the path of one of its documents. -/
def smallBlocked : MountedSet :=
  ⟨smallSet.set, { smallSet.disk with
    entries := (["out", "xml7.xml"], .directory) :: smallSet.disk.entries }⟩

/-- A lookup fails because its file is there, and succeeds once it was taken away. -/
theorem isolation_of_documents_small :
    (DocumentSet.create "out" "r" ⟨8, false⟩).run Disk.empty = (.ok smallSet.set, smallSet.disk) ∧
      Reaches (start ⟨smallSet.set, smallSet.disk⟩) (start smallBlocked) ∧
      ((MountedSet.acquire 7).run smallBlocked).1 = .error (.fileExists "out/xml7.xml") ∧
      Reaches (start smallBlocked) (start smallSet) ∧
      ∃ number, ((MountedSet.acquire 7).run smallSet).1 = .ok number ∧
        ((MountedSet.acquire 7).run smallSet).2.find? 7 = some number := by
  have htolerates : ∀ disk, smallSet.Tolerates disk := fun _ => ⟨Nat.zero_le _, nofun⟩
  have hblocked : Reaches (start ⟨smallSet.set, smallSet.disk⟩) (start smallBlocked) :=
    .single (.outside (htolerates _))
  have hfreed : Reaches (start smallBlocked) (start smallSet) :=
    .single (.outside ⟨Nat.zero_le _, nofun⟩)
  obtain ⟨-, -, hcreation, -⟩ := isolation_of_documents create_smallSet hblocked
  obtain ⟨hexists, -, -, hretry⟩ := hcreation rfl 7 nofun
  exact ⟨create_smallSet, hblocked, hexists.2 ⟨_, _, rfl, rfl⟩, hfreed,
    hretry _ hfreed rfl nofun ⟨_, rfl, rfl⟩ nofun⟩

end Session

end XmlWorkload
