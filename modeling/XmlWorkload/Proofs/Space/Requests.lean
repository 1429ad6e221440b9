import XmlWorkload.Document.Space
import XmlWorkload.Proofs.Set.Session

/-!
# Requests for the documents of a space

Making a set of documents empties its directory, so a second set in the same place would take away
what was written to the first.  A space makes at most one.  Requests may come at any time, with any
arguments, between operations on the set, also while and after it is closed, and others do with the
disk whatever they like.  Main statements: a call leaves a fresh space fresh unless it is a request
that is granted (`SpaceCall.run_fresh`); every call on a space that owns a set is one on that set,
and requests do nothing (`SpaceCall.run_owning`); so a space refuses requests at first, and then all
that happens to it happens to one set (`MountedSpace.one_set_of_requests`).
-/

set_option autoImplicit false

namespace XmlWorkload

/-- What is settled when a set is made: its directory, the name of its root element, its engine. -/
def DocumentSet.settings (set : DocumentSet) : String × String × Engine :=
  (set.directory, set.root, set.engine)

namespace MountedSet

variable {index number : Nat} {mounted : MountedSet}

/-- Letting a document go keeps the settings of the set. -/
theorem settings_release (number : Nat) (mounted : MountedSet) :
    (mounted.release number).set.settings = mounted.set.settings := by
  unfold release
  split <;> rfl

/-- What is done to a document keeps the settings of the set. -/
theorem settings_onDocument (number : Nat) (action : Action MountedDocument Unit)
    (mounted : MountedSet) :
    ((onDocument number action).run mounted).2.set.settings = mounted.set.settings := by
  simp only [Action.run, onDocument]
  split <;> rfl

/-- Adding a document keeps the settings of the set. -/
theorem settings_addDocument (index : Nat) (mounted : MountedSet) :
    ((addDocument index).run mounted).2.set.settings = mounted.set.settings := by
  simp only [Action.run, addDocument]
  split
  · rfl
  · rfl
  · split <;> rfl

/-- Looking a document up keeps the settings of the set. -/
theorem settings_acquire (index : Nat) (mounted : MountedSet) :
    ((acquire index).run mounted).2.set.settings = mounted.set.settings := by
  unfold acquire
  rw [Action.run_getState_bind]
  split
  · rfl
  · cases mounted.find? index with
    | some number => rfl
    | none =>
      have hadd := settings_addDocument index mounted
      rcases hrun : (addDocument index).run mounted with ⟨error | number, left⟩
      · rw [Action.run_bind_of_error hrun]
        rw [hrun] at hadd
        exact hadd
      · rw [Action.run_bind_of_ok hrun]
        rw [hrun] at hadd
        exact hadd

/-- Emitting to an index keeps the settings of the set. -/
theorem settings_emit (index : Nat) (emission : Emission) (mounted : MountedSet) :
    ((emit index emission.path emission.template).run mounted).2.set.settings =
      mounted.set.settings := by
  have hacquire := settings_acquire index mounted
  rcases hrun : (acquire index).run mounted with ⟨error | number, left⟩
  · rw [hrun] at hacquire
    rw [run_emit_of_error hrun]
    exact hacquire
  · rw [hrun] at hacquire
    rw [run_emit_of_ok hrun, settings_release, emitTo, settings_onDocument]
    exact hacquire

/-- Closing a document that was taken out keeps the settings of the set. -/
theorem settings_closeDrained (entry : Nat × Nat) (mounted : MountedSet) :
    (closeDrained entry mounted).2.set.settings = mounted.set.settings := by
  rw [closeDrained_eq, settings_release, settings_onDocument]

/-- Closing documents keeps the settings of the set. -/
theorem settings_closeAll (entries : List (Nat × Nat)) (mounted : MountedSet) :
    (closeAll entries mounted).2.set.settings = mounted.set.settings := by
  induction entries generalizing mounted with
  | nil => rfl
  | cons entry rest ih => exact (ih _).trans (settings_closeDrained entry mounted)

/-- Closing the set keeps its settings. -/
theorem settings_close (mounted : MountedSet) :
    (close.run mounted).2.set.settings = mounted.set.settings :=
  settings_closeAll _ _

end MountedSet

/-- What can be done with a set of documents. -/
inductive SetOperation where
  | document (operation : DocumentOperation)
  | close
  /-- The documents are taken out of the set and are still to be closed. -/
  | drain
  /-- One of the documents that were taken out is closed. -/
  | closeDrained (entry : Nat × Nat)

/-- What an operation makes of a set. -/
def SetOperation.apply (mounted : MountedSet) : SetOperation → MountedSet
  | .document operation => ((Session.start mounted).perform operation).mounted
  | .close => (MountedSet.close.run mounted).2
  | .drain => mounted.drain.2
  | .closeDrained entry => (MountedSet.closeDrained entry mounted).2

/-- No operation changes what is settled when a set is made. -/
theorem SetOperation.settings_apply (operation : SetOperation) (mounted : MountedSet) :
    (operation.apply mounted).set.settings = mounted.set.settings := by
  cases operation with
  | document operation =>
    cases operation with
    | lookUp index => exact MountedSet.settings_acquire index mounted
    | emit index emission => exact MountedSet.settings_emit index emission mounted
    | write handle emission => exact MountedSet.settings_onDocument handle.2 _ mounted
    | close handle => exact MountedSet.settings_onDocument handle.2 _ mounted
    | release handle => exact MountedSet.settings_release handle.2 mounted
  | close => exact MountedSet.settings_close mounted
  | drain => rfl
  | closeDrained entry => exact MountedSet.settings_closeDrained entry mounted

/-- What can happen to a space. -/
inductive SpaceCall where
  | request (directory root : String)
  | onSet (operation : SetOperation)
  | close
  /-- Somebody else uses the disk. -/
  | outside (change : Disk → Disk)

namespace SpaceCall

/-- What a call makes of a space. -/
def run (mounted : MountedSpace) : SpaceCall → MountedSpace
  | .request directory root => ((MountedSpace.requestDocuments directory root).run mounted).2
  | .onSet operation => (mounted.onSet fun set => ((), operation.apply set)).2
  | .close => (MountedSpace.close.run mounted).2
  | .outside change => { mounted with disk := change mounted.disk }

/-- The set that a request is given, or why it is refused. -/
def answer? (mounted : MountedSpace) : SpaceCall → Option (Except Error DocumentSet)
  | .request directory root =>
    some (((MountedSpace.requestDocuments directory root).run mounted).1.map Prod.fst)
  | .onSet _ | .close | .outside _ => none

/-- What a call makes of a set, if requests do nothing. -/
def apply (mounted : MountedSet) : SpaceCall → MountedSet
  | .request _ _ => mounted
  | .onSet operation => operation.apply mounted
  | .close => (MountedSet.close.run mounted).2
  | .outside change => { mounted with disk := change mounted.disk }

end SpaceCall

/-- A path is that of a directory, or directories can be made there. -/
def Disk.CanHold (disk : Disk) (directory : String) : Prop :=
  match disk.lookup directory with
  | .ok (_, .directory) => True
  | .ok (_, .file _) => False
  | .error _ => (disk.createDirectories directory).1 = .ok ()

namespace DocumentSet

/-- A directory can be made ready exactly when the disk can hold it. -/
theorem isOk_prepare_iff (directory : String) (disk : Disk) :
    ((prepare directory).run disk).1.isOk = true ↔ disk.CanHold directory := by
  simp only [Action.run, prepare, Disk.CanHold]
  split
  · next fault hlookup =>
    rw [hlookup]
    rcases (disk.createDirectories directory).1 with error | ⟨⟩ <;>
      simp [Except.mapError, Except.isOk, Except.toBool]
  · next location file hlookup =>
    rw [hlookup]
    simp [Except.isOk, Except.toBool]
  · next location hlookup =>
    rw [hlookup]
    simp [Except.isOk, Except.toBool]

/-- A set can be made below a root with a valid name in a directory that the disk can hold. -/
theorem isOk_create_iff (directory root : String) (engine : Engine) (disk : Disk) :
    ((create directory root engine).run disk).1.isOk = true ↔
      Name.isValid root = true ∧ disk.CanHold directory := by
  rw [← isOk_prepare_iff, ← Name.validate_eq_ok_iff]
  constructor
  · intro hok
    rcases hcreate : (create directory root engine).run disk with ⟨error | set, left⟩
    · rw [hcreate] at hok
      cases hok
    · obtain ⟨hroot, hprepare, -⟩ := of_create hcreate
      rw [hprepare]
      exact ⟨hroot, rfl⟩
  · rintro ⟨hroot, hok⟩
    rcases hprepare : (prepare directory).run disk with ⟨error | ⟨⟩, left⟩
    · rw [hprepare] at hok
      cases hok
    · rw [create_ok hroot hprepare]
      rfl

end DocumentSet

namespace MountedSpace

/-- A space that owns a set of documents. -/
def owning (name : String) (engine : Engine) (documents : MountedSet) : MountedSpace :=
  ⟨⟨name, engine, some documents.set⟩, documents.disk⟩

/-- A space that owns no documents yet. -/
def fresh (name : String) (engine : Engine) (disk : Disk) : MountedSpace :=
  ⟨.new name engine, disk⟩

/-- What several calls make of a space, one after the other. -/
def perform (calls : List SpaceCall) (mounted : MountedSpace) : MountedSpace :=
  calls.foldl SpaceCall.run mounted

/-- The answers to the requests among several calls. -/
def answers : List SpaceCall → MountedSpace → List (Except Error DocumentSet)
  | [], _ => []
  | call :: rest, mounted => (call.answer? mounted).toList ++ answers rest (call.run mounted)

/-- No request among several calls is granted. -/
def Refuses (mounted : MountedSpace) (calls : List SpaceCall) : Prop :=
  ∀ answer ∈ answers calls mounted, answer.isOk = false

variable {name : String} {engine : Engine}

/-- Two rows of calls are performed one after the other. -/
theorem perform_append (first second : List SpaceCall) (mounted : MountedSpace) :
    perform (first ++ second) mounted = perform second (perform first mounted) :=
  List.foldl_append

/-- Calls are refused when the first one is, and the rest behind it. -/
theorem refuses_cons_iff {mounted : MountedSpace} {call : SpaceCall} {rest : List SpaceCall} :
    Refuses mounted (call :: rest) ↔
      (∀ answer ∈ call.answer? mounted, answer.isOk = false) ∧
        Refuses (call.run mounted) rest := by
  simp only [Refuses, answers, List.forall_mem_append, Option.mem_toList, Option.mem_def]

/-- A request to a fresh space whose set cannot be made is refused, and the space stays fresh. -/
theorem run_request_of_error (name : String) {directory root : String} {disk left : Disk}
    {error : Error}
    (h : (DocumentSet.create directory root engine).run disk = (.error error, left)) :
    (requestDocuments directory root).run (fresh name engine disk) =
      (.error error, fresh name engine left) := by
  simp only [Action.run] at h
  simp only [Action.run, requestDocuments, fresh, Space.new, h]

/-- A request to a fresh space makes the set, and the space owns it from then on. -/
theorem run_request_of_ok (name : String) {directory root : String} {disk left : Disk}
    {set : DocumentSet}
    (h : (DocumentSet.create directory root engine).run disk = (.ok set, left)) :
    (requestDocuments directory root).run (fresh name engine disk) =
      (.ok (set, none), owning name engine ⟨set, left⟩) := by
  simp only [Action.run] at h
  simp only [Action.run, requestDocuments, fresh, owning, Space.new, h]

/-- A request is granted to a fresh space if the set can be made, and only then. -/
theorem isOk_request_fresh_iff (directory root : String) (disk : Disk) :
    ((requestDocuments directory root).run (fresh name engine disk)).1.isOk = true ↔
      Name.isValid root = true ∧ disk.CanHold directory := by
  rw [← DocumentSet.isOk_create_iff directory root engine]
  rcases hcreate : (DocumentSet.create directory root engine).run disk with ⟨error | set, left⟩
  · rw [run_request_of_error name hcreate]
    rfl
  · rw [run_request_of_ok name hcreate]
    rfl

/-- Whatever is requested from a space that owns a set, it gives that set and stays as it is. -/
theorem run_request_owning (directory root : String) (documents : MountedSet) :
    ∃ notice, (requestDocuments directory root).run (owning name engine documents) =
      (.ok (documents.set, notice), owning name engine documents) :=
  ⟨_, rfl⟩

end MountedSpace

namespace SpaceCall

variable {name : String} {engine : Engine}

/-- A call leaves a fresh space fresh, unless it is a request that is granted. -/
theorem run_fresh (call : SpaceCall) (name : String) (engine : Engine) (disk : Disk) :
    (∃ left, call.run (.fresh name engine disk) = .fresh name engine left ∧
      ∀ answer ∈ call.answer? (.fresh name engine disk), answer.isOk = false) ∨
    ∃ directory root left, call = .request directory root ∧
      (MountedSpace.requestDocuments directory root).run (.fresh name engine disk) =
        (.ok (⟨directory, root, engine, [], false, #[]⟩, none),
          .owning name engine ⟨⟨directory, root, engine, [], false, #[]⟩, left⟩) := by
  cases call with
  | request directory root =>
    rcases hcreate : (DocumentSet.create directory root engine).run disk with ⟨error | set, left⟩
    · have hrun := MountedSpace.run_request_of_error name hcreate
      refine .inl ⟨left, ?_, ?_⟩
      · simp only [run, hrun]
      · simp only [answer?, hrun]
        rintro answer ⟨⟩
        rfl
    · obtain ⟨-, -, rfl⟩ := DocumentSet.of_create hcreate
      exact .inr ⟨directory, root, left, rfl, MountedSpace.run_request_of_ok name hcreate⟩
  | onSet operation => exact .inl ⟨disk, rfl, nofun⟩
  | close => exact .inl ⟨disk, rfl, nofun⟩
  | outside change => exact .inl ⟨change disk, rfl, nofun⟩

/-- Every call on a space that owns a set is one on that set, and requests do nothing. -/
theorem run_owning (call : SpaceCall) (documents : MountedSet) :
    call.run (.owning name engine documents) = .owning name engine (call.apply documents) := by
  cases call with
  | request directory root => rfl
  | onSet operation => rfl
  | close => rfl
  | outside change => rfl

/-- No call changes what is settled when a set is made. -/
theorem settings_apply (call : SpaceCall) (documents : MountedSet) :
    (call.apply documents).set.settings = documents.set.settings := by
  cases call with
  | request directory root => rfl
  | onSet operation => exact operation.settings_apply documents
  | close => exact MountedSet.settings_close documents
  | outside change => rfl

end SpaceCall

namespace MountedSpace

variable {name : String} {engine : Engine}

/-- Calls on a space that owns a set are calls on that set. -/
theorem perform_owning (calls : List SpaceCall) (documents : MountedSet) :
    perform calls (owning name engine documents) =
      owning name engine (calls.foldl SpaceCall.apply documents) := by
  induction calls generalizing documents with
  | nil => rfl
  | cons call rest ih =>
    rw [perform, List.foldl_cons, call.run_owning, List.foldl_cons]
    exact ih _

/-- Calls keep the settings of the set. -/
theorem settings_foldl (calls : List SpaceCall) (documents : MountedSet) :
    (calls.foldl SpaceCall.apply documents).set.settings = documents.set.settings := by
  induction calls generalizing documents with
  | nil => rfl
  | cons call rest ih => exact (ih _).trans (call.settings_apply documents)

/-- Calls leave a fresh space fresh up to the first request that is granted, if there is one. -/
theorem perform_fresh (calls : List SpaceCall) (name : String) (engine : Engine) (disk : Disk) :
    (Refuses (fresh name engine disk) calls ∧
      ∃ left, perform calls (fresh name engine disk) = fresh name engine left) ∨
    ∃ early directory root later left, calls = early ++ .request directory root :: later ∧
      Refuses (fresh name engine disk) early ∧
      (requestDocuments directory root).run (perform early (fresh name engine disk)) =
        (.ok (⟨directory, root, engine, [], false, #[]⟩, none),
          owning name engine ⟨⟨directory, root, engine, [], false, #[]⟩, left⟩) := by
  induction calls generalizing disk with
  | nil => exact .inl ⟨nofun, disk, rfl⟩
  | cons call rest ih =>
    rcases call.run_fresh name engine disk with
      ⟨next, hrun, hanswer⟩ | ⟨directory, root, left, rfl, hrun⟩
    · rcases ih next with
        ⟨hrefused, left, hperform⟩ | ⟨early, directory, root, later, left, rfl, hrefused, hgranted⟩
      · refine .inl ⟨refuses_cons_iff.2 ⟨hanswer, hrun ▸ hrefused⟩, left, ?_⟩
        rw [perform, List.foldl_cons, hrun]
        exact hperform
      · refine .inr ⟨call :: early, directory, root, later, left, rfl,
          refuses_cons_iff.2 ⟨hanswer, hrun ▸ hrefused⟩, ?_⟩
        rw [perform, List.foldl_cons, hrun]
        exact hgranted
    · exact .inr ⟨[], directory, root, rest, left, rfl, nofun, hrun⟩

/-- Let anything happen to a new space, in any order.  Either no request is granted: then the space
is as new, and the next request will be granted if its root has a valid name and the disk can hold
its directory.  Or some request is the first one that is granted: then the space owns the set that
was made for it, and whatever happens further, that set is still in the same directory with the same
root, it is what everything but the requests has made of it, and every request is given this set and
changes nothing, neither the set nor the disk. -/
theorem one_set_of_requests (name : String) (engine : Engine) (disk : Disk)
    (calls : List SpaceCall) :
    let start : MountedSpace := ⟨.new name engine, disk⟩
    (Refuses start calls ∧ (perform calls start).space = .new name engine ∧
      ∀ directory root,
        ((requestDocuments directory root).run (perform calls start)).1.isOk = true ↔
          Name.isValid root = true ∧ (perform calls start).disk.CanHold directory) ∨
    ∃ early directory root later created left,
      calls = early ++ .request directory root :: later ∧ Refuses start early ∧
      (requestDocuments directory root).run (perform early start) = (.ok (created, none), left) ∧
      ∀ done : List SpaceCall,
        let now := perform (early ++ .request directory root :: done) start
        let kept := done.foldl SpaceCall.apply ⟨created, left.disk⟩
        now = ⟨⟨name, engine, some kept.set⟩, kept.disk⟩ ∧
        kept.set.directory = directory ∧ kept.set.root = root ∧
        ∀ directory' root', ∃ notice,
          (requestDocuments directory' root').run now = (.ok (kept.set, notice), now) := by
  intro start
  rcases perform_fresh calls name engine disk with
    ⟨hrefused, left, hperform⟩ | ⟨early, directory, root, later, left, hcalls, hrefused, hgranted⟩
  · change perform calls start = _ at hperform
    refine .inl ⟨hrefused, ?_, ?_⟩
    · rw [hperform]
      rfl
    · intro directory root
      rw [hperform]
      exact isOk_request_fresh_iff directory root left
  · refine .inr ⟨early, directory, root, later, _, _, hcalls, hrefused, hgranted, ?_⟩
    intro done now kept
    have hrun : SpaceCall.run (perform early start) (.request directory root) = _ :=
      congrArg Prod.snd hgranted
    have hnow : now = owning name engine kept := by
      have hall : now = perform done (SpaceCall.run (perform early start) _) :=
        perform_append early _ start
      rw [hall, hrun]
      exact perform_owning done _
    have hsettings : kept.set.settings = (directory, root, engine) := settings_foldl done _
    refine ⟨hnow, congrArg Prod.fst hsettings, congrArg (fun s => s.2.1) hsettings, ?_⟩
    intro directory' root'
    rw [hnow]
    exact run_request_owning directory' root' kept

/-- A root that is no name and a directory that is a file are refused; after the set was made in
`out` even these are given it. -/
example :
    (answers [.request "out" "1", .request "file" "r", .request "out" "r",
        .onSet (.document (.emit 0 ⟨["a"], .empty⟩)), .onSet .drain, .request "file" "1"]
      ⟨.new "s" .shared, ⟨[], [(["file"], .file 0)], #[.empty], none⟩⟩).map
        (fun answer => answer.toOption.map DocumentSet.directory) =
      [none, none, some "out", some "out"] := by
  decide +kernel

end MountedSpace

end XmlWorkload
