import XmlWorkload.Proofs.Set.Draining
import XmlWorkload.Proofs.Set.Fate

/-!
# Sessions with a set of documents

A set of documents is used by index and through handles, which last until they are let go, also after
the set was closed.  Others use the disk at the same time: they make files, take places away, and
fill the disk or free it, but leave the files of the set alone.  Main statements: every step leaves
the set intact (`Session.Intact.step`), and an operation on one index spares the documents of all
others (`Session.Intact.perform`).
-/

set_option autoImplicit false

namespace XmlWorkload

/-- A set of documents in use. -/
structure Session where
  mounted : MountedSet
  /-- The documents that are held, each with its index and its number, once for each time. -/
  held : List (Nat × Nat)
  /-- The indices whose creation succeeded, in this order. -/
  made : List Nat
  /-- What was written to documents, with the results. -/
  log : List Record

/-- What can be done with the documents of a set.  A handle is an index with the number of its
document. -/
inductive DocumentOperation where
  | lookUp (index : Nat)
  | emit (index : Nat) (emission : Emission)
  | write (handle : Nat × Nat) (emission : Emission)
  | close (handle : Nat × Nat)
  | release (handle : Nat × Nat)

/-- The index that an operation is about. -/
def DocumentOperation.index : DocumentOperation → Nat
  | .lookUp index | .emit index _ => index
  | .write handle _ | .close handle | .release handle => handle.1

namespace Session

/-- A session with a set that nothing was done with. -/
def start (mounted : MountedSet) : Session := ⟨mounted, [], [], []⟩

/-- The indices whose creation succeeded, after a lookup. -/
def madeAfter (index : Nat) (made : List Nat) : Except Error Nat → List Nat
  | .ok _ => if index ∈ made then made else made ++ [index]
  | .error _ => made

/-- The documents that are held after a lookup. -/
def heldAfter (index : Nat) (held : List (Nat × Nat)) : Except Error Nat → List (Nat × Nat)
  | .ok number => (index, number) :: held
  | .error _ => held

/-- Looks up the document with an index and holds it. -/
def lookUp (index : Nat) (session : Session) : Session :=
  let outcome := (MountedSet.acquire index).run session.mounted
  { session with
    mounted := outcome.2
    held := heldAfter index session.held outcome.1
    made := madeAfter index session.made outcome.1 }

/-- Writes to a document that is held. -/
def write (handle : Nat × Nat) (emission : Emission) (session : Session) : Session :=
  let outcome := (MountedSet.emitTo handle.2 emission.path emission.template).run session.mounted
  { session with
    mounted := outcome.2
    log := session.log ++ [⟨handle.1, emission, outcome.1⟩] }

/-- Closes a document that is held. -/
def close (handle : Nat × Nat) (session : Session) : Session :=
  { session with mounted := ((MountedSet.closeOne handle.2).run session.mounted).2 }

/-- Lets a document go. -/
def release (handle : Nat × Nat) (session : Session) : Session :=
  { session with
    mounted := session.mounted.release handle.2
    held := session.held.erase handle }

/-- Writes to the document with an index. -/
def emit (index : Nat) (emission : Emission) (session : Session) : Session :=
  let found := (MountedSet.acquire index).run session.mounted
  let outcome := (MountedSet.emit index emission.path emission.template).run session.mounted
  { session with
    mounted := outcome.2
    made := madeAfter index session.made found.1
    log := session.log ++ [⟨index, emission, outcome.1⟩] }

/-- What an operation leads to. -/
def perform : DocumentOperation → Session → Session
  | .lookUp index, session => session.lookUp index
  | .emit index emission, session => session.emit index emission
  | .write handle emission, session => session.write handle emission
  | .close handle, session => session.close handle
  | .release handle, session => session.release handle

/-- An operation through a handle needs one that is held. -/
def Allows (session : Session) : DocumentOperation → Prop
  | .lookUp _ | .emit _ _ => True
  | .write handle _ | .close handle | .release handle => handle ∈ session.held

/-- One step of a session. -/
inductive Step (session : Session) : Session → Prop where
  | perform (operation : DocumentOperation) (h : session.Allows operation) :
      Step session (session.perform operation)
  | closeSet {outcome : Except Error Unit × MountedSet} (h : session.mounted.ClosesSet outcome) :
      Step session { session with mounted := outcome.2 }
  | outside {disk : Disk} (h : session.mounted.Tolerates disk) :
      Step session { session with mounted := ⟨session.mounted.set, disk⟩ }

/-- What the steps of a session lead to. -/
abbrev Reaches : Session → Session → Prop := Relation.ReflTransGen Step

/-- Writing by index is looking the document up, writing to it and letting it go. -/
theorem emit_of_ok {session : Session} {index number : Nat}
    (h : ((MountedSet.acquire index).run session.mounted).1 = .ok number) (emission : Emission) :
    session.emit index emission =
      ((session.lookUp index).write (index, number) emission).release (index, number) := by
  have hrun : (MountedSet.acquire index).run session.mounted =
      (.ok number, ((MountedSet.acquire index).run session.mounted).2) := Prod.ext h rfl
  have hrelease : ((index, number) :: session.held).erase (index, number) = session.held :=
    List.erase_cons_head ..
  simp only [emit, release, write, lookUp, MountedSet.run_emit_of_ok hrun, h, heldAfter, hrelease]

/-- The set of a session is intact, and every handle leads to a document of its index. -/
structure Intact (origin : DocumentSet) (session : Session) : Prop where
  mounted : session.mounted.Intact origin session.made (session.held.map Prod.snd)
    fun index => grantedOn index session.log
  held : ∀ handle ∈ session.held, session.made[handle.2]? = some handle.1

/-- What an operation on an index leaves behind: the set is intact, no index has lost its document, and
the documents of other indices look the same. -/
structure Continues (origin : DocumentSet) (index : Nat) (before after : Session) : Prop where
  intact : Intact origin after
  made : before.made <+: after.made
  spares : ∀ (number other : Nat), before.made[number]? = some other → other ≠ index →
    after.mounted.view? number = before.mounted.view? number

variable {origin : DocumentSet} {session middle later : Session} {index : Nat}
  {handle : Nat × Nat}

/-- What was made stays in its place when more is made behind it. -/
theorem getElem?_mono {made made' : List Nat} (h : made <+: made') {number : Nat}
    (hindex : made[number]? = some index) : made'[number]? = some index := by
  obtain ⟨rest, rfl⟩ := h
  rw [List.getElem?_append_left (List.getElem?_eq_some_iff.1 hindex).1, hindex]

/-- What continues a session that continues another one continues that one. -/
theorem Continues.trans (h₁ : Continues origin index session middle)
    (h₂ : Continues origin index middle later) : Continues origin index session later where
  intact := h₂.intact
  made := h₁.made.trans h₂.made
  spares number other hother hne :=
    (h₂.spares number other (getElem?_mono h₁.made hother) hne).trans
      (h₁.spares number other hother hne)

namespace Intact

/-- Looking a document up continues what its index came to. -/
theorem lookUp (h : Intact origin session) (index : Nat) :
    Continues origin index session (session.lookUp index) := by
  unfold Session.lookUp
  rcases hrun : (MountedSet.acquire index).run session.mounted with ⟨error | number, left⟩
  · obtain ⟨-, hintact, huntouched⟩ := h.mounted.acquire_error hrun
    exact ⟨⟨hintact, h.held⟩, List.prefix_refl _, fun number _ _ _ => (huntouched number).view?_eq⟩
  · obtain ⟨hindex, hintact, hspares⟩ := h.mounted.acquire_ok hrun
    have hprefix : session.made <+:
        if index ∈ session.made then session.made else session.made ++ [index] := by
      split
      · exact List.prefix_refl _
      · exact List.prefix_append _ _
    refine ⟨⟨hintact, ?_⟩, hprefix, ?_⟩
    · exact List.forall_mem_cons.2
        ⟨hindex, fun handle hheld => getElem?_mono hprefix (h.held handle hheld)⟩
    · intro other other' hother hne
      apply (hspares other _).view?_eq
      rintro rfl
      exact hne (Option.some.inj ((getElem?_mono hprefix hother).symm.trans hindex))

/-- What spares all documents but one continues what the index of that one came to. -/
theorem sparing (h : Intact origin session) (hheld : handle ∈ session.held)
    (hlater : Intact origin later) (hmade : later.made = session.made)
    (hspares : MountedSet.Spares handle.2 session.mounted later.mounted) :
    Continues origin handle.1 session later := by
  refine ⟨hlater, hmade ▸ List.prefix_refl _, fun other other' hother hne => ?_⟩
  apply (hspares other _).view?_eq
  rintro rfl
  exact hne (Option.some.inj (hother.symm.trans (h.held handle hheld)))

/-- Writing to a held document continues what its index came to. -/
theorem write (h : Intact origin session) (hheld : handle ∈ session.held) (emission : Emission) :
    Continues origin handle.1 session (session.write handle emission) := by
  obtain ⟨hintact, hspares⟩ := h.mounted.emitTo (List.mem_map_of_mem hheld) (h.held handle hheld)
    emission
  refine h.sparing hheld ⟨?_, h.held⟩ rfl hspares
  simp only [Session.write, Service.grantedOn_concat]
  exact hintact

/-- Closing a held document continues what its index came to. -/
theorem close (h : Intact origin session) (hheld : handle ∈ session.held) :
    Continues origin handle.1 session (session.close handle) := by
  obtain ⟨hintact, hspares, -⟩ := h.mounted.closeOne (List.mem_map_of_mem hheld)
    (h.held handle hheld)
  exact h.sparing hheld ⟨hintact, h.held⟩ rfl hspares

/-- Letting a held document go continues what its index came to. -/
theorem release (h : Intact origin session) (hheld : handle ∈ session.held) :
    Continues origin handle.1 session (session.release handle) := by
  have hperm : session.held.Perm (handle :: session.held.erase handle) := List.perm_cons_erase hheld
  obtain ⟨hintact, hspares⟩ := (h.mounted.of_perm (hperm.map Prod.snd)).release
  exact h.sparing hheld ⟨hintact, fun other hother => h.held other (List.mem_of_mem_erase hother)⟩
    rfl hspares

/-- Emitting to an index continues what it came to. -/
theorem emit (h : Intact origin session) (index : Nat) (emission : Emission) :
    Continues origin index session (session.emit index emission) := by
  have hfound := h.lookUp index
  rcases hrun : (MountedSet.acquire index).run session.mounted with ⟨error | number, left⟩
  · have hlooked : session.lookUp index = { session with mounted := left } := by
      simp only [Session.lookUp, hrun, heldAfter, madeAfter]
    have hemit : session.emit index emission =
        { session.lookUp index with log := session.log ++ [⟨index, emission, .error error⟩] } := by
      simp only [Session.emit, hrun, hlooked, MountedSet.run_emit_of_error hrun, madeAfter]
    -- what was refused adds nothing to what was granted
    have hgranted : ∀ other, grantedOn other (session.log ++ [⟨index, emission, .error error⟩]) =
        grantedOn other session.log := by
      intro other
      simp [Service.grantedOn_concat, Document.granted]
    rw [hemit]
    refine ⟨⟨?_, hfound.intact.held⟩, hfound.made, hfound.spares⟩
    simp only [hgranted]
    exact hfound.intact.mounted
  · have hok : ((MountedSet.acquire index).run session.mounted).1 = .ok number :=
      congrArg Prod.fst hrun
    have hheld : (index, number) ∈ (session.lookUp index).held := by
      simp only [Session.lookUp, hok, heldAfter]
      exact List.mem_cons_self
    have hwritten := hfound.intact.write hheld emission
    rw [emit_of_ok hok]
    exact (hfound.trans hwritten).trans (hwritten.intact.release hheld)

/-- An operation on one index leaves the set intact and spares the documents of all others. -/
theorem perform (h : Intact origin session) {operation : DocumentOperation}
    (hallowed : session.Allows operation) :
    Continues origin operation.index session (session.perform operation) := by
  cases operation with
  | lookUp index => exact h.lookUp index
  | emit index emission => exact h.emit index emission
  | write handle emission => exact h.write hallowed emission
  | close handle => exact h.close hallowed
  | release handle => exact h.release hallowed

/-- Every step keeps a session intact, and what it made stays made. -/
theorem step (h : Intact origin session) (hstep : Step session later) :
    Intact origin later ∧ session.made <+: later.made := by
  cases hstep with
  | perform operation hallowed =>
    have hafter := h.perform hallowed
    exact ⟨hafter.intact, hafter.made⟩
  | closeSet hcloses =>
    exact ⟨⟨(h.mounted.closesSet hcloses).1, h.held⟩, List.prefix_refl _⟩
  | outside hdisk => exact ⟨⟨h.mounted.frame hdisk, h.held⟩, List.prefix_refl _⟩

/-- Whatever steps are taken, the set stays intact, and no index loses its document. -/
theorem reaches (h : Intact origin session) (hreaches : Reaches session later) :
    Intact origin later ∧ session.made <+: later.made := by
  induction hreaches with
  | refl => exact ⟨h, List.prefix_refl _⟩
  | tail _ hstep ih =>
    obtain ⟨hlater, hmade⟩ := ih.1.step hstep
    exact ⟨hlater, ih.2.trans hmade⟩

end Intact

/-- A set that was just made is intact. -/
theorem intact_start {directory root : String} {engine : Engine} {disk left : Disk}
    {set : DocumentSet}
    (hcreate : (DocumentSet.create directory root engine).run disk = (.ok set, left)) :
    Intact set (start ⟨set, left⟩) := by
  obtain ⟨hroot, -, rfl⟩ := DocumentSet.of_create hcreate
  refine ⟨⟨rfl, rfl, rfl, (Name.validate_eq_ok_iff root).1 hroot, ⟨rfl, List.nodup_nil, rfl, ?_, ?_⟩,
    ?_, ?_, ?_, fun _ _ => rfl⟩, ?_⟩
  · rintro number shared ⟨⟩
  · rintro number ⟨⟩
  · rintro number shared ⟨⟩
  · rintro number other shared shared' ⟨⟩
  · rintro number shared index ⟨⟩
  · rintro handle ⟨⟩

/-- Once a set is closed it stays closed. -/
theorem Intact.isClosed_step (h : Intact origin session)
    (hclosed : session.mounted.set.isClosed = true) (hstep : Step session later) :
    later.mounted.set.isClosed = true := by
  cases hstep with
  | perform operation hallowed =>
    cases operation with
    | lookUp index =>
      simp only [Session.perform, Session.lookUp, MountedSet.run_acquire_of_closed hclosed]
      exact hclosed
    | emit index emission =>
      have hrun := MountedSet.run_acquire_of_closed hclosed index
      simp only [Session.perform, Session.emit, MountedSet.run_emit_of_error hrun]
      exact hclosed
    | write handle emission => exact (MountedSet.isClosed_onDocument ..).trans hclosed
    | close handle => exact (MountedSet.isClosed_onDocument ..).trans hclosed
    | release handle => exact (MountedSet.isClosed_release ..).trans hclosed
  | closeSet hcloses => exact (h.mounted.closesSet hcloses).2.1
  | outside hdisk => exact hclosed

/-- A set that was closed stays closed. -/
theorem Intact.isClosed_reaches (h : Intact origin session)
    (hclosed : session.mounted.set.isClosed = true) (hreaches : Reaches session later) :
    later.mounted.set.isClosed = true := by
  induction hreaches with
  | refl => exact hclosed
  | tail hreaches hstep ih => exact (h.reaches hreaches).1.isClosed_step ih hstep

/-- An empty set in a directory of a disk with nothing else on it. -/
def smallSet : MountedSet :=
  ⟨⟨"out", "r", ⟨8, false⟩, [], false, #[]⟩, ⟨[], [(["out"], .directory)], #[], none⟩⟩

/-- The small set can be made on the empty disk. -/
theorem create_smallSet :
    (DocumentSet.create "out" "r" ⟨8, false⟩).run Disk.empty =
      (.ok smallSet.set, smallSet.disk) := rfl

end Session

end XmlWorkload
