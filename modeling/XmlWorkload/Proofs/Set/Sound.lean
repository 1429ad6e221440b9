import XmlWorkload.Proofs.Document.OnDisk
import XmlWorkload.Proofs.Set.Ledger

/-!
# Sound sets of documents

What holds of a set of documents at any time, while callers use its documents: each index in use has
one document and each document one file, each document knows how many can use it, and as long as
somebody can, it has followed the emissions that were granted on its index.  Main statements: every
operation on the set keeps it sound.
-/

set_option autoImplicit false

namespace XmlWorkload

namespace SharedDocument

/-- The text of a document: once nobody can use it any more it is what its file has. -/
def text (disk : Disk) (shared : SharedDocument) : ByteArray :=
  if shared.holders = 0 then disk.contentsOf shared.document.sink.output.file
  else shared.document.text disk

/-- A document that others may use has followed emissions into a file.  When nobody can use it any
more it is not live, and if it is closed its file has the reference document. -/
structure Follows (front : ByteArray) (root : String) (file : Nat) (emissions : List Emission)
    (disk : Disk) (shared : SharedDocument) : Prop where
  isFile : shared.document.sink.output.file = file
  held : shared.holders ≠ 0 →
    FileDocument.Follows front root file emissions disk shared.document
  letGo : shared.holders = 0 → shared.document.status ≠ .live ∧
    (shared.document.status = .closed → ∃ tree, Reference.tree? root emissions = some tree ∧
      disk.contentsOf file = front ++ tree.render.toUTF8)

variable {front : ByteArray} {root : String} {file : Nat} {emissions : List Emission}
  {disk disk' : Disk} {shared : SharedDocument}

/-- A document goes on following its emissions on a disk with the same contents of its file. -/
theorem Follows.frame (h : Follows front root file emissions disk shared)
    (hroom : disk'.room = none) (hfile : file < disk'.contents.size)
    (hcontents : disk'.contentsOf file = disk.contentsOf file) :
    Follows front root file emissions disk' shared := by
  refine ⟨h.isFile, ?_, ?_⟩
  · intro hheld
    exact (h.held hheld).frame hroom hfile hcontents
  · rw [hcontents]
    exact h.letGo

/-- The text of a closed document is the reference document of what it followed. -/
theorem Follows.text_of_closed (h : Follows front root file emissions disk shared)
    (hclosed : shared.document.status = .closed) :
    ∃ tree, Reference.tree? root emissions = some tree ∧
      shared.text disk = front ++ tree.render.toUTF8 := by
  unfold text
  by_cases hheld : shared.holders = 0
  · rw [if_pos hheld, h.isFile]
    exact (h.letGo hheld).2 hclosed
  · obtain ⟨tree, htree, -, htext⟩ := (h.held hheld).of_closed hclosed
    rw [if_neg hheld]
    exact ⟨tree, htree, htext⟩

/-- What happens to other files changes no text. -/
theorem Follows.text_frame (h : Follows front root file emissions disk shared)
    (hcontents : disk'.contentsOf file = disk.contentsOf file) :
    shared.text disk' = shared.text disk := by
  have hisFile := h.isFile
  unfold text FileDocument.text MountedWriter.text
  simp only [hisFile, hcontents]

end SharedDocument

namespace MountedSet

/-- What was written in front of the root of each document of a set. -/
def front (set : DocumentSet) : ByteArray := (Reference.prologue set.engine.declaration).toUTF8

/-- The text of the document with a number. -/
def text? (mounted : MountedSet) (number : Nat) : Option ByteArray :=
  mounted.set.documents[number]?.map (SharedDocument.text mounted.disk)

/-- A set of documents that started from another one is sound: `made` are the indices under which
documents were made, in the order of their numbers; `claims` are the numbers of the documents that
callers can use, once for each time that they can; `pending` are those among them that are still to
be closed; and `taken` are the emissions that were granted on each index. -/
structure Sound (origin : MountedSet) (made claims pending : List Nat)
    (taken : Nat → List Emission) (mounted : MountedSet) : Prop where
  directory : mounted.set.directory = origin.set.directory
  root : mounted.set.root = origin.set.root
  engine : mounted.set.engine = origin.set.engine
  validRoot : Name.isValid origin.set.root = true
  room : mounted.disk.room = none
  count : mounted.set.documents.size = made.length
  files : mounted.disk.contents.size = origin.disk.contents.size + made.length
  nodup : made.Nodup
  registry : mounted.set.registry = if mounted.set.isClosed = true then [] else made.zipIdx
  holders : ∀ (number : Nat) (shared : SharedDocument),
    mounted.set.documents[number]? = some shared →
      shared.holders = (mounted.set.registry.map Prod.snd ++ claims).count number
  follows : ∀ (number : Nat) (shared : SharedDocument) (index : Nat),
    mounted.set.documents[number]? = some shared → made[number]? = some index →
      shared.Follows (front origin.set) origin.set.root (origin.disk.contents.size + number)
        (taken index) mounted.disk
  claimed : ∀ number ∈ claims, number < made.length
  pendingClaimed : ∀ number ∈ pending, number ∈ claims
  live : mounted.set.isClosed = true → ∀ (number : Nat) (shared : SharedDocument),
    mounted.set.documents[number]? = some shared → shared.document.status = .live →
      number ∈ pending
  unused : ∀ index, index ∉ made → taken index = []

namespace Sound

variable {origin : MountedSet} {made claims pending : List Nat} {taken : Nat → List Emission}
  {mounted : MountedSet}

/-- The documents of a sound set are booked. -/
theorem ledger (h : Sound origin made claims pending taken mounted) :
    mounted.set.Ledger made claims :=
  ⟨h.count, h.nodup, h.registry, h.holders, h.claimed⟩

/-- The order in which callers claim documents does not matter. -/
theorem of_perm {claims' pending' : List Nat}
    (h : Sound origin made claims pending taken mounted) (hclaims : claims.Perm claims')
    (hpending : pending.Perm pending') : Sound origin made claims' pending' taken mounted :=
  { h with
    holders := (h.ledger.of_perm hclaims).holders
    claimed := (h.ledger.of_perm hclaims).claimed
    pendingClaimed := fun number hnumber =>
      hclaims.mem_iff.1 (h.pendingClaimed number (hpending.mem_iff.2 hnumber))
    live := fun hclosed number shared hshared hlive =>
      hpending.mem_iff.1 (h.live hclosed number shared hshared hlive) }

end Sound

end MountedSet

end XmlWorkload
