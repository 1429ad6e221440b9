import XmlWorkload.Proofs.Set.Fate
import XmlWorkload.Proofs.Set.Live

/-!
# What a set leaves alone

A set of documents writes to the files that it made, and to no others.  Main statements: whatever
callers do, the files that were there before the set keep their contents
(`Service.Sound.contents_step`, `Service.Sound.contents_reaches`); and closing the set changes no
more than the contents of its own files (`MountedSet.Sound.frame_closeDocuments`).
-/

set_option autoImplicit false

namespace XmlWorkload

namespace Disk

/-- Two disks differ at most in the contents of the files from a number on. -/
structure SameUpTo (bound : Nat) (before after : Disk) : Prop extends SamePlaces before after where
  contents : ∀ file < bound, after.contentsOf file = before.contentsOf file

namespace SameUpTo

variable {bound : Nat} {first second third : Disk}

/-- A disk that stays as it is differs in no file. -/
theorem refl (bound : Nat) (disk : Disk) : SameUpTo bound disk disk :=
  ⟨SamePlaces.refl disk, fun _ _ => rfl⟩

/-- Two steps that change no file below a bound change none together. -/
theorem trans (h₁ : SameUpTo bound first second) (h₂ : SameUpTo bound second third) :
    SameUpTo bound first third :=
  ⟨h₁.toSamePlaces.trans h₂.toSamePlaces,
    fun file hfile => (h₂.contents file hfile).trans (h₁.contents file hfile)⟩

/-- A change to a file from the bound on changes none below it. -/
theorem of_sameBut {file : Nat} (h : SameBut file first second) (hfile : bound ≤ file) :
    SameUpTo bound first second :=
  ⟨SamePlaces.of_sameBut h, fun other hother => h.others other (by omega)⟩

end SameUpTo

end Disk

namespace MountedSet

namespace Sound

variable {origin mounted : MountedSet} {made claims pending : List Nat}
  {taken : Nat → List Emission} {number : Nat}

/-- A lookup leaves the files alone that were there before the set. -/
theorem contents_acquire (h : Sound origin made claims pending taken mounted) (index : Nat) {file : Nat}
    (hfile : file < origin.disk.contents.size) :
    ((MountedSet.acquire index).run mounted).2.disk.contentsOf file =
      mounted.disk.contentsOf file := by
  have hold : file < mounted.disk.contents.size := by
    rw [h.files]
    omega
  rcases h.acquire_cases index with ⟨-, hrun⟩ | ⟨number, -, -, hrun⟩ |
    ⟨left, disk, document, -, -, hrun, hcreate, hframe, -⟩ | ⟨error, fault, disk, -, -, hrun, -⟩
  · rw [hrun]
  · rw [hrun]
    rfl
  · rw [hrun]
    obtain ⟨-, -, hcontents⟩ := Disk.createFile_ok hcreate
    exact (hframe.others file (Nat.ne_of_lt hold)).trans (Disk.contentsOf_push hcontents file)
  · rw [hrun]

/-- Writing to a document changes no file that was there before the set. -/
theorem frame_emitTo (h : Sound origin made claims pending taken mounted)
    (hclaim : number ∈ claims) (emission : Emission) :
    Disk.SameUpTo origin.disk.contents.size mounted.disk
      ((MountedSet.emitTo number emission.path emission.template).run mounted).2.disk := by
  obtain ⟨shared, index, hshared, hindex⟩ := h.ledger.exists_shared (h.claimed number hclaim)
  have hheld := h.ledger.holders_ne_zero hshared hclaim
  have hframe := (((h.follows number shared index hshared hindex).held hheld).act_emit emission).2
  rw [MountedSet.emitTo, onDocument_eq hshared]
  exact Disk.SameUpTo.of_sameBut hframe (Nat.le_add_right _ _)

/-- Letting a document go changes no file that was there before the set. -/
theorem sameUpTo_release (h : Sound origin made (number :: claims) pending taken mounted) :
    Disk.SameUpTo origin.disk.contents.size mounted.disk (mounted.release number).disk := by
  obtain ⟨shared, index, hshared, hindex⟩ :=
    h.ledger.exists_shared (h.claimed number List.mem_cons_self)
  rw [release_eq hshared]
  exact Disk.SameUpTo.of_sameBut (h.frame_release hshared).1 (Nat.le_add_right _ _)

/-- Closing the next of the documents that were taken out of the set changes the contents of its file
only. -/
theorem frame_closeDrained {entry : Nat × Nat}
    (h : Sound origin made (entry.2 :: claims) (entry.2 :: pending) taken mounted) :
    Disk.SameUpTo origin.disk.contents.size mounted.disk
      (MountedSet.closeDrained entry mounted).2.disk := by
  obtain ⟨shared, index, hshared, hindex⟩ :=
    h.ledger.exists_shared (h.claimed entry.2 List.mem_cons_self)
  have hheld := h.ledger.holders_ne_zero hshared List.mem_cons_self
  obtain ⟨hafter, hframe, hdead⟩ := ((h.follows entry.2 shared index hshared hindex).held
    hheld).act_close
  -- the document is closed first, and the claim given back behind that
  have hreplaced := h.replace hshared hindex hheld hafter hframe (fun hlive => absurd hlive hdead)
    fun _ _ => rfl
  rw [closeDrained_eq, onDocument_eq hshared]
  exact (Disk.SameUpTo.of_sameBut hframe (Nat.le_add_right _ _)).trans hreplaced.sameUpTo_release

/-- Closing documents changes no file that was there before the set. -/
theorem frame_closeAll (entries : List (Nat × Nat))
    (h : Sound origin made (entries.map Prod.snd ++ claims) (entries.map Prod.snd ++ pending) taken
      mounted) (hpending : ∀ other ∈ pending, other ∈ claims) :
    Disk.SameUpTo origin.disk.contents.size mounted.disk
      (MountedSet.closeAll entries mounted).2.disk := by
  induction entries generalizing mounted with
  | nil => exact Disk.SameUpTo.refl _ _
  | cons entry rest ih =>
    have hrest : ∀ other ∈ rest.map Prod.snd ++ pending, other ∈ rest.map Prod.snd ++ claims := by
      intro other hother
      rcases List.mem_append.1 hother with hmem | hmem
      · exact List.mem_append_left _ hmem
      · exact List.mem_append_right _ (hpending other hmem)
    exact (frame_closeDrained h).trans (ih (Sound.closeDrained h hrest))

/-- Closing a set that nobody uses changes no more than the contents of the files of its
documents. -/
theorem frame_closeDocuments (h : Sound origin made [] [] taken mounted) :
    Disk.SameUpTo origin.disk.contents.size mounted.disk mounted.closeDocuments.2.disk :=
  frame_closeAll mounted.drain.1 h.drain fun _ hmem => hmem

end Sound

end MountedSet

namespace Service

variable {origin : MountedSet} {service later : Service} {file : Nat}

/-- No step of a caller changes a file that was there before the set. -/
theorem Sound.contents_step (h : Sound origin service) (hstep : Step service later)
    (hfile : file < origin.disk.contents.size) :
    later.mounted.disk.contentsOf file = service.mounted.disk.contentsOf file := by
  cases hstep with
  | @lookUp before after index emission hcallers => exact h.mounted.contents_acquire index hfile
  | @write before after index number emission hcallers =>
    have hframe := (h.focus hcallers).frame_emitTo List.mem_cons_self emission
    exact hframe.contents file hfile
  | @leave before after number hcallers =>
    exact (h.focus hcallers).sameUpTo_release.contents file hfile
  | @drain before after hcallers => rfl
  | @closeNext before after entry rest hcallers =>
    exact (h.focus hcallers).frame_closeDrained.contents file hfile
  | @finish before after hcallers => rfl

/-- Whatever steps callers take, the files that were there before the set keep their contents. -/
theorem Sound.contents_reaches (h : Sound origin service) (hreaches : Reaches service later)
    (hfile : file < origin.disk.contents.size) :
    later.mounted.disk.contentsOf file = service.mounted.disk.contentsOf file := by
  induction hreaches with
  | refl => rfl
  | tail hreaches hstep ih => exact ((h.reaches hreaches).contents_step hstep hfile).trans ih

end Service

end XmlWorkload
