import XmlWorkload.Proofs.Output.Reliable
import XmlWorkload.Proofs.Sink.Parting

/-!
# Outputs that take so many bytes

An output is limited in the states in which it takes bytes up to a capacity; what goes beyond it is
refused, with the part that still fits taken.  Main statement: a limited output goes on like one that
takes everything until it refuses a write, and has taken what comes first of the bytes then
(`Output.Limited.alikeUntil`).
-/

set_option autoImplicit false

namespace XmlWorkload

/-- The states in which an output takes bytes up to a capacity, each with what it took so far.  It
may refuse to be flushed once it is full. -/
structure Output.Limited (υ : Type) [Output υ] (capacity : Nat) where
  /-- Whether a state is one of them. -/
  holds : υ → Prop
  taken : υ → ByteArray
  size_le : ∀ {output : υ}, holds output → (taken output).size ≤ capacity
  /-- Bytes that fit are taken behind those that were taken before. -/
  write_fits : ∀ {output : υ} (bytes : ByteArray), holds output →
    (taken output).size + bytes.size ≤ capacity →
      ∃ after, Output.write bytes output = (.ok (), after) ∧ holds after ∧
        taken after = taken output ++ bytes
  /-- Of bytes that do not fit those are taken that do. -/
  write_full : ∀ {output : υ} (bytes : ByteArray), holds output →
    capacity < (taken output).size + bytes.size →
      ∃ fault after, Output.write bytes output = (.error fault, after) ∧ holds after ∧
        taken after = (taken output ++ bytes).extract 0 capacity
  /-- A flush takes nothing more, and is not refused as long as there is room. -/
  flush_keeps : ∀ {output : υ}, holds output →
    ∃ result after, Output.flush output = (result, after) ∧ holds after ∧
      taken after = taken output ∧ ((taken output).size < capacity → result = .ok ())

namespace Output.Limited

variable {ω υ : Type} [Output ω] [Output υ] {capacity : Nat} (limited : Limited υ capacity)
  (reliable : Reliable ω) (front : ByteArray)

/-- A limited output has taken the same as one that takes everything, apart from what was in front
there. -/
structure Matches (small : υ) (large : ω) : Prop where
  holds : limited.holds small
  takes : reliable.holds large
  taken : reliable.taken large = front ++ limited.taken small

/-- A limited output is full, and one that takes everything has taken the same and more. -/
structure Exceeded (small : υ) (large : ω) : Prop where
  takes : reliable.holds large
  full : (limited.taken small).size = capacity
  taken : ∃ more, reliable.taken large = front ++ (limited.taken small ++ more)

variable {limited reliable front} {small : υ} {large : ω}

/-- What a full output has taken comes first of whatever one that takes everything takes. -/
theorem Exceeded.write (h : Exceeded limited reliable front small large) (bytes : ByteArray) :
    Exceeded limited reliable front small (Output.write bytes large).2 := by
  obtain ⟨after, hwrite, hholds, htaken⟩ := reliable.write_ok bytes h.takes
  obtain ⟨more, hmore⟩ := h.taken
  rw [hwrite]
  exact ⟨hholds, h.full, more ++ bytes, by rw [htaken, hmore]; simp only [ByteArray.append_assoc]⟩

/-- A full output stays full when the other one is flushed. -/
theorem Exceeded.flush (h : Exceeded limited reliable front small large) :
    Exceeded limited reliable front small (Output.flush large).2 := by
  obtain ⟨after, hflush, hholds, -, htaken⟩ := reliable.flush_ok h.takes
  rw [hflush]
  exact ⟨hholds, h.full, by rw [htaken]; exact h.taken⟩

/-- Writing comes to the same on both outputs unless the limited one becomes full. -/
theorem Matches.write (h : Matches limited reliable front small large) (bytes : ByteArray) :
    Action.AlikeOutcome (Matches limited reliable front)
      (fun _ => Exceeded limited reliable front) (Output.write bytes small)
      (Output.write bytes large) := by
  obtain ⟨after, hwrite, hholds, htaken⟩ := reliable.write_ok bytes h.takes
  rw [h.taken, ByteArray.append_assoc] at htaken
  rw [hwrite]
  by_cases hfits : (limited.taken small).size + bytes.size ≤ capacity
  · obtain ⟨left, hsmall, hleft, htook⟩ := limited.write_fits bytes h.holds hfits
    rw [hsmall]
    exact .inl ⟨rfl, hleft, hholds, by rw [htaken, htook]⟩
  · have hover := Nat.lt_of_not_le hfits
    obtain ⟨fault, left, hsmall, -, htook⟩ := limited.write_full bytes h.holds hover
    have hsize : capacity ≤ (limited.taken small ++ bytes).size := by
      rw [ByteArray.size_append]
      exact Nat.le_of_lt hover
    -- what was cut off is the more that the other output has taken
    have hsplit : limited.taken left ++
        (limited.taken small ++ bytes).extract capacity (limited.taken small ++ bytes).size =
          limited.taken small ++ bytes := by
      rw [htook, ByteArray.extract_append_extract, Nat.min_eq_left (Nat.zero_le _),
        Nat.max_eq_right hsize, ByteArray.extract_zero_size]
    rw [hsmall]
    refine .inr ⟨fault, rfl, hholds, ?_, _, by rw [htaken, ← hsplit]⟩
    rw [htook, ByteArray.size_extract, Nat.min_eq_left hsize, Nat.sub_zero]

/-- Flushing comes to the same on both outputs. -/
theorem Matches.flush (h : Matches limited reliable front small large) :
    Action.AlikeOutcome (Matches limited reliable front)
      (fun _ => Exceeded limited reliable front) (Output.flush small) (Output.flush large) := by
  obtain ⟨after, hflush, hholds, -, htaken⟩ := reliable.flush_ok h.takes
  obtain ⟨result, left, hsmall, hleft, htook, hroom⟩ := limited.flush_keeps h.holds
  rw [hflush, hsmall]
  cases result with
  | ok value => exact .inl ⟨rfl, hleft, hholds, by rw [htaken, htook, h.taken]⟩
  | error fault =>
    have hfull : (limited.taken small).size = capacity := by
      refine Nat.le_antisymm (limited.size_le h.holds) (Nat.le_of_not_lt fun hlt => ?_)
      cases hroom hlt
    refine .inr ⟨fault, rfl, hholds, by rw [htook, hfull], .empty, ?_⟩
    rw [htaken, htook, ByteArray.append_empty, h.taken]

/-- A limited output goes on like one that takes everything until it refuses something. -/
theorem alikeUntil : Output.AlikeUntil (Matches limited reliable front)
    (Exceeded limited reliable front) where
  write _ _ bytes h := h.write bytes
  flush _ _ h := h.flush
  write_keeps _ _ bytes h := h.write bytes
  flush_keeps _ _ h := h.flush

/-- As long as an output did not refuse anything, or once it did, it has taken what comes first of
what is taken by one that takes everything. -/
theorem taken_eq_extract (h : Matches limited reliable front small large ∨
    Exceeded limited reliable front small large) {bytes : ByteArray}
    (hbytes : reliable.taken large = front ++ bytes) :
    limited.taken small = bytes.extract 0 (min capacity bytes.size) := by
  rcases h with hmatches | hexceeded
  · obtain rfl : bytes = limited.taken small :=
      (ByteArray.append_right_inj front).1 (hbytes.symm.trans hmatches.taken)
    rw [Nat.min_eq_right (limited.size_le hmatches.holds), ByteArray.extract_zero_size]
  · obtain ⟨more, hmore⟩ := hexceeded.taken
    obtain rfl : bytes = limited.taken small ++ more :=
      (ByteArray.append_right_inj front).1 (hbytes.symm.trans hmore)
    have hle : capacity ≤ (limited.taken small ++ more).size := by
      rw [ByteArray.size_append, hexceeded.full]
      exact Nat.le_add_right _ _
    rw [Nat.min_eq_left hle, ByteArray.extract_append_eq_left hexceeded.full.symm]

end Output.Limited

/-- Memory with so much room is limited. -/
def Memory.limited (capacity : Nat) : Output.Limited Memory capacity where
  holds memory := memory.room = some (capacity - memory.bytes.size) ∧
    memory.bytes.size ≤ capacity ∧ memory.refusesFlush = false
  taken := Memory.bytes
  size_le h := h.2.1
  write_fits := by
    rintro memory bytes ⟨hroom, hsize, hflush⟩ hfits
    have hspare : bytes.size ≤ capacity - memory.bytes.size := by omega
    refine ⟨{ memory with
      bytes := memory.bytes ++ bytes, room := some (capacity - memory.bytes.size - bytes.size) },
      ?_, ⟨?_, ?_, hflush⟩, rfl⟩
    · simp only [Output.write, Memory.write, hroom, if_pos hspare]
    · rw [ByteArray.size_append, Nat.sub_sub]
    · rwa [ByteArray.size_append]
  write_full := by
    rintro memory bytes ⟨hroom, hsize, hflush⟩ hover
    have hspare : ¬ bytes.size ≤ capacity - memory.bytes.size := by omega
    have hcut : memory.bytes ++ bytes.extract 0 (capacity - memory.bytes.size) =
        (memory.bytes ++ bytes).extract 0 capacity := by
      have hall : memory.bytes.extract 0 capacity = memory.bytes := by
        apply ByteArray.ext
        rw [ByteArray.data_extract]
        exact Array.extract_eq_self_of_le hsize
      rw [ByteArray.extract_append, hall, Nat.zero_sub]
    have hsum : memory.bytes.size + bytes.size ≥ capacity := by omega
    refine ⟨.outputFull, { memory with
      bytes := memory.bytes ++ bytes.extract 0 (capacity - memory.bytes.size), room := some 0 },
      ?_, ⟨?_, ?_, hflush⟩, hcut⟩
    · simp only [Output.write, Memory.write, hroom, if_neg hspare]
    all_goals rw [hcut, ByteArray.size_extract, ByteArray.size_append, Nat.min_eq_left hsum]
    · rw [Nat.sub_zero, Nat.sub_self]
    · exact Nat.sub_le _ _
  flush_keeps := by
    rintro memory ⟨hroom, hsize, hflush⟩
    exact ⟨.ok (), memory, by simp [Output.flush, Memory.flush, hflush], ⟨hroom, hsize, hflush⟩, rfl,
      fun _ => rfl⟩

end XmlWorkload
