import XmlWorkload.Proofs.Document.Alike
import XmlWorkload.Proofs.Sink.Parting

/-!
# Streams that behave alike

Two outputs are alike when their operations give the same results in related states and leave
related states behind.  Main statement: streams in the same state on such outputs are alike as sinks
(`XmlStream.alike`), from their declaration on (`XmlStream.create_related`).
-/

set_option autoImplicit false

namespace XmlWorkload

/-- The operations of two outputs are alike. -/
structure Output.Alike {ω υ : Type} [Output ω] [Output υ] (related : ω → υ → Prop) : Prop where
  write : ∀ ⦃output : ω⦄ ⦃other : υ⦄ (bytes : ByteArray), related output other →
    (Output.write bytes output).1 = (Output.write bytes other).1 ∧
      related (Output.write bytes output).2 (Output.write bytes other).2
  flush : ∀ ⦃output : ω⦄ ⦃other : υ⦄, related output other →
    (Output.flush output).1 = (Output.flush other).1 ∧
      related (Output.flush output).2 (Output.flush other).2

variable {ω υ : Type} [Output ω] [Output υ] {related : ω → υ → Prop}

/-- Alike outputs are alike for good: they never part. -/
theorem Output.Alike.until (h : Output.Alike related) :
    Output.AlikeUntil related fun _ _ => False where
  write := fun _ _ bytes hrelated => .inl (h.write bytes hrelated)
  flush := fun _ _ hrelated => .inl (h.flush hrelated)
  write_keeps := fun _ _ _ => id
  flush_keeps := fun _ _ => id

namespace XmlStream

/-- Streams on alike outputs are alike. -/
theorem alike (h : Output.Alike related) : Sink.Alike (Related related) :=
  (alikeUntil h.until).alike fun _ _ _ hparted => hparted.2

/-- Streams that are made on related outputs are in the same state. -/
theorem create_related (h : Output.Alike related) {output : ω} {other : υ}
    (hrelated : related output other) {root : String} {declared : Bool} {stream : XmlStream ω}
    {left : ω} (hcreate : create output root declared = (.ok stream, left)) :
    ∃ stream' left', create other root declared = (.ok stream', left') ∧
      Related related stream stream' := by
  cases hroot : Name.isValid root with
  | false =>
    rw [create, Name.validate_of_not_isValid hroot] at hcreate
    cases hcreate
  | true =>
    have hdeclare : Action.Alike (Related related) (declare declared : Action (XmlStream ω) Unit)
      (declare declared) := (declare_until h.until declared).alike fun _ _ _ hparted => hparted.2
    obtain ⟨hresult, hleft⟩ := hdeclare (start_related hrelated root)
    rw [create_of_isValid hroot] at hcreate ⊢
    rw [← hresult]
    cases hvalue : ((declare declared).run (start output root)).1 with
    | error error =>
      rw [hvalue] at hcreate
      cases hcreate
    | ok value =>
      rw [hvalue] at hcreate
      cases hcreate
      exact ⟨_, _, rfl, hleft⟩

end XmlStream

end XmlWorkload
