import XmlWorkload.Proofs.Document.Parting
import XmlWorkload.Sink.XmlStream

/-!
# Streams that go on alike until an output fails

Let the operations of two outputs give the same results in related states and leave related states
behind, unless the first output fails where the second need not.  Main statements: streams in the
same state on such outputs are alike as sinks until the first output fails (`XmlStream.alikeUntil`),
from their declaration on (`XmlStream.declare_until`).
-/

set_option autoImplicit false

namespace XmlWorkload

open XmlWorkload.Action (AlikeOutcome AlikeUntil)

/-- The operations of two outputs are alike until the first output fails.  The outputs have parted
then, and the second one leaves them parted. -/
structure Output.AlikeUntil {ω υ : Type} [Output ω] [Output υ] (related parted : ω → υ → Prop) :
    Prop where
  write : ∀ ⦃output : ω⦄ ⦃other : υ⦄ (bytes : ByteArray), related output other →
    AlikeOutcome related (fun _ => parted) (Output.write bytes output) (Output.write bytes other)
  flush : ∀ ⦃output : ω⦄ ⦃other : υ⦄, related output other →
    AlikeOutcome related (fun _ => parted) (Output.flush output) (Output.flush other)
  write_keeps : ∀ ⦃output : ω⦄ ⦃other : υ⦄ (bytes : ByteArray), parted output other →
    parted output (Output.write bytes other).2
  flush_keeps : ∀ ⦃output : ω⦄ ⦃other : υ⦄, parted output other →
    parted output (Output.flush other).2

variable {ω υ : Type} [Output ω] [Output υ] {related parted : ω → υ → Prop}

namespace Output.AlikeUntil

/-- Pieces that one side writes alone keep the two apart. -/
theorem writePieces_keeps (h : AlikeUntil related parted) (pieces : List String) {output : ω}
    {other : υ} (hparted : parted output other) : parted output (writePieces pieces other).2 := by
  induction pieces generalizing other with
  | nil => exact hparted
  | cons piece rest ih =>
    have hwrite := h.write_keeps piece.toUTF8 hparted
    unfold writePieces
    rcases hrun : Output.write piece.toUTF8 other with ⟨⟨⟩ | ⟨⟩, left⟩
    · rwa [hrun] at hwrite
    · rw [hrun] at hwrite
      exact ih hwrite

/-- Writing pieces on related outputs comes to the same until one of them raises. -/
theorem writePieces_until (h : AlikeUntil related parted) (pieces : List String) {output : ω}
    {other : υ} (hrelated : related output other) :
    AlikeOutcome related (fun _ => parted) (writePieces pieces output)
      (writePieces pieces other) := by
  induction pieces generalizing output other with
  | nil => exact .inl ⟨rfl, hrelated⟩
  | cons piece rest ih =>
    have hwrite := h.write piece.toUTF8 hrelated
    unfold writePieces
    rcases hrun : Output.write piece.toUTF8 output with ⟨result, left⟩
    rcases hrun' : Output.write piece.toUTF8 other with ⟨result', left'⟩
    rw [hrun, hrun'] at hwrite
    rcases hwrite with ⟨hresult, hleft⟩ | ⟨fault, hfault, hparted⟩
    · obtain rfl : result = result' := hresult
      cases result with
      | error fault => exact .inl ⟨rfl, hleft⟩
      | ok value => exact ih hleft
    · -- the second output may take the rest of the pieces
      obtain rfl : result = .error fault := hfault
      refine .inr ⟨fault, rfl, ?_⟩
      cases result' with
      | error fault' => exact hparted
      | ok value => exact h.writePieces_keeps rest hparted

end Output.AlikeUntil

namespace XmlStream

/-- Two streams are in the same state on related outputs. -/
structure Related (related : ω → υ → Prop) (first : XmlStream ω) (second : XmlStream υ) :
    Prop where
  output : related first.output second.output
  frames : first.frames = second.frames
  heldTag : first.heldTag = second.heldTag
  nextElement : first.nextElement = second.nextElement

/-- The outputs of two streams have parted, at an error of the first output. -/
def Parted (parted : ω → υ → Prop) (error : Error) (first : XmlStream ω) (second : XmlStream υ) :
    Prop :=
  (∃ fault, error = .io fault) ∧ parted first.output second.output

/-- What a stream is apart from its output. -/
def sight (stream : XmlStream ω) : XmlStream Unit := stream.withOutput ()

omit [Output ω] [Output υ] in
/-- Related streams are seen in the same way. -/
theorem Related.sight_eq {first : XmlStream ω} {second : XmlStream υ}
    (h : Related related first second) : first.sight = second.sight := by
  rw [sight, sight, withOutput, withOutput, h.frames, h.heldTag, h.nextElement]

section Parts

/-- An operation that looks at the stream first. -/
def looking {α : Type} (next : XmlStream Unit → Action (XmlStream ω) α) : Action (XmlStream ω) α :=
  Action.getState >>= fun stream => next stream.sight

/-- Writes a start tag that was held back. -/
def writeTag : Option StartTag → Action (XmlStream ω) Unit
  | none => pure ()
  | some tag => do
    Action.change fun stream => { stream with heldTag := none }
    emit (startPieces tag)

/-- Opens a child in a stream that looks like another one. -/
def startElementFrom (seen : XmlStream Unit) (parent : Nat) (name : String) :
    Action (XmlStream ω) Nat := do
  let _ ← Action.ofExcept (seen.innermostFrame .startChild parent)
  Action.ofExcept (Name.validate name)
  writeHeldTag
  Action.change fun stream =>
    { stream with
      frames := ⟨seen.nextElement, name⟩ :: stream.frames
      heldTag := some ⟨name, []⟩
      nextElement := seen.nextElement + 1 }
  pure seen.nextElement

/-- Adds an attribute to the start tag that is held back, if there is one. -/
def addAttribute (frame : Frame) (name value : String) :
    Option StartTag → Action (XmlStream ω) Unit
  | some tag => Action.change fun stream =>
      { stream with heldTag := some { tag with attrs := tag.attrs ++ [(name, value)] } }
  | none => Action.fail (.outOfOrder (.attributeAfterContent name frame.name))

/-- Sets an attribute in a stream that looks like another one. -/
def setAttributeFrom (seen : XmlStream Unit) (element : Nat) (name value : String) :
    Action (XmlStream ω) Unit := do
  let frame ← Action.ofExcept (seen.innermostFrame .setAttribute element)
  Action.ofExcept (Name.validate name)
  Action.ofExcept (CharacterData.check (frame.name ++ "@" ++ name) value)
  addAttribute frame name value seen.heldTag

/-- Adds text in a stream that looks like another one. -/
def writeTextFrom (seen : XmlStream Unit) (element : Nat) (text : String) :
    Action (XmlStream ω) Unit := do
  let frame ← Action.ofExcept (seen.innermostFrame .writeText element)
  if text = "" then pure ()
  else
    Action.ofExcept (CharacterData.check frame.name text)
    writeHeldTag
    emit [CharacterData.escaped text]

/-- The last tag of an element: its only one if its start tag is still held back. -/
def lastTag (frame : Frame) : Option StartTag → Action (XmlStream ω) Unit
  | some tag => emit (emptyPieces tag)
  | none => emit (endPieces frame.name)

/-- Closes an element in a stream that looks like another one. -/
def endElementFrom (seen : XmlStream Unit) (element : Nat) : Action (XmlStream ω) Unit := do
  let frame ← Action.ofExcept (seen.innermostFrame .endElement element)
  Action.change fun stream => { stream with frames := stream.frames.drop 1, heldTag := none }
  lastTag frame seen.heldTag

/-- Writing the start tag that is held back begins with a look at it. -/
theorem writeHeldTag_eq :
    (writeHeldTag : Action (XmlStream ω) Unit) =
      Action.getState >>= fun stream => writeTag stream.heldTag := by
  funext stream
  show writeHeldTag.run stream = _
  simp only [Action.run, writeHeldTag]
  show _ = (writeTag stream.heldTag).run stream
  cases hheld : stream.heldTag with
  | some tag => rfl
  | none => rfl

/-- Starting an element begins with a look at the stream. -/
theorem startElement_eq (parent : Nat) (name : String) :
    (startElement parent name : Action (XmlStream ω) Nat) =
      looking fun seen => startElementFrom seen parent name :=
  rfl

omit [Output ω] in
/-- Setting an attribute begins with a look at the stream. -/
theorem setAttribute_eq (element : Nat) (name value : String) :
    (setAttribute element name value : Action (XmlStream ω) Unit) =
      looking fun seen => setAttributeFrom seen element name value :=
  rfl

/-- Writing a text begins with a look at the stream. -/
theorem writeText_eq (element : Nat) (text : String) :
    (writeText element text : Action (XmlStream ω) Unit) =
      looking fun seen => writeTextFrom seen element text :=
  rfl

/-- Ending an element begins with a look at the stream. -/
theorem endElement_eq (element : Nat) :
    (endElement element : Action (XmlStream ω) Unit) =
      looking fun seen => endElementFrom seen element :=
  rfl

end Parts

section Operations

omit [Output ω] [Output υ] in
/-- An operation is alike if it goes on alike in streams that look the same. -/
theorem sight_until {α : Type} {next : XmlStream Unit → Action (XmlStream ω) α}
    {next' : XmlStream Unit → Action (XmlStream υ) α}
    (hnext : ∀ seen, AlikeUntil (Related related) (Parted parted) (next seen) (next' seen)) :
    AlikeUntil (Related related) (Parted parted) (looking next) (looking next') :=
  .getState_bind (fun _ _ hrelated => Related.sight_eq hrelated) hnext

omit [Output ω] [Output υ] in
/-- A change of streams that does not concern their outputs. -/
theorem change_until {f : XmlStream ω → XmlStream ω} {g : XmlStream υ → XmlStream υ}
    (h : ∀ first second, Related related first second → Related related (f first) (g second))
    (houtput : ∀ second, (g second).output = second.output) :
    AlikeUntil (Related related) (Parted parted) (Action.change f) (Action.change g) :=
  .change h fun error first second hparted => by rwa [Parted, houtput]

omit [Output ω] [Output υ] in
/-- What the outputs of two streams give is what the streams give, with other names for the
failures. -/
theorem output_until {first : Except IoFault Unit × ω} {second : Except IoFault Unit × υ}
    {stream : XmlStream ω} {other : XmlStream υ} (hrelated : Related related stream other)
    (h : AlikeOutcome related (fun _ => parted) first second) :
    AlikeOutcome (Related related) (Parted parted)
      (first.1.mapError Error.io, { stream with output := first.2 })
      (second.1.mapError Error.io, { other with output := second.2 }) := by
  rcases h with ⟨hresult, hleft⟩ | ⟨fault, hfault, hparted⟩
  · exact .inl ⟨congrArg (Except.mapError Error.io) hresult, { hrelated with output := hleft }⟩
  · exact .inr ⟨.io fault, congrArg (Except.mapError Error.io) hfault, ⟨fault, rfl⟩, hparted⟩

omit [Output ω] [Output υ] in
/-- Setting an attribute on related streams comes to the same until an output raises. -/
theorem setAttribute_until (element : Nat) (name value : String) :
    AlikeUntil (Related related) (Parted parted)
      (setAttribute element name value : Action (XmlStream ω) Unit)
      (setAttribute element name value) := by
  rw [setAttribute_eq, setAttribute_eq]
  refine sight_until fun seen => ?_
  unfold setAttributeFrom
  refine (AlikeUntil.ofExcept _).bind fun frame => ?_
  refine (AlikeUntil.ofExcept _).bind fun _ => ?_
  refine (AlikeUntil.ofExcept _).bind fun _ => ?_
  cases seen.heldTag with
  | none => exact .fail _
  | some tag =>
    refine change_until ?_ fun _ => rfl
    exact fun _ _ hrelated => { hrelated with heldTag := rfl }

variable (h : Output.AlikeUntil related parted)

include h

/-- Writing pieces to related streams comes to the same until an output raises. -/
theorem emit_until (pieces : List String) :
    AlikeUntil (Related related) (Parted parted) (emit pieces : Action (XmlStream ω) Unit)
      (emit pieces) := by
  constructor
  · intro first second hrelated
    exact output_until hrelated (h.writePieces_until pieces hrelated.output)
  · intro error first second hparted
    exact ⟨hparted.1, h.writePieces_keeps pieces hparted.2⟩

/-- Writing a tag to related streams comes to the same until an output raises. -/
theorem writeTag_until (held : Option StartTag) :
    AlikeUntil (Related related) (Parted parted) (writeTag held : Action (XmlStream ω) Unit)
      (writeTag held) := by
  cases held with
  | none => exact .pure ()
  | some tag =>
    refine (change_until ?_ ?_).bind fun _ => emit_until h (startPieces tag)
    · exact fun _ _ hrelated => { hrelated with heldTag := rfl }
    · exact fun _ => rfl

/-- Writing the start tag held back on related streams comes to the same until an output raises. -/
theorem writeHeldTag_until :
    AlikeUntil (Related related) (Parted parted) (writeHeldTag : Action (XmlStream ω) Unit)
      writeHeldTag := by
  have hheld : ∀ (first : XmlStream ω) (second : XmlStream υ), Related related first second →
      first.heldTag = second.heldTag := fun _ _ hrelated => hrelated.heldTag
  rw [writeHeldTag_eq, writeHeldTag_eq]
  exact .getState_bind hheld fun held => writeTag_until h held

/-- Starting an element on related streams comes to the same until an output raises. -/
theorem startElement_until (parent : Nat) (name : String) :
    AlikeUntil (Related related) (Parted parted)
      (startElement parent name : Action (XmlStream ω) Nat) (startElement parent name) := by
  rw [startElement_eq, startElement_eq]
  refine sight_until fun seen => ?_
  unfold startElementFrom
  refine (AlikeUntil.ofExcept _).bind fun _ => ?_
  refine (AlikeUntil.ofExcept _).bind fun _ => ?_
  refine (writeHeldTag_until h).bind fun _ => ?_
  refine (change_until ?_ ?_).bind fun _ => .pure _
  · intro first second hrelated
    exact { hrelated with
      frames := congrArg (List.cons _) hrelated.frames, heldTag := rfl, nextElement := rfl }
  · exact fun _ => rfl

/-- Writing a text to related streams comes to the same until an output raises. -/
theorem writeText_until (element : Nat) (text : String) :
    AlikeUntil (Related related) (Parted parted)
      (writeText element text : Action (XmlStream ω) Unit) (writeText element text) := by
  rw [writeText_eq, writeText_eq]
  refine sight_until fun seen => ?_
  unfold writeTextFrom
  refine (AlikeUntil.ofExcept _).bind fun frame => ?_
  by_cases hempty : text = ""
  · simp only [if_pos hempty]
    exact .pure ()
  simp only [if_neg hempty]
  refine (AlikeUntil.ofExcept _).bind fun _ => ?_
  exact (writeHeldTag_until h).bind fun _ => emit_until h _

/-- Ending an element on related streams comes to the same until an output raises. -/
theorem endElement_until (element : Nat) :
    AlikeUntil (Related related) (Parted parted)
      (endElement element : Action (XmlStream ω) Unit) (endElement element) := by
  rw [endElement_eq, endElement_eq]
  refine sight_until fun seen => ?_
  unfold endElementFrom
  refine (AlikeUntil.ofExcept _).bind fun frame => ?_
  refine (change_until ?_ ?_).bind fun _ => ?_
  · intro first second hrelated
    exact { hrelated with frames := congrArg (List.drop 1) hrelated.frames, heldTag := rfl }
  · exact fun _ => rfl
  cases seen.heldTag with
  | none => exact emit_until h (endPieces frame.name)
  | some tag => exact emit_until h (emptyPieces tag)

/-- Finishing related streams comes to the same until an output raises. -/
theorem finish_until :
    AlikeUntil (Related related) (Parted parted) (finish : Action (XmlStream ω) Unit) finish := by
  constructor
  · intro first second hrelated
    have hframes := hrelated.frames
    cases hopen : second.frames with
    | cons frame rest =>
      rw [hopen] at hframes
      simp only [Action.run, finish, hframes, hopen]
      exact .inl ⟨rfl, hrelated⟩
    | nil =>
      rw [hopen] at hframes
      have hflush := output_until hrelated (h.flush hrelated.output)
      simpa only [Action.run, finish, hframes, hopen] using hflush
  · intro error first second hparted
    simp only [Action.run, finish]
    cases second.frames with
    | cons frame rest => exact hparted
    | nil => exact ⟨hparted.1, h.flush_keeps hparted.2⟩

end Operations

/-- Streams are alike as sinks until the first output fails. -/
theorem alikeUntil (h : Output.AlikeUntil related parted) :
    Sink.AlikeUntil (Related related) (Parted parted) where
  root := fun _ _ _ => rfl
  startElement := startElement_until h
  setAttribute := setAttribute_until
  writeText := writeText_until h
  endElement := endElement_until h
  finish := finish_until h

omit [Output ω] [Output υ] in
/-- New streams on related outputs are related. -/
theorem start_related {output : ω} {other : υ} (hrelated : related output other) (root : String) :
    Related related (start output root) (start other root) :=
  ⟨hrelated, rfl, rfl, rfl⟩

/-- Writes a declaration if it is asked for. -/
def declare (declared : Bool) : Action (XmlStream ω) Unit :=
  if declared then emit declarationPieces else pure ()

/-- A stream with a root that has a name is one that wrote its declaration. -/
theorem create_of_isValid {root : String} (hroot : Name.isValid root = true) (output : ω)
    (declared : Bool) :
    create output root declared =
      (((declare declared).run (start output root)).1.map
        fun _ => ((declare declared).run (start output root)).2,
        ((declare declared).run (start output root)).2.output) := by
  unfold create
  rw [(Name.validate_eq_ok_iff root).2 hroot]
  cases declared with
  | false => rfl
  | true =>
    simp only [declare, if_true, Action.run]
    rcases emit declarationPieces (start output root) with ⟨⟨⟩ | ⟨⟩, left⟩ <;> rfl

/-- Writing the declaration to related streams comes to the same until an output raises. -/
theorem declare_until (h : Output.AlikeUntil related parted) (declared : Bool) :
    AlikeUntil (Related related) (Parted parted) (declare declared : Action (XmlStream ω) Unit)
      (declare declared) := by
  cases declared with
  | false => exact .pure ()
  | true => exact emit_until h declarationPieces

end XmlStream

end XmlWorkload
