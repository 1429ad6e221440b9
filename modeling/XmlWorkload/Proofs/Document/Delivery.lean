import XmlWorkload.Proofs.Document.Calls
import XmlWorkload.Proofs.Document.History
import XmlWorkload.Proofs.Output.Limited
import XmlWorkload.Proofs.Sink.Sound

/-!
# What is delivered

Every call to a document is a row of requests to its stream, each of which is granted or leaves the
stream as it is.  So the stream shows a sound draft at any time, whether the document is live, closed
or failed, and what was delivered so far is the start of a whole document.  Main statement: an output
that takes so many bytes is delivered just as many of those that the same calls deliver to an output
that takes everything, and these go on to a document that can be read
(`Document.delivered_extract`).
-/

set_option autoImplicit false

namespace XmlWorkload

namespace XmlStream

variable {ω : Type} [Output ω] {reliable : Output.Reliable ω} {front : ByteArray} {root : String}

/-- A stream shows a sound draft of a document. -/
def ShowsSound (reliable : Output.Reliable ω) (front : ByteArray) (root : String)
    (stream : XmlStream ω) : Prop :=
  ∃ draft : Draft, Shows reliable front draft stream ∧ draft.Sound root

/-- Whatever is requested of a stream, it goes on to show a sound draft. -/
theorem ShowsSound.perform {stream : XmlStream ω} (h : ShowsSound reliable front root stream)
    (request : SinkRequest) :
    ShowsSound reliable front root (request.perform.run stream).2 := by
  obtain ⟨draft, hshows, hsound⟩ := h
  by_cases hallows : draft.Allows request
  · obtain ⟨left, hrun, hleft⟩ := perform_of_allows hshows hallows
    rw [hrun]
    exact ⟨draft.after request, hleft, hsound.after hallows⟩
  · obtain ⟨error, -, hrun⟩ := perform_of_not_allows hshows hallows
    rw [hrun]
    exact ⟨draft, hshows, hsound⟩

/-- An action keeps a stream at showing sound drafts if it does what a request does. -/
theorem showsSound_alike {α : Type} {action : Action (XmlStream ω) α} {request : SinkRequest}
    {value : α → Option Nat}
    (hrequest : request.perform = (action >>= fun result => pure (value result))) :
    Action.Alike (fun stream other => stream = other ∧ ShowsSound reliable front root stream)
      action action := by
  rintro stream _ ⟨rfl, h⟩
  have hafter := h.perform request
  rw [hrequest] at hafter
  refine ⟨rfl, rfl, ?_⟩
  rcases hrun : action.run stream with ⟨error | result, left⟩
  · rwa [Action.run_bind_of_error hrun] at hafter
  · rwa [Action.run_bind_of_ok hrun] at hafter

/-- The operations of a stream keep it at showing sound drafts. -/
theorem alike_of_showsSound : Sink.Alike fun stream other : XmlStream ω =>
    stream = other ∧ ShowsSound reliable front root stream where
  root := fun _ _ _ => rfl
  startElement parent name :=
    showsSound_alike (show (SinkRequest.start parent name).perform = _ from rfl)
  setAttribute element name value :=
    showsSound_alike (show (SinkRequest.attr element name value).perform = _ from rfl)
  writeText element text :=
    showsSound_alike (show (SinkRequest.text element text).perform = _ from rfl)
  endElement element := showsSound_alike (show (SinkRequest.ended element).perform = _ from rfl)
  finish := showsSound_alike (show SinkRequest.finish.perform = _ from rfl)

end XmlStream

namespace Document

open XmlStream (create declare ShowsSound)

variable {ω υ : Type} [Output ω] [Output υ]

/-- What calls to a document on an output leave behind.  If the document cannot be made, no call can
be. -/
def deliver (root : String) (declared : Bool) (label : String) (calls : List Call) (output : ω) : ω :=
  match create output root declared with
  | (.ok stream, _) => (performAll calls (new label stream)).2.sink.output
  | (.error _, left) => left

section Parting

variable {related parted : ω → υ → Prop} {root : String}

/-- What is delivered to outputs that are alike until one fails leaves them related, or parted. -/
theorem deliver_until (h : Output.AlikeUntil related parted) {output : ω} {other : υ}
    (hrelated : related output other) (hroot : Name.isValid root = true) (declared : Bool)
    (label : String) (calls : List Call) :
    related (deliver root declared label calls output) (deliver root declared label calls other) ∨
      parted (deliver root declared label calls output)
        (deliver root declared label calls other) := by
  have hsinks := XmlStream.alikeUntil h
  have hdeclare := (XmlStream.declare_until h declared).outcome
    (XmlStream.start_related hrelated root)
  unfold deliver
  rw [XmlStream.create_of_isValid hroot, XmlStream.create_of_isValid hroot]
  rcases hrun : (declare declared).run (XmlStream.start output root) with ⟨result, stream⟩
  rcases hrun' : (declare declared).run (XmlStream.start other root) with ⟨result', stream'⟩
  rw [hrun, hrun'] at hdeclare
  rcases hdeclare with ⟨hresult, hstreams⟩ | ⟨error, herror, hparted⟩
  · obtain rfl : result = result' := hresult
    cases result with
    | error error => exact .inl hstreams.output
    | ok value =>
      have hnew := new_until hsinks label hstreams
      rcases performAll_until hsinks calls hnew with ⟨-, hleft⟩ | ⟨error, -, hparted⟩
      · exact .inl hleft.sink.output
      · exact .inr hparted.2
  · obtain rfl : result = .error error := herror
    cases result' with
    | error error' => exact .inr hparted.2
    | ok value =>
      -- the second document is called all the same
      let failed : Document (XmlStream ω) := { new label stream with status := .failed error }
      have hfailed : Parted (XmlStream.Parted parted) error failed (new label stream') :=
        ⟨rfl, hparted⟩
      exact .inr (performAll_keeps hsinks calls hfailed).2.2

end Parting

/-- What calls to a document deliver to an output that takes everything is the text of a sound draft,
with the declaration in front of it. -/
theorem taken_deliver (reliable : Output.Reliable ω) {output : ω} (hholds : reliable.holds output)
    {root : String} (hroot : Name.isValid root = true) (declared : Bool) (label : String)
    (calls : List Call) :
    ∃ draft : Draft, draft.Sound root ∧
      reliable.taken (deliver root declared label calls output) =
        reliable.taken output ++ (Reference.prologue declared ++ draft.text).toUTF8 := by
  obtain ⟨stream, hcreate, hshows⟩ := create_ok hholds hroot declared
  let front := reliable.taken output ++ (Reference.prologue declared).toUTF8
  have hstream : stream = stream ∧ ShowsSound reliable front root stream :=
    ⟨rfl, Draft.new root, hshows, Draft.sound_new hroot⟩
  have hnew := new_related XmlStream.alike_of_showsSound label hstream
  obtain ⟨-, hleft⟩ := performAll_alike XmlStream.alike_of_showsSound calls hnew
  obtain ⟨-, draft, hdraft, hsound⟩ := hleft.sink
  refine ⟨draft, hsound, ?_⟩
  rw [deliver, hcreate]
  rw [Text.toUTF8_append, ← ByteArray.append_assoc]
  exact hdraft.taken

/-- Whatever calls are made to a document on an output with room for so many bytes, it has taken just
as many of the bytes that the same calls deliver to an output that takes everything.  At any time, a
failed document included, these are the start of a document that can be read: one element with
nothing around it and with balanced tags. -/
theorem delivered_extract (reliable : Output.Reliable ω) {capacity : Nat}
    (limited : Output.Limited υ capacity) {large : ω} {small : υ} (hlarge : reliable.holds large)
    (hsmall : limited.holds small) (hempty : limited.taken small = .empty) {root : String}
    (hroot : Name.isValid root = true) (declared : Bool) (label : String) (calls : List Call) :
    ∃ bytes : ByteArray,
      reliable.taken (deliver root declared label calls large) = reliable.taken large ++ bytes ∧
      limited.taken (deliver root declared label calls small) =
        bytes.extract 0 (min capacity bytes.size) ∧
      ∃ (rest : ByteArray) (text : String) (attrs : List (String × String))
        (content : List Markup),
        bytes ++ rest = text.toUTF8 ∧
          Markup.read? text = some (.element root attrs content) := by
  obtain ⟨draft, hsound, htaken⟩ := taken_deliver reliable hlarge hroot declared label calls
  have hmatches : limited.Matches reliable (reliable.taken large) small large :=
    ⟨hsmall, hlarge, by rw [hempty, ByteArray.append_empty]⟩
  have hdelivered := deliver_until Output.Limited.alikeUntil hmatches hroot declared label calls
  refine ⟨_, htaken, Output.Limited.taken_eq_extract hdelivered htaken, ?_⟩
  -- closing all that is open in the draft completes the text
  obtain ⟨attrs, content, hsealed, hwritable⟩ := hsound.sealed_eq
  obtain ⟨rest, hrest⟩ := draft.exists_rest
  have hread := Markup.read?_render_of_writable hwritable declared
  rw [Markup.joined] at hread
  refine ⟨rest.toUTF8, _, attrs, _, ?_, hread⟩
  rw [← Text.toUTF8_append, String.append_assoc, hrest, hsealed]
  simp only [Markup.renderAll, String.append_empty]

/-- An output with room for five bytes is failed within the first start tag below the root. -/
theorem delivered_extract_small :
    let small : Memory := ⟨.empty, some 5, false⟩
    Memory.reliable.holds Memory.unlimited ∧ (Memory.limited 5).holds small ∧
      (Memory.limited 5).taken small = .empty ∧ Name.isValid "r" = true ∧
      (deliver "r" false "d" [.emit ⟨["a"], .empty⟩, .close] Memory.unlimited).bytes =
        "<r><a/></r>".toUTF8 ∧
      (deliver "r" false "d" [.emit ⟨["a"], .empty⟩, .close] small).bytes = "<r><a".toUTF8 := by
  intro small
  have hlarge : Memory.reliable.holds Memory.unlimited := ⟨rfl, rfl⟩
  have hsmall : (Memory.limited 5).holds small := ⟨rfl, by decide, rfl⟩
  have hroot : Name.isValid "r" = true := by decide
  have htext : (deliver "r" false "d" [.emit ⟨["a"], .empty⟩, .close] Memory.unlimited).bytes =
      "<r><a/></r>".toUTF8 := by
    let document := new "d" (XmlStream.start Memory.unlimited "r")
    have hlive : document.status = .live := rfl
    have hemit := emit_of_live ⟨["a"], .empty⟩ (by decide) resolve_empty hlive
    show (close.run ((emit ["a"] .empty).run document).2).2.sink.output.bytes = _
    rw [hemit]
    decide
  obtain ⟨bytes, htaken, hcut, -⟩ := delivered_extract Memory.reliable (Memory.limited 5) hlarge
    hsmall rfl hroot false "d" [.emit ⟨["a"], .empty⟩, .close]
  have hempty : Memory.reliable.taken Memory.unlimited = .empty := rfl
  rw [hempty, ByteArray.empty_append] at htaken
  obtain rfl : "<r><a/></r>".toUTF8 = bytes := htext.symm.trans htaken
  exact ⟨hlarge, hsmall, rfl, hroot, htext, hcut.trans (by decide)⟩

end Document

end XmlWorkload
