import XmlWorkload.Proofs.Document.Closing
import XmlWorkload.Proofs.Sink.Log

/-!
# Streams and recorders agree

A recorder takes everything, and a stream refuses what does not fit.  Main statement: given the
requests that a stream grants, a recorder gives the same results, and once the root was ended the
text of the stream is that of the recorded calls (`XmlStream.recorded_text`).
-/

set_option autoImplicit false

namespace XmlWorkload

namespace Recorder

open SinkCall SinkRequest

variable {draft : Draft} {recorder : Recorder} {request : SinkRequest}

/-- A recorder knows the open elements of a draft by name, and gives the same next number. -/
structure Knows (draft : Draft) (recorder : Recorder) : Prop where
  nextElement : recorder.nextElement = draft.nextElement
  nameOf : ∀ frame ∈ draft.frames, recorder.nameOf frame.element = frame.name

/-- A recorder takes a request that a draft allows, and gives what the draft gives. -/
theorem perform_run (h : Knows draft recorder) (hallows : draft.Allows request) :
    request.perform.run recorder =
      (.ok (draft.answer request), recorder.after (draft.logged request)) := by
  cases request with
  | start parent name =>
    have hrun := startElement_run recorder parent name
    rw [h.nextElement] at hrun
    exact Action.run_bind_of_ok hrun _
  | attr element name value => exact Action.run_bind_of_ok (setAttribute_run recorder _ _ _) _
  | text element body => exact Action.run_bind_of_ok (writeText_run recorder _ _) _
  | ended element =>
    obtain ⟨top, outer, hopened, rfl⟩ := hallows
    have hframe : top.frame ∈ draft.frames := by simp [Draft.frames, hopened]
    have hrun := endElement_run recorder top.element
    rw [show recorder.nameOf top.element = top.name from h.nameOf _ hframe] at hrun
    rw [Draft.logged, hopened]
    exact Action.run_bind_of_ok hrun _
  | finish => rfl

/-- A recorder that knows a draft knows it after a request. -/
theorem Knows.after (h : Knows draft recorder) (hnumbered : draft.Numbered)
    (request : SinkRequest) : Knows (draft.after request) (recorder.after (draft.logged request)) := by
  have hnodup : ((startedIn (draft.logged request)).map Frame.element).Nodup := by
    cases request with
    | text element body => simp [Draft.logged]
    | _ => simp [Draft.logged, startedIn]
  constructor
  · rw [nextElement_after, Draft.nextElement_after, h.nextElement]
  · intro frame hframe
    rcases Draft.mem_frames_after hframe with hold | hnew
    · rw [Recorder.nameOf_after, h.nameOf frame hold]
      intro hmem
      obtain ⟨other, hother, hsame⟩ := List.mem_map.1 hmem
      have hbelow := hnumbered.below _ (Draft.mem_numbers_of_mem_frames hold)
      rw [← hsame, Draft.element_of_mem_startedIn hother] at hbelow
      exact Nat.lt_irrefl _ hbelow
    · exact nameOf_after_of_mem hnodup hnew recorder

/-- A recorder takes all requests that a draft allows one after the other, and remembers their
log. -/
theorem performAll_run {requests : List SinkRequest} (h : Knows draft recorder)
    (hnumbered : draft.Numbered) (hallows : draft.AllowsAll requests) :
    performAll requests recorder =
      ((draft.answers requests).map .ok, recorder.after (draft.logAll requests)) := by
  induction requests generalizing draft recorder with
  | nil => simp [performAll, Draft.answers, Draft.logAll]
  | cons request rest ih =>
    have hrest := ih (h.after hnumbered request) (hnumbered.after request) hallows.2
    rw [performAll, perform_run h hallows.1, hrest, after_after]
    rfl

/-- A new recorder knows a new draft. -/
theorem knows_new (root : String) : Knows (Draft.new root) (new root) := by
  refine ⟨rfl, fun frame hframe => ?_⟩
  obtain rfl : frame = ⟨0, root⟩ := by
    simpa [Draft.frames, Draft.new, Unfinished.frame] using hframe
  rfl

/-- A new recorder remembers the log of the requests that a new draft allows. -/
theorem calls_performAll_new {root : String} {requests : List SinkRequest}
    (hallows : (Draft.new root).AllowsAll requests) :
    (performAll requests (new root)).2.calls = (Draft.new root).logAll requests := by
  rw [performAll_run (knows_new root) (Draft.numbered_new root) hallows]
  rfl

end Recorder

namespace XmlStream

open SinkCall SinkRequest

variable {ω : Type} [Output ω]

/-- A stream with a valid root can be made on an output that takes everything.  Whatever requests are
made to it: a recorder that is given the granted ones gives the results that the stream gave for
them, element numbers among them.  Once the root was ended, the text of the stream is its declaration,
if it has one, and the tree that the recorded calls tell.  In it the attributes and the content of an
element are those that all the calls give it, and the content is empty, so that the element is
written as one tag, exactly when no start with it as parent and no text on it was recorded. -/
theorem recorded_text (reliable : Output.Reliable ω) {output : ω} (hholds : reliable.holds output)
    {root : String} (hroot : Name.isValid root = true) (declared : Bool) :
    ∃ stream, create output root declared = (.ok stream, stream.output) ∧
      ∀ requests,
        let streamed := performAll requests stream
        let recorded := performAll (grantedIn requests streamed.1) (Recorder.new root)
        let calls := recorded.2.calls
        recorded.1 = streamed.1.filter Except.isOk ∧
          (0 ∈ endedIn calls →
            reliable.taken streamed.2.output = reliable.taken output ++
              (Reference.prologue declared ++ (treeOf root calls).render).toUTF8) ∧
          (contentOf 0 calls = [] ↔ ∀ call ∈ calls, ¬ call.Fills 0) ∧
          ∀ before parent element name behind,
            calls = before ++ .start parent element name :: behind →
              attributesOf element behind = attributesOf element calls ∧
                contentOf element behind = contentOf element calls ∧
                  (contentOf element calls = [] ↔ ∀ call ∈ calls, ¬ call.Fills element) := by
  obtain ⟨stream, hcreate, hshows⟩ := Document.create_ok hholds hroot declared
  refine ⟨stream, hcreate, fun requests => ?_⟩
  intro streamed recorded calls
  obtain ⟨hallows, hleft, hanswers⟩ := performAll_shows hshows requests
  have hnumbered := Draft.numbered_new root
  have hcalls : calls = (Draft.new root).logAll (grantedIn requests streamed.1) :=
    Recorder.calls_performAll_new hallows
  refine ⟨?_, fun hended => ?_, contentOf_eq_nil_iff 0 calls, ?_⟩
  · rw [hanswers]
    exact congrArg Prod.fst (Recorder.performAll_run (Recorder.knows_new root) hnumbered hallows)
  · rw [hcalls] at hended
    rw [hleft.taken, Draft.text_afterAll_new hallows (Draft.opened_of_ended hallows hended),
      ByteArray.append_assoc, ← Text.toUTF8_append, ← hcalls]
  · intro before parent element name behind hsplit
    obtain ⟨-, hparent, hbefore⟩ :=
      Draft.not_concerns_before_start hallows hnumbered (hcalls.symm.trans hsplit)
    -- calls that may be left out, so that those behind the start give the element all that it has
    have hskipped : ∀ call ∈ before ++ [.start parent element name], ¬ call.Concerns element :=
      List.forall_mem_append.2 ⟨hbefore, List.forall_mem_singleton.2 hparent⟩
    have hattrs := attributesOf_append_of_not_concerns hskipped behind
    have hcontent := contentOf_append_of_not_concerns hskipped behind
    rw [List.append_assoc, List.singleton_append, ← hsplit] at hattrs hcontent
    exact ⟨hattrs.symm, hcontent.symm, contentOf_eq_nil_iff element calls⟩

/-- An attribute on the root behind its first child is refused; the child has an attribute and an
empty text, and is written as one tag. -/
theorem recorded_text_small :
    Memory.reliable.holds Memory.unlimited ∧ Name.isValid "r" = true ∧
      create Memory.unlimited "r" false = (.ok (start Memory.unlimited "r"), Memory.unlimited) ∧
        (performAll [.start 0 "a", .attr 1 "b" "<", .attr 0 "c" "d", .text 1 "", .ended 1, .ended 0]
            (start Memory.unlimited "r")).2.output.bytes =
          "<r><a b=\"&lt;\"/></r>".toUTF8 := by
  have hholds : Memory.reliable.holds Memory.unlimited := ⟨rfl, rfl⟩
  have hroot : Name.isValid "r" = true := by decide
  obtain ⟨stream, hcreate, hrequests⟩ := recorded_text Memory.reliable hholds hroot false
  obtain rfl : start Memory.unlimited "r" = stream := Except.ok.inj (congrArg Prod.fst hcreate)
  refine ⟨hholds, hroot, hcreate, ?_⟩
  obtain ⟨-, htext, -⟩ := hrequests
    [.start 0 "a", .attr 1 "b" "<", .attr 0 "c" "d", .text 1 "", .ended 1, .ended 0]
  exact htext (by decide)

end XmlStream

end XmlWorkload
