import XmlWorkload.Proofs.Sink.Agreement
import XmlWorkload.Proofs.Sink.Sound

/-!
# Streams write what can be read

A stream that could be finished has written one element with balanced tags and nothing around it, and
no character with a meaning of its own stands in a text or an attribute as it is: a plain reader
accepts what was written.  Nothing keeps the attributes of an element apart by name, though.  Main
statement: the start tags that are read are those of the root and of the started elements, in the
order of their starts, each with the attributes that were granted to it
(`XmlStream.reading_of_finished`).
-/

set_option autoImplicit false

namespace XmlWorkload

open Markup (startTagsAll)
open SinkCall SinkRequest

namespace Draft

variable {draft : Draft} {requests : List SinkRequest}

/-- What requests start from here on has a number from the next one on. -/
theorem nextElement_le_of_mem_startedIn {frame : Frame}
    (h : frame ∈ startedIn (draft.logAll requests)) : draft.nextElement ≤ frame.element := by
  induction requests generalizing draft with
  | nil => cases h
  | cons request rest ih =>
    rw [logAll, startedIn_append, List.mem_append] at h
    rcases h with hfirst | hrest
    · exact Nat.le_of_eq (element_of_mem_startedIn hfirst).symm
    · exact Nat.le_trans (nextElement_le_after draft request) (ih hrest)

/-- A start tag that calls lead to: the name of an element and the attributes that they set. -/
def tagOf (calls : List SinkCall) (frame : Frame) : String × List (String × String) :=
  (frame.name, attributesOf frame.element calls)

/-- The start tags of what calls give the open elements, the innermost first. -/
def newTags (calls : List SinkCall) (numbers : List Nat) : List (String × List (String × String)) :=
  numbers.flatMap fun element => startTagsAll (contentOf element calls)

/-- The new tags in a row of elements are those in the first and those in the rest. -/
theorem newTags_cons (calls : List SinkCall) (element : Nat) (numbers : List Nat) :
    newTags calls (element :: numbers) =
      startTagsAll (contentOf element calls) ++ newTags calls numbers :=
  rfl

/-- Calls that do not concern elements bring no new tags into them. -/
theorem newTags_append {calls : List SinkCall} {numbers : List Nat}
    (h : ∀ element ∈ numbers, ∀ call ∈ calls, ¬ call.Concerns element) (rest : List SinkCall) :
    newTags (calls ++ rest) numbers = newTags rest numbers :=
  List.flatMap_congr fun element helement => by
    rw [contentOf_append_of_not_concerns (h element helement)]

/-- The calls that are remembered of a request give start tags to the innermost open element only. -/
theorem newTags_logged_append {request : SinkRequest} (hallows : draft.Allows request)
    (hnumbered : draft.Numbered) {element : Nat} {outer : List Nat}
    (hnumbers : draft.numbers = element :: outer) (rest : List SinkCall) :
    newTags (draft.logged request ++ rest) draft.numbers =
      startTagsAll (contentOf element (draft.logged request ++ rest)) ++ newTags rest outer := by
  rw [hnumbers, newTags_cons, newTags_append (not_concerns_outer hallows hnumbered hnumbers)]

/-- A request adds the start tag of the element that it starts. -/
theorem newTags_after {request : SinkRequest} (hallows : draft.Allows request)
    (hnumbered : draft.Numbered) {rest : List SinkCall}
    (hrest : ∀ element, request = .ended element → ∀ call ∈ rest, ¬ call.Concerns element) :
    newTags (draft.logged request ++ rest) draft.numbers =
      (startedIn (draft.logged request)).map (tagOf rest) ++
        newTags rest (draft.after request).numbers := by
  rw [numbers_after]
  cases request with
  | start parent name =>
    obtain ⟨outer, hnumbers⟩ := hallows.1.numbers_eq
    rw [newTags_logged_append hallows hnumbered hnumbers]
    simp [hnumbers, newTags_cons, logged, contentOf, startTagsAll, Markup.startTags, tagOf,
      startedIn]
  | attr target name value =>
    obtain ⟨outer, hnumbers⟩ := hallows.1.numbers_eq
    rw [newTags_logged_append hallows hnumbered hnumbers]
    simp [hnumbers, newTags_cons, logged, contentOf, startedIn]
  | text target body =>
    obtain ⟨outer, hnumbers⟩ := hallows.1.numbers_eq
    rw [newTags_logged_append hallows hnumbered hnumbers]
    by_cases hempty : body = ""
    · simp [hnumbers, newTags_cons, logged, ofText, hempty, startedIn]
    · simp [hnumbers, newTags_cons, logged, ofText, hempty, contentOf, startTagsAll,
        Markup.startTags, startedIn]
  | ended target =>
    obtain ⟨outer, hnumbers⟩ := IsInnermost.numbers_eq (show draft.IsInnermost target from hallows)
    have hnothing := contentOf_of_not_concerns (hrest target rfl)
    rw [newTags_logged_append hallows hnumbered hnumbers]
    simp [hnumbers, logged, contentOf, hnothing, startTagsAll, startedIn]
  | finish =>
    have hopened : draft.opened = [] := hallows
    have hnumbers : draft.numbers = [] := by rw [numbers, hopened, List.map_nil]
    simp [newTags, hnumbers, logged, startedIn]

/-- The start tags of what requests add to a draft are those of the elements that they start, in
order. -/
theorem newTags_logAll (hallows : draft.AllowsAll requests) (hnumbered : draft.Numbered) :
    newTags (draft.logAll requests) draft.numbers =
      (startedIn (draft.logAll requests)).map (tagOf (draft.logAll requests)) := by
  induction requests generalizing draft with
  | nil => simp [logAll, newTags, contentOf, startTagsAll, startedIn]
  | cons request rest ih =>
    have hrest : ∀ element, request = .ended element →
        ∀ call ∈ (draft.after request).logAll rest, ¬ call.Concerns element := by
      rintro element rfl
      exact (closed_of_ended hallows hnumbered).2
    -- what is remembered of the request does not concern the elements that are started from here on
    have htags : ∀ frame ∈ startedIn (draft.logAll (request :: rest)),
        tagOf (draft.logAll (request :: rest)) frame =
          tagOf ((draft.after request).logAll rest) frame := by
      intro frame hframe
      have hle := nextElement_le_of_mem_startedIn hframe
      exact congrArg (Prod.mk frame.name) (attributesOf_append_of_not_concerns
        (not_concerns_of_le hallows.1 hnumbered hle) _)
    rw [List.map_congr_left htags, logAll, newTags_after hallows.1 hnumbered hrest,
      ih hallows.2 (hnumbered.after request), startedIn_append, List.map_append]

end Draft

/-- The start tags of a tree that requests to a new document lead to. -/
theorem SinkCall.startTags_treeOf {root : String} {requests : List SinkRequest}
    (hallows : (Draft.new root).AllowsAll requests) :
    let calls := (Draft.new root).logAll requests
    (treeOf root calls).startTags =
      (root, attributesOf 0 calls) :: (startedIn calls).map (Draft.tagOf calls) := by
  intro calls
  have hnew : Draft.newTags calls [0] = (startedIn calls).map (Draft.tagOf calls) :=
    Draft.newTags_logAll hallows (Draft.numbered_new root)
  rw [Draft.newTags, List.flatMap_singleton] at hnew
  rw [treeOf, Markup.startTags, hnew]

/-- The tree that requests to a new document lead to can be written. -/
theorem SinkCall.writable_treeOf {root : String} (hroot : Name.isValid root = true)
    {requests : List SinkRequest} (hallows : (Draft.new root).AllowsAll requests) :
    (treeOf root ((Draft.new root).logAll requests)).Writable := by
  obtain ⟨attrs, content, hsealed, hwritable⟩ :=
    ((Draft.sound_new hroot).afterAll hallows).sealed_eq
  rw [Draft.sealed_afterAll_new hallows] at hsealed
  exact List.singleton_inj.1 hsealed ▸ hwritable

namespace XmlStream

variable {ω : Type} [Output ω]

/-- A stream with a valid root can be made on an output that takes everything.  Whatever requests are
made to it, if it can be finished then, its text is read as one element with nothing around it.  The
start tags that are read are those of the root and of the started elements, in the order of their
starts, each with the attributes that were granted to its element, in order: two of them have the
same name only if the name was granted to the element more than once. -/
theorem reading_of_finished (reliable : Output.Reliable ω) {output : ω}
    (hholds : reliable.holds output) {root : String} (hroot : Name.isValid root = true)
    (declared : Bool) :
    ∃ stream, create output root declared = (.ok stream, stream.output) ∧
      ∀ requests,
        let streamed := performAll requests stream
        let finished := finish.run streamed.2
        let calls := (performAll (grantedIn requests streamed.1) (Recorder.new root)).2.calls
        finished.1 = .ok () →
          ∃ text tree, reliable.taken finished.2.output = reliable.taken output ++ text.toUTF8 ∧
            Markup.read? text = some tree ∧ tree = (treeOf root calls).joined ∧
              tree.startTags = (root, attributesOf 0 calls) ::
                (startedIn calls).map fun frame => (frame.name, attributesOf frame.element calls) := by
  obtain ⟨stream, hcreate, hshows⟩ := Document.create_ok hholds hroot declared
  refine ⟨stream, hcreate, fun requests => ?_⟩
  intro streamed finished calls hfinished
  obtain ⟨hallows, hleft, -⟩ := performAll_shows hshows requests
  have hcalls : calls = (Draft.new root).logAll (grantedIn requests streamed.1) :=
    Recorder.calls_performAll_new hallows
  -- a stream with an open element cannot be finished
  have hopened : ((Draft.new root).afterAll (grantedIn requests streamed.1)).opened = [] := by
    by_cases hopened : ((Draft.new root).afterAll (grantedIn requests streamed.1)).opened = []
    · exact hopened
    · obtain ⟨error, -, hrun⟩ := finish_refused hleft hopened
      have hfails : finished.1 = .error error := congrArg Prod.fst hrun
      rw [hfails] at hfinished
      cases hfinished
  obtain ⟨after, hrun, -, -, htaken⟩ := finish_ok reliable _ hleft hopened
  refine ⟨Reference.prologue declared ++ (treeOf root calls).render, (treeOf root calls).joined,
    ?_, ?_, rfl, ?_⟩
  · have hfinish : finished = (.ok (), { streamed.2 with output := after }) := hrun
    rw [hfinish, htaken, Draft.text_afterAll_new hallows hopened, ByteArray.append_assoc,
      ← Text.toUTF8_append, ← hcalls]
  · rw [hcalls]
    exact Markup.read?_render_of_writable (SinkCall.writable_treeOf hroot hallows) declared
  · rw [Markup.startTags_joined, hcalls]
    exact SinkCall.startTags_treeOf hallows

/-- Two texts in a row are read as one, with the characters that they consist of. -/
theorem reading_of_finished_small :
    Memory.reliable.holds Memory.unlimited ∧ Name.isValid "r" = true ∧
      create Memory.unlimited "r" false = (.ok (start Memory.unlimited "r"), Memory.unlimited) ∧
        ∃ text,
          (finish.run (performAll [.start 0 "a", .attr 1 "b" "\"", .text 1 "<", .text 1 "&",
            .ended 1, .ended 0] (start Memory.unlimited "r")).2).2.output.bytes = text.toUTF8 ∧
          Markup.read? text =
            some (.element "r" [] [.element "a" [("b", "\"")] [.text "<&"]]) := by
  have hholds : Memory.reliable.holds Memory.unlimited := ⟨rfl, rfl⟩
  have hroot : Name.isValid "r" = true := by decide
  obtain ⟨stream, hcreate, hrequests⟩ := reading_of_finished Memory.reliable hholds hroot false
  obtain rfl : start Memory.unlimited "r" = stream := Except.ok.inj (congrArg Prod.fst hcreate)
  refine ⟨hholds, hroot, hcreate, ?_⟩
  obtain ⟨text, tree, htaken, hread, htree, -⟩ := hrequests
    [.start 0 "a", .attr 1 "b" "\"", .text 1 "<", .text 1 "&", .ended 1, .ended 0] (by rfl)
  have hempty : Memory.reliable.taken Memory.unlimited = .empty := rfl
  rw [hempty, ByteArray.empty_append] at htaken
  refine ⟨text, htaken, ?_⟩
  rw [hread, htree]
  rfl

/-- Not every stream that could be finished has start tags without a repeated name: an attribute that
is set twice is written twice. -/
theorem not_nodup_attributes :
    ¬ ∀ (root : String) (requests : List SinkRequest) (text : String) (tree : Markup),
      Name.isValid root = true →
        (finish.run (performAll requests (start Memory.unlimited root)).2).1 = .ok () →
          (finish.run (performAll requests (start Memory.unlimited root)).2).2.output.bytes =
            text.toUTF8 →
            Markup.read? text = some tree →
              ∀ tag ∈ tree.startTags, (tag.2.map Prod.fst).Nodup := by
  intro hall
  let tree : Markup := .element "root" [("a", "1"), ("a", "2")] []
  have hname : Name.isValid "a" = true := by decide
  have hone : CharacterData.Carries "1" := (CharacterData.check_eq_ok_iff "a" "1").1 (by rfl)
  have htwo : CharacterData.Carries "2" := (CharacterData.check_eq_ok_iff "a" "2").1 (by rfl)
  have hreadable : tree.Readable := by
    refine ⟨by decide, ?_, trivial⟩
    simp [Markup.ReadableAttributes, hname, hone, htwo]
  have hread : Markup.read? (Reference.prologue false ++ tree.render) = some tree :=
    Markup.read?_render hreadable false
  have htag : ("root", [("a", "1"), ("a", "2")]) ∈ tree.startTags := by
    simp [tree, Markup.startTags, Markup.startTagsAll]
  have hnodup := hall "root" [.attr 0 "a" "1", .attr 0 "a" "2", .ended 0] _ tree (by decide) (by rfl)
    (by decide) hread _ htag
  exact absurd hnodup (by decide)

end XmlStream

end XmlWorkload
