import XmlWorkload.Proofs.Sink.Agreement

/-!
# Refused requests leave no trace

Which requests a stream refuses can be told from the calls that it has taken: those on another
element than the innermost open one, with a text that is no name, with a character that XML does not
have, an attribute behind content, and the finish of a document that is open.  Main statement: a
request is refused exactly then, and changes nothing; so a row of requests without the refused ones
gives the same results and leaves the same stream (`XmlStream.refusals_leave_no_trace`).
-/

set_option autoImplicit false

namespace XmlWorkload

namespace CharacterData

/-- The ranges of the characters of XML 1.0. -/
def xmlRanges : List (Nat × Nat) :=
  [(0x9, 0x9), (0xA, 0xA), (0xD, 0xD), (0x20, 0xD7FF), (0xE000, 0xFFFD), (0x10000, 0x10FFFF)]

/-- Whether XML 1.0 has every character of a text. -/
def IsXmlText (text : String) : Prop :=
  ∀ c ∈ text.toList, Text.inRanges xmlRanges c.toNat = true

/-- The allowed characters are those of the ranges for texts. -/
theorem isAllowed_eq_inRanges (c : Char) : isAllowed c = Text.inRanges xmlRanges c.toNat := by
  have hvalid : c.toNat.isValidChar := c.valid
  unfold Nat.isValidChar at hvalid
  rw [Bool.eq_iff_iff, Text.inRanges_iff]
  simp only [isAllowed, xmlRanges, Bool.or_eq_true, Bool.and_eq_true, beq_iff_eq, decide_eq_true_eq,
    List.mem_cons, List.not_mem_nil, or_false, exists_eq_or_imp, exists_eq_left]
  omega

/-- A text can be carried exactly when all its characters are in the ranges for texts. -/
theorem carries_iff_isXmlText (text : String) : Carries text ↔ IsXmlText text := by
  simp only [Carries, IsXmlText, isAllowed_eq_inRanges]

end CharacterData

namespace SinkCall

/-- The elements that are open after calls on a document with a root of the given name, the outermost
first. -/
def openElements (root : String) (calls : List SinkCall) : List Frame :=
  calls.foldl effect [⟨0, root⟩]

/-- Whether an element is the innermost open one after calls. -/
def Innermost (root : String) (calls : List SinkCall) (element : Nat) : Prop :=
  ∃ frame, (openElements root calls).getLast? = some frame ∧ frame.element = element

/-- What is open after more calls is what these make of what was open before. -/
theorem openElements_append (root : String) (calls more : List SinkCall) :
    openElements root (calls ++ more) = more.foldl effect (openElements root calls) :=
  List.foldl_append

end SinkCall

open SinkCall (openElements Innermost)

/-- Whether a stream refuses a request after the calls that it has taken. -/
def SinkRequest.Refused (root : String) (calls : List SinkCall) : SinkRequest → Prop
  | .start parent name => ¬ Innermost root calls parent ∨ Name.validate name ≠ .ok ()
  | .attr element name value =>
    ¬ Innermost root calls element ∨ Name.validate name ≠ .ok () ∨
      ¬ CharacterData.IsXmlText value ∨ ∃ call ∈ calls, call.Fills element
  | .text element body => ¬ Innermost root calls element ∨ ¬ CharacterData.IsXmlText body
  | .ended element => ¬ Innermost root calls element
  | .finish => openElements root calls ≠ []

namespace Draft

open SinkCall

variable {root : String} {calls : List SinkCall} {draft : Draft} {request : SinkRequest}

/-- A draft is what calls have left: its open elements are those of the calls, the innermost one is
empty exactly if no call fills it, the others hold it, and no call fills an element to come. -/
structure LeftBy (root : String) (calls : List SinkCall) (draft : Draft) : Prop where
  frames : draft.frames = openElements root calls
  top : ∀ top outer, draft.opened = top :: outer →
    (top.content = [] ↔ ∀ call ∈ calls, ¬ call.Fills top.element)
  outer : ∀ node ∈ draft.opened.tail, ∃ call ∈ calls, call.Fills node.element
  fresh : ∀ call ∈ calls, ∀ element, call.Fills element → element < draft.nextElement

/-- A new draft is left by no calls. -/
theorem leftBy_new (root : String) : LeftBy root [] (new root) where
  frames := rfl
  top := by
    intro top outer hopened
    obtain ⟨rfl, -⟩ := List.cons_eq_cons.1 hopened
    simp
  outer := by simp [new]
  fresh := by simp

namespace LeftBy

/-- An element is innermost in a draft exactly when it is after the calls that left it. -/
theorem isInnermost_iff (h : LeftBy root calls draft) (element : Nat) :
    draft.IsInnermost element ↔ Innermost root calls element := by
  have hlast : (openElements root calls).getLast? = draft.opened.head?.map Unfinished.frame := by
    rw [← h.frames, Draft.frames, List.map_reverse, List.getLast?_reverse, List.head?_map]
  unfold IsInnermost Innermost
  rw [hlast]
  cases hopened : draft.opened with
  | nil => simp
  | cons top outer => simp [Unfinished.frame]

/-- What a draft allows is what is not refused after the calls that left it. -/
theorem allows_iff (h : LeftBy root calls draft) (request : SinkRequest) :
    draft.Allows request ↔ ¬ request.Refused root calls := by
  cases request with
  | start parent name =>
    simp only [Allows, SinkRequest.Refused, h.isInnermost_iff, ne_eq, Name.validate_eq_ok_iff, not_or,
      not_not]
  | attr element name value =>
    have hheld : draft.IsInnermost element →
        (draft.heldTag ≠ none ↔ ¬ ∃ call ∈ calls, call.Fills element) := by
      rintro ⟨top, outer, hopened, rfl⟩
      rw [heldTag_ne_none_iff hopened, h.top top outer hopened]
      simp only [not_exists, not_and]
    simp only [Allows, SinkRequest.Refused, ne_eq, Name.validate_eq_ok_iff, not_or, not_not,
      ← h.isInnermost_iff, ← CharacterData.carries_iff_isXmlText]
    exact and_congr_right fun hinnermost => by rw [← hheld hinnermost]
  | text element body =>
    simp only [Allows, SinkRequest.Refused, h.isInnermost_iff, not_or, not_not,
      CharacterData.carries_iff_isXmlText]
  | ended element => simp only [Allows, SinkRequest.Refused, h.isInnermost_iff, not_not]
  | finish =>
    have hframes : openElements root calls = [] ↔ draft.opened = [] := by
      rw [← h.frames, Draft.frames, List.map_eq_nil_iff, List.reverse_eq_nil_iff]
    simp only [Allows, SinkRequest.Refused, ne_eq, not_not, hframes]

section Step

variable (h : LeftBy root calls draft) (hnumbered : draft.Numbered) (hallows : draft.Allows request)

include h hallows

/-- Outer elements have been filled by a call. -/
theorem outer_after : ∀ node ∈ (draft.after request).opened.tail,
    ∃ call ∈ calls ++ draft.logged request, call.Fills node.element := by
  have hkept : ∀ node ∈ draft.opened.tail,
      ∃ call ∈ calls ++ draft.logged request, call.Fills node.element := by
    intro node hnode
    obtain ⟨call, hcall, hfills⟩ := h.outer node hnode
    exact ⟨call, List.mem_append_left _ hcall, hfills⟩
  intro node hnode
  cases request with
  | start parent name =>
    obtain ⟨⟨inner, others, hinner, rfl⟩, -⟩ := hallows
    rw [Draft.after, start, List.tail_cons, hinner] at hnode
    rcases List.mem_cons.1 hnode with rfl | hnode
    · exact ⟨_, List.mem_append_right _ List.mem_cons_self, rfl⟩
    · exact hkept node (by rwa [hinner])
  | attr element name value =>
    obtain ⟨⟨inner, others, hinner, rfl⟩, -⟩ := hallows
    exact hkept node (by simpa [Draft.after, setAttributes, hinner] using hnode)
  | text element body =>
    obtain ⟨⟨inner, others, hinner, rfl⟩, -⟩ := hallows
    exact hkept node (by simpa [Draft.after, append, hinner] using hnode)
  | ended element =>
    obtain ⟨inner, others, hinner, rfl⟩ := id hallows
    refine hkept node ?_
    cases others with
    | nil => simp [Draft.after, finishTop, append, hinner] at hnode
    | cons second rest =>
      have hrest : node ∈ rest := by simpa [Draft.after, finishTop, append, hinner] using hnode
      simp [hinner, hrest]
  | finish => exact hkept node hnode

include hnumbered

/-- Calls fill elements only that have a number below the next one. -/
theorem fresh_after : ∀ call ∈ calls ++ draft.logged request, ∀ element, call.Fills element →
    element < (draft.after request).nextElement := by
  intro call hcall element hfills
  refine Nat.lt_of_lt_of_le ?_ (nextElement_le_after draft request)
  rcases List.mem_append.1 hcall with hcall | hcall
  · exact h.fresh call hcall element hfills
  · obtain ⟨outer, houter⟩ :=
      (isInnermost_of_concerns hallows hcall (concerns_of_fills hfills)).numbers_eq
    exact hnumbered.below element (by rw [houter]; exact List.mem_cons_self)

/-- The element at the top has no content exactly when no call has filled it. -/
theorem top_after : ∀ top outer, (draft.after request).opened = top :: outer →
    (top.content = [] ↔ ∀ call ∈ calls ++ draft.logged request, ¬ call.Fills top.element) := by
  intro top outer hopened
  cases request with
  | start parent name =>
    obtain ⟨rfl, -⟩ := List.cons_eq_cons.1 hopened
    obtain ⟨others, hnumbers⟩ := hallows.1.numbers_eq
    have hparent := hnumbered.below parent (by rw [hnumbers]; exact List.mem_cons_self)
    refine iff_of_true rfl fun call hcall hfills => ?_
    rcases List.mem_append.1 hcall with hcall | hcall
    · exact Nat.lt_irrefl _ (h.fresh call hcall _ hfills)
    · obtain rfl := List.mem_singleton.1 hcall
      exact Nat.ne_of_lt hparent hfills
  | attr element name value =>
    obtain ⟨⟨inner, others, hinner, rfl⟩, -⟩ := hallows
    simp only [Draft.after, setAttributes, hinner] at hopened
    obtain ⟨rfl, -⟩ := List.cons_eq_cons.1 hopened
    have hattr : ∀ call ∈ [SinkCall.attr inner.element name value],
        ¬ call.Fills inner.element := List.forall_mem_singleton.2 not_false
    rw [logged, List.forall_mem_append, ← h.top inner others hinner]
    exact (and_iff_left hattr).symm
  | text element body =>
    obtain ⟨⟨inner, others, hinner, rfl⟩, -⟩ := hallows
    simp only [Draft.after, append, hinner] at hopened
    obtain ⟨rfl, -⟩ := List.cons_eq_cons.1 hopened
    by_cases hbody : body = ""
    · simpa [Markup.ofText, logged, ofText, hbody] using h.top inner others hinner
    · simp [Markup.ofText, logged, ofText, hbody, Fills]
  | ended element =>
    obtain ⟨inner, others, hinner, rfl⟩ := hallows
    cases others with
    | nil => simp [Draft.after, finishTop, append, hinner] at hopened
    | cons second rest =>
      -- what is closed becomes content of the element around it, which holds its start
      simp only [Draft.after, finishTop, append, hinner] at hopened
      obtain ⟨rfl, -⟩ := List.cons_eq_cons.1 hopened
      obtain ⟨call, hcall, hfills⟩ := h.outer second (by simp [hinner])
      refine iff_of_false (by simp) fun hnone => ?_
      exact hnone call (List.mem_append_left _ hcall) hfills
  | finish =>
    have hclosed : draft.opened = [] := hallows
    rw [Draft.after, hclosed] at hopened
    cases hopened

end Step

/-- The frames after a request are what its calls make of those before. -/
theorem frames_after (hnumbered : draft.Numbered) (hallows : draft.Allows request) :
    (draft.after request).frames = (draft.logged request).foldl effect draft.frames := by
  cases request with
  | start parent name => simp [Draft.after, start, Draft.frames, logged, effect, Unfinished.frame]
  | attr element name value => simp [Draft.after, logged, effect]
  | text element body => rw [logged, foldl_effect_ofText, Draft.after, frames_append]
  | ended element =>
    obtain ⟨inner, others, hinner, rfl⟩ := id hallows
    have hnodup := hnumbered.nodup
    rw [numbers, hinner, List.map_cons, List.nodup_cons] at hnodup
    have hothers : ∀ frame ∈ others.reverse.map Unfinished.frame,
        (frame.element != inner.element) = true := by
      intro frame hframe
      obtain ⟨node, hnode, rfl⟩ := List.mem_map.1 hframe
      refine bne_iff_ne.2 fun heq => hnodup.1 ?_
      exact List.mem_map.2 ⟨node, List.mem_reverse.1 hnode, heq⟩
    have hfinished : (draft.after (.ended inner.element)).frames =
        others.reverse.map Unfinished.frame := by
      rw [Draft.after, finishTop, hinner, frames_append]
      rfl
    rw [hfinished, logged, List.foldl_cons, List.foldl_nil, effect, Draft.frames, hinner,
      List.reverse_cons, List.map_append, List.filter_append, List.filter_eq_self.2 hothers]
    simp [Unfinished.frame]
  | finish => rfl

/-- A request that a draft allows leaves the draft to the calls that are remembered of it. -/
theorem after (h : LeftBy root calls draft) (hnumbered : draft.Numbered)
    (hallows : draft.Allows request) :
    LeftBy root (calls ++ draft.logged request) (draft.after request) where
  frames := by rw [frames_after hnumbered hallows, h.frames, openElements_append]
  top := h.top_after hnumbered hallows
  outer := h.outer_after hallows
  fresh := h.fresh_after hnumbered hallows

/-- A draft is left by the calls of all requests that were allowed. -/
theorem afterAll {requests : List SinkRequest} (h : LeftBy root calls draft)
    (hnumbered : draft.Numbered) (hallows : draft.AllowsAll requests) :
    LeftBy root (calls ++ draft.logAll requests) (draft.afterAll requests) := by
  induction requests generalizing calls draft with
  | nil => rwa [logAll, List.append_nil]
  | cons request rest ih =>
    have hrest := ih (h.after hnumbered hallows.1) (hnumbered.after request) hallows.2
    rwa [List.append_assoc] at hrest

end LeftBy

end Draft

namespace XmlStream

open SinkRequest

variable {ω : Type} [Output ω] {reliable : Output.Reliable ω} {front : ByteArray} {draft : Draft}
  {stream : XmlStream ω}

/-- Without the requests that were refused, the others give what they gave, and leave the same
stream. -/
theorem performAll_grantedIn (h : Shows reliable front draft stream)
    (requests : List SinkRequest) :
    let outcome := performAll requests stream
    performAll (grantedIn requests outcome.1) stream =
      (outcome.1.filter Except.isOk, outcome.2) := by
  induction requests generalizing draft stream with
  | nil => rfl
  | cons request rest ih =>
    by_cases hallows : draft.Allows request
    · obtain ⟨left, hrun, hleft⟩ := perform_of_allows h hallows
      have hrest := ih hleft
      simp only [performAll, hrun, grantedIn, Except.isOk, Except.toBool, if_true] at hrest ⊢
      rw [hrest]
      rfl
    · obtain ⟨error, -, hrun⟩ := perform_of_not_allows h hallows
      simp only [performAll, hrun, grantedIn, Except.isOk, Except.toBool]
      exact ih h

/-- A stream with a valid root can be made on an output that takes everything.  Whatever requests are
made to it: the granted ones alone give the same results, element numbers among them, and leave the
same output, open elements, start tag held back and next number.  A further request fails exactly if
it is refused after the calls that were taken; its error says so then, and the stream stays as it
is. -/
theorem refusals_leave_no_trace (reliable : Output.Reliable ω) {output : ω}
    (hholds : reliable.holds output) {root : String} (hroot : Name.isValid root = true)
    (declared : Bool) :
    ∃ stream, create output root declared = (.ok stream, stream.output) ∧
      ∀ requests,
        let streamed := performAll requests stream
        let granted := grantedIn requests streamed.1
        let calls := (performAll granted (Recorder.new root)).2.calls
        performAll granted stream = (streamed.1.filter Except.isOk, streamed.2) ∧
          ∀ request : SinkRequest,
            let outcome := request.perform.run streamed.2
            (outcome.1.isOk = false ↔ request.Refused root calls) ∧
              ∀ error, outcome.1 = .error error → error.IsRefusal ∧ outcome.2 = streamed.2 := by
  obtain ⟨stream, hcreate, hshows⟩ := Document.create_ok hholds hroot declared
  refine ⟨stream, hcreate, fun requests => ⟨performAll_grantedIn hshows requests, ?_⟩⟩
  intro request outcome
  obtain ⟨hallowed, hleft, -⟩ := performAll_shows hshows requests
  have hleftBy := (Draft.leftBy_new root).afterAll (Draft.numbered_new root) hallowed
  rw [List.nil_append, ← Recorder.calls_performAll_new hallowed] at hleftBy
  have hallows := hleftBy.allows_iff request
  by_cases hrefused : request.Refused root
      (performAll (grantedIn requests (performAll requests stream).1) (Recorder.new root)).2.calls
  · obtain ⟨error, hrefusal, hrun⟩ := perform_of_not_allows hleft fun h => hallows.1 h hrefused
    have houtcome : outcome = (.error error, (performAll requests stream).2) := hrun
    rw [houtcome]
    refine ⟨iff_of_true rfl hrefused, fun other hother => ?_⟩
    obtain rfl := Except.error.inj hother
    exact ⟨hrefusal, rfl⟩
  · obtain ⟨left, hrun, -⟩ := perform_of_allows hleft (hallows.2 hrefused)
    have houtcome : outcome = (.ok _, left) := hrun
    rw [houtcome]
    exact ⟨iff_of_false Bool.noConfusion hrefused, fun other hother => nomatch hother⟩

/-- A control character and an attribute on the outer element are refused and leave no trace; nor does
an attribute behind the text of its element. -/
theorem refusals_leave_no_trace_small :
    Memory.reliable.holds Memory.unlimited ∧ Name.isValid "r" = true ∧
      create Memory.unlimited "r" false = (.ok (start Memory.unlimited "r"), Memory.unlimited) ∧
        let streamed := performAll [.start 0 "a", .text 1 "\x01", .attr 0 "b" "c", .text 1 "d"]
          (start Memory.unlimited "r")
        performAll [.start 0 "a", .text 1 "d"] (start Memory.unlimited "r") =
            ([.ok (some 1), .ok none], streamed.2) ∧
          (SinkRequest.perform (.attr 1 "b" "c")).run streamed.2 =
            (.error (.outOfOrder (.attributeAfterContent "b" "a")), streamed.2) := by
  have hholds : Memory.reliable.holds Memory.unlimited := ⟨rfl, rfl⟩
  have hroot : Name.isValid "r" = true := by decide
  obtain ⟨stream, hcreate, hrequests⟩ :=
    refusals_leave_no_trace Memory.reliable hholds hroot false
  obtain rfl : start Memory.unlimited "r" = stream := Except.ok.inj (congrArg Prod.fst hcreate)
  refine ⟨hholds, hroot, hcreate, ?_⟩
  obtain ⟨hsame, hrefused⟩ :=
    hrequests [.start 0 "a", .text 1 "\x01", .attr 0 "b" "c", .text 1 "d"]
  have herror : ((SinkRequest.perform (.attr 1 "b" "c")).run (performAll
      [.start 0 "a", .text 1 "\x01", .attr 0 "b" "c", .text 1 "d"]
      (start Memory.unlimited "r")).2).1 =
      .error (.outOfOrder (.attributeAfterContent "b" "a")) := by rfl
  exact ⟨hsame, Prod.ext herror ((hrefused (.attr 1 "b" "c")).2 _ herror).2⟩

end XmlStream

end XmlWorkload
