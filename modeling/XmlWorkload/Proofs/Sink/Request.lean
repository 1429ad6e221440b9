import XmlWorkload.Proofs.Sink.Writing

/-!
# Requests to a sink

The operations of a sink as data, so that rows of them can be spoken of.  A draft tells which
requests a stream on a reliable output grants, what they give and what becomes of the draft; whatever
it refuses leaves the stream as it is.  Main statement: after any row of requests a stream shows the
draft that the granted ones lead to (`XmlStream.performAll_shows`).
-/

set_option autoImplicit false

namespace XmlWorkload

/-- Whether an error says that a request was refused: it was out of order, or one of its names or
texts cannot stand in a document. -/
def Error.IsRefusal : Error → Prop
  | .outOfOrder _ | .invalidName _ | .invalidContent _ _ => True
  | _ => False

/-- A text is refused for its characters only. -/
theorem CharacterData.isRefusal_of_check {field text : String} {error : Error}
    (h : check field text = .error error) : error.IsRefusal := by
  unfold check at h
  split at h
  · cases h
    trivial
  · cases h

/-- A request to a sink. -/
inductive SinkRequest where
  | start (parent : Nat) (name : String)
  | attr (element : Nat) (name value : String)
  | text (element : Nat) (body : String)
  | ended (element : Nat)
  | finish
  deriving DecidableEq, Repr

namespace SinkRequest

variable {σ : Type} [Sink σ]

/-- Makes a request.  A start gives the number of the new element. -/
def perform : SinkRequest → Action σ (Option Nat)
  | .start parent name => do
    let element ← Sink.startElement parent name
    pure (some element)
  | .attr element name value => do
    Sink.setAttribute element name value
    pure none
  | .text element body => do
    Sink.writeText element body
    pure none
  | .ended element => do
    Sink.endElement element
    pure none
  | .finish => do
    Sink.finish
    pure none

/-- Requests one after the other, whatever becomes of each, with their results. -/
def performAll : List SinkRequest → σ → List (Except Error (Option Nat)) × σ
  | [], sink => ([], sink)
  | request :: rest, sink =>
    let first := request.perform.run sink
    let others := performAll rest first.2
    (first.1 :: others.1, others.2)

/-- The requests that were granted, given the results of all of them. -/
def grantedIn : List SinkRequest → List (Except Error (Option Nat)) → List SinkRequest
  | request :: requests, result :: results =>
    if result.isOk then request :: grantedIn requests results else grantedIn requests results
  | _, _ => []

end SinkRequest

namespace Draft

open CharacterData (Carries)

/-- Whether the innermost open element has a number. -/
def IsInnermost (element : Nat) (draft : Draft) : Prop :=
  ∃ top outer, draft.opened = top :: outer ∧ top.element = element

/-- Whether a draft allows a request: it has to concern the innermost open element, names have to be
names, texts to be carried, and attributes to come before content. -/
def Allows (draft : Draft) : SinkRequest → Prop
  | .start parent name => draft.IsInnermost parent ∧ Name.isValid name = true
  | .attr element name value =>
    draft.IsInnermost element ∧ Name.isValid name = true ∧ Carries value ∧ draft.heldTag ≠ none
  | .text element body => draft.IsInnermost element ∧ Carries body
  | .ended element => draft.IsInnermost element
  | .finish => draft.opened = []

/-- What a draft gives for a request that it allows. -/
def answer (draft : Draft) : SinkRequest → Option Nat
  | .start _ _ => some draft.nextElement
  | _ => none

/-- The draft after a request that it allows. -/
def after (draft : Draft) : SinkRequest → Draft
  | .start _ name => draft.start name
  | .attr _ name value => draft.setAttributes [(name, value)]
  | .text _ body => draft.append (Markup.ofText body)
  | .ended _ => draft.finishTop
  | .finish => draft

/-- Whether a draft allows requests one after the other. -/
def AllowsAll : List SinkRequest → Draft → Prop
  | [], _ => True
  | request :: rest, draft => draft.Allows request ∧ AllowsAll rest (draft.after request)

/-- What a draft gives for requests one after the other. -/
def answers : List SinkRequest → Draft → List (Option Nat)
  | [], _ => []
  | request :: rest, draft => draft.answer request :: answers rest (draft.after request)

/-- The draft after requests one after the other. -/
def afterAll : List SinkRequest → Draft → Draft
  | [], draft => draft
  | request :: rest, draft => afterAll rest (draft.after request)

/-- A start tag is held back as long as the innermost open element has no content. -/
theorem heldTag_ne_none_iff {draft : Draft} {top : Unfinished} {outer : List Unfinished}
    (hopened : draft.opened = top :: outer) : draft.heldTag ≠ none ↔ top.content = [] := by
  simp [heldTag, hopened]

end Draft

namespace XmlStream

open SinkRequest (perform performAll grantedIn)

variable {ω : Type} [Output ω] {reliable : Output.Reliable ω} {front : ByteArray} {draft : Draft}
  {stream : XmlStream ω}

/-- An action on an element that is not innermost is refused. -/
theorem innermostFrame_error (h : Shows reliable front draft stream) {element : Nat}
    (hinnermost : ¬ draft.IsInnermost element) (action : SinkAction) :
    ∃ error, error.IsRefusal ∧ stream.innermostFrame action element = .error error := by
  unfold innermostFrame
  rw [h.frames]
  cases hopened : draft.opened with
  | nil => exact ⟨.outOfOrder _, trivial, rfl⟩
  | cons top outer =>
    have hother : top.element ≠ element := fun heq => hinnermost ⟨top, outer, hopened, heq⟩
    exact ⟨.outOfOrder _, trivial, if_neg hother⟩

/-- What an action on a stream that puts down valid names does to the draft. -/
theorem run_of_writes {α : Type} {names : List String} {action : Action (XmlStream ω) α}
    {value : α} {after : Draft}
    (hwrites : Action.Writes (Shows reliable front) (Safe reliable) names action draft value after)
    (hnames : Name.firstInvalid? names = none) (h : Shows reliable front draft stream) :
    ∃ left, action.run stream = (.ok value, left) ∧ Shows reliable front after left := by
  have hrun := hwrites stream h
  rwa [hnames] at hrun

/-- What a draft allows is granted, and its stream shows the draft that comes after it. -/
theorem perform_of_allows (h : Shows reliable front draft stream) {request : SinkRequest}
    (hallows : draft.Allows request) :
    ∃ left, request.perform.run stream = (.ok (draft.answer request), left) ∧
      Shows reliable front (draft.after request) left := by
  have hvalid : ∀ {name : String}, Name.isValid name = true → Name.firstInvalid? [name] = none := by
    intro name hname
    simp [Name.firstInvalid?, hname]
  cases request with
  | start parent name =>
    obtain ⟨⟨top, outer, hopened, rfl⟩, hname⟩ := hallows
    obtain ⟨left, hrun, hleft⟩ :=
      run_of_writes (startElement_writes reliable front hopened name) (hvalid hname) h
    exact ⟨left, Action.run_bind_of_ok hrun _, hleft⟩
  | attr element name value =>
    obtain ⟨⟨top, outer, hopened, rfl⟩, hname, hvalue, hheld⟩ := hallows
    have hcontent := (Draft.heldTag_ne_none_iff hopened).1 hheld
    obtain ⟨left, hrun, hleft⟩ := run_of_writes
      (setAttribute_writes reliable front hopened hcontent name hvalue) (hvalid hname) h
    exact ⟨left, Action.run_bind_of_ok hrun _, hleft⟩
  | text element body =>
    obtain ⟨⟨top, outer, hopened, rfl⟩, hbody⟩ := hallows
    obtain ⟨left, hrun, hleft⟩ :=
      run_of_writes (writeText_writes reliable front hopened hbody) rfl h
    exact ⟨left, Action.run_bind_of_ok hrun _, hleft⟩
  | ended element =>
    obtain ⟨top, outer, hopened, rfl⟩ := hallows
    obtain ⟨left, hrun, hleft⟩ := run_of_writes (endElement_writes reliable front hopened) rfl h
    exact ⟨left, Action.run_bind_of_ok hrun _, hleft⟩
  | finish =>
    obtain ⟨output, hrun, hholds, -, htaken⟩ := finish_ok reliable front h hallows
    exact ⟨{ stream with output }, Action.run_bind_of_ok hrun _,
      hholds, h.frames, h.heldTag, h.nextElement, htaken⟩

section Refusals

variable (h : Shows reliable front draft stream)

include h

/-- An operation on an element that is not the innermost open one is refused before it does
anything. -/
theorem run_innermostFrame_bind {α : Type} {element : Nat}
    (hinnermost : ¬ draft.IsInnermost element) (action : SinkAction)
    (next : Frame → Action (XmlStream ω) α) :
    ∃ error, error.IsRefusal ∧
      (Action.ofExcept (stream.innermostFrame action element) >>= next).run stream =
        (.error error, stream) := by
  obtain ⟨error, hrefusal, herror⟩ := innermostFrame_error h hinnermost action
  exact ⟨error, hrefusal, Action.run_ofExcept_bind_of_error herror next stream⟩

/-- The start of an element that is not allowed is refused and changes nothing. -/
theorem startElement_refused {parent : Nat} {name : String}
    (hnot : ¬ draft.Allows (.start parent name)) :
    ∃ error, error.IsRefusal ∧
      (startElement parent name).run stream = (.error error, stream) := by
  unfold startElement
  rw [Action.run_getState_bind]
  by_cases hinnermost : draft.IsInnermost parent
  · obtain ⟨top, outer, hopened, rfl⟩ := hinnermost
    rw [Action.run_ofExcept_bind_of_ok (innermostFrame_ok h hopened .startChild)]
    cases hname : Name.isValid name with
    | false =>
      exact ⟨.invalidName name, trivial,
        Action.run_ofExcept_bind_of_error (Name.validate_of_not_isValid hname) _ _⟩
    | true => exact absurd ⟨⟨top, outer, hopened, rfl⟩, hname⟩ hnot
  · exact run_innermostFrame_bind h hinnermost .startChild _

/-- An attribute that is not allowed is refused and changes nothing. -/
theorem setAttribute_refused {element : Nat} {name value : String}
    (hnot : ¬ draft.Allows (.attr element name value)) :
    ∃ error, error.IsRefusal ∧
      (setAttribute element name value).run stream = (.error error, stream) := by
  unfold setAttribute
  rw [Action.run_getState_bind]
  by_cases hinnermost : draft.IsInnermost element
  · obtain ⟨top, outer, hopened, rfl⟩ := id hinnermost
    rw [Action.run_ofExcept_bind_of_ok (innermostFrame_ok h hopened .setAttribute)]
    cases hname : Name.isValid name with
    | false =>
      exact ⟨.invalidName name, trivial,
        Action.run_ofExcept_bind_of_error (Name.validate_of_not_isValid hname) _ _⟩
    | true =>
      rw [Action.run_ofExcept_bind_of_ok ((Name.validate_eq_ok_iff name).2 hname)]
      cases hvalue : CharacterData.check (top.frame.name ++ "@" ++ name) value with
      | error error =>
        exact ⟨error, CharacterData.isRefusal_of_check hvalue,
          Action.run_ofExcept_bind_of_error rfl _ _⟩
      | ok checked =>
        have hcarries := (CharacterData.check_eq_ok_iff _ _).1 hvalue
        rw [Action.run_ofExcept_bind_of_ok rfl, h.heldTag]
        cases hheld : draft.heldTag with
        | none => exact ⟨.outOfOrder (.attributeAfterContent name top.name), trivial, rfl⟩
        | some tag => exact absurd ⟨hinnermost, hname, hcarries, by simp [hheld]⟩ hnot
  · exact run_innermostFrame_bind h hinnermost .setAttribute _

/-- A text that is not allowed is refused and changes nothing. -/
theorem writeText_refused {element : Nat} {body : String}
    (hnot : ¬ draft.Allows (.text element body)) :
    ∃ error, error.IsRefusal ∧
      (writeText element body).run stream = (.error error, stream) := by
  unfold writeText
  rw [Action.run_getState_bind]
  by_cases hinnermost : draft.IsInnermost element
  · obtain ⟨top, outer, hopened, rfl⟩ := id hinnermost
    -- an empty text is granted without being looked at
    have hne : body ≠ "" := by
      rintro rfl
      exact hnot ⟨hinnermost, fun c hc => by simp at hc⟩
    rw [Action.run_ofExcept_bind_of_ok (innermostFrame_ok h hopened .writeText), if_neg hne]
    cases hbody : CharacterData.check top.frame.name body with
    | error error =>
      exact ⟨error, CharacterData.isRefusal_of_check hbody,
        Action.run_ofExcept_bind_of_error rfl _ _⟩
    | ok checked => exact absurd ⟨hinnermost, (CharacterData.check_eq_ok_iff _ _).1 hbody⟩ hnot
  · exact run_innermostFrame_bind h hinnermost .writeText _

/-- A stream with an open element cannot be finished, and nothing changes. -/
theorem finish_refused (hnot : draft.opened ≠ []) :
    ∃ error, error.IsRefusal ∧ finish.run stream = (.error error, stream) := by
  obtain ⟨top, outer, hopened⟩ := List.exists_cons_of_ne_nil hnot
  refine ⟨.outOfOrder (.stillOpen top.name), trivial, ?_⟩
  simp only [Action.run, finish, h.frames, hopened, List.map_cons]
  rfl

/-- What a draft does not allow is refused, and nothing changes. -/
theorem perform_of_not_allows {request : SinkRequest} (hnot : ¬ draft.Allows request) :
    ∃ error, error.IsRefusal ∧ request.perform.run stream = (.error error, stream) := by
  have hrefused : ∀ {α : Type} {action : Action (XmlStream ω) α}
      {next : α → Action (XmlStream ω) (Option Nat)},
      (∃ error, error.IsRefusal ∧ action.run stream = (.error error, stream)) →
      ∃ error, error.IsRefusal ∧ (action >>= next).run stream = (.error error, stream) :=
    fun ⟨error, hrefusal, hrun⟩ => ⟨error, hrefusal, Action.run_bind_of_error hrun _⟩
  cases request with
  | start parent name => exact hrefused (startElement_refused h hnot)
  | attr element name value => exact hrefused (setAttribute_refused h hnot)
  | text element body => exact hrefused (writeText_refused h hnot)
  | ended element => exact hrefused (run_innermostFrame_bind h hnot .endElement _)
  | finish => exact hrefused (finish_refused h hnot)

end Refusals

/-- After any row of requests a stream shows the draft that the granted ones lead to.  These were all
allowed, and gave what the draft gives for them. -/
theorem performAll_shows (h : Shows reliable front draft stream) (requests : List SinkRequest) :
    let outcome := performAll requests stream
    let granted := grantedIn requests outcome.1
    draft.AllowsAll granted ∧ Shows reliable front (draft.afterAll granted) outcome.2 ∧
      outcome.1.filter Except.isOk = (draft.answers granted).map .ok := by
  induction requests generalizing draft stream with
  | nil => exact ⟨trivial, h, rfl⟩
  | cons request rest ih =>
    by_cases hallows : draft.Allows request
    · obtain ⟨left, hrun, hleft⟩ := perform_of_allows h hallows
      obtain ⟨hrest, hshows, hanswers⟩ := ih hleft
      simp only [performAll, hrun, grantedIn, Except.isOk, Except.toBool, if_true]
      exact ⟨⟨hallows, hrest⟩, hshows, congrArg (List.cons _) hanswers⟩
    · obtain ⟨error, -, hrun⟩ := perform_of_not_allows h hallows
      simp only [performAll, hrun, grantedIn, Except.isOk, Except.toBool]
      -- neither the stream nor the draft has moved
      exact ih h

end XmlStream

end XmlWorkload
