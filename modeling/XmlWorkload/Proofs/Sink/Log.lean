import XmlWorkload.Proofs.Document.Growth
import XmlWorkload.Proofs.Sink.Recording
import XmlWorkload.Proofs.Sink.Request

/-!
# Logs of granted requests

What a recorder remembers is a flat log.  The tree of a document can be read off it: an element has
the attributes that were set on it, and its content are the texts and starts on it, in order.  The
log of requests that a draft allows tells what the draft becomes (`Draft.sealed_afterAll`): what it
has, with what the calls give each of its open elements.  Elements are told apart by their numbers,
and no call concerns an element before it is started or once it is ended.
-/

set_option autoImplicit false

namespace XmlWorkload

namespace SinkCall

/-- The attributes that calls set on an element, in order. -/
def attributesOf (element : Nat) (calls : List SinkCall) : List (String × String) :=
  calls.filterMap fun
    | .attr target name value => if target = element then some (name, value) else none
    | _ => none

/-- The content that calls give an element, in order: its texts, and its children with the attributes
and the content that the calls behind their starts give them. -/
def contentOf : (element : Nat) → List SinkCall → List Markup
  | _, [] => []
  | element, .start parent child name :: rest =>
    if parent = element then
      .element name (attributesOf child rest) (contentOf child rest) :: contentOf element rest
    else contentOf element rest
  | element, .text target body :: rest =>
    if target = element then .text body :: contentOf element rest else contentOf element rest
  | element, .attr _ _ _ :: rest => contentOf element rest
  | element, .ended _ _ :: rest => contentOf element rest
  | element, .finish :: rest => contentOf element rest

/-- The tree of a document with a root of the given name, as its log tells it. -/
def treeOf (root : String) (calls : List SinkCall) : Markup :=
  .element root (attributesOf 0 calls) (contentOf 0 calls)

/-- Whether a call is a start with an element as its parent or a text on it. -/
def Fills (element : Nat) : SinkCall → Prop
  | .start parent _ _ => parent = element
  | .text target _ => target = element
  | _ => False

/-- Whether a call concerns an element that is there already. -/
def Concerns (element : Nat) : SinkCall → Prop
  | .start parent _ _ => parent = element
  | .attr target _ _ => target = element
  | .text target _ => target = element
  | .ended target _ => target = element
  | .finish => False

/-- An element has no content exactly when no call fills it. -/
theorem contentOf_eq_nil_iff (element : Nat) (calls : List SinkCall) :
    contentOf element calls = [] ↔ ∀ call ∈ calls, ¬ call.Fills element := by
  induction calls with
  | nil => simp [contentOf]
  | cons call rest ih =>
    rw [List.forall_mem_cons, ← ih]
    cases call with
    | start parent child name =>
      by_cases hparent : parent = element <;> simp [contentOf, Fills, hparent]
    | text target body =>
      by_cases htarget : target = element <;> simp [contentOf, Fills, htarget]
    | attr target name value => simp [contentOf, Fills]
    | ended target name => simp [contentOf, Fills]
    | finish => simp [contentOf, Fills]

/-- A call that fills an element concerns it. -/
theorem concerns_of_fills {element : Nat} {call : SinkCall} (h : call.Fills element) :
    call.Concerns element := by
  cases call <;> first | exact h | exact h.elim

section Concerning

variable {element : Nat} {calls : List SinkCall} (h : ∀ call ∈ calls, ¬ call.Concerns element)

include h

/-- Calls that do not concern an element give it nothing. -/
theorem attributesOf_of_not_concerns : attributesOf element calls = [] := by
  refine List.filterMap_eq_nil_iff.2 fun call hcall => ?_
  cases call with
  | attr target name value => exact if_neg (h _ hcall)
  | _ => rfl

/-- Calls that do not concern an element give it no content. -/
theorem contentOf_of_not_concerns : contentOf element calls = [] :=
  (contentOf_eq_nil_iff element calls).2 fun call hcall hfills =>
    h call hcall (concerns_of_fills hfills)

/-- Calls that do not concern an element give it no attributes. -/
theorem attributesOf_append_of_not_concerns (rest : List SinkCall) :
    attributesOf element (calls ++ rest) = attributesOf element rest := by
  rw [attributesOf, List.filterMap_append]
  exact congrArg (· ++ attributesOf element rest) (attributesOf_of_not_concerns h)

/-- Calls that do not concern an element give it no content in front of others. -/
theorem contentOf_append_of_not_concerns (rest : List SinkCall) :
    contentOf element (calls ++ rest) = contentOf element rest := by
  induction calls with
  | nil => rfl
  | cons call others ih =>
    obtain ⟨hcall, hothers⟩ := List.forall_mem_cons.1 h
    rw [List.cons_append, ← ih hothers]
    cases call with
    | start parent child name => rw [contentOf, if_neg (show ¬ parent = element from hcall)]
    | text target body => rw [contentOf, if_neg (show ¬ target = element from hcall)]
    | attr target name value => rw [contentOf]
    | ended target name => rw [contentOf]
    | finish => rw [contentOf]

end Concerning

end SinkCall

namespace Draft

open SinkCall

/-- The numbers of the open elements, the innermost first. -/
def numbers (draft : Draft) : List Nat := draft.opened.map Unfinished.element

/-- The calls that a recorder remembers of a request that a draft allows. -/
def logged (draft : Draft) : SinkRequest → List SinkCall
  | .start parent name => [.start parent draft.nextElement name]
  | .attr element name value => [.attr element name value]
  | .text element body => ofText element body
  | .ended element => [.ended element ((draft.opened.head?.map Unfinished.name).getD "")]
  | .finish => [.finish]

/-- The calls that a recorder remembers of requests one after the other. -/
def logAll : List SinkRequest → Draft → List SinkCall
  | [], _ => []
  | request :: rest, draft => draft.logged request ++ logAll rest (draft.after request)

/-- The open elements have different numbers, and the next one is new. -/
structure Numbered (draft : Draft) : Prop where
  nodup : draft.numbers.Nodup
  below : ∀ element ∈ draft.numbers, element < draft.nextElement

section Numbers

variable {draft : Draft} {element : Nat} {request : SinkRequest} {requests : List SinkRequest}

/-- The innermost element has the first number. -/
theorem IsInnermost.numbers_eq (h : draft.IsInnermost element) :
    ∃ outer, draft.numbers = element :: outer := by
  obtain ⟨top, outer, hopened, rfl⟩ := h
  exact ⟨outer.map Unfinished.element, by rw [numbers, hopened, List.map_cons]⟩

/-- Attributes that are set leave the numbers of the open elements as they are. -/
theorem numbers_setAttributes (attrs : List (String × String)) (draft : Draft) :
    (draft.setAttributes attrs).numbers = draft.numbers := by
  obtain ⟨opened, finished, next⟩ := draft
  cases opened <;> rfl

/-- Nodes that are put in leave the numbers of the open elements as they are. -/
theorem numbers_append (nodes : List Markup) (draft : Draft) :
    (draft.append nodes).numbers = draft.numbers := by
  obtain ⟨opened, finished, next⟩ := draft
  cases opened <;> rfl

/-- Attributes that are set leave the number of the next element as it is. -/
theorem nextElement_setAttributes (attrs : List (String × String)) (draft : Draft) :
    (draft.setAttributes attrs).nextElement = draft.nextElement := by
  obtain ⟨opened, finished, next⟩ := draft
  cases opened <;> rfl

/-- Nodes that are put in leave the number of the next element as it is. -/
theorem nextElement_append (nodes : List Markup) (draft : Draft) :
    (draft.append nodes).nextElement = draft.nextElement := by
  obtain ⟨opened, finished, next⟩ := draft
  cases opened <;> rfl

/-- Finishing the element at the top takes its number away. -/
theorem numbers_finishTop (draft : Draft) : draft.finishTop.numbers = draft.numbers.tail := by
  obtain ⟨opened, finished, next⟩ := draft
  cases opened with
  | nil => rfl
  | cons top outer => exact numbers_append _ ⟨outer, finished, next⟩

/-- Finishing the element at the top leaves the number of the next one as it is. -/
theorem nextElement_finishTop (draft : Draft) :
    draft.finishTop.nextElement = draft.nextElement := by
  obtain ⟨opened, finished, next⟩ := draft
  cases opened with
  | nil => rfl
  | cons top outer => exact nextElement_append _ ⟨outer, finished, next⟩

/-- What a request does to the numbers of the open elements: a start adds the next number, an end
takes the innermost one away. -/
theorem numbers_after (draft : Draft) (request : SinkRequest) :
    (draft.after request).numbers = match request with
      | .start _ _ => draft.nextElement :: draft.numbers
      | .ended _ => draft.numbers.tail
      | _ => draft.numbers := by
  cases request with
  | start parent name => rfl
  | attr element name value => exact numbers_setAttributes _ draft
  | text element body => exact numbers_append _ draft
  | ended element => exact numbers_finishTop draft
  | finish => rfl

/-- A request makes the next number greater by the elements that it starts. -/
theorem nextElement_after (draft : Draft) (request : SinkRequest) :
    (draft.after request).nextElement =
      draft.nextElement + (startedIn (draft.logged request)).length := by
  cases request with
  | start parent name => rfl
  | attr element name value => exact nextElement_setAttributes _ draft
  | text element body =>
    rw [logged, startedIn_ofText]
    exact nextElement_append _ draft
  | ended element => exact nextElement_finishTop draft
  | finish => rfl

/-- What is started for a request has the next number. -/
theorem element_of_mem_startedIn {frame : Frame} (h : frame ∈ startedIn (draft.logged request)) :
    frame.element = draft.nextElement := by
  cases request with
  | start parent name =>
    obtain rfl := List.mem_singleton.1 h
    rfl
  | text element body =>
    rw [logged, startedIn_ofText] at h
    cases h
  | attr element name value => cases h
  | ended element => cases h
  | finish => cases h

/-- A request makes the next number no smaller. -/
theorem nextElement_le_after (draft : Draft) (request : SinkRequest) :
    draft.nextElement ≤ (draft.after request).nextElement := by
  rw [nextElement_after]
  exact Nat.le_add_right _ _

/-- An element that is open after a request was open before, or it is the one that was started. -/
theorem mem_numbers_after (h : element ∈ (draft.after request).numbers) :
    element ∈ draft.numbers ∨ element = draft.nextElement := by
  rw [numbers_after] at h
  cases request with
  | start parent name => exact (List.mem_cons.1 h).symm
  | ended target => exact .inl (List.mem_of_mem_tail h)
  | attr target name value => exact .inl h
  | text target body => exact .inl h
  | finish => exact .inl h

/-- Requests keep the numbers of the open elements apart. -/
theorem Numbered.after (h : draft.Numbered) (request : SinkRequest) :
    (draft.after request).Numbered := by
  constructor
  · rw [numbers_after]
    cases request with
    | start parent name =>
      exact List.nodup_cons.2 ⟨fun hmem => Nat.lt_irrefl _ (h.below _ hmem), h.nodup⟩
    | ended element => exact h.nodup.sublist (List.tail_sublist _)
    | attr element name value => exact h.nodup
    | text element body => exact h.nodup
    | finish => exact h.nodup
  · intro element helement
    have hle := nextElement_le_after draft request
    rcases mem_numbers_after helement with hmem | rfl
    · exact Nat.lt_of_lt_of_le (h.below element hmem) hle
    · cases request with
      | start parent name => exact Nat.lt_succ_self _
      | ended element =>
        rw [numbers_after] at helement
        exact absurd (h.below _ (List.mem_of_mem_tail helement)) (Nat.lt_irrefl _)
      | _ =>
        rw [numbers_after] at helement
        exact absurd (h.below _ helement) (Nat.lt_irrefl _)

/-- What is remembered of a request that is allowed concerns the innermost open element only. -/
theorem isInnermost_of_concerns (hallows : draft.Allows request) {call : SinkCall}
    (hcall : call ∈ draft.logged request) (hconcerns : call.Concerns element) :
    draft.IsInnermost element := by
  cases request with
  | start parent name =>
    obtain rfl := List.mem_singleton.1 hcall
    obtain rfl : parent = element := hconcerns
    exact hallows.1
  | attr target name value =>
    obtain rfl := List.mem_singleton.1 hcall
    obtain rfl : target = element := hconcerns
    exact hallows.1
  | text target body =>
    simp only [logged, ofText] at hcall
    split at hcall
    · cases hcall
    · obtain rfl := List.mem_singleton.1 hcall
      obtain rfl : target = element := hconcerns
      exact hallows.1
  | ended target =>
    obtain rfl := List.mem_singleton.1 hcall
    obtain rfl : target = element := hconcerns
    exact hallows
  | finish =>
    obtain rfl := List.mem_singleton.1 hcall
    exact hconcerns.elim

/-- An element that was not started yet is not concerned. -/
theorem not_concerns_of_le (hallows : draft.Allows request) (hnumbered : draft.Numbered)
    (hle : draft.nextElement ≤ element) : ∀ call ∈ draft.logged request, ¬ call.Concerns element := by
  intro call hcall hconcerns
  obtain ⟨outer, houter⟩ := (isInnermost_of_concerns hallows hcall hconcerns).numbers_eq
  exact Nat.not_lt.2 hle (hnumbered.below _ (by rw [houter]; exact List.mem_cons_self))

/-- An element that is not open is not concerned by a request that is allowed. -/
theorem not_concerns_of_notMem (hallows : draft.Allows request) (helement : element ∉ draft.numbers) :
    ∀ call ∈ draft.logged request, ¬ call.Concerns element := by
  intro call hcall hconcerns
  obtain ⟨outer, houter⟩ := (isInnermost_of_concerns hallows hcall hconcerns).numbers_eq
  exact helement (by rw [houter]; exact List.mem_cons_self)

/-- The elements around the innermost open one are not concerned. -/
theorem not_concerns_outer (hallows : draft.Allows request) (hnumbered : draft.Numbered)
    {first : Nat} {others : List Nat} (hnumbers : draft.numbers = first :: others) :
    ∀ element ∈ others, ∀ call ∈ draft.logged request, ¬ call.Concerns element := by
  intro element helement call hcall hconcerns
  obtain ⟨outer, houter⟩ := (isInnermost_of_concerns hallows hcall hconcerns).numbers_eq
  obtain ⟨rfl, rfl⟩ := List.cons_eq_cons.1 (hnumbers.symm.trans houter)
  have hnodup := hnumbered.nodup
  rw [hnumbers, List.nodup_cons] at hnodup
  exact hnodup.1 helement

/-- An element that is closed stays so, and no request concerns it any more. -/
theorem closed_of_notMem (hallows : draft.AllowsAll requests) (hnumbered : draft.Numbered)
    (hclosed : element ∉ draft.numbers) (hused : element < draft.nextElement) :
    element ∉ (draft.afterAll requests).numbers ∧
      ∀ call ∈ draft.logAll requests, ¬ call.Concerns element := by
  induction requests generalizing draft with
  | nil => exact ⟨hclosed, List.forall_mem_nil _⟩
  | cons request rest ih =>
    have hstill : element ∉ (draft.after request).numbers := fun hmem =>
      (mem_numbers_after hmem).elim hclosed fun heq => Nat.lt_irrefl _ (heq ▸ hused)
    obtain ⟨hafter, hrest⟩ := ih hallows.2 (hnumbered.after request) hstill
      (Nat.lt_of_lt_of_le hused (nextElement_le_after draft request))
    exact ⟨hafter, List.forall_mem_append.2
      ⟨not_concerns_of_notMem hallows.1 hclosed, hrest⟩⟩

/-- An element that is ended is closed from then on. -/
theorem closed_of_ended (hallows : draft.AllowsAll (.ended element :: requests))
    (hnumbered : draft.Numbered) :
    element ∉ (draft.afterAll (.ended element :: requests)).numbers ∧
      ∀ call ∈ (draft.after (.ended element)).logAll requests, ¬ call.Concerns element := by
  obtain ⟨outer, houter⟩ := IsInnermost.numbers_eq (show draft.IsInnermost element from hallows.1)
  have hnodup := hnumbered.nodup
  have hbelow := hnumbered.below element (by rw [houter]; exact List.mem_cons_self)
  rw [houter, List.nodup_cons] at hnodup
  have hgone : element ∉ (draft.after (.ended element)).numbers := by
    rw [numbers_after, houter]
    exact hnodup.1
  exact closed_of_notMem hallows.2 (hnumbered.after _) hgone
    (Nat.lt_of_lt_of_le hbelow (nextElement_le_after draft _))

/-- An element that was ended is closed. -/
theorem notMem_of_mem_endedIn (hallows : draft.AllowsAll requests) (hnumbered : draft.Numbered)
    (hended : element ∈ endedIn (draft.logAll requests)) :
    element ∉ (draft.afterAll requests).numbers := by
  induction requests generalizing draft with
  | nil => cases hended
  | cons request rest ih =>
    rw [logAll, endedIn_append, List.mem_append] at hended
    rcases hended with hfirst | hrest
    · -- only an end is remembered as one
      cases request with
      | ended target =>
        obtain rfl : element = target := List.mem_singleton.1 hfirst
        exact (closed_of_ended hallows hnumbered).1
      | text target body =>
        rw [logged, endedIn_ofText] at hfirst
        cases hfirst
      | start parent name => cases hfirst
      | attr target name value => cases hfirst
      | finish => cases hfirst
    · exact ih hallows.2 (hnumbered.after request) hrest

/-- The outermost open element is the one that it was before. -/
theorem getLast?_numbers_of_afterAll (hallows : draft.AllowsAll requests)
    (hlast : (draft.afterAll requests).numbers.getLast? = some element) :
    draft.numbers.getLast? = some element := by
  induction requests generalizing draft with
  | nil => exact hlast
  | cons request rest ih =>
    have hafter := ih hallows.2 hlast
    rw [numbers_after] at hafter
    cases request with
    | start parent name =>
      obtain ⟨outer, houter⟩ := hallows.1.1.numbers_eq
      rwa [houter, List.getLast?_cons_cons, ← houter] at hafter
    | ended target =>
      obtain ⟨outer, houter⟩ := IsInnermost.numbers_eq (show draft.IsInnermost target from hallows.1)
      rw [houter, List.tail_cons] at hafter
      cases outer with
      | nil => cases hafter
      | cons second others => rwa [houter, List.getLast?_cons_cons]
    | attr target name value => exact hafter
    | text target body => exact hafter
    | finish => exact hafter

/-- What comes before a start in a log does not concern the element that is started, nor is it a
child of itself. -/
theorem not_concerns_before_start (hallows : draft.AllowsAll requests)
    (hnumbered : draft.Numbered) {before behind : List SinkCall} {parent : Nat} {name : String}
    (hlog : draft.logAll requests = before ++ .start parent element name :: behind) :
    draft.nextElement ≤ element ∧ parent ≠ element ∧
      ∀ call ∈ before, ¬ call.Concerns element := by
  induction requests generalizing draft before with
  | nil => simp [logAll] at hlog
  | cons request rest ih =>
    rw [logAll, List.append_eq_append_iff] at hlog
    rcases hlog with ⟨more, rfl, hrest⟩ | ⟨_ | ⟨call, more⟩, hlogged, hrest⟩
    · -- the start is remembered of a later request
      obtain ⟨hle, hparent, hbefore⟩ := ih hallows.2 (hnumbered.after request) hrest
      have hused := Nat.le_trans (nextElement_le_after draft request) hle
      exact ⟨hused, hparent, List.forall_mem_append.2
        ⟨not_concerns_of_le hallows.1 hnumbered hused, hbefore⟩⟩
    · -- it is the first one that is remembered of a later request
      rw [List.append_nil] at hlogged
      have hfirst : logAll rest (draft.after request) =
          [] ++ .start parent element name :: behind := hrest.symm
      obtain ⟨hle, hparent, -⟩ := ih hallows.2 (hnumbered.after request) hfirst
      have hused := Nat.le_trans (nextElement_le_after draft request) hle
      exact ⟨hused, hparent, hlogged ▸ not_concerns_of_le hallows.1 hnumbered hused⟩
    · -- it is what is remembered of this request
      obtain ⟨rfl, -⟩ := List.cons_eq_cons.1 hrest
      obtain ⟨rfl, rfl⟩ : before = [] ∧ element = draft.nextElement := by
        cases request with
        | start parent' name' =>
          cases before with
          | nil =>
            cases hlogged
            exact ⟨rfl, rfl⟩
          | cons first others => simp [logged] at hlogged
        | text target body =>
          simp only [logged, ofText] at hlogged
          split at hlogged <;> simp [List.singleton_eq_append_iff] at hlogged
        | attr target name' value => simp [logged, List.singleton_eq_append_iff] at hlogged
        | ended target => simp [logged, List.singleton_eq_append_iff] at hlogged
        | finish => simp [logged, List.singleton_eq_append_iff] at hlogged
      have hmem : .start parent draft.nextElement name ∈ draft.logged request := by
        rw [hlogged]
        exact List.mem_cons_self
      have hparent := not_concerns_of_le hallows.1 hnumbered (Nat.le_refl draft.nextElement) _ hmem
      exact ⟨Nat.le_refl _, hparent, List.forall_mem_nil _⟩

end Numbers

/-- What open elements, the innermost first, become around something when calls still give them
attributes and content. -/
def completeAll (calls : List SinkCall) : List Unfinished → List Markup → List Markup
  | [], inner => inner
  | node :: outer, inner =>
    completeAll calls outer [.element node.name (node.attrs ++ attributesOf node.element calls)
      (node.content ++ (inner ++ contentOf node.element calls))]

/-- What a draft becomes when calls still give its open elements attributes and content. -/
def completed (calls : List SinkCall) (draft : Draft) : List Markup :=
  draft.finished ++ completeAll calls draft.opened []

section Completing

variable {draft : Draft} {request : SinkRequest} {requests : List SinkRequest}

/-- Nothing more is given by no calls. -/
theorem completed_nil (draft : Draft) : draft.completed [] = draft.sealed := by
  have hall : ∀ (nodes : List Unfinished) (inner : List Markup),
      completeAll [] nodes inner = sealAll nodes inner := by
    intro nodes
    induction nodes with
    | nil => exact fun inner => rfl
    | cons node outer ih =>
      intro inner
      have hattrs : attributesOf node.element [] = [] := rfl
      rw [completeAll, sealAll, ih, Unfinished.sealed, contentOf, hattrs, List.append_nil,
        List.append_nil]
  rw [completed, hall, sealed]

/-- Calls that do not concern open elements do not matter to what they become. -/
theorem completeAll_append {nodes : List Unfinished} {calls : List SinkCall}
    (h : ∀ element ∈ nodes.map Unfinished.element, ∀ call ∈ calls, ¬ call.Concerns element)
    (rest : List SinkCall) (inner : List Markup) :
    completeAll (calls ++ rest) nodes inner = completeAll rest nodes inner := by
  induction nodes generalizing inner with
  | nil => rfl
  | cons node outer ih =>
    obtain ⟨hnode, houter⟩ := List.forall_mem_cons.1 h
    rw [completeAll, completeAll, ih houter, attributesOf_append_of_not_concerns hnode,
      contentOf_append_of_not_concerns hnode]

/-- What a draft becomes with the calls that are remembered of a request in front of others: only the
innermost open element is given something by the former. -/
theorem completed_logged_append (hallows : draft.Allows request) (hnumbered : draft.Numbered)
    {top : Unfinished} {outer : List Unfinished} (hopened : draft.opened = top :: outer)
    (rest : List SinkCall) :
    draft.completed (draft.logged request ++ rest) =
      draft.finished ++ completeAll rest outer [.element top.name
        (top.attrs ++ attributesOf top.element (draft.logged request ++ rest))
        (top.content ++ contentOf top.element (draft.logged request ++ rest))] := by
  have hnumbers : draft.numbers = top.element :: outer.map Unfinished.element := by
    rw [numbers, hopened, List.map_cons]
  rw [completed, hopened, completeAll, List.nil_append,
    completeAll_append (not_concerns_outer hallows hnumbered hnumbers)]

/-- What a request adds to a draft is what its calls give, if the calls behind them do not concern
what it closes. -/
theorem completed_after (hallows : draft.Allows request) (hnumbered : draft.Numbered)
    {rest : List SinkCall}
    (hrest : ∀ element, request = .ended element → ∀ call ∈ rest, ¬ call.Concerns element) :
    (draft.after request).completed rest = draft.completed (draft.logged request ++ rest) := by
  cases request with
  | start parent name =>
    obtain ⟨top, outer, hopened, rfl⟩ := hallows.1
    rw [completed_logged_append hallows hnumbered hopened]
    simp [completed, after, start, hopened, logged, completeAll, attributesOf, contentOf]
  | attr target name value =>
    obtain ⟨top, outer, hopened, rfl⟩ := hallows.1
    rw [completed_logged_append hallows hnumbered hopened]
    simp [completed, after, setAttributes, hopened, logged, completeAll, attributesOf, contentOf]
  | text target body =>
    obtain ⟨top, outer, hopened, rfl⟩ := hallows.1
    rw [completed_logged_append hallows hnumbered hopened]
    by_cases hempty : body = ""
    · simp [completed, after, append, hopened, logged, ofText, Markup.ofText, completeAll, hempty]
    · simp [completed, after, append, hopened, logged, ofText, Markup.ofText, completeAll,
        attributesOf, contentOf, hempty]
  | ended target =>
    obtain ⟨top, outer, hopened, rfl⟩ := id hallows
    -- no call gives the element that is closed anything more
    have hattrs := attributesOf_of_not_concerns (hrest _ rfl)
    have hcontent := contentOf_of_not_concerns (hrest _ rfl)
    have hsame : attributesOf top.element (.ended top.element top.name :: rest) =
        attributesOf top.element rest := rfl
    rw [completed_logged_append hallows hnumbered hopened]
    -- what is closed becomes content of its parent, or is finished if it has none
    cases outer <;>
      simp [completed, after, finishTop, append, hopened, logged, completeAll, contentOf,
        Unfinished.sealed, hattrs, hcontent, hsame]
  | finish =>
    have hopened : draft.opened = [] := hallows
    rw [after, completed, completed, hopened]
    rfl

/-- Once everything is closed that requests have opened, it is what their log tells. -/
theorem sealed_afterAll (hallows : draft.AllowsAll requests) (hnumbered : draft.Numbered) :
    (draft.afterAll requests).sealed = draft.completed (draft.logAll requests) := by
  induction requests generalizing draft with
  | nil => exact (completed_nil draft).symm
  | cons request rest ih =>
    -- taken from its end, the log is first completed from the draft behind the request
    rw [afterAll, ih hallows.2 (hnumbered.after request), logAll]
    refine completed_after hallows.1 hnumbered ?_
    rintro element rfl
    exact (closed_of_ended hallows hnumbered).2

/-- An element that is open after a request has the name that it had before, or the one with which
it was started. -/
theorem mem_frames_after {frame : Frame} (h : frame ∈ (draft.after request).frames) :
    frame ∈ draft.frames ∨ frame ∈ startedIn (draft.logged request) := by
  obtain ⟨opened, finished, next⟩ := draft
  cases request with
  | start parent name =>
    have hframes : frame ∈ frames ⟨opened, finished, next⟩ ∨ frame = ⟨next, name⟩ := by
      simpa [frames, after, start, Unfinished.frame] using h
    exact hframes.imp_right List.mem_singleton.2
  | attr target name value => exact .inl (by rwa [after, frames_setAttributes] at h)
  | text target body => exact .inl (by rwa [after, frames_append] at h)
  | ended target =>
    cases opened with
    | nil => exact .inl h
    | cons top outer =>
      rw [after, finishTop, frames_append] at h
      refine .inl ?_
      rw [frames, List.reverse_cons, List.map_append]
      exact List.mem_append_left _ h
  | finish => exact .inl h

/-- The elements of the frames are open. -/
theorem mem_numbers_of_mem_frames {frame : Frame} (h : frame ∈ draft.frames) :
    frame.element ∈ draft.numbers := by
  obtain ⟨node, hnode, rfl⟩ := List.mem_map.1 h
  exact List.mem_map_of_mem (List.mem_reverse.1 hnode)

end Completing

/-- A new draft is numbered. -/
theorem numbered_new (root : String) : (new root).Numbered :=
  ⟨List.nodup_singleton 0, fun _ helement => by simp_all [numbers, new]⟩

/-- Requests to a new document lead to the tree that their log tells. -/
theorem sealed_afterAll_new {root : String} {requests : List SinkRequest}
    (hallows : (new root).AllowsAll requests) :
    ((new root).afterAll requests).sealed = [treeOf root ((new root).logAll requests)] := by
  rw [sealed_afterAll hallows (numbered_new root)]
  simp [completed, completeAll, new, treeOf]

/-- Once the root was ended nothing is open. -/
theorem opened_of_ended {root : String} {requests : List SinkRequest}
    (hallows : (new root).AllowsAll requests)
    (hended : 0 ∈ endedIn ((new root).logAll requests)) :
    ((new root).afterAll requests).opened = [] := by
  have hclosed := notMem_of_mem_endedIn hallows (numbered_new root) hended
  cases hlast : ((new root).afterAll requests).numbers.getLast? with
  | none => exact List.map_eq_nil_iff.1 (List.getLast?_eq_none_iff.1 hlast)
  | some element =>
    obtain rfl : 0 = element := Option.some.inj (getLast?_numbers_of_afterAll hallows hlast)
    exact absurd (List.mem_of_getLast? hlast) hclosed

/-- Requests to a new document that leave nothing open lead to the text of the tree that their log
tells. -/
theorem text_afterAll_new {root : String} {requests : List SinkRequest}
    (hallows : (new root).AllowsAll requests)
    (hopened : ((new root).afterAll requests).opened = []) :
    ((new root).afterAll requests).text = (treeOf root ((new root).logAll requests)).render := by
  have htext : ((new root).afterAll requests).text =
      Markup.renderAll ((new root).afterAll requests).sealed := by
    simp [text, sealed, hopened, sealAll]
  rw [htext, sealed_afterAll_new hallows]
  simp only [Markup.renderAll, String.append_empty]

end Draft

end XmlWorkload
