import Mathlib.Data.List.Nodup
import XmlWorkload.Sink.Recorder
import XmlWorkload.Proofs.Document.Chain

/-!
# Recorded calls

A recorder takes every call, so that what an action does to it is told by the calls that it adds.
Which elements were started, which were ended and which are still open can be read off the calls
alone.  Main statements: the calls that write an element, open a path or close a chain of open
elements; and what each of these rows of calls starts, ends and leaves open.
-/

set_option autoImplicit false

namespace XmlWorkload

/-- Names of elements with their numbers, which go up from a number on. -/
def Frame.numbered (element : Nat) : List String → List Frame
  | [] => []
  | name :: rest => ⟨element, name⟩ :: numbered (element + 1) rest

namespace SinkCall

/-- The elements that calls started, in order. -/
def startedIn (calls : List SinkCall) : List Frame :=
  calls.filterMap fun
    | .start _ element name => some ⟨element, name⟩
    | _ => none

/-- The numbers of the elements that calls ended, in order. -/
def endedIn (calls : List SinkCall) : List Nat :=
  calls.filterMap fun
    | .ended element _ => some element
    | _ => none

/-- The open elements after a call: a start adds one, and an end takes one away. -/
def effect (opened : List Frame) : SinkCall → List Frame
  | .start _ element name => opened ++ [⟨element, name⟩]
  | .ended element _ => opened.filter fun frame => frame.element != element
  | _ => opened

/-- The elements that calls started and did not end, in the order in which they were started. -/
def openAfter (calls : List SinkCall) : List Frame := calls.foldl effect []

/-- The ends of elements one inside the other, the innermost first. -/
def ends (frames : List Frame) : List SinkCall :=
  frames.reverse.map fun frame => .ended frame.element frame.name

/-- The starts of elements one inside the other, the outermost first, below a parent. -/
def starts (parent : Nat) : List Frame → List SinkCall
  | [] => []
  | frame :: deeper => .start parent frame.element frame.name :: starts frame.element deeper

/-- The attributes of an element, in order. -/
def ofAttributes (element : Nat) (entries : List (String × String)) : List SinkCall :=
  entries.map fun entry => .attr element entry.1 entry.2

/-- The text of an element: no call if it is empty. -/
def ofText (element : Nat) (body : String) : List SinkCall :=
  if body = "" then [] else [.text element body]

mutual

/-- An element below a parent, from its start to its end: its attributes, its children and its text.
The numbers of the element and of those inside it go up from `number` on. -/
def ofElement (parent number : Nat) : Element → List SinkCall
  | .mk name attrs children body =>
    .start parent number name :: (ofAttributes number attrs ++
      (ofElements number (number + 1) children ++ (ofText number body ++ [.ended number name])))

/-- Elements in a row below a parent. -/
def ofElements (parent number : Nat) : List Element → List SinkCall
  | [] => []
  | element :: rest =>
    ofElement parent number element ++ ofElements parent (number + element.count) rest

end

section Parts

/-- The elements that two rows of calls start are those of the first and those of the second. -/
@[simp]
theorem startedIn_append (first second : List SinkCall) :
    startedIn (first ++ second) = startedIn first ++ startedIn second :=
  List.filterMap_append

/-- The elements that two rows of calls end are those of the first and those of the second. -/
@[simp]
theorem endedIn_append (first second : List SinkCall) :
    endedIn (first ++ second) = endedIn first ++ endedIn second :=
  List.filterMap_append

/-- What is open after two rows of calls is what the second row makes of what the first one left. -/
theorem openAfter_append (first second : List SinkCall) :
    openAfter (first ++ second) = second.foldl effect (openAfter first) :=
  List.foldl_append

/-- A call that starts an element starts it before those of the other calls. -/
@[simp]
theorem startedIn_start (parent element : Nat) (name : String) (calls : List SinkCall) :
    startedIn (.start parent element name :: calls) = ⟨element, name⟩ :: startedIn calls :=
  rfl

/-- A call that ends an element starts none. -/
@[simp]
theorem startedIn_ended (element : Nat) (name : String) :
    startedIn [.ended element name] = [] :=
  rfl

/-- A call that starts an element ends none. -/
@[simp]
theorem endedIn_start (parent element : Nat) (name : String) (calls : List SinkCall) :
    endedIn (.start parent element name :: calls) = endedIn calls :=
  rfl

/-- A call that ends an element ends that one. -/
@[simp]
theorem endedIn_ended (element : Nat) (name : String) :
    endedIn [.ended element name] = [element] :=
  rfl

/-- What is open was started. -/
theorem mem_startedIn_of_mem_openAfter {calls : List SinkCall} {frame : Frame}
    (h : frame ∈ openAfter calls) : frame ∈ startedIn calls := by
  have hopened : ∀ (calls : List SinkCall) (opened : List Frame),
      frame ∈ calls.foldl effect opened → frame ∈ opened ∨ frame ∈ startedIn calls := by
    intro calls
    induction calls with
    | nil => exact fun opened h => .inl h
    | cons call rest ih =>
      intro opened h
      have hrest := ih _ h
      cases call with
      | start parent element name =>
        simpa [effect, or_assoc] using hrest
      | ended element name =>
        exact hrest.imp_left fun hmem => List.mem_of_mem_filter hmem
      | attr => exact hrest
      | text => exact hrest
      | finish => exact hrest
  exact (hopened calls [] h).resolve_left List.not_mem_nil

/-- Attributes start and end nothing. -/
@[simp]
theorem startedIn_ofAttributes (element : Nat) (entries : List (String × String)) :
    startedIn (ofAttributes element entries) = [] := by
  simp [startedIn, ofAttributes]

/-- Setting attributes ends no element. -/
@[simp]
theorem endedIn_ofAttributes (element : Nat) (entries : List (String × String)) :
    endedIn (ofAttributes element entries) = [] := by
  simp [endedIn, ofAttributes]

/-- Setting attributes leaves open what was. -/
@[simp]
theorem foldl_effect_ofAttributes (element : Nat) (entries : List (String × String))
    (opened : List Frame) : (ofAttributes element entries).foldl effect opened = opened := by
  induction entries with
  | nil => rfl
  | cons entry rest ih => exact ih

/-- A text starts and ends nothing. -/
@[simp]
theorem startedIn_ofText (element : Nat) (body : String) :
    startedIn (ofText element body) = [] := by
  unfold ofText
  split <;> rfl

/-- Writing a text ends no element. -/
@[simp]
theorem endedIn_ofText (element : Nat) (body : String) : endedIn (ofText element body) = [] := by
  unfold ofText
  split <;> rfl

/-- Writing a text leaves open what was. -/
@[simp]
theorem foldl_effect_ofText (element : Nat) (body : String) (opened : List Frame) :
    (ofText element body).foldl effect opened = opened := by
  unfold ofText
  split <;> rfl

/-- Ending elements starts none. -/
@[simp]
theorem startedIn_ends (frames : List Frame) : startedIn (ends frames) = [] := by
  simp [startedIn, ends]

/-- Elements are ended from the last to the first. -/
@[simp]
theorem endedIn_ends (frames : List Frame) :
    endedIn (ends frames) = (frames.map Frame.element).reverse := by
  simp [endedIn, ends, List.filterMap_map]

/-- Elements are started in the order of their frames. -/
@[simp]
theorem startedIn_starts (parent : Nat) (frames : List Frame) :
    startedIn (starts parent frames) = frames := by
  induction frames generalizing parent with
  | nil => rfl
  | cons frame deeper ih =>
    rw [starts]
    exact congrArg (frame :: ·) (ih frame.element)

/-- Starting elements ends none. -/
@[simp]
theorem endedIn_starts (parent : Nat) (frames : List Frame) :
    endedIn (starts parent frames) = [] := by
  induction frames generalizing parent with
  | nil => rfl
  | cons frame deeper ih =>
    rw [starts]
    exact ih frame.element

/-- Starts leave the elements open that they start. -/
@[simp]
theorem foldl_effect_starts (parent : Nat) (frames opened : List Frame) :
    (starts parent frames).foldl effect opened = opened ++ frames := by
  induction frames generalizing parent opened with
  | nil => simp [starts]
  | cons frame deeper ih =>
    rw [starts, List.foldl_cons, ih, effect, List.append_assoc]
    rfl

/-- Ends take the elements away that they end. -/
theorem foldl_effect_ends (frames opened : List Frame) :
    (ends frames).foldl effect opened =
      opened.filter fun frame => frame.element ∉ frames.map Frame.element := by
  have hends : ∀ last : List Frame,
      (last.map fun frame => SinkCall.ended frame.element frame.name).foldl effect opened =
        opened.filter fun frame => frame.element ∉ last.map Frame.element := by
    intro last
    induction last generalizing opened with
    | nil =>
      simp only [List.map_nil, List.not_mem_nil, not_false_eq_true, decide_true]
      exact (List.filter_eq_self.2 fun _ _ => rfl).symm
    | cons frame rest ih =>
      rw [List.map_cons, List.foldl_cons, ih, effect, List.filter_filter]
      congr 1
      funext other
      rw [List.map_cons, Bool.eq_iff_iff]
      simp [and_comm]
  have hreverse := hends frames.reverse
  simpa [ends] using hreverse

/-- The ends of the last open elements leave the others open. -/
theorem foldl_effect_ends_append {kept frames : List Frame}
    (h : ((kept ++ frames).map Frame.element).Nodup) :
    (ends frames).foldl effect (kept ++ frames) = kept := by
  rw [List.map_append, List.nodup_append] at h
  have hkept : kept.filter (fun frame => frame.element ∉ frames.map Frame.element) = kept := by
    apply List.filter_eq_self.2
    intro frame hframe
    simp only [decide_eq_true_eq]
    intro hmem
    exact h.2.2 _ (List.mem_map_of_mem hframe) _ hmem rfl
  have hframes : frames.filter (fun frame => frame.element ∉ frames.map Frame.element) = [] := by
    apply List.filter_eq_nil_iff.2
    intro frame hframe
    simp only [decide_eq_true_eq]
    exact fun hnot => hnot (List.mem_map_of_mem hframe)
  rw [foldl_effect_ends, List.filter_append, hkept, hframes, List.append_nil]

/-- The numbers of numbered names go up one by one. -/
theorem map_element_numbered (element : Nat) (names : List String) :
    (Frame.numbered element names).map Frame.element = List.range' element names.length := by
  induction names generalizing element with
  | nil => rfl
  | cons name rest ih =>
    rw [Frame.numbered, List.map_cons, ih, List.length_cons, List.range'_succ]

/-- As many frames are numbered as there are names. -/
theorem length_numbered (element : Nat) (names : List String) :
    (Frame.numbered element names).length = names.length := by
  have hlength := congrArg List.length (map_element_numbered element names)
  rwa [List.length_map, List.length_range'] at hlength

/-- Numbered frames have the names that were numbered. -/
theorem map_name_numbered (element : Nat) (names : List String) :
    (Frame.numbered element names).map Frame.name = names := by
  induction names generalizing element with
  | nil => rfl
  | cons name rest ih => rw [Frame.numbered, List.map_cons, ih]

mutual

/-- The elements that are started for an element are numbered one by one. -/
theorem startedIn_ofElement (parent number : Nat) : ∀ (element : Element),
    (startedIn (ofElement parent number element)).map Frame.element =
      List.range' number element.count
  | .mk name attrs children body => by
    have hchildren := startedIn_ofElements number (number + 1) children
    rw [Element.count, List.range'_succ, ← hchildren, ofElement]
    simp

/-- Writing elements starts as many as they are, with their descendants, numbered in turn. -/
theorem startedIn_ofElements (parent number : Nat) : ∀ (elements : List Element),
    (startedIn (ofElements parent number elements)).map Frame.element =
      List.range' number (Element.countOfAll elements)
  | [] => by
    rw [ofElements, Element.countOfAll]
    rfl
  | element :: rest => by
    rw [ofElements, Element.countOfAll, startedIn_append, List.map_append,
      startedIn_ofElement parent number element, startedIn_ofElements parent _ rest,
      List.range'_append_1]

end

/-- Writing an element starts as many elements as it has, with itself. -/
theorem length_startedIn_ofElement (parent number : Nat) (element : Element) :
    (startedIn (ofElement parent number element)).length = element.count := by
  have hlength := congrArg List.length (startedIn_ofElement parent number element)
  rwa [List.length_map, List.length_range'] at hlength

mutual

/-- Of the elements that are started for an element each is ended once. -/
theorem endedIn_ofElement (parent number : Nat) : ∀ (element : Element),
    (endedIn (ofElement parent number element)).Perm (List.range' number element.count)
  | .mk name attrs children body => by
    have hchildren := endedIn_ofElements number (number + 1) children
    have hended : endedIn (ofElement parent number (.mk name attrs children body)) =
        endedIn (ofElements number (number + 1) children) ++ [number] := by
      rw [ofElement]
      simp
    rw [hended, Element.count, List.range'_succ]
    exact (List.perm_append_singleton _ _).trans (hchildren.cons number)

/-- Writing elements ends every element that it starts, each once. -/
theorem endedIn_ofElements (parent number : Nat) : ∀ (elements : List Element),
    (endedIn (ofElements parent number elements)).Perm
      (List.range' number (Element.countOfAll elements))
  | [] => by
    rw [ofElements, Element.countOfAll]
    exact .nil
  | element :: rest => by
    have hfirst := endedIn_ofElement parent number element
    have hrest := endedIn_ofElements parent (number + element.count) rest
    rw [ofElements, Element.countOfAll, endedIn_append, ← List.range'_append_1]
    exact hfirst.append hrest

end

mutual

/-- The calls for an element are balanced: they leave the elements open that were open before. -/
theorem foldl_effect_ofElement (parent number : Nat) : ∀ (element : Element) (opened : List Frame),
    (∀ frame ∈ opened, frame.element < number) →
    (ofElement parent number element).foldl effect opened = opened
  | .mk name attrs children body, opened, h => by
    have hinner : ∀ frame ∈ opened ++ [⟨number, name⟩], frame.element < number + 1 := by
      simp only [List.forall_mem_append, List.forall_mem_singleton]
      exact ⟨fun frame hframe => Nat.lt_succ_of_lt (h frame hframe), Nat.lt_succ_self _⟩
    have hopened : opened.filter (fun frame => frame.element != number) = opened := by
      apply List.filter_eq_self.2
      intro frame hframe
      simpa using Nat.ne_of_lt (h frame hframe)
    rw [ofElement, List.foldl_cons, effect, List.foldl_append, foldl_effect_ofAttributes,
      List.foldl_append, foldl_effect_ofElements number (number + 1) children _ hinner,
      List.foldl_append, foldl_effect_ofText, List.foldl_cons, effect, List.filter_append, hopened]
    simp

/-- Writing elements leaves open what was. -/
theorem foldl_effect_ofElements (parent number : Nat) :
    ∀ (elements : List Element) (opened : List Frame),
      (∀ frame ∈ opened, frame.element < number) →
      (ofElements parent number elements).foldl effect opened = opened
  | [], opened, _ => by
    rw [ofElements]
    rfl
  | element :: rest, opened, h => by
    have hrest : ∀ frame ∈ opened, frame.element < number + element.count :=
      fun frame hframe => Nat.lt_of_lt_of_le (h frame hframe) (Nat.le_add_right _ _)
    rw [ofElements, List.foldl_append, foldl_effect_ofElement parent number element opened h,
      foldl_effect_ofElements parent _ rest opened hrest]

end

end Parts

end SinkCall

namespace Recorder

open SinkCall

/-- The recorder after more calls: it knows the names of the elements that they start. -/
def after (calls : List SinkCall) (recorder : Recorder) : Recorder where
  names := ((startedIn calls).map fun frame => (frame.element, frame.name)).reverse ++ recorder.names
  calls := recorder.calls ++ calls
  nextElement := recorder.nextElement + (startedIn calls).length

/-- A recorder that took no call is as it was. -/
@[simp]
theorem after_nil (recorder : Recorder) : recorder.after [] = recorder := by
  simp [after, startedIn]

/-- Calls taken one row after the other are taken as one row. -/
@[simp]
theorem after_after (first second : List SinkCall) (recorder : Recorder) :
    (recorder.after first).after second = recorder.after (first ++ second) := by
  simp [after, Nat.add_assoc]

/-- The next number grows by the elements that calls start. -/
@[simp]
theorem nextElement_after (calls : List SinkCall) (recorder : Recorder) :
    (recorder.after calls).nextElement = recorder.nextElement + (startedIn calls).length :=
  rfl

/-- An element that is not started keeps its name. -/
theorem nameOf_after {calls : List SinkCall} {element : Nat}
    (h : element ∉ (startedIn calls).map Frame.element) (recorder : Recorder) :
    (recorder.after calls).nameOf element = recorder.nameOf element := by
  have hnone : ((startedIn calls).map fun frame => (frame.element, frame.name)).reverse.find?
      (fun entry => entry.1 == element) = none := by
    rw [List.find?_eq_none]
    intro entry hentry
    obtain ⟨frame, hframe, rfl⟩ := List.mem_map.1 (List.mem_reverse.1 hentry)
    simp only [beq_iff_eq]
    rintro rfl
    exact h (List.mem_map_of_mem hframe)
  unfold nameOf after
  rw [List.find?_append, hnone, Option.none_or]

/-- An element that is started has the name with which it was. -/
theorem nameOf_after_of_mem {calls : List SinkCall} {frame : Frame}
    (hnodup : ((startedIn calls).map Frame.element).Nodup) (h : frame ∈ startedIn calls)
    (recorder : Recorder) : (recorder.after calls).nameOf frame.element = frame.name := by
  have hfound : ((startedIn calls).map fun frame => (frame.element, frame.name)).reverse.find?
      (fun entry => entry.1 == frame.element) = some (frame.element, frame.name) := by
    cases hfind : ((startedIn calls).map fun frame => (frame.element, frame.name)).reverse.find?
        (fun entry => entry.1 == frame.element) with
    | none =>
      have hall := List.find?_eq_none.1 hfind (frame.element, frame.name)
        (List.mem_reverse.2 (List.mem_map_of_mem h))
      exact absurd (beq_self_eq_true _) hall
    | some entry =>
      obtain ⟨other, hother, rfl⟩ :=
        List.mem_map.1 (List.mem_reverse.1 (List.mem_of_find?_eq_some hfind))
      have hsame : other.element = frame.element := by simpa using List.find?_some hfind
      obtain rfl := List.inj_on_of_nodup_map hnodup hother h hsame
      rfl
  unfold nameOf after
  rw [List.find?_append, hfound]
  rfl

section Runs

variable (recorder : Recorder)

/-- A recorder takes the start of an element and numbers it. -/
theorem startElement_run (parent : Nat) (name : String) :
    (Sink.startElement parent name).run recorder =
      (.ok recorder.nextElement, recorder.after [.start parent recorder.nextElement name]) :=
  rfl

/-- A recorder takes an attribute as one call. -/
theorem setAttribute_run (element : Nat) (name value : String) :
    (Sink.setAttribute element name value).run recorder =
      (.ok (), recorder.after [.attr element name value]) :=
  rfl

/-- A recorder takes a text as one call, and an empty one as none. -/
theorem writeText_run (element : Nat) (body : String) :
    (Sink.writeText element body).run recorder = (.ok (), recorder.after (ofText element body)) := by
  show (writeText element body).run recorder = _
  unfold writeText ofText
  split
  · rw [after_nil]
    rfl
  · rfl

/-- A recorder takes the end of an element with its name. -/
theorem endElement_run (element : Nat) :
    (Sink.endElement element).run recorder =
      (.ok (), recorder.after [.ended element (recorder.nameOf element)]) :=
  rfl

/-- A recorder takes attributes in their order. -/
theorem writeAttributes_run (element : Nat) (entries : List (String × String)) :
    (Document.writeAttributes element entries).run recorder =
      (.ok (), recorder.after (ofAttributes element entries)) := by
  induction entries generalizing recorder with
  | nil =>
    rw [ofAttributes, List.map_nil, after_nil]
    rfl
  | cons entry rest ih =>
    unfold Document.writeAttributes
    rw [Action.run_bind_of_ok (setAttribute_run recorder element entry.1 entry.2), ih, after_after]
    rfl

mutual

/-- Writing an element below a parent adds its calls. -/
theorem writeElement_run (parent : Nat) : ∀ (element : Element) (recorder : Recorder),
    (Document.writeElement parent element).run recorder =
      (.ok (), recorder.after (ofElement parent recorder.nextElement element))
  | .mk name attrs children body, recorder => by
    let number := recorder.nextElement
    let inner := [.start parent number name] ++ ofAttributes number attrs ++
      ofElements number (number + 1) children ++ ofText number body
    have hstarted : startedIn inner =
        ⟨number, name⟩ :: startedIn (ofElements number (number + 1) children) := by
      simp [inner]
    -- the elements inside have higher numbers, so that the element keeps its name
    have hname : (recorder.after inner).nameOf number = name := by
      have hnodup : ((startedIn inner).map Frame.element).Nodup := by
        rw [hstarted, List.map_cons, startedIn_ofElements, ← List.range'_succ]
        exact List.nodup_range'
      have hmem : (⟨number, name⟩ : Frame) ∈ startedIn inner := by simp [hstarted]
      exact nameOf_after_of_mem hnodup hmem recorder
    unfold Document.writeElement
    rw [Action.run_bind_of_ok (startElement_run recorder parent name),
      Action.run_bind_of_ok (writeAttributes_run _ number attrs), after_after,
      Action.run_bind_of_ok (writeElements_run number children _), after_after,
      Action.run_bind_of_ok (writeText_run _ number body), after_after, endElement_run]
    have hnext : (recorder.after ([.start parent number name] ++ ofAttributes number attrs)).nextElement =
        number + 1 := by simp [number]
    rw [hnext, hname, after_after, ofElement]
    simp [number]

/-- A recorder takes elements in their order, with their descendants. -/
theorem writeElements_run (parent : Nat) : ∀ (elements : List Element) (recorder : Recorder),
    (Document.writeElements parent elements).run recorder =
      (.ok (), recorder.after (ofElements parent recorder.nextElement elements))
  | [], recorder => by
    rw [ofElements, after_nil]
    rfl
  | element :: rest, recorder => by
    unfold Document.writeElements
    rw [Action.run_bind_of_ok (writeElement_run parent element recorder),
      writeElements_run parent rest, after_after, ofElements, nextElement_after,
      length_startedIn_ofElement]

end

/-- Closing open elements one inside the other ends them, the innermost first. -/
theorem close_chain_run (frame : Frame) (deeper : List Frame)
    (h : ∀ opened ∈ frame :: deeper, recorder.nameOf opened.element = opened.name) :
    (OpenElement.close (.chain frame.element deeper)).run recorder =
      (.ok (), recorder.after (ends (frame :: deeper))) := by
  induction deeper generalizing frame with
  | nil =>
    have hend := endElement_run recorder frame.element
    rw [h frame List.mem_cons_self] at hend
    exact hend
  | cons inner rest ih =>
    have hbelow := ih inner fun opened hopened => h opened (List.mem_cons_of_mem _ hopened)
    have hname : (recorder.after (ends (inner :: rest))).nameOf frame.element = frame.name := by
      rw [nameOf_after (by simp), h frame List.mem_cons_self]
    have hchildren : (OpenElement.closeChildren
        [(inner.name, OpenElement.chain inner.element rest)]).run recorder =
          (.ok (), recorder.after (ends (inner :: rest))) := by
      unfold OpenElement.closeChildren
      rw [Action.run_bind_of_ok hbelow]
      rfl
    have hsplit : ends (frame :: inner :: rest) =
        ends (inner :: rest) ++ [.ended frame.element frame.name] := by
      simp [ends]
    rw [OpenElement.chain, OpenElement.close, Action.run_bind_of_ok hchildren, endElement_run, hname,
      after_after, hsplit]

/-- Opening names below an element in which nothing is open starts them one inside the other. -/
theorem openBelow_run (names : List String) (element : Nat) (recorder : Recorder) :
    OpenElement.openBelow names (.chain element []) recorder =
      (.ok (OpenElement.innermost element (Frame.numbered recorder.nextElement names)),
        .chain element (Frame.numbered recorder.nextElement names),
        recorder.after (starts element (Frame.numbered recorder.nextElement names))) := by
  induction names generalizing element recorder with
  | nil =>
    rw [Frame.numbered, starts, after_nil]
    rfl
  | cons name rest ih =>
    have hbelow := ih recorder.nextElement
      (recorder.after [.start element recorder.nextElement name])
    have hstart : Sink.startElement element name recorder =
        (.ok recorder.nextElement, recorder.after [.start element recorder.nextElement name]) := rfl
    rw [OpenElement.openBelow, OpenElement.child?_chain_nil]
    simp only [OpenElement.chain, OpenElement.element] at hbelow ⊢
    rw [hstart]
    simp only [hbelow, after_after]
    exact congrArg (fun node => (_, node, _)) (OpenElement.setChild_chain_nil element
      ⟨recorder.nextElement, name⟩ (Frame.numbered (recorder.nextElement + 1) rest))

end Runs

end Recorder

end XmlWorkload
