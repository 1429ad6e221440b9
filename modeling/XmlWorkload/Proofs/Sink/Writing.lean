import XmlWorkload.Document.Basic
import XmlWorkload.Proofs.Action
import XmlWorkload.Proofs.Output.Reliable
import XmlWorkload.Proofs.Sink.Draft

/-!
# Writing to a stream

What the operations of a stream on a reliable output do to the draft that the stream shows.  As long
as an operation concerns the innermost open element, attributes come before content, and every text
is one that a document can carry, a text that is no name is the only reason to fail.  Main statement:
writing a resolved element adds its tree to the draft.
-/

set_option autoImplicit false

namespace XmlWorkload

/-- Whether a document can carry a text. -/
def CharacterData.Carries (text : String) : Prop := ∀ c ∈ text.toList, isAllowed c = true

/-- A text that a document can carry passes under every field. -/
theorem CharacterData.check_of_carries {text : String} (h : Carries text) (field : String) :
    check field text = .ok () :=
  (check_eq_ok_iff field text).2 h

namespace XmlStream

variable {ω : Type} [Output ω] (reliable : Output.Reliable ω) (front : ByteArray)

/-- A stream shows a draft: they agree in the open elements, the start tag held back and the next
number, and the output has taken the text of the draft behind what stands in front of it. -/
structure Shows (draft : Draft) (stream : XmlStream ω) : Prop where
  holds : reliable.holds stream.output
  frames : stream.frames = draft.opened.map Unfinished.frame
  heldTag : stream.heldTag = draft.heldTag
  nextElement : stream.nextElement = draft.nextElement
  taken : reliable.taken stream.output = front ++ draft.text.toUTF8

/-- The output of a stream takes everything. -/
def Safe (stream : XmlStream ω) : Prop := reliable.holds stream.output

variable {reliable front} {draft : Draft} {stream : XmlStream ω}

/-- Pieces that are written are taken behind what was written before. -/
theorem emit_ok (stream : XmlStream ω) (pieces : List String) (h : reliable.holds stream.output) :
    ∃ output, (emit pieces).run stream = (.ok (), { stream with output }) ∧ reliable.holds output ∧
      reliable.taken output = reliable.taken stream.output ++ (String.join pieces).toUTF8 := by
  obtain ⟨output, hwrite, hholds, htaken⟩ := reliable.writePieces_ok pieces h
  refine ⟨output, ?_, hholds, htaken⟩
  simp only [Action.run, emit, hwrite]
  rfl

/-- The innermost frame is found for the element at the top. -/
theorem innermostFrame_ok (h : Shows reliable front draft stream) {top : Unfinished}
    {outer : List Unfinished} (hopened : draft.opened = top :: outer) (action : SinkAction) :
    stream.innermostFrame action top.element = .ok top.frame := by
  rw [innermostFrame, h.frames, hopened, List.map_cons]
  exact if_pos rfl

/-- The text of the start tag that is held back, if there is one. -/
def heldText (stream : XmlStream ω) : String :=
  match stream.heldTag with
  | none => ""
  | some tag => String.join (startPieces tag)

/-- Writing the start tag that is held back succeeds on an output that takes everything. -/
theorem writeHeldTag_taken (stream : XmlStream ω) (h : reliable.holds stream.output) :
    ∃ output, writeHeldTag.run stream = (.ok (), { stream with output, heldTag := none }) ∧
      reliable.holds output ∧
      reliable.taken output = reliable.taken stream.output ++ stream.heldText.toUTF8 := by
  obtain ⟨output, frames, held, next⟩ := stream
  cases held with
  | none => exact ⟨output, rfl, h, (ByteArray.append_empty).symm⟩
  | some tag => exact emit_ok ⟨output, frames, none, next⟩ (startPieces tag) h

/-- Writing the start tag that is held back makes the text of a draft full. -/
theorem writeHeldTag_ok (h : Shows reliable front draft stream) :
    ∃ output, writeHeldTag.run stream = (.ok (), { stream with output, heldTag := none }) ∧
      reliable.holds output ∧ reliable.taken output = front ++ draft.fullText.toUTF8 := by
  obtain ⟨output, hrun, hholds, htaken⟩ := writeHeldTag_taken stream h.holds
  refine ⟨output, hrun, hholds, ?_⟩
  rw [htaken, h.taken, heldText, h.heldTag]
  cases hheld : draft.heldTag with
  | none =>
    rw [Draft.text_of_heldTag_eq_none hheld]
    simp
  | some tag =>
    rw [Draft.fullText_of_heldTag_eq_some hheld, Text.toUTF8_append, ByteArray.append_assoc]
    simp [startPieces, StartTag.render, Markup.renderHead, String.join_cons, String.append_assoc]
    rfl

/-- A text that is no name is refused before anything is done for it. -/
theorem startElement_of_not_isValid (h : Shows reliable front draft stream) {top : Unfinished}
    {outer : List Unfinished} (hopened : draft.opened = top :: outer) {name : String}
    (hname : Name.isValid name = false) :
    (startElement top.element name).run stream = (.error (.invalidName name), stream) := by
  unfold startElement
  rw [Action.run_getState_bind,
    Action.run_ofExcept_bind_of_ok (innermostFrame_ok h hopened .startChild),
    Action.run_ofExcept_bind_of_error (Name.validate_of_not_isValid hname)]

variable (reliable front)

/-- Opening a child of the innermost open element puts its name down. -/
theorem startElement_writes {top : Unfinished} {outer : List Unfinished}
    (hopened : draft.opened = top :: outer) (name : String) :
    Action.Writes (Shows reliable front) (Safe reliable) [name] (startElement top.element name)
      draft draft.nextElement (draft.start name) := by
  apply Action.Writes.of_name
  · intro hvalid stream h
    obtain ⟨output, hheld, hholds, htaken⟩ := writeHeldTag_ok h
    refine ⟨{ stream with
      output
      frames := ⟨stream.nextElement, name⟩ :: stream.frames
      heldTag := some ⟨name, []⟩
      nextElement := stream.nextElement + 1 }, ?_, ?_⟩
    · unfold startElement
      rw [Action.run_getState_bind,
        Action.run_ofExcept_bind_of_ok (innermostFrame_ok h hopened .startChild),
        Action.run_ofExcept_bind_of_ok ((Name.validate_eq_ok_iff name).2 hvalid),
        Action.run_bind_of_ok hheld, ← h.nextElement]
      rfl
    · refine ⟨hholds, ?_, ?_, ?_, ?_⟩
      · simp [Draft.start, h.frames, Unfinished.frame, h.nextElement]
      · simp [Draft.start, Draft.heldTag]
      · simp [Draft.start, h.nextElement]
      · rw [htaken, Draft.text_start]
  · intro hinvalid stream h
    exact ⟨stream, startElement_of_not_isValid h hopened hinvalid, h.holds⟩

/-- Setting an attribute of the innermost open element puts the name of the attribute down. -/
theorem setAttribute_writes {top : Unfinished} {outer : List Unfinished}
    (hopened : draft.opened = top :: outer) (hcontent : top.content = []) (name : String)
    {value : String} (hvalue : CharacterData.Carries value) :
    Action.Writes (Shows reliable front) (Safe reliable) [name]
      (setAttribute top.element name value) draft () (draft.setAttributes [(name, value)]) := by
  apply Action.Writes.of_name
  · intro hvalid stream h
    have hheld : stream.heldTag = some ⟨top.name, top.attrs⟩ := by
      rw [h.heldTag, Draft.heldTag, hopened]
      simp [hcontent]
    refine ⟨{ stream with heldTag := some ⟨top.name, top.attrs ++ [(name, value)]⟩ }, ?_, ?_⟩
    · unfold setAttribute
      rw [Action.run_getState_bind,
        Action.run_ofExcept_bind_of_ok (innermostFrame_ok h hopened .setAttribute),
        Action.run_ofExcept_bind_of_ok ((Name.validate_eq_ok_iff name).2 hvalid),
        Action.run_ofExcept_bind_of_ok (CharacterData.check_of_carries hvalue _), hheld]
      rfl
    · refine ⟨h.holds, ?_, ?_, ?_, ?_⟩
      · simp [Draft.setAttributes, hopened, h.frames, Unfinished.frame]
      · simp [Draft.setAttributes, hopened, Draft.heldTag, hcontent]
      · simp [Draft.setAttributes, hopened, h.nextElement]
      · simp [h.taken, Draft.setAttributes, hopened, Draft.text, hcontent]
  · intro hinvalid stream h
    refine ⟨stream, ?_, h.holds⟩
    unfold setAttribute
    rw [Action.run_getState_bind,
      Action.run_ofExcept_bind_of_ok (innermostFrame_ok h hopened .setAttribute),
      Action.run_ofExcept_bind_of_error (Name.validate_of_not_isValid hinvalid)]

/-- Text on the innermost open element is added to its content. -/
theorem writeText_writes {top : Unfinished} {outer : List Unfinished}
    (hopened : draft.opened = top :: outer) {text : String} (htext : CharacterData.Carries text) :
    Action.Writes (Shows reliable front) (Safe reliable) [] (writeText top.element text)
      draft () (draft.append (Markup.ofText text)) := by
  refine Action.Writes.of_ok fun stream h => ?_
  unfold writeText
  rw [Action.run_getState_bind,
    Action.run_ofExcept_bind_of_ok (innermostFrame_ok h hopened .writeText)]
  by_cases hempty : text = ""
  · rw [if_pos hempty, Markup.ofText, if_pos hempty, Draft.append_nil]
    exact ⟨stream, rfl, h⟩
  · rw [if_neg hempty, Markup.ofText, if_neg hempty]
    obtain ⟨output, hheld, hholds, htaken⟩ := writeHeldTag_ok h
    obtain ⟨output', hemit, hholds', htaken'⟩ :=
      emit_ok { stream with output, heldTag := none } [CharacterData.escaped text] hholds
    refine ⟨{ stream with output := output', heldTag := none }, ?_, hholds', ?_, ?_, ?_, ?_⟩
    · rw [Action.run_ofExcept_bind_of_ok (CharacterData.check_of_carries htext _),
        Action.run_bind_of_ok hheld]
      exact hemit
    · simp [Draft.append, hopened, h.frames, Unfinished.frame]
    · exact (Draft.heldTag_append (by simp) draft).symm
    · simp [Draft.append, hopened, h.nextElement]
    · rw [Draft.text_append (by simp), Text.toUTF8_append, ← ByteArray.append_assoc, ← htaken,
        htaken']
      simp [Markup.renderAll, Markup.render]

/-- Closing the innermost open element finishes it. -/
theorem endElement_writes {top : Unfinished} {outer : List Unfinished}
    (hopened : draft.opened = top :: outer) :
    Action.Writes (Shows reliable front) (Safe reliable) [] (endElement top.element)
      draft () draft.finishTop := by
  refine Action.Writes.of_ok fun stream h => ?_
  have hafter : draft.finishTop = Draft.append [top.sealed []] { draft with opened := outer } := by
    rw [Draft.finishTop, hopened]
  have hframes : stream.frames.drop 1 = draft.finishTop.opened.map Unfinished.frame := by
    rw [hafter, h.frames, hopened]
    cases outer <;> simp [Draft.append, Unfinished.frame]
  have hnext : stream.nextElement = draft.finishTop.nextElement := by
    rw [hafter, h.nextElement]
    cases outer <;> simp [Draft.append]
  have htext : draft.finishTop.text =
      (Markup.renderAll draft.finished ++ Draft.writtenAll outer) ++
        Markup.render (top.sealed []) := by
    rw [hafter, Draft.text_append (by simp)]
    simp [Draft.fullText, Markup.renderAll]
  have hheld : (none : Option StartTag) = draft.finishTop.heldTag := by
    rw [hafter, Draft.heldTag_append (by simp)]
  unfold endElement
  rw [Action.run_getState_bind,
    Action.run_ofExcept_bind_of_ok (innermostFrame_ok h hopened .endElement),
    Action.run_change_bind, h.heldTag, Draft.heldTag, hopened]
  by_cases hcontent : top.content = []
  · -- without content the start tag is still held back, and becomes the tag of an empty element
    obtain ⟨output, hemit, hholds, htaken⟩ :=
      emit_ok { stream with frames := stream.frames.drop 1, heldTag := none }
        (emptyPieces ⟨top.name, top.attrs⟩) h.holds
    refine ⟨⟨output, stream.frames.drop 1, none, stream.nextElement⟩, ?_,
      hholds, hframes, hheld, hnext, ?_⟩
    · simp only [hcontent, List.isEmpty_nil, if_true]
      exact hemit
    · rw [htaken, h.taken, htext, Draft.text, hopened]
      simp [hcontent, Unfinished.sealed, Markup.render, emptyPieces, String.join_cons,
        StartTag.render, Markup.renderHead, ByteArray.append_assoc, String.append_assoc]
      rfl
  · obtain ⟨output, hemit, hholds, htaken⟩ :=
      emit_ok { stream with frames := stream.frames.drop 1, heldTag := none }
        (endPieces top.name) h.holds
    refine ⟨⟨output, stream.frames.drop 1, none, stream.nextElement⟩, ?_,
      hholds, hframes, hheld, hnext, ?_⟩
    · simp only [List.isEmpty_iff, hcontent, if_false]
      exact hemit
    · rw [htaken, h.taken, htext, Draft.text, hopened, Unfinished.sealed, List.append_nil,
        Markup.render_of_ne_nil _ _ hcontent]
      simp [hcontent, Draft.fullText, hopened, Draft.writtenAll, Unfinished.written, endPieces,
        String.join_cons, ByteArray.append_assoc, String.append_assoc]

/-- A stream whose draft has no open elements left can be finished, and holds nothing back then. -/
theorem finish_ok (h : Shows reliable front draft stream) (hopened : draft.opened = []) :
    ∃ output, finish.run stream = (.ok (), { stream with output }) ∧ reliable.holds output ∧
      reliable.settled output ∧ reliable.taken output = front ++ draft.text.toUTF8 := by
  obtain ⟨output, hflush, hholds, hsettled, htaken⟩ := reliable.flush_ok h.holds
  refine ⟨output, ?_, hholds, hsettled, by rw [htaken, h.taken]⟩
  have hframes : stream.frames = [] := by rw [h.frames, hopened, List.map_nil]
  simp only [Action.run, finish, hframes, hflush]
  rfl

open Document in
/-- Writing attributes sets them, unless a name is none. -/
theorem writeAttributes_writes (attrs : List (String × String)) {draft : Draft} {top : Unfinished}
    {outer : List Unfinished} (hopened : draft.opened = top :: outer) (hcontent : top.content = [])
    (hvalues : ∀ value ∈ attrs.map Prod.snd, CharacterData.Carries value) :
    Action.Writes (Shows reliable front) (Safe reliable) (attrs.map Prod.fst)
      (writeAttributes top.element attrs) draft () (draft.setAttributes attrs) := by
  induction attrs generalizing draft top with
  | nil =>
    have hsame : draft.setAttributes [] = draft := by
      obtain ⟨opened, finished, next⟩ := draft
      cases opened <;> simp [Draft.setAttributes]
    rw [hsame]
    exact Action.Writes.pure () draft
  | cons entry rest ih =>
    have hfirst := setAttribute_writes reliable front hopened hcontent entry.1
      (hvalues entry.2 (by simp))
    have hset : (draft.setAttributes [entry]).opened =
        { top with attrs := top.attrs ++ [entry] } :: outer := by
      simp [Draft.setAttributes, hopened]
    have hrest := ih hset hcontent fun value hvalue => hvalues value (by simp_all)
    rw [Draft.setAttributes_setAttributes] at hrest
    exact hfirst.bind hrest

open Document in
mutual

/-- Writing an element puts it in with its descendants, unless a name is none. -/
theorem writeElement_writes : ∀ (element : Element) {draft : Draft} {top : Unfinished}
    {outer : List Unfinished}, draft.opened = top :: outer →
    (∀ text ∈ element.texts, CharacterData.Carries text) →
    Action.Writes (Shows reliable front) (Safe reliable) element.names
      (writeElement top.element element) draft ()
      ((draft.append [Markup.ofElement element]).skip element.count)
  | .mk name attrs children body, draft, top, outer, hopened, htexts => by
    let fresh : Unfinished := ⟨draft.nextElement, name, [], []⟩
    let headed := (draft.start name).setAttributes attrs
    let filled := (headed.append (Markup.ofElements children)).skip (Element.countOfAll children)
    let written := filled.append (Markup.ofText body)
    have hheaded : headed.opened = { fresh with attrs } :: draft.opened := rfl
    have hfilled : filled.opened =
        { fresh with attrs, content := Markup.ofElements children } :: draft.opened := rfl
    have hwritten : written.opened = { fresh with
        attrs, content := Markup.ofElements children ++ Markup.ofText body } :: draft.opened := rfl
    -- one action after the other, each on the draft that the one before it leaves
    have hattrs := writeAttributes_writes reliable front attrs
      (show (draft.start name).opened = fresh :: draft.opened from rfl) rfl
      fun value hvalue => htexts value (by simp only [Element.texts, List.mem_append]; simp_all)
    have hchildren := writeElements_writes children hheaded
      fun text htext => htexts text (by simp [Element.texts, htext])
    have htext := writeText_writes reliable front hfilled (htexts body (by simp [Element.texts]))
    have hend := endElement_writes reliable front hwritten
    have hnames : (Element.mk name attrs children body).names =
        [name] ++ (attrs.map Prod.fst ++ (Element.namesOfAll children ++ ([] ++ []))) := by
      simp [Element.names]
    have hdraft : (draft.append [Markup.ofElement (.mk name attrs children body)]).skip
        (Element.mk name attrs children body).count = written.finishTop := by
      obtain ⟨opened, finished, next⟩ := draft
      simp only [] at hopened
      subst hopened
      simp [written, filled, headed, Draft.start, Draft.setAttributes, Draft.append, Draft.skip,
        Draft.finishTop, Unfinished.sealed, Markup.ofElement, Element.count]
      omega
    rw [hnames, hdraft, writeElement]
    apply (startElement_writes reliable front hopened name).bind
    exact hattrs.bind (hchildren.bind (htext.bind hend))

/-- Writing resolved elements below the innermost open one adds their trees. -/
theorem writeElements_writes : ∀ (elements : List Element) {draft : Draft} {top : Unfinished}
    {outer : List Unfinished}, draft.opened = top :: outer →
    (∀ text ∈ Element.textsOfAll elements, CharacterData.Carries text) →
    Action.Writes (Shows reliable front) (Safe reliable) (Element.namesOfAll elements)
      (writeElements top.element elements) draft ()
      ((draft.append (Markup.ofElements elements)).skip (Element.countOfAll elements))
  | [], draft, top, outer, hopened, htexts => by
    have hsame : (draft.append (Markup.ofElements [])).skip (Element.countOfAll []) = draft := by
      simp [Markup.ofElements, Element.countOfAll, Draft.skip]
    rw [hsame]
    exact Action.Writes.pure () draft
  | child :: rest, draft, top, outer, hopened, htexts => by
    have hfirst := writeElement_writes child hopened
      fun text htext => htexts text (by simp [Element.textsOfAll, htext])
    have hnext : ((draft.append [Markup.ofElement child]).skip child.count).opened =
        { top with content := top.content ++ [Markup.ofElement child] } :: outer := by
      simp [Draft.skip, Draft.append, hopened]
    have hrest := writeElements_writes rest hnext
      fun text htext => htexts text (by simp [Element.textsOfAll, htext])
    have hdraft : (draft.append (Markup.ofElements (child :: rest))).skip
        (Element.countOfAll (child :: rest)) =
        (((draft.append [Markup.ofElement child]).skip child.count).append
          (Markup.ofElements rest)).skip (Element.countOfAll rest) := by
      obtain ⟨opened, finished, next⟩ := draft
      cases opened <;>
        simp [Draft.append, Draft.skip, Markup.ofElements, Element.countOfAll, Nat.add_assoc]
    rw [hdraft, writeElements, Element.namesOfAll]
    exact hfirst.bind hrest

end

end XmlStream

end XmlWorkload
