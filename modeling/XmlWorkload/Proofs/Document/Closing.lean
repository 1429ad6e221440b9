import XmlWorkload.Proofs.Document.Emitting

/-!
# Making and closing documents

A document that was just made has followed no emissions, and one that is closed while it is live has
written its reference document.  Main statement: whatever is done to a document, it follows the
emissions that it took and no others.
-/

set_option autoImplicit false

namespace XmlWorkload.Document

variable {ω : Type} [Output ω] {reliable : Output.Reliable ω} {front : ByteArray} {root : String}
  {emissions : List Emission} {document : Document (XmlStream ω)}

/-- A stream with a valid root can be made.  It shows a draft in which nothing was written, behind
the declaration if there is one. -/
theorem create_ok {output : ω} (hholds : reliable.holds output)
    (hroot : Name.isValid root = true) (declared : Bool) :
    ∃ stream, XmlStream.create output root declared = (.ok stream, stream.output) ∧
      XmlStream.Shows reliable (reliable.taken output ++ (Reference.prologue declared).toUTF8)
        (Draft.new root) stream := by
  unfold XmlStream.create
  rw [(Name.validate_eq_ok_iff root).2 hroot]
  cases declared with
  | false =>
    refine ⟨XmlStream.start output root, rfl, hholds, rfl, rfl, rfl, ?_⟩
    simp [XmlStream.start, Reference.prologue, Draft.text, Draft.new, Markup.renderAll,
      Draft.writtenAll]
  | true =>
    obtain ⟨output', hemit, hholds', htaken⟩ := XmlStream.emit_ok (XmlStream.start output root)
      XmlStream.declarationPieces hholds
    have hdeclaration : String.join XmlStream.declarationPieces = Reference.prologue true := by
      decide
    rw [hdeclaration] at htaken
    simp only [Action.run] at hemit
    refine ⟨{ XmlStream.start output root with output := output' }, ?_, hholds', rfl, rfl, rfl, ?_⟩
    · rw [if_pos rfl]
      simp only [hemit]
    · rw [htaken]
      simp [XmlStream.start, Draft.text, Draft.new, Markup.renderAll, Draft.writtenAll]

/-- A stream that could be made has a valid root. -/
theorem isValid_of_create {output left : ω} {declared : Bool} {stream : XmlStream ω}
    (hcreate : XmlStream.create output root declared = (.ok stream, left)) :
    Name.isValid root = true := by
  cases hvalid : Name.isValid root with
  | true => rfl
  | false =>
    rw [XmlStream.create, Name.validate_of_not_isValid hvalid] at hcreate
    cases hcreate

/-- A document on a new stream has followed no emissions. -/
theorem follows_new (label : String) {stream : XmlStream ω}
    (h : XmlStream.Shows reliable front (Draft.new root) stream) :
    Follows reliable front root [] (new label stream) :=
  ⟨h.holds, Draft.new root, Draft.follows_new root, ⟨rfl, h⟩, rfl⟩

/-- A live document can be closed, and has its reference document then. -/
theorem close_of_live (h : Follows reliable front root emissions document)
    (hlive : document.status = .live) :
    ∃ left, close.run document = (.ok (), left) ∧ left.status = .closed ∧
      Follows reliable front root emissions left := by
  obtain ⟨draft, hdraft, hshows⟩ := follows_of_live h hlive
  obtain ⟨tree, htree, hsealed⟩ := hdraft.tree?
  obtain ⟨top, spine, hopened, -⟩ := hdraft
  obtain ⟨hnothing, htext⟩ := Draft.finishTops_length draft
  have hclosing := onTree_writes reliable front document draft.cursor
    (OpenTree.closePath_nil_writes reliable front hopened)
  obtain ⟨middle, hmiddle, hleft⟩ := hclosing document hshows
  obtain ⟨output, hfinish, hholds, hsettled, htaken⟩ :=
    XmlStream.finish_ok reliable front hleft.opened.2 hnothing
  have hcomplete : complete.run document =
      (.ok (), { middle with sink := { middle.sink with output } }) := by
    unfold complete
    rw [Action.run_bind_of_ok hmiddle]
    unfold onSink
    rw [Action.run_on]
    have hcall : (Sink.finish : Action (XmlStream ω) Unit).run middle.sink = _ := hfinish
    rw [hcall]
  refine ⟨{ middle with
    sink := { middle.sink with output }, cursor := [], status := .closed }, ?_, rfl, ?_⟩
  · unfold close
    rw [Action.run_getState_bind, hlive]
    simp only []
    rw [Action.run_bind_of_ok (Action.run_attempt _ _), hcomplete]
    rfl
  · refine ⟨hholds, tree, htree, hsettled, ?_⟩
    rw [htaken, htext, hsealed]
    simp [Markup.renderAll]

section Dead

variable {σ : Type} [Sink σ] {document : Document σ}

/-- A closed document can be closed again, and nothing changes. -/
theorem close_of_closed (hclosed : document.status = .closed) :
    close.run document = (.ok (), document) := by
  unfold close
  rw [Action.run_getState_bind, hclosed]
  rfl

/-- A failed document cannot be closed, and the error has the first reason. -/
theorem close_of_failed {reason : Error} (hfailed : document.status = .failed reason) :
    close.run document = (.error (.documentUnusable reason), document) := by
  unfold close
  rw [Action.run_getState_bind, hfailed]
  rfl

/-- Closing a document that is not live changes nothing. -/
theorem close_of_not_live (hlive : document.status ≠ .live) :
    (close.run document).2 = document := by
  cases hstatus : document.status with
  | live => exact absurd hstatus hlive
  | failed reason => rw [close_of_failed hstatus]
  | closed => rw [close_of_closed hstatus]

end Dead

/-- The emission of a request as a row of one, if the request was granted. -/
def granted (emission : Emission) : Except Error Unit → List Emission
  | .ok () => [emission]
  | .error _ => []

/-- Whatever becomes of an emission, a document follows the emissions that it took. -/
theorem Follows.emit (h : Follows reliable front root emissions document) (emission : Emission) :
    let outcome := (emit emission.path emission.template).run document
    Follows reliable front root (emissions ++ granted emission outcome.1) outcome.2 := by
  intro outcome
  by_cases hpath : emission.path = []
  · have hrun : outcome = (.error .emptyPath, document) := emit_of_path_eq_nil emission hpath
    rw [hrun, granted, List.append_nil]
    exact h
  cases hresolve : emission.template.resolve with
  | error error =>
    have hrun : outcome = (.error error, document) := emit_of_resolve_eq_error emission hpath hresolve
    rw [hrun, granted, List.append_nil]
    exact h
  | ok elements =>
    by_cases hlive : document.status = .live
    · have hemit := emit_of_follows emission h hlive hpath hresolve
      cases hnames : Name.firstInvalid? (emittedNames emission elements) with
      | none =>
        rw [hnames] at hemit
        obtain ⟨left, hrun, -, -, hfollows⟩ := hemit
        have hrun' : outcome = (.ok (), left) := hrun
        rw [hrun']
        exact hfollows
      | some name =>
        rw [hnames] at hemit
        obtain ⟨left, hrun, hfailed, hsafe⟩ := hemit
        have hrun' : outcome = (.error (.invalidName name), left) := hrun
        rw [hrun']
        refine ⟨hsafe, ?_⟩
        simp only [hfailed]
    · obtain ⟨error, hrun, -⟩ := emit_of_not_live emission hpath hresolve hlive
      have hrun' : outcome = (.error error, document) := hrun
      rw [hrun', granted, List.append_nil]
      exact h

/-- A document that is closed follows the emissions that it took before, and is not live. -/
theorem Follows.close (h : Follows reliable front root emissions document) :
    Follows reliable front root emissions (close.run document).2 ∧
      (close.run document).2.status ≠ .live := by
  by_cases hlive : document.status = .live
  · obtain ⟨left, hrun, hclosed, hfollows⟩ := close_of_live h hlive
    rw [hrun]
    exact ⟨hfollows, by simp [hclosed]⟩
  · rw [close_of_not_live hlive]
    exact ⟨h, hlive⟩

end XmlWorkload.Document
