import XmlWorkload.Proofs.Document.Closing
import XmlWorkload.Proofs.Template.Faults

/-!
# Histories of documents

A history is a row of emissions to one document, some of which may be refused.  Main statements: a
history without failures leads to the reference document of the emissions that were taken
(`reference_of_history`), and what an emission to a live document comes to depends on the emission
alone (`verdict_of_emit`).
-/

set_option autoImplicit false

namespace XmlWorkload.Document

/-- Emissions to a document one after the other, whatever becomes of each, with their results. -/
def emitAll {σ : Type} [Sink σ] :
    List Emission → Document σ → List (Except Error Unit) × Document σ
  | [], document => ([], document)
  | emission :: rest, document =>
    let first := (emit emission.path emission.template).run document
    let others := emitAll rest first.2
    (first.1 :: others.1, others.2)

/-- The emissions that were granted, given the results of all of them. -/
def grantedAll : List Emission → List (Except Error Unit) → List Emission
  | emission :: rest, result :: results => granted emission result ++ grantedAll rest results
  | _, _ => []

/-- A request is granted or refused for a fault of its own. -/
def Tolerable (result : Except Error Unit) : Prop :=
  ∀ error, result = .error error → error.severity = .configuration

variable {ω : Type} [Output ω] {reliable : Output.Reliable ω} {front : ByteArray} {root : String}
  {emissions : List Emission} {document : Document (XmlStream ω)}

/-- A document follows the emissions of a history that were granted. -/
theorem Follows.emitAll (h : Follows reliable front root emissions document)
    (more : List Emission) :
    Follows reliable front root (emissions ++ grantedAll more (emitAll more document).1)
      (emitAll more document).2 := by
  induction more generalizing emissions document with
  | nil =>
    rw [Document.emitAll, grantedAll, List.append_nil]
    · exact h
    · intro emission rest result results hnil
      cases hnil
  | cons emission rest ih =>
    have hrest := ih (h.emit emission)
    rw [List.append_assoc] at hrest
    exact hrest

/-- A live document stays live unless a request fails for another reason than a fault of its own. -/
theorem live_of_emit (h : Follows reliable front root emissions document)
    (hlive : document.status = .live) {emission : Emission}
    (htolerable : Tolerable ((emit emission.path emission.template).run document).1) :
    ((emit emission.path emission.template).run document).2.status = .live := by
  by_cases hpath : emission.path = []
  · rw [emit_of_path_eq_nil emission hpath]
    exact hlive
  cases hresolve : emission.template.resolve with
  | error error =>
    rw [emit_of_resolve_eq_error emission hpath hresolve]
    exact hlive
  | ok elements =>
    have hemit := emit_of_follows emission h hlive hpath hresolve
    cases hnames : Name.firstInvalid? (emittedNames emission elements) with
    | none =>
      rw [hnames] at hemit
      obtain ⟨left, hrun, hstatus, -⟩ := hemit
      rw [hrun]
      exact hstatus
    | some name =>
      rw [hnames] at hemit
      obtain ⟨left, hrun, -⟩ := hemit
      rw [hrun] at htolerable
      have hseverity := htolerable (.invalidName name) rfl
      cases hseverity

/-- A live document stays live while emissions are granted or refused for their configuration. -/
theorem live_of_emitAll (h : Follows reliable front root emissions document)
    (hlive : document.status = .live) {more : List Emission}
    (htolerable : ∀ result ∈ (emitAll more document).1, Tolerable result) :
    (emitAll more document).2.status = .live := by
  induction more generalizing emissions document with
  | nil => exact hlive
  | cons emission rest ih =>
    have hfirst := live_of_emit h hlive (htolerable _ List.mem_cons_self)
    apply ih (h.emit emission) hfirst
    intro result hresult
    exact htolerable result (List.mem_cons_of_mem _ hresult)

/-- An empty template has no children. -/
theorem resolve_empty : Template.empty.resolve = .ok [] := by
  rw [Template.resolve]
  have htexts : Template.empty.checkTexts = .ok () := by rfl
  have hentries : Template.empty.children.entries = [] := rfl
  rw [htexts, hentries, Template.resolveEntries]
  rfl

/-- The empty template at the path `a` is granted by a document in which nothing was written, and an
empty path is refused. -/
theorem emitAll_small :
    (emitAll [⟨["a"], .empty⟩, ⟨[], .empty⟩] (new "d" (XmlStream.start Memory.unlimited "r"))).1 =
      [.ok (), .error .emptyPath] ∧
    (emitAll [⟨["a"], .empty⟩, ⟨[], .empty⟩]
      (new "d" (XmlStream.start Memory.unlimited "r"))).2.status = .live := by
  have hshows : XmlStream.Shows Memory.reliable .empty (Draft.new "r")
      (XmlStream.start Memory.unlimited "r") := ⟨⟨rfl, rfl⟩, rfl, rfl, rfl, by decide⟩
  have hemit := emit_of_follows ⟨["a"], .empty⟩ (follows_new "d" hshows) rfl (by decide)
    resolve_empty
  have hvalid : Name.firstInvalid? (emittedNames ⟨["a"], .empty⟩ []) = none := by decide
  rw [hvalid] at hemit
  obtain ⟨left, hrun, hstatus, -⟩ := hemit
  simp only [emitAll, hrun]
  exact ⟨rfl, hstatus⟩

/-- For every valid root name a document can be made on an output that takes everything.  After any
emissions each of which is granted or refused for a fault of its own, closing the document succeeds,
and the whole text that was written is the reference document of the granted emissions. -/
theorem reference_of_history (reliable : Output.Reliable ω) {output : ω}
    (hholds : reliable.holds output) {root : String} (hroot : Name.validate root = .ok ())
    (declared : Bool) :
    ∃ stream, XmlStream.create output root declared = (.ok stream, stream.output) ∧
      ∀ (label : String) (emissions : List Emission),
        (∀ result ∈ (emitAll emissions (new label stream)).1, Tolerable result) →
        ∃ closed text,
          close.run (emitAll emissions (new label stream)).2 = (.ok (), closed) ∧
          Reference.text? declared root
              (grantedAll emissions (emitAll emissions (new label stream)).1) = some text ∧
            reliable.settled closed.sink.output ∧
              reliable.taken closed.sink.output = reliable.taken output ++ text.toUTF8 := by
  obtain ⟨stream, hcreate, hshows⟩ :=
    create_ok hholds ((Name.validate_eq_ok_iff root).1 hroot) declared
  refine ⟨stream, hcreate, ?_⟩
  intro label emissions htolerable
  have hnew := follows_new label hshows
  have hlive := live_of_emitAll hnew rfl htolerable
  obtain ⟨closed, hclose, hstatus, hfollows⟩ := close_of_live (hnew.emitAll emissions) hlive
  have hclosed := hfollows.2
  rw [hstatus] at hclosed
  obtain ⟨tree, htree, hsettled, htaken⟩ := hclosed
  refine ⟨closed, Reference.prologue declared ++ tree.render, hclose, ?_, hsettled, ?_⟩
  · rw [List.nil_append] at htree
    rw [Reference.text?, htree]
    rfl
  · rw [htaken, Text.toUTF8_append, ByteArray.append_assoc]

/-- An element without content below the root, with a refused request after it. -/
theorem reference_of_history_small :
    Memory.reliable.holds Memory.unlimited ∧ Name.validate "r" = .ok () ∧
      ∃ closed,
        close.run (emitAll [⟨["a"], .empty⟩, ⟨[], .empty⟩]
            (new "d" (XmlStream.start Memory.unlimited "r"))).2 = (.ok (), closed) ∧
          closed.sink.output.bytes = "<r><a/></r>".toUTF8 := by
  have hholds : Memory.reliable.holds Memory.unlimited := ⟨rfl, rfl⟩
  have hroot : Name.validate "r" = .ok () := by rfl
  refine ⟨hholds, hroot, ?_⟩
  obtain ⟨stream, hcreate, h⟩ := reference_of_history Memory.reliable hholds hroot false
  have hstream : XmlStream.create Memory.unlimited "r" false =
      (.ok (XmlStream.start Memory.unlimited "r"), Memory.unlimited) := by rfl
  obtain rfl : stream = XmlStream.start Memory.unlimited "r" := by
    rw [hstream] at hcreate
    cases hcreate
    rfl
  have hresults := emitAll_small.1
  obtain ⟨closed, text, hclose, htext, -, htaken⟩ := h "d" [⟨["a"], .empty⟩, ⟨[], .empty⟩] (by
    rw [hresults]
    intro result hmem error herror
    simp only [List.mem_cons, List.not_mem_nil, or_false] at hmem
    rcases hmem with rfl | rfl <;> cases herror
    rfl)
  refine ⟨closed, hclose, ?_⟩
  have htext' : Reference.text? false "r" [⟨["a"], .empty⟩] = some "<r><a/></r>" := by
    simp [Reference.text?, Reference.tree?, Reference.grown?, Reference.grow?, resolve_empty]
    decide
  have hgranted : grantedAll [⟨["a"], .empty⟩, ⟨[], .empty⟩] [.ok (), .error .emptyPath] =
      [⟨["a"], .empty⟩] := rfl
  rw [hresults, hgranted, htext'] at htext
  cases htext
  have hempty : Memory.reliable.taken Memory.unlimited = .empty := rfl
  rw [hempty, ByteArray.empty_append] at htaken
  exact htaken

/-- A document that could be made follows nothing at first. -/
theorem follows_of_create {output left : ω} (hholds : reliable.holds output) {declared : Bool}
    {stream : XmlStream ω} (hcreate : XmlStream.create output root declared = (.ok stream, left))
    (label : String) :
    Follows reliable (reliable.taken output ++ (Reference.prologue declared).toUTF8) root []
      (new label stream) := by
  obtain ⟨stream', hcreate', hshows⟩ := create_ok hholds (isValid_of_create hcreate) declared
  rw [hcreate'] at hcreate
  cases hcreate
  exact follows_new label hshows

/-- Let a document be live after any emissions on an output that takes everything.  The next one is
granted exactly when its path has a name, its template resolves, and all names that it puts down are
valid.  A fault of the path or the template leaves the document as it is, and otherwise the first
name that is not valid is the reason why the document fails.  Nothing is out of order, and no
character is refused once the template was resolved. -/
theorem verdict_of_emit (reliable : Output.Reliable ω) {output : ω}
    (hholds : reliable.holds output) {root : String} {declared : Bool} {stream : XmlStream ω}
    {left : ω} (hcreate : XmlStream.create output root declared = (.ok stream, left))
    (label : String) (emissions : List Emission)
    (hlive : (emitAll emissions (new label stream)).2.status = .live) (path : List String)
    (template : Template) :
    let document := (emitAll emissions (new label stream)).2
    let outcome := (emit path template).run document
    (outcome.1 = .ok () ↔ path ≠ [] ∧ ∃ elements, template.resolve = .ok elements ∧
      ∀ name ∈ emittedNames ⟨path, template⟩ elements, Name.validate name = .ok ()) ∧
    (path = [] → outcome = (.error .emptyPath, document)) ∧
    (path ≠ [] → ∀ error, template.resolve = .error error →
      outcome = (.error error, document)) ∧
    (path ≠ [] → ∀ elements, template.resolve = .ok elements →
      ∀ name, Name.firstInvalid? (emittedNames ⟨path, template⟩ elements) = some name →
        outcome.1 = .error (.invalidName name) ∧
          outcome.2.status = .failed (.invalidName name)) ∧
    (∀ fault, outcome.1 ≠ .error (.outOfOrder fault)) ∧
    (∀ field fault, outcome.1 = .error (.invalidContent field fault) →
      template.resolve = .error (.invalidContent field fault)) := by
  intro document outcome
  have hfollows := (follows_of_create hholds hcreate label).emitAll emissions
  -- the checks come in this order, and each of the first two leaves the document alone
  by_cases hpath : path = []
  · have hrun : outcome = (.error .emptyPath, document) :=
      emit_of_path_eq_nil ⟨path, template⟩ hpath
    rw [hrun]
    simp [hpath]
  cases hresolve : template.resolve with
  | error error =>
    have hrun : outcome = (.error error, document) :=
      emit_of_resolve_eq_error ⟨path, template⟩ hpath hresolve
    have hseverity := Template.severity_of_resolve hresolve
    rw [hrun]
    refine ⟨by simp, by simp [hpath], ?_, by simp, ?_, ?_⟩
    · intro _ error' herror
      cases herror
      rfl
    · rintro fault ⟨⟩
      cases hseverity
    · rintro field fault ⟨⟩
      rfl
  | ok elements =>
    have hemit := emit_of_follows ⟨path, template⟩ hfollows hlive hpath hresolve
    cases hnames : Name.firstInvalid? (emittedNames ⟨path, template⟩ elements) with
    | none =>
      rw [hnames] at hemit
      obtain ⟨left, hrun, -⟩ := hemit
      have hrun' : outcome = (.ok (), left) := hrun
      have hvalid : ∀ name ∈ emittedNames ⟨path, template⟩ elements,
          Name.validate name = .ok () := by
        intro name hname
        exact (Name.validate_eq_ok_iff name).2 (Name.firstInvalid?_eq_none_iff.1 hnames name hname)
      rw [hrun']
      refine ⟨⟨fun _ => ⟨hpath, elements, rfl, hvalid⟩, fun _ => rfl⟩, fun h => absurd h hpath,
        ?_, ?_, ?_, ?_⟩
      · rintro _ error ⟨⟩
      · rintro _ elements' ⟨⟩ name hname
        rw [hnames] at hname
        cases hname
      · rintro fault ⟨⟩
      · rintro field fault ⟨⟩
    | some name =>
      rw [hnames] at hemit
      obtain ⟨left, hrun, hstatus, -⟩ := hemit
      have hrun' : outcome = (.error (.invalidName name), left) := hrun
      obtain ⟨hmem, hinvalid⟩ := Name.of_firstInvalid?_eq_some hnames
      rw [hrun']
      refine ⟨⟨?_, ?_⟩, fun h => absurd h hpath, ?_, ?_, ?_, ?_⟩
      · rintro ⟨⟩
      · rintro ⟨-, elements', ⟨⟩, hvalid⟩
        have := (Name.validate_eq_ok_iff name).1 (hvalid name hmem)
        rw [hinvalid] at this
        cases this
      · rintro _ error ⟨⟩
      · rintro _ elements' ⟨⟩ name' hname
        rw [hnames] at hname
        cases hname
        exact ⟨rfl, hstatus⟩
      · rintro fault ⟨⟩
      · rintro field fault ⟨⟩

/-- After one element another one is refused whose path has something in it that is no name. -/
theorem verdict_of_emit_small :
    Memory.reliable.holds Memory.unlimited ∧
      XmlStream.create Memory.unlimited "r" false =
        (.ok (XmlStream.start Memory.unlimited "r"), Memory.unlimited) ∧
      (emitAll [⟨["a"], .empty⟩, ⟨[], .empty⟩]
        (new "d" (XmlStream.start Memory.unlimited "r"))).2.status = .live ∧
      ((emit ["a", "1"] .empty).run (emitAll [⟨["a"], .empty⟩, ⟨[], .empty⟩]
        (new "d" (XmlStream.start Memory.unlimited "r"))).2).1 = .error (.invalidName "1") := by
  have hholds : Memory.reliable.holds Memory.unlimited := ⟨rfl, rfl⟩
  have hcreate : XmlStream.create Memory.unlimited "r" false =
      (.ok (XmlStream.start Memory.unlimited "r"), Memory.unlimited) := by rfl
  have hlive := emitAll_small.2
  have hverdict := verdict_of_emit Memory.reliable hholds hcreate "d"
    [⟨["a"], .empty⟩, ⟨[], .empty⟩] hlive ["a", "1"] .empty
  obtain ⟨-, -, -, hfails, -⟩ := hverdict
  have hinvalid := hfails (by decide) [] resolve_empty "1" (by decide)
  exact ⟨hholds, hcreate, hlive, hinvalid.1⟩

end XmlWorkload.Document
