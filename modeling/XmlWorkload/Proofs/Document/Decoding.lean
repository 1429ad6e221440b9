import XmlWorkload.Proofs.Document.History
import XmlWorkload.Proofs.Markup.Reading

/-!
# Reading documents back

The reference document of emissions that can be written is a tree that can be read back: its texts
are never empty, and the next thing behind a text is always an element.  Main statement: what a
document has written when it is closed is read back as the reference document of its emissions, so
that documents with different reference documents differ in their texts
(`Document.reading_of_history`).
-/

set_option autoImplicit false

namespace XmlWorkload

namespace Markup

open CharacterData (Carries)

/-- Parts in a row can be read back when those before and those behind a point can, unless there is
a text on both sides of it. -/
theorem readableAll_append {before behind : List Markup} :
    ReadableAll (before ++ behind) ↔ ReadableAll before ∧ ReadableAll behind ∧
      ∀ last ∈ before.getLast?, IsText last → ∀ next ∈ behind.head?, ¬ IsText next := by
  induction before with
  | nil => simp [ReadableAll]
  | cons node rest ih =>
    cases rest with
    | nil =>
      simp only [List.singleton_append, ReadableAll, List.head?_nil, List.getLast?_singleton,
        Option.mem_def, Option.some.injEq, forall_eq', reduceCtorEq, false_imp_iff, implies_true,
        and_true]
      rw [and_comm (b := ReadableAll behind)]
    | cons second others =>
      have hlast : (node :: second :: others).getLast? = (second :: others).getLast? :=
        List.getLast?_cons_cons
      have hhead : (second :: others ++ behind).head? = (second :: others).head? := rfl
      rw [List.cons_append, ReadableAll, ih, ReadableAll.eq_2 node, hlast, hhead]
      simp only [and_assoc]

/-- Elements in front do not keep what stands behind them from being read back. -/
theorem readableAll_append_of_last {before behind : List Markup}
    (hlast : ∀ last ∈ before.getLast?, ¬ IsText last) (hbefore : ReadableAll before)
    (hbehind : ReadableAll behind) : ReadableAll (before ++ behind) := by
  refine readableAll_append.2 ⟨hbefore, hbehind, ?_⟩
  intro last hmem htext
  exact absurd htext (hlast last hmem)

/-- A text of characters that can be carried can be read back. -/
theorem readableAll_ofText {body : String} (h : Carries body) : ReadableAll (ofText body) := by
  unfold ofText
  split
  · trivial
  · next hne =>
    refine ⟨⟨hne, h⟩, ?_, trivial⟩
    rintro - next ⟨⟩

/-- An element is not a text. -/
theorem not_isText_ofElement (element : Element) : ¬ IsText (ofElement element) := by
  obtain ⟨name, attrs, children, body⟩ := element
  rw [ofElement]
  exact not_false

/-- The tree of an element is an element, and so is the last of the trees of elements in a row. -/
theorem not_isText_of_mem_ofElements {elements : List Element} {node : Markup}
    (h : node ∈ ofElements elements) : ¬ IsText node := by
  induction elements with
  | nil =>
    rw [ofElements] at h
    cases h
  | cons element rest ih =>
    rw [ofElements, List.mem_cons] at h
    rcases h with rfl | h
    · exact not_isText_ofElement element
    · exact ih h

/-- Attributes with valid names and values that can be carried can be read back. -/
theorem readableAttributes_of_forall {attrs : List (String × String)}
    (hnames : ∀ name ∈ attrs.map Prod.fst, Name.isValid name = true)
    (hvalues : ∀ value ∈ attrs.map Prod.snd, Carries value) : ReadableAttributes attrs := by
  intro entry hentry
  exact ⟨hnames _ (List.mem_map_of_mem hentry), hvalues _ (List.mem_map_of_mem hentry)⟩

mutual

/-- The tree of an element can be read back when its names are names and its texts can be
carried. -/
theorem readable_ofElement : ∀ (element : Element),
    (∀ name ∈ element.names, Name.isValid name = true) → (∀ text ∈ element.texts, Carries text) →
    Readable (ofElement element)
  | .mk name attrs children body, hnames, htexts => by
    simp only [Element.names, List.forall_mem_cons, List.forall_mem_append] at hnames
    simp only [Element.texts, List.forall_mem_append, List.forall_mem_singleton] at htexts
    obtain ⟨hname, hattrs, hinner⟩ := hnames
    obtain ⟨⟨hvalues, hchildren⟩, hbody⟩ := htexts
    have hcontent := readableAll_append_of_last
      (fun last hlast => not_isText_of_mem_ofElements (List.mem_of_mem_getLast? hlast))
      (readableAll_ofElements children hinner hchildren) (readableAll_ofText hbody)
    rw [ofElement]
    exact ⟨hname, readableAttributes_of_forall hattrs hvalues, hcontent⟩

/-- The trees of elements in a row can be read back when their names are names and their texts can
be carried. -/
theorem readableAll_ofElements : ∀ (elements : List Element),
    (∀ name ∈ Element.namesOfAll elements, Name.isValid name = true) →
    (∀ text ∈ Element.textsOfAll elements, Carries text) →
    ReadableAll (ofElements elements)
  | [], _, _ => by
    rw [ofElements]
    trivial
  | child :: rest, hnames, htexts => by
    simp only [Element.namesOfAll, List.forall_mem_append] at hnames
    simp only [Element.textsOfAll, List.forall_mem_append] at htexts
    have hrest := readableAll_ofElements rest hnames.2 htexts.2
    rw [ofElements]
    refine ⟨readable_ofElement child hnames.1 htexts.1, ?_, hrest⟩
    intro htext
    exact absurd htext (not_isText_ofElement child)

end

end Markup

namespace Reference

open Markup (IsText Readable ReadableAll ReadableAttributes readableAll_append)

/-- A chain of new elements is one element. -/
theorem not_isText_of_mem_chain {attrs : List (String × String)} {content : List Markup}
    {names : List String} {node : Markup} (h : node ∈ chain attrs content names) :
    ¬ IsText node := by
  match names with
  | [] => cases h
  | [leaf] =>
    cases List.mem_singleton.1 h
    exact not_false
  | name :: second :: rest =>
    cases List.mem_singleton.1 h
    exact not_false

/-- A chain of new elements can be read back when what its last one takes can. -/
theorem readableAll_chain {attrs : List (String × String)} {content : List Markup}
    (hattrs : ReadableAttributes attrs) (hcontent : ReadableAll content) :
    ∀ {names : List String}, (∀ name ∈ names, Name.isValid name = true) →
      ReadableAll (chain attrs content names)
  | [], _ => trivial
  | [leaf], hnames => by
    refine ⟨⟨hnames leaf List.mem_cons_self, hattrs, hcontent⟩, ?_, trivial⟩
    rintro ⟨⟩
  | name :: second :: rest, hnames => by
    obtain ⟨hname, hrest⟩ := List.forall_mem_cons.1 hnames
    refine ⟨⟨hname, ?_, readableAll_chain hattrs hcontent hrest⟩, ?_, trivial⟩
    · rintro entry ⟨⟩
    · rintro ⟨⟩

/-- Putting elements behind what stands at a path leaves something that can be read back. -/
theorem readableAll_graft? {fresh : List Markup} (hfresh : ReadableAll fresh)
    (helements : ∀ node ∈ fresh, ¬ IsText node) :
    ∀ {path : List String} {content grafted : List Markup}, ReadableAll content →
      graft? fresh path content = some grafted → ReadableAll grafted
  | [], content, grafted, hcontent, h => by
    cases h
    refine readableAll_append.2 ⟨hcontent, hfresh, ?_⟩
    intro last _ _ next hnext
    exact helements next (List.mem_of_mem_head? hnext)
  | name :: path, content, grafted, hcontent, h => by
    rw [graft?] at h
    split at h
    · next last attrs inner hlast =>
      split at h
      · obtain ⟨inner', hinner', rfl⟩ := Option.map_eq_some_iff.1 h
        obtain ⟨before, rfl⟩ := List.getLast?_eq_some_iff.1 hlast
        rw [List.dropLast_concat]
        obtain ⟨hbefore, ⟨⟨hname, hattrs, hinner⟩, -, -⟩, -⟩ := readableAll_append.1 hcontent
        have hgrown := readableAll_graft? hfresh helements hinner hinner'
        refine readableAll_append.2 ⟨hbefore, ⟨⟨hname, hattrs, hgrown⟩, ?_, trivial⟩, ?_⟩
        · rintro ⟨⟩
        · rintro last - - next ⟨⟩
          exact not_false
      · cases h
    · cases h

/-- One more emission that can be written keeps the content of the root readable. -/
theorem readableAll_grow? {emission : Emission} (hwritable : Document.IsWritable emission)
    {grown next : List String × List Markup} (h : ReadableAll grown.2)
    (hgrow : grow? grown emission = some next) : ReadableAll next.2 := by
  obtain ⟨elements, hresolve, hnames⟩ := hwritable
  obtain ⟨hbody, hvalues, htexts⟩ := Template.carries_of_resolve hresolve
  have hvalid : ∀ name ∈ Document.emittedNames emission elements, Name.isValid name = true := by
    intro name hname
    exact (Name.validate_eq_ok_iff name).1 (hnames name hname)
  simp only [Document.emittedNames, List.forall_mem_append] at hvalid
  obtain ⟨hpath, hattrs, hinner⟩ := hvalid
  have hcontent := Markup.readableAll_append_of_last
    (fun last hlast => Markup.not_isText_of_mem_ofElements (List.mem_of_mem_getLast? hlast))
    (Markup.readableAll_ofElements elements hinner htexts) (Markup.readableAll_ofText hbody)
  simp only [grow?, hresolve, Except.toOption, Option.bind_eq_bind, Option.bind_some,
    Option.bind_eq_some_iff, Option.pure_def, Option.some.injEq] at hgrow
  obtain ⟨grafted, hgraft, rfl⟩ := hgrow
  refine readableAll_graft? ?_ (fun node hnode => not_isText_of_mem_chain hnode) h hgraft
  refine readableAll_chain (Markup.readableAttributes_of_forall hattrs hvalues) hcontent ?_
  intro name hname
  exact hpath name (List.mem_of_mem_drop hname)

/-- What grows by emissions that can be written can be read back. -/
theorem readableAll_foldlM {emissions : List Emission} {grown last : List String × List Markup}
    (hwritable : ∀ emission ∈ emissions, Document.IsWritable emission)
    (hgrown : ReadableAll grown.2) (h : emissions.foldlM grow? grown = some last) : ReadableAll last.2 := by
  induction emissions generalizing grown with
  | nil =>
    cases h
    exact hgrown
  | cons emission rest ih =>
    obtain ⟨hfirst, hrest⟩ := List.forall_mem_cons.1 hwritable
    rw [List.foldlM_cons, Option.bind_eq_bind, Option.bind_eq_some_iff] at h
    obtain ⟨next, hnext, h⟩ := h
    exact ih hrest (readableAll_grow? hfirst hgrown hnext) h

/-- The written form of the reference document of emissions that can be written is read back as
that document. -/
theorem read?_of_tree? {root : String} (hroot : Name.isValid root = true)
    {emissions : List Emission} (hwritable : ∀ emission ∈ emissions, Document.IsWritable emission)
    {tree : Markup} (h : tree? root emissions = some tree) (declared : Bool) :
    Markup.read? (prologue declared ++ tree.render) = some tree := by
  obtain ⟨⟨path, content⟩, hgrown, rfl⟩ := Option.map_eq_some_iff.1 h
  refine Markup.read?_render ⟨hroot, ?_, ?_⟩ declared
  · rintro entry ⟨⟩
  · exact readableAll_foldlM hwritable (show ReadableAll [] from trivial) hgrown

end Reference

namespace Document

variable {ω : Type} [Output ω] {reliable : Output.Reliable ω} {front : ByteArray} {root : String}
  {emissions : List Emission} {document : Document (XmlStream ω)}

/-- A document grants only what can be written. -/
theorem isWritable_of_granted (h : Follows reliable front root emissions document)
    {emission : Emission}
    (hgranted : ((emit emission.path emission.template).run document).1 = .ok ()) :
    IsWritable emission := by
  obtain ⟨hpath, hlive, -⟩ := of_granted emission hgranted
  rcases emit_of_follows_cases emission h hlive hpath with ⟨hwritable, -⟩ | ⟨-, error, left, hrun⟩
  · exact hwritable
  · rw [hrun] at hgranted
    cases hgranted

/-- Emissions that were all granted can be written. -/
theorem isWritable_of_emitAll (h : Follows reliable front root emissions document)
    {more : List Emission} (hgranted : ∀ result ∈ (emitAll more document).1, result = .ok ()) :
    ∀ emission ∈ more, IsWritable emission := by
  induction more generalizing emissions document with
  | nil => rintro emission ⟨⟩
  | cons emission rest ih =>
    obtain ⟨hfirst, hrest⟩ := List.forall_mem_cons.1 hgranted
    exact List.forall_mem_cons.2 ⟨isWritable_of_granted h hfirst, ih (h.emit emission) hrest⟩

/-- When every request is granted then all of them were. -/
theorem grantedAll_of_granted {more : List Emission}
    (hgranted : ∀ result ∈ (emitAll more document).1, result = .ok ()) :
    grantedAll more (emitAll more document).1 = more := by
  induction more generalizing document with
  | nil => rfl
  | cons emission rest ih =>
    obtain ⟨hfirst, hrest⟩ := List.forall_mem_cons.1 hgranted
    rw [emitAll, grantedAll, hfirst, ih hrest]
    rfl

/-- A row of emissions gives a text: a document that is new on an output that takes everything
grants them all, and closing it succeeds and leaves that text as what it has written. -/
def Gives (reliable : Output.Reliable ω) (root : String) (declared : Bool)
    (emissions : List Emission) (text : String) : Prop :=
  ∃ (output left : ω) (stream : XmlStream ω) (label : String) (closed : Document (XmlStream ω)),
    reliable.holds output ∧ XmlStream.create output root declared = (.ok stream, left) ∧
      (∀ result ∈ (emitAll emissions (new label stream)).1, result = .ok ()) ∧
        close.run (emitAll emissions (new label stream)).2 = (.ok (), closed) ∧
          reliable.taken closed.sink.output = reliable.taken output ++ text.toUTF8

/-- A row of emissions that are all granted gives the written form of its reference document, which
is read back as that document. -/
theorem read_of_emitAll {output : ω} (hholds : reliable.holds output) {declared : Bool}
    {stream : XmlStream ω} {left : ω}
    (hcreate : XmlStream.create output root declared = (.ok stream, left)) (label : String)
    (hgranted : ∀ result ∈ (emitAll emissions (new label stream)).1, result = .ok ()) :
    ∃ closed tree, close.run (emitAll emissions (new label stream)).2 = (.ok (), closed) ∧
      Reference.tree? root emissions = some tree ∧
        reliable.taken closed.sink.output =
            reliable.taken output ++ (Reference.prologue declared ++ tree.render).toUTF8 ∧
          Markup.read? (Reference.prologue declared ++ tree.render) = some tree := by
  have hroot : Name.isValid root = true := isValid_of_create hcreate
  have hnew := follows_of_create hholds hcreate label
  have htolerable : ∀ result ∈ (emitAll emissions (new label stream)).1, Tolerable result := by
    intro result hresult error herror
    rw [hgranted result hresult] at herror
    cases herror
  have hlive := live_of_emitAll hnew rfl htolerable
  obtain ⟨closed, hclose, hstatus, hfollows⟩ := close_of_live (hnew.emitAll emissions) hlive
  have hclosed := hfollows.2
  rw [hstatus, List.nil_append, grantedAll_of_granted hgranted] at hclosed
  obtain ⟨tree, htree, -, htaken⟩ := hclosed
  refine ⟨closed, tree, hclose, htree, ?_, ?_⟩
  · rw [htaken, Text.toUTF8_append, ByteArray.append_assoc]
  · exact Reference.read?_of_tree? hroot (isWritable_of_emitAll hnew hgranted) htree declared

/-- A text that a row of emissions gives is read back as their reference document. -/
theorem Gives.read?_eq {declared : Bool} {text : String}
    (h : Gives reliable root declared emissions text) :
    ∃ tree, Reference.tree? root emissions = some tree ∧ Markup.read? text = some tree := by
  obtain ⟨output, left, stream, label, closed, hholds, hcreate, hgranted, hclose, htaken⟩ := h
  obtain ⟨closed', tree, hclose', htree, htaken', hread⟩ :=
    read_of_emitAll hholds hcreate label hgranted
  rw [hclose'] at hclose
  cases hclose
  rw [htaken', ByteArray.append_right_inj] at htaken
  obtain rfl := String.toByteArray_inj.1 htaken
  exact ⟨tree, htree, hread⟩

/-- Let all of any emissions be granted by a document that is new on an output that takes
everything.  Closing it succeeds, and what was written is a text that a plain reader accepts and
reads as the reference document of the emissions.  So whatever emissions give the same text, at
whatever root and on whatever output, have the same reference document. -/
theorem reading_of_history (reliable : Output.Reliable ω) {output : ω}
    (hholds : reliable.holds output) {root : String} {declared : Bool} {stream : XmlStream ω}
    {left : ω} (hcreate : XmlStream.create output root declared = (.ok stream, left))
    (label : String) (emissions : List Emission)
    (hgranted : ∀ result ∈ (emitAll emissions (new label stream)).1, result = .ok ()) :
    ∃ closed text tree, close.run (emitAll emissions (new label stream)).2 = (.ok (), closed) ∧
      reliable.taken closed.sink.output = reliable.taken output ++ text.toUTF8 ∧
        Reference.tree? root emissions = some tree ∧ Markup.read? text = some tree ∧
          ∀ (ω' : Type) [Output ω'] (reliable' : Output.Reliable ω') (root' : String)
            (declared' : Bool) (emissions' : List Emission),
            Gives reliable' root' declared' emissions' text →
              Reference.tree? root' emissions' = Reference.tree? root emissions := by
  obtain ⟨closed, tree, hclose, htree, htaken, hread⟩ :=
    read_of_emitAll hholds hcreate label hgranted
  refine ⟨closed, _, tree, hclose, htaken, htree, hread, ?_⟩
  intro ω' _ reliable' root' declared' emissions' hgives
  obtain ⟨tree', htree', hread'⟩ := hgives.read?_eq
  rw [htree, htree', ← hread', hread]

/-- A template with markup in an attribute and in its text. -/
def markedUp : Template := ⟨.empty, .ofList [("k", "\"&")], "<b/>"⟩

/-- The template of the example has no children. -/
theorem resolve_markedUp : markedUp.resolve = .ok [] := by
  have htexts : markedUp.checkTexts = .ok () := by rfl
  have hentries : markedUp.children.entries = [] := rfl
  rw [Template.resolve, htexts, hentries, Template.resolveEntries]
  rfl

/-- Markup in an attribute and in a text is read back as the characters that it consists of. -/
theorem reading_of_history_small :
    Memory.reliable.holds Memory.unlimited ∧
      XmlStream.create Memory.unlimited "r" false =
        (.ok (XmlStream.start Memory.unlimited "r"), Memory.unlimited) ∧
      (emitAll [⟨["a"], markedUp⟩] (new "d" (XmlStream.start Memory.unlimited "r"))).1 = [.ok ()] ∧
      ∃ closed text,
        close.run (emitAll [⟨["a"], markedUp⟩] (new "d" (XmlStream.start Memory.unlimited "r"))).2 =
          (.ok (), closed) ∧
        closed.sink.output.bytes = text.toUTF8 ∧
          Markup.read? text =
            some (.element "r" [] [.element "a" [("k", "\"&")] [.text "<b/>"]]) := by
  have hholds : Memory.reliable.holds Memory.unlimited := ⟨rfl, rfl⟩
  have hcreate : XmlStream.create Memory.unlimited "r" false =
      (.ok (XmlStream.start Memory.unlimited "r"), Memory.unlimited) := by rfl
  have hemit := emit_of_follows ⟨["a"], markedUp⟩ (follows_of_create hholds hcreate "d") rfl
    (by decide) resolve_markedUp
  have hvalid : Name.firstInvalid? (emittedNames ⟨["a"], markedUp⟩ []) = none := by decide
  rw [hvalid] at hemit
  obtain ⟨after, hrun, -⟩ := hemit
  have hresults : (emitAll [⟨["a"], markedUp⟩]
      (new "d" (XmlStream.start Memory.unlimited "r"))).1 = [.ok ()] := by
    simp only [emitAll, hrun]
  have htree : Reference.tree? "r" [⟨["a"], markedUp⟩] =
      some (.element "r" [] [.element "a" [("k", "\"&")] [.text "<b/>"]]) := by
    simp [Reference.tree?, Reference.grown?, Reference.grow?, resolve_markedUp]
    rfl
  refine ⟨hholds, hcreate, hresults, ?_⟩
  obtain ⟨closed, text, tree, hclose, htaken, htree', hread, -⟩ :=
    reading_of_history Memory.reliable hholds hcreate "d" [⟨["a"], markedUp⟩] (by simp [hresults])
  rw [htree] at htree'
  cases htree'
  have hempty : Memory.reliable.taken Memory.unlimited = .empty := rfl
  rw [hempty, ByteArray.empty_append] at htaken
  exact ⟨closed, text, hclose, htaken, hread⟩

end Document

end XmlWorkload
