import XmlWorkload.Proofs.Document.Growth
import XmlWorkload.Proofs.Template.ResolvedTexts

/-!
# Emitting to a document

A document that is streamed to a reliable output follows the emissions that it took: its stream, its
open elements and its cursor all show one draft, and that draft becomes the reference document of
the emissions.  Main statements: an emission either is refused and leaves the document as it is, or
is taken and the document follows one emission more, or has a name that is none and leaves the
document failed; and a document that is closed has written its reference document.
-/

set_option autoImplicit false

namespace XmlWorkload.Document

variable {ω : Type} [Output ω] (reliable : Output.Reliable ω) (front : ByteArray)

/-- A document shows a draft and a cursor.  In everything that writing does not touch it is as it
was before. -/
structure Shows (before : Document (XmlStream ω)) (shown : Draft × List String)
    (document : Document (XmlStream ω)) : Prop where
  opened : OpenTree.Shows reliable front shown.1 (document.tree, document.sink)
  cursor : document.cursor = shown.2
  status : document.status = before.status
  emitted : document.emitted = before.emitted

/-- The output of a document takes everything. -/
def Safe (document : Document (XmlStream ω)) : Prop := XmlStream.Safe reliable document.sink

variable (before : Document (XmlStream ω))

/-- An action on the open elements does to a document what it does to them. -/
theorem onTree_writes {α : Type} {names : List String} {draft draft' : Draft}
    (cursor : List String) {action : Action (OpenTree × XmlStream ω) α} {value : α}
    (h : Action.Writes (OpenTree.Shows reliable front) (OpenTree.Safe reliable) names action
      draft value draft') :
    Action.Writes (Shows reliable front before) (Safe reliable) names (onTree action)
      (draft, cursor) value (draft', cursor) := by
  apply h.on
  · intro document hshows
    exact hshows.opened
  · intro document left hshows hleft
    exact ⟨hleft, hshows.cursor, hshows.status, hshows.emitted⟩
  · intro document left hsafe
    exact hsafe

/-- An action on the stream that keeps the frames does to a document what it does to the stream. -/
theorem onSink_writes {α : Type} {names : List String} {draft draft' : Draft}
    (cursor : List String) {action : Action (XmlStream ω) α} {value : α}
    (h : Action.Writes (XmlStream.Shows reliable front) (XmlStream.Safe reliable) names action
      draft value draft')
    (hframes : draft'.frames = draft.frames) :
    Action.Writes (Shows reliable front before) (Safe reliable) names (onSink action)
      (draft, cursor) value (draft', cursor) := by
  have htree : draft'.tree = draft.tree := by
    unfold Draft.tree
    rw [hframes]
  apply h.on
  · intro document hshows
    exact hshows.opened.2
  · intro document left hshows hleft
    exact ⟨⟨hshows.opened.1.trans htree.symm, hleft⟩, hshows.cursor, hshows.status, hshows.emitted⟩
  · intro document left hsafe
    exact hsafe

/-- Moving the cursor changes nothing but the cursor. -/
theorem setCursor_writes (draft : Draft) (cursor : List String)
    (move : List String → List String) :
    Action.Writes (Shows reliable front before) (Safe reliable) []
      (Action.change fun document : Document (XmlStream ω) =>
        { document with cursor := move document.cursor })
      (draft, cursor) () (draft, move cursor) := by
  apply Action.Writes.of_ok
  intro document hshows
  refine ⟨_, rfl, hshows.opened, ?_, hshows.status, hshows.emitted⟩
  exact congrArg move hshows.cursor

/-- Once what lies below the level of a path is closed, the rest of the path is opened. -/
theorem moveOn_writes (cursor : List String) {path : List String} {level : Nat} {closed : Draft}
    {top : Unfinished} {above : List Unfinished} (hopened : closed.opened.reverse = top :: above)
    (hpath : closed.cursor ++ path.drop level = path) :
    Action.Writes (Shows reliable front before) (Safe reliable) (path.drop level)
      (do
        Action.change fun document => { document with cursor := document.cursor.take level }
        let leaf ← onTree (OpenTree.openPath path)
        Action.change fun document => { document with cursor := path }
        pure leaf)
      (closed, cursor) (closed.startAll (path.drop level)).innermost
      (closed.startAll (path.drop level), path) := by
  have hcut := setCursor_writes reliable front before closed cursor fun names => names.take level
  have hopen := OpenTree.openPath_writes reliable front (path.drop level) hopened
  rw [hpath] at hopen
  have hset := setCursor_writes reliable front before (closed.startAll (path.drop level))
    (cursor.take level) fun _ => path
  have hnames : path.drop level = [] ++ (path.drop level ++ ([] ++ [])) := by simp
  apply Action.Writes.of_eq hnames
  apply hcut.bind
  apply (onTree_writes reliable front before _ hopen).bind
  apply hset.bind
  exact Action.Writes.pure _ _

/-- Moving to a new element at a path closes what lies below the level of the path and opens the
rest of the path. -/
theorem moveTo_writes (path : List String) {draft : Draft} {top : Unfinished}
    {spine : List Unfinished} (hopened : draft.opened.reverse = top :: spine) :
    let level := Reference.kept draft.cursor path
    let moved := (draft.finishTops (draft.cursor.length - level)).startAll (path.drop level)
    Action.Writes (Shows reliable front before) (Safe reliable) (path.drop level) (moveTo path)
      (draft, draft.cursor) moved.innermost (moved, path) := by
  intro level moved document hshows
  have hcursor := Draft.cursor_eq hopened
  have hlength : draft.cursor.length = spine.length := by rw [hcursor, List.length_map]
  have hlevel : OpenTree.divergence document.cursor path = level := by
    rw [OpenTree.divergence_eq_kept, hshows.cursor]
  have hle : level ≤ spine.length := by
    rw [← hlength]
    exact Reference.kept_le draft.cursor path
  have hsplit : draft.opened = (spine.drop level).reverse ++ (top :: spine.take level).reverse := by
    apply Draft.opened_split
    rw [hopened, List.take_append_drop]
  have hcount : (spine.drop level).reverse.length = draft.cursor.length - level := by
    rw [hlength, List.length_reverse, List.length_drop]
  have hclosed := Draft.finishTops_eq_append hsplit
  obtain ⟨top', above', habove, -, -, hnames, -⟩ := Draft.append_spine
    (Draft.sealAll (spine.drop level).reverse [])
    (show ({ draft with opened := (top :: spine.take level).reverse } : Draft).opened.reverse =
      top :: spine.take level from List.reverse_reverse _)
  rw [← hclosed, hcount] at habove
  have hpath : (draft.finishTops (draft.cursor.length - level)).cursor ++ path.drop level =
      path := by
    rw [Draft.cursor_eq habove, hnames, List.map_take, ← hcursor, Reference.take_kept,
      List.take_append_drop]
  have hon := moveOn_writes reliable front before draft.cursor habove hpath
  unfold moveTo
  rw [Action.run_getState_bind, hlevel, hshows.cursor]
  by_cases hdeeper : level < draft.cursor.length
  · -- the element at the level is open, and everything from it on is closed
    have hlt : level < spine.length := by omega
    have hspine : draft.opened.reverse =
        top :: (spine.take level ++ spine[level] :: spine.drop (level + 1)) := by
      rw [hopened, List.getElem_cons_drop, List.take_append_drop]
    have hclose := OpenTree.closePath_writes reliable front hspine
    have hclosedPath : (spine.take level).map Unfinished.name ++ [spine[level].name] =
        draft.cursor.take (level + 1) := by
      rw [hcursor, ← List.map_take, List.take_succ_eq_append_getElem hlt, List.map_append]
      rfl
    have hnumber : (spine.drop (level + 1)).length + 1 = draft.cursor.length - level := by
      rw [hlength, List.length_drop]
      omega
    rw [hclosedPath, hnumber] at hclose
    have hclose' := onTree_writes reliable front before draft.cursor hclose
    simp only [if_pos hdeeper]
    refine (hclose'.bind ?_ : Action.Writes _ _ ([] ++ path.drop level) _ _ _ _) document hshows
    exact hon
  · -- the path goes on from the innermost element, and nothing is closed
    have hnone : draft.cursor.length - level = 0 := by omega
    simp only [if_neg hdeeper]
    rw [hnone] at hon
    have hmoved : moved = draft.startAll (path.drop level) := by
      simp only [moved, hnone]
      rfl
    rw [hmoved]
    exact hon document hshows

/-- Writing a template that resolves onto a new element puts down the names that the path lacks,
those of the attributes and those of the elements. -/
theorem write_writes {emission : Emission} {elements : List Element} {draft : Draft}
    {top : Unfinished} {spine : List Unfinished} (hopened : draft.opened.reverse = top :: spine)
    (hpath : emission.path ≠ []) (hresolve : emission.template.resolve = .ok elements) :
    Action.Writes (Shows reliable front before) (Safe reliable)
      (emission.path.drop (Reference.kept draft.cursor emission.path) ++
        (emission.template.attrs.entries.map Prod.fst ++ Element.namesOfAll elements))
      (write emission.path emission.template elements) (draft, draft.cursor) ()
      (draft.emit emission elements, emission.path) := by
  let level := Reference.kept draft.cursor emission.path
  let moved := (draft.finishTops (draft.cursor.length - level)).startAll (emission.path.drop level)
  let headed := moved.setAttributes emission.template.attrs.entries
  let filled := (headed.append (Markup.ofElements elements)).skip (Element.countOfAll elements)
  obtain ⟨hbody, hvalues, htexts⟩ := Template.carries_of_resolve hresolve
  obtain ⟨leaf, rest, -, -, hleaf, hmoved⟩ := Draft.exists_leaf
    (draft.finishTops (draft.cursor.length - level)) (Reference.drop_kept_ne_nil hpath)
  let outer := rest ++ (draft.finishTops (draft.cursor.length - level)).opened
  change moved.opened = leaf :: outer at hmoved
  have hheaded : headed.opened =
      { leaf with attrs := leaf.attrs ++ emission.template.attrs.entries } :: outer := by
    simp [headed, Draft.setAttributes, hmoved]
  have hfilled : filled.opened = { leaf with
      attrs := leaf.attrs ++ emission.template.attrs.entries
      content := leaf.content ++ Markup.ofElements elements } :: outer := by
    simp [filled, Draft.skip, Draft.append, hheaded]
  -- the element that was moved to stays the innermost while it is filled
  have hmove := moveTo_writes reliable front before emission.path hopened
  have hattrs := onSink_writes reliable front before emission.path
    (XmlStream.writeAttributes_writes reliable front emission.template.attrs.entries hmoved hleaf
      hvalues)
    (Draft.frames_setAttributes _ _)
  have hchildren := onSink_writes reliable front before emission.path
    (XmlStream.writeElements_writes reliable front elements hheaded htexts)
    (by rw [Draft.frames_skip, Draft.frames_append])
  have htext := onSink_writes reliable front before emission.path
    (XmlStream.writeText_writes reliable front hfilled hbody)
    (Draft.frames_append _ _)
  have hinnermost : moved.innermost = leaf.element := Draft.innermost_eq hmoved
  have hnames : emission.path.drop level ++
      (emission.template.attrs.entries.map Prod.fst ++ Element.namesOfAll elements) =
        emission.path.drop level ++ (emission.template.attrs.entries.map Prod.fst ++
          (Element.namesOfAll elements ++ [])) := by
    rw [List.append_nil]
  apply Action.Writes.of_eq hnames
  apply hmove.bind
  rw [hinnermost]
  apply hattrs.bind
  apply hchildren.bind
  exact htext

section Requests

variable {σ : Type} [Sink σ] {document : Document σ} (emission : Emission)

/-- An emission without a path is refused and changes nothing. -/
theorem emit_of_path_eq_nil (hpath : emission.path = []) :
    (emit emission.path emission.template).run document = (.error .emptyPath, document) := by
  unfold emit
  rw [if_pos hpath]
  rfl

/-- An emission whose template does not resolve is refused with the error of the template. -/
theorem emit_of_resolve_eq_error (hpath : emission.path ≠ []) {error : Error}
    (hresolve : emission.template.resolve = .error error) :
    (emit emission.path emission.template).run document = (.error error, document) := by
  unfold emit
  rw [if_neg hpath, Action.run_ofExcept_bind_of_error hresolve]

/-- An emission to a failed document is refused with the reason of the failure. -/
theorem emit_of_status_eq_failed (hpath : emission.path ≠ []) {elements : List Element}
    (hresolve : emission.template.resolve = .ok elements) {reason : Error}
    (hstatus : document.status = .failed reason) :
    (emit emission.path emission.template).run document =
      (.error (.documentUnusable reason), document) := by
  have hrefused : requireLive.run document = (.error (.documentUnusable reason), document) := by
    simp only [Action.run, requireLive, hstatus]
  rw [emit, if_neg hpath, Action.run_ofExcept_bind_of_ok hresolve,
    Action.run_bind_of_error hrefused]

/-- An emission to a closed document is refused. -/
theorem emit_of_status_eq_closed (hpath : emission.path ≠ []) {elements : List Element}
    (hresolve : emission.template.resolve = .ok elements) (hstatus : document.status = .closed) :
    (emit emission.path emission.template).run document = (.error .documentClosed, document) := by
  have hrefused : requireLive.run document = (.error .documentClosed, document) := by
    simp only [Action.run, requireLive, hstatus]
  rw [emit, if_neg hpath, Action.run_ofExcept_bind_of_ok hresolve,
    Action.run_bind_of_error hrefused]

/-- An emission to a document that is not live is refused with an error of its lifecycle. -/
theorem emit_of_not_live (hpath : emission.path ≠ []) {elements : List Element}
    (hresolve : emission.template.resolve = .ok elements) (hlive : document.status ≠ .live) :
    ∃ error, (emit emission.path emission.template).run document = (.error error, document) ∧
      error.severity = .lifecycle := by
  cases hstatus : document.status with
  | live => exact absurd hstatus hlive
  | failed reason => exact ⟨_, emit_of_status_eq_failed emission hpath hresolve hstatus, rfl⟩
  | closed => exact ⟨_, emit_of_status_eq_closed emission hpath hresolve hstatus, rfl⟩

/-- A live document hands a template that resolves on to be written, and what becomes of that
decides. -/
theorem emit_of_live (hpath : emission.path ≠ []) {elements : List Element}
    (hresolve : emission.template.resolve = .ok elements) (hlive : document.status = .live) :
    (emit emission.path emission.template).run document =
      match (write emission.path emission.template elements).run document with
      | (.ok (), left) => (.ok (), { left with emitted := left.emitted + 1 })
      | (.error error, left) => (.error error, { left with status := .failed error }) := by
  have hrequired : requireLive.run document = (.ok (), document) := by
    simp only [Action.run, requireLive, hlive]
  unfold emit
  rw [if_neg hpath, Action.run_ofExcept_bind_of_ok hresolve, Action.run_bind_of_ok hrequired,
    Action.run_bind_of_ok (Action.run_attempt _ _)]
  rcases hwrite : (write emission.path emission.template elements).run document with
    ⟨⟨⟩ | ⟨⟩, left⟩ <;> rfl

/-- What is granted has a path with a name and a template that resolves, and the document is live. -/
theorem of_granted (h : ((emit emission.path emission.template).run document).1 = .ok ()) :
    emission.path ≠ [] ∧ document.status = .live ∧
      ∃ elements, emission.template.resolve = .ok elements := by
  by_cases hpath : emission.path = []
  · rw [emit_of_path_eq_nil emission hpath] at h
    cases h
  cases hresolve : emission.template.resolve with
  | error error =>
    rw [emit_of_resolve_eq_error emission hpath hresolve] at h
    cases h
  | ok elements =>
    by_cases hlive : document.status = .live
    · exact ⟨hpath, hlive, elements, rfl⟩
    · obtain ⟨error, hrun, -⟩ := emit_of_not_live emission hpath hresolve hlive
      rw [hrun] at h
      cases h

end Requests

/-- The names that an emission puts down, in order: those of its path, of its attributes, and of
the elements that its template resolves to. -/
def emittedNames (emission : Emission) (elements : List Element) : List String :=
  emission.path ++ (emission.template.attrs.entries.map Prod.fst ++ Element.namesOfAll elements)

/-- A document has followed some emissions below a root.  While it is live its stream, its open
elements and its cursor show one draft; once it is closed its output has the reference document,
with nothing held back. -/
def Follows (root : String) (emissions : List Emission) (document : Document (XmlStream ω)) :
    Prop :=
  Safe reliable document ∧
    match document.status with
    | .live => ∃ draft : Draft, draft.Follows root emissions ∧
        OpenTree.Shows reliable front draft (document.tree, document.sink) ∧
          document.cursor = draft.cursor
    | .failed _ => True
    | .closed => ∃ tree, Reference.tree? root emissions = some tree ∧
        reliable.settled document.sink.output ∧
          reliable.taken document.sink.output = front ++ tree.render.toUTF8

section Outcomes

variable {reliable front} {root : String} {emissions : List Emission}
  {document : Document (XmlStream ω)} (emission : Emission)

/-- A live document that has followed emissions shows a draft that has. -/
theorem follows_of_live (h : Follows reliable front root emissions document)
    (hlive : document.status = .live) :
    ∃ draft : Draft, draft.Follows root emissions ∧
      Shows reliable front document (draft, draft.cursor) document := by
  have hshown := h.2
  rw [hlive] at hshown
  obtain ⟨draft, hdraft, hopened, hcursor⟩ := hshown
  exact ⟨draft, hdraft, hopened, hcursor, rfl, rfl⟩

/-- What a live document does with a template that resolves: it takes the emission if all names are
valid, and otherwise fails at the first one that is not. -/
theorem emit_of_follows (h : Follows reliable front root emissions document)
    (hlive : document.status = .live) (hpath : emission.path ≠ []) {elements : List Element}
    (hresolve : emission.template.resolve = .ok elements) :
    match Name.firstInvalid? (emittedNames emission elements) with
    | none => ∃ left,
        (emit emission.path emission.template).run document = (.ok (), left) ∧
          left.status = .live ∧ left.emitted = document.emitted + 1 ∧
            Follows reliable front root (emissions ++ [emission]) left
    | some name => ∃ left,
        (emit emission.path emission.template).run document = (.error (.invalidName name), left) ∧
          left.status = .failed (.invalidName name) ∧ Safe reliable left := by
  obtain ⟨draft, hdraft, hshows⟩ := follows_of_live h hlive
  have hfollowing := hdraft
  obtain ⟨top, spine, hopened, -, -, -, hspine, -⟩ := hdraft
  have hwritten := write_writes reliable front document hopened hpath hresolve document hshows
  let level := Reference.kept draft.cursor emission.path
  -- the names that the path shares with the one before it are those of open elements
  have hkept : ∀ name ∈ emission.path.take level, Name.isValid name = true := by
    intro name hname
    rw [← Reference.take_kept, Draft.cursor_eq hopened] at hname
    obtain ⟨node, hnode, rfl⟩ := List.mem_map.1 (List.mem_of_mem_take hname)
    exact hspine node hnode
  have hsplit : emittedNames emission elements = emission.path.take level ++
      (emission.path.drop level ++
        (emission.template.attrs.entries.map Prod.fst ++ Element.namesOfAll elements)) := by
    rw [← List.append_assoc, List.take_append_drop, emittedNames]
  have hnames : Name.firstInvalid? (emittedNames emission elements) =
      Name.firstInvalid? (emission.path.drop level ++
        (emission.template.attrs.entries.map Prod.fst ++ Element.namesOfAll elements)) := by
    rw [hsplit, Name.firstInvalid?_append_of_valid _ hkept]
  rw [← hnames] at hwritten
  rw [emit_of_live emission hpath hresolve hlive]
  cases hinvalid : Name.firstInvalid? (emittedNames emission elements) with
  | some name =>
    rw [hinvalid] at hwritten
    obtain ⟨left, hrun, hsafe⟩ := hwritten
    rw [hrun]
    exact ⟨_, rfl, rfl, hsafe⟩
  | none =>
    rw [hinvalid] at hwritten
    obtain ⟨left, hrun, hleft⟩ := hwritten
    have hvalid : ∀ name ∈ emission.path, Name.isValid name = true := by
      intro name hname
      exact Name.firstInvalid?_eq_none_iff.1 hinvalid name (List.mem_append_left _ hname)
    have hfollows := hfollowing.emit hpath hresolve hvalid
    have hstatus : left.status = .live := hleft.status.trans hlive
    have hcursor : left.cursor = (draft.emit emission elements).cursor := by
      rw [hleft.cursor]
      obtain ⟨top', spine', hopened', -, -, -, -, hgrown⟩ := hfollows
      rw [Draft.cursor_eq hopened']
      exact (Reference.path_of_grown?_concat hgrown).symm
    rw [hrun]
    refine ⟨_, rfl, hstatus, ?_, hleft.opened.2.holds, ?_⟩
    · exact congrArg (· + 1) hleft.emitted
    · simp only [hstatus]
      exact ⟨_, hfollows, hleft.opened, hcursor⟩

/-- An emission can be written when its template resolves and all names that it puts down are
valid. -/
def IsWritable : Prop :=
  ∃ elements, emission.template.resolve = .ok elements ∧
    ∀ name ∈ emittedNames emission elements, Name.validate name = .ok ()

/-- A live document takes exactly what can be written. -/
theorem emit_of_follows_cases (h : Follows reliable front root emissions document)
    (hlive : document.status = .live) (hpath : emission.path ≠ []) :
    (IsWritable emission ∧ ∃ left,
      (emit emission.path emission.template).run document = (.ok (), left) ∧
        left.status = .live) ∨
    (¬ IsWritable emission ∧ ∃ error left,
      (emit emission.path emission.template).run document = (.error error, left)) := by
  cases hresolve : emission.template.resolve with
  | error error =>
    refine .inr ⟨?_, error, document, emit_of_resolve_eq_error emission hpath hresolve⟩
    rintro ⟨elements, hresolve', -⟩
    rw [hresolve] at hresolve'
    cases hresolve'
  | ok elements =>
    have hemit := emit_of_follows emission h hlive hpath hresolve
    cases hinvalid : Name.firstInvalid? (emittedNames emission elements) with
    | none =>
      rw [hinvalid] at hemit
      obtain ⟨left, hrun, hstill, -⟩ := hemit
      refine .inl ⟨⟨elements, hresolve, ?_⟩, left, hrun, hstill⟩
      intro name hname
      exact (Name.validate_eq_ok_iff name).2 (Name.firstInvalid?_eq_none_iff.1 hinvalid name hname)
    | some name =>
      rw [hinvalid] at hemit
      obtain ⟨left, hrun, -⟩ := hemit
      refine .inr ⟨?_, _, left, hrun⟩
      rintro ⟨elements', hresolve', hvalid⟩
      rw [hresolve] at hresolve'
      cases hresolve'
      obtain ⟨hmem, hbad⟩ := Name.of_firstInvalid?_eq_some hinvalid
      have hgood := (Name.validate_eq_ok_iff name).1 (hvalid name hmem)
      rw [hgood] at hbad
      cases hbad

end Outcomes

end XmlWorkload.Document
