import XmlWorkload.Proofs.Document.History
import XmlWorkload.Proofs.Sink.Recording

/-!
# Documents on a recorder

A document whose calls are recorded keeps the open elements in step with the calls: what the calls
have started and not ended is one chain, and its names spell the cursor.  Main statement: an
emission ends what is open below the level of its path, the deepest first, starts the rest of its
path, the outermost first, and fills the element at its end; what lies above the level stays open,
and no element is ended twice (`Document.calls_of_emit`).
-/

set_option autoImplicit false

namespace XmlWorkload

open SinkCall

namespace OpenTree

open OpenElement (chain innermost)

/-- Closing a path of a chain ends its element and those below, the deepest first. -/
theorem closePath_run (kept : List Frame) (frame : Frame) (deeper : List Frame)
    (recorder : Recorder)
    (h : ∀ opened ∈ frame :: deeper, recorder.nameOf opened.element = opened.name) :
    (closePath (kept.map Frame.name ++ [frame.name])).run
        (⟨some (chain 0 (kept ++ frame :: deeper))⟩, recorder) =
      (.ok (), ⟨some (chain 0 kept)⟩, recorder.after (ends (frame :: deeper))) := by
  have hbelow := OpenElement.closeBelow_chain kept frame deeper 0 recorder
  rw [Recorder.close_chain_run recorder frame deeper h] at hbelow
  simp only [Action.run, closePath, List.getLast?_concat, List.dropLast_concat, hbelow]

/-- Opening a path that goes on behind a chain starts the rest of it. -/
theorem openPath_run (kept : List Frame) (names : List String) (recorder : Recorder) :
    (openPath (kept.map Frame.name ++ names)).run (⟨some (chain 0 kept)⟩, recorder) =
      (.ok (innermost 0 (kept ++ Frame.numbered recorder.nextElement names)),
        ⟨some (chain 0 (kept ++ Frame.numbered recorder.nextElement names))⟩,
        recorder.after (starts (innermost 0 kept) (Frame.numbered recorder.nextElement names))) := by
  have hopen := OpenElement.openBelow_chain kept names 0
    (Recorder.openBelow_run names (innermost 0 kept) recorder)
  rw [← OpenElement.innermost_append] at hopen
  simp only [Action.run, openPath, hopen]

end OpenTree

namespace Document

open OpenElement (chain innermost)

/-- The path of the last of some emissions, which is empty before the first. -/
def lastPath (emissions : List Emission) : List String :=
  (emissions.getLast?.map Emission.path).getD []

/-- The calls of an emission onto open elements that spell the path before it.  Elements from a
level on are ended, the rest of the path is started with numbers from `number` on, and the last
element of the path takes what the template says. -/
def callsOf (opened : List Frame) (number level : Nat) (emission : Emission)
    (elements : List Element) : List SinkCall :=
  let fresh := Frame.numbered number (emission.path.drop level)
  let leaf := innermost 0 (opened.take level ++ fresh)
  ends (opened.drop level) ++ (starts (innermost 0 (opened.take level)) fresh ++
    (ofAttributes leaf emission.template.attrs.entries ++
      (ofElements leaf (number + fresh.length) elements ++ ofText leaf emission.template.body)))

/-- A live document is in step with the calls that its recorder took: the elements that they left
open are its open elements, and their names are its cursor.  The elements are numbered in the order
in which they were started, and each is either ended, once, or open. -/
structure Spells (root : String) (document : Document Recorder) : Prop where
  sink : document.sink = (Recorder.new root).after document.sink.calls
  status : document.status = .live
  tree : document.tree = ⟨some (chain 0 (openAfter document.sink.calls))⟩
  cursor : document.cursor = (openAfter document.sink.calls).map Frame.name
  numbered : (startedIn document.sink.calls).map Frame.element =
    List.range' 1 (startedIn document.sink.calls).length
  once : (endedIn document.sink.calls ++ (openAfter document.sink.calls).map Frame.element).Perm
    ((startedIn document.sink.calls).map Frame.element)

/-- A new document is in step with its recorder. -/
theorem spells_new (label root : String) : Spells root (new label (Recorder.new root)) :=
  ⟨(Recorder.after_nil _).symm, rfl, rfl, rfl, rfl, .nil⟩

namespace Spells

variable {root : String} {document : Document Recorder} (h : Spells root document)

include h

/-- The next element has the number behind those of all elements that were started. -/
theorem nextElement_eq :
    document.sink.nextElement = 1 + (startedIn document.sink.calls).length := by
  conv_lhs => rw [h.sink]
  rfl

/-- No element is started twice. -/
theorem nodup_started : ((startedIn document.sink.calls).map Frame.element).Nodup := by
  rw [h.numbered]
  exact List.nodup_range'

/-- No element is ended twice, and none that is open was ended. -/
theorem nodup_once :
    (endedIn document.sink.calls ++ (openAfter document.sink.calls).map Frame.element).Nodup :=
  h.once.nodup_iff.2 h.nodup_started

/-- The recorder knows the names of the open elements. -/
theorem nameOf_open : ∀ frame ∈ openAfter document.sink.calls,
    document.sink.nameOf frame.element = frame.name := by
  intro frame hframe
  rw [h.sink]
  exact Recorder.nameOf_after_of_mem h.nodup_started (mem_startedIn_of_mem_openAfter hframe) _

/-- Open elements have numbers below that of the next one. -/
theorem element_lt : ∀ frame ∈ openAfter document.sink.calls,
    frame.element < document.sink.nextElement := by
  intro frame hframe
  have hmem := List.mem_map_of_mem (f := Frame.element) (mem_startedIn_of_mem_openAfter hframe)
  rw [h.numbered, List.mem_range'_1] at hmem
  rw [h.nextElement_eq]
  exact hmem.2

/-- Moving to a path ends what is open below its level and starts the rest of it. -/
theorem moveTo_run (path : List String) :
    let opened := openAfter document.sink.calls
    let level := Reference.kept document.cursor path
    let fresh := Frame.numbered document.sink.nextElement (path.drop level)
    (moveTo path).run document =
      (.ok (innermost 0 (opened.take level ++ fresh)),
        { document with
          sink := document.sink.after
            (ends (opened.drop level) ++ starts (innermost 0 (opened.take level)) fresh)
          tree := ⟨some (chain 0 (opened.take level ++ fresh))⟩
          cursor := path }) := by
  intro opened level fresh
  have hpath : (opened.take level).map Frame.name ++ path.drop level = path := by
    rw [List.map_take, ← h.cursor, Reference.take_kept, List.take_append_drop]
  have hopen := OpenTree.openPath_run (opened.take level) (path.drop level)
    (document.sink.after (ends (opened.drop level)))
  rw [hpath, Recorder.nextElement_after, startedIn_ends, List.length_nil, Nat.add_zero,
    Recorder.after_after] at hopen
  have hlevel : OpenTree.divergence document.cursor path = level :=
    OpenTree.divergence_eq_kept document.cursor path
  have hlength : document.cursor.length = opened.length := by rw [h.cursor, List.length_map]
  -- once the elements below the level are closed, the rest of the path is opened behind it
  have hon : ∀ closed : Document Recorder,
      closed = { document with
        sink := document.sink.after (ends (opened.drop level))
        tree := ⟨some (chain 0 (opened.take level))⟩ } →
      (do
        Action.change fun document : Document Recorder =>
          { document with cursor := document.cursor.take level }
        let leaf ← onTree (OpenTree.openPath path)
        Action.change fun document => { document with cursor := path }
        pure leaf : Action (Document Recorder) Nat).run closed =
      (.ok (innermost 0 (opened.take level ++ fresh)),
        { document with
          sink := document.sink.after
            (ends (opened.drop level) ++ starts (innermost 0 (opened.take level)) fresh)
          tree := ⟨some (chain 0 (opened.take level ++ fresh))⟩
          cursor := path }) := by
    rintro closed rfl
    rw [Action.run_change_bind]
    unfold onTree
    rw [Action.run_bind_of_ok (by rw [Action.run_on, hopen])]
    rfl
  unfold moveTo
  rw [Action.run_getState_bind, hlevel]
  by_cases hdeeper : level < document.cursor.length
  · have hlt : level < opened.length := hlength ▸ hdeeper
    have hsplit : opened.take level ++ opened[level] :: opened.drop (level + 1) = opened := by
      rw [List.getElem_cons_drop, List.take_append_drop]
    have hclosing : document.cursor.take (level + 1) =
        (opened.take level).map Frame.name ++ [opened[level].name] := by
      rw [h.cursor, ← List.map_take, List.take_succ_eq_append_getElem hlt, List.map_append]
      rfl
    have hnames : ∀ frame ∈ opened[level] :: opened.drop (level + 1),
        document.sink.nameOf frame.element = frame.name := by
      intro frame hframe
      apply h.nameOf_open
      rw [List.getElem_cons_drop] at hframe
      exact List.mem_of_mem_drop hframe
    have hclose := OpenTree.closePath_run (opened.take level) opened[level]
      (opened.drop (level + 1)) document.sink hnames
    rw [hsplit, ← hclosing, List.getElem_cons_drop] at hclose
    simp only [if_pos hdeeper]
    unfold onTree at hon ⊢
    rw [Action.run_bind_of_ok (by rw [Action.run_on, h.tree, hclose])]
    exact hon _ rfl
  · have hnone : opened.drop level = [] := List.drop_eq_nil_iff.2 (by omega)
    have hall : opened.take level = opened := List.take_of_length_le (by omega)
    simp only [if_neg hdeeper]
    apply hon
    rw [hnone, hall, ends, List.reverse_nil, List.map_nil, Recorder.after_nil, ← h.tree]

/-- Writing a template that resolves adds the calls of the emission. -/
theorem write_run (emission : Emission) (elements : List Element) :
    let opened := openAfter document.sink.calls
    let level := Reference.kept document.cursor emission.path
    let fresh := Frame.numbered document.sink.nextElement (emission.path.drop level)
    (write emission.path emission.template elements).run document =
      (.ok (), { document with
        sink := document.sink.after
          (callsOf opened document.sink.nextElement level emission elements)
        tree := ⟨some (chain 0 (opened.take level ++ fresh))⟩
        cursor := emission.path }) := by
  intro opened level fresh
  unfold write onSink
  rw [Action.run_bind_of_ok (h.moveTo_run emission.path),
    Action.run_bind_of_ok (by rw [Action.run_on, Recorder.writeAttributes_run]),
    Action.run_bind_of_ok (by rw [Action.run_on, Recorder.writeElements_run]),
    Action.run_on, Recorder.writeText_run]
  simp only [Recorder.after_after, Recorder.nextElement_after, startedIn_append, startedIn_ends,
    startedIn_starts, startedIn_ofAttributes, List.append_assoc, List.nil_append, List.append_nil,
    callsOf]
  rfl

end Spells

/-- After the calls of an emission the elements above its level are open as before, with those of
the rest of its path below them. -/
theorem openAfter_callsOf {calls : List SinkCall} {number : Nat}
    (hlt : ∀ frame ∈ openAfter calls, frame.element < number)
    (hnodup : ((openAfter calls).map Frame.element).Nodup) (level : Nat) (emission : Emission)
    (elements : List Element) :
    openAfter (calls ++ callsOf (openAfter calls) number level emission elements) =
      (openAfter calls).take level ++ Frame.numbered number (emission.path.drop level) := by
  have hends : (ends ((openAfter calls).drop level)).foldl effect (openAfter calls) =
      (openAfter calls).take level := by
    have hnodup' : (((openAfter calls).take level ++ (openAfter calls).drop level).map
        Frame.element).Nodup := by rwa [List.take_append_drop]
    have hsplit := foldl_effect_ends_append hnodup'
    rwa [List.take_append_drop] at hsplit
  have hbelow : ∀ frame ∈ (openAfter calls).take level ++
      Frame.numbered number (emission.path.drop level),
      frame.element < number + (Frame.numbered number (emission.path.drop level)).length := by
    intro frame hframe
    rcases List.mem_append.1 hframe with hframe | hframe
    · exact Nat.lt_of_lt_of_le (hlt frame (List.mem_of_mem_take hframe)) (Nat.le_add_right _ _)
    · have hmem := List.mem_map_of_mem (f := Frame.element) hframe
      rw [map_element_numbered, List.mem_range'_1] at hmem
      rw [length_numbered]
      exact hmem.2
  rw [openAfter_append, callsOf]
  simp only [List.foldl_append, hends, foldl_effect_starts, foldl_effect_ofAttributes,
    foldl_effect_ofElements _ _ elements _ hbelow, foldl_effect_ofText]

/-- An emission that goes on behind calls that a document is in step with numbers the elements that
it starts one by one. -/
theorem startedIn_callsOf (opened : List Frame) (number level : Nat) (emission : Emission)
    (elements : List Element) :
    (startedIn (callsOf opened number level emission elements)).map Frame.element =
      List.range' number ((emission.path.drop level).length + Element.countOfAll elements) := by
  simp only [callsOf, startedIn_append, startedIn_ends, startedIn_starts, startedIn_ofAttributes,
    startedIn_ofText, List.nil_append, List.append_nil, List.map_append, map_element_numbered,
    startedIn_ofElements, length_numbered, List.range'_append_1]

/-- An emission ends the open elements from its level on and the elements of its template. -/
theorem endedIn_callsOf (opened : List Frame) (number level : Nat) (emission : Emission)
    (elements : List Element) :
    (endedIn (callsOf opened number level emission elements)).Perm
      ((opened.drop level).map Frame.element ++
        List.range' (number + (emission.path.drop level).length) (Element.countOfAll elements)) := by
  simp only [callsOf, endedIn_append, endedIn_ends, endedIn_starts, endedIn_ofAttributes,
    endedIn_ofText, List.nil_append, List.append_nil, length_numbered]
  exact (List.reverse_perm _).append (endedIn_ofElements _ _ elements)

/-- A live document with a recorder takes every emission whose path has a name and whose template
resolves. -/
theorem Spells.emit {root : String} {document : Document Recorder} (h : Spells root document)
    {emission : Emission} (hpath : emission.path ≠ []) {elements : List Element}
    (hresolve : emission.template.resolve = .ok elements) :
    let level := Reference.kept document.cursor emission.path
    ∃ left, (emit emission.path emission.template).run document = (.ok (), left) ∧
      left.sink.calls = document.sink.calls ++
        callsOf (openAfter document.sink.calls) document.sink.nextElement level emission elements ∧
      openAfter left.sink.calls = (openAfter document.sink.calls).take level ++
        Frame.numbered document.sink.nextElement (emission.path.drop level) ∧
      left.cursor = emission.path ∧ Spells root left := by
  intro level
  let opened := openAfter document.sink.calls
  let number := document.sink.nextElement
  let added := callsOf opened number level emission elements
  have hnodup : (opened.map Frame.element).Nodup := (List.nodup_append.1 h.nodup_once).2.1
  have hopened : openAfter (document.sink.calls ++ added) =
      opened.take level ++ Frame.numbered number (emission.path.drop level) :=
    openAfter_callsOf h.element_lt hnodup level emission elements
  have hstarted : (startedIn added).map Frame.element =
      List.range' number ((emission.path.drop level).length + Element.countOfAll elements) :=
    startedIn_callsOf opened number level emission elements
  have hended : (endedIn added).Perm ((opened.drop level).map Frame.element ++
      List.range' (number + (emission.path.drop level).length) (Element.countOfAll elements)) :=
    endedIn_callsOf opened number level emission elements
  have hnumber : number = 1 + (startedIn document.sink.calls).length := h.nextElement_eq
  have hcalls : (document.sink.after added).calls = document.sink.calls ++ added := rfl
  rw [emit_of_live emission hpath hresolve h.status, h.write_run emission elements]
  refine ⟨_, rfl, hcalls, hopened, rfl, ?sink, h.status, ?tree, ?cursor, ?numbered, ?once⟩
  case sink =>
    calc document.sink.after added
        = ((Recorder.new root).after document.sink.calls).after added := by rw [← h.sink]
      _ = (Recorder.new root).after (document.sink.calls ++ added) := Recorder.after_after _ _ _
  case tree => rw [hcalls, hopened]
  case cursor =>
    rw [hcalls, hopened, List.map_append, map_name_numbered, List.map_take, ← h.cursor,
      Reference.take_kept, List.take_append_drop]
  case numbered =>
    have hlength := congrArg List.length hstarted
    rw [List.length_map, List.length_range'] at hlength
    rw [hcalls, startedIn_append, List.map_append, List.length_append, h.numbered, hstarted, hlength,
      hnumber, List.range'_append_1]
  case once =>
    rw [hcalls, hopened, endedIn_append, startedIn_append, List.map_append, List.map_append, hstarted,
      map_element_numbered, ← List.range'_append_1]
    have hsplit : (opened.take level).map Frame.element ++ (opened.drop level).map Frame.element =
        opened.map Frame.element := by rw [← List.map_append, List.take_append_drop]
    have honce := h.once
    rw [← hsplit] at honce
    refine List.perm_iff_count.2 fun element => ?_
    have hbefore := honce.count_eq element
    have hadded := hended.count_eq element
    simp only [List.count_append] at hbefore hadded ⊢
    omega

/-- A document that grants all of some emissions stays in step with its calls, and its cursor is the
path of the last of them. -/
theorem spells_of_emitAll {root : String} {emissions : List Emission}
    {document : Document Recorder} (h : Spells root document)
    (hgranted : ∀ result ∈ (emitAll emissions document).1, result = .ok ()) :
    Spells root (emitAll emissions document).2 ∧
      (emitAll emissions document).2.cursor =
        (emissions.getLast?.map Emission.path).getD document.cursor := by
  induction emissions generalizing document with
  | nil => exact ⟨h, rfl⟩
  | cons emission rest ih =>
    obtain ⟨hfirst, hrest⟩ := List.forall_mem_cons.1 hgranted
    obtain ⟨hpath, -, elements, hresolve⟩ := of_granted emission hfirst
    obtain ⟨left, hrun, -, -, hcursor, hspells⟩ := h.emit hpath hresolve
    have hleft : emitAll (emission :: rest) document =
        (.ok () :: (emitAll rest left).1, (emitAll rest left).2) := by
      rw [emitAll, hrun]
    rw [hrun] at hrest
    obtain ⟨hlast, hmoved⟩ := ih hspells hrest
    rw [hleft]
    refine ⟨hlast, ?_⟩
    rw [hmoved, hcursor, List.getLast?_cons]
    cases rest.getLast? <;> rfl

/-- Let all of any emissions be granted by a new document on a recorder.  The elements that they
leave open spell the path of the last of them.  A further emission whose path has a name and whose
template resolves is granted too.  It ends the open elements from the level of its path on, the
deepest first, starts the rest of its path, the outermost first and each below the one above it, and
fills the last of them: with its attributes, with the balanced calls of its children, and with its
text.  The elements above the level stay open and were never ended, no element is ended twice, and
the cursor is the path of the emission. -/
theorem calls_of_emit (root label : String) (emissions : List Emission)
    (hgranted : ∀ result ∈ (emitAll emissions (new label (Recorder.new root))).1, result = .ok ())
    (emission : Emission) (hpath : emission.path ≠ []) {elements : List Element}
    (hresolve : emission.template.resolve = .ok elements) :
    let document := (emitAll emissions (new label (Recorder.new root))).2
    let opened := openAfter document.sink.calls
    let level := Reference.kept (lastPath emissions) emission.path
    let fresh := Frame.numbered document.sink.nextElement (emission.path.drop level)
    let leaf := innermost (Sink.root document.sink) (opened.take level ++ fresh)
    ∃ left, (emit emission.path emission.template).run document = (.ok (), left) ∧
      opened.map Frame.name = lastPath emissions ∧
      left.sink.calls = document.sink.calls ++
        (ends (opened.drop level) ++
          (starts (innermost (Sink.root document.sink) (opened.take level)) fresh ++
            (ofAttributes leaf emission.template.attrs.entries ++
              (ofElements leaf (document.sink.nextElement + fresh.length) elements ++
                ofText leaf emission.template.body)))) ∧
      openAfter left.sink.calls = opened.take level ++ fresh ∧
      (∀ frame ∈ opened.take level, frame.element ∉ endedIn left.sink.calls) ∧
      (endedIn left.sink.calls).Nodup ∧
      ((startedIn left.sink.calls).map Frame.element).Nodup ∧
      left.cursor = emission.path := by
  intro document opened level fresh leaf
  obtain ⟨hspells, hcursor⟩ := spells_of_emitAll (spells_new label root) hgranted
  have hcursor' : document.cursor = lastPath emissions := hcursor
  obtain ⟨left, hrun, hcalls, hopened, hmoved, hleft⟩ := hspells.emit hpath hresolve
  rw [hcursor] at hcalls hopened
  have hnodup := List.nodup_append.1 hleft.nodup_once
  refine ⟨left, hrun, ?_, hcalls, hopened, ?_, hnodup.1, hleft.nodup_started, hmoved⟩
  · rw [← hspells.cursor, hcursor']
  · intro frame hframe hmem
    have hstill : frame ∈ openAfter left.sink.calls := by
      rw [hopened]
      exact List.mem_append_left _ hframe
    exact hnodup.2.2 _ hmem _ (List.mem_map_of_mem hstill) rfl

/-- Of two elements below `a` the first is ended before the second is started, and `a` stays
open. -/
theorem calls_of_emit_small :
    (emitAll [⟨["a", "b"], .empty⟩] (new "d" (Recorder.new "r"))).1 = [.ok ()] ∧
      Template.empty.resolve = .ok [] ∧
      ((emit ["a", "c"] .empty).run
          (emitAll [⟨["a", "b"], .empty⟩] (new "d" (Recorder.new "r"))).2).2.sink.calls =
        [.start 0 1 "a", .start 1 2 "b", .ended 2 "b", .start 1 3 "c"] := by
  have hpath : (⟨["a", "b"], .empty⟩ : Emission).path ≠ [] := by decide
  obtain ⟨before, hbefore, hcalls, -, -, hspells⟩ := (spells_new "d" "r").emit hpath resolve_empty
  have hall : emitAll [⟨["a", "b"], .empty⟩] (new "d" (Recorder.new "r")) = ([.ok ()], before) := by
    simp only [emitAll, hbefore]
  have hcalls' : before.sink.calls = [.start 0 1 "a", .start 1 2 "b"] := hcalls
  have hnumber : before.sink.nextElement = 3 := by
    rw [hspells.nextElement_eq, hcalls']
    rfl
  obtain ⟨left, hrun, -, hadded, -⟩ := calls_of_emit "r" "d" [⟨["a", "b"], .empty⟩]
    (by simp [hall]) ⟨["a", "c"], .empty⟩ (by decide) resolve_empty
  refine ⟨by rw [hall], resolve_empty, ?_⟩
  rw [hrun, hadded, hall, hnumber, hcalls']
  rfl

end Document

end XmlWorkload
