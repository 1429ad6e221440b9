import XmlWorkload.Proofs.Document.Closing
import XmlWorkload.Proofs.Document.PathRequest
import XmlWorkload.Proofs.Sink.Log

/-!
# Paths on a streamed document

A stream has its open elements one inside the other.  Main statement: whatever paths are opened,
closed and replaced, the tree of open elements is the chain of those of the stream, and what the next
request comes to is told by the chain and the path alone (`OpenTree.chain_of_requests`).
-/

set_option autoImplicit false

namespace XmlWorkload

namespace OpenElement

variable {σ : Type} [Sink σ]

/-- A chain has no child but that of its first frame. -/
theorem child?_chain_of_ne {name : String} {frame : Frame} (h : name ≠ frame.name) (element : Nat)
    (deeper : List Frame) : (chain element (frame :: deeper)).child? name = none := by
  simp [chain, child?, children, Ne.symm h]

/-- The element at the top of a chain is the one that it was made with. -/
theorem element_chain (element : Nat) (frames : List Frame) :
    (chain element frames).element = element := by
  cases frames <;> rfl

/-- Opening a path of a chain gives its element and does nothing. -/
theorem openBelow_within (kept deeper : List Frame) (element : Nat) (sink : σ) :
    openBelow (kept.map Frame.name) (chain element (kept ++ deeper)) sink =
      (.ok (innermost element kept), chain element (kept ++ deeper), sink) := by
  induction kept generalizing element with
  | nil => simp [openBelow, innermost, element_chain]
  | cons frame rest ih =>
    simp only [List.map_cons, List.cons_append, openBelow, child?_chain, ih, setChild_chain]
    rfl

/-- Opening a path that leaves a chain fails as the sink does where the path leaves it. -/
theorem openBelow_aside (kept deeper : List Frame) {frame : Frame} {other : String}
    (rest : List String) (hother : other ≠ frame.name) (element : Nat) {sink left : σ}
    {error : Error}
    (hrefused : Sink.startElement (innermost element kept) other sink = (.error error, left)) :
    openBelow (kept.map Frame.name ++ other :: rest) (chain element (kept ++ frame :: deeper)) sink =
      (.error error, chain element (kept ++ frame :: deeper), left) := by
  induction kept generalizing element with
  | nil =>
    simp only [List.map_nil, List.nil_append, openBelow, child?_chain_of_ne hother, element_chain]
    rw [show Sink.startElement element other sink = _ from hrefused]
  | cons above kept ih =>
    simp only [List.map_cons, List.cons_append, openBelow, child?_chain, ih above.element hrefused,
      setChild_chain]

/-- A path that is no part of a chain and does not go on behind it leaves it somewhere. -/
theorem exists_aside {path : List String} {spine : List Frame}
    (hpath : ¬ path <+: spine.map Frame.name) (hspine : ¬ spine.map Frame.name <+: path) :
    ∃ kept frame deeper other rest, spine = kept ++ frame :: deeper ∧
      path = kept.map Frame.name ++ other :: rest ∧ other ≠ frame.name := by
  induction spine generalizing path with
  | nil => exact absurd List.nil_prefix hspine
  | cons frame spine ih =>
    cases path with
    | nil => exact absurd List.nil_prefix hpath
    | cons name path =>
      by_cases hname : name = frame.name
      · subst hname
        simp only [List.map_cons, List.cons_prefix_cons, true_and] at hpath hspine
        obtain ⟨kept, other⟩ := ih hpath hspine
        obtain ⟨inner, deeper, name, rest, rfl, rfl, hother⟩ := other
        exact ⟨frame :: kept, inner, deeper, name, rest, rfl, rfl, hother⟩
      · exact ⟨[], frame, spine, name, path, rfl, rfl, hname⟩

/-- The innermost element is the one at the top or that of a frame. -/
theorem innermost_mem (element : Nat) (frames : List Frame) :
    innermost element frames ∈ element :: frames.map Frame.element := by
  induction frames generalizing element with
  | nil => exact List.mem_singleton_self _
  | cons frame deeper ih => exact List.mem_cons_of_mem _ (ih frame.element)

/-- Closing a path that is not one of a chain does nothing. -/
theorem closeBelow_elsewhere (last : String) (path : List String) (frames : List Frame)
    (element : Nat) (sink : σ) (h : ¬ path ++ [last] <+: frames.map Frame.name) :
    closeBelow last path (chain element frames) sink = (.ok (), chain element frames, sink) := by
  induction path generalizing element frames with
  | nil =>
    cases frames with
    | nil => rfl
    | cons frame deeper =>
      have hother : last ≠ frame.name := by simpa using h
      simp only [closeBelow, child?_chain_of_ne hother]
  | cons name rest ih =>
    cases frames with
    | nil => rfl
    | cons frame deeper =>
      by_cases hname : name = frame.name
      · subst hname
        have hbelow : ¬ rest ++ [last] <+: deeper.map Frame.name := by
          simpa [List.cons_prefix_cons] using h
        simp only [closeBelow, child?_chain, ih deeper frame.element hbelow, setChild_chain]
      · simp only [closeBelow, child?_chain_of_ne hname]

end OpenElement

namespace Unfinished

/-- The frames of elements that were just started are numbered in their order. -/
theorem map_frame_fresh (element : Nat) (names : List String) :
    (fresh element names).map frame = Frame.numbered element names := by
  induction names generalizing element with
  | nil => rfl
  | cons name rest ih => rw [fresh, List.map_cons, ih, Frame.numbered, frame]

end Unfinished

namespace Draft

variable {draft : Draft}

/-- A draft stays numbered when elements are started. -/
theorem Numbered.startAll (h : draft.Numbered) (names : List String) :
    (draft.startAll names).Numbered := by
  induction names generalizing draft with
  | nil => exact h
  | cons name rest ih => exact ih (h.after (.start 0 name))

/-- A draft stays numbered when elements are finished. -/
theorem Numbered.finishTops (h : draft.Numbered) (count : Nat) :
    (draft.finishTops count).Numbered := by
  induction count generalizing draft with
  | zero => exact h
  | succ count ih => exact ih (h.after (.ended 0))

end Draft

namespace OpenTree

open OpenElement (chain innermost)

/-- Open elements one inside the other, the outermost first, as a tree. -/
def ofFrames : List Frame → OpenTree
  | [] => ⟨none⟩
  | root :: spine => ⟨some (chain root.element spine)⟩

variable {ω : Type} [Output ω]

/-- The rules for opening a path where the elements of a spine are open below a root. -/
structure OpenRules (root : Frame) (spine : List Frame) (state : OpenTree × XmlStream ω)
    (path : List String) : Prop where
  /-- The path is on the spine already. -/
  within : path <+: spine.map Frame.name →
    (openPath path).run state = (.ok (innermost root.element (spine.take path.length)), state)
  /-- The path goes on behind the spine. -/
  behind : ∀ names, path = spine.map Frame.name ++ names →
    (∀ name ∈ names, Name.isValid name = true) →
    let fresh := Frame.numbered state.2.nextElement names
    ∃ left, (openPath path).run state = (.ok (innermost root.element (spine ++ fresh)), left) ∧
      left.2.frames.reverse = root :: (spine ++ fresh)
  /-- The path goes on behind the spine, but not all the way with names. -/
  invalid : ∀ names bad rest, path = spine.map Frame.name ++ (names ++ bad :: rest) →
    (∀ name ∈ names, Name.isValid name = true) → Name.isValid bad = false →
    ∃ left, (openPath path).run state = (.error (.invalidName bad), left) ∧
      left.2.frames.reverse = root :: (spine ++ Frame.numbered state.2.nextElement names)
  /-- The path leaves the spine before its end. -/
  aside : ¬ path <+: spine.map Frame.name → ¬ spine.map Frame.name <+: path →
    ∃ parent top, spine.getLast? = some top ∧
      (openPath path).run state =
        (.error (.outOfOrder (.notInnermost .startChild parent top.name)), state)

/-- The rules for closing a path where the elements of a spine are open below a root. -/
structure CloseRules (root : Frame) (spine : List Frame) (state : OpenTree × XmlStream ω)
    (path : List String) : Prop where
  within : path <+: spine.map Frame.name →
    ∃ left, (closePath path).run state = (.ok (), left) ∧
      left.2.frames.reverse = (root :: spine).take path.length
  elsewhere : ¬ path <+: spine.map Frame.name → (closePath path).run state = (.ok (), state)

variable (reliable : Output.Reliable ω) (front : ByteArray)

/-- A tree is in step with a stream: it is the chain of the open elements of the stream, which are
numbered apart. -/
def InStep (frames : List Frame) (state : OpenTree × XmlStream ω) : Prop :=
  ∃ draft : Draft, Shows reliable front draft state ∧ draft.Numbered ∧ draft.frames = frames

variable {reliable front} {frames spine : List Frame} {root : Frame}
  {state : OpenTree × XmlStream ω} {path : List String}

/-- A tree in step with a stream has its frames. -/
theorem InStep.frames_eq (h : InStep reliable front frames state) :
    state.2.frames.reverse = frames := by
  obtain ⟨draft, hshows, -, rfl⟩ := h
  rw [hshows.2.frames, ← List.map_reverse, Draft.frames]

/-- A tree in step with a stream is the chain of its frames. -/
theorem InStep.tree_eq (h : InStep reliable front frames state) : state.1 = ofFrames frames := by
  obtain ⟨draft, hshows, -, rfl⟩ := h
  exact hshows.1

/-- The open elements of a draft are those of its frames. -/
theorem exists_opened {draft : Draft} (h : draft.frames = root :: spine) :
    ∃ node nodes, draft.opened.reverse = node :: nodes ∧ node.frame = root ∧
      nodes.map Unfinished.frame = spine :=
  List.map_eq_cons_iff.1 h

/-- Closing a path of the chain takes its element and those below off the chain. -/
theorem InStep.closePath_within (h : InStep reliable front (root :: spine) state)
    (hpath : path <+: spine.map Frame.name) :
    ∃ left, (closePath path).run state = (.ok (), left) ∧
      InStep reliable front ((root :: spine).take path.length) left := by
  obtain ⟨draft, hshows, hnumbered, hframes⟩ := h
  obtain ⟨node, nodes, hopened, rfl, rfl⟩ := exists_opened hframes
  rcases List.eq_nil_or_concat' path with rfl | ⟨names, last, rfl⟩
  · obtain ⟨left, hleft, hleftShows⟩ := closePath_nil_writes reliable front hopened state hshows
    have hnothing := Draft.frames_finishTops (List.append_nil draft.opened).symm
    exact ⟨left, hleft, _, hleftShows, hnumbered.finishTops _, hnothing⟩
  · -- the chain is what lies above the element that is closed, that element, and what lies below
    obtain ⟨below, hbelow⟩ := hpath
    rw [List.map_map, eq_comm, List.append_assoc, List.map_eq_append_iff] at hbelow
    obtain ⟨above, others, rfl, rfl, hothers⟩ := hbelow
    obtain ⟨inner, deeper, rfl, rfl, -⟩ := List.map_eq_cons_iff.1 hothers
    obtain ⟨left, hleft, hleftShows⟩ := closePath_writes reliable front hopened state hshows
    have hinside : draft.opened = (deeper.reverse ++ [inner]) ++ (node :: above).reverse := by
      rw [Draft.opened_split hopened, List.reverse_cons]
    have hafter := Draft.frames_finishTops hinside
    rw [List.reverse_reverse, List.length_append, List.length_reverse] at hafter
    refine ⟨left, hleft, _, hleftShows, hnumbered.finishTops _, hafter.trans ?_⟩
    simp

/-- Closing a path that is not one of the chain does nothing. -/
theorem InStep.closePath_elsewhere (h : InStep reliable front (root :: spine) state)
    (hpath : ¬ path <+: spine.map Frame.name) : (closePath path).run state = (.ok (), state) := by
  obtain ⟨tree, stream⟩ := state
  obtain rfl : tree = _ := h.tree_eq
  rcases List.eq_nil_or_concat' path with rfl | ⟨names, last, rfl⟩
  · exact absurd List.nil_prefix hpath
  · have hbelow :=
      OpenElement.closeBelow_elsewhere last names spine root.element stream hpath
    simp only [Action.run, closePath, ofFrames, List.getLast?_concat, List.dropLast_concat, hbelow]

/-- Opening a path that is open gives the element found there and changes nothing. -/
theorem InStep.openPath_within (h : InStep reliable front (root :: spine) state)
    (hpath : path <+: spine.map Frame.name) :
    (openPath path).run state =
      (.ok (innermost root.element (spine.take path.length)), state) := by
  obtain ⟨tree, stream⟩ := state
  obtain rfl : tree = _ := h.tree_eq
  have hopen := OpenElement.openBelow_within (spine.take path.length) (spine.drop path.length)
    root.element stream
  rw [List.take_append_drop, List.map_take, ← List.prefix_iff_eq_take.1 hpath] at hopen
  simp only [Action.run, openPath, ofFrames, hopen]

/-- Opening a path that goes on behind the chain makes the chain longer, up to the first text that
is no name. -/
theorem InStep.openPath_behind (h : InStep reliable front (root :: spine) state)
    (names : List String) :
    let fresh := Frame.numbered state.2.nextElement (names.takeWhile Name.isValid)
    ∃ left, (openPath (spine.map Frame.name ++ names)).run state =
        (match Name.firstInvalid? names with
          | none => .ok (innermost root.element (spine ++ fresh))
          | some name => .error (.invalidName name), left) ∧
      InStep reliable front (root :: (spine ++ fresh)) left := by
  obtain ⟨draft, hshows, hnumbered, hframes⟩ := h
  obtain ⟨node, nodes, hopened, -, -⟩ := exists_opened hframes
  obtain ⟨left, hleft, hleftShows⟩ := OpenTree.openPath_behind reliable front names hopened hshows
  have hcursor : draft.cursor = spine.map Frame.name := by simp [Draft.cursor, hframes]
  have hafter : (draft.startAll (names.takeWhile Name.isValid)).frames = root :: (spine ++
      Frame.numbered state.2.nextElement (names.takeWhile Name.isValid)) := by
    rw [Draft.frames_startAll, hframes, Unfinished.map_frame_fresh, hshows.2.nextElement,
      List.cons_append]
  rw [hcursor] at hleft
  simp only [Draft.innermost, hafter] at hleft
  exact ⟨left, hleft, _, hleftShows, hnumbered.startAll _, hafter⟩

/-- The elements of the chain are numbered apart. -/
theorem InStep.nodup (h : InStep reliable front frames state) :
    (frames.map Frame.element).Nodup := by
  obtain ⟨draft, -, hnumbered, rfl⟩ := h
  have hnumbers : draft.frames.map Frame.element = draft.numbers.reverse := by
    simp [Draft.frames, Draft.numbers, Unfinished.frame]
  rw [hnumbers]
  exact List.nodup_reverse.2 hnumbered.nodup

/-- Opening a path that leaves the chain is refused: the element where it leaves is not the innermost
one. -/
theorem InStep.openPath_aside (h : InStep reliable front (root :: spine) state)
    (hpath : ¬ path <+: spine.map Frame.name) (hspine : ¬ spine.map Frame.name <+: path) :
    ∃ parent top, spine.getLast? = some top ∧
      (openPath path).run state =
        (.error (.outOfOrder (.notInnermost .startChild parent top.name)), state) := by
  have hnodup := h.nodup
  obtain ⟨tree, stream⟩ := state
  obtain rfl : tree = _ := h.tree_eq
  obtain ⟨kept, frame, deeper, other, rest, rfl, rfl, hother⟩ :=
    OpenElement.exists_aside hpath hspine
  -- the last element of the chain lies behind the one where the path leaves it
  obtain ⟨inner, top, hdeeper⟩ : ∃ inner top, frame :: deeper = inner ++ [top] :=
    (List.eq_nil_or_concat' (frame :: deeper)).resolve_left (List.cons_ne_nil _ _)
  have hframes : stream.frames = top :: (root :: (kept ++ inner)).reverse := by
    have hreverse : stream.frames.reverse = root :: (kept ++ (inner ++ [top])) := by
      rw [← hdeeper]
      exact h.frames_eq
    rw [← List.reverse_reverse stream.frames, hreverse]
    simp
  have hnot : top.element ≠ innermost root.element kept := by
    have hmem : innermost root.element kept ∈ (root :: (kept ++ inner)).map Frame.element := by
      have hkept := OpenElement.innermost_mem root.element kept
      simp only [List.map_cons, List.map_append, List.mem_cons, List.mem_append] at hkept ⊢
      exact hkept.imp_right .inl
    rw [hdeeper, ← List.append_assoc, ← List.cons_append, List.map_append, List.nodup_append]
      at hnodup
    exact fun heq => hnodup.2.2 _ hmem top.element (by simp) heq.symm
  have hrefused : Sink.startElement (innermost root.element kept) other stream =
      (.error (.outOfOrder (.notInnermost .startChild (innermost root.element kept) top.name)),
        stream) := by
    have hinnermost : stream.innermostFrame .startChild (innermost root.element kept) =
        .error (.outOfOrder (.notInnermost .startChild (innermost root.element kept) top.name)) := by
      rw [XmlStream.innermostFrame, hframes]
      exact if_neg hnot
    exact Action.run_ofExcept_bind_of_error hinnermost _ stream
  have hopen := OpenElement.openBelow_aside kept deeper rest hother root.element hrefused
  refine ⟨innermost root.element kept, top, by simp [hdeeper], ?_⟩
  simp only [Action.run, openPath, ofFrames, hopen]

/-- Opening a path in step with a stream keeps to the rules. -/
theorem InStep.openRules (h : InStep reliable front (root :: spine) state) (path : List String) :
    OpenRules root spine state path where
  within := h.openPath_within
  behind := by
    rintro names rfl hnames
    have hvalid := Name.firstInvalid?_eq_none_iff.2 hnames
    obtain ⟨left, hleft, hstep⟩ := h.openPath_behind names
    rw [hvalid, Name.takeWhile_isValid hvalid] at hleft
    rw [Name.takeWhile_isValid hvalid] at hstep
    exact ⟨left, hleft, hstep.frames_eq⟩
  invalid := by
    rintro names bad rest rfl hnames hbad
    have hfirst : Name.firstInvalid? (names ++ bad :: rest) = some bad := by
      rw [Name.firstInvalid?_append_of_valid _ hnames]
      simp [Name.firstInvalid?, hbad]
    have hfront : (names ++ bad :: rest).takeWhile Name.isValid = names := by
      rw [List.takeWhile_append_of_pos hnames]
      simp [hbad]
    obtain ⟨left, hleft, hstep⟩ := h.openPath_behind (names ++ bad :: rest)
    rw [hfirst] at hleft
    rw [hfront] at hstep
    exact ⟨left, hleft, hstep.frames_eq⟩
  aside := h.openPath_aside

/-- Closing a path in step with a stream keeps to the rules. -/
theorem InStep.closeRules (h : InStep reliable front (root :: spine) state) (path : List String) :
    CloseRules root spine state path where
  within hpath := by
    obtain ⟨left, hleft, hstep⟩ := h.closePath_within hpath
    exact ⟨left, hleft, hstep.frames_eq⟩
  elsewhere := h.closePath_elsewhere

/-- Once the root is closed no path can be opened, and closing one does nothing. -/
theorem InStep.run_of_closed (h : InStep reliable front [] state) (path : List String) :
    (openPath path).run state = (.error .documentClosed, state) ∧
      (closePath path).run state = (.ok (), state) := by
  obtain ⟨tree, stream⟩ := state
  obtain rfl : tree = _ := h.tree_eq
  exact ⟨rfl, rfl⟩

/-- A tree is in step with a stream, and all that is open is inside of a root. -/
def InStepBelow (reliable : Output.Reliable ω) (front : ByteArray) (root : Frame)
    (state : OpenTree × XmlStream ω) : Prop :=
  InStep reliable front [] state ∨ ∃ spine, InStep reliable front (root :: spine) state

/-- Opening a path keeps the tree in step with its stream. -/
theorem InStepBelow.openPath (h : InStepBelow reliable front root state) (path : List String) :
    InStepBelow reliable front root ((openPath path).run state).2 := by
  rcases h with h | ⟨spine, h⟩
  · rw [(h.run_of_closed path).1]
    exact .inl h
  · by_cases hspine : spine.map Frame.name <+: path
    · obtain ⟨names, rfl⟩ := hspine
      obtain ⟨left, hleft, hstep⟩ := h.openPath_behind names
      rw [hleft]
      exact .inr ⟨_, hstep⟩
    · by_cases hpath : path <+: spine.map Frame.name
      · rw [h.openPath_within hpath]
        exact .inr ⟨spine, h⟩
      · obtain ⟨parent, top, -, hrun⟩ := h.openPath_aside hpath hspine
        rw [hrun]
        exact .inr ⟨spine, h⟩

/-- Closing a path succeeds, and keeps the tree in step with its stream. -/
theorem InStepBelow.closePath (h : InStepBelow reliable front root state) (path : List String) :
    ∃ left, (closePath path).run state = (.ok (), left) ∧ InStepBelow reliable front root left := by
  rcases h with h | ⟨spine, h⟩
  · exact ⟨state, (h.run_of_closed path).2, .inl h⟩
  · by_cases hpath : path <+: spine.map Frame.name
    · obtain ⟨left, hleft, hstep⟩ := h.closePath_within hpath
      refine ⟨left, hleft, ?_⟩
      cases path with
      | nil => exact .inl hstep
      | cons name path => exact .inr ⟨_, hstep⟩
    · exact ⟨state, h.closePath_elsewhere hpath, .inr ⟨spine, h⟩⟩

/-- Any requests keep the tree in step with its stream. -/
theorem InStepBelow.performAll (h : InStepBelow reliable front root state)
    (requests : List PathRequest) :
    InStepBelow reliable front root (PathRequest.performAll requests state) :=
  PathRequest.performAll_keeps (fun _ => id) (fun _ => id)
    (fun (_ : Unit) => InStepBelow reliable front root) (fun path _ _ h => h.openPath path)
    (fun path _ _ h => h.closePath path) requests () h

/-- On an output that takes everything, whatever paths are requested to be opened, closed and
replaced: the tree is the chain of the open elements of the stream.  Once the root was closed there
are none, and no path can be opened any more.  Until then what a path comes to is told by how it lies
to the chain; closing never fails. -/
theorem chain_of_requests (reliable : Output.Reliable ω) {output : ω}
    (hholds : reliable.holds output) {root : String} (hroot : Name.isValid root = true)
    (declared : Bool) :
    ∃ stream, XmlStream.create output root declared = (.ok stream, stream.output) ∧
      ∀ requests,
        let state := PathRequest.performAll requests (new 0, stream)
        let frames := state.2.frames.reverse
        state.1 = ofFrames frames ∧
          ((frames = [] ∧ ∀ path, (openPath path).run state = (.error .documentClosed, state) ∧
              (closePath path).run state = (.ok (), state)) ∨
            ∃ spine, frames = ⟨0, root⟩ :: spine ∧
              ∀ path, OpenRules ⟨0, root⟩ spine state path ∧ CloseRules ⟨0, root⟩ spine state path) := by
  obtain ⟨stream, hcreate, hshows⟩ := Document.create_ok hholds hroot declared
  refine ⟨stream, hcreate, fun requests => ?_⟩
  intro state frames
  let front := reliable.taken output ++ (Reference.prologue declared).toUTF8
  have hnew : InStepBelow reliable front ⟨0, root⟩ (new 0, stream) :=
    .inr ⟨[], Draft.new root, ⟨rfl, hshows⟩, Draft.numbered_new root, rfl⟩
  have hstate : InStepBelow reliable front ⟨0, root⟩ state := hnew.performAll requests
  rcases hstate with h | ⟨spine, h⟩
  · have hframes : frames = [] := h.frames_eq
    exact ⟨hframes ▸ h.tree_eq, .inl ⟨hframes, h.run_of_closed⟩⟩
  · have hframes : frames = ⟨0, root⟩ :: spine := h.frames_eq
    exact ⟨hframes ▸ h.tree_eq,
      .inr ⟨spine, hframes, fun path => ⟨h.openRules path, h.closeRules path⟩⟩⟩

/-- What was opened in front of a text that is no name stays open, a path that leaves it is refused,
and a path that is not open is closed without a change. -/
theorem chain_of_requests_small :
    Memory.reliable.holds Memory.unlimited ∧ Name.isValid "r" = true ∧
      let state := PathRequest.performAll [.opening ["a", "b", "<", "c"], .opening ["a", "d"],
        .replacing ["a", "b"]] (new 0, XmlStream.start Memory.unlimited "r")
      state.1 = ofFrames [⟨0, "r"⟩, ⟨1, "a"⟩, ⟨3, "b"⟩] ∧
        (closePath ["b"]).run state = (.ok (), state) := by
  have hholds : Memory.reliable.holds Memory.unlimited := ⟨rfl, rfl⟩
  have hroot : Name.isValid "r" = true := by decide
  obtain ⟨stream, hcreate, hrequests⟩ := chain_of_requests Memory.reliable hholds hroot false
  obtain rfl : XmlStream.start Memory.unlimited "r" = stream :=
    Except.ok.inj (congrArg Prod.fst hcreate)
  obtain ⟨htree, hrules⟩ := hrequests [.opening ["a", "b", "<", "c"], .opening ["a", "d"],
    .replacing ["a", "b"]]
  have hframes : (PathRequest.performAll [.opening ["a", "b", "<", "c"], .opening ["a", "d"],
      .replacing ["a", "b"]] (new 0, XmlStream.start Memory.unlimited "r")).2.frames.reverse =
        [⟨0, "r"⟩, ⟨1, "a"⟩, ⟨3, "b"⟩] := by
    decide
  rw [hframes] at htree hrules
  obtain ⟨spine, hspine, hrules⟩ := hrules.resolve_left fun h => List.cons_ne_nil _ _ h.1
  obtain rfl := (List.cons.inj hspine).2
  exact ⟨hholds, hroot, htree, (hrules ["b"]).2.elsewhere (by decide)⟩

end OpenTree

end XmlWorkload
