import XmlWorkload.Proofs.Sink.Writing

/-!
# The open elements of a draft as a tree

The open elements of a document that is streamed lie one inside the other, so that their tree is a
chain.  Closing a path of the chain closes what lies below it, and opening a path that goes on behind
the chain makes it longer.  Main statements: both keep the tree in step with the draft.
-/

set_option autoImplicit false

namespace XmlWorkload

namespace OpenElement

/-- Open elements one inside the other, the outermost of which is known by its number only. -/
def chain (element : Nat) : List Frame → OpenElement
  | [] => .mk element []
  | frame :: deeper => .mk element [(frame.name, chain frame.element deeper)]

/-- The number of the innermost of open elements. -/
def innermost (element : Nat) : List Frame → Nat
  | [] => element
  | frame :: deeper => innermost frame.element deeper

/-- The first frame of a chain is a child of the element at its top. -/
theorem child?_chain (element : Nat) (frame : Frame) (deeper : List Frame) :
    (chain element (frame :: deeper)).child? frame.name = some (chain frame.element deeper) := by
  simp [chain, child?, children]

/-- A chain without frames has no child. -/
theorem child?_chain_nil (element : Nat) (name : String) : (chain element []).child? name = none :=
  rfl

/-- Replacing what lies below an element of a chain gives a chain. -/
theorem setChild_chain (element : Nat) (frame : Frame) (deeper deeper' : List Frame) :
    (chain element (frame :: deeper)).setChild frame.name (chain frame.element deeper') =
      chain element (frame :: deeper') := by
  simp [chain, setChild, putChild, children, OpenElement.element]

/-- A frame put into a chain without frames makes a chain with that frame. -/
theorem setChild_chain_nil (element : Nat) (frame : Frame) (deeper : List Frame) :
    (chain element []).setChild frame.name (chain frame.element deeper) =
      chain element (frame :: deeper) := by
  simp [chain, setChild, putChild, children, OpenElement.element]

/-- A chain without its first frame has none. -/
theorem eraseChild_chain (element : Nat) (frame : Frame) (deeper : List Frame) :
    (chain element (frame :: deeper)).eraseChild frame.name = chain element [] := by
  simp [chain, eraseChild, children, OpenElement.element]

/-- Closing an element of a chain closes what lies below it, and leaves what lies above. -/
theorem closeBelow_chain {σ : Type} [Sink σ] (kept : List Frame) (frame : Frame)
    (deeper : List Frame) (element : Nat) (sink : σ) :
    closeBelow frame.name (kept.map Frame.name) (chain element (kept ++ frame :: deeper)) sink =
      (((close (chain frame.element deeper)).run sink).1, chain element kept,
        ((close (chain frame.element deeper)).run sink).2) := by
  induction kept generalizing element with
  | nil =>
    simp only [List.map_nil, List.nil_append, closeBelow, child?_chain, eraseChild_chain]
    rfl
  | cons above rest ih =>
    simp only [List.map_cons, List.cons_append, closeBelow, child?_chain, ih, setChild_chain]

variable {ω : Type} [Output ω] (reliable : Output.Reliable ω) (front : ByteArray)

open XmlStream (Shows Safe)

/-- Closing a chain closes its elements in the draft, the innermost first. -/
theorem close_chain_writes (deeper : List Unfinished) {draft : Draft} {top : Unfinished}
    {outer : List Unfinished} (hopened : draft.opened = deeper.reverse ++ top :: outer) :
    Action.Writes (Shows reliable front) (Safe reliable) []
      (close (chain top.element (deeper.map Unfinished.frame))) draft ()
      (draft.finishTops (deeper.length + 1)) := by
  -- the innermost elements are closed first, so the induction goes from the outermost one inwards
  induction deeper generalizing top outer with
  | nil =>
    have hclose := XmlStream.endElement_writes reliable front hopened
    unfold close
    apply (Action.Writes.pure () draft).bind
    exact hclose
  | cons node rest ih =>
    have hinner : draft.opened = rest.reverse ++ node :: top :: outer := by
      rw [hopened, List.reverse_cons, List.append_assoc, List.singleton_append]
    have hlength : (rest.reverse ++ [node]).length = rest.length + 1 := by simp
    have hleft : (draft.finishTops (rest.length + 1)).opened =
        { top with content := top.content ++ Draft.sealAll (rest.reverse ++ [node]) [] } ::
          outer := by
      have hsplit : draft.opened = (rest.reverse ++ [node]) ++ top :: outer := by
        rw [hinner, List.append_assoc, List.singleton_append]
      rw [← hlength, Draft.finishTops_eq_append hsplit, Draft.append]
    have hbelow := ih hinner
    have hclose := XmlStream.endElement_writes reliable front hleft
    have hfinish : draft.finishTops ((node :: rest).length + 1) =
        (draft.finishTops (rest.length + 1)).finishTop :=
      Draft.finishTops_succ (rest.length + 1) draft
    have hchildren : Action.Writes (Shows reliable front) (Safe reliable) []
        (closeChildren [(node.name, chain node.element (rest.map Unfinished.frame))]) draft ()
        (draft.finishTops (rest.length + 1)) := by
      unfold closeChildren
      apply hbelow.bind
      exact Action.Writes.pure () _
    rw [hfinish]
    exact hchildren.bind hclose

/-- Opening names below the innermost open element opens them one inside the other, up to the first
text that is no name. -/
theorem openBelow_fresh (names : List String) {draft : Draft} {top : Unfinished}
    {outer : List Unfinished} (hopened : draft.opened = top :: outer) {stream : XmlStream ω}
    (h : Shows reliable front draft stream) :
    let fresh := (Unfinished.fresh draft.nextElement (names.takeWhile Name.isValid)).map
      Unfinished.frame
    ∃ left, openBelow names (chain top.element []) stream =
        (match Name.firstInvalid? names with
          | none => .ok (innermost top.element fresh)
          | some name => .error (.invalidName name), chain top.element fresh, left) ∧
      Shows reliable front (draft.startAll (names.takeWhile Name.isValid)) left := by
  -- each name is opened below the one before it, whose element is the innermost then
  induction names generalizing draft top outer stream with
  | nil => exact ⟨stream, rfl, h⟩
  | cons name rest ih =>
    cases hname : Name.isValid name with
    | false =>
      have hcall : Sink.startElement top.element name stream = (.error (.invalidName name), stream) :=
        XmlStream.startElement_of_not_isValid h hopened hname
      refine ⟨stream, ?_, by simpa [hname, Draft.startAll] using h⟩
      rw [openBelow, child?_chain_nil]
      simp [chain, OpenElement.element, hcall, hname, Name.firstInvalid?, Unfinished.fresh]
    | true =>
      have hvalid : Name.firstInvalid? [name] = none := by simp [Name.firstInvalid?, hname]
      have hstart := XmlStream.startElement_writes reliable front hopened name stream h
      rw [hvalid] at hstart
      obtain ⟨middle, hmiddle, hshows⟩ := hstart
      have hcall : Sink.startElement top.element name stream = (.ok draft.nextElement, middle) :=
        hmiddle
      obtain ⟨left, hleft, hleftShows⟩ := ih (show (draft.start name).opened = _ from rfl) hshows
      have hfirst : Name.firstInvalid? (name :: rest) = Name.firstInvalid? rest := by
        simp [Name.firstInvalid?, hname]
      refine ⟨left, ?_, by simpa [hname, Draft.startAll] using hleftShows⟩
      rw [openBelow, child?_chain_nil, hfirst, List.takeWhile_cons_of_pos hname]
      simp only [chain, OpenElement.element, hcall] at hleft ⊢
      rw [hleft]
      exact congrArg (fun node => (_, node, left)) (setChild_chain_nil top.element
        ⟨draft.nextElement, name⟩ _)

/-- Opening a path that goes on behind a chain goes down the chain first. -/
theorem openBelow_chain {σ : Type} [Sink σ] (kept : List Frame) (names : List String)
    (element : Nat) {sink left : σ} {result : Except Error Nat} {fresh : List Frame}
    (h : openBelow names (chain (innermost element kept) []) sink =
      (result, chain (innermost element kept) fresh, left)) :
    openBelow (kept.map Frame.name ++ names) (chain element kept) sink =
      (result, chain element (kept ++ fresh), left) := by
  induction kept generalizing element with
  | nil => exact h
  | cons frame rest ih =>
    simp only [List.map_cons, List.cons_append, openBelow, child?_chain, ih frame.element h,
      setChild_chain]

/-- The innermost element of two rows of frames is that of the second row, from the innermost of the
first on. -/
theorem innermost_append (element : Nat) (first second : List Frame) :
    innermost element (first ++ second) = innermost (innermost element first) second := by
  induction first generalizing element with
  | nil => rfl
  | cons frame rest ih => exact ih frame.element

/-- The innermost element of the unfinished ones is the last of them. -/
theorem innermost_eq_of_getLast? {root top : Unfinished} {spine : List Unfinished}
    (h : (root :: spine).getLast? = some top) :
    innermost root.element (spine.map Unfinished.frame) = top.element := by
  induction spine generalizing root with
  | nil =>
    simp only [List.getLast?_singleton, Option.some.injEq] at h
    rw [h]
    rfl
  | cons node rest ih =>
    rw [List.getLast?_cons_cons] at h
    exact ih h

end OpenElement

namespace Draft

/-- The frames of the open elements, the outermost first. -/
def frames (draft : Draft) : List Frame := draft.opened.reverse.map Unfinished.frame

/-- The names of the open elements below the root. -/
def cursor (draft : Draft) : List String := (draft.frames.drop 1).map Frame.name

/-- The open elements as a tree. -/
def tree (draft : Draft) : OpenTree :=
  match draft.frames with
  | [] => ⟨none⟩
  | root :: spine => ⟨some (.chain root.element spine)⟩

/-- The number of the innermost open element. -/
def innermost (draft : Draft) : Nat :=
  match draft.frames with
  | [] => 0
  | root :: spine => OpenElement.innermost root.element spine

/-- Nodes that are put in leave the frames as they are. -/
@[simp]
theorem frames_append (nodes : List Markup) (draft : Draft) :
    (draft.append nodes).frames = draft.frames := by
  obtain ⟨opened, finished, next⟩ := draft
  cases opened <;> simp [append, frames, Unfinished.frame]

/-- Attributes that are set leave the frames as they are. -/
@[simp]
theorem frames_setAttributes (attrs : List (String × String)) (draft : Draft) :
    (draft.setAttributes attrs).frames = draft.frames := by
  obtain ⟨opened, finished, next⟩ := draft
  cases opened <;> simp [setAttributes, frames, Unfinished.frame]

/-- Numbers that are skipped leave the frames as they are. -/
@[simp]
theorem frames_skip (count : Nat) (draft : Draft) : (draft.skip count).frames = draft.frames := rfl

/-- The innermost element of a draft is the one at the top. -/
theorem innermost_eq {draft : Draft} {top : Unfinished} {outer : List Unfinished}
    (h : draft.opened = top :: outer) : draft.innermost = top.element := by
  cases hreverse : draft.opened.reverse with
  | nil => simp [h] at hreverse
  | cons root spine =>
    have hlast : (root :: spine).getLast? = some top := by
      rw [← hreverse, h]
      simp
    have hinnermost := OpenElement.innermost_eq_of_getLast? hlast
    unfold innermost frames
    rw [hreverse]
    exact hinnermost

/-- Elements that are started put their frames behind the others. -/
theorem frames_startAll (names : List String) (draft : Draft) :
    (draft.startAll names).frames =
      draft.frames ++ (Unfinished.fresh draft.nextElement names).map Unfinished.frame := by
  simp [frames, opened_startAll]

/-- Elements that are finished take their frames away from the end. -/
theorem frames_finishTops {inside outside : List Unfinished} {draft : Draft}
    (h : draft.opened = inside ++ outside) :
    (draft.finishTops inside.length).frames = outside.reverse.map Unfinished.frame := by
  rw [finishTops_eq_append h, frames_append]
  rfl

end Draft

namespace OpenTree

variable {ω : Type} [Output ω] (reliable : Output.Reliable ω) (front : ByteArray)

/-- A tree and a stream show a draft: the tree is that of its open elements. -/
def Shows (draft : Draft) (state : OpenTree × XmlStream ω) : Prop :=
  state.1 = draft.tree ∧ XmlStream.Shows reliable front draft state.2

/-- The output of the stream takes everything. -/
def Safe (state : OpenTree × XmlStream ω) : Prop := XmlStream.Safe reliable state.2

/-- Closing the empty path closes every open element. -/
theorem closePath_nil_writes {draft : Draft} {root : Unfinished} {spine : List Unfinished}
    (hopened : draft.opened.reverse = root :: spine) :
    Action.Writes (Shows reliable front) (Safe reliable) [] (closePath []) draft ()
      (draft.finishTops draft.opened.length) := by
  have hsplit := Draft.opened_eq hopened
  have hlength : draft.opened.length = spine.length + 1 := by simp [hsplit]
  have htree : draft.tree = ⟨some (.chain root.element (spine.map Unfinished.frame))⟩ := by
    simp [Draft.tree, Draft.frames, hopened, Unfinished.frame]
  have hframes : (draft.finishTops draft.opened.length).frames = [] :=
    Draft.frames_finishTops (List.append_nil draft.opened).symm
  refine Action.Writes.of_ok fun state h => ?_
  obtain ⟨left, hleft, hshows⟩ :=
    OpenElement.close_chain_writes reliable front spine hsplit state.2 h.2
  refine ⟨(⟨none⟩, left), ?_, ?_, ?_⟩
  · simp only [Action.run] at hleft ⊢
    simp only [closePath, h.1, htree, List.getLast?_nil, hleft]
  · simp only [Draft.tree, hframes]
  · rw [hlength]
    exact hshows

/-- Closing a path that is open closes its element and everything below. -/
theorem closePath_writes {draft : Draft} {root node : Unfinished} {above deeper : List Unfinished}
    (hopened : draft.opened.reverse = root :: (above ++ node :: deeper)) :
    Action.Writes (Shows reliable front) (Safe reliable) []
      (closePath (above.map Unfinished.name ++ [node.name])) draft ()
      (draft.finishTops (deeper.length + 1)) := by
  have hinside : draft.opened = (deeper.reverse ++ [node]) ++ (root :: above).reverse := by
    rw [Draft.opened_split hopened, List.reverse_cons]
  have hsplit : draft.opened = deeper.reverse ++ node :: (root :: above).reverse := by
    rw [hinside, List.append_assoc, List.singleton_append]
  have htree : draft.tree = ⟨some (.chain root.element
      (above.map Unfinished.frame ++ node.frame :: deeper.map Unfinished.frame))⟩ := by
    simp [Draft.tree, Draft.frames, hopened, Unfinished.frame]
  have hlength : (deeper.reverse ++ [node]).length = deeper.length + 1 := by simp
  have hframes : (draft.finishTops (deeper.length + 1)).frames =
      (root :: above).map Unfinished.frame := by
    rw [← hlength, Draft.frames_finishTops hinside, List.reverse_reverse]
  refine Action.Writes.of_ok fun state h => ?_
  obtain ⟨left, hleft, hshows⟩ :=
    OpenElement.close_chain_writes reliable front deeper hsplit state.2 h.2
  have hbelow := OpenElement.closeBelow_chain (above.map Unfinished.frame) node.frame
    (deeper.map Unfinished.frame) root.element state.2
  have hnames : (above.map Unfinished.frame).map Frame.name = above.map Unfinished.name := by
    simp [Unfinished.frame]
  rw [hnames] at hbelow
  refine ⟨(⟨some (.chain root.element (above.map Unfinished.frame))⟩, left), ?_, ?_, hshows⟩
  · simp only [Action.run, Unfinished.frame] at hleft hbelow ⊢
    simp only [closePath, h.1, htree, List.getLast?_concat, List.dropLast_concat, Unfinished.frame,
      hbelow, hleft]
  · simp only [Draft.tree, hframes, List.map_cons]
    rfl

/-- Opening a path that goes on behind the open elements opens the rest of it, up to the first text
that is no name. -/
theorem openPath_behind (names : List String) {draft : Draft} {root : Unfinished}
    {spine : List Unfinished} (hopened : draft.opened.reverse = root :: spine)
    {state : OpenTree × XmlStream ω} (h : Shows reliable front draft state) :
    ∃ left, (openPath (draft.cursor ++ names)).run state =
        (match Name.firstInvalid? names with
          | none => .ok (draft.startAll (names.takeWhile Name.isValid)).innermost
          | some name => .error (.invalidName name), left) ∧
      Shows reliable front (draft.startAll (names.takeWhile Name.isValid)) left := by
  let kept := spine.map Unfinished.frame
  let fresh := (Unfinished.fresh draft.nextElement (names.takeWhile Name.isValid)).map
    Unfinished.frame
  have hframes : draft.frames = root.frame :: kept := by
    simp [Draft.frames, hopened, kept]
  have hafter : (draft.startAll (names.takeWhile Name.isValid)).frames =
      root.frame :: (kept ++ fresh) := by
    rw [Draft.frames_startAll, hframes, List.cons_append]
  have hcursor : draft.cursor = kept.map Frame.name := by simp [Draft.cursor, hframes]
  obtain ⟨top, outer, htop⟩ : ∃ top outer, draft.opened = top :: outer := by
    cases h : draft.opened with
    | nil => simp [h] at hopened
    | cons top outer => exact ⟨top, outer, rfl⟩
  have hinnermost : top.element = OpenElement.innermost root.element kept := by
    have hlast : (root :: spine).getLast? = some top := by rw [← hopened, htop]; simp
    rw [← OpenElement.innermost_eq_of_getLast? hlast]
  obtain ⟨left, hleft, hshows⟩ := OpenElement.openBelow_fresh reliable front names htop h.2
  rw [hinnermost] at hleft
  have hopen := OpenElement.openBelow_chain kept names root.element hleft
  refine ⟨(⟨some (.chain root.element (kept ++ fresh))⟩, left), ?_, ?_, hshows⟩
  · rw [← OpenElement.innermost_append] at hopen
    simp only [Action.run, openPath, h.1, Draft.tree, hframes, hcursor, Draft.innermost, hafter,
      Unfinished.frame, hopen]
    rfl
  · simp only [Draft.tree, hafter]
    rfl

/-- Opening names behind the cursor starts an element for each of them. -/
theorem openPath_writes (names : List String) {draft : Draft} {root : Unfinished}
    {spine : List Unfinished} (hopened : draft.opened.reverse = root :: spine) :
    Action.Writes (Shows reliable front) (Safe reliable) names (openPath (draft.cursor ++ names))
      draft (draft.startAll names).innermost (draft.startAll names) := by
  intro state h
  obtain ⟨left, hleft, hshows⟩ := openPath_behind reliable front names hopened h
  cases hnames : Name.firstInvalid? names with
  | none =>
    rw [hnames, Name.takeWhile_isValid hnames] at hleft
    rw [Name.takeWhile_isValid hnames] at hshows
    exact ⟨left, hleft, hshows⟩
  | some bad =>
    rw [hnames] at hleft
    exact ⟨left, hleft, hshows.2.holds⟩

end OpenTree

end XmlWorkload
