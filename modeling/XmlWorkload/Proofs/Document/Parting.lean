import XmlWorkload.Document.Basic
import XmlWorkload.Proofs.Action

/-!
# Documents that go on alike until one of them fails

What a document does is settled by what its sink does.  Let the operations of two sinks give the same
results in related states and leave related states behind, unless the first sink fails where the
second need not; the states have parted then, and stay so whatever the second sink does.  Main
statements: documents in the same state on such sinks stay in the same state with the same results
until the first one is failed, whatever is written to them (`Document.emit_until`) and when they are
closed (`Document.close_until`).
-/

set_option autoImplicit false

namespace XmlWorkload

namespace Action

variable {σ τ σ' τ' α β ε ρ : Type} {related : σ → τ → Prop} {parted : Error → σ → τ → Prop}

/-- Two outcomes are the same in related states, or the first one is a failure and the states have
parted at its error. -/
def AlikeOutcome (related : σ → τ → Prop) (parted : ε → σ → τ → Prop) (first : Except ε α × σ)
    (second : Except ε α × τ) : Prop :=
  (first.1 = second.1 ∧ related first.2 second.2) ∨
    ∃ error, first.1 = .error error ∧ parted error first.2 second.2

/-- Outcomes stay alike when what is around their states is put back. -/
theorem AlikeOutcome.imp {related : σ → τ → Prop} {parted : ε → σ → τ → Prop}
    {related' : σ' → τ' → Prop} {parted' : ε → σ' → τ' → Prop} {result result' : Except ε α}
    {state : σ} {other : τ} {state' : σ'} {other' : τ'}
    (h : AlikeOutcome related parted (result, state) (result', other))
    (hrelated : related state other → related' state' other')
    (hparted : ∀ error, parted error state other → parted' error state' other') :
    AlikeOutcome related' parted' (result, state') (result', other') :=
  Or.imp (fun hsame => ⟨hsame.1, hrelated hsame.2⟩)
    (fun ⟨error, herror, hleft⟩ => ⟨error, herror, hparted error hleft⟩) h

/-- In related states two actions have the same outcome, unless the first one fails and the states
part.  The second one leaves states parted that have parted before. -/
structure AlikeUntil (related : σ → τ → Prop) (parted : Error → σ → τ → Prop)
    (first : Action σ α) (second : Action τ α) : Prop where
  outcome : ∀ ⦃state : σ⦄ ⦃other : τ⦄, related state other →
    AlikeOutcome related parted (first.run state) (second.run other)
  keeps : ∀ ⦃error : Error⦄ ⦃state : σ⦄ ⦃other : τ⦄, parted error state other →
    parted error state (second.run other).2

namespace AlikeUntil

/-- Giving a value does nothing. -/
theorem pure (value : α) : AlikeUntil related parted (Pure.pure value : Action σ α)
    (Pure.pure value : Action τ α) :=
  ⟨fun _ _ hrelated => .inl ⟨rfl, hrelated⟩, fun _ _ _ hparted => hparted⟩

/-- Failing with the same error is the same on both sides. -/
theorem fail (error : Error) : AlikeUntil related parted (Action.fail error : Action σ α)
    (Action.fail error : Action τ α) :=
  ⟨fun _ _ hrelated => .inl ⟨rfl, hrelated⟩, fun _ _ _ hparted => hparted⟩

/-- Giving the same result is the same on both sides. -/
theorem ofExcept (result : Except Error α) :
    AlikeUntil related parted (Action.ofExcept result : Action σ α)
      (Action.ofExcept result : Action τ α) :=
  ⟨fun _ _ hrelated => .inl ⟨rfl, hrelated⟩, fun _ _ _ hparted => hparted⟩

/-- Changes that keep the relation come to the same until one side raises. -/
theorem change {f : σ → σ} {g : τ → τ}
    (h : ∀ state other, related state other → related (f state) (g other))
    (hkeeps : ∀ error state other, parted error state other → parted error state (g other)) :
    AlikeUntil related parted (Action.change f) (Action.change g) :=
  ⟨fun state other hrelated => .inl ⟨rfl, h state other hrelated⟩, hkeeps⟩

/-- Actions that go on alike after alike actions are alike. -/
theorem bind {first : Action σ α} {second : Action τ α} {next : α → Action σ β}
    {next' : α → Action τ β} (h : AlikeUntil related parted first second)
    (hnext : ∀ value, AlikeUntil related parted (next value) (next' value)) :
    AlikeUntil related parted (first >>= next) (second >>= next') := by
  -- once the states have parted, the second action can go on as it likes
  have hkeeps : ∀ {error state other}, parted error state (second.run other).2 →
      parted error state ((second >>= next').run other).2 := by
    intro error state other hparted
    rcases hrun : second.run other with ⟨result, left⟩
    rw [hrun] at hparted
    cases result with
    | error fault => rwa [run_bind_of_error hrun]
    | ok value =>
      rw [run_bind_of_ok hrun]
      exact (hnext value).keeps hparted
  constructor
  · intro state other hrelated
    rcases h.outcome hrelated with ⟨hresult, hleft⟩ | ⟨error, herror, hparted⟩
    · rcases hrun : first.run state with ⟨result, left⟩
      rcases hrun' : second.run other with ⟨result', left'⟩
      rw [hrun, hrun'] at hresult hleft
      obtain rfl : result = result' := hresult
      cases result with
      | error error =>
        rw [run_bind_of_error hrun, run_bind_of_error hrun']
        exact .inl ⟨rfl, hleft⟩
      | ok value =>
        rw [run_bind_of_ok hrun, run_bind_of_ok hrun']
        exact (hnext value).outcome hleft
    · have hrun : first.run state = (.error error, (first.run state).2) := Prod.ext herror rfl
      rw [run_bind_of_error hrun]
      exact .inr ⟨error, rfl, hkeeps hparted⟩
  · intro error state other hparted
    exact hkeeps (h.keeps hparted)

/-- Actions that look at the state are alike if they look at something in which related states
agree. -/
theorem getState_bind {view : σ → ρ} {view' : τ → ρ} {next : ρ → Action σ β}
    {next' : ρ → Action τ β} (hview : ∀ state other, related state other → view state = view' other)
    (h : ∀ seen, AlikeUntil related parted (next seen) (next' seen)) :
    AlikeUntil related parted (getState >>= fun state => next (view state))
      (getState >>= fun other => next' (view' other)) := by
  constructor
  · intro state other hrelated
    have hnext := (h (view' other)).outcome hrelated
    rw [← hview state other hrelated] at hnext
    rw [run_getState_bind, run_getState_bind]
    rwa [hview state other hrelated] at hnext ⊢
  · intro error state other hparted
    exact (h (view' other)).keeps hparted

/-- Alike actions on related parts of two states are alike.  The states have parted when their parts
have. -/
theorem on {related' : σ' → τ' → Prop} {part : σ' → σ} {part' : τ' → τ} {replace : σ → σ' → σ'}
    {replace' : τ → τ' → τ'} {first : Action σ α} {second : Action τ α}
    (h : AlikeUntil related parted first second)
    (hpart : ∀ state other, related' state other → related (part state) (part' other))
    (hreplace : ∀ state other changed changed', related' state other → related changed changed' →
      related' (replace changed state) (replace' changed' other))
    (hget : ∀ changed state, part (replace changed state) = changed)
    (hget' : ∀ changed other, part' (replace' changed other) = changed) :
    AlikeUntil related' (fun error state other => parted error (part state) (part' other))
      (first.on part replace) (second.on part' replace') := by
  constructor
  · intro state other hrelated
    rw [run_on, run_on]
    refine (h.outcome (hpart state other hrelated)).imp
      (hreplace state other _ _ hrelated) fun error hparted => ?_
    rwa [hget, hget']
  · intro error state other hparted
    rw [run_on, hget']
    exact h.keeps hparted

end AlikeUntil

end Action

/-- The operations of two sinks are alike until the first sink fails. -/
structure Sink.AlikeUntil {σ τ : Type} [Sink σ] [Sink τ] (related : σ → τ → Prop)
    (parted : Error → σ → τ → Prop) : Prop where
  root : ∀ sink other, related sink other → Sink.root sink = Sink.root other
  startElement : ∀ parent name, Action.AlikeUntil related parted
    (Sink.startElement parent name : Action σ Nat) (Sink.startElement parent name : Action τ Nat)
  setAttribute : ∀ element name value, Action.AlikeUntil related parted
    (Sink.setAttribute element name value : Action σ Unit)
    (Sink.setAttribute element name value : Action τ Unit)
  writeText : ∀ element text, Action.AlikeUntil related parted
    (Sink.writeText element text : Action σ Unit) (Sink.writeText element text : Action τ Unit)
  endElement : ∀ element, Action.AlikeUntil related parted
    (Sink.endElement element : Action σ Unit) (Sink.endElement element : Action τ Unit)
  finish : Action.AlikeUntil related parted (Sink.finish : Action σ Unit)
    (Sink.finish : Action τ Unit)

variable {σ τ : Type} [Sink σ] [Sink τ] {related : σ → τ → Prop} {parted : Error → σ → τ → Prop}

namespace OpenTree

/-- The same open elements on related sinks. -/
def Related {α : Type} (related : σ → τ → Prop) (first : α × σ) (second : α × τ) : Prop :=
  first.1 = second.1 ∧ related first.2 second.2

/-- Open elements on sinks that have parted. -/
def Parted {α : Type} (parted : Error → σ → τ → Prop) (error : Error) (first : α × σ)
    (second : α × τ) : Prop :=
  parted error first.2 second.2

omit [Sink σ] [Sink τ] in
/-- Outcomes with the same open elements stay alike when these are put back into the same place. -/
theorem alikeOutcome_map {α β γ : Type} (f : α → β) {first : Except Error γ × α × σ}
    {second : Except Error γ × α × τ}
    (h : Action.AlikeOutcome (Related related) (Parted parted) first second) :
    Action.AlikeOutcome (Related related) (Parted parted) (first.1, f first.2.1, first.2.2)
      (second.1, f second.2.1, second.2.2) :=
  h.imp (fun hsame => ⟨congrArg f hsame.1, hsame.2⟩) fun _ hparted => hparted

end OpenTree

namespace Document

/-- Two documents are in the same state on related sinks. -/
structure Related (related : σ → τ → Prop) (first : Document σ) (second : Document τ) : Prop where
  label : first.label = second.label
  sink : related first.sink second.sink
  tree : first.tree = second.tree
  cursor : first.cursor = second.cursor
  status : first.status = second.status
  emitted : first.emitted = second.emitted

/-- Two documents on sinks that have parted, in the middle of being written. -/
def Torn (parted : Error → σ → τ → Prop) (error : Error) (first : Document σ)
    (second : Document τ) : Prop :=
  parted error first.sink second.sink

/-- Two documents have parted: the first one is failed, and so have their sinks. -/
def Parted (parted : Error → σ → τ → Prop) (error : Error) (first : Document σ)
    (second : Document τ) : Prop :=
  first.status = .failed error ∧ parted error first.sink second.sink

end Document

namespace OpenElement

open XmlWorkload.Action (AlikeOutcome AlikeUntil)

/-- Opening a path leaves sinks parted that have parted before. -/
theorem openBelow_keeps (h : Sink.AlikeUntil related parted) (path : List String)
    (node : OpenElement) {error : Error} {sink : σ} {other : τ} (hparted : parted error sink other) :
    parted error sink (openBelow path node other).2.2 := by
  induction path generalizing node other with
  | nil => exact hparted
  | cons name path ih =>
    unfold openBelow
    cases node.child? name with
    | some child => exact ih child hparted
    | none =>
      have hstart := (h.startElement node.element name).keeps hparted
      simp only [Action.run] at hstart
      rcases hrun : Sink.startElement node.element name other with ⟨⟨⟩ | ⟨⟩, left⟩
      · rwa [hrun] at hstart
      · rw [hrun] at hstart
        exact ih _ hstart

/-- Opening a path opens the same elements until the first sink fails. -/
theorem openBelow_until (h : Sink.AlikeUntil related parted) (path : List String)
    (node : OpenElement) {sink : σ} {other : τ} (hrelated : related sink other) :
    AlikeOutcome (OpenTree.Related related) (OpenTree.Parted parted) (openBelow path node sink)
      (openBelow path node other) := by
  induction path generalizing node sink other with
  | nil => exact .inl ⟨rfl, rfl, hrelated⟩
  | cons name path ih =>
    unfold openBelow
    cases hchild : node.child? name with
    | some child => exact OpenTree.alikeOutcome_map (node.setChild name) (ih child hrelated)
    | none =>
      have hstart := (h.startElement node.element name).outcome hrelated
      simp only [Action.run] at hstart
      rcases hrun : Sink.startElement node.element name sink with ⟨result, left⟩
      rcases hrun' : Sink.startElement node.element name other with ⟨result', left'⟩
      rw [hrun, hrun'] at hstart
      rcases hstart with ⟨hresult, hleft⟩ | ⟨error, herror, hparted⟩
      · obtain rfl : result = result' := hresult
        cases result with
        | error error => exact .inl ⟨rfl, rfl, hleft⟩
        | ok element =>
          exact OpenTree.alikeOutcome_map (node.setChild name) (ih (.mk element []) hleft)
      · -- the second sink may go on alone with what is missing of the path
        obtain rfl : result = .error error := herror
        refine .inr ⟨error, rfl, ?_⟩
        cases result' with
        | error fault => exact hparted
        | ok element => exact openBelow_keeps h path (.mk element []) hparted

mutual

/-- Closing an element on related sinks comes to the same until one of them raises. -/
theorem close_until (h : Sink.AlikeUntil related parted) :
    ∀ node : OpenElement, AlikeUntil related parted (node.close : Action σ Unit) node.close
  | .mk element children => by
    unfold close
    exact (closeChildren_until h children).bind fun _ => h.endElement element

/-- Closing children on related sinks comes to the same until one of them raises. -/
theorem closeChildren_until (h : Sink.AlikeUntil related parted) :
    ∀ children : List (String × OpenElement),
      AlikeUntil related parted (closeChildren children : Action σ Unit) (closeChildren children)
  | [] => by
    unfold closeChildren
    exact .pure ()
  | (_, child) :: rest => by
    unfold closeChildren
    exact (close_until h child).bind fun _ => closeChildren_until h rest

end

/-- Closing a path leaves sinks parted that have parted before. -/
theorem closeBelow_keeps (h : Sink.AlikeUntil related parted) (last : String) (path : List String)
    (node : OpenElement) {error : Error} {sink : σ} {other : τ} (hparted : parted error sink other) :
    parted error sink (closeBelow last path node other).2.2 := by
  induction path generalizing node with
  | nil =>
    unfold closeBelow
    cases node.child? last with
    | some child => exact (close_until h child).keeps hparted
    | none => exact hparted
  | cons name path ih =>
    unfold closeBelow
    cases node.child? name with
    | some child => exact ih child
    | none => exact hparted

/-- Closing a path closes the same elements until the first sink fails. -/
theorem closeBelow_until (h : Sink.AlikeUntil related parted) (last : String) (path : List String)
    (node : OpenElement) {sink : σ} {other : τ} (hrelated : related sink other) :
    AlikeOutcome (OpenTree.Related related) (OpenTree.Parted parted)
      (closeBelow last path node sink) (closeBelow last path node other) := by
  induction path generalizing node with
  | nil =>
    unfold closeBelow
    cases node.child? last with
    | some child =>
      exact ((close_until h child).outcome hrelated).imp (fun hleft => ⟨rfl, hleft⟩)
        fun _ hparted => hparted
    | none => exact .inl ⟨rfl, rfl, hrelated⟩
  | cons name path ih =>
    unfold closeBelow
    cases node.child? name with
    | some child => exact OpenTree.alikeOutcome_map (node.setChild name) (ih child)
    | none => exact .inl ⟨rfl, rfl, hrelated⟩

end OpenElement

namespace OpenTree

open XmlWorkload.Action (AlikeUntil)

/-- Opening a path on related sinks comes to the same until one of them raises. -/
theorem openPath_until (h : Sink.AlikeUntil related parted) (path : List String) :
    AlikeUntil (Related related) (Parted parted) (openPath path : Action (OpenTree × σ) Nat)
      (openPath path) := by
  constructor
  · rintro ⟨tree, sink⟩ ⟨_, other⟩ ⟨rfl, hrelated⟩
    simp only [Action.run, openPath]
    cases tree.root with
    | none => exact .inl ⟨rfl, rfl, hrelated⟩
    | some root =>
      exact alikeOutcome_map (fun root => OpenTree.mk (some root))
        (OpenElement.openBelow_until h path root hrelated)
  · rintro error ⟨_, sink⟩ ⟨tree, other⟩ hparted
    simp only [Action.run, openPath]
    cases tree.root with
    | none => exact hparted
    | some root => exact OpenElement.openBelow_keeps h path root hparted

/-- Closing a path on related sinks comes to the same until one of them raises. -/
theorem closePath_until (h : Sink.AlikeUntil related parted) (path : List String) :
    AlikeUntil (Related related) (Parted parted) (closePath path : Action (OpenTree × σ) Unit)
      (closePath path) := by
  constructor
  · rintro ⟨tree, sink⟩ ⟨_, other⟩ ⟨rfl, hrelated⟩
    simp only [Action.run, closePath]
    cases tree.root with
    | none => exact .inl ⟨rfl, rfl, hrelated⟩
    | some root =>
      cases path.getLast? with
      | none =>
        exact ((OpenElement.close_until h root).outcome hrelated).imp (fun hleft => ⟨rfl, hleft⟩)
          fun _ hparted => hparted
      | some last =>
        exact alikeOutcome_map (fun root => OpenTree.mk (some root))
          (OpenElement.closeBelow_until h last path.dropLast root hrelated)
  · rintro error ⟨_, sink⟩ ⟨tree, other⟩ hparted
    simp only [Action.run, closePath]
    cases tree.root with
    | none => exact hparted
    | some root =>
      cases path.getLast? with
      | none => exact (OpenElement.close_until h root).keeps hparted
      | some last => exact OpenElement.closeBelow_keeps h last path.dropLast root hparted

end OpenTree

namespace Document

open XmlWorkload.Action (AlikeUntil)

/-- New documents on related sinks are related. -/
theorem new_until (h : Sink.AlikeUntil related parted) (label : String) {sink : σ} {other : τ}
    (hrelated : related sink other) : Related related (new label sink) (new label other) :=
  ⟨rfl, hrelated, congrArg OpenTree.new (h.root sink other hrelated), rfl, rfl, rfl⟩

omit [Sink σ] [Sink τ] in
/-- An action on sinks comes to the same on documents until a sink raises. -/
theorem onSink_until {α : Type} {first : Action σ α} {second : Action τ α}
    (h : AlikeUntil related parted first second) :
    AlikeUntil (Related related) (Torn parted) (onSink first) (onSink second) :=
  h.on (fun _ _ hrelated => hrelated.sink)
    (fun _ _ _ _ hrelated hchanged => { hrelated with sink := hchanged })
    (fun _ _ => rfl) fun _ _ => rfl

omit [Sink σ] [Sink τ] in
/-- An action on open elements comes to the same on documents until a sink raises. -/
theorem onTree_until {α : Type} {first : Action (OpenTree × σ) α}
    {second : Action (OpenTree × τ) α}
    (h : AlikeUntil (OpenTree.Related related) (OpenTree.Parted parted) first second) :
    AlikeUntil (Related related) (Torn parted) (onTree first) (onTree second) := by
  have hpart : ∀ (first : Document σ) (second : Document τ), Related related first second →
      OpenTree.Related related (first.tree, first.sink) (second.tree, second.sink) :=
    fun _ _ hrelated => ⟨hrelated.tree, hrelated.sink⟩
  refine h.on hpart ?_ (fun _ _ => rfl) fun _ _ => rfl
  intro first second changed changed' hrelated hchanged
  exact { hrelated with tree := hchanged.1, sink := hchanged.2 }

omit [Sink σ] [Sink τ] in
/-- A change of documents that does not concern their sinks. -/
theorem change_until {f : Document σ → Document σ} {g : Document τ → Document τ}
    (h : ∀ first second, Related related first second → Related related (f first) (g second))
    (hsink : ∀ second, (g second).sink = second.sink) :
    AlikeUntil (Related related) (Torn parted) (Action.change f) (Action.change g) :=
  .change h fun error first second hparted => by rwa [Torn, hsink]

/-- Writing attributes on related sinks comes to the same until one of them raises. -/
theorem writeAttributes_until (h : Sink.AlikeUntil related parted) (element : Nat)
    (attrs : List (String × String)) :
    AlikeUntil related parted (writeAttributes element attrs : Action σ Unit)
      (writeAttributes element attrs) := by
  induction attrs with
  | nil => exact .pure ()
  | cons attr rest ih =>
    unfold writeAttributes
    exact (h.setAttribute element attr.1 attr.2).bind fun _ => ih

mutual

/-- Writing an element on related sinks comes to the same until one of them raises. -/
theorem writeElement_until (h : Sink.AlikeUntil related parted) (parent : Nat) :
    ∀ element : Element, AlikeUntil related parted (writeElement parent element : Action σ Unit)
      (writeElement parent element)
  | .mk name attrs children body => by
    unfold writeElement
    refine (h.startElement parent name).bind fun element => ?_
    refine (writeAttributes_until h element attrs).bind fun _ => ?_
    refine (writeElements_until h element children).bind fun _ => ?_
    exact (h.writeText element body).bind fun _ => h.endElement element

/-- Writing elements on related sinks comes to the same until one of them raises. -/
theorem writeElements_until (h : Sink.AlikeUntil related parted) (parent : Nat) :
    ∀ elements : List Element,
      AlikeUntil related parted (writeElements parent elements : Action σ Unit)
        (writeElements parent elements)
  | [] => by
    unfold writeElements
    exact .pure ()
  | element :: rest => by
    unfold writeElements
    exact (writeElement_until h parent element).bind fun _ => writeElements_until h parent rest

end

/-- The second half of a move: what is missing of a path is opened below the names that stay
open. -/
def openFrom (kept : Nat) (path : List String) : Action (Document σ) Nat := do
  Action.change fun document => { document with cursor := document.cursor.take kept }
  let leaf ← onTree (OpenTree.openPath path)
  Action.change fun document => { document with cursor := path }
  pure leaf

/-- A move to a path behind a cursor: what lies below their common names is closed first. -/
def moveFrom (cursor path : List String) : Action (Document σ) Nat :=
  let kept := OpenTree.divergence cursor path
  if kept < cursor.length then do
    onTree (OpenTree.closePath (cursor.take (kept + 1)))
    openFrom kept path
  else openFrom kept path

/-- Moving to a path begins with a look at the cursor. -/
theorem moveTo_eq (path : List String) :
    (moveTo path : Action (Document σ) Nat) =
      Action.getState >>= fun document => moveFrom document.cursor path :=
  rfl

/-- Opening what is left of a path on related sinks comes to the same until one of them raises. -/
theorem openFrom_until (h : Sink.AlikeUntil related parted) (kept : Nat) (path : List String) :
    AlikeUntil (Related related) (Torn parted) (openFrom kept path : Action (Document σ) Nat)
      (openFrom kept path) := by
  unfold openFrom
  refine (change_until ?_ ?_).bind fun _ => ?_
  · intro first second hrelated
    exact { hrelated with cursor := congrArg (List.take kept) hrelated.cursor }
  · exact fun _ => rfl
  refine (onTree_until (OpenTree.openPath_until h path)).bind fun leaf => ?_
  refine (change_until ?_ ?_).bind fun _ => .pure leaf
  · exact fun first second hrelated => { hrelated with cursor := rfl }
  · exact fun _ => rfl

/-- Moving from a cursor on related sinks comes to the same until one of them raises. -/
theorem moveFrom_until (h : Sink.AlikeUntil related parted) (cursor path : List String) :
    AlikeUntil (Related related) (Torn parted) (moveFrom cursor path : Action (Document σ) Nat)
      (moveFrom cursor path) := by
  let kept := OpenTree.divergence cursor path
  have hclosing := onTree_until (OpenTree.closePath_until h (cursor.take (kept + 1)))
  -- both close down to the level where the path leaves the cursor, or neither closes anything
  unfold moveFrom
  by_cases hdeeper : OpenTree.divergence cursor path < cursor.length
  · simp only [if_pos hdeeper]
    exact hclosing.bind fun _ => openFrom_until h kept path
  · simp only [if_neg hdeeper]
    exact openFrom_until h kept path

/-- Moving to a path closes and opens the same elements until the first sink fails. -/
theorem moveTo_until (h : Sink.AlikeUntil related parted) (path : List String) :
    AlikeUntil (Related related) (Torn parted) (moveTo path : Action (Document σ) Nat)
      (moveTo path) := by
  have hcursor : ∀ (first : Document σ) (second : Document τ), Related related first second →
      first.cursor = second.cursor := fun _ _ hrelated => hrelated.cursor
  rw [moveTo_eq, moveTo_eq]
  exact .getState_bind hcursor fun cursor => moveFrom_until h cursor path

/-- Writing a template on related sinks comes to the same until one of them raises. -/
theorem write_until (h : Sink.AlikeUntil related parted) (path : List String) (template : Template)
    (children : List Element) :
    AlikeUntil (Related related) (Torn parted)
      (write path template children : Action (Document σ) Unit) (write path template children) := by
  unfold write
  refine (moveTo_until h path).bind fun leaf => ?_
  refine (onSink_until (writeAttributes_until h leaf template.attrs.entries)).bind fun _ => ?_
  refine (onSink_until (writeElements_until h leaf children)).bind fun _ => ?_
  exact onSink_until (h.writeText leaf template.body)

/-- What is done after a document was written, or could not be: a failure leaves it failed. -/
structure Concludes (next : Except Error Unit → Action (Document σ) Unit) : Prop where
  /-- A failure is passed on, and becomes the reason why the document is unusable. -/
  error : ∀ error document, ((next (.error error)).run document).1 = .error error ∧
    ((next (.error error)).run document).2.status = .failed error
  sink : ∀ result document, ((next result).run document).2.sink = document.sink

omit [Sink σ] [Sink τ] in
/-- Writing and what is done after it are alike until the first document is failed. -/
theorem attempt_until {first : Action (Document σ) Unit} {second : Action (Document τ) Unit}
    {next : Except Error Unit → Action (Document σ) Unit}
    {next' : Except Error Unit → Action (Document τ) Unit}
    (h : AlikeUntil (Related related) (Torn parted) first second)
    (hnext : ∀ result first second, Related related first second →
      ((next result).run first).1 = ((next' result).run second).1 ∧
        Related related ((next result).run first).2 ((next' result).run second).2)
    (hfirst : Concludes next) (hsecond : Concludes next') :
    AlikeUntil (Related related) (Parted parted) (first.attempt >>= next)
      (second.attempt >>= next') := by
  have hrun : ∀ document, (second.attempt >>= next').run document =
      (next' (second.run document).1).run (second.run document).2 := fun document => rfl
  constructor
  · intro document other hrelated
    have hrun' : (first.attempt >>= next).run document =
        (next (first.run document).1).run (first.run document).2 := rfl
    rw [hrun, hrun']
    rcases h.outcome hrelated with ⟨hresult, hleft⟩ | ⟨error, herror, htorn⟩
    · rw [hresult]
      exact .inl (hnext _ _ _ hleft)
    · obtain ⟨hfails, hstatus⟩ := hfirst.error error (first.run document).2
      rw [herror]
      refine .inr ⟨error, hfails, hstatus, ?_⟩
      rw [hfirst.sink, hsecond.sink]
      exact htorn
  · rintro error document other ⟨hstatus, hparted⟩
    have hkeeps := h.keeps (show Torn parted error document other from hparted)
    refine ⟨hstatus, ?_⟩
    rw [hrun, hsecond.sink]
    exact hkeeps

omit [Sink σ] [Sink τ] in
/-- Related documents are both live or neither is. -/
theorem requireLive_until :
    AlikeUntil (Related related) (Parted parted) (requireLive : Action (Document σ) Unit)
      requireLive := by
  have hsame : ∀ document : Document τ, (requireLive.run document).2 = document := by
    intro document
    simp only [Action.run, requireLive]
    cases document.status <;> rfl
  constructor
  · intro first second hrelated
    refine .inl ?_
    simp only [Action.run, requireLive, hrelated.status]
    cases second.status <;> exact ⟨rfl, hrelated⟩
  · intro error first second hparted
    rwa [hsame]

/-- Whatever is written to documents in the same state, they give the same results and stay in the
same state until the first one is failed. -/
theorem emit_until (h : Sink.AlikeUntil related parted) (path : List String) (template : Template) :
    AlikeUntil (Related related) (Parted parted) (emit path template : Action (Document σ) Unit)
      (emit path template) := by
  unfold emit
  by_cases hpath : path = []
  · simp only [if_pos hpath]
    exact .fail .emptyPath
  simp only [if_neg hpath]
  refine (AlikeUntil.ofExcept template.resolve).bind fun children => ?_
  refine requireLive_until.bind fun _ => ?_
  refine attempt_until (write_until h path template children) ?_ ?_ ?_
  · intro result first second hrelated
    cases result with
    | ok value => exact ⟨rfl, { hrelated with emitted := congrArg (· + 1) hrelated.emitted }⟩
    | error error => exact ⟨rfl, { hrelated with status := rfl }⟩
  all_goals exact ⟨fun _ _ => ⟨rfl, rfl⟩, fun result _ => by cases result <;> rfl⟩

/-- The close of a document with a status. -/
def closeAs : Status → Action (Document σ) Unit
  | .closed => pure ()
  | .failed reason => Action.fail (.documentUnusable reason)
  | .live => do
    match ← complete.attempt with
    | .ok () => Action.change fun document => { document with cursor := [], status := .closed }
    | .error error =>
      Action.change fun document => { document with cursor := [], status := .failed error }
      Action.fail error

/-- Closing a document begins with a look at its status. -/
theorem close_eq :
    (close : Action (Document σ) Unit) =
      Action.getState >>= fun document => closeAs document.status :=
  rfl

/-- Closing with a status on related sinks comes to the same until one of them raises. -/
theorem closeAs_until (h : Sink.AlikeUntil related parted) (status : Status) :
    AlikeUntil (Related related) (Parted parted) (closeAs status : Action (Document σ) Unit)
      (closeAs status) := by
  have hcomplete : AlikeUntil (Related related) (Torn parted)
      (complete : Action (Document σ) Unit) complete :=
    (onTree_until (OpenTree.closePath_until h [])).bind fun _ => onSink_until h.finish
  cases status with
  | closed => exact .pure ()
  | failed reason => exact .fail (.documentUnusable reason)
  | live =>
    refine attempt_until hcomplete ?_ ?_ ?_
    · intro result first second hrelated
      cases result with
      | ok value => exact ⟨rfl, { hrelated with cursor := rfl, status := rfl }⟩
      | error error => exact ⟨rfl, { hrelated with cursor := rfl, status := rfl }⟩
    all_goals exact ⟨fun _ _ => ⟨rfl, rfl⟩, fun result _ => by cases result <;> rfl⟩

/-- Documents in the same state are in the same state when they are closed, unless the first one is
failed then. -/
theorem close_until (h : Sink.AlikeUntil related parted) :
    AlikeUntil (Related related) (Parted parted) (close : Action (Document σ) Unit) close := by
  have hstatus : ∀ (first : Document σ) (second : Document τ), Related related first second →
      first.status = second.status := fun _ _ hrelated => hrelated.status
  rw [close_eq, close_eq]
  exact .getState_bind hstatus fun status => closeAs_until h status

end Document

end XmlWorkload
