import XmlWorkload.Proofs.Document.Calls
import XmlWorkload.Proofs.Document.Recorded
import XmlWorkload.Proofs.Sink.Watched

/-!
# The life of a document

A document is live until its sink raises an error or it is closed, and nothing brings it back.
Which calls reach the sink, and which errors the sink raises, is told by watching it.  Main
statement: after any row of calls to a document on any sink the document has counted the emissions
that were granted, is at the path of the last of them if it is live, and answers the next emission
and the next close by rules that leave the sink alone unless the document is live
(`Document.life_of_calls`).
-/

set_option autoImplicit false

namespace XmlWorkload

namespace Action

variable {σ α β ρ : Type} {view : σ → ρ}

/-- An action leaves what a view shows of the state, whatever its result. -/
def Leaves (view : σ → ρ) (action : Action σ α) : Prop :=
  ∀ state, view (action.run state).2 = view state

namespace Leaves

/-- Giving a value leaves everything. -/
theorem pure (value : α) : Leaves view (Pure.pure value : Action σ α) := fun _ => rfl

/-- Two actions one after the other leave what both leave. -/
theorem bind {action : Action σ α} {next : α → Action σ β} (h : Leaves view action)
    (hnext : ∀ value, Leaves view (next value)) : Leaves view (action >>= next) := by
  intro state
  have hleft := h state
  rcases hrun : action.run state with ⟨error | value, left⟩
  · rw [hrun] at hleft
    rw [run_bind_of_error hrun]
    exact hleft
  · rw [hrun] at hleft
    rw [run_bind_of_ok hrun, hnext value left]
    exact hleft

end Leaves

end Action

namespace Document

open XmlWorkload.Action (Leaves)

variable {σ : Type} [Sink σ]

section Writing

variable {α ρ : Type} {view : Document σ → ρ}

omit [Sink σ] in
/-- An action on the sink leaves what a view shows without the sink. -/
theorem leaves_onSink (h : ∀ sink document, view { document with sink } = view document)
    (action : Action σ α) : Leaves view (onSink action) :=
  fun document => h _ document

omit [Sink σ] in
/-- An action on the open elements leaves what a view shows without them and the sink. -/
theorem leaves_onTree
    (h : ∀ tree sink document, view { document with tree, sink } = view document)
    (action : Action (OpenTree × σ) α) : Leaves view (onTree action) :=
  fun document => h _ _ document

/-- What a document can be used for, and how much was written to it. -/
def standing (document : Document σ) : Status × Nat := (document.status, document.emitted)

/-- Moving to a path leaves the status and the number of emissions. -/
theorem moveTo_leaves (path : List String) :
    Leaves standing (moveTo path : Action (Document σ) Nat) := by
  -- whether anything is closed first does not matter
  have hopening : ∀ kept, Leaves standing (openFrom kept path : Action (Document σ) Nat) := by
    intro kept
    refine Leaves.bind (fun _ => rfl) fun _ => ?_
    refine (leaves_onTree (fun _ _ _ => rfl) _).bind fun leaf => ?_
    exact Leaves.bind (fun _ => rfl) fun _ => .pure leaf
  intro document
  rw [moveTo_eq, Action.run_getState_bind]
  simp only [moveFrom]
  split
  · exact (leaves_onTree (fun _ _ _ => rfl) _).bind (fun _ => hopening _) document
  · exact hopening _ document

/-- A move that succeeds leads to its path. -/
theorem cursor_of_moveTo {path : List String} {document left : Document σ} {leaf : Nat}
    (h : (moveTo path).run document = (.ok leaf, left)) : left.cursor = path := by
  have hopening : ∀ {kept : Nat} {document left : Document σ},
      (openFrom kept path).run document = (.ok leaf, left) → left.cursor = path := by
    intro kept document left h
    obtain ⟨_, _, -, hopened⟩ := Action.of_bind_eq_ok h
    obtain ⟨_, between, -, hset⟩ := Action.of_bind_eq_ok hopened
    rw [Action.run_change_bind, Action.run_pure, Prod.mk.injEq] at hset
    exact hset.2 ▸ rfl
  rw [moveTo_eq, Action.run_getState_bind] at h
  simp only [moveFrom] at h
  split at h
  · obtain ⟨_, _, -, hopened⟩ := Action.of_bind_eq_ok h
    exact hopening hopened
  · exact hopening h

/-- Writing changes neither what a document can be used for nor how much was written to it. -/
theorem write_leaves (path : List String) (template : Template) (children : List Element) :
    Leaves standing (write path template children : Action (Document σ) Unit) := by
  unfold write
  refine (moveTo_leaves path).bind fun leaf => ?_
  refine (leaves_onSink (fun _ _ => rfl) _).bind fun _ => ?_
  refine (leaves_onSink (fun _ _ => rfl) _).bind fun _ => ?_
  exact leaves_onSink (fun _ _ => rfl) _

/-- What was written at a path leaves the document there. -/
theorem cursor_of_write {path : List String} {template : Template} {children : List Element}
    {document left : Document σ}
    (h : (write path template children).run document = (.ok (), left)) : left.cursor = path := by
  obtain ⟨leaf, moved, hmove, hrest⟩ := Action.of_bind_eq_ok h
  -- the cursor was set by the move, and what follows only reaches the sink
  have hstays : ∀ action : Action σ Unit, Leaves Document.cursor (onSink action) :=
    leaves_onSink fun _ _ => rfl
  have hleft := ((hstays (writeAttributes leaf template.attrs.entries)).bind fun _ =>
    (hstays (writeElements leaf children)).bind fun _ =>
      hstays (Sink.writeText leaf template.body)) moved
  rw [hrest] at hleft
  rw [hleft, cursor_of_moveTo hmove]

end Writing

section Counting

/-- A document has taken some emissions: it has counted them, and as long as it is live it is at the
path of the last one. -/
structure Tracks (taken : List Emission) (document : Document σ) : Prop where
  emitted : document.emitted = taken.length
  cursor : document.status = .live → document.cursor = lastPath taken

variable {taken : List Emission} {document : Document σ}

/-- A document goes on counting what it has taken when something is emitted to it. -/
theorem Tracks.emit (h : Tracks taken document) (emission : Emission) :
    let outcome := (emit emission.path emission.template).run document
    Tracks (taken ++ granted emission outcome.1) outcome.2 := by
  intro outcome
  have hrefused : ∀ {error : Error}, outcome = (.error error, document) →
      Tracks (taken ++ granted emission outcome.1) outcome.2 := by
    intro error hrun
    rw [hrun, granted, List.append_nil]
    exact h
  by_cases hlive : document.status = .live
  · by_cases hpath : emission.path = []
    · exact hrefused (emit_of_path_eq_nil emission hpath)
    cases hresolve : emission.template.resolve with
    | error error => exact hrefused (emit_of_resolve_eq_error emission hpath hresolve)
    | ok elements =>
      have hstanding := write_leaves emission.path emission.template elements document
      have hrun : outcome = _ := emit_of_live emission hpath hresolve hlive
      rcases hwrite : (write emission.path emission.template elements).run document with
        ⟨error | value, left⟩ <;> rw [hwrite] at hrun hstanding
      all_goals have hemitted : left.emitted = document.emitted := congrArg Prod.snd hstanding
      · rw [hrun, granted, List.append_nil]
        exact ⟨hemitted.trans h.emitted, fun hlive => Status.noConfusion hlive⟩
      · have hcursor : left.cursor = emission.path := cursor_of_write hwrite
        rw [hrun, granted]
        exact ⟨by simp [hemitted, h.emitted], fun _ => by simp [hcursor, lastPath]⟩
  · obtain ⟨error, hrun⟩ := emit_refused hlive emission
    exact hrefused hrun

/-- A close of a live document leaves it closed if it succeeds, and failed at its error if not. -/
theorem close_of_status_eq_live (hlive : document.status = .live) :
    close.run document = match complete.run document with
      | (.ok (), left) => (.ok (), { left with cursor := [], status := .closed })
      | (.error error, left) => (.error error, { left with cursor := [], status := .failed error }) := by
  rw [close_eq, Action.run_getState_bind, hlive, closeAs, Action.run_bind_of_ok (Action.run_attempt _ _)]
  rcases complete.run document with ⟨⟨⟩ | ⟨⟩, left⟩ <;> rfl

/-- A document has taken the same when it is closed. -/
theorem Tracks.close (h : Tracks taken document) : Tracks taken (close.run document).2 := by
  by_cases hlive : document.status = .live
  · have hcomplete : Leaves standing (complete : Action (Document σ) Unit) :=
      (leaves_onTree (fun _ _ _ => rfl) _).bind fun _ => leaves_onSink (fun _ _ => rfl) _
    have hstanding := hcomplete document
    rw [close_of_status_eq_live hlive]
    rcases hrun : complete.run document with ⟨error | value, left⟩ <;> rw [hrun] at hstanding
    all_goals
      have hemitted : left.emitted = document.emitted := congrArg Prod.snd hstanding
      exact ⟨hemitted.trans h.emitted, fun hlive => Status.noConfusion hlive⟩
  · rw [close_of_not_live hlive]
    exact h

/-- Whatever a document is called to do, it has taken the emissions that were granted. -/
theorem Tracks.performAll (h : Tracks taken document) (calls : List Call) :
    Tracks (taken ++ grantedIn calls (performAll calls document).1)
      (performAll calls document).2 := by
  induction calls generalizing taken document with
  | nil =>
    rw [Document.performAll, grantedIn, List.append_nil]
    · exact h
    · intro call rest result results hnil
      cases hnil
  | cons call rest ih =>
    rw [Document.performAll, grantedIn, ← List.append_assoc]
    cases call with
    | emit emission => exact ih (h.emit emission)
    | close =>
      have hclosed := ih h.close
      rwa [← List.append_nil taken] at hclosed

end Counting

section Rules

/-- The sink raised no error in a call, or just one, and this is what the call failed with and the
reason why the document is unusable from now on. -/
def RaisesOnce (document : Document (Watched σ))
    (outcome : Except Error Unit × Document (Watched σ)) : Prop :=
  outcome.2.sink.raised = document.sink.raised ∨
    ∃ error, outcome.2.sink.raised = document.sink.raised ++ [error] ∧
      outcome.1 = .error error ∧ outcome.2.status = .failed error

/-- The rules for what an emission to a document comes to. -/
structure EmitRules (emission : Emission) (document : Document (Watched σ))
    (outcome : Except Error Unit × Document (Watched σ)) : Prop where
  emptyPath : emission.path = [] → outcome = (.error .emptyPath, document)
  unresolved : emission.path ≠ [] → ∀ error, emission.template.resolve = .error error →
    outcome = (.error error, document)
  /-- Neither the document nor its sink is touched any more, and the reason is always the same. -/
  failed : ∀ reason, document.status = .failed reason →
    (∃ error, outcome = (.error error, document)) ∧
      (emission.path ≠ [] → ∀ elements, emission.template.resolve = .ok elements →
        outcome = (.error (.documentUnusable reason), document))
  closed : document.status = .closed →
    (∃ error, outcome = (.error error, document)) ∧
      (emission.path ≠ [] → ∀ elements, emission.template.resolve = .ok elements →
        outcome = (.error .documentClosed, document))
  live : document.status = .live → emission.path ≠ [] →
    ∀ elements, emission.template.resolve = .ok elements →
      match outcome.1 with
      | .ok () => outcome.2.status = .live
      | .error error => outcome.2.status = .failed error
  raised : RaisesOnce document outcome

/-- The rules for what the close of a document comes to. -/
structure CloseRules (document : Document (Watched σ))
    (outcome : Except Error Unit × Document (Watched σ)) : Prop where
  failed : ∀ reason, document.status = .failed reason →
    outcome = (.error (.documentUnusable reason), document)
  closed : document.status = .closed → outcome = (.ok (), document)
  live : document.status = .live →
    match outcome.1 with
    | .ok () => outcome.2.status = .closed
    | .error error => outcome.2.status = .failed error
  raised : RaisesOnce document outcome

variable {document : Document (Watched σ)}

/-- The same document with its sink no longer watched. -/
def unwatched (document : Document (Watched σ)) : Document σ :=
  { document with sink := document.sink.sink }

omit [Sink σ] in
/-- A call that goes on alike on a watched sink raises at most one error, with which it fails. -/
theorem raisesOnce_of_until {action : Action (Document (Watched σ)) Unit}
    {action' : Action (Document σ) Unit}
    (h : ∀ errors, Action.AlikeUntil (Related (Watched.Raised errors))
      (Parted (Watched.RaisedNext errors)) action action') :
    RaisesOnce document (action.run document) := by
  -- with what was raised so far as a parameter, one more error is where the two sinks part
  have hrelated : Related (Watched.Raised document.sink.raised) document document.unwatched :=
    ⟨rfl, ⟨rfl, rfl⟩, rfl, rfl, rfl, rfl⟩
  rcases (h document.sink.raised).outcome hrelated with ⟨-, hleft⟩ | ⟨error, hresult, hstatus, hraised⟩
  · exact .inl hleft.sink.2
  · exact .inr ⟨error, hraised, hresult, hstatus⟩

/-- An emission to a document on a watched sink keeps to the rules. -/
theorem emitRules (emission : Emission) (document : Document (Watched σ)) :
    EmitRules emission document ((emit emission.path emission.template).run document) where
  emptyPath := emit_of_path_eq_nil emission
  unresolved hpath _ hresolve := emit_of_resolve_eq_error emission hpath hresolve
  failed := by
    intro reason hstatus
    have hlive : document.status ≠ .live := by simp [hstatus]
    exact ⟨emit_refused hlive emission, fun hpath _ hresolve =>
      emit_of_status_eq_failed emission hpath hresolve hstatus⟩
  closed := by
    intro hstatus
    have hlive : document.status ≠ .live := by simp [hstatus]
    exact ⟨emit_refused hlive emission, fun hpath _ hresolve =>
      emit_of_status_eq_closed emission hpath hresolve hstatus⟩
  live := by
    intro hlive hpath elements hresolve
    have hstanding := write_leaves emission.path emission.template elements document
    rw [emit_of_live emission hpath hresolve hlive]
    rcases hwrite : (write emission.path emission.template elements).run document with
      ⟨error | value, left⟩
    · rfl
    · rw [hwrite] at hstanding
      exact (congrArg Prod.fst hstanding).trans hlive
  raised := raisesOnce_of_until fun errors =>
    emit_until (Watched.raises errors) emission.path emission.template

/-- The close of a document on a watched sink keeps to the rules. -/
theorem closeRules (document : Document (Watched σ)) :
    CloseRules document (close.run document) where
  failed := by
    intro reason hstatus
    rw [close_eq, Action.run_getState_bind, hstatus]
    rfl
  closed := by
    intro hstatus
    rw [close_eq, Action.run_getState_bind, hstatus]
    rfl
  live := by
    intro hlive
    rw [close_of_status_eq_live hlive]
    rcases complete.run document with ⟨error | value, left⟩ <;> rfl
  raised := raisesOnce_of_until fun errors => close_until (Watched.raises errors)

end Rules

/-- After any calls to a new document on any sink, which may raise errors as it likes: watching the
sink has changed nothing; the document has counted the emissions that were granted, and as long as it
is live it is at the path of the last of them; once it is not live, no row of calls touches it or its
sink any more; and the next emission and the next close come to what the rules say. -/
theorem life_of_calls (label : String) (sink : σ) (calls : List Call) :
    let plain := performAll calls (new label sink)
    let watched := performAll calls (new label (Watched.of sink))
    let taken := grantedIn calls plain.1
    (watched.1 = plain.1 ∧ Related Watched.Sees watched.2 plain.2) ∧
      plain.2.emitted = taken.length ∧
      (plain.2.status = .live → plain.2.cursor = lastPath taken) ∧
      (watched.2.status ≠ .live → ∀ more, (performAll more watched.2).2 = watched.2) ∧
      (∀ emission, EmitRules emission watched.2
        ((emit emission.path emission.template).run watched.2)) ∧
      CloseRules watched.2 (close.run watched.2) := by
  intro plain watched taken
  have hnew : Related Watched.Sees (new label (Watched.of sink)) (new label sink) :=
    new_related Watched.sees label rfl
  have hfresh : Tracks [] (new label sink) := ⟨rfl, fun _ => rfl⟩
  have htracks : Tracks taken plain.2 := hfresh.performAll calls
  exact ⟨performAll_alike Watched.sees calls hnew, htracks.emitted, htracks.cursor,
    fun hlive more => performAll_of_not_live hlive more, fun emission => emitRules emission watched.2,
    closeRules watched.2⟩

end Document

end XmlWorkload
