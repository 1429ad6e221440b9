import XmlWorkload.Proofs.Document.Alike

/-!
# Watched sinks

Any sink can be watched: the calls that reach it are counted, and the errors that it raises are kept.
Main statements: watching changes nothing (`Watched.sees`), and what a watched sink gives is what the
sink gives until it raises an error, which is kept behind those that were raised before
(`Watched.raises`).
-/

set_option autoImplicit false

namespace XmlWorkload

/-- A sink with the calls that reached it. -/
structure Watched (σ : Type) where
  sink : σ
  /-- The number of calls. -/
  calls : Nat
  /-- The errors that the sink raised, in order. -/
  raised : List Error

namespace Watched

variable {σ α : Type}

/-- A sink that no call has reached yet. -/
def of (sink : σ) : Watched σ := ⟨sink, 0, []⟩

/-- The errors among the results of a call. -/
def raisedBy : Except Error α → List Error
  | .ok _ => []
  | .error error => [error]

/-- A call to a sink that is watched. -/
def watch (action : Action σ α) : Action (Watched σ) α := fun watched =>
  let (result, sink) := action.run watched.sink
  (result, ⟨sink, watched.calls + 1, watched.raised ++ raisedBy result⟩)

instance [Sink σ] : Sink (Watched σ) where
  root watched := Sink.root watched.sink
  startElement parent name := watch (Sink.startElement parent name)
  setAttribute element name value := watch (Sink.setAttribute element name value)
  writeText element text := watch (Sink.writeText element text)
  endElement element := watch (Sink.endElement element)
  finish := watch Sink.finish

/-- A watched sink is in the state of a sink that is not. -/
def Sees (watched : Watched σ) (sink : σ) : Prop := watched.sink = sink

/-- Watching an action does not change what it does. -/
theorem watch_alike (action : Action σ α) : Action.Alike Sees (watch action) action := by
  rintro watched _ rfl
  exact ⟨rfl, rfl⟩

/-- Watching a sink changes nothing about it. -/
theorem sees [Sink σ] : Sink.Alike fun (watched : Watched σ) sink => Sees watched sink where
  root := by
    rintro watched _ rfl
    rfl
  startElement parent name := watch_alike (Sink.startElement parent name)
  setAttribute element name value := watch_alike (Sink.setAttribute element name value)
  writeText element text := watch_alike (Sink.writeText element text)
  endElement element := watch_alike (Sink.endElement element)
  finish := watch_alike Sink.finish

/-- The watched sink has raised just these errors, and is in the state of a sink that is not
watched. -/
def Raised (errors : List Error) (watched : Watched σ) (sink : σ) : Prop :=
  watched.sink = sink ∧ watched.raised = errors

/-- The watched sink has raised one more error. -/
def RaisedNext (errors : List Error) (error : Error) (watched : Watched σ) (_ : σ) : Prop :=
  watched.raised = errors ++ [error]

/-- A watched action raises what the action raises, once and at its end. -/
theorem watch_until (errors : List Error) (action : Action σ α) :
    Action.AlikeUntil (Raised errors) (RaisedNext errors) (watch action) action := by
  constructor
  · rintro watched _ ⟨rfl, rfl⟩
    simp only [Action.run, watch]
    rcases action watched.sink with ⟨error | value, left⟩
    · exact .inr ⟨error, rfl, rfl⟩
    · exact .inl ⟨rfl, rfl, List.append_nil _⟩
  · exact fun error watched sink hraised => hraised

/-- A watched sink keeps the first error that it raises from now on. -/
theorem raises [Sink σ] (errors : List Error) :
    Sink.AlikeUntil (fun (watched : Watched σ) sink => Raised errors watched sink)
      (RaisedNext errors) where
  root := by
    rintro watched _ ⟨rfl, -⟩
    rfl
  startElement parent name := watch_until errors (Sink.startElement parent name)
  setAttribute element name value := watch_until errors (Sink.setAttribute element name value)
  writeText element text := watch_until errors (Sink.writeText element text)
  endElement element := watch_until errors (Sink.endElement element)
  finish := watch_until errors Sink.finish

end Watched

end XmlWorkload
