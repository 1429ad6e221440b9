import XmlWorkload.Proofs.Document.Parting

/-!
# Documents that behave alike

What a document does is settled by what its sink does.  Two sinks behave alike when their operations
give the same results in related states and leave related states behind.  Main statements: documents
that are in the same state on such sinks stay so, and give the same results, whatever is written to
them (`Document.emit_alike`) and when they are closed (`Document.close_alike`).
-/

set_option autoImplicit false

namespace XmlWorkload

variable {σ τ : Type} {related : σ → τ → Prop}

/-- In related states two actions give the same result, and they leave related states behind. -/
def Action.Alike {α : Type} (related : σ → τ → Prop) (first : Action σ α) (second : Action τ α) :
    Prop :=
  ∀ ⦃state : σ⦄ ⦃other : τ⦄, related state other →
    (first.run state).1 = (second.run other).1 ∧ related (first.run state).2 (second.run other).2

/-- Alike actions are alike for good: no states ever part. -/
theorem Action.Alike.until {α : Type} {first : Action σ α} {second : Action τ α}
    (h : Alike related first second) : AlikeUntil related (fun _ _ _ => False) first second :=
  ⟨fun _ _ hrelated => .inl (h hrelated), fun _ _ _ => id⟩

/-- Actions whose states cannot part are alike. -/
theorem Action.AlikeUntil.alike {α : Type} {parted : Error → σ → τ → Prop} {first : Action σ α}
    {second : Action τ α} (h : AlikeUntil related parted first second)
    (hnever : ∀ error state other, ¬ parted error state other) : Alike related first second := by
  intro state other hrelated
  rcases h.outcome hrelated with hsame | ⟨error, _, hparted⟩
  · exact hsame
  · exact (hnever error _ _ hparted).elim

/-- The operations of two sinks are alike. -/
structure Sink.Alike {σ τ : Type} [Sink σ] [Sink τ] (related : σ → τ → Prop) : Prop where
  root : ∀ sink other, related sink other → Sink.root sink = Sink.root other
  startElement : ∀ parent name, Action.Alike related
    (Sink.startElement parent name : Action σ Nat) (Sink.startElement parent name : Action τ Nat)
  setAttribute : ∀ element name value, Action.Alike related
    (Sink.setAttribute element name value : Action σ Unit)
    (Sink.setAttribute element name value : Action τ Unit)
  writeText : ∀ element text, Action.Alike related
    (Sink.writeText element text : Action σ Unit) (Sink.writeText element text : Action τ Unit)
  endElement : ∀ element, Action.Alike related
    (Sink.endElement element : Action σ Unit) (Sink.endElement element : Action τ Unit)
  finish : Action.Alike related (Sink.finish : Action σ Unit) (Sink.finish : Action τ Unit)

variable [Sink σ] [Sink τ]

/-- Alike sinks are alike for good. -/
theorem Sink.Alike.until (h : Alike related) : AlikeUntil related fun _ _ _ => False where
  root := h.root
  startElement := fun parent name => (h.startElement parent name).until
  setAttribute := fun element name value => (h.setAttribute element name value).until
  writeText := fun element text => (h.writeText element text).until
  endElement := fun element => (h.endElement element).until
  finish := h.finish.until

/-- Sinks that cannot part are alike. -/
theorem Sink.AlikeUntil.alike {parted : Error → σ → τ → Prop} (h : AlikeUntil related parted)
    (hnever : ∀ error sink other, ¬ parted error sink other) : Alike related where
  root := h.root
  startElement := fun parent name => (h.startElement parent name).alike hnever
  setAttribute := fun element name value => (h.setAttribute element name value).alike hnever
  writeText := fun element text => (h.writeText element text).alike hnever
  endElement := fun element => (h.endElement element).alike hnever
  finish := h.finish.alike hnever

namespace Document

/-- New documents are related when their sinks are. -/
theorem new_related (h : Sink.Alike related) (label : String) {sink : σ} {other : τ}
    (hrelated : related sink other) : Related related (new label sink) (new label other) :=
  new_until h.until label hrelated

/-- Whatever is written to documents in the same state on sinks that are alike, they give the same
results and stay in the same state. -/
theorem emit_alike (h : Sink.Alike related) (path : List String) (template : Template) :
    Action.Alike (Related related) (emit path template : Action (Document σ) Unit)
      (emit path template) :=
  (emit_until h.until path template).alike fun _ _ _ hparted => hparted.2

/-- Documents in the same state on sinks that are alike are in the same state when they are
closed. -/
theorem close_alike (h : Sink.Alike related) :
    Action.Alike (Related related) (close : Action (Document σ) Unit) close :=
  (close_until h.until).alike fun _ _ _ hparted => hparted.2

end Document

end XmlWorkload
