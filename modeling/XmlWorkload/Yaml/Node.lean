import XmlWorkload.Yaml.Event

/-!
# Nodes of a document

The tree that the events of a document describe, with the node that it stands for in place of every
reference.  Collections may be nested only so deep, and references may be followed only so often,
so that a node that contains itself is refused.
-/

set_option autoImplicit false

namespace XmlWorkload.Yaml

/-- A node. -/
inductive Node where
  | scalar (tag : Option Tag) (text : String) (style : ScalarStyle)
  | sequence (tag : Option Tag) (items : List Node)
  | mapping (tag : Option Tag) (members : List (Node × Node))
  deriving Inhabited

namespace Node

/-- How deep collections may be nested. -/
def maxDepth : Nat := 128

/-- How often references may be followed for each event of the document. -/
def jumpsPerEvent : Nat := 100

/-- The events from the node with a number on. -/
def eventsAt? (stream : EventStream) (number : Nat) : Option (List Event) := do
  let entry ← stream.places.find? fun entry => entry.1 == number
  some (stream.events.drop entry.2)

/-- A step of the reading.  Its state is the number of references that may still be followed. -/
abbrev NodeReader := StateT Nat Option

/-- Counts a reference that is followed. -/
def countJump : NodeReader Unit := do
  match ← get with
  | 0 => failure
  | jumps + 1 => set jumps

mutual

/-- The node that starts with the events, inside collections that leave room for `depth` more, and
the events behind it. -/
def read (stream : EventStream) : (fuel depth : Nat) → List Event →
    NodeReader (Node × List Event)
  | 0, _, _ => failure
  | fuel + 1, depth, events => do
    match events with
    | .scalar tag text style :: rest => pure (.scalar tag text style, rest)
    | .alias number :: rest =>
      countJump
      let target ← eventsAt? stream number
      let (node, _) ← read stream fuel depth target
      pure (node, rest)
    | .sequenceStart tag :: rest =>
      match depth with
      | 0 => failure
      | depth + 1 =>
        let (items, rest) ← readItems stream fuel depth rest
        pure (.sequence tag items, rest)
    | .mappingStart tag :: rest =>
      match depth with
      | 0 => failure
      | depth + 1 =>
        let (members, rest) ← readMembers stream fuel depth rest
        pure (.mapping tag members, rest)
    | _ => failure

/-- The entries of a sequence up to its end, and the events behind it. -/
def readItems (stream : EventStream) : (fuel depth : Nat) → List Event →
    NodeReader (List Node × List Event)
  | 0, _, _ => failure
  | fuel + 1, depth, events => do
    match events with
    | .sequenceEnd :: rest => pure ([], rest)
    | _ =>
      let (item, rest) ← read stream fuel depth events
      let (items, rest) ← readItems stream fuel depth rest
      pure (item :: items, rest)

/-- The members of a mapping up to its end, and the events behind it. -/
def readMembers (stream : EventStream) : (fuel depth : Nat) → List Event →
    NodeReader (List (Node × Node) × List Event)
  | 0, _, _ => failure
  | fuel + 1, depth, events => do
    match events with
    | .mappingEnd :: rest => pure ([], rest)
    | _ =>
      let (key, rest) ← read stream fuel depth events
      let (value, rest) ← read stream fuel depth rest
      let (members, rest) ← readMembers stream fuel depth rest
      pure ((key, value) :: members, rest)

end

/-- The node that the events describe; no node for an empty document.  On the way to any node there
are at most `maxDepth` collections, each with at most all the events before it, and a reference in
front of each. -/
def ofEvents? (stream : EventStream) : Option (Option Node) :=
  if stream.events.isEmpty then some none
  else
    let fuel := (maxDepth + 1) * (stream.events.length + 2)
    ((read stream fuel maxDepth stream.events).run
      (jumpsPerEvent * stream.events.length)).map fun result => some result.1.1

end Node

end XmlWorkload.Yaml
