import XmlWorkload.Yaml.Tag
import XmlWorkload.Yaml.Token.Basic

/-!
# Events of a document

The nodes of a document in the order in which they start: scalars, references, and the starts and
ends of collections.  A node that is left out between marks is an empty scalar.  A reference holds
the number of its node; since a name may be given again, the node with a number is the last one that
took it.
-/

set_option autoImplicit false

namespace XmlWorkload.Yaml

/-- An event. -/
inductive Event where
  /-- A reference to the node with a number. -/
  | alias (number : Nat)
  | scalar (tag : Option Tag) (text : String) (style : ScalarStyle)
  /-- The start of a sequence, with its tag. -/
  | sequenceStart (tag : Option Tag)
  | sequenceEnd
  /-- The start of a mapping, with its tag. -/
  | mappingStart (tag : Option Tag)
  | mappingEnd
  deriving DecidableEq, Repr

/-- The events of a document, and the place among them of the node with each number. -/
structure EventStream where
  events : List Event
  /-- The numbers with the places, the last given first. -/
  places : List (Nat × Nat)

/-- How far the tokens have been read. -/
structure EventReading where
  tokens : List Token
  events : List Event
  /-- The names of nodes with their numbers, the last given first. -/
  names : List (String × Nat)
  /-- The number of different names given so far. -/
  distinct : Nat
  /-- The numbers with the places, the last given first. -/
  places : List (Nat × Nat)
  /-- The handles of tags, with the octets that they stand for. -/
  handles : List (String × List UInt8)

/-- A step of the reading, which fails when the tokens form no document. -/
abbrev EventReader := StateT EventReading Option

namespace Event

/-- The handles that every document knows. -/
def commonHandles : List (String × List UInt8) :=
  [("!", octetsOf "!"), ("!!", octetsOf Tag.coreStart)]

/-- The next token. -/
def peek : EventReader (Option Token) := do
  let reading ← get
  pure reading.tokens.head?

/-- Passes over the next token. -/
def skip : EventReader Unit :=
  modify fun reading => { reading with tokens := reading.tokens.drop 1 }

/-- Passes over the next token if it is the given one, and says whether it was. -/
def skipIf (token : Token) : EventReader Bool := do
  if (← peek) == some token then
    skip
    pure true
  else pure false

/-- Passes over the next token, which has to be the given one. -/
def expect (token : Token) : EventReader Unit := do
  if !(← skipIf token) then failure

/-- Whether the next token is one of several, or there is none. -/
def atAny (tokens : List Token) : EventReader Bool := do
  match ← peek with
  | some token => pure (tokens.contains token)
  | none => pure true

/-- Adds an event. -/
def emit (event : Event) : EventReader Unit :=
  modify fun reading => { reading with events := event :: reading.events }

/-- Adds the event of a node that is left out. -/
def emitMissing : EventReader Unit := emit (.scalar none "" .plain)

/-- Gives the node that comes next a name.  Its number is the number of different names so far. -/
def giveName (name : String) : EventReader Unit :=
  modify fun reading =>
    let isKnown := reading.names.any fun entry => entry.1 == name
    { reading with
      names := (name, reading.distinct) :: reading.names
      distinct := if isKnown then reading.distinct else reading.distinct + 1
      places := (reading.distinct, reading.events.length) :: reading.places }

/-- Adds the event of a reference to a name, which must have been given. -/
def emitAlias (name : String) : EventReader Unit := do
  let reading ← get
  match reading.names.find? fun entry => entry.1 == name with
  | some entry => emit (.alias entry.2)
  | none => failure

/-- A tag in full. -/
def fullTag (handle : String) (suffix : List UInt8) : EventReader Tag := do
  if handle = "" then pure ⟨suffix⟩
  else
    let reading ← get
    match reading.handles.find? fun entry => entry.1 == handle with
    | some entry => pure ⟨entry.2 ++ suffix⟩
    | none => failure

/-- The tag of the node that comes next, if it stands here. -/
def takeTag : EventReader (Option Tag) := do
  match ← peek with
  | some (.tag handle suffix) =>
    skip
    let tag ← fullTag handle suffix
    pure (some tag)
  | _ => pure none

/-- The name of the node that comes next, if it stands here. -/
def takeAnchor : EventReader (Option String) := do
  match ← peek with
  | some (.anchor name) =>
    skip
    pure (some name)
  | _ => pure none

/-- The name and the tag of the node that comes next, in either order. -/
def takeProperties : EventReader (Option String × Option Tag) := do
  match ← takeAnchor with
  | some name =>
    let tag ← takeTag
    pure (some name, tag)
  | none =>
    let tag ← takeTag
    let name ← if tag.isSome then takeAnchor else pure none
    pure (name, tag)

/-- Which collections may start at a node. -/
structure NodePlace where
  allowsBlock : Bool
  /-- Whether the entries of a sequence may stand here without being indented. -/
  allowsEntries : Bool

/-- A node of a flow collection. -/
def NodePlace.flow : NodePlace := ⟨false, false⟩

/-- A node of a block collection. -/
def NodePlace.block : NodePlace := ⟨true, false⟩

/-- A key or value of a block mapping. -/
def NodePlace.blockMember : NodePlace := ⟨true, true⟩

/-- Reads a node that is left out behind its name or tag. -/
def readMissing (name : Option String) (tag : Option Tag) : EventReader Unit :=
  if name.isSome || tag.isSome then emit (.scalar tag "" .plain) else failure

mutual

/-- Reads a node. -/
def readNode : (fuel : Nat) → NodePlace → EventReader Unit
  | 0, _ => failure
  | fuel + 1, place => do
    if let some (.alias name) ← peek then
      skip
      emitAlias name
    else
      let (name, tag) ← takeProperties
      match name with
      | some name => giveName name
      | none => pure ()
      match ← peek with
      | some .blockEntry =>
        if place.allowsEntries then
          emit (.sequenceStart tag)
          readEntries fuel
        else readMissing name tag
      | some (.scalar text style) =>
        skip
        emit (.scalar tag text style)
      | some .flowSequenceStart =>
        skip
        emit (.sequenceStart tag)
        readFlowItems fuel true
      | some .flowMappingStart =>
        skip
        emit (.mappingStart tag)
        readFlowMembers fuel true
      | some .blockSequenceStart =>
        if place.allowsBlock then
          skip
          emit (.sequenceStart tag)
          readBlockItems fuel
        else readMissing name tag
      | some .blockMappingStart =>
        if place.allowsBlock then
          skip
          emit (.mappingStart tag)
          readBlockMembers fuel
        else readMissing name tag
      | _ => readMissing name tag

/-- Reads a node, unless it is left out in front of one of several tokens. -/
def readNodeUnless : (fuel : Nat) → NodePlace → List Token → EventReader Unit
  | 0, _, _ => failure
  | fuel + 1, place, tokens => do
    if ← atAny tokens then emitMissing else readNode fuel place

/-- Reads the entries of a sequence that are not indented. -/
def readEntries : (fuel : Nat) → EventReader Unit
  | 0 => failure
  | fuel + 1 => do
    if ← skipIf .blockEntry then
      readNodeUnless fuel .block [.blockEntry, .key, .value, .blockEnd]
      readEntries fuel
    else emit .sequenceEnd

/-- Reads the entries of a sequence shown by indentation. -/
def readBlockItems : (fuel : Nat) → EventReader Unit
  | 0 => failure
  | fuel + 1 => do
    if ← skipIf .blockEntry then
      readNodeUnless fuel .block [.blockEntry, .blockEnd]
      readBlockItems fuel
    else
      expect .blockEnd
      emit .sequenceEnd

/-- Reads the members of a mapping shown by indentation. -/
def readBlockMembers : (fuel : Nat) → EventReader Unit
  | 0 => failure
  | fuel + 1 => do
    if ← skipIf .key then
      readNodeUnless fuel .blockMember [.key, .value, .blockEnd]
      if ← skipIf .value then readNodeUnless fuel .blockMember [.key, .value, .blockEnd]
      else emitMissing
      readBlockMembers fuel
    else
      expect .blockEnd
      emit .mappingEnd

/-- Reads the entries of a sequence between brackets.  An entry may be a mapping with one member
and no braces. -/
def readFlowItems : (fuel : Nat) → (isFirst : Bool) → EventReader Unit
  | 0, _ => failure
  | fuel + 1, isFirst => do
    if ← skipIf .flowSequenceEnd then emit .sequenceEnd
    else
      if !isFirst then expect .flowEntry
      if ← skipIf .key then
        emit (.mappingStart none)
        readPair fuel
        emit .mappingEnd
        readFlowItems fuel false
      else if ← skipIf .flowSequenceEnd then emit .sequenceEnd
      else
        readNode fuel .flow
        readFlowItems fuel false

/-- Reads the member of a mapping that stands without braces in a sequence.  A key that is left out
takes the token behind it with it. -/
def readPair : (fuel : Nat) → EventReader Unit
  | 0 => failure
  | fuel + 1 => do
    if ← atAny [.value, .flowEntry, .flowSequenceEnd] then
      skip
      emitMissing
    else readNode fuel .flow
    if ← skipIf .value then readNodeUnless fuel .flow [.flowEntry, .flowSequenceEnd]
    else emitMissing

/-- Reads the members of a mapping between braces. -/
def readFlowMembers : (fuel : Nat) → (isFirst : Bool) → EventReader Unit
  | 0, _ => failure
  | fuel + 1, isFirst => do
    if ← skipIf .flowMappingEnd then emit .mappingEnd
    else
      if !isFirst then expect .flowEntry
      if ← skipIf .key then
        readNodeUnless fuel .flow [.value, .flowEntry, .flowMappingEnd]
        if ← skipIf .value then readNodeUnless fuel .flow [.flowEntry, .flowMappingEnd]
        else emitMissing
        readFlowMembers fuel false
      else if ← skipIf .flowMappingEnd then emit .mappingEnd
      else
        readNode fuel .flow
        emitMissing
        readFlowMembers fuel false

end

/-- Adds a handle for tags, which must be new in the document. -/
def addHandle (handles : List (String × List UInt8)) (handle : String) (expansion : List UInt8) :
    Option (List (String × List UInt8)) :=
  if handles.any fun entry => entry.1 == handle then none
  else some ((handle, expansion) :: handles)

/-- Reads the directives in front of a document: at most one version, and handles for tags.  Each
token counts once, so as many rounds as there are tokens suffice. -/
def readDirectives : (rounds : Nat) → (hasVersion : Bool) → List (String × List UInt8) →
    EventReader (List (String × List UInt8))
  | 0, _, handles => pure handles
  | rounds + 1, hasVersion, handles => do
    match ← peek with
    | some (.version major minor) =>
      if hasVersion || major != 1 || (minor != 1 && minor != 2) then failure
      else
        skip
        readDirectives rounds true handles
    | some (.tagHandle handle expansion) =>
      let handles ← addHandle handles handle expansion
      skip
      readDirectives rounds hasVersion handles
    | _ => pure handles

/-- Whether a token is a directive. -/
def isDirective : Token → Bool
  | .version _ _ | .tagHandle _ _ => true
  | _ => false

/-- Passes over the end markers of a document. -/
def skipEnds : (rounds : Nat) → EventReader Unit
  | 0 => pure ()
  | rounds + 1 => do
    if ← skipIf .documentEnd then skipEnds rounds

/-- Reads the one document that the tokens hold, if they hold one. -/
def readDocument (fuel : Nat) : EventReader Unit := do
  match ← peek with
  | none => pure ()
  | some token =>
    if isDirective token || token == .documentStart then
      let handles ← readDirectives fuel false []
      modify fun reading => { reading with handles := handles ++ commonHandles }
      expect .documentStart
      match ← peek with
      | none | some .documentStart | some .documentEnd => emitMissing
      | some token => if isDirective token then emitMissing else readNode fuel .block
    else readNode fuel .block
    skipEnds fuel
    if (← peek).isSome then failure

/-- The events of the one document that the tokens hold; none for an empty document.  A node takes
at most four steps for each of its tokens. -/
def ofTokens? (tokens : List Token) : Option EventStream := do
  let reading : EventReading := ⟨tokens, [], [], 0, [], commonHandles⟩
  let (_, reading) ← (readDocument (4 * tokens.length + 4)).run reading
  some ⟨reading.events.reverse, reading.places⟩

end Event

end XmlWorkload.Yaml
