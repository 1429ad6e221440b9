import XmlWorkload.Yaml.Source

/-!
# Block scalars

A block scalar is the run of lines below its header that are indented deeply enough.  A literal one
keeps its lines.  In a folded one a single break between two lines that do not start with white
space becomes a space, and of several breaks the first one goes.  The header says what becomes of
the breaks at the end, and it may give the indentation, which is otherwise that of the first line.
-/

set_option autoImplicit false

namespace XmlWorkload.Yaml

/-- What becomes of the line breaks at the end of a block scalar. -/
inductive Chomping where
  | strip
  | clip
  | keep
  deriving DecidableEq, Repr

/-- The header of a block scalar. -/
structure BlockHeader where
  /-- What becomes of the line breaks at the end. -/
  chomping : Chomping
  /-- How much deeper than its collection the scalar is indented, if the header says so. -/
  increment : Option Nat

/-- The chomping that a mark in a header asks for. -/
def chompingOfMark? : Char → Option Chomping
  | '+' => some .keep
  | '-' => some .strip
  | _ => none

/-- The indentation that a digit in a header asks for; zero is no indentation. -/
def incrementOfDigit? (c : Char) : Option Nat :=
  if '1' ≤ c ∧ c ≤ '9' then some (c.toNat - '0'.toNat) else none

/-- The header that the characters behind the mark of a block scalar give, and its length. -/
def readBlockHeader? : List Char → Option (BlockHeader × Nat)
  | a :: b :: _ =>
    match chompingOfMark? a, incrementOfDigit? a with
    | some chomping, _ =>
      if b = '0' then none
      else match incrementOfDigit? b with
        | some increment => some (⟨chomping, some increment⟩, 2)
        | none => some (⟨chomping, none⟩, 1)
    | none, some increment =>
      match chompingOfMark? b with
      | some chomping => some (⟨chomping, some increment⟩, 2)
      | none => some (⟨.clip, some increment⟩, 1)
    | none, none => if a = '0' then none else some (⟨.clip, none⟩, 0)
  | [a] =>
    match chompingOfMark? a, incrementOfDigit? a with
    | some chomping, _ => some (⟨chomping, none⟩, 1)
    | none, some increment => some (⟨.clip, some increment⟩, 1)
    | none, none => if a = '0' then none else some (⟨.clip, none⟩, 0)
  | [] => some (⟨.clip, none⟩, 0)

/-- A block scalar as far as it has been read.  Characters are held the last one first. -/
structure BlockReading where
  /-- The characters of the lines that are complete. -/
  chars : List Char
  /-- The break at the end of the last line, as long as it may still go. -/
  lineBreak : List Char
  /-- The breaks of the empty lines behind it. -/
  emptyLines : List Char
  /-- Whether the last line started with white space. -/
  startsBlank : Bool
  indent : Option Nat
  /-- The deepest column reached before the first line. -/
  deepest : Nat
  /-- Whether a line is being read, rather than the indentation in front of one. -/
  inLine : Bool
  place : Place

namespace BlockReading

/-- The reading at the start of a line that is not empty, before its character `c`. -/
def startLine (reading : BlockReading) (isFolded : Bool) (c : Char) : BlockReading :=
  let joins := isFolded && reading.lineBreak == ['\n'] && !reading.startsBlank && !isGap c
  let gap := if joins then (if reading.emptyLines = [] then [' '] else reading.emptyLines)
    else reading.emptyLines ++ reading.lineBreak
  { reading with
    chars := gap ++ reading.chars, lineBreak := [], emptyLines := [],
    startsBlank := isGap c, inLine := true }

/-- The reading after one more character of a line. -/
def push (reading : BlockReading) (c : Char) : BlockReading :=
  { reading with chars := c :: reading.chars, place := reading.place.next c }

/-- The reading after the break at the end of a line. -/
def endLine (reading : BlockReading) (c : Char) : BlockReading :=
  { reading with lineBreak := [c], inLine := false, place := reading.place.nextLine }

/-- The reading after one more space of the indentation. -/
def pushIndent (reading : BlockReading) : BlockReading :=
  let place := reading.place.next ' '
  { reading with place, deepest := max reading.deepest place.column }

/-- The reading after one more empty line. -/
def pushEmptyLine (reading : BlockReading) (c : Char) : BlockReading :=
  { reading with emptyLines := c :: reading.emptyLines, place := reading.place.nextLine }

/-- Whether the column lies before the lines of the scalar. -/
def inMargin (reading : BlockReading) : Bool :=
  match reading.indent with
  | some indent => decide (reading.place.column < indent)
  | none => true

/-- The reading with the indentation known: that of the first line, but at least `least`. -/
def settle (reading : BlockReading) (least : Nat) : BlockReading :=
  { reading with indent := some (reading.indent.getD (max reading.deepest least)) }

/-- The scalar that the reading has come to, and the place behind it. -/
def finish (reading : BlockReading) (chomping : Chomping) (rest : List Char) : String × Cursor :=
  let kept := match chomping with
    | .strip => reading.chars
    | .clip => reading.lineBreak ++ reading.chars
    | .keep => reading.emptyLines ++ (reading.lineBreak ++ reading.chars)
  (String.ofList kept.reverse, ⟨reading.place, rest⟩)

end BlockReading

/-- What decides how the lines of a block scalar are read. -/
structure BlockContext where
  isFolded : Bool
  /-- What becomes of the line breaks at the end. -/
  chomping : Chomping
  /-- The least indentation when the first line decides. -/
  least : Nat

/-- Reads on in the lines of a block scalar. -/
def readBlock? (context : BlockContext) (reading : BlockReading) :
    List Char → Option (String × Cursor)
  | [] => some (reading.finish context.chomping [])
  | c :: rest =>
    if reading.inLine then
      readBlock? context (if isBreak c then reading.endLine c else reading.push c) rest
    else if c = ' ' ∧ reading.inMargin = true then readBlock? context reading.pushIndent rest
    else if c = '\t' ∧ reading.inMargin = true then none
    else if isBreak c then readBlock? context (reading.pushEmptyLine c) rest
    else
      let settled := reading.settle context.least
      if settled.indent = some settled.place.column then
        readBlock? context ((settled.startLine context.isFolded c).push c) rest
      else some (settled.finish context.chomping (c :: rest))

/-- The block scalar that starts here with its mark, inside a collection that is indented to
`indent`, or inside none. -/
def Cursor.blockScalar? (cursor : Cursor) (indent : Option Nat) (isFolded : Bool) :
    Option (String × Cursor) := do
  let (header, length) ← readBlockHeader? (cursor.rest.drop 1)
  let lineEnd := (cursor.skip (1 + length)).skipGaps.skipComment
  if !atLineEnd lineEnd.rest then none
  else
    let start := lineEnd.skipBreak
    let given := header.increment.map fun increment => indent.getD 0 + increment
    let least := max 1 ((indent.map (· + 1)).getD 0)
    readBlock? ⟨isFolded, header.chomping, least⟩
      ⟨[], [], [], false, given, 0, false, start.toPlace⟩ start.rest

end XmlWorkload.Yaml
