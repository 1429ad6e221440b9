import XmlWorkload.Yaml.Token.Gap

/-!
# Scalars without quotes

A scalar without quotes ends at a colon before white space, at a comment, at a line that is not
indented deeper than its collection, at a marker between documents, and inside a flow collection at
one of its marks.
-/

set_option autoImplicit false

namespace XmlWorkload.Yaml

/-- What decides where a scalar without quotes ends. -/
structure PlainContext where
  /-- Whether it stands inside a flow collection. -/
  inFlow : Bool
  /-- The least column of its later lines. -/
  margin : Int

/-- A scalar without quotes as far as it has been read, the last character first. -/
structure PlainReading where
  chars : List Char
  gap : Gap
  /-- Whether anything at all stands behind them. -/
  afterGap : Bool
  place : Place

/-- A scalar without quotes that has been read. -/
structure PlainScalar where
  text : String
  /-- Whether the lines behind it have been broken. -/
  broken : Bool
  /-- The place behind it and the white space that follows. -/
  cursor : Cursor

/-- Whether a scalar without quotes ends before the characters here, which are no white space. -/
def PlainContext.endsBefore (context : PlainContext) (reading : PlainReading)
    (text : List Char) : Bool :=
  let atColon := match text with
    | ':' :: rest => atSeparator rest
    | _ => false
  let atMark := context.inFlow && (text.head?.map isFlowMark).getD false
  let atNewWord := reading.afterGap &&
    ((!context.inFlow && decide ((reading.place.column : Int) < context.margin)) ||
      (reading.place.column == 0 && atDocumentMarker text) || text.head? == some '#')
  atNewWord || atColon || atMark

/-- Whether the characters here are a colon that a scalar inside a flow collection cannot hold. -/
def PlainContext.isMisplacedColon (context : PlainContext) : List Char → Bool
  | ':' :: c :: _ => context.inFlow && (isFlowMark c || c == '?')
  | _ => false

/-- The scalar that the reading has come to. -/
def PlainReading.finish (reading : PlainReading) (rest : List Char) : PlainScalar :=
  ⟨String.ofList reading.chars.reverse, reading.gap.isBroken, ⟨reading.place, rest⟩⟩

/-- Reads on in a scalar without quotes. -/
def readPlain? (context : PlainContext) (reading : PlainReading) :
    List Char → Option PlainScalar
  | [] => some (reading.finish [])
  | c :: rest =>
    if isGap c then
      let inMargin := decide ((reading.place.column : Int) < context.margin)
      if reading.gap.isBroken && inMargin && c == '\t' then none
      else
        readPlain? context { reading with
          gap := reading.gap.pushBlank c, afterGap := true, place := reading.place.next c } rest
    else if isBreak c then
      readPlain? context { reading with
        gap := reading.gap.pushBreak c, afterGap := true, place := reading.place.nextLine } rest
    else if context.endsBefore reading (c :: rest) then some (reading.finish (c :: rest))
    else if context.isMisplacedColon (c :: rest) then none
    else
      readPlain? context { reading with
        chars := c :: (reading.gap.text.reverse ++ reading.chars), gap := .none,
        afterGap := false, place := reading.place.next c } rest

/-- The scalar without quotes that starts here. -/
def Cursor.plainScalar? (cursor : Cursor) (context : PlainContext) : Option PlainScalar :=
  readPlain? context ⟨[], .none, false, cursor.toPlace⟩ cursor.rest

end XmlWorkload.Yaml
