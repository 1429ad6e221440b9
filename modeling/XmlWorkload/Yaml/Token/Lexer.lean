import XmlWorkload.Yaml.Token.Block
import XmlWorkload.Yaml.Token.Plain
import XmlWorkload.Yaml.Token.Property
import XmlWorkload.Yaml.Token.Quoted

/-!
# Cutting a document into tokens

Indentation opens and closes block collections.  Whatever could be the key of a mapping is kept in
mind; when a colon shows that it is one, the tokens that open the mapping and the key are put in
front of it.  Such a key lies on one line and takes no more than 1024 bytes.
-/

set_option autoImplicit false

namespace XmlWorkload.Yaml

/-- Something that may turn out to be the key of a mapping. -/
structure KeyCandidate where
  /-- Whether nothing but a key can stand there. -/
  isRequired : Bool
  position : Nat
  place : Place

/-- How far the cutting has come. -/
structure Lexer where
  cursor : Cursor
  tokens : List Token
  /-- The indentation of the innermost block collection, and of those around it. -/
  indents : List Nat
  /-- The candidate on the innermost level of flow collections. -/
  candidate : Option KeyCandidate
  /-- The candidates on the levels around it. -/
  outer : List (Option KeyCandidate)
  keyAllowed : Bool

/-- A step of the cutting, which fails when the document is not well formed. -/
abbrev Cut := StateT Lexer Option

namespace Lexer

/-- Whether the place lies inside a flow collection. -/
def inFlow (lexer : Lexer) : Bool := !lexer.outer.isEmpty

/-- The number of bytes that a key can take at most. -/
def keyBytes : Nat := 1024

/-- Adds a token at the end. -/
def push (token : Token) : Cut Unit :=
  modify fun lexer => { lexer with tokens := token :: lexer.tokens }

/-- Adds a token behind the first `position` tokens. -/
def insertAt (position : Nat) (token : Token) : Cut Unit :=
  modify fun lexer =>
    let count := lexer.tokens.length - position
    { lexer with tokens := lexer.tokens.take count ++ token :: lexer.tokens.drop count }

/-- Moves to another place. -/
def moveTo (cursor : Cursor) : Cut Unit := modify fun lexer => { lexer with cursor }

/-- Says whether a key may start at the next token. -/
def allowKey (keyAllowed : Bool) : Cut Unit := modify fun lexer => { lexer with keyAllowed }

/-- Drops the candidate, which must not be required. -/
def dropCandidate : Cut Unit := do
  let lexer ← get
  match lexer.candidate with
  | some candidate =>
    if candidate.isRequired then failure else set { lexer with candidate := none }
  | none => pure ()

/-- Keeps in mind that a key may start here. -/
def keepCandidate : Cut Unit := do
  let lexer ← get
  if lexer.keyAllowed then
    let isRequired := !lexer.inFlow && lexer.indents.head? == some lexer.cursor.column
    dropCandidate
    modify fun lexer => { lexer with
      candidate := some ⟨isRequired, lexer.tokens.length, lexer.cursor.toPlace⟩ }

/-- The candidate if it can still be a key at a place; failure if it has to be one and cannot. -/
def freshCandidate (place : Place) (candidate : Option KeyCandidate) :
    Option (Option KeyCandidate) :=
  match candidate with
  | none => some none
  | some key =>
    if key.place.line < place.line || key.place.bytes + keyBytes < place.bytes then
      if key.isRequired then none else some none
    else some (some key)

/-- Drops every candidate that can no longer be a key. -/
def refreshCandidates : Cut Unit := do
  let lexer ← get
  let place := lexer.cursor.toPlace
  let candidate ← freshCandidate place lexer.candidate
  let outer ← lexer.outer.mapM fun candidate => freshCandidate place candidate
  set { lexer with candidate, outer }

/-- The indentations that are left when the collections deeper than a column end, and the number of
those collections. -/
def closedAt (column : Option Nat) (indents : List Nat) : List Nat × Nat :=
  let isDeeper (indent : Nat) := match column with
    | some column => decide (column < indent)
    | none => true
  (indents.dropWhile isDeeper, (indents.takeWhile isDeeper).length)

/-- Ends the block collections that are indented deeper than a column, or all of them. -/
def unindent (column : Option Nat) : Cut Unit :=
  modify fun lexer =>
    if lexer.inFlow then lexer
    else
      let (indents, count) := closedAt column lexer.indents
      { lexer with indents, tokens := List.replicate count .blockEnd ++ lexer.tokens }

/-- Opens a block collection at a column if it is deeper than the innermost one.  Its token goes
behind the first `position` tokens. -/
def indentTo (column position : Nat) (token : Token) : Cut Unit := do
  let lexer ← get
  let isDeeper := match lexer.indents.head? with
    | some indent => decide (indent < column)
    | none => true
  if !lexer.inFlow && isDeeper then
    set { lexer with indents := column :: lexer.indents }
    insertAt position token

/-- The place of the next token, and whether a line was begun on the way.  A line may start with the
mark of the encoding.  Each round passes the rest of one line, so as many rounds as there are
characters suffice. -/
def skipBlanks (tabs inFlow : Bool) : (rounds : Nat) → Cursor → Cursor × Bool
  | 0, cursor => (cursor, false)
  | rounds + 1, cursor =>
    let gap := cursor.skipMark.skipWhile fun c => c == ' ' || (tabs && c == '\t')
    let lineEnd := gap.skipComment
    if !lineEnd.rest.isEmpty && atLineEnd lineEnd.rest then
      ((skipBlanks inFlow inFlow rounds lineEnd.skipBreak).1, true)
    else (lineEnd, false)

/-- Moves to the next token.  A line that is begun outside flow collections may start with a key.
Tabs are passed over only where no key can start. -/
def toNextToken : Cut Unit :=
  modify fun lexer =>
    let (cursor, broken) := skipBlanks (lexer.inFlow || !lexer.keyAllowed) lexer.inFlow
      (lexer.cursor.rest.length + 1) lexer.cursor
    { lexer with cursor, keyAllowed := lexer.keyAllowed || (broken && !lexer.inFlow) }

/-- Cuts a token that is a single mark. -/
def cutMark (token : Token) (length : Nat) : Cut Unit := do
  push token
  modify fun lexer => { lexer with cursor := lexer.cursor.skip length }

/-- Cuts a token that `read` finds together with the place behind it. -/
def cutWith (read : Cursor → Option (Token × Cursor)) : Cut Unit := do
  let lexer ← get
  let (token, cursor) ← read lexer.cursor
  push token
  moveTo cursor

/-- Ends all block collections and forgets the candidate, as between documents. -/
def leaveDocument : Cut Unit := do
  unindent none
  dropCandidate
  allowKey false

/-- Cuts the start of a flow collection. -/
def openFlow (token : Token) : Cut Unit := do
  keepCandidate
  modify fun lexer => { lexer with candidate := none, outer := lexer.candidate :: lexer.outer }
  allowKey true
  cutMark token 1

/-- Cuts the end of a flow collection. -/
def closeFlow (token : Token) : Cut Unit := do
  dropCandidate
  modify fun lexer =>
    match lexer.outer with
    | candidate :: outer => { lexer with candidate, outer }
    | [] => lexer
  allowKey false
  cutMark token 1

/-- Opens a block collection at the place, where a key must be allowed. -/
def openBlock (token : Token) : Cut Unit := do
  let lexer ← get
  if lexer.inFlow then pure ()
  else if lexer.keyAllowed then indentTo lexer.cursor.column lexer.tokens.length token
  else failure

/-- Cuts the hyphen before an entry. -/
def cutBlockEntry : Cut Unit := do
  openBlock .blockSequenceStart
  dropCandidate
  allowKey true
  cutMark .blockEntry 1

/-- Cuts the question mark before a key. -/
def cutKey : Cut Unit := do
  openBlock .blockMappingStart
  dropCandidate
  allowKey (!(← get).inFlow)
  cutMark .key 1

/-- Cuts the colon before a value.  If the candidate is there, it is the key. -/
def cutValue : Cut Unit := do
  let lexer ← get
  match lexer.candidate with
  | some key =>
    insertAt key.position .key
    indentTo key.place.column key.position .blockMappingStart
    modify fun lexer => { lexer with candidate := none }
    allowKey false
  | none =>
    openBlock .blockMappingStart
    allowKey (!lexer.inFlow)
  cutMark .value 1

/-- Cuts a token that may stand in front of a key or be one. -/
def cutNode (read : Cursor → Option (Token × Cursor)) : Cut Unit := do
  keepCandidate
  allowKey false
  cutWith read

/-- Cuts a scalar without quotes. -/
def cutPlain : Cut Unit := do
  keepCandidate
  allowKey false
  let lexer ← get
  let margin : Int := match lexer.indents.head? with
    | some indent => indent + 1
    | none => 0
  let scalar ← lexer.cursor.plainScalar? ⟨lexer.inFlow, margin⟩
  push (.scalar scalar.text .plain)
  moveTo scalar.cursor
  if scalar.broken then allowKey true

/-- Cuts a block scalar. -/
def cutBlock (isFolded : Bool) : Cut Unit := do
  dropCandidate
  allowKey true
  let lexer ← get
  let (text, cursor) ← lexer.cursor.blockScalar? lexer.indents.head? isFolded
  push (.scalar text (if isFolded then .folded else .literal))
  moveTo cursor

/-- The scalar between quotes of the given style. -/
def quotedToken (style : ScalarStyle) (cursor : Cursor) : Option (Token × Cursor) :=
  cursor.quotedScalar?.map fun (text, behind) => (.scalar text style, behind)

/-- Whether a scalar without quotes can start here. -/
def startsPlain (inFlow : Bool) : List Char → Bool
  | [] => false
  | c :: rest =>
    let nextIsGap := (rest.head?.map isGap).getD false
    let isSpecial := isSeparator c || "-?:,[]\x7b\x7d#&*!|>'\"%@\u0060".toList.contains c
    !isSpecial || (c == '-' && !nextIsGap) ||
      (!inFlow && (c == '?' || c == ':') && !atSeparator rest)

/-- Cuts the token here, which is not at the end of the text. -/
def cutToken : Cut Unit := do
  let lexer ← get
  let cursor := lexer.cursor
  let inFlow := lexer.inFlow
  let atSpace := atSeparator (cursor.rest.drop 1)
  let startsLine := cursor.column == 0
  match cursor.rest.head? with
  | some '%' =>
    if startsLine then do
      leaveDocument
      cutWith Cursor.directive?
    else failure
  | some '[' => openFlow .flowSequenceStart
  | some '\x7b' => openFlow .flowMappingStart
  | some ']' => closeFlow .flowSequenceEnd
  | some '\x7d' => closeFlow .flowMappingEnd
  | some ',' => do
    dropCandidate
    allowKey true
    cutMark .flowEntry 1
  | some '*' =>
    cutNode fun cursor => cursor.nodeName?.map fun (name, behind) => (.alias name, behind)
  | some '&' =>
    cutNode fun cursor => cursor.nodeName?.map fun (name, behind) => (.anchor name, behind)
  | some '!' => cutNode fun cursor => cursor.tagToken? inFlow
  | some '\'' => cutNode (quotedToken .singleQuoted)
  | some '"' => cutNode (quotedToken .doubleQuoted)
  | some c =>
    if startsLine && atDocumentMarker cursor.rest then do
      leaveDocument
      cutMark (if c = '-' then .documentStart else .documentEnd) 3
    else if c = '-' ∧ atSpace = true then cutBlockEntry
    else if c = '?' ∧ (inFlow || atSpace) = true then cutKey
    else if c = ':' ∧ (inFlow || atSpace) = true then cutValue
    else if (c = '|' ∨ c = '>') ∧ inFlow = false then cutBlock (c == '>')
    else if startsPlain inFlow cursor.rest then cutPlain
    else failure
  | none => failure

/-- Cuts token after token up to the end of the text.  Each round cuts a token that is not empty,
so as many rounds as there are characters suffice. -/
def cutAll : (rounds : Nat) → Cut Unit
  | 0 => failure
  | rounds + 1 => do
    toNextToken
    refreshCandidates
    let lexer ← get
    if lexer.cursor.rest.isEmpty then leaveDocument
    else do
      unindent (some lexer.cursor.column)
      cutToken
      cutAll rounds

/-- The state in which the cutting of a text starts. -/
def start (text : List Char) : Lexer := ⟨⟨.start, text⟩, [], [], none, [], true⟩

end Lexer

/-- The tokens of a document. -/
def Token.ofText? (text : String) : Option (List Token) := do
  let chars ← sourceChars? text
  let (_, lexer) ← (Lexer.cutAll (chars.length + 1)).run (Lexer.start chars)
  some lexer.tokens.reverse

end XmlWorkload.Yaml
