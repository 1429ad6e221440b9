import XmlWorkload.Content.Basic

/-!
# What can go wrong while a document is written

Every failure of the document layers is one value of `Error`, told apart by its cause.  The wording
of all of them stands in `Error.message`, and `Error.severity` says what a failure means for the
document that raised it: a failure of configuration leaves the document usable, a structural one
does not.
-/

set_option autoImplicit false

namespace XmlWorkload

/-- Why an output or the file system refused an operation. -/
inductive IoFault where
  | outputFull
  | flushRefused
  | notFound
  | alreadyExists
  | notDirectory
  | isDirectory
  | nameTooLong
  | zeroInPath
  | deviceFull
  | notText
  deriving DecidableEq, Repr

/-- The wording of a refusal. -/
def IoFault.message : IoFault → String
  | .outputFull => "output full"
  | .flushRefused => "flush refused"
  | .notFound => "No such file or directory (os error 2)"
  | .alreadyExists => "File exists (os error 17)"
  | .notDirectory => "Not a directory (os error 20)"
  | .isDirectory => "Is a directory (os error 21)"
  | .nameTooLong => "File name too long (os error 36)"
  | .zeroInPath => "file name contained an unexpected NUL byte"
  | .deviceFull => "No space left on device (os error 28)"
  | .notText => "stream did not contain valid UTF-8"

/-- What is wrong with a repetition clause. -/
inductive RepetitionFault where
  | notSequence
  | notPair
  | placeholderNotText
  | placeholderEmpty
  | itemsNotSequence
  | itemsEmpty
  | itemsNotText
  deriving DecidableEq, Repr

/-- The wording of what is wrong with a repetition clause. -/
def RepetitionFault.message : RepetitionFault → String
  | .notSequence => "expected [placeholder, [items...]]"
  | .notPair => "expected exactly two entries"
  | .placeholderNotText => "placeholder must be a scalar"
  | .placeholderEmpty => "placeholder must not be empty"
  | .itemsNotSequence => "items must be a sequence"
  | .itemsEmpty => "items must not be empty"
  | .itemsNotText => "items must be scalars"

/-- What is wrong with the content of a field. -/
inductive ContentFault where
  | expectedMap (found : Content)
  | expectedText (found : Content)
  /-- The value of an attribute has to be a text. -/
  | attributeNotText (found : Content)
  /-- A character that a document cannot carry. -/
  | forbiddenCharacter (c : Char)

/-- A number in capital hexadecimal digits, at least four of them. -/
def hexadecimal (value : Nat) : String :=
  let digits := (Nat.toDigits 16 value).map Char.toUpper
  String.ofList (List.replicate (4 - digits.length) '0' ++ digits)

/-- The wording of what is wrong with the content of a field. -/
def ContentFault.message : ContentFault → String
  | .expectedMap found => "expected a map, found " ++ found.shape.word ++ " " ++ found.render
  | .expectedText found => "expected text, found " ++ found.shape.word ++ " " ++ found.render
  | .attributeNotText found =>
    "attribute values must be scalars, found " ++ found.shape.word ++ " " ++ found.render
  | .forbiddenCharacter c => "character U+" ++ hexadecimal c.toNat ++ " is not allowed in XML"

/-- The operations on an open element. -/
inductive SinkAction where
  | startChild
  | setAttribute
  | writeText
  | endElement
  deriving DecidableEq, Repr

/-- The wording of an operation. -/
def SinkAction.words : SinkAction → String
  | .startChild => "start child"
  | .setAttribute => "set attribute"
  | .writeText => "write text"
  | .endElement => "end element"

/-- How an operation breaks the order in which a document is written. -/
inductive OrderFault where
  /-- Another element is the innermost open one. -/
  | notInnermost (action : SinkAction) (element : Nat) (innermost : String)
  | afterEnd (action : SinkAction) (element : Nat)
  | attributeAfterContent (name element : String)
  | stillOpen (element : String)
  deriving DecidableEq, Repr

/-- The wording of a broken order. -/
def OrderFault.message : OrderFault → String
  | .notInnermost action element innermost =>
    action.words ++ " on element #" ++ toString element ++ " while '" ++ innermost ++
      "' is the innermost open element"
  | .afterEnd action element =>
    action.words ++ " on element #" ++ toString element ++ " after the document was finished"
  | .attributeAfterContent name element =>
    "attribute '" ++ name ++ "' on '" ++ element ++ "' after its content was written"
  | .stillOpen element => "finish while '" ++ element ++ "' is still open"

/-- Why an output directory cannot be used. -/
inductive DirectoryFault where
  | notCreated (fault : IoFault)
  /-- Its place is taken by a file. -/
  | taken
  deriving DecidableEq, Repr

/-- The wording of an unusable directory, without the reason that the file system gives. -/
def DirectoryFault.words : DirectoryFault → String
  | .notCreated _ => "could not create"
  | .taken => "exists and is not a directory"

/-- The wording of an unusable directory. -/
def DirectoryFault.message : DirectoryFault → String
  | .notCreated fault => "could not create: " ++ fault.message
  | .taken => "exists and is not a directory"

/-- What can go wrong while a document is written. -/
inductive Error where
  /-- A repetition clause is not a placeholder with its items. -/
  | malformedRepetition (clause : Content) (fault : RepetitionFault)
  /-- A field has content of the wrong shape, or with a forbidden character. -/
  | invalidContent (field : String) (fault : ContentFault)
  /-- A child is declared both as a plain entry and among the children. -/
  | duplicateChild (name : String)
  | emptyPath
  /-- A name that no element or attribute can have. -/
  | invalidName (name : String)
  /-- An operation out of the order in which documents are written. -/
  | outOfOrder (fault : OrderFault)
  /-- The output or the file system refused an operation. -/
  | io (fault : IoFault)
  | outputDirectory (path : String) (fault : DirectoryFault)
  /-- The file of a new document exists already. -/
  | fileExists (path : String)
  /-- An earlier failure left the document unusable. -/
  | documentUnusable (reason : Error)
  | documentClosed
  /-- The set of documents has been closed. -/
  | documentSetClosed
  /-- Documents that failed to close, each with its file index. -/
  | unclosedDocuments (failures : List (Nat × Error))

namespace Error

mutual

/-- The wording of an error. -/
def message : Error → String
  | .malformedRepetition clause fault =>
    "Malformed foreach " ++ clause.render ++ ": " ++ fault.message
  | .invalidContent field fault => "Invalid content for '" ++ field ++ "': " ++ fault.message
  | .duplicateChild name =>
    "Child '" ++ name ++ "' is declared both inline and in 'children'"
  | .emptyPath => "Element path is empty"
  | .invalidName name => "Invalid XML name: '" ++ name ++ "'"
  | .outOfOrder fault => "Out of order write: " ++ fault.message
  | .io fault => "IO error: " ++ fault.message
  | .outputDirectory path fault =>
    "Output directory " ++ Text.quoted path ++ ": " ++ fault.message
  | .fileExists path => "Output file already exists: " ++ Text.quoted path
  | .documentUnusable reason =>
    "Document is unusable after an earlier failure: " ++ message reason
  | .documentClosed => "Document is closed"
  | .documentSetClosed => "Document set is closed"
  | .unclosedDocuments failures =>
    toString failures.length ++ " document(s) failed to close: " ++
      String.intercalate "; " (failureMessages failures)

/-- The wording of each failure to close, with the file index before it. -/
def failureMessages : List (Nat × Error) → List String
  | [] => []
  | (index, error) :: rest =>
    ("file " ++ toString index ++ ": " ++ message error) :: failureMessages rest

end

/-- What an error means for the document that raised it. -/
inductive Severity where
  /-- The request was at fault; the document stays usable. -/
  | configuration
  /-- The document is unusable from here on. -/
  | structural
  /-- The error concerns the life of a document, a set or a directory. -/
  | lifecycle
  deriving DecidableEq, Repr

/-- What an error means for the document that raised it. -/
def severity : Error → Severity
  | .malformedRepetition _ _ | .invalidContent _ _ | .duplicateChild _ | .emptyPath =>
    .configuration
  | .invalidName _ | .outOfOrder _ | .io _ => .structural
  | .outputDirectory _ _ | .fileExists _ | .documentUnusable _ | .documentClosed
  | .documentSetClosed | .unclosedDocuments _ => .lifecycle

end Error

end XmlWorkload
