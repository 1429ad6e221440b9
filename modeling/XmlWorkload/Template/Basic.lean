import XmlWorkload.Content.Basic
import XmlWorkload.Error
import XmlWorkload.Template.Keyword
import XmlWorkload.Template.Substitution

/-!
# Element templates

A template says what is written onto one element: attributes, children and a text.  It is read from
a content map, in which the keywords describe the element and every other name is a child.
-/

set_option autoImplicit false

namespace XmlWorkload

/-- What is written onto one element. -/
structure Template where
  children : ContentMap
  attrs : OrderedMap String
  body : String
  deriving Inhabited

/-- The repetition of an element: one copy for each item, in which the item stands for the
placeholder. -/
structure Repetition where
  /-- The name that the items stand for. -/
  placeholder : String
  items : List String
  deriving DecidableEq, Repr

namespace Template

/-- The template that writes nothing. -/
def empty : Template := ⟨.empty, .empty, ""⟩

/-- Replaces every text of a template: those of the children depth first, then the values of the
attributes, then the text of the element.  Names stay. -/
def mapTextM {m : Type → Type} [Monad m] (f : String → m String) (template : Template) :
    m Template := do
  let children ← template.children.mapTextM f
  let attrs ← template.attrs.mapValuesM f
  let body ← f template.body
  pure ⟨children, attrs, body⟩

/-- The template with `f` applied to every text. -/
def mapText (f : String → String) (template : Template) : Template :=
  mapTextM (m := Id) f template

/-- The template with a substitution applied to every text. -/
def substitute (substitution : Substitution) (template : Template) : Template :=
  template.mapText substitution.apply

end Template

namespace Repetition

/-- The text of a content description that is one, for each of several; none if one is no text. -/
def texts? : List Content → Option (List String)
  | [] => some []
  | item :: rest => do
    let text ← item.text?
    let others ← texts? rest
    pure (text :: others)

/-- The repetition that a clause describes, or what is wrong with the clause. -/
def parseClause : Content → Except RepetitionFault Repetition
  | .sequence [placeholder, items] => do
    let .scalar name := placeholder | throw .placeholderNotText
    if name = "" then throw .placeholderEmpty
    let .sequence items := items | throw .itemsNotSequence
    if items.isEmpty then throw .itemsEmpty
    let some texts := texts? items | throw .itemsNotText
    pure ⟨name, texts⟩
  | .sequence _ => .error .notPair
  | _ => .error .notSequence

/-- The repetition that a clause describes. -/
def parse (clause : Content) : Except Error Repetition :=
  (parseClause clause).mapError (.malformedRepetition clause)

/-- The text that an item stands for: the placeholder between brackets. -/
def token (repetition : Repetition) : String := "[" ++ repetition.placeholder ++ "]"

/-- One copy of a template for each item, with the item in place of the token. -/
def copies (repetition : Repetition) (template : Template) : List Template :=
  repetition.items.map fun item => template.substitute (.single repetition.token item)

end Repetition

namespace Template

/-- The attributes among the entries of a map, each of which has to be a text. -/
def attributeEntries {names : List String} :
    Entries Content names → Except Error (Entries String names)
  | .nil => .ok .nil
  | .cons name value fresh rest => do
    let .scalar text := value
      | throw (.invalidContent (Keyword.attrs.label ++ "." ++ name) (.attributeNotText value))
    let others ← attributeEntries rest
    pure (.cons name text fresh others)

/-- The attributes that a content description gives. -/
def attributesOf (value : Content) : Except Error (OrderedMap String) := do
  let .map members := value | throw (.invalidContent Keyword.attrs.label (.expectedMap value))
  let held ← attributeEntries members.held
  pure ⟨held⟩

/-- The template with one more child, whose name must be new. -/
def addChild (template : Template) (name : String) (value : Content) :
    Except Error Template :=
  if template.children.contains name then .error (.duplicateChild name)
  else .ok { template with children := template.children.insert name value }

/-- The template with more children, whose names must be new. -/
def addChildren (template : Template) : List (String × Content) → Except Error Template
  | [] => .ok template
  | (name, value) :: rest => do
    let template ← template.addChild name value
    template.addChildren rest

/-- An element as a content map describes it: the template, and the repetition if there is one. -/
structure Description where
  template : Template
  repetition : Option Repetition
  deriving Inhabited

/-- A description after one more entry of the content map. -/
def Description.addEntry (description : Description) (name : String) (value : Content) :
    Except Error Description :=
  match Keyword.ofLabel? name with
  | some .children => do
    let .map members := value
      | throw (.invalidContent Keyword.children.label (.expectedMap value))
    let template ← description.template.addChildren members.entries
    pure { description with template }
  | some .attrs => do
    let attrs ← attributesOf value
    pure { description with template := { description.template with attrs } }
  | some .body => do
    let .scalar body := value | throw (.invalidContent Keyword.body.label (.expectedText value))
    pure { description with template := { description.template with body } }
  | some .foreach => do
    let repetition ← Repetition.parse value
    pure { description with repetition := some repetition }
  | none => do
    let template ← description.template.addChild name value
    pure { description with template }

/-- A description after more entries of the content map, in order. -/
def Description.addEntries (description : Description) :
    List (String × Content) → Except Error Description
  | [] => .ok description
  | (name, value) :: rest => do
    let description ← description.addEntry name value
    description.addEntries rest

/-- The element that a content map describes. -/
def describe (members : ContentMap) : Except Error Description :=
  Description.addEntries ⟨.empty, none⟩ members.entries

/-- The templates that a description stands for: one, or one for each item. -/
def Description.templates (description : Description) : List Template :=
  match description.repetition with
  | some repetition => repetition.copies description.template
  | none => [description.template]

/-- The templates of the sibling elements that a content map describes. -/
def siblings (members : ContentMap) : Except Error (List Template) :=
  (describe members).map Description.templates

end Template

end XmlWorkload
