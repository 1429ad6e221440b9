import XmlWorkload.Content.OrderedMap
import XmlWorkload.Text.Quoted

/-!
# Content descriptions

A content description says what stands inside an element.  It is a text, a map from names to
descriptions, or a sequence of descriptions that share the name under which the sequence stands.
This module has the type, the traversal of its texts, its size, and the form in which a description
stands inside messages.
-/

set_option autoImplicit false

namespace XmlWorkload

/-- What stands inside an element. -/
inductive Content where
  /-- A text.  Numbers and truth values are held in their text form. -/
  | scalar (text : String)
  /-- Named descriptions, in the order of their declaration. -/
  | map (members : OrderedMap Content)
  | sequence (items : List Content)
  deriving Inhabited

/-- A map from names to content descriptions. -/
abbrev ContentMap := OrderedMap Content

namespace Content

/-- The three shapes of a description. -/
inductive Shape where
  | scalar
  | map
  | sequence
  deriving DecidableEq, Repr

/-- The word for a shape. -/
def Shape.word : Shape → String
  | .scalar => "scalar"
  | .map => "map"
  | .sequence => "sequence"

/-- The shape of a description. -/
def shape : Content → Shape
  | .scalar _ => .scalar
  | .map _ => .map
  | .sequence _ => .sequence

/-- The text of a description that is one. -/
def text? : Content → Option String
  | .scalar text => some text
  | _ => none

/-- The map of a description that is one. -/
def members? : Content → Option ContentMap
  | .map members => some members
  | _ => none

mutual

/-- The description in the form that stands inside messages. -/
def render : Content → String
  | .scalar text => Text.quoted text
  | .map ⟨entries⟩ => "\x7b" ++ String.intercalate ", " (renderEntries entries) ++ "\x7d"
  | .sequence items => "[" ++ String.intercalate ", " (renderItems items) ++ "]"

/-- The entries of a map in the form that stands inside messages, names as they are. -/
def renderEntries {names : List String} : Entries Content names → List String
  | .nil => []
  | .cons name value _ rest => (name ++ ": " ++ render value) :: renderEntries rest

/-- The entries of a sequence in the form that stands inside messages. -/
def renderItems : List Content → List String
  | [] => []
  | item :: rest => render item :: renderItems rest

end

mutual

/-- Replaces every text of a description, depth first in the order of declaration.  Names stay. -/
def mapTextM {m : Type → Type} [Monad m] (f : String → m String) : Content → m Content
  | .scalar text => do
    let replaced ← f text
    pure (.scalar replaced)
  | .map ⟨entries⟩ => do
    let replaced ← mapEntriesM f entries
    pure (.map ⟨replaced⟩)
  | .sequence items => do
    let replaced ← mapItemsM f items
    pure (.sequence replaced)

/-- Replaces every text in the values of the entries, in order. -/
def mapEntriesM {m : Type → Type} [Monad m] (f : String → m String) {names : List String} :
    Entries Content names → m (Entries Content names)
  | .nil => pure .nil
  | .cons name value fresh rest => do
    let replaced ← mapTextM f value
    let others ← mapEntriesM f rest
    pure (.cons name replaced fresh others)

/-- Replaces every text in the items, in order. -/
def mapItemsM {m : Type → Type} [Monad m] (f : String → m String) :
    List Content → m (List Content)
  | [] => pure []
  | item :: rest => do
    let replaced ← mapTextM f item
    let others ← mapItemsM f rest
    pure (replaced :: others)

end

/-- The description with `f` applied to every text. -/
def mapText (f : String → String) (content : Content) : Content :=
  mapTextM (m := Id) f content

mutual

/-- The texts of a description, depth first in the order of declaration. -/
def texts : Content → List String
  | .scalar text => [text]
  | .map ⟨entries⟩ => textsOfEntries entries
  | .sequence items => textsOfItems items

/-- The texts in the values of the entries, in order. -/
def textsOfEntries {names : List String} : Entries Content names → List String
  | .nil => []
  | .cons _ value _ rest => texts value ++ textsOfEntries rest

/-- The texts in the items, in order. -/
def textsOfItems : List Content → List String
  | [] => []
  | item :: rest => texts item ++ textsOfItems rest

end

mutual

/-- The number of descriptions inside a description, itself included. -/
def weight : Content → Nat
  | .scalar _ => 1
  | .map ⟨entries⟩ => 1 + weightOfMembers entries
  | .sequence items => 1 + weightOfItems items

/-- The number of descriptions inside the members of a map. -/
def weightOfMembers {names : List String} : Entries Content names → Nat
  | .nil => 0
  | .cons _ value _ rest => weight value + weightOfMembers rest

/-- The number of descriptions inside the items. -/
def weightOfItems : List Content → Nat
  | [] => 0
  | item :: rest => weight item + weightOfItems rest

end

/-- The number of descriptions inside the values of entries. -/
def weightOfEntries : List (String × Content) → Nat
  | [] => 0
  | (_, value) :: rest => weight value + weightOfEntries rest

/-- A map is as large as its entries, and one larger. -/
theorem weight_map (members : ContentMap) :
    weight (.map members) = 1 + weightOfEntries members.entries := by
  have hentries : ∀ {names : List String} (entries : Entries Content names),
      weightOfMembers entries = weightOfEntries entries.toList := by
    intro names entries
    induction entries with
    | nil => rfl
    | cons name value fresh rest ih => exact congrArg (weight value + ·) ih
  exact congrArg (1 + ·) (hentries members.held)

end Content

namespace ContentMap

/-- The map in the form that stands inside messages. -/
def render (members : ContentMap) : String := (Content.map members).render

/-- Replaces every text in the values of the map, in order. -/
def mapTextM {m : Type → Type} [Monad m] (f : String → m String) (members : ContentMap) :
    m ContentMap := do
  let held ← Content.mapEntriesM f members.held
  pure ⟨held⟩

/-- The map with `f` applied to every text. -/
def mapText (f : String → String) (members : ContentMap) : ContentMap :=
  mapTextM (m := Id) f members

/-- The number of descriptions inside the values of the map. -/
def weight (members : ContentMap) : Nat := Content.weightOfEntries members.entries

/-- Applying a function to every text of a map is applying it to the texts of each value. -/
theorem entries_mapText (f : String → String) (members : ContentMap) :
    (members.mapText f).entries =
      members.entries.map fun entry => (entry.1, entry.2.mapText f) := by
  obtain ⟨held⟩ := members
  show (Content.mapEntriesM (m := Id) f held).toList = held.toList.map _
  induction held with
  | nil => rfl
  | cons name value fresh rest ih => exact congrArg ((name, value.mapText f) :: ·) ih

end ContentMap

end XmlWorkload
