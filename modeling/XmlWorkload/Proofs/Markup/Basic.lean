import XmlWorkload.CharacterData
import XmlWorkload.Template.Element

/-!
# Documents as trees

A document is a tree of elements and texts.  Its written form follows from the tree alone: an
element without content is one tag, and any other one stands between its start tag and its end tag.
-/

set_option autoImplicit false

namespace XmlWorkload

/-- A document, or a part of one. -/
inductive Markup where
  /-- An element with its attributes and its content, both in order. -/
  | element (name : String) (attrs : List (String × String)) (content : List Markup)
  | text (body : String)
  deriving Inhabited

namespace Markup

/-- An attribute with a space before it and its value between quotes. -/
def renderAttribute (entry : String × String) : String :=
  " " ++ entry.1 ++ "=\"" ++ CharacterData.escaped entry.2 ++ "\""

/-- A name with attributes behind it. -/
def renderHead (name : String) (attrs : List (String × String)) : String :=
  name ++ String.join (attrs.map renderAttribute)

mutual

/-- The written form of a part of a document. -/
def render : Markup → String
  | .text body => CharacterData.escaped body
  | .element name attrs content =>
    if content.isEmpty then "<" ++ renderHead name attrs ++ "/>"
    else "<" ++ renderHead name attrs ++ ">" ++ renderAll content ++ "</" ++ name ++ ">"

/-- The written form of several parts in a row. -/
def renderAll : List Markup → String
  | [] => ""
  | node :: rest => render node ++ renderAll rest

end

/-- What a text adds to the content of an element: nothing if it is empty. -/
def ofText (body : String) : List Markup := if body = "" then [] else [.text body]

mutual

/-- The tree of a resolved element: its children in order, and its text behind them. -/
def ofElement : Element → Markup
  | .mk name attrs children body => .element name attrs (ofElements children ++ ofText body)

/-- The trees of resolved elements in a row. -/
def ofElements : List Element → List Markup
  | [] => []
  | child :: rest => ofElement child :: ofElements rest

end

/-- Two rows of nodes are written one behind the other. -/
theorem renderAll_append (before behind : List Markup) :
    renderAll (before ++ behind) = renderAll before ++ renderAll behind := by
  induction before with
  | nil => simp [renderAll]
  | cons node rest ih => simp [renderAll, ih, String.append_assoc]

/-- An element with content stands between its start tag and its end tag. -/
theorem render_of_ne_nil (name : String) (attrs : List (String × String)) {content : List Markup}
    (h : content ≠ []) :
    render (.element name attrs content) =
      "<" ++ renderHead name attrs ++ ">" ++ renderAll content ++ "</" ++ name ++ ">" := by
  rw [render, if_neg (by simpa using h)]

end Markup

namespace Element

mutual

/-- The names that writing an element puts down, in order: its own, those of its attributes, and
those of its children. -/
def names : Element → List String
  | .mk name attrs children _ => name :: (attrs.map Prod.fst ++ namesOfAll children)

/-- The names that writing elements in a row puts down. -/
def namesOfAll : List Element → List String
  | [] => []
  | element :: rest => names element ++ namesOfAll rest

end

mutual

/-- The texts of an element, those of its attributes and its children among them. -/
def texts : Element → List String
  | .mk _ attrs children body => attrs.map Prod.snd ++ textsOfAll children ++ [body]

/-- The texts of elements in a row. -/
def textsOfAll : List Element → List String
  | [] => []
  | element :: rest => texts element ++ textsOfAll rest

end

mutual

/-- The number of elements in an element, itself included. -/
def count : Element → Nat
  | .mk _ _ children _ => countOfAll children + 1

/-- The number of elements in elements in a row. -/
def countOfAll : List Element → Nat
  | [] => 0
  | element :: rest => count element + countOfAll rest

end

end Element

end XmlWorkload
