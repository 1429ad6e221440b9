import XmlWorkload.CharacterData
import XmlWorkload.Template.Weight

/-!
# Resolved elements

Resolving a template gives the elements that will be written below it, with every repetition
carried out.  A template that does not resolve is at fault itself, so that nothing has been written
when the fault shows.
-/

set_option autoImplicit false

namespace XmlWorkload

/-- An element with nothing left to expand. -/
inductive Element where
  /-- An element of the given name, with its attributes in order, its children in order, and the
  text behind them. -/
  | mk (name : String) (attrs : List (String × String)) (children : List Element)
    (body : String)
  deriving Inhabited

namespace Element

/-- The name. -/
def name : Element → String
  | .mk name _ _ _ => name

/-- The attributes. -/
def attrs : Element → List (String × String)
  | .mk _ attrs _ _ => attrs

/-- The children. -/
def children : Element → List Element
  | .mk _ _ children _ => children

/-- The text behind the children. -/
def body : Element → String
  | .mk _ _ _ body => body

/-- An element with a text and nothing else. -/
def leaf (name body : String) : Element := .mk name [] [] body

end Element

namespace Template

/-- Refuses attributes with a character that a document cannot carry. -/
def checkAttributes : List (String × String) → Except Error Unit
  | [] => .ok ()
  | (name, value) :: rest => do
    CharacterData.check (Keyword.attrs.label ++ "." ++ name) value
    checkAttributes rest

/-- Refuses a template whose own texts have a character that a document cannot carry. -/
def checkTexts (template : Template) : Except Error Unit := do
  CharacterData.check Keyword.body.label template.body
  checkAttributes template.attrs.entries

mutual

/-- The elements that the children of a template stand for, in the order of their declaration. -/
def resolve (template : Template) : Except Error (List Element) := do
  template.checkTexts
  resolveEntries template.children.entries
termination_by (template.children.weight, 2)
decreasing_by exact Prod.Lex.right _ (by decide)

/-- The elements that declared children stand for. -/
def resolveEntries (entries : List (String × Content)) : Except Error (List Element) :=
  match entries with
  | [] => .ok []
  | (name, value) :: rest => do
    let elements ← resolveContent name value
    let others ← resolveEntries rest
    pure (elements ++ others)
termination_by (Content.weightOfEntries entries, 1)
decreasing_by
  · simp only [Content.weightOfEntries]
    rcases Nat.eq_zero_or_pos (Content.weightOfEntries rest) with h | h
    · rw [h]; exact Prod.Lex.right _ (by decide)
    · exact Prod.Lex.left _ _ (by omega)
  · have := Content.weight_pos value
    exact Prod.Lex.left _ _ (by simp only [Content.weightOfEntries]; omega)

/-- The elements that share the name of one declared child: a text gives one, a sequence those of
its entries, and a map one for each template that it stands for. -/
def resolveContent (name : String) (value : Content) : Except Error (List Element) :=
  match value with
  | .scalar text => do
    CharacterData.check name text
    pure [.leaf name text]
  | .map members =>
    match _h : siblings members with
    | .error error => .error error
    | .ok templates =>
      templates.attach.mapM fun ⟨template, _hmem⟩ => do
        let children ← resolve template
        pure (.mk name template.attrs.entries children template.body)
  | .sequence items => resolveItems name items
termination_by (value.weight, 0)
decreasing_by
  · have hle := weight_le_of_mem_siblings _h _hmem
    refine Prod.Lex.left _ _ ?_
    simp only [Content.weight_map, ContentMap.weight] at *
    omega
  · exact Prod.Lex.left _ _ (by simp only [Content.weight]; omega)

/-- The elements that the entries of a sequence stand for, all of one name. -/
def resolveItems (name : String) (items : List Content) : Except Error (List Element) :=
  match items with
  | [] => .ok []
  | item :: rest => do
    let elements ← resolveContent name item
    let others ← resolveItems name rest
    pure (elements ++ others)
termination_by (Content.weightOfItems items, 1)
decreasing_by
  · simp only [Content.weightOfItems]
    rcases Nat.eq_zero_or_pos (Content.weightOfItems rest) with h | h
    · rw [h]; exact Prod.Lex.right _ (by decide)
    · exact Prod.Lex.left _ _ (by omega)
  · have := Content.weight_pos item
    exact Prod.Lex.left _ _ (by simp only [Content.weightOfItems]; omega)

end

end Template

end XmlWorkload
