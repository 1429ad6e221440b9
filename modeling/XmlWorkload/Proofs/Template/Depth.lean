import XmlWorkload.Proofs.Template.ResolvedTexts

/-!
# Resolving with a limit

Resolving a template goes on with copies of what was declared, so that it is no recursion on the
template.  Here the same steps are carried out with a limit on how deep the calls may be nested.
Main statement: the number of declared descriptions is limit enough, whatever the texts are
(`Template.resolveWithin_eq`).
-/

set_option autoImplicit false

namespace XmlWorkload.Template

/-- An outcome that was reached within the limit. -/
def reached {α : Type} (outcome : Except Error α) : ExceptT Error Option α := .mk (some outcome)

mutual

/-- The elements that share the name of one declared child, given how the templates of siblings are
resolved. -/
def contentBy (recur : Template → ExceptT Error Option (List Element)) (name : String) :
    Content → ExceptT Error Option (List Element)
  | .scalar text => do
    reached (CharacterData.check name text)
    pure [.leaf name text]
  | .map members => do
    let templates ← reached (siblings members)
    templates.mapM fun template => do
      let children ← recur template
      pure (.mk name template.attrs.entries children template.body)
  | .sequence items => itemsBy recur name items

/-- The elements that the entries of a sequence stand for, given how templates are resolved. -/
def itemsBy (recur : Template → ExceptT Error Option (List Element)) (name : String) :
    List Content → ExceptT Error Option (List Element)
  | [] => pure []
  | item :: rest => do
    let elements ← contentBy recur name item
    let others ← itemsBy recur name rest
    pure (elements ++ others)

end

/-- The elements that declared children stand for, given how templates are resolved. -/
def entriesBy (recur : Template → ExceptT Error Option (List Element)) :
    List (String × Content) → ExceptT Error Option (List Element)
  | [] => pure []
  | (name, value) :: rest => do
    let elements ← contentBy recur name value
    let others ← entriesBy recur rest
    pure (elements ++ others)

/-- The elements that a template stands for, if its resolution is nested no deeper than the limit. -/
def resolveWithin : (limit : Nat) → Template → ExceptT Error Option (List Element)
  | 0, _ => .mk none
  | limit + 1, template => do
    reached template.checkTexts
    entriesBy (resolveWithin limit) template.children.entries

/-- Steps that are reached one after the other are reached together. -/
theorem reached_bind {α β : Type} (step : Except Error α) (next : α → Except Error β) :
    reached (step >>= next) = reached step >>= fun value => reached (next value) := by
  cases step <;> rfl

/-- Steps that are reached for each value are reached for all. -/
theorem mapM_reached {α β : Type} {values : List α} {make : α → ExceptT Error Option β}
    {made : α → Except Error β} (h : ∀ value ∈ values, make value = reached (made value)) :
    values.mapM make = reached (values.mapM made) := by
  induction values with
  | nil => rfl
  | cons value rest ih =>
    obtain ⟨hvalue, hrest⟩ := List.forall_mem_cons.1 h
    simp only [List.mapM_cons, hvalue, ih hrest, reached_bind]
    rfl

section Resolving

variable {recur : Template → ExceptT Error Option (List Element)}

mutual

/-- It is enough to resolve templates that are smaller than a description. -/
theorem contentBy_eq (name : String) : ∀ content : Content,
    (∀ template : Template, ContentMap.weight template.children < content.weight →
      recur template = reached template.resolve) →
    contentBy recur name content = reached (resolveContent name content)
  | .scalar text, _ => by
    rw [contentBy, resolveContent, reached_bind]
    rfl
  | .map members, h => by
    rw [contentBy, resolveContent_map, reached_bind]
    cases hsiblings : siblings members with
    | error error => rfl
    | ok templates =>
      refine mapM_reached fun template htemplate => ?_
      have hle : ContentMap.weight template.children ≤ Content.weightOfEntries members.entries :=
        weight_le_of_mem_siblings hsiblings htemplate
      have hlt : ContentMap.weight template.children < Content.weight (.map members) := by
        rw [Content.weight_map]
        omega
      rw [h template hlt, reached_bind]
      rfl
  | .sequence items, h => by
    rw [contentBy, resolveContent]
    refine itemsBy_eq name items fun template hlt => h template ?_
    rw [Content.weight]
    omega

/-- Resolving items by steps that are reached is reached. -/
theorem itemsBy_eq (name : String) : ∀ items : List Content,
    (∀ template : Template, ContentMap.weight template.children < Content.weightOfItems items →
      recur template = reached template.resolve) →
    itemsBy recur name items = reached (resolveItems name items)
  | [], _ => by
    rw [itemsBy, resolveItems]
    rfl
  | item :: rest, h => by
    rw [Content.weightOfItems] at h
    rw [itemsBy, resolveItems, contentBy_eq name item fun template hlt => h template (by omega),
      itemsBy_eq name rest fun template hlt => h template (by omega), reached_bind]
    simp only [reached_bind]
    rfl

end

/-- Resolving entries by steps that are reached is reached. -/
theorem entriesBy_eq : ∀ entries : List (String × Content),
    (∀ template : Template, ContentMap.weight template.children < Content.weightOfEntries entries →
      recur template = reached template.resolve) →
    entriesBy recur entries = reached (resolveEntries entries)
  | [], _ => by
    rw [entriesBy, resolveEntries]
    rfl
  | (name, value) :: rest, h => by
    rw [Content.weightOfEntries] at h
    rw [entriesBy, resolveEntries, contentBy_eq name value fun template hlt => h template (by omega),
      entriesBy_eq rest fun template hlt => h template (by omega), reached_bind]
    simp only [reached_bind]
    rfl

end Resolving

/-- With a limit above the number of declared descriptions the resolution of a template comes to its
outcome. -/
theorem resolveWithin_eq : ∀ (limit : Nat) (template : Template),
    ContentMap.weight template.children < limit →
    resolveWithin limit template = reached template.resolve
  | limit + 1, template, h => by
    rw [resolveWithin, resolve, reached_bind]
    refine congrArg _ (funext fun _ => entriesBy_eq template.children.entries fun inner hinner => ?_)
    -- a template of a sibling has fewer descriptions than the one around it
    have hless : ContentMap.weight inner.children < ContentMap.weight template.children := hinner
    exact resolveWithin_eq limit inner (by omega)

end XmlWorkload.Template
