import XmlWorkload.Proofs.Template.ResolvedTexts

/-!
# The faults of templates

A template that does not resolve is at fault itself.  Main statement: every error of the resolution
is one of configuration, which leaves a document usable.
-/

set_option autoImplicit false

namespace XmlWorkload.Template

/-- A computation fails with errors of configuration only. -/
def Blameless {α : Type} (result : Except Error α) : Prop :=
  ∀ error, result = .error error → error.severity = .configuration

namespace Blameless

variable {α β : Type}

/-- A value is nobody's fault. -/
theorem ok (value : α) : Blameless (.ok value) := by
  intro error h
  cases h

/-- An error of the configuration is blameless. -/
theorem error {fault : Error} (h : fault.severity = .configuration) :
    Blameless (.error fault : Except Error α) := by
  intro error herror
  cases herror
  exact h

/-- Two steps that are blameless are so together. -/
theorem bind {step : Except Error α} {next : α → Except Error β} (hstep : Blameless step)
    (hnext : ∀ value, step = .ok value → Blameless (next value)) : Blameless (step >>= next) := by
  cases hresult : step with
  | error fault => exact error (hstep fault hresult)
  | ok value => exact hnext value hresult

/-- What is made of the value of a blameless step is blameless. -/
theorem map {step : Except Error α} (f : α → β) (hstep : Blameless step) :
    Blameless (step.map f) := by
  cases hresult : step with
  | error fault => exact error (hstep fault hresult)
  | ok value => exact ok (f value)

/-- Steps that are blameless for each value are so for all. -/
theorem mapM {make : α → Except Error β} {values : List α}
    (hmake : ∀ value ∈ values, Blameless (make value)) : Blameless (values.mapM make) := by
  induction values with
  | nil => exact ok []
  | cons value rest ih =>
    rw [List.mapM_cons]
    apply bind (hmake value List.mem_cons_self)
    intro made _
    apply bind (ih fun other hother => hmake other (List.mem_cons_of_mem value hother))
    intro others _
    exact ok (made :: others)

end Blameless

/-- Checking a text is blameless. -/
theorem blameless_check (field text : String) : Blameless (CharacterData.check field text) := by
  unfold CharacterData.check
  split
  · exact Blameless.error rfl
  · exact Blameless.ok ()

/-- Checking attributes is blameless. -/
theorem blameless_checkAttributes (attrs : List (String × String)) :
    Blameless (checkAttributes attrs) := by
  induction attrs with
  | nil => exact Blameless.ok ()
  | cons entry rest ih =>
    apply Blameless.bind (blameless_check _ _)
    intro _ _
    exact ih

/-- Checking the texts of a template is blameless. -/
theorem blameless_checkTexts (template : Template) : Blameless template.checkTexts := by
  apply Blameless.bind (blameless_check _ _)
  intro _ _
  exact blameless_checkAttributes _

/-- Reading the entries of attributes is blameless. -/
theorem blameless_attributeEntries {names : List String} (entries : Entries Content names) :
    Blameless (attributeEntries entries) := by
  induction entries with
  | nil => exact Blameless.ok Entries.nil
  | cons name value fresh rest ih =>
    cases value with
    | scalar text =>
      apply Blameless.bind ih
      intro others _
      exact Blameless.ok _
    | sequence items => exact Blameless.error rfl
    | map members => exact Blameless.error rfl

/-- Reading attributes is blameless. -/
theorem blameless_attributesOf (value : Content) : Blameless (attributesOf value) := by
  cases value with
  | scalar text => exact Blameless.error rfl
  | sequence items => exact Blameless.error rfl
  | map members =>
    apply Blameless.bind (blameless_attributeEntries members.held)
    intro entries _
    exact Blameless.ok _

/-- Adding a child is blameless. -/
theorem blameless_addChild (template : Template) (name : String) (value : Content) :
    Blameless (template.addChild name value) := by
  unfold addChild
  split
  · exact Blameless.error rfl
  · exact Blameless.ok _

/-- Adding children is blameless. -/
theorem blameless_addChildren (entries : List (String × Content)) (template : Template) :
    Blameless (template.addChildren entries) := by
  induction entries generalizing template with
  | nil => exact Blameless.ok template
  | cons entry rest ih =>
    apply Blameless.bind (blameless_addChild template entry.1 entry.2)
    intro added _
    exact ih added

/-- Every entry of a content map that cannot be read is a fault of configuration. -/
theorem blameless_addEntry (description : Description) (name : String) (value : Content) :
    Blameless (description.addEntry name value) := by
  unfold Description.addEntry
  split
  · cases value with
    | scalar text => exact Blameless.error rfl
    | sequence items => exact Blameless.error rfl
    | map members =>
      apply Blameless.bind (blameless_addChildren members.entries description.template)
      intro template _
      exact Blameless.ok _
  · apply Blameless.bind (blameless_attributesOf value)
    intro attrs _
    exact Blameless.ok _
  · cases value with
    | scalar body => exact Blameless.ok _
    | sequence items => exact Blameless.error rfl
    | map members => exact Blameless.error rfl
  · apply Blameless.bind
    · unfold Repetition.parse
      cases hclause : Repetition.parseClause value with
      | error fault => exact Blameless.error rfl
      | ok repetition => exact Blameless.ok repetition
    · intro repetition _
      exact Blameless.ok _
  · apply Blameless.bind (blameless_addChild description.template name value)
    intro template _
    exact Blameless.ok _

/-- Describing the siblings of an element is blameless. -/
theorem blameless_siblings (members : ContentMap) : Blameless (siblings members) := by
  apply Blameless.map
  unfold describe
  generalize (⟨.empty, none⟩ : Description) = description
  induction members.entries generalizing description with
  | nil => exact Blameless.ok description
  | cons entry rest ih =>
    apply Blameless.bind (blameless_addEntry description entry.1 entry.2)
    intro next _
    exact ih next

/-- A template that does not resolve has a fault of configuration. -/
theorem severity_of_resolve {template : Template} {error : Error}
    (h : template.resolve = .error error) : error.severity = .configuration := by
  -- one statement for each of the functions that call each other
  refine (resolve.mutual_induct
    (fun template => Blameless template.resolve)
    (fun entries => Blameless (resolveEntries entries))
    (fun name value => Blameless (resolveContent name value))
    (fun name items => Blameless (resolveItems name items))
    ?template ?noEntries ?entries ?scalar ?failed ?map ?sequence ?noItems ?items).1
    template error h
  case template =>
    intro template ih
    rw [resolve]
    apply Blameless.bind (blameless_checkTexts template)
    intro _ _
    exact ih
  case noEntries =>
    rw [resolveEntries]
    exact Blameless.ok []
  case entries =>
    intro name value rest ihValue ihRest
    rw [resolveEntries]
    apply Blameless.bind ihValue
    intro own _
    apply Blameless.bind ihRest
    intro others _
    exact Blameless.ok _
  case scalar =>
    intro name text
    rw [resolveContent]
    apply Blameless.bind (blameless_check name text)
    intro _ _
    exact Blameless.ok _
  case failed =>
    intro name members fault hfailed
    rw [resolveContent_map, hfailed]
    exact Blameless.error (blameless_siblings members fault hfailed)
  case map =>
    intro name members templates hsiblings ih
    rw [resolveContent_map, hsiblings]
    apply Blameless.mapM
    intro template hmem
    apply Blameless.bind (ih template hmem)
    intro children _
    exact Blameless.ok _
  case sequence =>
    intro name items ih
    rw [resolveContent]
    exact ih
  case noItems =>
    intro name
    rw [resolveItems]
    exact Blameless.ok []
  case items =>
    intro name item rest ihItem ihRest
    rw [resolveItems]
    apply Blameless.bind ihItem
    intro own _
    apply Blameless.bind ihRest
    intro others _
    exact Blameless.ok _

end XmlWorkload.Template
