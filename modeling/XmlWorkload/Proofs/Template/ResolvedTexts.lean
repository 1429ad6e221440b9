import XmlWorkload.Proofs.Sink.Writing

/-!
# The texts of resolved elements

Resolving a template looks through every text that may be written for it.  Main statement: when a
template resolves, a document can carry its own texts and those of the elements it resolves to.
-/

set_option autoImplicit false

namespace XmlWorkload.Template

open CharacterData (Carries)

/-- Two steps that may fail succeed together exactly when the first succeeds and the second does
with its value. -/
theorem bind_eq_ok_iff {ε α β : Type} {step : Except ε α} {next : α → Except ε β} {result : β} :
    step >>= next = .ok result ↔ ∃ value, step = .ok value ∧ next value = .ok result := by
  cases step <;> simp [bind, Except.bind]

/-- A check before a step lets the step succeed exactly when the check passes. -/
theorem check_bind_eq_ok_iff {ε β : Type} {check : Except ε Unit} {next : Unit → Except ε β}
    {result : β} : check >>= next = .ok result ↔ check = .ok () ∧ next () = .ok result := by
  cases check <;> simp [bind, Except.bind]

/-- The elements of a map are those of the templates that it stands for. -/
theorem resolveContent_map (name : String) (members : ContentMap) :
    resolveContent name (.map members) =
      (siblings members >>= fun templates => templates.mapM fun template =>
        template.resolve >>= fun children =>
          pure (Element.mk name template.attrs.entries children template.body)) := by
  rw [resolveContent]
  split
  · next error h => rw [h]; rfl
  · next templates h =>
    rw [h]
    simp [List.mapM_subtype, bind, Except.bind]

/-- Attributes pass their check exactly when their values can be carried. -/
theorem checkAttributes_eq_ok_iff (attrs : List (String × String)) :
    checkAttributes attrs = .ok () ↔ ∀ value ∈ attrs.map Prod.snd, Carries value := by
  induction attrs with
  | nil => simp [checkAttributes]
  | cons entry rest ih =>
    simp only [checkAttributes, check_bind_eq_ok_iff, ih, CharacterData.check_eq_ok_iff,
      List.map_cons, List.mem_cons, forall_eq_or_imp, Carries]

/-- A template passes its check exactly when its body and its values can be carried. -/
theorem checkTexts_eq_ok_iff (template : Template) :
    template.checkTexts = .ok () ↔
      Carries template.body ∧ ∀ value ∈ template.attrs.entries.map Prod.snd, Carries value := by
  simp only [checkTexts, check_bind_eq_ok_iff, checkAttributes_eq_ok_iff,
    CharacterData.check_eq_ok_iff, Carries]

/-- The texts of two rows of elements are those of the first and those of the second. -/
theorem textsOfAll_append (first second : List Element) :
    Element.textsOfAll (first ++ second) =
      Element.textsOfAll first ++ Element.textsOfAll second := by
  induction first with
  | nil => rfl
  | cons element rest ih => simp [Element.textsOfAll, ih]

/-- Elements that come from templates one by one have carried texts if each of them has. -/
theorem carries_of_mapM {templates : List Template} {make : Template → Except Error Element}
    {elements : List Element}
    (hmake : ∀ template ∈ templates, ∀ element, make template = .ok element →
      ∀ text ∈ element.texts, Carries text)
    (h : templates.mapM make = .ok elements) :
    ∀ text ∈ Element.textsOfAll elements, Carries text := by
  induction templates generalizing elements with
  | nil =>
    simp only [List.mapM_nil, pure, Except.pure, Except.ok.injEq] at h
    simp [← h, Element.textsOfAll]
  | cons template rest ih =>
    simp only [List.mapM_cons, bind_eq_ok_iff, pure, Except.pure, Except.ok.injEq] at h
    obtain ⟨element, helement, others, hothers, rfl⟩ := h
    intro text htext
    rw [Element.textsOfAll, List.mem_append] at htext
    rcases htext with htext | htext
    · exact hmake template (by simp) element helement text htext
    · exact ih (fun template' hmem => hmake template' (by simp [hmem])) hothers text htext

/-- A document can carry the texts of a template that resolves, and those of its elements. -/
theorem carries_of_resolve {template : Template} {elements : List Element}
    (h : template.resolve = .ok elements) :
    Carries template.body ∧ (∀ value ∈ template.attrs.entries.map Prod.snd, Carries value) ∧
      ∀ text ∈ Element.textsOfAll elements, Carries text := by
  -- the four functions of the resolution call each other, so that one statement for each is needed
  refine (resolve.mutual_induct
    (fun template => ∀ elements, template.resolve = .ok elements →
      Carries template.body ∧ (∀ value ∈ template.attrs.entries.map Prod.snd, Carries value) ∧
        ∀ text ∈ Element.textsOfAll elements, Carries text)
    (fun entries => ∀ elements, resolveEntries entries = .ok elements →
      ∀ text ∈ Element.textsOfAll elements, Carries text)
    (fun name value => ∀ elements, resolveContent name value = .ok elements →
      ∀ text ∈ Element.textsOfAll elements, Carries text)
    (fun name items => ∀ elements, resolveItems name items = .ok elements →
      ∀ text ∈ Element.textsOfAll elements, Carries text)
    ?template ?noEntries ?entries ?scalar ?failed ?map ?sequence ?noItems ?items).1
    template elements h
  case template =>
    intro template ih elements h
    rw [resolve, bind_eq_ok_iff] at h
    obtain ⟨_, hchecked, hentries⟩ := h
    have hown := (checkTexts_eq_ok_iff template).1 hchecked
    exact ⟨hown.1, hown.2, ih elements hentries⟩
  case noEntries =>
    intro elements h
    simp only [resolveEntries, Except.ok.injEq] at h
    simp [← h, Element.textsOfAll]
  case entries =>
    intro name value rest ihValue ihRest elements h
    simp only [resolveEntries, bind_eq_ok_iff, pure, Except.pure, Except.ok.injEq] at h
    obtain ⟨own, hown, others, hothers, rfl⟩ := h
    intro text htext
    rw [textsOfAll_append, List.mem_append] at htext
    exact htext.elim (ihValue own hown text) (ihRest others hothers text)
  case scalar =>
    intro name body elements h
    simp only [resolveContent, bind_eq_ok_iff, pure, Except.pure, Except.ok.injEq] at h
    obtain ⟨_, hchecked, rfl⟩ := h
    have hbody : Carries body := (CharacterData.check_eq_ok_iff name body).1 hchecked
    simpa [Element.textsOfAll, Element.leaf, Element.texts] using hbody
  case failed =>
    intro name members error hfailed elements h
    rw [resolveContent_map, hfailed] at h
    cases h
  case map =>
    intro name members templates hsiblings ih elements h
    rw [resolveContent_map, hsiblings] at h
    refine carries_of_mapM (fun template hmem element helement => ?_) h
    rw [bind_eq_ok_iff] at helement
    obtain ⟨children, hchildren, hmk⟩ := helement
    cases hmk
    obtain ⟨hbody, hattrs, htexts⟩ := ih template hmem children hchildren
    intro text htext
    simp only [Element.texts, List.mem_append, List.mem_singleton] at htext
    rcases htext with (htext | htext) | rfl
    · exact hattrs text htext
    · exact htexts text htext
    · exact hbody
  case sequence =>
    intro name items ih elements h
    rw [resolveContent] at h
    exact ih elements h
  case noItems =>
    intro name elements h
    simp only [resolveItems, Except.ok.injEq] at h
    simp [← h, Element.textsOfAll]
  case items =>
    intro name item rest ihItem ihRest elements h
    simp only [resolveItems, bind_eq_ok_iff, pure, Except.pure, Except.ok.injEq] at h
    obtain ⟨own, hown, others, hothers, rfl⟩ := h
    intro text htext
    rw [textsOfAll_append, List.mem_append] at htext
    exact htext.elim (ihItem own hown text) (ihRest others hothers text)

end XmlWorkload.Template
