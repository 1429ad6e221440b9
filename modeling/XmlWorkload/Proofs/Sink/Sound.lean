import XmlWorkload.Proofs.Document.Growth
import XmlWorkload.Proofs.Markup.Joining
import XmlWorkload.Proofs.Sink.Request

/-!
# Sound drafts

A draft is sound when everything in it can be written and there is one root.  Whatever a draft allows
keeps it sound.  Main statements: what a sound draft becomes is one element that can be written
(`Draft.Sound.sealed_eq`), and the text of a draft goes on to the text of what the draft becomes
(`Draft.exists_rest`).
-/

set_option autoImplicit false

namespace XmlWorkload

open Markup (Writable WritableAll ReadableAttributes renderAll)

/-- An open element can be written with what it has so far. -/
def Unfinished.Writable (node : Unfinished) : Prop :=
  Name.isValid node.name = true ∧ ReadableAttributes node.attrs ∧ WritableAll node.content

/-- A writable element that is sealed with what can be written can be written. -/
theorem Unfinished.Writable.sealed {node : Unfinished} (h : node.Writable) {inner : List Markup}
    (hinner : WritableAll inner) : (node.sealed inner).Writable :=
  ⟨h.1, h.2.1, Markup.writableAll_append h.2.2 hinner⟩

namespace Draft

/-- Everything in a draft can be written, and there is one root with a given name: the outermost open
element, or else all that is finished. -/
structure Sound (root : String) (draft : Draft) : Prop where
  opened : ∀ node ∈ draft.opened, node.Writable
  finished : WritableAll draft.finished
  rooted : match draft.opened.getLast? with
    | some outermost => outermost.name = root ∧ draft.finished = []
    | none => ∃ attrs content, draft.finished = [.element root attrs content]

section Steps

variable {root : String} {draft : Draft} {top : Unfinished} {outer : List Unfinished}

/-- A new draft with a valid root is sound. -/
theorem sound_new (hroot : Name.isValid root = true) : (new root).Sound root where
  opened := List.forall_mem_singleton.2 ⟨hroot, List.forall_mem_nil _, trivial⟩
  finished := trivial
  rooted := ⟨rfl, rfl⟩

/-- A draft stays sound when its innermost open element gets more attributes or content. -/
theorem Sound.replace (h : draft.Sound root) (hopened : draft.opened = top :: outer)
    {top' : Unfinished} (hname : top'.name = top.name) (htop : top'.Writable) :
    Sound root { draft with opened := top' :: outer } := by
  have hnodes := h.opened
  have hrooted := h.rooted
  rw [hopened] at hnodes hrooted
  refine ⟨List.forall_mem_cons.2 ⟨htop, (List.forall_mem_cons.1 hnodes).2⟩, h.finished, ?_⟩
  cases outer with
  | nil => exact ⟨hname.trans hrooted.1, hrooted.2⟩
  | cons second others =>
    rw [List.getLast?_cons_cons] at hrooted ⊢
    exact hrooted

/-- A draft stays sound when nodes that can be written are put in. -/
theorem Sound.append (h : draft.Sound root) (hopened : draft.opened = top :: outer)
    {nodes : List Markup} (hnodes : WritableAll nodes) : (draft.append nodes).Sound root := by
  obtain ⟨hname, hattrs, hcontent⟩ := h.opened top (by rw [hopened]; exact List.mem_cons_self)
  rw [Draft.append, hopened]
  exact h.replace hopened rfl ⟨hname, hattrs, Markup.writableAll_append hcontent hnodes⟩

/-- A draft stays sound when attributes that can be read back are set. -/
theorem Sound.setAttributes (h : draft.Sound root) (hopened : draft.opened = top :: outer)
    {attrs : List (String × String)} (hmore : ReadableAttributes attrs) :
    (draft.setAttributes attrs).Sound root := by
  obtain ⟨hname, hattrs, hcontent⟩ := h.opened top (by rw [hopened]; exact List.mem_cons_self)
  rw [Draft.setAttributes, hopened]
  exact h.replace hopened rfl ⟨hname, List.forall_mem_append.2 ⟨hattrs, hmore⟩, hcontent⟩

/-- A draft stays sound when an element with a valid name is started. -/
theorem Sound.start (h : draft.Sound root) (hopened : draft.opened = top :: outer) {name : String}
    (hname : Name.isValid name = true) : (draft.start name).Sound root := by
  have hrooted := h.rooted
  refine ⟨List.forall_mem_cons.2 ⟨⟨hname, List.forall_mem_nil _, trivial⟩, h.opened⟩,
    h.finished, ?_⟩
  rw [hopened] at hrooted
  rwa [Draft.start, hopened, List.getLast?_cons_cons]

/-- A draft stays sound when the element at the top is finished. -/
theorem Sound.finishTop (h : draft.Sound root) (hopened : draft.opened = top :: outer) :
    draft.finishTop.Sound root := by
  have hnodes := h.opened
  have hrooted := h.rooted
  rw [hopened] at hnodes hrooted
  obtain ⟨htop, houter⟩ := List.forall_mem_cons.1 hnodes
  have hsealed : (top.sealed []).Writable := htop.sealed trivial
  rw [Draft.finishTop, hopened]
  cases outer with
  | nil =>
    -- it is the root that is finished
    obtain ⟨rfl, hfinished⟩ := hrooted
    refine ⟨List.forall_mem_nil _, Markup.writableAll_append h.finished ⟨hsealed, trivial⟩, ?_⟩
    exact ⟨_, _, by rw [hfinished]; rfl⟩
  | cons second others =>
    rw [List.getLast?_cons_cons] at hrooted
    have hbelow : Sound root { draft with opened := second :: others } :=
      ⟨houter, h.finished, hrooted⟩
    exact hbelow.append rfl ⟨hsealed, trivial⟩

/-- What a draft allows keeps it sound. -/
theorem Sound.after (h : draft.Sound root) {request : SinkRequest}
    (hallows : draft.Allows request) : (draft.after request).Sound root := by
  cases request with
  | start parent name =>
    obtain ⟨⟨top, outer, hopened, -⟩, hname⟩ := hallows
    exact h.start hopened hname
  | attr element name value =>
    obtain ⟨⟨top, outer, hopened, -⟩, hname, hvalue, -⟩ := hallows
    exact h.setAttributes hopened (List.forall_mem_singleton.2 ⟨hname, hvalue⟩)
  | text element body =>
    obtain ⟨⟨top, outer, hopened, -⟩, hbody⟩ := hallows
    exact h.append hopened (Markup.writableAll_ofText hbody)
  | ended element =>
    obtain ⟨top, outer, hopened, -⟩ := hallows
    exact h.finishTop hopened
  | finish => exact h

/-- A draft stays sound under requests that are allowed. -/
theorem Sound.afterAll (h : draft.Sound root) {requests : List SinkRequest}
    (hallows : draft.AllowsAll requests) : (draft.afterAll requests).Sound root := by
  induction requests generalizing draft with
  | nil => exact h
  | cons request rest ih => exact ih (h.after hallows.1) hallows.2

end Steps

section Completion

variable {root : String} {draft : Draft}

/-- Open elements that can be written become parts that can be written, around such parts. -/
theorem writableAll_sealAll {nodes : List Unfinished} (h : ∀ node ∈ nodes, node.Writable)
    {inner : List Markup} (hinner : WritableAll inner) : WritableAll (sealAll nodes inner) := by
  induction nodes generalizing inner with
  | nil => exact hinner
  | cons node outer ih =>
    obtain ⟨hnode, houter⟩ := List.forall_mem_cons.1 h
    exact ih houter ⟨hnode.sealed hinner, trivial⟩

/-- The outermost of some open elements becomes one element around the others. -/
theorem sealAll_eq_element {nodes : List Unfinished} {outermost : Unfinished}
    (h : nodes.getLast? = some outermost) (inner : List Markup) :
    ∃ attrs content, sealAll nodes inner = [.element outermost.name attrs content] := by
  induction nodes generalizing inner with
  | nil => cases h
  | cons node outer ih =>
    cases outer with
    | nil =>
      cases h
      exact ⟨_, _, rfl⟩
    | cons second others =>
      rw [List.getLast?_cons_cons] at h
      exact ih h [node.sealed inner]

/-- What a sound draft becomes is its root, which can be written. -/
theorem Sound.sealed_eq (h : draft.Sound root) :
    ∃ attrs content, draft.sealed = [.element root attrs content] ∧
      (Markup.element root attrs content).Writable := by
  have hwritable : WritableAll draft.sealed :=
    Markup.writableAll_append h.finished (writableAll_sealAll h.opened trivial)
  obtain ⟨attrs, content, hsealed⟩ : ∃ attrs content,
      draft.sealed = [.element root attrs content] := by
    have hrooted := h.rooted
    cases hlast : draft.opened.getLast? with
    | none =>
      rw [hlast] at hrooted
      obtain ⟨attrs, content, hfinished⟩ := hrooted
      refine ⟨attrs, content, ?_⟩
      rw [sealed, hfinished, List.getLast?_eq_none_iff.1 hlast]
      rfl
    | some outermost =>
      rw [hlast] at hrooted
      obtain ⟨rfl, hfinished⟩ := hrooted
      obtain ⟨attrs, content, hall⟩ := sealAll_eq_element hlast []
      exact ⟨attrs, content, by rw [sealed, hfinished, hall, List.nil_append]⟩
  rw [hsealed] at hwritable
  exact ⟨attrs, content, hsealed, hwritable.1⟩

/-- The start tags of open elements with what is written behind them go on to what the elements
become around something. -/
theorem exists_rest_sealAll (nodes : List Unfinished) {inner : List Markup} (h : inner ≠ []) :
    ∃ rest, renderAll (sealAll nodes inner) = writtenAll nodes ++ renderAll inner ++ rest := by
  induction nodes generalizing inner with
  | nil => exact ⟨"", by simp [sealAll, writtenAll]⟩
  | cons node outer ih =>
    -- an element with something in it is written with both tags
    obtain ⟨rest, hrest⟩ := ih (List.cons_ne_nil (node.sealed inner) [])
    have hnode : (node.sealed inner).render =
        node.written ++ renderAll inner ++ ("</" ++ node.name ++ ">") := by
      rw [Unfinished.sealed, Markup.render_of_ne_nil _ _ (by simp [h]), Markup.renderAll_append]
      simp [Unfinished.written, String.append_assoc]
    refine ⟨"</" ++ node.name ++ ">" ++ rest, ?_⟩
    rw [sealAll, hrest, writtenAll]
    simp [Markup.renderAll, hnode, String.append_assoc]

/-- The text of a draft goes on to the text of what the draft becomes. -/
theorem exists_rest (draft : Draft) : ∃ rest, draft.text ++ rest = renderAll draft.sealed := by
  unfold text
  split
  · next hopened => exact ⟨"", by simp [sealed, hopened, sealAll]⟩
  · next top outer hopened =>
    obtain ⟨rest, hrest⟩ := exists_rest_sealAll outer (List.cons_ne_nil (top.sealed []) [])
    have hsealed : renderAll draft.sealed =
        renderAll draft.finished ++ writtenAll outer ++ ((top.sealed []).render ++ rest) := by
      rw [sealed, hopened, sealAll, Markup.renderAll_append, hrest]
      simp [Markup.renderAll, String.append_assoc]
    split
    · exact ⟨_, hsealed.symm⟩
    · next hcontent =>
      have htop : (top.sealed []).render = top.written ++ ("</" ++ top.name ++ ">") := by
        rw [Unfinished.sealed, List.append_nil, Markup.render_of_ne_nil _ _ (by simpa using hcontent)]
        simp [Unfinished.written, String.append_assoc]
      refine ⟨"</" ++ top.name ++ ">" ++ rest, ?_⟩
      rw [hsealed, htop, fullText, hopened, writtenAll]
      simp [String.append_assoc]

end Completion

end Draft

end XmlWorkload
