import XmlWorkload.Proofs.Markup.Basic
import XmlWorkload.Sink.XmlStream

/-!
# Drafts

A draft is what a document is while it is written: the elements that are still open, each with the
content it has so far, and what is finished.  The written text of a draft leaves out the start tag of
the innermost open element for as long as that element has no content.  Main statements: what each
show of a draft adds to its text, and that closing an element changes nothing about the tree that
a draft becomes once everything in it is closed.
-/

set_option autoImplicit false

namespace XmlWorkload

/-- An open element with what it has so far. -/
structure Unfinished where
  element : Nat
  name : String
  attrs : List (String × String)
  /-- Its content apart from an open element inside. -/
  content : List Markup

/-- A document while it is written. -/
structure Draft where
  opened : List Unfinished
  /-- What is finished outside of every open element. -/
  finished : List Markup
  nextElement : Nat

namespace Unfinished

/-- The frame of an open element. -/
def frame (node : Unfinished) : Frame := ⟨node.element, node.name⟩

/-- The element once it is closed with something more at its end. -/
def sealed (inner : List Markup) (node : Unfinished) : Markup :=
  .element node.name node.attrs (node.content ++ inner)

/-- The start tag of an open element with what it has so far behind it. -/
def written (node : Unfinished) : String :=
  "<" ++ Markup.renderHead node.name node.attrs ++ ">" ++ Markup.renderAll node.content

/-- New elements one inside the other, the outermost first, numbered from a number on. -/
def fresh : (element : Nat) → List String → List Unfinished
  | _, [] => []
  | element, name :: rest => ⟨element, name, [], []⟩ :: fresh (element + 1) rest

/-- Elements that were just started have the names that they were started with. -/
@[simp]
theorem map_name_fresh (element : Nat) (names : List String) :
    (fresh element names).map Unfinished.name = names := by
  induction names generalizing element with
  | nil => rfl
  | cons name rest ih => simp [fresh, ih]

end Unfinished

namespace Draft

/-- Open elements, the innermost first, with all their start tags. -/
def writtenAll : List Unfinished → String
  | [] => ""
  | node :: outer => writtenAll outer ++ node.written

/-- The text of a draft if no start tag is held back. -/
def fullText (draft : Draft) : String :=
  Markup.renderAll draft.finished ++ writtenAll draft.opened

/-- The text of a draft. -/
def text (draft : Draft) : String :=
  match draft.opened with
  | [] => Markup.renderAll draft.finished
  | top :: outer =>
    if top.content.isEmpty then Markup.renderAll draft.finished ++ writtenAll outer
    else draft.fullText

/-- The start tag that a draft holds back. -/
def heldTag (draft : Draft) : Option StartTag :=
  match draft.opened with
  | [] => none
  | top :: _ => if top.content.isEmpty then some ⟨top.name, top.attrs⟩ else none

/-- A draft with a new element inside the innermost open one. -/
def start (name : String) (draft : Draft) : Draft :=
  { draft with
    opened := ⟨draft.nextElement, name, [], []⟩ :: draft.opened
    nextElement := draft.nextElement + 1 }

/-- A draft with new elements one inside the other. -/
def startAll : List String → Draft → Draft
  | [], draft => draft
  | name :: rest, draft => startAll rest (draft.start name)

/-- A draft with more attributes on the innermost open element. -/
def setAttributes (attrs : List (String × String)) (draft : Draft) : Draft :=
  match draft.opened with
  | [] => draft
  | top :: outer => { draft with opened := { top with attrs := top.attrs ++ attrs } :: outer }

/-- A draft with something finished behind the content of the innermost open element. -/
def append (nodes : List Markup) (draft : Draft) : Draft :=
  match draft.opened with
  | [] => { draft with finished := draft.finished ++ nodes }
  | top :: outer => { draft with opened := { top with content := top.content ++ nodes } :: outer }

/-- A draft after so many numbers were given to elements that are closed again. -/
def skip (count : Nat) (draft : Draft) : Draft :=
  { draft with nextElement := draft.nextElement + count }

/-- A draft with its innermost open element closed. -/
def finishTop (draft : Draft) : Draft :=
  match draft.opened with
  | [] => draft
  | top :: outer => append [top.sealed []] { draft with opened := outer }

/-- A draft with so many open elements closed, the innermost first. -/
def finishTops : Nat → Draft → Draft
  | 0, draft => draft
  | count + 1, draft => finishTops count draft.finishTop

/-- What open elements, the innermost first, become once they are closed around something. -/
def sealAll : List Unfinished → List Markup → List Markup
  | [], inner => inner
  | node :: outer, inner => sealAll outer [node.sealed inner]

/-- What a draft becomes once everything in it is closed. -/
def sealed (draft : Draft) : List Markup := draft.finished ++ sealAll draft.opened []

/-- A draft that holds no start tag back has its full text. -/
theorem text_of_heldTag_eq_none {draft : Draft} (h : draft.heldTag = none) :
    draft.text = draft.fullText := by
  unfold heldTag at h
  unfold text
  split
  · next hopened => simp [fullText, hopened, writtenAll]
  · next top outer hopened =>
    rw [hopened] at h
    simp only [ite_eq_right_iff, reduceCtorEq, imp_false] at h
    rw [if_neg h]

/-- The start tag that a draft holds back is what its text lacks. -/
theorem fullText_of_heldTag_eq_some {draft : Draft} {tag : StartTag}
    (h : draft.heldTag = some tag) :
    draft.fullText = draft.text ++ ("<" ++ Markup.renderHead tag.name tag.attrs ++ ">") := by
  unfold heldTag at h
  split at h
  · cases h
  · next top outer hopened =>
    split at h
    · next hempty =>
      cases h
      have hcontent : top.content = [] := List.isEmpty_iff.1 hempty
      simp [text, fullText, hopened, hcontent, writtenAll, Unfinished.written, Markup.renderAll,
        String.append_assoc]
    · cases h

/-- Nodes that are put in are written behind everything else. -/
theorem text_append {nodes : List Markup} (h : nodes ≠ []) (draft : Draft) :
    (draft.append nodes).text = draft.fullText ++ Markup.renderAll nodes := by
  unfold append
  split
  · next hopened =>
    simp [text, fullText, hopened, writtenAll, Markup.renderAll_append]
  · next top outer hopened =>
    simp [text, fullText, hopened, h, writtenAll, Unfinished.written, Markup.renderAll_append,
      String.append_assoc]

/-- No start tag is held back behind nodes that were put in. -/
theorem heldTag_append {nodes : List Markup} (h : nodes ≠ []) (draft : Draft) :
    (draft.append nodes).heldTag = none := by
  unfold append heldTag
  split
  · next hopened => split at hopened <;> simp_all
  · next top outer hopened =>
    split at hopened
    · next hnil => simp [hnil] at hopened
    · simp only [List.cons.injEq] at hopened
      obtain ⟨rfl, rfl⟩ := hopened
      simp [h]

/-- A new element leaves its start tag out of the text and makes the others part of it. -/
theorem text_start (name : String) (draft : Draft) : (draft.start name).text = draft.fullText := by
  simp [text, start, fullText]

/-- Putting in nothing changes nothing. -/
@[simp]
theorem append_nil (draft : Draft) : draft.append [] = draft := by
  obtain ⟨opened, finished, next⟩ := draft
  cases opened <;> simp [append]

/-- Attributes that are set in turn are set in their order. -/
theorem setAttributes_setAttributes (first second : List (String × String)) (draft : Draft) :
    (draft.setAttributes first).setAttributes second = draft.setAttributes (first ++ second) := by
  obtain ⟨opened, finished, next⟩ := draft
  cases opened <;> simp [setAttributes]

/-- Sealing elements seals the inner ones first and then the outer ones. -/
theorem sealAll_append (inside outside : List Unfinished) (inner : List Markup) :
    sealAll (inside ++ outside) inner = sealAll outside (sealAll inside inner) := by
  induction inside generalizing inner with
  | nil => rfl
  | cons node rest ih => exact ih _

/-- Elements that are started are at the top, the last of them first. -/
theorem opened_startAll (names : List String) (draft : Draft) :
    (draft.startAll names).opened =
      (Unfinished.fresh draft.nextElement names).reverse ++ draft.opened := by
  induction names generalizing draft with
  | nil => rfl
  | cons name rest ih => simp [startAll, ih, start, Unfinished.fresh]

/-- Elements that are started leave what is finished as it is. -/
@[simp]
theorem finished_startAll (names : List String) (draft : Draft) :
    (draft.startAll names).finished = draft.finished := by
  induction names generalizing draft with
  | nil => rfl
  | cons name rest ih => simp [startAll, ih, start]

/-- Open elements that are told apart from the outermost on, with the innermost first. -/
theorem opened_split {draft : Draft} {top : Unfinished} {above deeper : List Unfinished}
    (h : draft.opened.reverse = top :: (above ++ deeper)) :
    draft.opened = deeper.reverse ++ (top :: above).reverse := by
  rw [← List.reverse_reverse draft.opened, h, ← List.cons_append, List.reverse_append]

/-- The top of a draft is the last of its open elements. -/
theorem opened_eq {draft : Draft} {top : Unfinished} {spine : List Unfinished}
    (h : draft.opened.reverse = top :: spine) : draft.opened = spine.reverse ++ [top] := by
  rw [← List.reverse_reverse draft.opened, h, List.reverse_cons]

/-- Finishing one element more finishes the one at the top last. -/
theorem finishTops_succ (count : Nat) (draft : Draft) :
    draft.finishTops (count + 1) = (draft.finishTops count).finishTop := by
  induction count generalizing draft with
  | zero => rfl
  | succ count ih =>
    rw [finishTops, ih]
    rfl

/-- Closing open elements around something adds what they become to what stands around them. -/
theorem finishTops_append (inside outside : List Unfinished) (nodes finished : List Markup)
    (next : Nat) :
    finishTops inside.length (append nodes ⟨inside ++ outside, finished, next⟩) =
      append (sealAll inside nodes) ⟨outside, finished, next⟩ := by
  induction inside generalizing nodes with
  | nil => rfl
  | cons top rest ih =>
    have hfinish : (append nodes ⟨top :: (rest ++ outside), finished, next⟩).finishTop =
        append [top.sealed nodes] ⟨rest ++ outside, finished, next⟩ := by
      simp [append, finishTop, Unfinished.sealed]
    rw [List.length_cons, finishTops, List.cons_append, hfinish, ih]
    rfl

/-- Closing open elements adds what they become to what stands around them. -/
theorem finishTops_eq_append {inside outside : List Unfinished} {draft : Draft}
    (h : draft.opened = inside ++ outside) :
    draft.finishTops inside.length = append (sealAll inside []) { draft with opened := outside } := by
  obtain ⟨opened, finished, next⟩ := draft
  have hopened : opened = inside ++ outside := h
  have hclosed := finishTops_append inside outside [] finished next
  rw [append_nil] at hclosed
  rw [hopened]
  exact hclosed

/-- A draft in which everything was closed is written as what it became. -/
theorem finishTops_length (draft : Draft) :
    (draft.finishTops draft.opened.length).opened = [] ∧
      (draft.finishTops draft.opened.length).text = Markup.renderAll draft.sealed := by
  have hsplit : draft.opened = draft.opened ++ [] := (List.append_nil _).symm
  have hclosed := finishTops_eq_append hsplit
  rw [hclosed]
  exact ⟨rfl, rfl⟩

end Draft

end XmlWorkload
