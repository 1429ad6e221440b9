import Mathlib.Data.List.Flatten
import XmlWorkload.Proofs.Sink.Recording

/-!
# The paths below an open element

Several elements may be open side by side, so that what is open below an element is a set of paths,
each bound to the number of an element.  Main statements: opening a path binds what is missing of it,
and closing a path takes away what is bound at it and below, the lowest first.
-/

set_option autoImplicit false

namespace XmlWorkload

/-- A path with the number of the element that is open there. -/
@[ext]
structure Binding where
  path : List String
  element : Nat
  deriving DecidableEq, Repr

namespace Binding

/-- A binding below an element as one below an element further up. -/
def under (path : List String) (binding : Binding) : Binding :=
  ⟨path ++ binding.path, binding.element⟩

/-- The bindings of elements one inside the other below a path. -/
def along : List String → List Frame → List Binding
  | _, [] => []
  | path, frame :: deeper =>
    ⟨path ++ [frame.name], frame.element⟩ :: along (path ++ [frame.name]) deeper

/-- Nothing above a binding leaves it as it is. -/
@[simp]
theorem under_nil (binding : Binding) : binding.under [] = binding := rfl

/-- A binding under a path under another one is a binding under both. -/
@[simp]
theorem under_under (first second : List String) (binding : Binding) :
    (binding.under second).under first = binding.under (first ++ second) := by
  simp [under]

/-- Bindings under one path are told apart by what is below it. -/
theorem under_injective (path : List String) : Function.Injective (under path) := by
  rintro ⟨first, element⟩ ⟨second, element'⟩ heq
  simpa [under] using heq

/-- Bindings along frames, put under a path, are the bindings along the frames from that path on. -/
@[simp]
theorem map_under_along (above path : List String) (frames : List Frame) :
    (along path frames).map (under above) = along (above ++ path) frames := by
  induction frames generalizing path with
  | nil => rfl
  | cons frame deeper ih => simp [along, ih, under]

/-- The elements bound along frames are those of the frames. -/
@[simp]
theorem map_element_along (path : List String) (frames : List Frame) :
    (along path frames).map element = frames.map Frame.element := by
  induction frames generalizing path with
  | nil => rfl
  | cons frame deeper ih => simp [along, ih]

/-- The paths that are bound below a path are those on the way to the innermost one. -/
theorem mem_map_path_along {path other : List String} {frames : List Frame} :
    other ∈ (along path frames).map Binding.path ↔
      other <+: path ++ frames.map Frame.name ∧ ¬ other <+: path := by
  induction frames generalizing path with
  | nil => simp [along]
  | cons frame deeper ih =>
    have hsplit : path ++ (frame :: deeper).map Frame.name =
        (path ++ [frame.name]) ++ deeper.map Frame.name := by simp
    rw [along, List.map_cons, List.mem_cons, ih, hsplit, List.prefix_concat_iff, not_or]
    constructor
    · rintro (rfl | ⟨hother, -, hnot⟩)
      · exact ⟨List.prefix_append _ _, fun h => by simpa [Nat.not_succ_le_self] using h.length_le⟩
      · exact ⟨hother, hnot⟩
    · rintro ⟨hother, hnot⟩
      by_cases heq : other = path ++ [frame.name]
      · exact .inl heq
      · exact .inr ⟨hother, heq, hnot⟩

/-- The innermost of elements one inside the other is bound to the path of all of them. -/
theorem innermost_mem_along (path : List String) (element : Nat) (frames : List Frame) :
    ⟨path ++ frames.map Frame.name, OpenElement.innermost element frames⟩ ∈
      (⟨path, element⟩ :: along path frames : List Binding) := by
  induction frames generalizing path element with
  | nil => simp [along, OpenElement.innermost]
  | cons frame deeper ih =>
    have hdeeper := ih (path ++ [frame.name]) frame.element
    rw [List.append_assoc, List.singleton_append] at hdeeper
    exact List.mem_cons_of_mem _ hdeeper

end Binding

namespace OpenElement

open Binding (under along)

mutual

/-- The bindings here and below, in the order in which the elements are closed. -/
def bindings : OpenElement → List Binding
  | .mk element children => bindingsOfAll children ++ [⟨[], element⟩]

/-- The bindings of children and below. -/
def bindingsOfAll : List (String × OpenElement) → List Binding
  | [] => []
  | (name, child) :: rest => (bindings child).map (under [name]) ++ bindingsOfAll rest

end

/-- The element at a path below. -/
def nodeAt? : List String → OpenElement → Option OpenElement
  | [], node => some node
  | name :: path, node => (node.child? name).bind (nodeAt? path)

/-- All the way down, the names of children ascend. -/
inductive Sorted : OpenElement → Prop where
  | mk {element : Nat} {children : List (String × OpenElement)}
    (ascending : children.Pairwise fun first second => first.1 < second.1)
    (below : ∀ entry ∈ children, Sorted entry.2) : Sorted (.mk element children)

section Children

variable {name : String} {child : OpenElement} {children : List (String × OpenElement)}

/-- An entry behind a child that was put in is that child or an entry from before. -/
theorem mem_putChild {entry : String × OpenElement} (h : entry ∈ putChild name child children) :
    entry = (name, child) ∨ entry ∈ children := by
  induction children with
  | nil => exact .inl (List.mem_singleton.1 h)
  | cons first rest ih =>
    rw [putChild] at h
    split at h
    · exact (List.mem_cons.1 h).imp_right (List.mem_cons_of_mem _)
    · split at h
      · exact List.mem_cons.1 h
      · rcases List.mem_cons.1 h with rfl | hrest
        · exact .inr List.mem_cons_self
        · exact (ih hrest).imp_right (List.mem_cons_of_mem _)

variable (h : children.Pairwise fun first second => first.1 < second.1)

include h

/-- Children stay in the order of their names when one is put in. -/
theorem pairwise_putChild :
    (putChild name child children).Pairwise fun first second => first.1 < second.1 := by
  induction children with
  | nil => exact List.pairwise_singleton _ _
  | cons first rest ih =>
    obtain ⟨hfirst, hrest⟩ := List.pairwise_cons.1 h
    rw [putChild]
    split
    · next heq => exact List.pairwise_cons.2 ⟨fun entry hentry => heq ▸ hfirst entry hentry, hrest⟩
    · next hne =>
      split
      · next hlt =>
        refine List.pairwise_cons.2 ⟨fun entry hentry => ?_, h⟩
        rcases List.mem_cons.1 hentry with rfl | hmem
        · exact hlt
        · exact String.lt_trans hlt (hfirst entry hmem)
      · next hnot =>
        -- neither equal nor below, so the new name is above the first one
        have habove : first.1 < name :=
          Decidable.not_not.1 fun hle => hne (String.le_antisymm (String.not_lt.1 hle)
            (String.not_lt.1 hnot))
        refine List.pairwise_cons.2 ⟨fun entry hentry => ?_, ih hrest⟩
        rcases mem_putChild hentry with rfl | hmem
        · exact habove
        · exact hfirst entry hmem

/-- A child that is put in takes the place of the one with its name. -/
theorem putChild_perm :
    (putChild name child children).Perm
      ((name, child) :: children.filter fun entry => entry.1 != name) := by
  induction children with
  | nil => exact .refl _
  | cons first rest ih =>
    obtain ⟨hfirst, hrest⟩ := List.pairwise_cons.1 h
    have hkept : ∀ {entries : List (String × OpenElement)}, (∀ entry ∈ entries, name < entry.1) →
        entries.filter (fun entry => entry.1 != name) = entries := by
      intro entries hentries
      refine List.filter_eq_self.2 fun entry hentry => ?_
      have hlt := hentries entry hentry
      simp only [bne_iff_ne, ne_eq]
      rintro rfl
      exact String.lt_irrefl _ hlt
    rw [putChild]
    split
    · next heq =>
      subst heq
      rw [List.filter_cons_of_neg (by simp), hkept hfirst]
    · next hne =>
      split
      · next hlt =>
        have habove : ∀ entry ∈ first :: rest, name < entry.1 :=
          List.forall_mem_cons.2 ⟨hlt, fun entry hentry => String.lt_trans hlt (hfirst entry hentry)⟩
        rw [hkept habove]
      · rw [List.filter_cons_of_pos (by simpa using Ne.symm hne)]
        exact ((ih hrest).cons first).trans (.swap _ _ _)

/-- Setting a child to what it is changes nothing. -/
theorem putChild_of_find? (hfind : children.find? (fun entry => entry.1 == name) = some (name, child)) :
    putChild name child children = children := by
  induction children with
  | nil => cases hfind
  | cons first rest ih =>
    obtain ⟨hfirst, hrest⟩ := List.pairwise_cons.1 h
    by_cases heq : first.1 = name
    · have hsame : first = (name, child) := by simpa [List.find?_cons, heq] using hfind
      rw [putChild, if_pos heq.symm, hsame]
    · have hbelow : rest.find? (fun entry => entry.1 == name) = some (name, child) := by
        simpa [List.find?_cons, heq] using hfind
      have hnot : ¬ name < first.1 := fun hlt =>
        String.lt_irrefl name (String.lt_trans hlt (hfirst _ (List.mem_of_find?_eq_some hbelow)))
      rw [putChild, if_neg (Ne.symm heq), if_neg hnot, ih hrest hbelow]

end Children

/-- What is bound in an element is what is bound in its children, and the element itself at the end.
-/
theorem bindings_eq (node : OpenElement) :
    node.bindings = bindingsOfAll node.children ++ [⟨[], node.element⟩] := by
  cases node
  rfl

/-- What is bound in children is bound in them one after the other, each under its name. -/
theorem bindingsOfAll_eq_flatMap (children : List (String × OpenElement)) :
    bindingsOfAll children = children.flatMap fun entry => (bindings entry.2).map (under [entry.1]) := by
  induction children with
  | nil => rfl
  | cons first rest ih => rw [bindingsOfAll, ih, List.flatMap_cons]

/-- The children of a sorted element ascend by name. -/
theorem Sorted.ascending {node : OpenElement} (h : node.Sorted) :
    node.children.Pairwise fun first second => first.1 < second.1 := by
  cases h with
  | mk ascending below => exact ascending

/-- The children of a sorted element are sorted. -/
theorem Sorted.of_mem {node : OpenElement} (h : node.Sorted) {entry : String × OpenElement}
    (hentry : entry ∈ node.children) : entry.2.Sorted := by
  cases h with
  | mk ascending below => exact below entry hentry

variable {node child : OpenElement} {name : String}

/-- A child is found under its name. -/
theorem find?_of_child? (hchild : node.child? name = some child) :
    node.children.find? (fun entry => entry.1 == name) = some (name, child) := by
  obtain ⟨entry, hentry, rfl⟩ := Option.map_eq_some_iff.1 hchild
  have hname : entry.1 = name := by simpa using List.find?_some hentry
  rw [hentry, ← hname]

/-- A child of a sorted element is sorted. -/
theorem Sorted.of_child? (h : node.Sorted) (hchild : node.child? name = some child) : child.Sorted :=
  h.of_mem (List.mem_of_find?_eq_some (find?_of_child? hchild))

/-- A sorted element stays sorted when a sorted child is put in. -/
theorem Sorted.setChild (h : node.Sorted) (hchild : child.Sorted) :
    (node.setChild name child).Sorted := by
  refine .mk (pairwise_putChild h.ascending) fun entry hentry => ?_
  rcases mem_putChild hentry with rfl | hmem
  · exact hchild
  · exact h.of_mem hmem

/-- A sorted element stays sorted when a child is taken out. -/
theorem Sorted.eraseChild (h : node.Sorted) : (node.eraseChild name).Sorted :=
  .mk (h.ascending.filter _) fun _ hentry => h.of_mem (List.mem_of_mem_filter hentry)

/-- Putting the child that is there already into a sorted element changes nothing. -/
theorem Sorted.setChild_self (h : node.Sorted) (hchild : node.child? name = some child) :
    node.setChild name child = node := by
  rw [OpenElement.setChild, putChild_of_find? h.ascending (find?_of_child? hchild)]
  cases node
  rfl

/-- What is bound below an element with a child set is what is bound below that child, and what is
bound without it. -/
theorem Sorted.bindings_setChild (h : node.Sorted) (name : String) (child : OpenElement) :
    (node.setChild name child).bindings.Perm
      (child.bindings.map (under [name]) ++ (node.eraseChild name).bindings) := by
  rw [bindings_eq, bindings_eq (node.eraseChild name), bindingsOfAll_eq_flatMap,
    bindingsOfAll_eq_flatMap, ← List.append_assoc]
  have hput : (putChild name child node.children).Perm
      ((name, child) :: node.children.filter fun entry => entry.1 != name) :=
    putChild_perm h.ascending
  exact (hput.flatMap_right fun entry => (bindings entry.2).map (under [entry.1])).append_right _

/-- What is bound in a sorted element is what is bound in one child and what is bound without it. -/
theorem Sorted.bindings_of_child? (h : node.Sorted) (hchild : node.child? name = some child) :
    node.bindings.Perm
      (child.bindings.map (under [name]) ++ (node.eraseChild name).bindings) := by
  have hperm := h.bindings_setChild name child
  rwa [h.setChild_self hchild] at hperm

/-- Taking out a child that is not there changes nothing. -/
theorem eraseChild_of_child?_eq_none (hchild : node.child? name = none) :
    node.eraseChild name = node := by
  have hnone : ∀ entry ∈ node.children, (entry.1 != name) = true := by
    simpa [child?] using hchild
  rw [eraseChild, List.filter_eq_self.2 hnone]
  cases node
  rfl

/-- Without a child nothing is bound to a path that starts with its name. -/
theorem not_prefix_of_mem_eraseChild {binding : Binding}
    (hmem : binding ∈ (node.eraseChild name).bindings) : ¬ [name] <+: binding.path := by
  rw [bindings_eq, bindingsOfAll_eq_flatMap, List.mem_append, List.mem_flatMap] at hmem
  rcases hmem with ⟨entry, hentry, hbelow⟩ | hself
  · obtain ⟨below, -, rfl⟩ := List.mem_map.1 hbelow
    have hne : entry.1 ≠ name := by simpa using (List.mem_filter.1 hentry).2
    simpa [under] using Ne.symm hne
  · obtain rfl := List.mem_singleton.1 hself
    simp

/-- A path that goes on behind another one goes on from the element found there. -/
theorem nodeAt?_append (first second : List String) (node : OpenElement) :
    nodeAt? (first ++ second) node = (nodeAt? first node).bind (nodeAt? second) := by
  induction first generalizing node with
  | nil => rfl
  | cons name rest ih =>
    simp only [List.cons_append, nodeAt?, Option.bind_assoc]
    exact congrArg _ (funext ih)

/-- A path is open exactly when an element is found at it. -/
theorem isOpen_eq (path : List String) (node : OpenElement) :
    isOpen path node = (nodeAt? path node).isSome := by
  induction path generalizing node with
  | nil => rfl
  | cons name rest ih =>
    rw [isOpen, nodeAt?]
    cases node.child? name with
    | none => rfl
    | some child => exact ih child

/-- A path is bound to a number exactly if the element there has it. -/
theorem Sorted.mem_bindings_iff (h : node.Sorted) (path : List String) (element : Nat) :
    ⟨path, element⟩ ∈ node.bindings ↔ (nodeAt? path node).map OpenElement.element = some element := by
  induction path generalizing node with
  | nil =>
    rw [bindings_eq, bindingsOfAll_eq_flatMap, List.mem_append, List.mem_flatMap]
    simp [nodeAt?, under, eq_comm]
  | cons name rest ih =>
    cases hchild : node.child? name with
    | none =>
      have hnot : ¬ (⟨name :: rest, element⟩ : Binding) ∈ node.bindings := by
        rw [← eraseChild_of_child?_eq_none hchild]
        exact fun hmem => not_prefix_of_mem_eraseChild hmem (by simp)
      simp [nodeAt?, hchild, hnot]
    | some child =>
      have hnot : ¬ (⟨name :: rest, element⟩ : Binding) ∈ (node.eraseChild name).bindings :=
        fun hmem => not_prefix_of_mem_eraseChild hmem (by simp)
      rw [(h.bindings_of_child? hchild).mem_iff, List.mem_append, or_iff_left hnot, nodeAt?, hchild,
        Option.bind_some, ← ih (h.of_child? hchild)]
      show Binding.under [name] ⟨rest, element⟩ ∈ child.bindings.map (under [name]) ↔ _
      exact List.mem_map_of_injective (Binding.under_injective [name])

/-- All paths on the way to one that is bound are bound. -/
theorem Sorted.exists_above (h : node.Sorted) {binding : Binding}
    (hmem : binding ∈ node.bindings) {path : List String} (hpath : path <+: binding.path) :
    ∃ element, ⟨path, element⟩ ∈ node.bindings := by
  obtain ⟨rest, hrest⟩ := hpath
  have hbound := (h.mem_bindings_iff binding.path binding.element).1 hmem
  rw [← hrest, nodeAt?_append] at hbound
  cases hnode : nodeAt? path node with
  | none => simp [hnode] at hbound
  | some above => exact ⟨above.element, (h.mem_bindings_iff path _).2 (by rw [hnode]; rfl)⟩

mutual

/-- As many elements are open as are bound. -/
theorem count_eq_length : ∀ node : OpenElement, node.count = node.bindings.length
  | .mk element children => by
    rw [count, bindings, countChildren_eq_length children, List.length_append,
      List.length_singleton, Nat.add_comm]

/-- As many elements are open in children as are bound in them. -/
theorem countChildren_eq_length : ∀ children : List (String × OpenElement),
    countChildren children = (bindingsOfAll children).length
  | [] => rfl
  | (name, child) :: rest => by
    rw [countChildren, bindingsOfAll, count_eq_length child, countChildren_eq_length rest,
      List.length_append, List.length_map]

end

mutual

/-- The bindings of an element stand behind all those below it, and no path is bound twice. -/
theorem Sorted.bottomUp : ∀ {node : OpenElement}, node.Sorted →
    node.bindings.Pairwise fun first second => ¬ first.path <+: second.path
  | .mk element children, .mk ascending below => by
    refine List.pairwise_append.2 ⟨bottomUp_of_all ascending below, List.pairwise_singleton _ _, ?_⟩
    intro binding hbinding self hself
    obtain rfl := List.mem_singleton.1 hself
    rw [bindingsOfAll_eq_flatMap, List.mem_flatMap] at hbinding
    obtain ⟨entry, -, hmem⟩ := hbinding
    obtain ⟨inner, -, rfl⟩ := List.mem_map.1 hmem
    simp [under]

/-- In sorted children no binding stands before one below it. -/
theorem bottomUp_of_all : ∀ {children : List (String × OpenElement)},
    (children.Pairwise fun first second => first.1 < second.1) →
    (∀ entry ∈ children, entry.2.Sorted) →
    (bindingsOfAll children).Pairwise fun first second => ¬ first.path <+: second.path
  | [], _, _ => .nil
  | (name, child) :: rest, ascending, below => by
    obtain ⟨hfirst, hrest⟩ := List.pairwise_cons.1 ascending
    obtain ⟨hchild, hothers⟩ := List.forall_mem_cons.1 below
    refine List.pairwise_append.2 ⟨?_, bottomUp_of_all hrest hothers, ?_⟩
    · refine (Sorted.bottomUp hchild).map _ fun first second hnot => ?_
      simpa [under] using hnot
    · intro binding hbinding other hother
      obtain ⟨inner, -, rfl⟩ := List.mem_map.1 hbinding
      rw [bindingsOfAll_eq_flatMap, List.mem_flatMap] at hother
      obtain ⟨entry, hentry, hmem⟩ := hother
      obtain ⟨inner', -, rfl⟩ := List.mem_map.1 hmem
      -- the two lie below different children
      have hlt : name < entry.1 := hfirst entry hentry
      have hne : name ≠ entry.1 := fun heq => String.lt_irrefl _ (heq ▸ hlt)
      simp [under, hne]

end

/-- A chain of frames is sorted. -/
theorem sorted_chain (element : Nat) (frames : List Frame) : (chain element frames).Sorted := by
  induction frames generalizing element with
  | nil => exact .mk .nil fun _ hentry => (List.not_mem_nil hentry).elim
  | cons frame deeper ih =>
    refine .mk (List.pairwise_singleton _ _) fun entry hentry => ?_
    obtain rfl := List.mem_singleton.1 hentry
    exact ih frame.element

/-- What is bound in a chain are the element at its top and the elements of its frames, each at its
path. -/
theorem bindings_chain (element : Nat) (frames : List Frame) :
    (chain element frames).bindings.Perm (⟨[], element⟩ :: along [] frames) := by
  induction frames generalizing element with
  | nil => exact .refl _
  | cons frame deeper ih =>
    have hbelow := (ih frame.element).map (under [frame.name])
    rw [List.map_cons, Binding.map_under_along] at hbelow
    rw [chain, bindings, bindingsOfAll, bindingsOfAll, List.append_nil]
    exact (List.perm_append_singleton _ _).trans (hbelow.cons _)

end OpenElement

namespace Recorder

open SinkCall

/-- The ends of the elements of bindings. -/
def endsOf (recorder : Recorder) (bindings : List Binding) : List SinkCall :=
  bindings.map fun binding => .ended binding.element (recorder.nameOf binding.element)

section Ends

variable (recorder : Recorder) (first second : List Binding)

/-- Ending elements starts none. -/
@[simp]
theorem startedIn_endsOf : startedIn (recorder.endsOf first) = [] := by
  simp [startedIn, endsOf]

/-- The elements that are ended are those of the bindings. -/
@[simp]
theorem endedIn_endsOf : endedIn (recorder.endsOf first) = first.map Binding.element := by
  simp [endedIn, endsOf, List.filterMap_map]

/-- Ending two rows of elements ends the first and then the second one. -/
theorem endsOf_append :
    recorder.endsOf (first ++ second) = recorder.endsOf first ++ recorder.endsOf second :=
  List.map_append

/-- Elements are ended by the same calls under whatever path they are bound. -/
@[simp]
theorem endsOf_map_under (path : List String) :
    recorder.endsOf (first.map (Binding.under path)) = recorder.endsOf first := by
  simp [endsOf, Binding.under]

/-- Ends change no name. -/
theorem endsOf_after_endsOf :
    (recorder.after (recorder.endsOf first)).endsOf second = recorder.endsOf second := by
  refine List.map_congr_left fun binding _ => ?_
  rw [nameOf_after (by simp)]

end Ends

end Recorder

namespace OpenElement

open Binding (under along)
open SinkCall

mutual

/-- Closing an element ends what is bound here and below. -/
theorem close_run : ∀ (node : OpenElement) (recorder : Recorder),
    (close node).run recorder = (.ok (), recorder.after (recorder.endsOf node.bindings))
  | .mk element children, recorder => by
    rw [close, Action.run_bind_of_ok (closeChildren_run children recorder),
      Recorder.endElement_run, Recorder.after_after, bindings, Recorder.endsOf_append]
    have hends := recorder.endsOf_after_endsOf (bindingsOfAll children) [⟨[], element⟩]
    rw [← hends]
    rfl

/-- Closing children ends all that is bound in them. -/
theorem closeChildren_run : ∀ (children : List (String × OpenElement)) (recorder : Recorder),
    (closeChildren children).run recorder =
      (.ok (), recorder.after (recorder.endsOf (bindingsOfAll children)))
  | [], recorder => by
    rw [bindingsOfAll, Recorder.endsOf, List.map_nil, Recorder.after_nil]
    rfl
  | (name, child) :: rest, recorder => by
    rw [closeChildren, Action.run_bind_of_ok (close_run child recorder), closeChildren_run rest,
      Recorder.after_after, Recorder.endsOf_after_endsOf, bindingsOfAll, Recorder.endsOf_append,
      Recorder.endsOf_map_under]

end

/-- What opening a path below an element comes to: the path is bound up to somewhere, and from there
on new elements are started for the rest of it. -/
theorem openBelow_bindings {node : OpenElement} (h : node.Sorted) (path : List String)
    (recorder : Recorder) :
    ∃ kept names parent left, path = kept ++ names ∧ ⟨kept, parent⟩ ∈ node.bindings ∧
      let fresh := Frame.numbered recorder.nextElement names
      openBelow path node recorder =
          (.ok (innermost parent fresh), left, recorder.after (starts parent fresh)) ∧
        left.Sorted ∧ left.bindings.Perm (node.bindings ++ along kept fresh) := by
  induction path generalizing node with
  | nil =>
    refine ⟨[], [], node.element, node, rfl, by simp [bindings_eq], ?_, h, by simp [along, Frame.numbered]⟩
    simp [openBelow, Frame.numbered, innermost, starts]
  | cons name rest ih =>
    cases hchild : node.child? name with
    | some child =>
      obtain ⟨kept, names, parent, left, rfl, hparent, hopen, hleft, hperm⟩ :=
        ih (h.of_child? hchild)
      have hnode := h.bindings_of_child? hchild
      refine ⟨name :: kept, names, parent, node.setChild name left, rfl, ?_, ?_, h.setChild hleft, ?_⟩
      · exact hnode.mem_iff.2 (List.mem_append_left _ (List.mem_map.2 ⟨_, hparent, rfl⟩))
      · simp only [openBelow, hchild, hopen]
      · have hbelow := hperm.map (under [name])
        rw [List.map_append, Binding.map_under_along] at hbelow
        refine (h.bindings_setChild name left).trans ((hbelow.append_right _).trans ?_)
        rw [List.append_assoc]
        refine List.Perm.trans ?_ (hnode.append_right _).symm
        rw [List.append_assoc]
        exact List.perm_append_comm.append_left _
    | none =>
      let next := recorder.nextElement
      have hrest := Recorder.openBelow_run rest next (recorder.after [.start node.element next name])
      refine ⟨[], name :: rest, node.element, node.setChild name
        (chain next (Frame.numbered (next + 1) rest)), rfl, by simp [bindings_eq], ?_,
        h.setChild (sorted_chain _ _), ?_⟩
      · rw [openBelow, hchild]
        simp only [show Sink.startElement node.element name recorder =
          (.ok next, recorder.after [.start node.element next name]) from rfl]
        rw [show OpenElement.mk next [] = chain next [] from rfl, hrest]
        simp only [Recorder.after_after]
        rfl
      · have hbelow := (bindings_chain next (Frame.numbered (next + 1) rest)).map (under [name])
        rw [List.map_cons, Binding.map_under_along] at hbelow
        have hset := h.bindings_setChild name (chain next (Frame.numbered (next + 1) rest))
        rw [eraseChild_of_child?_eq_none hchild] at hset
        exact (hset.trans (hbelow.append_right _)).trans List.perm_append_comm

/-- A path that starts with the name of no child is not bound, nor what goes on behind it. -/
theorem not_prefix_of_child?_eq_none {node : OpenElement} {name : String} (rest : List String)
    (hchild : node.child? name = none) :
    ∀ binding ∈ node.bindings, ¬ name :: rest <+: binding.path := by
  intro binding hbinding hprefix
  rw [← eraseChild_of_child?_eq_none hchild] at hbinding
  exact not_prefix_of_mem_eraseChild hbinding ((List.prefix_append [name] rest).trans hprefix)

/-- What closing a path below an element comes to: what is bound at it and below is ended, the lowest
first, and nothing else changes. -/
theorem closeBelow_bindings {node : OpenElement} (h : node.Sorted) (last : String)
    (path : List String) (recorder : Recorder) :
    ∃ left removed, closeBelow last path node recorder =
        (.ok (), left, recorder.after (recorder.endsOf removed)) ∧
      left.Sorted ∧ node.bindings.Perm (removed ++ left.bindings) ∧
      (∀ binding ∈ removed, path ++ [last] <+: binding.path) ∧
      (∀ binding ∈ left.bindings, ¬ path ++ [last] <+: binding.path) ∧
      removed.Pairwise fun first second => ¬ first.path <+: second.path := by
  have hnothing : recorder.after (recorder.endsOf []) = recorder := Recorder.after_nil recorder
  induction path generalizing node with
  | nil =>
    cases hchild : node.child? last with
    | none =>
      refine ⟨node, [], ?_, h, .refl _, by simp,
        not_prefix_of_child?_eq_none [] hchild, .nil⟩
      simp only [closeBelow, hchild, hnothing]
    | some child =>
      refine ⟨node.eraseChild last, child.bindings.map (under [last]), ?_, h.eraseChild,
        h.bindings_of_child? hchild, ?_, fun _ => not_prefix_of_mem_eraseChild, ?_⟩
      · have hclose := close_run child recorder
        simp only [Action.run] at hclose
        simp only [closeBelow, hchild, hclose, Recorder.endsOf_map_under]
      · simp [under]
      · exact (h.of_child? hchild).bottomUp.map _ fun _ _ hnot => by simpa [under] using hnot
  | cons name rest ih =>
    cases hchild : node.child? name with
    | none =>
      refine ⟨node, [], ?_, h, .refl _, by simp,
        not_prefix_of_child?_eq_none (rest ++ [last]) hchild, .nil⟩
      simp only [closeBelow, hchild, hnothing]
    | some child =>
      obtain ⟨left, removed, hclose, hleft, hperm, hremoved, hkept, hbottom⟩ :=
        ih (h.of_child? hchild)
      have hset := h.bindings_setChild name left
      refine ⟨node.setChild name left, removed.map (under [name]), ?_, h.setChild hleft, ?_, ?_, ?_,
        hbottom.map _ fun _ _ hnot => by simpa [under] using hnot⟩
      · simp only [closeBelow, hchild, hclose, Recorder.endsOf_map_under]
      · have hbelow := (hperm.map (under [name])).append_right (node.eraseChild name).bindings
        rw [List.map_append, List.append_assoc] at hbelow
        exact (h.bindings_of_child? hchild).trans (hbelow.trans (hset.symm.append_left _))
      · simpa [under] using hremoved
      · intro binding hbinding
        rcases List.mem_append.1 (hset.mem_iff.1 hbinding) with hbelow | hbeside
        · obtain ⟨inner, hinner, rfl⟩ := List.mem_map.1 hbelow
          simpa [under] using hkept inner hinner
        · exact fun hprefix => not_prefix_of_mem_eraseChild hbeside
            ((List.prefix_append [name] (rest ++ [last])).trans hprefix)

end OpenElement

end XmlWorkload
