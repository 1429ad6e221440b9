import Mathlib.Data.Finset.Card
import Mathlib.Logic.Relation
import XmlWorkload.Proofs.Document.Bindings
import XmlWorkload.Proofs.Document.PathRequest

/-!
# Sets of open paths

Over a recorder, which keeps no order among the calls, the open elements of a document are a set of
paths that is closed under what is in front of a path.  Main statement: after any requests the tree
holds exactly the paths that the requests leave in the set, each is bound to an element of its own,
and the log ends elements from the bottom up (`OpenTree.paths_of_requests`).
-/

set_option autoImplicit false

namespace XmlWorkload

namespace PathRequest

/-- A set of paths after one of them was opened: those on the way to it are added, unless the root
was closed. -/
def opened (path : List String) (paths : Finset (List String)) : Finset (List String) :=
  if paths = ∅ then ∅ else paths ∪ path.inits.toFinset

/-- A set of paths after one of them was closed: it is left out with all that go on behind it. -/
def closed (path : List String) (paths : Finset (List String)) : Finset (List String) :=
  paths.filter fun other => ¬ path <+: other

/-- The paths that requests leave open, of a document in which only the root is open before. -/
def openPaths (requests : List PathRequest) : Finset (List String) :=
  requests.foldl (fun paths request => request.effect opened closed paths) {[]}

end PathRequest

namespace SinkCall

/-- Whether calls start an element right below another one. -/
def StartsBelow (calls : List SinkCall) (parent element : Nat) : Prop :=
  ∃ name, .start parent element name ∈ calls

/-- Whether calls end elements from the bottom up: each once, and after everything that they start
below it. -/
structure EndsBottomUp (calls : List SinkCall) : Prop where
  once : (endedIn calls).Nodup
  after : ∀ before element name behind, calls = before ++ .ended element name :: behind →
    ∀ below, Relation.TransGen (StartsBelow calls) element below → below ∈ endedIn before

/-- The start of one of several elements one inside the other puts it right below its parent. -/
theorem exists_place {parent element above : Nat} {frames : List Frame} {name : String}
    (path : List String) (h : .start above element name ∈ starts parent frames) :
    ∃ place, ⟨place, above⟩ ∈ (⟨path, parent⟩ :: Binding.along path frames : List Binding) ∧
      ⟨place ++ [name], element⟩ ∈ Binding.along path frames := by
  induction frames generalizing parent path with
  | nil => cases h
  | cons frame deeper ih =>
    rw [starts, List.mem_cons] at h
    rcases h with heq | hdeeper
    · cases heq
      exact ⟨path, List.mem_cons_self, List.mem_cons_self⟩
    · obtain ⟨place, hplace, hbelow⟩ := ih (path ++ [frame.name]) hdeeper
      exact ⟨place, List.mem_cons_of_mem _ hplace, List.mem_cons_of_mem _ hbelow⟩

/-- An element that was started has a call that starts it. -/
theorem exists_start_of_mem {calls : List SinkCall} {element : Nat}
    (h : element ∈ (startedIn calls).map Frame.element) :
    ∃ parent name, .start parent element name ∈ calls := by
  obtain ⟨frame, hframe, rfl⟩ := List.mem_map.1 h
  obtain ⟨call, hcall, heq⟩ := List.mem_filterMap.1 hframe
  cases call with
  | start parent element name =>
    obtain rfl := Option.some.inj heq
    exact ⟨parent, name, hcall⟩
  | ended => cases heq
  | attr => cases heq
  | text => cases heq
  | finish => cases heq

/-- Starting so many elements uses up as many numbers. -/
theorem range_nextElement_starts (recorder : Recorder) (parent : Nat) (names : List String) :
    List.range (recorder.after (starts parent
        (Frame.numbered recorder.nextElement names))).nextElement =
      List.range recorder.nextElement ++ List.range' recorder.nextElement names.length := by
  rw [Recorder.nextElement_after, startedIn_starts, length_numbered, List.range_eq_range',
    List.range_eq_range', ← List.range'_append_1, Nat.zero_add]

/-- A call among others is one of the first or one of the second. -/
theorem exists_split {first second before behind : List SinkCall} {call : SinkCall}
    (h : first ++ second = before ++ call :: behind) :
    (∃ rest, first = before ++ call :: rest) ∨
      ∃ middle, before = first ++ middle ∧ second = middle ++ call :: behind := by
  rcases List.append_eq_append_iff.1 h with ⟨middle, hbefore, hsecond⟩ | ⟨rest, hfirst, hrest⟩
  · exact .inr ⟨middle, hbefore, hsecond⟩
  · cases rest with
    | nil => exact .inr ⟨[], by simpa using hfirst.symm, hrest.symm⟩
    | cons other rest =>
      obtain ⟨rfl, -⟩ := List.cons.inj hrest
      exact .inl ⟨rest, hfirst⟩

end SinkCall

namespace OpenTree

open OpenElement (innermost)
open PathRequest (performAll openPaths)
open SinkCall

/-- The bindings of the open elements, in the order in which they would be closed. -/
def bindings (tree : OpenTree) : List Binding :=
  match tree.root with
  | some root => root.bindings
  | none => []

/-- The number of the element that is open at a path. -/
def elementAt? (path : List String) (tree : OpenTree) : Option Nat :=
  tree.root.bind fun root => (root.nodeAt? path).map OpenElement.element

/-- All the way down, the names of open elements side by side ascend. -/
def Sorted (tree : OpenTree) : Prop := ∀ root, tree.root = some root → root.Sorted

section Views

variable {tree : OpenTree} (h : tree.Sorted)

/-- Nothing is bound in a tree exactly when it has no root. -/
theorem bindings_eq_nil_iff : tree.bindings = [] ↔ tree.root = none := by
  obtain ⟨_ | root⟩ := tree
  · simp [bindings]
  · simp [bindings, OpenElement.bindings_eq]

/-- The size of a tree is the number of its bindings. -/
theorem size_eq_length (tree : OpenTree) : tree.size = tree.bindings.length := by
  obtain ⟨_ | root⟩ := tree
  · rfl
  · exact OpenElement.count_eq_length root

include h

/-- An element is bound to a path exactly when it is found there. -/
theorem mem_bindings_iff (path : List String) (element : Nat) :
    ⟨path, element⟩ ∈ tree.bindings ↔ tree.elementAt? path = some element := by
  obtain ⟨_ | root⟩ := tree
  · simp [bindings, elementAt?]
  · exact (h root rfl).mem_bindings_iff path element

/-- A path is open exactly when it is bound. -/
theorem isOpen_iff (path : List String) :
    tree.isOpen path = true ↔ path ∈ tree.bindings.map Binding.path := by
  have hmem : path ∈ tree.bindings.map Binding.path ↔ ∃ element, tree.elementAt? path = some element := by
    simp only [← mem_bindings_iff h, List.mem_map]
    exact ⟨fun ⟨binding, hbinding, heq⟩ => ⟨binding.element, heq ▸ hbinding⟩,
      fun ⟨element, helement⟩ => ⟨_, helement, rfl⟩⟩
  rw [hmem, ← Option.isSome_iff_exists]
  obtain ⟨_ | root⟩ := tree
  · rfl
  · simp [isOpen, elementAt?, OpenElement.isOpen_eq]

/-- No binding of a tree stands before one below it. -/
theorem bottomUp : tree.bindings.Pairwise fun first second => ¬ first.path <+: second.path := by
  obtain ⟨_ | root⟩ := tree
  · exact .nil
  · exact (h root rfl).bottomUp

/-- A tree binds each path once. -/
theorem nodup_paths : (tree.bindings.map Binding.path).Nodup :=
  List.pairwise_map.2 ((bottomUp h).imp fun {first second} hnot (heq : first.path = second.path) =>
    hnot (heq ▸ List.prefix_refl _))

/-- Every path above a bound one is bound. -/
theorem exists_above {binding : Binding} (hmem : binding ∈ tree.bindings) {path : List String}
    (hpath : path <+: binding.path) : ∃ element, ⟨path, element⟩ ∈ tree.bindings := by
  obtain ⟨_ | root⟩ := tree
  · cases hmem
  · exact (h root rfl).exists_above hmem hpath

/-- What opening a path comes to as long as the root is open. -/
theorem openPath_bindings (hopen : tree.bindings ≠ []) (path : List String) (recorder : Recorder) :
    ∃ kept names parent left, path = kept ++ names ∧ ⟨kept, parent⟩ ∈ tree.bindings ∧
      let fresh := Frame.numbered recorder.nextElement names
      (openPath path).run (tree, recorder) =
          (.ok (innermost parent fresh), left, recorder.after (starts parent fresh)) ∧
        left.Sorted ∧ left.bindings.Perm (tree.bindings ++ Binding.along kept fresh) := by
  obtain ⟨_ | root⟩ := tree
  · exact absurd rfl hopen
  · obtain ⟨kept, names, parent, left, rfl, hparent, hrun, hleft, hperm⟩ :=
      OpenElement.openBelow_bindings (h root rfl) path recorder
    refine ⟨kept, names, parent, ⟨some left⟩, rfl, hparent, ?_, ?_, hperm⟩
    · simp only [Action.run, openPath, hrun]
    · rintro root ⟨⟩
      exact hleft

/-- What closing a path comes to: what is bound at it and below is ended, the lowest first. -/
theorem closePath_bindings (path : List String) (recorder : Recorder) :
    ∃ left removed, (closePath path).run (tree, recorder) =
        (.ok (), left, recorder.after (recorder.endsOf removed)) ∧
      left.Sorted ∧ tree.bindings.Perm (removed ++ left.bindings) ∧
      (∀ binding ∈ removed, path <+: binding.path) ∧
      (∀ binding ∈ left.bindings, ¬ path <+: binding.path) ∧
      removed.Pairwise fun first second => ¬ first.path <+: second.path := by
  obtain ⟨_ | root⟩ := tree
  · refine ⟨⟨none⟩, [], ?_, h, .refl _, by simp, by simp [bindings], .nil⟩
    rw [show recorder.after (recorder.endsOf []) = recorder from Recorder.after_nil recorder]
    rfl
  · have hroot := h root rfl
    rcases List.eq_nil_or_concat' path with rfl | ⟨above, last, rfl⟩
    · refine ⟨⟨none⟩, root.bindings, ?_, by rintro root ⟨⟩, ?_, by simp, by simp [bindings],
        hroot.bottomUp⟩
      · have hclose := OpenElement.close_run root recorder
        simp only [Action.run] at hclose
        simp only [Action.run, closePath, List.getLast?_nil, hclose]
      · simp [bindings]
    · obtain ⟨left, removed, hrun, hleft, hrest⟩ :=
        OpenElement.closeBelow_bindings hroot last above recorder
      refine ⟨⟨some left⟩, removed, ?_, ?_, hrest⟩
      · simp only [Action.run, closePath, List.getLast?_concat, List.dropLast_concat, hrun]
      · rintro root ⟨⟩
        exact hleft

end Views

/-- A tree and the log of its recorder fit together: elements are numbered in the order in which they
were started, each is either ended, once, or bound to one path, below its parent under its name; and
an element was ended after all that were started right below it. -/
structure Logged (state : OpenTree × Recorder) : Prop where
  sorted : state.1.Sorted
  rooted : state.1.bindings = [] ∨ ⟨[], 0⟩ ∈ state.1.bindings
  numbered : 0 :: (startedIn state.2.calls).map Frame.element = List.range state.2.nextElement
  accounted : (endedIn state.2.calls ++ state.1.bindings.map Binding.element).Perm
    (List.range state.2.nextElement)
  placed : ∀ parent element name, .start parent element name ∈ state.2.calls →
    element ∉ endedIn state.2.calls → ∃ path, ⟨path, parent⟩ ∈ state.1.bindings ∧
      ⟨path ++ [name], element⟩ ∈ state.1.bindings
  ordered : ∀ before element name behind,
    state.2.calls = before ++ .ended element name :: behind →
      ∀ below, StartsBelow state.2.calls element below → below ∈ endedIn before

namespace Logged

/-- A new tree and its recorder fit together. -/
theorem new (root : String) : Logged (OpenTree.new 0, Recorder.new root) where
  sorted := by
    rintro node ⟨⟩
    exact OpenElement.sorted_chain 0 []
  rooted := .inr List.mem_cons_self
  numbered := rfl
  accounted := .refl _
  placed := by simp [Recorder.new]
  ordered := by simp [Recorder.new]

section Elements

variable {state : OpenTree × Recorder} (h : Logged state)

include h

/-- Every element is ended once or bound to one path. -/
theorem nodup : (endedIn state.2.calls ++ state.1.bindings.map Binding.element).Nodup :=
  h.accounted.nodup_iff.2 List.nodup_range

/-- A bound element was not ended. -/
theorem notMem_endedIn {binding : Binding} (hbinding : binding ∈ state.1.bindings) :
    binding.element ∉ endedIn state.2.calls := fun hended =>
  (List.nodup_append.1 h.nodup).2.2 _ hended _ (List.mem_map_of_mem hbinding) rfl

/-- An element is bound to one path. -/
theorem eq_of_element_eq {first second : Binding} (hfirst : first ∈ state.1.bindings)
    (hsecond : second ∈ state.1.bindings) (heq : first.element = second.element) : first = second :=
  List.inj_on_of_nodup_map (List.nodup_append.1 h.nodup).2.1 hfirst hsecond heq

/-- What is started is ended or bound below its parent, so that all below an element that was ended
has been ended before it. -/
theorem endsBottomUp : EndsBottomUp state.2.calls where
  once := (List.nodup_append.1 h.nodup).1
  after := by
    intro before element name behind hcalls below hbelow
    -- one start after the other on the way down, each of an element that was ended in time
    induction hbelow using Relation.TransGen.head_induction_on generalizing before name behind with
    | single hstart => exact h.ordered before _ name behind hcalls _ hstart
    | head hstart _ ih =>
      have hended := h.ordered before _ name behind hcalls _ hstart
      obtain ⟨call, hcall, heq⟩ := List.mem_filterMap.1 hended
      obtain ⟨first, rest, rfl⟩ := List.append_of_mem hcall
      cases call with
      | ended child childName =>
        obtain rfl := Option.some.inj heq
        rw [List.append_assoc, List.cons_append] at hcalls
        have hmem := ih first childName _ hcalls
        simp [hmem]
      | start => cases heq
      | attr => cases heq
      | text => cases heq
      | finish => cases heq

end Elements

/-- Elements that are started are bound, and nothing else changes with the numbers in use. -/
theorem accounted_start {tree left : OpenTree} {recorder : Recorder} (h : Logged (tree, recorder))
    {kept names : List String} (parent : Nat) (hperm : left.bindings.Perm
      (tree.bindings ++ Binding.along kept (Frame.numbered recorder.nextElement names))) :
    let after := recorder.after (starts parent (Frame.numbered recorder.nextElement names))
    (endedIn after.calls ++ left.bindings.map Binding.element).Perm
      (List.range after.nextElement) := by
  intro after
  have hended : endedIn after.calls = endedIn recorder.calls := by simp [after, Recorder.after]
  have hbound := hperm.map Binding.element
  rw [List.map_append, Binding.map_element_along, map_element_numbered] at hbound
  rw [hended, range_nextElement_starts]
  refine (hbound.append_left _).trans ?_
  rw [← List.append_assoc]
  exact h.accounted.append_right _

/-- Elements that are started one inside the other below an open one are bound behind its path. -/
theorem start {tree left : OpenTree} {recorder : Recorder} (h : Logged (tree, recorder))
    {kept names : List String} {parent : Nat} (hparent : ⟨kept, parent⟩ ∈ tree.bindings)
    (hsorted : left.Sorted) (hperm : left.bindings.Perm
      (tree.bindings ++ Binding.along kept (Frame.numbered recorder.nextElement names))) :
    Logged (left, recorder.after (starts parent (Frame.numbered recorder.nextElement names))) := by
  let fresh := Frame.numbered recorder.nextElement names
  have hnumbers : fresh.map Frame.element = List.range' recorder.nextElement names.length :=
    map_element_numbered _ _
  have hended : endedIn (recorder.calls ++ starts parent fresh) = endedIn recorder.calls := by simp
  have hold : ∀ {binding : Binding}, binding ∈ tree.bindings → binding ∈ left.bindings :=
    fun hmem => hperm.mem_iff.2 (List.mem_append_left _ hmem)
  have hnew : ∀ {binding : Binding}, binding ∈ Binding.along kept fresh → binding ∈ left.bindings :=
    fun hmem => hperm.mem_iff.2 (List.mem_append_right _ hmem)
  have hparents : ∀ {place : List String} {element : Nat},
      ⟨place, element⟩ ∈ (⟨kept, parent⟩ :: Binding.along kept fresh : List Binding) →
        ⟨place, element⟩ ∈ left.bindings :=
    fun hmem => (List.mem_cons.1 hmem).elim (fun heq => hold (heq ▸ hparent)) hnew
  have haccounted := h.accounted_start parent hperm
  refine ⟨hsorted, ?_, ?_, haccounted, ?_, ?_⟩
  · refine .inr (hold (h.rooted.resolve_left fun hnone => ?_))
    exact List.not_mem_nil (hnone ▸ hparent)
  · rw [range_nextElement_starts, ← hnumbers, ← h.numbered]
    simp [Recorder.after, fresh]
  · intro above element name hstart hnot
    rcases List.mem_append.1 hstart with hstart | hstart
    · obtain ⟨place, hplace, hbelow⟩ := h.placed above element name hstart (hended ▸ hnot)
      exact ⟨place, hold hplace, hold hbelow⟩
    · obtain ⟨place, hplace, hbelow⟩ := exists_place kept hstart
      exact ⟨place, hparents hplace, hnew hbelow⟩
  · rintro before element name behind hcalls below ⟨childName, hstart⟩
    rcases exists_split hcalls with ⟨rest, hfirst⟩ | ⟨middle, -, hstarts⟩
    · rcases List.mem_append.1 hstart with hstart | hstart
      · exact h.ordered before element name rest hfirst below ⟨childName, hstart⟩
      · -- an element that gets a child is open, and has not been ended
        obtain ⟨place, hplace, -⟩ := exists_place kept hstart
        have hopen : element ∈ left.bindings.map Binding.element :=
          List.mem_map_of_mem (hparents hplace)
        have hended : element ∈ endedIn (recorder.calls ++ starts parent fresh) := by
          simp [hfirst, endedIn]
        have hnodup := haccounted.nodup_iff.2 List.nodup_range
        exact absurd rfl ((List.nodup_append.1 hnodup).2.2 _ hended _ hopen)
    · have hnone := endedIn_starts parent fresh
      rw [hstarts] at hnone
      simp [endedIn] at hnone

section Finish

variable {tree left : OpenTree} {recorder : Recorder} {path : List String} {removed : List Binding}
  (hperm : tree.bindings.Perm (removed ++ left.bindings))
  (hremoved : ∀ binding ∈ removed, path <+: binding.path)
  (hkept : ∀ binding ∈ left.bindings, ¬ path <+: binding.path)

include hperm hremoved hkept

/-- What is bound below an element that is removed is removed with it. -/
theorem mem_removed_of_below {binding : Binding} {name : String} {element : Nat}
    (hbinding : binding ∈ removed) (hmem : ⟨binding.path ++ [name], element⟩ ∈ tree.bindings) :
    ⟨binding.path ++ [name], element⟩ ∈ removed := by
  refine (List.mem_append.1 (hperm.mem_iff.1 hmem)).resolve_right fun hleft => ?_
  exact hkept _ hleft ((hremoved binding hbinding).trans (List.prefix_append _ _))

variable (h : Logged (tree, recorder))
  (hbottom : removed.Pairwise fun first second => ¬ first.path <+: second.path)

include h hbottom

/-- When the elements that are removed are ended in their order, each is ended after those below. -/
theorem ordered_finish {before behind : List SinkCall} {element below : Nat} {name : String}
    (hcalls : recorder.calls ++ recorder.endsOf removed =
      before ++ .ended element name :: behind)
    (hbelow : StartsBelow recorder.calls element below) : below ∈ endedIn before := by
  rcases exists_split hcalls with ⟨rest, hfirst⟩ | ⟨middle, rfl, hends⟩
  · exact h.ordered before element name rest hfirst below hbelow
  · obtain ⟨childName, hstart⟩ := hbelow
    obtain ⟨first, others, rfl, rfl, hothers⟩ := List.map_eq_append_iff.1 hends
    obtain ⟨binding, second, rfl, hcall, -⟩ := List.map_eq_cons_iff.1 hothers
    obtain ⟨rfl, -⟩ := SinkCall.ended.inj hcall
    rw [endedIn_append, List.mem_append]
    by_cases hdone : below ∈ endedIn recorder.calls
    · exact .inl hdone
    · -- what is open below an element is ended with it, and stands in front of it
      obtain ⟨place, hplace, hmem⟩ := h.placed _ below childName hstart hdone
      have hbinding : binding ∈ first ++ binding :: second := by simp
      obtain rfl : place = binding.path := congrArg Binding.path (h.eq_of_element_eq hplace
        (hperm.mem_iff.2 (List.mem_append_left _ hbinding)) rfl)
      have hchild := mem_removed_of_below hperm hremoved hkept hbinding hmem
      have hbehind := (List.pairwise_cons.1 (List.pairwise_append.1 hbottom).2.1).1
      rcases List.mem_append.1 hchild with hfirst | hrest
      · exact .inr (by simpa [endedIn, List.filterMap_map] using ⟨_, hfirst, rfl⟩)
      · rcases List.mem_cons.1 hrest with heq | hsecond
        · simpa using congrArg Binding.path heq
        · exact absurd (List.prefix_append _ _) (hbehind _ hsecond)

/-- Elements that are ended from the bottom up, with all that is bound behind a path, are bound no
longer. -/
theorem finish (hsorted : left.Sorted) :
    Logged (left, recorder.after (recorder.endsOf removed)) := by
  have hstarts : ∀ {parent element : Nat} {name : String},
      .start parent element name ∈ recorder.calls ++ recorder.endsOf removed →
        .start parent element name ∈ recorder.calls := by
    intro parent element name hmem
    simpa [Recorder.endsOf] using hmem
  refine ⟨hsorted, ?_, by simpa [Recorder.after] using h.numbered, ?_, ?_, ?_⟩
  · rcases h.rooted with hnone | hroot
    · rw [hnone, List.nil_perm, List.append_eq_nil_iff] at hperm
      exact .inl hperm.2
    · rcases List.mem_append.1 (hperm.mem_iff.1 hroot) with hin | hleft
      · -- the root goes only with everything else
        obtain rfl : path = [] := List.prefix_nil.1 (hremoved _ hin)
        exact .inl (List.eq_nil_iff_forall_not_mem.2 fun binding hbinding =>
          hkept binding hbinding List.nil_prefix)
      · exact .inr hleft
  · have hbound := hperm.map Binding.element
    rw [List.map_append] at hbound
    simp only [Recorder.after, endedIn_append, Recorder.endedIn_endsOf, Recorder.startedIn_endsOf,
      List.length_nil, Nat.add_zero, List.append_assoc]
    exact (hbound.symm.append_left _).trans h.accounted
  · intro parent element name hstart hnot
    simp only [Recorder.after, endedIn_append, Recorder.endedIn_endsOf, List.mem_append, not_or]
      at hnot
    obtain ⟨place, hplace, hmem⟩ := h.placed parent element name (hstarts hstart) hnot.1
    have hchild : ⟨place ++ [name], element⟩ ∉ removed :=
      fun hin => hnot.2 (List.mem_map_of_mem hin)
    refine ⟨place, ?_, (List.mem_append.1 (hperm.mem_iff.1 hmem)).resolve_left hchild⟩
    exact (List.mem_append.1 (hperm.mem_iff.1 hplace)).resolve_left
      fun hin => hchild (mem_removed_of_below hperm hremoved hkept hin hmem)
  · rintro before element name behind hcalls below ⟨childName, hstart⟩
    exact ordered_finish hperm hremoved hkept h hbottom hcalls ⟨childName, hstarts hstart⟩

end Finish

variable {state : OpenTree × Recorder}

/-- Opening a path binds what is missing of it, as long as the root is open. -/
theorem openPath (h : Logged state) (hopen : state.1.bindings ≠ []) (path : List String) :
    ∃ element left, (OpenTree.openPath path).run state = (.ok element, left) ∧ Logged left ∧
      ⟨path, element⟩ ∈ left.1.bindings ∧
      (∀ other, other ∈ left.1.bindings.map Binding.path ↔
        other ∈ state.1.bindings.map Binding.path ∨ other <+: path) ∧
      state.2.calls <+: left.2.calls := by
  obtain ⟨tree, recorder⟩ := state
  obtain ⟨kept, names, parent, left, rfl, hparent, hrun, hsorted, hperm⟩ :=
    openPath_bindings h.sorted hopen path recorder
  let fresh := Frame.numbered recorder.nextElement names
  have hnames : fresh.map Frame.name = names := map_name_numbered _ _
  refine ⟨_, (left, recorder.after (starts parent fresh)), hrun, h.start hparent hsorted hperm, ?_, ?_,
    List.prefix_append _ _⟩
  · have hmem := Binding.innermost_mem_along kept parent fresh
    rw [hnames] at hmem
    rcases List.mem_cons.1 hmem with heq | hmem
    · rw [heq]
      exact hperm.mem_iff.2 (List.mem_append_left _ hparent)
    · exact hperm.mem_iff.2 (List.mem_append_right _ hmem)
  · intro other
    rw [(hperm.map Binding.path).mem_iff, List.map_append, List.mem_append,
      Binding.mem_map_path_along, hnames]
    refine or_congr_right' fun hnot => and_iff_left fun hkept => hnot ?_
    obtain ⟨element, helement⟩ := exists_above h.sorted hparent hkept
    exact List.mem_map_of_mem helement

/-- Closing a path takes it away with everything behind it. -/
theorem closePath (h : Logged state) (path : List String) :
    ∃ left, (OpenTree.closePath path).run state = (.ok (), left) ∧ Logged left ∧
      (∀ other, other ∈ left.1.bindings.map Binding.path ↔
        other ∈ state.1.bindings.map Binding.path ∧ ¬ path <+: other) ∧
      state.2.calls <+: left.2.calls := by
  obtain ⟨tree, recorder⟩ := state
  obtain ⟨left, removed, hrun, hsorted, hperm, hremoved, hkept, hbottom⟩ :=
    closePath_bindings h.sorted path recorder
  refine ⟨(left, recorder.after (recorder.endsOf removed)), hrun,
    finish hperm hremoved hkept h hbottom hsorted, fun other => ?_, List.prefix_append _ _⟩
  rw [(hperm.map Binding.path).mem_iff, List.map_append, List.mem_append]
  constructor
  · intro hother
    obtain ⟨binding, hbinding, rfl⟩ := List.mem_map.1 hother
    exact ⟨.inr hother, hkept binding hbinding⟩
  · rintro ⟨hother | hother, hnot⟩
    · obtain ⟨binding, hbinding, rfl⟩ := List.mem_map.1 hother
      exact absurd (hremoved binding hbinding) hnot
    · exact hother

/-- In a closed tree no path can be opened, and closing one does nothing. -/
theorem run_of_closed (hnone : state.1.bindings = []) (path : List String) :
    (OpenTree.openPath path).run state = (.error .documentClosed, state) ∧
      (OpenTree.closePath path).run state = (.ok (), state) := by
  obtain ⟨⟨root⟩, recorder⟩ := state
  obtain rfl : root = none := bindings_eq_nil_iff.1 hnone
  exact ⟨rfl, rfl⟩

end Logged

/-- A tree holds a set of paths. -/
structure Holds (paths : Finset (List String)) (tree : OpenTree) : Prop where
  prefixClosed : ∀ path ∈ paths, ∀ above, above <+: path → above ∈ paths
  isOpen : ∀ path, tree.isOpen path = true ↔ path ∈ paths
  size : tree.size = paths.card

/-- The open paths of a tree are bound to elements of their own, which the log of the recorder starts
once, below the parent and under the name that the path says, and does not end. -/
structure Binds (state : OpenTree × Recorder) : Prop where
  bound : ∀ path, state.1.isOpen path = true → ∃ element, state.1.elementAt? path = some element ∧
    (0 :: (startedIn state.2.calls).map Frame.element).count element = 1 ∧
      element ∉ endedIn state.2.calls
  apart : ∀ first second element, state.1.elementAt? first = some element →
    state.1.elementAt? second = some element → first = second
  below : ∀ path name element, state.1.elementAt? (path ++ [name]) = some element →
    ∃ parent, state.1.elementAt? path = some parent ∧
      .start parent element name ∈ state.2.calls

/-- The paths of a tree that fits its log are bound to elements of their own. -/
theorem Logged.binds {state : OpenTree × Recorder} (h : Logged state) : Binds state where
  bound := by
    intro path hpath
    obtain ⟨binding, hbinding, rfl⟩ := List.mem_map.1 ((isOpen_iff h.sorted path).1 hpath)
    refine ⟨binding.element, (mem_bindings_iff h.sorted _ _).1 hbinding, ?_,
      h.notMem_endedIn hbinding⟩
    have hmem : binding.element ∈ List.range state.2.nextElement :=
      h.accounted.mem_iff.1 (List.mem_append_right _ (List.mem_map_of_mem hbinding))
    rw [h.numbered]
    exact List.count_eq_one_of_mem List.nodup_range hmem
  apart := by
    intro first second element hfirst hsecond
    exact congrArg Binding.path (h.eq_of_element_eq ((mem_bindings_iff h.sorted _ _).2 hfirst)
      ((mem_bindings_iff h.sorted _ _).2 hsecond) rfl)
  below := by
    intro path name element helement
    have hbinding := (mem_bindings_iff h.sorted _ _).2 helement
    have hmem : element ∈ List.range state.2.nextElement :=
      h.accounted.mem_iff.1 (List.mem_append_right _ (List.mem_map_of_mem hbinding))
    rw [← h.numbered, List.mem_cons] at hmem
    rcases hmem with rfl | hstarted
    · -- the root is bound to the empty path only
      have hroot := h.rooted.resolve_left (List.ne_nil_of_mem hbinding)
      simpa using congrArg Binding.path (h.eq_of_element_eq hbinding hroot rfl)
    · obtain ⟨parent, childName, hstart⟩ := exists_start_of_mem hstarted
      obtain ⟨place, hplace, hchild⟩ :=
        h.placed parent element childName hstart (h.notMem_endedIn hbinding)
      have hsame := congrArg Binding.path (h.eq_of_element_eq hbinding hchild rfl)
      obtain ⟨rfl, hname⟩ := List.append_inj' hsame rfl
      obtain rfl := List.singleton_inj.1 hname
      exact ⟨parent, (mem_bindings_iff h.sorted _ _).1 hplace, hstart⟩

/-- A tree is logged, and holds a set of paths. -/
def Tracks (paths : Finset (List String)) (state : OpenTree × Recorder) : Prop :=
  Logged state ∧ ∀ path, path ∈ state.1.bindings.map Binding.path ↔ path ∈ paths

namespace Tracks

variable {paths : Finset (List String)} {state : OpenTree × Recorder}

/-- No path is held exactly when nothing is bound. -/
theorem eq_empty_iff (h : Tracks paths state) : paths = ∅ ↔ state.1.bindings = [] := by
  rw [Finset.eq_empty_iff_forall_notMem, ← List.map_eq_nil_iff, List.eq_nil_iff_forall_not_mem]
  exact forall_congr' fun path => not_congr (h.2 path).symm

/-- Opening a path leads to the paths held before and those that it opens. -/
theorem openPath (h : Tracks paths state) (path : List String) :
    Tracks (PathRequest.opened path paths) ((OpenTree.openPath path).run state).2 := by
  unfold PathRequest.opened
  split
  · next hnone =>
    rw [(Logged.run_of_closed (h.eq_empty_iff.1 hnone) path).1, ← hnone]
    exact h
  · next hsome =>
    obtain ⟨element, left, hrun, hlogged, -, hpaths, -⟩ :=
      h.1.openPath (mt h.eq_empty_iff.2 hsome) path
    rw [hrun]
    refine ⟨hlogged, fun other => ?_⟩
    rw [hpaths, h.2]
    simp

/-- Closing a path succeeds, and leads to the paths held before without those that it closes. -/
theorem closePath (h : Tracks paths state) (path : List String) :
    ∃ left, (OpenTree.closePath path).run state = (.ok (), left) ∧
      Tracks (PathRequest.closed path paths) left := by
  obtain ⟨left, hrun, hlogged, hpaths, -⟩ := h.1.closePath path
  refine ⟨left, hrun, hlogged, fun other => ?_⟩
  rw [hpaths, h.2]
  simp [PathRequest.closed]

/-- A new tree holds the path of its root. -/
theorem new (root : String) : Tracks {[]} (OpenTree.new 0, Recorder.new root) := by
  refine ⟨Logged.new root, fun path => ?_⟩
  rw [show (OpenTree.new 0).bindings = [⟨[], 0⟩] from rfl]
  simp

/-- After any requests a tree holds the paths that they leave open. -/
theorem performAll (root : String) (requests : List PathRequest) :
    Tracks (openPaths requests)
      (PathRequest.performAll requests (OpenTree.new 0, Recorder.new root)) :=
  PathRequest.performAll_keeps PathRequest.opened PathRequest.closed Tracks
    (fun path _ _ h => h.openPath path) (fun path _ _ h => h.closePath path) requests _ (new root)

/-- A tree that tracks paths holds them. -/
theorem holds (h : Tracks paths state) : Holds paths state.1 where
  prefixClosed := by
    intro path hpath above habove
    obtain ⟨binding, hbinding, rfl⟩ := List.mem_map.1 ((h.2 path).2 hpath)
    obtain ⟨element, helement⟩ := exists_above h.1.sorted hbinding habove
    exact (h.2 above).1 (List.mem_map_of_mem helement)
  isOpen path := (isOpen_iff h.1.sorted path).trans (h.2 path)
  size := by
    have hset : (state.1.bindings.map Binding.path).toFinset = paths := by
      ext path
      rw [List.mem_toFinset, h.2]
    rw [← hset, List.toFinset_card_of_nodup (nodup_paths h.1.sorted), List.length_map,
      size_eq_length]

end Tracks

/-- Requests keep what was recorded, and keep a tree logged. -/
theorem Logged.performAll {state : OpenTree × Recorder} (h : Logged state)
    (requests : List PathRequest) :
    Logged (PathRequest.performAll requests state) ∧
      state.2.calls <+: (PathRequest.performAll requests state).2.calls := by
  refine PathRequest.performAll_keeps (fun _ => id) (fun _ => id)
    (fun (_ : Unit) left => Logged left ∧ state.2.calls <+: left.2.calls) ?_ ?_ requests ()
    ⟨h, List.prefix_refl _⟩
  · rintro path - left ⟨hleft, hcalls⟩
    by_cases hopen : left.1.bindings = []
    · rw [(run_of_closed hopen path).1]
      exact ⟨hleft, hcalls⟩
    · obtain ⟨element, after, hrun, hafter, -, -, hmore⟩ := hleft.openPath hopen path
      rw [hrun]
      exact ⟨hafter, hcalls.trans hmore⟩
  · rintro path - left ⟨hleft, hcalls⟩
    obtain ⟨after, hrun, hafter, -, hmore⟩ := hleft.closePath path
    exact ⟨after, hrun, hafter, hcalls.trans hmore⟩

/-- Over a recorder, whatever paths are requested to be opened, closed and replaced: the tree holds
the paths that the requests leave open, each is bound to an element of its own, which is open, and
elements are ended from the bottom up, never to be bound again.  Once no path is left, opening is
refused and closing does nothing; until then a path that is opened is bound to the element that this
gives; closing never fails. -/
theorem paths_of_requests (root : String) (requests : List PathRequest) :
    let state := performAll requests (new 0, Recorder.new root)
    let paths := openPaths requests
    Holds paths state.1 ∧ Binds state ∧ EndsBottomUp state.2.calls ∧
      (∀ element ∈ endedIn state.2.calls, ∀ more path,
        (performAll more state).1.elementAt? path ≠ some element) ∧
      (paths = ∅ → ∀ path, (openPath path).run state = (.error .documentClosed, state) ∧
        (closePath path).run state = (.ok (), state)) ∧
      (paths ≠ ∅ → ∀ path, ∃ element left, (openPath path).run state = (.ok element, left) ∧
        left.1.elementAt? path = some element) ∧
      ∀ path, ((closePath path).run state).1 = .ok () := by
  intro state paths
  have h : Tracks paths state := Tracks.performAll root requests
  refine ⟨h.holds, h.1.binds, h.1.endsBottomUp, ?_, ?_, ?_, ?_⟩
  · intro element hended more path hbound
    obtain ⟨hmore, rest, hcalls⟩ := h.1.performAll more
    have hbinding := (mem_bindings_iff hmore.sorted path element).2 hbound
    refine hmore.notMem_endedIn hbinding ?_
    rw [← hcalls, endedIn_append]
    exact List.mem_append_left _ hended
  · exact fun hnone path => Logged.run_of_closed (h.eq_empty_iff.1 hnone) path
  · intro hsome path
    obtain ⟨element, left, hrun, hleft, hbinding, -⟩ :=
      h.1.openPath (mt h.eq_empty_iff.2 hsome) path
    exact ⟨element, left, hrun, (mem_bindings_iff hleft.sorted path element).1 hbinding⟩
  · intro path
    obtain ⟨left, hrun, -⟩ := h.closePath path
    rw [hrun]

end OpenTree

end XmlWorkload
