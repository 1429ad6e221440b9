import XmlWorkload.Proofs.Document.Chain
import XmlWorkload.Proofs.Markup.Reference

/-!
# Drafts that follow emissions

One emission closes the open elements below the level of its path, opens the rest of the path, and
fills the element at its end.  The reference document of the emissions so far is what the draft
becomes once everything in it is closed.  Main statement: one more emission keeps the two in step.
-/

set_option autoImplicit false

namespace XmlWorkload

/-- The level at which a document goes on is that of the reference document. -/
theorem OpenTree.divergence_eq_kept : ∀ previous path : List String,
    divergence previous path = Reference.kept previous path
  | [], path => by
    have hshared : Reference.sharedNames [] path = 0 := by
      simp [Reference.sharedNames]
    simp [divergence, Reference.kept, hshared]
  | _ :: _, [] => by simp [divergence, Reference.kept]
  | _ :: _, [_] => by simp [divergence, Reference.kept]
  | a :: previous, b :: c :: path => by
    have ih := divergence_eq_kept previous (c :: path)
    unfold divergence
    by_cases heq : a = b
    · rw [if_pos heq, ih]
      have hshared : Reference.sharedNames (a :: previous) (b :: c :: path) =
          Reference.sharedNames previous (c :: path) + 1 := by
        rw [Reference.sharedNames, if_pos heq]
      unfold Reference.kept
      rw [hshared]
      simp only [List.length_cons]
      omega
    · rw [if_neg heq]
      have hshared : Reference.sharedNames (a :: previous) (b :: c :: path) = 0 := by
        rw [Reference.sharedNames, if_neg heq]
      unfold Reference.kept
      omega

namespace Draft

/-- A draft after an emission whose template resolves to the given elements. -/
def emit (emission : Emission) (elements : List Element) (draft : Draft) : Draft :=
  let level := Reference.kept draft.cursor emission.path
  let moved := (draft.finishTops (draft.cursor.length - level)).startAll (emission.path.drop level)
  (((moved.setAttributes emission.template.attrs.entries).append
    (Markup.ofElements elements)).skip (Element.countOfAll elements)).append
      (Markup.ofText emission.template.body)

/-- A draft with a root of the given name in which nothing was written yet. -/
def new (root : String) : Draft := ⟨[⟨0, root, [], []⟩], [], 1⟩

/-- A draft becomes the reference document of some emissions once everything in it is closed, and
its open elements are those of the last path. -/
def Follows (root : String) (emissions : List Emission) (draft : Draft) : Prop :=
  ∃ (top : Unfinished) (spine : List Unfinished),
    draft.opened.reverse = top :: spine ∧ draft.finished = [] ∧ top.name = root ∧ top.attrs = [] ∧
      (∀ node ∈ spine, Name.isValid node.name = true) ∧
        Reference.grown? emissions =
          some (spine.map Unfinished.name, top.content ++ sealAll spine.reverse [])

/-- Sealing from the outside in puts what was sealed inside into the outermost element. -/
theorem sealAll_reverse_cons (node : Unfinished) (deeper : List Unfinished)
    (inner : List Markup) :
    sealAll (node :: deeper).reverse inner = [node.sealed (sealAll deeper.reverse inner)] := by
  rw [List.reverse_cons, sealAll_append]
  rfl

/-- Below open elements whose names spell a path, something new goes behind what is there. -/
theorem graft?_sealAll (fresh : List Markup) (above : List Unfinished)
    (content inner : List Markup) :
    Reference.graft? fresh (above.map Unfinished.name) (content ++ sealAll above.reverse inner) =
      some (content ++ sealAll above.reverse (inner ++ fresh)) := by
  induction above generalizing content with
  | nil =>
    simp only [List.map_nil, List.reverse_nil, Reference.graft?, sealAll, List.append_assoc]
  | cons node deeper ih =>
    have hinner := ih node.content
    rw [sealAll_reverse_cons, sealAll_reverse_cons, List.map_cons, Reference.graft?,
      List.getLast?_concat, List.dropLast_concat]
    simp only [Unfinished.sealed, if_true, hinner, Option.map_some]

/-- New elements around the content of the last one become a chain. -/
theorem sealAll_fresh (names : List String) (attrs : List (String × String))
    (content : List Markup) (element : Nat) {leaf : Unfinished} {outer : List Unfinished}
    (h : (Unfinished.fresh element names).reverse = leaf :: outer) :
    sealAll ({ leaf with attrs, content } :: outer) [] = Reference.chain attrs content names := by
  induction names generalizing element leaf outer with
  | nil => simp [Unfinished.fresh] at h
  | cons name rest ih =>
    rw [Unfinished.fresh, List.reverse_cons] at h
    cases rest with
    | nil =>
      have hleaf : leaf = ⟨element, name, [], []⟩ ∧ outer = [] := by
        simpa [Unfinished.fresh, eq_comm] using h
      obtain ⟨rfl, rfl⟩ := hleaf
      simp [sealAll, Unfinished.sealed, Reference.chain]
    | cons second rest =>
      obtain ⟨last, others, hlast⟩ :
          ∃ last others, (Unfinished.fresh (element + 1) (second :: rest)).reverse =
            last :: others := by
        cases hfresh : (Unfinished.fresh (element + 1) (second :: rest)).reverse with
        | nil => simp [Unfinished.fresh] at hfresh
        | cons last others => exact ⟨last, others, rfl⟩
      have hinner := ih (element + 1) hlast
      rw [hlast, List.cons_append, List.cons.injEq] at h
      obtain ⟨rfl, rfl⟩ := h
      rw [← List.cons_append, sealAll_append, hinner]
      simp [sealAll, Unfinished.sealed, Reference.chain]

/-- The cursor of a draft are the names of its open elements below the top. -/
theorem cursor_eq {draft : Draft} {top : Unfinished} {spine : List Unfinished}
    (h : draft.opened.reverse = top :: spine) : draft.cursor = spine.map Unfinished.name := by
  simp [cursor, frames, h, Unfinished.frame]

/-- What is added to the innermost open element lies behind the content of all the elements around
it. -/
theorem append_spine (nodes : List Markup) {draft : Draft} {top : Unfinished}
    {above : List Unfinished} (h : draft.opened.reverse = top :: above) :
    ∃ (top' : Unfinished) (above' : List Unfinished),
      (draft.append nodes).opened.reverse = top' :: above' ∧
        top'.name = top.name ∧ top'.attrs = top.attrs ∧
        above'.map Unfinished.name = above.map Unfinished.name ∧
        ∀ inner, top'.content ++ sealAll above'.reverse inner =
          top.content ++ sealAll above.reverse (nodes ++ inner) := by
  have hopened := opened_eq h
  rcases List.eq_nil_or_concat above with rfl | ⟨outer, last, rfl⟩
  · refine ⟨{ top with content := top.content ++ nodes }, [], ?_, rfl, rfl, rfl, ?_⟩
    · simp [append, hopened]
    · intro inner
      simp [sealAll]
  · refine ⟨top, outer ++ [{ last with content := last.content ++ nodes }], ?_, rfl, rfl, ?_, ?_⟩
    · simp [append, hopened]
    · simp
    · intro inner
      simp [sealAll, Unfinished.sealed]

/-- Elements that were just started have no attributes and no content. -/
theorem mem_fresh {element : Nat} {names : List String} {node : Unfinished}
    (h : node ∈ Unfinished.fresh element names) : node.attrs = [] ∧ node.content = [] := by
  induction names generalizing element with
  | nil => simp [Unfinished.fresh] at h
  | cons name rest ih =>
    rcases List.mem_cons.1 h with rfl | hrest
    · exact ⟨rfl, rfl⟩
    · exact ih hrest

/-- The innermost of new elements has nothing in it. -/
theorem exists_leaf (draft : Draft) {names : List String} (h : names ≠ []) :
    ∃ leaf outer, (Unfinished.fresh draft.nextElement names).reverse = leaf :: outer ∧
      leaf.attrs = [] ∧ leaf.content = [] ∧
        (draft.startAll names).opened = leaf :: (outer ++ draft.opened) := by
  cases hfresh : (Unfinished.fresh draft.nextElement names).reverse with
  | nil =>
    cases names with
    | nil => exact absurd rfl h
    | cons name rest => simp [Unfinished.fresh] at hfresh
  | cons leaf outer =>
    have hmem : leaf ∈ Unfinished.fresh draft.nextElement names := by
      rw [← List.mem_reverse, hfresh]
      exact List.mem_cons_self
    obtain ⟨hattrs, hcontent⟩ := mem_fresh hmem
    refine ⟨leaf, outer, rfl, hattrs, hcontent, ?_⟩
    rw [opened_startAll, hfresh, List.cons_append]

/-- An emission opens what its path lacks, and fills the last of the new elements. -/
theorem opened_emit {emission : Emission} (elements : List Element) {draft : Draft}
    {top : Unfinished} {above deeper : List Unfinished}
    (hopened : draft.opened.reverse = top :: (above ++ deeper))
    (hlevel : Reference.kept draft.cursor emission.path = above.length)
    (hpath : emission.path ≠ []) :
    ∃ (closed : Draft) (leaf : Unfinished) (outer : List Unfinished),
      closed = append (sealAll deeper.reverse []) { draft with opened := (top :: above).reverse } ∧
      (Unfinished.fresh closed.nextElement (emission.path.drop above.length)).reverse =
        leaf :: outer ∧
      (draft.emit emission elements).opened =
        { leaf with
          attrs := emission.template.attrs.entries
          content := Markup.ofElements elements ++ Markup.ofText emission.template.body } ::
            (outer ++ closed.opened) ∧
      (draft.emit emission elements).finished = closed.finished := by
  have hcount : draft.cursor.length - above.length = deeper.reverse.length := by
    rw [cursor_eq hopened]
    simp
  have hdrop : emission.path.drop above.length ≠ [] := by
    rw [← hlevel]
    exact Reference.drop_kept_ne_nil hpath
  let closed := draft.finishTops deeper.reverse.length
  have hclosed := finishTops_eq_append (opened_split hopened)
  obtain ⟨leaf, outer, hfresh, hattrs, hcontent, hmoved⟩ := exists_leaf closed hdrop
  refine ⟨closed, leaf, outer, hclosed, hfresh, ?_, ?_⟩
  · simp [emit, hlevel, hcount, setAttributes, append, skip, closed] at hmoved ⊢
    simp [hmoved, hattrs, hcontent]
  · simp [emit, hlevel, hcount, setAttributes, append, skip, closed] at hmoved ⊢
    simp [hmoved]

/-- A draft in which nothing was written yet follows no emissions. -/
theorem follows_new (root : String) : (new root).Follows root [] :=
  ⟨⟨0, root, [], []⟩, [], rfl, rfl, rfl, rfl, by simp, rfl⟩

/-- A draft goes on following when an emission is written whose names are all valid. -/
theorem Follows.emit {root : String} {emissions : List Emission} {draft : Draft}
    (h : draft.Follows root emissions) {emission : Emission} {elements : List Element}
    (hpath : emission.path ≠ []) (hresolve : emission.template.resolve = .ok elements)
    (hvalid : ∀ name ∈ emission.path, Name.isValid name = true) :
    (draft.emit emission elements).Follows root (emissions ++ [emission]) := by
  obtain ⟨top, spine, hopened, hfinished, hname, hattrs, -, hgrown⟩ := h
  have hcursor := cursor_eq hopened
  let level := Reference.kept draft.cursor emission.path
  let above := spine.take level
  let deeper := spine.drop level
  let chain := Reference.chain emission.template.attrs.entries
    (Markup.ofElements elements ++ Markup.ofText emission.template.body)
    (emission.path.drop level)
  have hspine : above ++ deeper = spine := List.take_append_drop level spine
  have habove : above.length = level := by
    have hle : level ≤ draft.cursor.length := Reference.kept_le draft.cursor emission.path
    rw [hcursor, List.length_map] at hle
    simp [above, hle]
  have htake : above.map Unfinished.name = emission.path.take level := by
    rw [List.map_take, ← hcursor]
    exact Reference.take_kept draft.cursor emission.path
  rw [← hspine] at hopened
  obtain ⟨closed, leaf, outer, hclosed, hfresh, hemitOpened, hemitFinished⟩ :=
    opened_emit elements hopened habove.symm hpath
  have habove' : ({ draft with opened := (top :: above).reverse } : Draft).opened.reverse =
      top :: above := List.reverse_reverse _
  obtain ⟨top', above', hopened', hname', hattrs', hnames', hcontent'⟩ :=
    append_spine (sealAll deeper.reverse []) habove'
  rw [← hclosed] at hopened'
  have hlast := sealAll_fresh _ emission.template.attrs.entries
    (Markup.ofElements elements ++ Markup.ofText emission.template.body) _ hfresh
  have houter : (leaf :: outer).reverse.map Unfinished.name = emission.path.drop level := by
    rw [← hfresh, List.reverse_reverse, Unfinished.map_name_fresh, habove]
  -- the open elements after the emission are those above its level and the new ones
  let filled : Unfinished :=
    { leaf with
      attrs := emission.template.attrs.entries
      content := Markup.ofElements elements ++ Markup.ofText emission.template.body }
  have hspineNames : (above' ++ (filled :: outer).reverse).map Unfinished.name =
      emission.path := by
    have hfilled : (filled :: outer).reverse.map Unfinished.name =
        (leaf :: outer).reverse.map Unfinished.name := by simp [filled]
    rw [List.map_append, hnames', htake, hfilled, houter, List.take_append_drop]
  refine ⟨top', above' ++ (filled :: outer).reverse, ?_, ?_, hname'.trans hname,
    hattrs'.trans hattrs, ?_, ?_⟩
  · rw [hemitOpened, ← List.cons_append, List.reverse_append, hopened', List.cons_append]
  · rw [hemitFinished, hclosed]
    rcases List.eq_nil_or_concat above with hnil | ⟨others, last, hconcat⟩
    · simp [append, hnil, hfinished]
    · simp [append, hconcat, hfinished]
  · intro node hnode
    apply hvalid
    rw [← hspineNames]
    exact List.mem_map_of_mem hnode
  · -- closing what lies below the level and grafting the new chain there come to the same
    have hgraft := graft?_sealAll chain above top.content (sealAll deeper.reverse [])
    have hcontent : top'.content ++ sealAll (above' ++ (filled :: outer).reverse).reverse [] =
        top.content ++ sealAll above.reverse (sealAll deeper.reverse [] ++ chain) := by
      rw [List.reverse_append, List.reverse_reverse, sealAll_append, hlast, habove, hcontent']
    have hbefore : top.content ++ sealAll spine.reverse [] =
        top.content ++ sealAll above.reverse (sealAll deeper.reverse []) := by
      rw [← sealAll_append, ← List.reverse_append, hspine]
    rw [Reference.grown?_concat, hgrown, hcontent, hspineNames, ← hcursor, hbefore]
    rw [htake] at hgraft
    simp [Reference.grow?, hresolve, Except.toOption, level, chain] at hgraft ⊢
    simp [hgraft]

/-- What a draft becomes that follows emissions is their reference document. -/
theorem Follows.tree? {root : String} {emissions : List Emission} {draft : Draft}
    (h : draft.Follows root emissions) :
    ∃ tree, Reference.tree? root emissions = some tree ∧ draft.sealed = [tree] := by
  obtain ⟨top, spine, hopened, hfinished, rfl, hattrs, -, hgrown⟩ := h
  refine ⟨top.sealed (sealAll spine.reverse []), ?_, ?_⟩
  · simp [Reference.tree?, hgrown, Unfinished.sealed, hattrs]
  · rw [sealed, hfinished, opened_eq hopened, ← List.reverse_cons, sealAll_reverse_cons]
    rfl

end Draft

end XmlWorkload
