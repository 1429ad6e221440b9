import XmlWorkload.Proofs.Markup.Reading

/-!
# Texts in a row

Texts that are written one behind the other are written as one text, and read as one.  Joining them
changes nothing about the written form of a tree and nothing about its start tags.  Main statement:
the written form of a tree whose names are names and whose texts can be carried is read, and what is
read is the tree with the texts in a row joined (`Markup.read?_render_of_writable`).
-/

set_option autoImplicit false

namespace XmlWorkload.Markup

open CharacterData (Carries escaped)

mutual

/-- A part of a document can be written: names are names, and texts can be carried and are not
empty. -/
def Writable : Markup → Prop
  | .text body => body ≠ "" ∧ Carries body
  | .element name attrs content =>
    Name.isValid name = true ∧ ReadableAttributes attrs ∧ WritableAll content

/-- Parts of a document in a row can be written. -/
def WritableAll : List Markup → Prop
  | [] => True
  | node :: rest => Writable node ∧ WritableAll rest

end

/-- A part of a document in front of others; two texts that meet become one. -/
def joinTo : Markup → List Markup → List Markup
  | .text first, .text second :: rest => .text (first ++ second) :: rest
  | node, rest => node :: rest

mutual

/-- A part of a document with the texts in a row joined. -/
def joined : Markup → Markup
  | .text body => .text body
  | .element name attrs content => .element name attrs (joinedAll content)

/-- Parts of a document in a row with the texts in a row joined. -/
def joinedAll : List Markup → List Markup
  | [] => []
  | node :: rest => joinTo (joined node) (joinedAll rest)

end

mutual

/-- The start tags of a part of a document, in order: the name of each element with its attributes. -/
def startTags : Markup → List (String × List (String × String))
  | .text _ => []
  | .element name attrs content => (name, attrs) :: startTagsAll content

/-- The start tags of parts of a document in a row. -/
def startTagsAll : List Markup → List (String × List (String × String))
  | [] => []
  | node :: rest => startTags node ++ startTagsAll rest

end

/-- Two rows of nodes that can be written can be written one behind the other. -/
theorem writableAll_append {before behind : List Markup} (hbefore : WritableAll before)
    (hbehind : WritableAll behind) : WritableAll (before ++ behind) := by
  induction before with
  | nil => exact hbehind
  | cons node rest ih => exact ⟨hbefore.1, ih hbefore.2⟩

/-- A text that can be carried can be written. -/
theorem writableAll_ofText {body : String} (h : Carries body) : WritableAll (ofText body) := by
  unfold ofText
  split
  · exact trivial
  · next hne => exact ⟨⟨hne, h⟩, trivial⟩

/-- A text is escaped character by character. -/
theorem escaped_append (first second : String) :
    escaped (first ++ second) = escaped first ++ escaped second := by
  rw [escaped, String.toList_append, List.flatMap_append, String.ofList_append]
  rfl

/-- A node that is joined to others is written in front of them. -/
theorem renderAll_joinTo (node : Markup) (rest : List Markup) :
    renderAll (joinTo node rest) = render node ++ renderAll rest := by
  unfold joinTo
  split
  · next first second rest =>
    rw [renderAll, renderAll, render, render, render, escaped_append, String.append_assoc]
  · rw [renderAll]

/-- A row that a node was joined to is not empty. -/
theorem joinTo_ne_nil (node : Markup) (rest : List Markup) : joinTo node rest ≠ [] := by
  unfold joinTo
  split <;> exact List.cons_ne_nil _ _

/-- A joined row is empty exactly when the row was. -/
theorem isEmpty_joinedAll (nodes : List Markup) : (joinedAll nodes).isEmpty = nodes.isEmpty := by
  cases nodes with
  | nil => rfl
  | cons node rest => simp [joinedAll, joinTo_ne_nil]

mutual

/-- Joining the texts in a row does not change how a part of a document is written. -/
theorem render_joined : ∀ node : Markup, render (joined node) = render node
  | .text body => by rw [joined]
  | .element name attrs content => by
    rw [joined, render, render, isEmpty_joinedAll, renderAll_joinedAll content]

/-- Joining texts that stand side by side leaves what is written as it is. -/
theorem renderAll_joinedAll : ∀ nodes : List Markup, renderAll (joinedAll nodes) = renderAll nodes
  | [] => by rw [joinedAll]
  | node :: rest => by
    rw [joinedAll, renderAll_joinTo, render_joined node, renderAll_joinedAll rest, renderAll]

end

/-- A node that is joined to others has its start tags in front of theirs. -/
theorem startTagsAll_joinTo (node : Markup) (rest : List Markup) :
    startTagsAll (joinTo node rest) = startTags node ++ startTagsAll rest := by
  unfold joinTo
  split
  · rfl
  · rw [startTagsAll]

mutual

/-- Joining the texts in a row does not change the start tags of a part of a document. -/
theorem startTags_joined : ∀ node : Markup, startTags (joined node) = startTags node
  | .text body => by rw [joined]
  | .element name attrs content => by
    rw [joined, startTags, startTags, startTagsAll_joinedAll content]

/-- Joining texts that stand side by side leaves the start tags as they are. -/
theorem startTagsAll_joinedAll : ∀ nodes : List Markup,
    startTagsAll (joinedAll nodes) = startTagsAll nodes
  | [] => by rw [joinedAll]
  | node :: rest => by
    rw [joinedAll, startTagsAll_joinTo, startTags_joined node, startTagsAll_joinedAll rest,
      startTagsAll]

end

/-- A readable node that is joined to readable ones makes a readable row. -/
theorem readableAll_joinTo {node : Markup} {rest : List Markup} (hnode : Readable node)
    (hrest : ReadableAll rest) : ReadableAll (joinTo node rest) := by
  cases node with
  | element name attrs content => exact ⟨hnode, fun htext => htext.elim, hrest⟩
  | text first =>
    cases rest with
    | nil => exact ⟨hnode, fun _ _ hnext => (nomatch hnext), trivial⟩
    | cons next more =>
      cases next with
      | element name attrs content =>
        refine ⟨hnode, fun _ other hother => ?_, hrest⟩
        cases hother
        exact id
      | text second =>
        -- the two become one, and what stood apart from the second stands apart from it
        obtain ⟨⟨-, hsecond⟩, hapart, hmore⟩ := hrest
        refine ⟨⟨?_, ?_⟩, fun _ => hapart trivial, hmore⟩
        · intro hempty
          exact hnode.1 (String.append_eq_empty_iff.1 hempty).1
        · intro c hc
          rw [String.toList_append, List.mem_append] at hc
          exact hc.elim (hnode.2 c) (hsecond c)

mutual

/-- A part of a document that can be written can be read back once its texts in a row are joined. -/
theorem readable_joined : ∀ node : Markup, Writable node → Readable (joined node)
  | .text body, h => by
    rw [joined]
    exact h
  | .element name attrs content, h => by
    rw [joined]
    exact ⟨h.1, h.2.1, readableAll_joinedAll content h.2.2⟩

/-- A row that can be written can be read back once its texts are joined. -/
theorem readableAll_joinedAll : ∀ nodes : List Markup, WritableAll nodes →
    ReadableAll (joinedAll nodes)
  | [], _ => by
    rw [joinedAll]
    exact trivial
  | node :: rest, h => by
    rw [joinedAll]
    exact readableAll_joinTo (readable_joined node h.1) (readableAll_joinedAll rest h.2)

end

/-- Reading a document that was written, with a declaration in front of it or without, gives the
document with its texts in a row joined. -/
theorem read?_render_of_writable {name : String} {attrs : List (String × String)}
    {content : List Markup} (h : Writable (.element name attrs content)) (declared : Bool) :
    read? (Reference.prologue declared ++ render (.element name attrs content)) =
      some (joined (.element name attrs content)) := by
  have hread := readable_joined _ h
  rw [← render_joined]
  rw [joined] at hread ⊢
  exact read?_render hread declared

end XmlWorkload.Markup
