import Mathlib.Data.List.Nodup
import XmlWorkload.Template.Basic

/-!
# The places of texts

A text of a template stands at a place: on a way through its children, which says at each branching
which part to take, or among its attributes, or behind everything.  The places are ordered as the
texts are read, depth first and in the order of declaration.  Main statements: a template has a list
of its places in this order (`Template.mem_places_iff`, `Template.pairwise_places`), and its names,
its nesting and the texts at its places are all that there is to it (`Template.eq_of_textAt?`).
-/

set_option autoImplicit false

namespace XmlWorkload

/-- The names and the values in order are all that there is to a map. -/
theorem OrderedMap.eq_of_names_of_values {α : Type} {map other : OrderedMap α}
    (hnames : map.names = other.names)
    (hvalues : map.entries.map Prod.snd = other.entries.map Prod.snd) : map = other := by
  rw [names_eq, names_eq] at hnames
  exact ext ((List.zip_of_prod hnames hvalues).trans (List.zip_of_prod rfl rfl).symm)

namespace Content

/-- What a description is, apart from texts and from what stands inside it. -/
inductive Form where
  | text
  | map (names : List String)
  | sequence (length : Nat)
  deriving DecidableEq, Repr

/-- The number of parts that there are in a form. -/
def Form.size : Form → Nat
  | .text => 0
  | .map names => names.length
  | .sequence length => length

/-- The form of a description. -/
def form : Content → Form
  | .scalar _ => .text
  | .map members => .map members.names
  | .sequence items => .sequence items.length

/-- The descriptions right inside a description, in the order of declaration. -/
def parts : Content → List Content
  | .scalar _ => []
  | .map members => members.entries.map Prod.snd
  | .sequence items => items

/-- The description that a way leads to.  Each position on the way is that of a part of what the
positions before it lead to. -/
def at? : (way : List Nat) → Content → Option Content
  | [], content => some content
  | position :: way, content => content.parts[position]?.bind (at? way)

/-- The form of the description that a way leads to. -/
def formAt? (content : Content) (way : List Nat) : Option Form := (content.at? way).map form

/-- The text that a way leads to. -/
def textAt? (content : Content) (way : List Nat) : Option String := (content.at? way).bind text?

mutual

/-- The ways to the texts of a description, in the order of declaration. -/
def ways : Content → List (List Nat)
  | .scalar _ => [[]]
  | .map ⟨entries⟩ => waysOfEntries 0 entries
  | .sequence items => waysOfItems 0 items

/-- The ways to the texts in the values of entries, of which the first has the given position. -/
def waysOfEntries : (position : Nat) → {names : List String} → Entries Content names →
    List (List Nat)
  | _, _, .nil => []
  | position, _, .cons _ value _ rest =>
    (ways value).map (position :: ·) ++ waysOfEntries (position + 1) rest

/-- The ways to the texts in items, of which the first has the given position. -/
def waysOfItems : (position : Nat) → List Content → List (List Nat)
  | _, [] => []
  | position, item :: rest =>
    (ways item).map (position :: ·) ++ waysOfItems (position + 1) rest

end

/-- What holds of texts, and of any other description if it holds of its parts, holds of every
description. -/
@[elab_as_elim]
theorem inductionOnParts {motive : Content → Prop} (text : ∀ text, motive (.scalar text))
    (inner : ∀ content : Content, content.text? = none →
      (∀ part ∈ content.parts, motive part) → motive content)
    (content : Content) : motive content :=
  -- descriptions stand inside maps, lists and entries, and the parts are those of the rows
  @rec motive (fun members => ∀ part ∈ members.entries.map Prod.snd, motive part)
    (fun items => ∀ part ∈ items, motive part)
    (fun _ entries => ∀ part ∈ entries.toList.map Prod.snd, motive part)
    text (fun members => inner (.map members) rfl) (fun items => inner (.sequence items) rfl)
    (fun _ hvalues => hvalues)
    (List.forall_mem_nil _) (fun _ _ hitem hitems => List.forall_mem_cons.2 ⟨hitem, hitems⟩)
    (List.forall_mem_nil _)
    (fun _ _ _ _ hvalue hvalues => List.forall_mem_cons.2 ⟨hvalue, hvalues⟩) content

/-- The text at the top of a content is that of the content. -/
@[simp] theorem textAt?_nil (content : Content) : content.textAt? [] = content.text? := rfl

/-- A text further down is found in the part on the way. -/
theorem textAt?_cons (content : Content) (position : Nat) (way : List Nat) :
    content.textAt? (position :: way) =
      content.parts[position]?.bind fun part => part.textAt? way := by
  rw [textAt?, at?, Option.bind_assoc]
  rfl

/-- A form further down is found in the part on the way. -/
theorem formAt?_cons (content : Content) (position : Nat) (way : List Nat) :
    content.formAt? (position :: way) =
      content.parts[position]?.bind fun part => part.formAt? way := by
  rw [formAt?, at?, Option.map_bind]
  rfl

/-- There is a text exactly where the form is that of one. -/
theorem isSome_textAt?_iff (content : Content) (way : List Nat) :
    (content.textAt? way).isSome ↔ content.formAt? way = some .text := by
  rw [textAt?, formAt?]
  cases content.at? way with
  | none => simp
  | some found => cases found <;> simp [text?, form]

/-- A content has as many parts as its form says. -/
theorem length_parts (content : Content) : content.parts.length = content.form.size := by
  cases content with
  | scalar text => rfl
  | map members =>
    show (members.entries.map Prod.snd).length = members.names.length
    rw [members.names_eq, List.length_map, List.length_map]
  | sequence items => rfl

/-- The form and the parts are all that there is to a description that is no text. -/
theorem eq_of_form_of_parts {content other : Content} (hinner : content.text? = none)
    (hform : content.form = other.form) (hparts : content.parts = other.parts) :
    content = other := by
  cases content with
  | scalar text => cases hinner
  | map members =>
    obtain _ | members' | _ := other
    · cases hform
    · exact congrArg Content.map (OrderedMap.eq_of_names_of_values (Form.map.inj hform) hparts)
    · cases hform
  | sequence items =>
    obtain _ | _ | items' := other
    · cases hform
    · cases hform
    · exact congrArg Content.sequence hparts

/-- The forms and the texts along all ways are all that there is to a description. -/
theorem eq_of_textAt? (content : Content) : ∀ {other : Content},
    (∀ way, content.formAt? way = other.formAt? way) →
    (∀ way, content.textAt? way = other.textAt? way) → content = other := by
  induction content using inductionOnParts with
  | text body =>
    intro other _ htext
    have hbody : some body = other.text? := htext []
    obtain body' | _ | _ := other
    · exact congrArg Content.scalar (Option.some_inj.1 hbody)
    · cases hbody
    · cases hbody
  | inner content hinner ih =>
    intro other hform htext
    have hown : content.form = other.form := Option.some_inj.1 (hform [])
    have hlength : content.parts.length = other.parts.length := by
      rw [length_parts, length_parts, hown]
    refine eq_of_form_of_parts hinner hown (List.ext_getElem hlength fun position hlt hlt' => ?_)
    refine ih _ (List.getElem_mem hlt) (fun way => ?_) fun way => ?_
    · simpa [formAt?_cons, hlt, hlt'] using hform (position :: way)
    · simpa [textAt?_cons, hlt, hlt'] using htext (position :: way)

/-- The ways into entries are those into their values. -/
theorem waysOfEntries_eq (position : Nat) {names : List String} (entries : Entries Content names) :
    waysOfEntries position entries = waysOfItems position (entries.toList.map Prod.snd) := by
  induction entries generalizing position with
  | nil => rfl
  | cons name value fresh rest ih =>
    rw [waysOfEntries, Entries.toList, List.map_cons, waysOfItems, ih]

/-- The ways through a description that is no text begin with the position of a part. -/
theorem ways_of_inner {content : Content} (hinner : content.text? = none) :
    content.ways = waysOfItems 0 content.parts := by
  rcases content with _ | ⟨⟨entries⟩⟩ | items
  · cases hinner
  · exact waysOfEntries_eq 0 entries
  · rfl

/-- A way into items leads to one of them and from there into it. -/
theorem mem_waysOfItems_iff {position : Nat} {items : List Content} {way : List Nat} :
    way ∈ waysOfItems position items ↔ ∃ index item rest,
      items[index]? = some item ∧ rest ∈ item.ways ∧ way = (position + index) :: rest := by
  induction items generalizing position with
  | nil => simp [waysOfItems]
  | cons item items ih =>
    rw [waysOfItems, List.mem_append, List.mem_map, ih]
    constructor
    · rintro (⟨rest, hrest, rfl⟩ | ⟨index, found, rest, hfound, hrest, rfl⟩)
      · exact ⟨0, item, rest, rfl, hrest, rfl⟩
      · exact ⟨index + 1, found, rest, hfound, hrest, by rw [Nat.add_assoc, Nat.add_comm 1]⟩
    · rintro ⟨_ | index, found, rest, hfound, hrest, rfl⟩
      · cases hfound
        exact .inl ⟨rest, hrest, rfl⟩
      · exact .inr ⟨index, found, rest, hfound, hrest, by rw [Nat.add_assoc, Nat.add_comm 1]⟩

/-- The ways of a description are those that lead to its texts. -/
theorem mem_ways_iff (content : Content) : ∀ {way : List Nat},
    way ∈ content.ways ↔ (content.textAt? way).isSome := by
  induction content using inductionOnParts with
  | text body =>
    intro way
    cases way <;> simp [ways, textAt?_cons, text?, parts]
  | inner content hinner ih =>
    intro way
    rw [ways_of_inner hinner, mem_waysOfItems_iff]
    cases way with
    | nil => simp [hinner]
    | cons position way =>
      simp only [Nat.zero_add, List.cons.injEq, textAt?_cons, Option.isSome_iff_exists,
        Option.bind_eq_some_iff]
      constructor
      · rintro ⟨_, item, _, hitem, hrest, rfl, rfl⟩
        obtain ⟨body, hbody⟩ :=
          Option.isSome_iff_exists.1 ((ih item (List.mem_of_getElem? hitem)).1 hrest)
        exact ⟨body, item, hitem, hbody⟩
      · rintro ⟨body, item, hitem, hbody⟩
        have hsome : (item.textAt? way).isSome := Option.isSome_iff_exists.2 ⟨body, hbody⟩
        have hrest := (ih item (List.mem_of_getElem? hitem)).2 hsome
        exact ⟨position, item, way, hitem, hrest, rfl, rfl⟩

/-- The ways into items ascend when those into each of them do. -/
theorem pairwise_waysOfItems {items : List Content}
    (h : ∀ item ∈ items, item.ways.Pairwise (· < ·)) (position : Nat) :
    (waysOfItems position items).Pairwise (· < ·) := by
  induction items generalizing position with
  | nil => exact .nil
  | cons item items ih =>
    obtain ⟨hitem, hitems⟩ := List.forall_mem_cons.1 h
    rw [waysOfItems, List.pairwise_append]
    refine ⟨?_, ih hitems _, ?_⟩
    · rw [List.pairwise_map]
      exact hitem.imp fun hlt => List.cons_lt_cons_iff.2 (.inr ⟨rfl, hlt⟩)
    · -- what begins with an earlier position comes first
      intro way hway later hlater
      obtain ⟨rest, -, rfl⟩ := List.mem_map.1 hway
      obtain ⟨index, -, behind, -, -, rfl⟩ := mem_waysOfItems_iff.1 hlater
      exact List.cons_lt_cons_iff.2 (.inl (by omega))

/-- The ways of a description are in order, so that none is there twice. -/
theorem pairwise_ways (content : Content) : content.ways.Pairwise (· < ·) := by
  induction content using inductionOnParts with
  | text body => exact List.pairwise_singleton _ _
  | inner content hinner ih =>
    rw [ways_of_inner hinner]
    exact pairwise_waysOfItems ih 0

end Content

namespace Template

/-- Where a text of a template may stand. -/
inductive Place where
  /-- At the end of a way through the children, which begins with the position of a child. -/
  | child (way : List Nat)
  /-- As the value of the attribute at a position. -/
  | value (position : Nat)
  | body
  deriving DecidableEq, Repr

/-- The order of places: the children come first, then the attributes, then the body.  Ways are
compared at the first branching where they part. -/
def Place.Before : Place → Place → Prop
  | .child way, .child other => way < other
  | .child _, _ => True
  | .value position, .value other => position < other
  | .value _, .body => True
  | _, _ => False

/-- No place is before itself. -/
theorem Place.Before.irrefl (place : Place) : ¬ place.Before place := by
  cases place with
  | child way => exact List.lt_irrefl way
  | value position => exact Nat.lt_irrefl position
  | body => exact id

/-- Of two places at most one is before the other. -/
theorem Place.Before.asymm {place other : Place} (h : place.Before other) :
    ¬ other.Before place := by
  cases place <;> cases other <;> simp only [Place.Before, not_false_eq_true] at *
  · exact List.lt_asymm h
  · exact Nat.lt_asymm h

/-- The text at a place. -/
def textAt? (template : Template) : Place → Option String
  | .child way => (Content.map template.children).textAt? way
  | .value position => template.attrs.entries[position]?.map Prod.snd
  | .body => some template.body

/-- The places of the texts of a template, in order. -/
def places (template : Template) : List Place :=
  (Content.map template.children).ways.map .child ++
    ((List.range' 0 template.attrs.entries.length).map .value ++ [.body])

/-- The places of a template are those where it has a text. -/
theorem mem_places_iff (template : Template) (place : Place) :
    place ∈ template.places ↔ (template.textAt? place).isSome := by
  cases place with
  | child way => simp [places, textAt?, Content.mem_ways_iff]
  | value position => simp [places, textAt?]
  | body => simp [places, textAt?]

/-- The places of a template are listed in their order. -/
theorem pairwise_places (template : Template) : template.places.Pairwise Place.Before := by
  rw [places, List.pairwise_append, List.pairwise_append]
  refine ⟨?children, ⟨?values, List.pairwise_singleton _ _, ?body⟩, ?behind⟩
  case children => exact List.pairwise_map.2 (Content.pairwise_ways _)
  case values => exact List.pairwise_map.2 (List.pairwise_lt_range' 1)
  case body => simp [Place.Before]
  case behind =>
    simp only [List.mem_map, List.mem_append, List.mem_singleton]
    rintro _ ⟨way, -, rfl⟩ _ (⟨position, -, rfl⟩ | rfl) <;> exact trivial

/-- The names and the nesting of two templates are the same. -/
structure SameForm (template other : Template) : Prop where
  children : ∀ way,
    (Content.map template.children).formAt? way = (Content.map other.children).formAt? way
  attrs : template.attrs.names = other.attrs.names

/-- Templates of the same form have texts at the same places. -/
theorem SameForm.isSome_textAt? {template other : Template} (h : SameForm template other)
    (place : Place) : (template.textAt? place).isSome ↔ (other.textAt? place).isSome := by
  cases place with
  | child way =>
    rw [textAt?, textAt?, Content.isSome_textAt?_iff, Content.isSome_textAt?_iff, h.children]
  | value position =>
    have hlength := congrArg List.length h.attrs
    simp_all [textAt?, OrderedMap.names_eq]
  | body => exact Iff.rfl

/-- The names, the nesting and the texts at all places are all that there is to a template. -/
theorem eq_of_textAt? {template other : Template} (h : SameForm template other)
    (htext : ∀ place, template.textAt? place = other.textAt? place) : template = other := by
  obtain ⟨children, attrs, body⟩ := template
  obtain ⟨children', attrs', body'⟩ := other
  have hchildren : Content.map children = .map children' :=
    Content.eq_of_textAt? _ h.children fun way => htext (.child way)
  have hvalues : attrs.entries.map Prod.snd = attrs'.entries.map Prod.snd :=
    List.ext_getElem? fun position => by simpa [textAt?] using htext (.value position)
  have hattrs : attrs = attrs' := OrderedMap.eq_of_names_of_values h.attrs hvalues
  have hbody : body = body' := Option.some_inj.1 (htext .body)
  cases hchildren
  rw [hattrs, hbody]

end Template

end XmlWorkload
