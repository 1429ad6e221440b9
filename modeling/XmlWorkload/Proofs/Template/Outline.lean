import XmlWorkload.Proofs.Template.Depth
import XmlWorkload.Proofs.Template.Refilling

/-!
# The outline of resolved elements

The outline of an element are its name, the names of its attributes and the outlines of its children,
all in order.  A template resolves to elements whose outlines can be read off the declared content as
it stands, by recursion on it: repetitions are carried out on copies with other texts, but no text
has a part in an outline.  Resolving a template with a limit on the depth of its calls shows that it
comes to an end.  Main statement: `Template.outlines_of_resolve`.
-/

set_option autoImplicit false

namespace XmlWorkload

/-- The names of an element, of its attributes and of what stands inside it, without any text. -/
inductive Outline where
  | mk (name : String) (attributes : List String) (children : List Outline)
  deriving Inhabited

namespace Element

mutual

/-- The outline of an element. -/
def outline : Element → Outline
  | .mk name attrs children _ => .mk name (attrs.map Prod.fst) (outlines children)

/-- The outlines of elements in a row. -/
def outlines : List Element → List Outline
  | [] => []
  | element :: rest => outline element :: outlines rest

end

/-- The outlines of elements are those of each of them. -/
theorem outlines_eq_map (elements : List Element) : outlines elements = elements.map outline := by
  induction elements with
  | nil => rfl
  | cons element rest ih => rw [outlines, ih, List.map_cons]

end Element

namespace Content

/-- The number of items of a repetition clause. -/
def itemCount : Content → Nat
  | .sequence [_, .sequence items] => items.length
  | _ => 0

/-- The number of elements that a map stands for, given those so far and one more entry: one for each
item if the entry repeats the element. -/
def countWith (count : Nat) (entry : String × Content) : Nat :=
  if Keyword.ofLabel? entry.1 = some .foreach then itemCount entry.2 else count

/-- The names under which a map holds its members. -/
def memberNames : Content → List String
  | .map members => members.names
  | _ => []

/-- The names of the attributes of an element, given those so far and one more entry of its map. -/
def attributesWith (names : List String) (entry : String × Content) : List String :=
  if Keyword.ofLabel? entry.1 = some .attrs then memberNames entry.2 else names

mutual

/-- The outlines of the elements that a description stands for under a name: one for a text, those of
its entries for a sequence, and for a map as many as its repetition has items. -/
def outlines (name : String) : Content → List Outline
  | .scalar _ => [.mk name [] []]
  | .map ⟨entries⟩ =>
    .replicate (entries.toList.foldl countWith 1)
      (.mk name (entries.toList.foldl attributesWith []) (outlinesDeclared entries))
  | .sequence items => outlinesOfItems name items

/-- The outlines of the children that a map declares. -/
def outlinesDeclared {names : List String} : Entries Content names → List Outline
  | .nil => []
  | .cons name value _ rest =>
    match Keyword.ofLabel? name with
    | some .children => outlinesInside value ++ outlinesDeclared rest
    | some _ => outlinesDeclared rest
    | none => outlines name value ++ outlinesDeclared rest

/-- The outlines of the members of a map. -/
def outlinesInside : Content → List Outline
  | .map ⟨members⟩ => outlinesUnder members
  | _ => []

/-- The outlines of the members that a map holds, each under its own name. -/
def outlinesUnder {names : List String} : Entries Content names → List Outline
  | .nil => []
  | .cons name value _ rest => outlines name value ++ outlinesUnder rest

/-- The outlines of items under a common name. -/
def outlinesOfItems (name : String) : List Content → List Outline
  | [] => []
  | item :: rest => outlines name item ++ outlinesOfItems name rest

end

/-- The outlines of the children that entries declare. -/
def outlinesOfEntries : List (String × Content) → List Outline
  | [] => []
  | (name, value) :: rest =>
    match Keyword.ofLabel? name with
    | some .children => outlinesInside value ++ outlinesOfEntries rest
    | some _ => outlinesOfEntries rest
    | none => outlines name value ++ outlinesOfEntries rest

/-- The outlines of members, each under its own name. -/
def outlinesOfMembers : List (String × Content) → List Outline
  | [] => []
  | (name, value) :: rest => outlines name value ++ outlinesOfMembers rest

/-- The outlines that entries declare are those of their list. -/
theorem outlinesDeclared_eq {names : List String} (entries : Entries Content names) :
    outlinesDeclared entries = outlinesOfEntries entries.toList := by
  induction entries with
  | nil => rfl
  | cons name value fresh rest ih =>
    rw [outlinesDeclared, Entries.toList, outlinesOfEntries, ih]

/-- The outlines under entries are those of their list. -/
theorem outlinesUnder_eq {names : List String} (entries : Entries Content names) :
    outlinesUnder entries = outlinesOfMembers entries.toList := by
  induction entries with
  | nil => rfl
  | cons name value fresh rest ih =>
    rw [outlinesUnder, Entries.toList, outlinesOfMembers, ih]

/-- The outlines of the elements that a map stands for can be read off its entries. -/
theorem outlines_map (name : String) (members : ContentMap) :
    (Content.map members).outlines name = .replicate (members.entries.foldl countWith 1)
      (.mk name (members.entries.foldl attributesWith []) (outlinesOfEntries members.entries)) := by
  rw [outlines, outlinesDeclared_eq]
  rfl

/-- The outlines inside of a map are those of its entries. -/
theorem outlinesInside_map (members : ContentMap) :
    (Content.map members).outlinesInside = outlinesOfMembers members.entries :=
  outlinesUnder_eq members.held

/-- The outlines of two rows of members are those of the first and those of the second. -/
theorem outlinesOfMembers_append (first second : List (String × Content)) :
    outlinesOfMembers (first ++ second) = outlinesOfMembers first ++ outlinesOfMembers second := by
  induction first with
  | nil => rfl
  | cons entry rest ih =>
    rw [List.cons_append, outlinesOfMembers, ih, outlinesOfMembers, List.append_assoc]

/-- The outlines of entries are those of the first one and those of the rest. -/
theorem outlinesOfEntries_cons (entry : String × Content) (rest : List (String × Content)) :
    outlinesOfEntries (entry :: rest) = outlinesOfEntries [entry] ++ outlinesOfEntries rest := by
  obtain ⟨name, value⟩ := entry
  simp only [outlinesOfEntries]
  split <;> simp

section Texts

variable (f : String → String)

/-- Rewriting items keeps their number. -/
theorem length_mapItemsM (items : List Content) :
    (mapItemsM (m := Id) f items).length = items.length := by
  induction items with
  | nil => rfl
  | cons item rest ih => exact congrArg Nat.succ ih

/-- Rewriting a content keeps the number of its items. -/
theorem itemCount_mapText (content : Content) : (content.mapText f).itemCount = content.itemCount := by
  rcases content with _ | ⟨_⟩ | ⟨_ | ⟨_, _ | ⟨_ | ⟨_⟩ | items, _ | _⟩⟩⟩
  all_goals first | exact length_mapItemsM f items | rfl

/-- Rewriting a content keeps the names of its members. -/
theorem memberNames_mapText (content : Content) :
    (content.mapText f).memberNames = content.memberNames := by
  rcases content with _ | ⟨⟨entries⟩⟩ | _ <;> rfl

/-- Rewriting a content keeps how often its element is repeated. -/
theorem countWith_mapText (count : Nat) (name : String) (content : Content) :
    countWith count (name, content.mapText f) = countWith count (name, content) := by
  rw [countWith, countWith, itemCount_mapText]

/-- Rewriting a content keeps the names of its attributes. -/
theorem attributesWith_mapText (names : List String) (name : String) (content : Content) :
    attributesWith names (name, content.mapText f) = attributesWith names (name, content) := by
  rw [attributesWith, attributesWith, memberNames_mapText]

/-- What the entries of a map say about the number of elements and the names of their attributes does
not depend on texts. -/
theorem foldl_mapText {α : Type} (step : α → String × Content → α)
    (hstep : ∀ value name content, step value (name, content.mapText f) = step value (name, content))
    (members : ContentMap) (start : α) :
    (members.mapText f).entries.foldl step start = members.entries.foldl step start := by
  rw [ContentMap.entries_mapText, List.foldl_map]
  exact congrArg (List.foldl · start members.entries)
    (funext fun value => funext fun entry => hstep value entry.1 entry.2)

mutual

/-- Replacing texts leaves outlines as they are. -/
theorem outlines_mapText (name : String) : ∀ content : Content,
    (content.mapText f).outlines name = content.outlines name
  | .scalar _ => rfl
  | .map ⟨entries⟩ => by
    have hcount := foldl_mapText f countWith (countWith_mapText f) ⟨entries⟩ 1
    have hnames := foldl_mapText f attributesWith (attributesWith_mapText f) ⟨entries⟩ []
    have hdeclared := outlinesDeclared_mapText entries
    show List.replicate ((ContentMap.mapText f ⟨entries⟩).entries.foldl countWith 1)
      (Outline.mk name ((ContentMap.mapText f ⟨entries⟩).entries.foldl attributesWith [])
        (outlinesDeclared (mapEntriesM (m := Id) f entries))) = _
    rw [hcount, hnames, hdeclared]
    rfl
  | .sequence items => outlinesOfItems_mapText name items

/-- Rewriting entries keeps the outlines that they declare. -/
theorem outlinesDeclared_mapText : ∀ {names : List String} (entries : Entries Content names),
    outlinesDeclared (mapEntriesM (m := Id) f entries) = outlinesDeclared entries
  | _, .nil => rfl
  | _, .cons name value fresh rest => by
    have hcons : mapEntriesM (m := Id) f (.cons name value fresh rest) =
        .cons name (value.mapText f) fresh (mapEntriesM (m := Id) f rest) := rfl
    rw [hcons, outlinesDeclared, outlinesDeclared, outlinesDeclared_mapText rest,
      outlinesInside_mapText value, outlines_mapText name value]

/-- Rewriting a content keeps the outlines inside of it. -/
theorem outlinesInside_mapText : ∀ content : Content,
    (content.mapText f).outlinesInside = content.outlinesInside
  | .scalar _ => rfl
  | .map ⟨entries⟩ => outlinesUnder_mapText entries
  | .sequence _ => rfl

/-- Rewriting entries keeps the outlines under them. -/
theorem outlinesUnder_mapText : ∀ {names : List String} (entries : Entries Content names),
    outlinesUnder (mapEntriesM (m := Id) f entries) = outlinesUnder entries
  | _, .nil => rfl
  | _, .cons name value fresh rest => by
    have hcons : mapEntriesM (m := Id) f (.cons name value fresh rest) =
        .cons name (value.mapText f) fresh (mapEntriesM (m := Id) f rest) := rfl
    rw [hcons, outlinesUnder, outlinesUnder, outlinesUnder_mapText rest, outlines_mapText name value]

/-- Rewriting items keeps their outlines. -/
theorem outlinesOfItems_mapText (name : String) : ∀ items : List Content,
    outlinesOfItems name (mapItemsM (m := Id) f items) = outlinesOfItems name items
  | [] => rfl
  | item :: rest => by
    have hcons : mapItemsM (m := Id) f (item :: rest) =
        item.mapText f :: mapItemsM (m := Id) f rest := rfl
    rw [hcons, outlinesOfItems, outlinesOfItems, outlinesOfItems_mapText name rest,
      outlines_mapText name item]

end

/-- Replacing texts leaves the outlines of members as they are. -/
theorem outlinesOfMembers_mapText (members : ContentMap) :
    outlinesOfMembers (members.mapText f).entries = outlinesOfMembers members.entries := by
  rw [← outlinesInside_map, ← outlinesInside_map]
  exact outlinesInside_mapText f (.map members)

end Texts

end Content

/-- As many texts are read as there are items. -/
theorem Repetition.length_texts? : ∀ {items : List Content} {texts : List String},
    texts? items = some texts → texts.length = items.length
  | [], texts, h => by
    cases h
    rfl
  | item :: rest, texts, h => by
    obtain ⟨text, -, h⟩ := Option.bind_eq_some_iff.1 h
    obtain ⟨others, hothers, hsome⟩ := Option.bind_eq_some_iff.1 h
    cases hsome
    rw [List.length_cons, length_texts? hothers, List.length_cons]

/-- A repetition has as many items as its clause. -/
theorem Repetition.length_items_of_parse {clause : Content} {repetition : Repetition}
    (h : parse clause = .ok repetition) : repetition.items.length = clause.itemCount := by
  have hclause : parseClause clause = .ok repetition := by
    unfold parse at h
    cases hresult : parseClause clause with
    | error fault =>
      rw [hresult] at h
      cases h
    | ok value =>
      rw [hresult] at h
      cases h
      rfl
  obtain ⟨items, rfl, -, -, htexts⟩ := of_parseClause hclause
  exact length_texts? htexts

namespace Template

open Content (outlinesOfMembers outlinesOfEntries countWith attributesWith)

/-- The number of elements that a description stands for. -/
def Description.count (description : Description) : Nat :=
  (description.repetition.map fun repetition => repetition.items.length).getD 1

/-- A description stands for so many elements, each with attributes of the given names and children
of the given outlines. -/
structure Description.Outlined (description : Description) (count : Nat) (names : List String)
    (children : List Outline) : Prop where
  count : description.count = count
  names : description.template.attrs.names = names
  children : outlinesOfMembers description.template.children.entries = children

/-- Attributes have the names of the members that they are read from. -/
theorem names_attributesOf {value : Content} {attrs : OrderedMap String}
    (h : attributesOf value = .ok attrs) : attrs.names = value.memberNames := by
  cases value with
  | map members =>
    obtain ⟨held, -, hok⟩ := bind_eq_ok_iff.1 h
    cases hok
    rfl
  | scalar text => cases h
  | sequence items => cases h

/-- A child that is added brings its outlines behind the others, and keeps the attributes. -/
theorem outlines_addChild {template result : Template} {name : String} {value : Content}
    (h : template.addChild name value = .ok result) :
    result.attrs = template.attrs ∧
      outlinesOfMembers result.children.entries =
        outlinesOfMembers template.children.entries ++ value.outlines name := by
  unfold addChild at h
  split at h
  · cases h
  · next hfree =>
    cases h
    refine ⟨rfl, ?_⟩
    have hname := mt (OrderedMap.contains_iff_mem_names template.children name).2 hfree
    rw [OrderedMap.names_eq] at hname
    rw [OrderedMap.entries_insert, OrderedMap.insertEntry_of_not_mem value hname,
      Content.outlinesOfMembers_append, outlinesOfMembers, outlinesOfMembers, List.append_nil]

/-- Children that are added bring their outlines behind the others, and keep the attributes. -/
theorem outlines_addChildren : ∀ {entries : List (String × Content)} {template result : Template},
    template.addChildren entries = .ok result →
    result.attrs = template.attrs ∧
      outlinesOfMembers result.children.entries =
        outlinesOfMembers template.children.entries ++ outlinesOfMembers entries
  | [], template, result, h => by
    cases h
    exact ⟨rfl, (List.append_nil _).symm⟩
  | (name, value) :: rest, template, result, h => by
    obtain ⟨middle, hmiddle, hrest⟩ := bind_eq_ok_iff.1 h
    obtain ⟨hattrs, hchildren⟩ := outlines_addChild hmiddle
    obtain ⟨hattrs', hchildren'⟩ := outlines_addChildren hrest
    refine ⟨hattrs'.trans hattrs, ?_⟩
    rw [hchildren', hchildren, outlinesOfMembers, List.append_assoc]

section Describing

variable {description result : Description} {count : Nat} {names : List String}
  {children : List Outline}

/-- An entry that is taken in brings its outline. -/
theorem Description.Outlined.addEntry (h : description.Outlined count names children)
    {name : String} {value : Content} (hadd : description.addEntry name value = .ok result) :
    result.Outlined (countWith count (name, value)) (attributesWith names (name, value))
      (children ++ outlinesOfEntries [(name, value)]) := by
  have hentry : outlinesOfEntries [(name, value)] = match Keyword.ofLabel? name with
      | some .children => value.outlinesInside
      | some _ => []
      | none => value.outlines name := by
    rw [outlinesOfEntries]
    split <;> simp [outlinesOfEntries]
  rw [hentry]
  unfold Description.addEntry at hadd
  unfold countWith attributesWith
  cases hkeyword : Keyword.ofLabel? name with
  | none =>
    rw [hkeyword] at hadd
    obtain ⟨template, htemplate, hok⟩ := bind_eq_ok_iff.1 hadd
    cases hok
    obtain ⟨hattrs, hchildren⟩ := outlines_addChild htemplate
    exact ⟨h.count, (congrArg OrderedMap.names hattrs).trans h.names, by rw [hchildren, h.children]⟩
  | some keyword =>
    rw [hkeyword] at hadd
    cases keyword with
    | children =>
      cases value with
      | map members =>
        obtain ⟨template, htemplate, hok⟩ := bind_eq_ok_iff.1 hadd
        cases hok
        obtain ⟨hattrs, hchildren⟩ := outlines_addChildren htemplate
        refine ⟨h.count, (congrArg OrderedMap.names hattrs).trans h.names, ?_⟩
        rw [hchildren, h.children]
        exact congrArg (children ++ ·) (Content.outlinesInside_map members).symm
      | scalar text => cases hadd
      | sequence items => cases hadd
    | attrs =>
      obtain ⟨attrs, hattrs, hok⟩ := bind_eq_ok_iff.1 hadd
      cases hok
      exact ⟨h.count, names_attributesOf hattrs, by rw [h.children, List.append_nil]⟩
    | body =>
      cases value with
      | scalar text =>
        cases hadd
        exact ⟨h.count, h.names, by rw [h.children, List.append_nil]⟩
      | map members => cases hadd
      | sequence items => cases hadd
    | foreach =>
      obtain ⟨repetition, hparse, hok⟩ := bind_eq_ok_iff.1 hadd
      cases hok
      exact ⟨Repetition.length_items_of_parse hparse, h.names, by rw [h.children, List.append_nil]⟩

/-- Entries that are taken in bring their outlines, one after the other. -/
theorem Description.Outlined.addEntries {entries : List (String × Content)}
    (h : description.Outlined count names children)
    (hadd : description.addEntries entries = .ok result) :
    result.Outlined (entries.foldl countWith count) (entries.foldl attributesWith names)
      (children ++ outlinesOfEntries entries) := by
  induction entries generalizing description count names children with
  | nil =>
    cases hadd
    rwa [outlinesOfEntries, List.append_nil]
  | cons entry rest ih =>
    obtain ⟨middle, hmiddle, hrest⟩ := bind_eq_ok_iff.1 hadd
    rw [Content.outlinesOfEntries_cons, ← List.append_assoc]
    exact ih (h.addEntry hmiddle) hrest

/-- What a map describes can be read off its entries. -/
theorem outlined_describe {members : ContentMap} (h : describe members = .ok description) :
    description.Outlined (members.entries.foldl countWith 1) (members.entries.foldl attributesWith [])
      (outlinesOfEntries members.entries) := by
  have hempty : Description.Outlined ⟨.empty, none⟩ 1 [] [] := ⟨rfl, rfl, rfl⟩
  exact hempty.addEntries h

end Describing

section Templates

/-- The templates of a description agree in the names of their attributes and in the outlines of their
children, and there are as many as it stands for elements. -/
theorem Description.outlines_templates (description : Description) :
    description.templates.length = description.count ∧
      ∀ template ∈ description.templates,
        template.attrs.names = description.template.attrs.names ∧
          outlinesOfMembers template.children.entries =
            outlinesOfMembers description.template.children.entries := by
  unfold templates count
  cases description.repetition with
  | none => exact ⟨rfl, List.forall_mem_singleton.2 ⟨rfl, rfl⟩⟩
  | some repetition =>
    refine ⟨List.length_map _, fun template htemplate => ?_⟩
    obtain ⟨item, -, rfl⟩ := List.mem_map.1 htemplate
    exact ⟨rfl, Content.outlinesOfMembers_mapText _ _⟩

/-- The templates of a map are as many as its entries say, with the attributes and the children that
they declare. -/
theorem outlines_siblings {members : ContentMap} {templates : List Template}
    (h : siblings members = .ok templates) :
    templates.length = members.entries.foldl countWith 1 ∧
      ∀ template ∈ templates,
        template.attrs.names = members.entries.foldl attributesWith [] ∧
          outlinesOfMembers template.children.entries = outlinesOfEntries members.entries := by
  unfold siblings at h
  cases hdescribe : describe members with
  | error error =>
    rw [hdescribe] at h
    cases h
  | ok description =>
    rw [hdescribe] at h
    cases h
    have houtlined := outlined_describe hdescribe
    obtain ⟨hlength, hall⟩ := description.outlines_templates
    refine ⟨hlength.trans houtlined.count, fun template htemplate => ?_⟩
    obtain ⟨hnames, hchildren⟩ := hall template htemplate
    exact ⟨hnames.trans houtlined.names, hchildren.trans houtlined.children⟩

/-- Elements that are made one by one with a common outline are so many times that outline. -/
theorem outlines_of_mapM {templates : List Template} {make : Template → Except Error Element}
    {elements : List Element} {outline : Outline}
    (hmake : ∀ template ∈ templates, ∀ element, make template = .ok element →
      element.outline = outline)
    (h : templates.mapM make = .ok elements) :
    Element.outlines elements = .replicate templates.length outline := by
  induction templates generalizing elements with
  | nil =>
    cases h
    rfl
  | cons template rest ih =>
    obtain ⟨hfirst, hrest⟩ := List.forall_mem_cons.1 hmake
    simp only [List.mapM_cons, bind_eq_ok_iff, pure, Except.pure, Except.ok.injEq] at h
    obtain ⟨element, helement, others, hothers, rfl⟩ := h
    rw [Element.outlines, hfirst element helement, ih hrest hothers, List.length_cons,
      List.replicate_succ]

end Templates

/-- The outlines of two rows of elements are those of the first and those of the second. -/
theorem outlines_append (first second : List Element) :
    Element.outlines (first ++ second) = Element.outlines first ++ Element.outlines second := by
  simp only [Element.outlines_eq_map, List.map_append]

/-- Whatever resolves has the outlines of what was declared: the children of a template, entries, a
description under a name, items under a name. -/
theorem outlines_of_ok :
    (∀ (template : Template) (elements : List Element), template.resolve = .ok elements →
      Element.outlines elements = outlinesOfMembers template.children.entries) ∧
    (∀ (entries : List (String × Content)) (elements : List Element),
      resolveEntries entries = .ok elements →
        Element.outlines elements = outlinesOfMembers entries) ∧
    (∀ (name : String) (value : Content) (elements : List Element),
      resolveContent name value = .ok elements → Element.outlines elements = value.outlines name) ∧
    ∀ (name : String) (items : List Content) (elements : List Element),
      resolveItems name items = .ok elements →
        Element.outlines elements = Content.outlinesOfItems name items := by
  refine resolve.mutual_induct
    (fun template => ∀ elements, template.resolve = .ok elements →
      Element.outlines elements = outlinesOfMembers template.children.entries)
    (fun entries => ∀ elements, resolveEntries entries = .ok elements →
      Element.outlines elements = outlinesOfMembers entries)
    (fun name value => ∀ elements, resolveContent name value = .ok elements →
      Element.outlines elements = value.outlines name)
    (fun name items => ∀ elements, resolveItems name items = .ok elements →
      Element.outlines elements = Content.outlinesOfItems name items)
    ?template ?noEntries ?entries ?scalar ?failed ?map ?sequence ?noItems ?items
  case template =>
    intro template ih elements h
    rw [resolve, bind_eq_ok_iff] at h
    obtain ⟨_, -, hentries⟩ := h
    exact ih elements hentries
  case noEntries =>
    intro elements h
    rw [resolveEntries] at h
    cases h
    rfl
  case entries =>
    intro name value rest ihValue ihRest elements h
    simp only [resolveEntries, bind_eq_ok_iff, pure, Except.pure, Except.ok.injEq] at h
    obtain ⟨own, hown, others, hothers, rfl⟩ := h
    rw [outlines_append, ihValue own hown, ihRest others hothers, outlinesOfMembers]
  case scalar =>
    intro name body elements h
    simp only [resolveContent, bind_eq_ok_iff, pure, Except.pure, Except.ok.injEq] at h
    obtain ⟨_, -, rfl⟩ := h
    rfl
  case failed =>
    intro name members error hfailed elements h
    rw [resolveContent_map, hfailed] at h
    cases h
  case map =>
    intro name members templates hsiblings ih elements h
    rw [resolveContent_map, hsiblings] at h
    obtain ⟨hlength, hall⟩ := outlines_siblings hsiblings
    rw [Content.outlines_map, ← hlength]
    -- the templates differ in their texts only, so each of them gives the same outline
    refine outlines_of_mapM (fun template htemplate element helement => ?_) h
    obtain ⟨children, hchildren, hmk⟩ := bind_eq_ok_iff.1 helement
    cases hmk
    obtain ⟨hnames, hdeclared⟩ := hall template htemplate
    rw [Element.outline, ih template htemplate children hchildren, hdeclared, ← hnames,
      OrderedMap.names_eq]
  case sequence =>
    intro name items ih elements h
    rw [resolveContent] at h
    exact ih elements h
  case noItems =>
    intro name elements h
    rw [resolveItems] at h
    cases h
    rfl
  case items =>
    intro name item rest ihItem ihRest elements h
    simp only [resolveItems, bind_eq_ok_iff, pure, Except.pure, Except.ok.injEq] at h
    obtain ⟨own, hown, others, hothers, rfl⟩ := h
    rw [outlines_append, ihItem own hown, ihRest others hothers, Content.outlinesOfItems]

/-- A template comes to its outcome within a limit of nested calls that its declared content gives,
whatever its texts are.  The elements that it resolves to have the outlines of the declared content,
and templates that differ in their texts only never resolve to different outlines.  A map, also a
copy with other texts inside a repetition, stands for so many elements of one outline: for one, or
for as many as its repetition has items, and these are those that were declared. -/
theorem outlines_of_resolve (template : Template) :
    (∀ limit, ContentMap.weight template.children < limit →
      resolveWithin limit template = reached template.resolve) ∧
    (∀ elements, template.resolve = .ok elements →
      elements.map Element.outline = outlinesOfMembers template.children.entries ∧
        ∀ (other : Template) (others : List Element),
          other.children.mapText (fun _ => "") = template.children.mapText (fun _ => "") →
          other.resolve = .ok others →
            others.map Element.outline = elements.map Element.outline) ∧
    ∀ (f : String → String) (name : String) (members : ContentMap) (elements : List Element),
      resolveContent name (.map (members.mapText f)) = .ok elements →
        ∃ description outline, describe (members.mapText f) = .ok description ∧
          elements.map Element.outline = .replicate description.count outline ∧
          description.count = members.entries.foldl countWith 1 ∧
          (Content.map members).outlines name = .replicate description.count outline := by
  refine ⟨fun limit hlimit => resolveWithin_eq limit template hlimit, ?_, ?_⟩
  · have houtlines : ∀ (template : Template) (elements : List Element),
        template.resolve = .ok elements →
          elements.map Element.outline = outlinesOfMembers template.children.entries := by
      intro template elements h
      rw [← Element.outlines_eq_map, outlines_of_ok.1 template elements h]
    intro elements helements
    refine ⟨houtlines template elements helements, fun other others hsame hothers => ?_⟩
    -- what is left of a template without its texts decides
    have hblank : ∀ template : Template,
        outlinesOfMembers (template.children.mapText fun _ => "").entries =
          outlinesOfMembers template.children.entries :=
      fun template => Content.outlinesOfMembers_mapText _ template.children
    rw [houtlines template elements helements, houtlines other others hothers, ← hblank other, hsame,
      hblank]
  · intro f name members elements helements
    have houtlines := outlines_of_ok.2.2.1 name _ elements helements
    have hcopy : (Content.map (members.mapText f)).outlines name =
        (Content.map members).outlines name := Content.outlines_mapText f name (.map members)
    cases hdescribe : describe (members.mapText f) with
    | error error =>
      rw [resolveContent_map, siblings, hdescribe] at helements
      cases helements
    | ok description =>
      have hcount : description.count = members.entries.foldl countWith 1 :=
        (outlined_describe hdescribe).count.trans
          (Content.foldl_mapText f countWith (Content.countWith_mapText f) members 1)
      have hshape : (Content.map members).outlines name = .replicate description.count
          (.mk name (members.entries.foldl attributesWith [])
            (outlinesOfEntries members.entries)) := by
        rw [Content.outlines_map, hcount]
      refine ⟨description, _, rfl, ?_, hcount, hshape⟩
      rw [← Element.outlines_eq_map, houtlines, hcopy, hshape]

/-- The placeholder and an item of the inner repetition are rewritten by the outer one. -/
def twiceRepeated : ContentMap :=
  .ofList [("a", .map (.ofList [
    ("foreach", .sequence [.scalar "k", .sequence [.scalar "1", .scalar "2"]]),
    ("attrs", .map (.ofList [("n", .scalar "[k]")])),
    ("b", .map (.ofList [
      ("foreach", .sequence [.scalar "[k]", .sequence [.scalar "[k]", .scalar "x", .scalar ""]]),
      ("body", .scalar "[1]")]))]))]

/-- Three elements in each of two, also for those whose texts do not name the placeholder. -/
theorem outlines_of_resolve_small :
    ∃ elements, Template.resolve ⟨twiceRepeated, .empty, ""⟩ = .ok elements ∧
      ContentMap.weight twiceRepeated < 20 ∧
      resolveWithin 20 ⟨twiceRepeated, .empty, ""⟩ = reached (.ok elements) ∧
      elements.map Element.outline =
        .replicate 2 (.mk "a" ["n"] (.replicate 3 (.mk "b" [] []))) := by
  obtain ⟨hwithin, hshape, -⟩ := outlines_of_resolve ⟨twiceRepeated, .empty, ""⟩
  have hlimit : ContentMap.weight twiceRepeated < 20 := by decide
  have hreached : reached (.ok [
      .mk "a" [("n", "1")] [.mk "b" [] [] "1", .mk "b" [] [] "x", .mk "b" [] [] ""] "",
      .mk "a" [("n", "2")] [.mk "b" [] [] "[1]", .mk "b" [] [] "[1]", .mk "b" [] [] "[1]"] ""]) =
      reached (Template.resolve ⟨twiceRepeated, .empty, ""⟩) := Eq.trans rfl (hwithin 20 hlimit)
  have hresolve := (Option.some.inj hreached).symm
  have houtlines := (hshape _ hresolve).1
  exact ⟨_, hresolve, hlimit, hresolve ▸ hwithin 20 hlimit, houtlines.trans rfl⟩

end Template

end XmlWorkload
