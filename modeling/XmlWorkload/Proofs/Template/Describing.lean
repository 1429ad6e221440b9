import Mathlib.Data.List.Nodup
import Mathlib.Data.List.Pairwise
import XmlWorkload.Proofs.Template.Outline

/-!
# What a content map describes

The entries of a content map are read one by one: an entry under a keyword says something about the
element, and every other entry declares a child, as do the entries of the map under the keyword for
children.  A child whose name was declared before is refused, so which entry is refused hangs on the
order, but whether one is does not.  Main statement: when a map describes an element, which children
in which order, and that everything else is the same for every order of its entries
(`Template.describe_ok_iff`).
-/

set_option autoImplicit false

namespace XmlWorkload

namespace OrderedMap

variable {α : Type}

/-- What is found under a name stands in the map. -/
theorem find?_eq_some_iff {map : OrderedMap α} {name : String} {value : α} :
    map.find? name = some value ↔ (name, value) ∈ map.entries := by
  obtain ⟨held⟩ := map
  simp only [find?, entries]
  induction held with
  | nil => simp [Entries.toList]
  | @cons names key first fresh rest ih =>
    rw [Entries.toList, List.find?_cons, List.mem_cons]
    by_cases heq : key = name
    · subst heq
      have hnone : ∀ value, (key, value) ∉ rest.toList := fun value hmem =>
        fresh (rest.map_fst_toList ▸ List.mem_map_of_mem hmem)
      simp [hnone, eq_comm]
    · have hkey : (key == name) = false := beq_eq_false_iff_ne.2 heq
      rw [hkey, ih]
      simp [Ne.symm heq]

/-- In whatever order the entries stand, the same is found. -/
theorem find?_of_perm {map other : OrderedMap α} (hperm : other.entries.Perm map.entries) :
    other.find? = map.find? := by
  funext name
  apply Option.ext
  intro value
  rw [find?_eq_some_iff, find?_eq_some_iff, hperm.mem_iff]

/-- Names can be added to those that are taken: none comes twice, and none is taken. -/
def Fresh (taken names : List String) : Prop := names.Nodup ∧ ∀ name ∈ names, name ∉ taken

/-- Names can be added one part after the other: those of the second part must not be in the first
either. -/
theorem fresh_append {taken first second : List String} :
    Fresh taken (first ++ second) ↔ Fresh taken first ∧ Fresh (taken ++ first) second := by
  simp only [Fresh, List.nodup_append', List.disjoint_left, List.mem_append, not_or]
  constructor
  · rintro ⟨⟨hfirst, hsecond, hapart⟩, hall⟩
    exact ⟨⟨hfirst, fun name hname => hall name (.inl hname)⟩, hsecond, fun name hname =>
      ⟨hall name (.inr hname), fun hmem => hapart hmem hname⟩⟩
  · rintro ⟨⟨hfirst, hall⟩, hsecond, hall'⟩
    exact ⟨⟨hfirst, hsecond, fun name hname hmem => (hall' name hmem).2 hname⟩, fun name hname =>
      hname.elim (hall name) fun hmem => (hall' name hmem).1⟩

/-- A single name can be added unless it is taken. -/
theorem fresh_singleton {taken : List String} {name : String} :
    Fresh taken [name] ↔ name ∉ taken := by
  simp [Fresh]

/-- Entries under fresh names go to the end. -/
theorem entries_insertAll {map : OrderedMap α} {row : List (String × α)}
    (h : Fresh map.names (row.map Prod.fst)) : (map.insertAll row).entries = map.entries ++ row := by
  induction row generalizing map with
  | nil => rw [List.append_nil, insertAll, List.foldl_nil]
  | cons entry rest ih =>
    obtain ⟨hentry, hrest⟩ := fresh_append.1 (show Fresh map.names ([entry.1] ++ _) from h)
    have hname := fresh_singleton.1 hentry
    rw [← names_insert_of_not_mem map entry.1 entry.2 hname] at hrest
    rw [names_eq] at hname
    rw [insertAll, List.foldl_cons, ← insertAll, ih hrest, entries_insert,
      insertEntry_of_not_mem entry.2 hname, List.append_assoc, List.singleton_append]

/-- Entries under different names are those of the map that they leave. -/
theorem entries_ofList {row : List (String × α)} (h : (row.map Prod.fst).Nodup) :
    (ofList row).entries = row :=
  (entries_insertAll ⟨h, fun _ _ => List.not_mem_nil⟩).trans (List.nil_append row)

end OrderedMap

namespace Content

/-- A map of texts as a description. -/
def ofTexts (texts : OrderedMap String) : Content := .map (texts.mapValues .scalar)

/-- The clause that describes a repetition. -/
def ofRepetition (repetition : Repetition) : Content :=
  .sequence [.scalar repetition.placeholder, .sequence (repetition.items.map .scalar)]

end Content

/-- What can stand under a keyword. -/
def Keyword.Takes : Keyword → Content → Prop
  | .children, value => ∃ members, value = .map members
  | .attrs, value => ∃ texts, value = .ofTexts texts
  | .body, value => ∃ text, value = .scalar text
  | .foreach, value => ∃ repetition : Repetition, value = .ofRepetition repetition ∧
      repetition.placeholder ≠ "" ∧ repetition.items ≠ []

namespace Repetition

/-- Items are read as texts exactly when each of them is one. -/
theorem texts?_eq_some_iff {items : List Content} {texts : List String} :
    texts? items = some texts ↔ items = texts.map .scalar := by
  induction items generalizing texts with
  | nil => simp [texts?, eq_comm]
  | cons item rest ih =>
    simp only [texts?, Option.bind_eq_bind, Option.bind_eq_some_iff, ih]
    constructor
    · rintro ⟨text, htext, others, rfl, hsome⟩
      cases hsome
      cases item <;> cases htext
      rfl
    · intro h
      cases texts with
      | nil => cases h
      | cons text texts =>
        obtain ⟨rfl, rfl⟩ := List.cons.inj h
        exact ⟨text, rfl, texts, rfl, rfl⟩

/-- A clause describes a repetition exactly when it is written as one, with a placeholder and with
items. -/
theorem parse_eq_ok_iff {clause : Content} {repetition : Repetition} :
    parse clause = .ok repetition ↔ clause = .ofRepetition repetition ∧
      repetition.placeholder ≠ "" ∧ repetition.items ≠ [] := by
  have hclause : parse clause = .ok repetition ↔ parseClause clause = .ok repetition := by
    unfold parse
    cases parseClause clause <;> simp [Except.mapError]
  rw [hclause]
  constructor
  · intro h
    obtain ⟨items, rfl, hplaceholder, hitems, htexts⟩ := of_parseClause h
    obtain rfl := texts?_eq_some_iff.1 htexts
    exact ⟨rfl, hplaceholder, mt List.map_eq_nil_iff.2 hitems⟩
  · rintro ⟨rfl, hplaceholder, hitems⟩
    rw [Content.ofRepetition, parseClause_of_items (mt List.map_eq_nil_iff.1 hitems)
      (texts?_eq_some_iff.2 rfl), if_neg hplaceholder]

end Repetition

namespace Template

open OrderedMap (Fresh fresh_append fresh_singleton)

/-- Entries give attributes exactly when they are their texts. -/
theorem attributeEntries_eq_ok_iff {names : List String} {held : Entries Content names}
    {texts : Entries String names} :
    attributeEntries held = .ok texts ↔ held = texts.mapM (m := Id) .scalar := by
  induction held with
  | nil =>
    cases texts
    exact ⟨fun _ => rfl, fun _ => rfl⟩
  | cons name value fresh rest ih =>
    cases texts with
    | cons _ text _ others =>
      cases value with
      | scalar first =>
        have hcons : attributeEntries (.cons name (.scalar first) fresh rest) =
            attributeEntries rest >>= fun others => pure (.cons name first fresh others) := rfl
        have hmap : (Entries.cons name text fresh others).mapM (m := Id) Content.scalar =
            Entries.cons name (.scalar text) fresh (others.mapM (m := Id) .scalar) := rfl
        rw [hcons, bind_eq_ok_iff, hmap]
        constructor
        · rintro ⟨others', hothers, hok⟩
          cases hok
          rw [ih.1 hothers]
        · intro h
          cases h
          exact ⟨others, ih.2 rfl, rfl⟩
      | map members => exact ⟨nofun, nofun⟩
      | sequence items => exact ⟨nofun, nofun⟩

/-- The attributes that a content description gives are the texts in it. -/
theorem attributesOf_eq_ok_iff {value : Content} {attrs : OrderedMap String} :
    attributesOf value = .ok attrs ↔ value = .ofTexts attrs := by
  cases value with
  | map members =>
    obtain ⟨held⟩ := members
    obtain ⟨texts⟩ := attrs
    have hattrs : attributesOf (.map ⟨held⟩) =
        attributeEntries held >>= fun texts => pure ⟨texts⟩ := rfl
    rw [hattrs, bind_eq_ok_iff]
    constructor
    · rintro ⟨texts', htexts, hok⟩
      cases hok
      rw [attributeEntries_eq_ok_iff.1 htexts]
      rfl
    · intro h
      cases h
      exact ⟨texts, attributeEntries_eq_ok_iff.2 rfl, rfl⟩
  | scalar text => exact ⟨nofun, nofun⟩
  | sequence items => exact ⟨nofun, nofun⟩

/-- The children that an entry of a content map declares, with their names. -/
def childrenOf (entry : String × Content) : List (String × Content) :=
  match Keyword.ofLabel? entry.1 with
  | none => [entry]
  | some .children => (entry.2.members?.map OrderedMap.entries).getD []
  | some _ => []

/-- What a description holds under a keyword.  It holds its children by their names. -/
def Description.held (description : Description) : Keyword → Option Content
  | .children => none
  | .attrs => some (.ofTexts description.template.attrs)
  | .body => some (.scalar description.template.body)
  | .foreach => description.repetition.map .ofRepetition

/-- Descriptions that hold the same agree in everything but their children. -/
theorem Description.eq_of_held {first second : Description} (h : first.held = second.held) :
    first.template.attrs = second.template.attrs ∧ first.template.body = second.template.body ∧
      first.repetition = second.repetition := by
  have hattrs : Content.ofTexts first.template.attrs = .ofTexts second.template.attrs :=
    Option.some.inj (congrFun h .attrs)
  have hbody : Content.scalar first.template.body = .scalar second.template.body :=
    Option.some.inj (congrFun h .body)
  have hrepetition : first.repetition.map Content.ofRepetition =
      second.repetition.map .ofRepetition := congrFun h .foreach
  refine ⟨OrderedMap.ext ?_, Content.scalar.inj hbody, ?_⟩
  · have hentries := congrArg OrderedMap.entries (Content.map.inj hattrs)
    rw [OrderedMap.entries_mapValues, OrderedMap.entries_mapValues] at hentries
    refine List.map_injective_iff.2 (fun text text' heq => ?_) hentries
    obtain ⟨hname, hvalue⟩ := Prod.mk.inj heq
    exact Prod.ext hname (Content.scalar.inj hvalue)
  · refine Option.map_injective (fun clause clause' heq => ?_) hrepetition
    obtain ⟨placeholder, items⟩ := clause
    obtain ⟨placeholder', items'⟩ := clause'
    simp only [Content.ofRepetition, Content.sequence.injEq, List.cons.injEq, Content.scalar.injEq,
      and_true] at heq
    obtain ⟨rfl, hitems⟩ := heq
    rw [List.map_injective_iff.2 (fun _ _ => Content.scalar.inj) hitems]

/-- A child can be added exactly if its name is new, and it goes to the end. -/
theorem addChild_eq_ok_iff {template result : Template} {name : String} {value : Content} :
    template.addChild name value = .ok result ↔ name ∉ template.children.names ∧
      result = { template with children := template.children.insert name value } := by
  rw [← OrderedMap.contains_iff_mem_names]
  unfold addChild
  split
  · next htaken => simp [htaken]
  · next hfree => simp [hfree, eq_comm]

/-- Children can be added exactly if their names are fresh. -/
theorem addChildren_eq_ok_iff {entries : List (String × Content)} {template result : Template} :
    template.addChildren entries = .ok result ↔
      Fresh template.children.names (entries.map Prod.fst) ∧
        result = { template with children := template.children.insertAll entries } := by
  induction entries generalizing template with
  | nil => exact ⟨fun h => ⟨⟨List.nodup_nil, nofun⟩, (Except.ok.inj h).symm⟩, fun h => h.2 ▸ rfl⟩
  | cons entry rest ih =>
    obtain ⟨name, value⟩ := entry
    have hcons : template.addChildren ((name, value) :: rest) =
        template.addChild name value >>= fun template => template.addChildren rest := rfl
    have hnames : (name :: rest.map Prod.fst) = [name] ++ rest.map Prod.fst := rfl
    rw [hcons, bind_eq_ok_iff, List.map_cons, hnames, fresh_append, fresh_singleton]
    simp only [addChild_eq_ok_iff, and_assoc, exists_and_left, exists_eq_left, ih]
    refine and_congr_right fun hname => ?_
    rw [OrderedMap.names_insert_of_not_mem _ _ _ hname]
    rfl

section Describing

variable {before after : Description} {name : String} {value : Content}
  {entries : List (String × Content)}

/-- What becomes of a description that takes in an entry. -/
inductive Description.Takes (before : Description) : String → Content → Description → Prop where
  | child {name : String} {value : Content} (hname : Keyword.ofLabel? name = none)
      (hfresh : Fresh before.template.children.names [name]) :
      Takes before name value { before with template := { before.template with
        children := before.template.children.insert name value } }
  | children {members : ContentMap}
      (hfresh : Fresh before.template.children.names (members.entries.map Prod.fst)) :
      Takes before Keyword.children.label (.map members) { before with template :=
        { before.template with
          children := before.template.children.insertAll members.entries } }
  | attrs (attrs : OrderedMap String) :
      Takes before Keyword.attrs.label (.ofTexts attrs)
        { before with template := { before.template with attrs } }
  | body (body : String) :
      Takes before Keyword.body.label (.scalar body)
        { before with template := { before.template with body } }
  | foreach {repetition : Repetition} (hplaceholder : repetition.placeholder ≠ "")
      (hitems : repetition.items ≠ []) :
      Takes before Keyword.foreach.label (.ofRepetition repetition)
        { before with repetition := some repetition }

/-- An entry that was taken in is one that can be. -/
theorem takes_of_addEntry (h : before.addEntry name value = .ok after) :
    before.Takes name value after := by
  unfold Description.addEntry at h
  cases hkeyword : Keyword.ofLabel? name with
  | none =>
    rw [hkeyword] at h
    obtain ⟨template, htemplate, hok⟩ := bind_eq_ok_iff.1 h
    cases hok
    obtain ⟨hname, rfl⟩ := addChild_eq_ok_iff.1 htemplate
    exact .child hkeyword (fresh_singleton.2 hname)
  | some keyword =>
    rw [hkeyword] at h
    obtain rfl := (Keyword.ofLabel?_eq_some_iff _ _).1 hkeyword
    cases keyword with
    | children =>
      cases value with
      | map members =>
        obtain ⟨template, htemplate, hok⟩ := bind_eq_ok_iff.1 h
        cases hok
        obtain ⟨hfresh, rfl⟩ := addChildren_eq_ok_iff.1 htemplate
        exact .children hfresh
      | scalar text => cases h
      | sequence items => cases h
    | attrs =>
      obtain ⟨attrs, hattrs, hok⟩ := bind_eq_ok_iff.1 h
      cases hok
      obtain rfl := attributesOf_eq_ok_iff.1 hattrs
      exact .attrs attrs
    | body =>
      cases value with
      | scalar body =>
        cases h
        exact .body body
      | map members => cases h
      | sequence items => cases h
    | foreach =>
      obtain ⟨repetition, hparse, hok⟩ := bind_eq_ok_iff.1 h
      cases hok
      obtain ⟨rfl, hplaceholder, hitems⟩ := Repetition.parse_eq_ok_iff.1 hparse
      exact .foreach hplaceholder hitems

/-- An entry that can be taken in is. -/
theorem Description.Takes.addEntry (h : before.Takes name value after) :
    before.addEntry name value = .ok after := by
  unfold Description.addEntry
  cases h with
  | child hname hfresh =>
    rw [hname]
    exact bind_eq_ok_iff.2 ⟨_, addChild_eq_ok_iff.2 ⟨fresh_singleton.1 hfresh, rfl⟩, rfl⟩
  | children hfresh =>
    rw [(Keyword.ofLabel?_eq_some_iff _ .children).2 rfl]
    exact bind_eq_ok_iff.2 ⟨_, addChildren_eq_ok_iff.2 ⟨hfresh, rfl⟩, rfl⟩
  | attrs attrs =>
    rw [(Keyword.ofLabel?_eq_some_iff _ .attrs).2 rfl]
    exact bind_eq_ok_iff.2 ⟨attrs, attributesOf_eq_ok_iff.2 rfl, rfl⟩
  | body body =>
    rw [(Keyword.ofLabel?_eq_some_iff _ .body).2 rfl]
    rfl
  | @foreach repetition hplaceholder hitems =>
    rw [(Keyword.ofLabel?_eq_some_iff _ .foreach).2 rfl]
    exact bind_eq_ok_iff.2
      ⟨repetition, Repetition.parse_eq_ok_iff.2 ⟨rfl, hplaceholder, hitems⟩, rfl⟩

/-- What stands under a keyword is something that it can take. -/
def Fits (entry : String × Content) : Prop :=
  ∀ keyword, Keyword.ofLabel? entry.1 = some keyword → keyword.Takes entry.2

/-- The names of the children that entries declare. -/
def declared (entries : List (String × Content)) : List String :=
  (entries.flatMap childrenOf).map Prod.fst

/-- A keyword other than that of the children brings no children. -/
theorem childrenOf_of_keyword (keyword : Keyword) (h : keyword ≠ .children) (value : Content) :
    childrenOf (keyword.label, value) = [] := by
  rw [childrenOf, (Keyword.ofLabel?_eq_some_iff _ keyword).2 rfl]
  cases keyword with
  | children => exact absurd rfl h
  | attrs | body | foreach => rfl

/-- An entry without a keyword brings itself as a child. -/
theorem childrenOf_of_none (h : Keyword.ofLabel? name = none) (value : Content) :
    childrenOf (name, value) = [(name, value)] := by
  rw [childrenOf, h]

/-- The keyword of the children brings the members of its map. -/
theorem childrenOf_children (members : ContentMap) :
    childrenOf (Keyword.children.label, .map members) = members.entries := by
  rw [childrenOf, (Keyword.ofLabel?_eq_some_iff _ .children).2 rfl]
  rfl

/-- An entry can be taken in exactly if it fits and the names of its children are fresh. -/
theorem exists_takes_iff : (∃ after, before.Takes name value after) ↔
    Fits (name, value) ∧
      Fresh before.template.children.names ((childrenOf (name, value)).map Prod.fst) := by
  have hnone : ∀ taken, Fresh taken [] := fun _ => ⟨List.nodup_nil, nofun⟩
  constructor
  · rintro ⟨after, htakes⟩
    have hfits : ∀ {keyword : Keyword} {value : Content}, keyword.Takes value →
        Fits (keyword.label, value) := by
      intro keyword value htakes other hother
      have hlabels := (Keyword.ofLabel?_eq_some_iff _ _).1 hother
      have hsame : keyword = other := Option.some.inj
        (((Keyword.ofLabel?_eq_some_iff _ _).2 rfl).symm.trans hother)
      exact hsame ▸ htakes
    cases htakes with
    | child hname hfresh =>
      rw [childrenOf_of_none hname]
      exact ⟨fun keyword hkeyword => by simp [hname] at hkeyword, hfresh⟩
    | children hfresh =>
      rw [childrenOf_children]
      exact ⟨hfits ⟨_, rfl⟩, hfresh⟩
    | attrs attrs =>
      rw [childrenOf_of_keyword .attrs nofun]
      exact ⟨hfits ⟨_, rfl⟩, hnone _⟩
    | body body =>
      rw [childrenOf_of_keyword .body nofun]
      exact ⟨hfits ⟨_, rfl⟩, hnone _⟩
    | foreach hplaceholder hitems =>
      rw [childrenOf_of_keyword .foreach nofun]
      exact ⟨hfits ⟨_, rfl, hplaceholder, hitems⟩, hnone _⟩
  · rintro ⟨hfits, hfresh⟩
    cases hkeyword : Keyword.ofLabel? name with
    | none =>
      rw [childrenOf_of_none hkeyword] at hfresh
      exact ⟨_, .child hkeyword hfresh⟩
    | some keyword =>
      have htakes := hfits keyword hkeyword
      obtain rfl := (Keyword.ofLabel?_eq_some_iff _ _).1 hkeyword
      cases keyword with
      | children =>
        obtain ⟨members, rfl⟩ := htakes
        rw [childrenOf_children] at hfresh
        exact ⟨_, .children hfresh⟩
      | attrs =>
        obtain ⟨texts, rfl⟩ := htakes
        exact ⟨_, .attrs texts⟩
      | body =>
        obtain ⟨text, rfl⟩ := htakes
        exact ⟨_, .body text⟩
      | foreach =>
        obtain ⟨repetition, rfl, hplaceholder, hitems⟩ := htakes
        exact ⟨_, .foreach hplaceholder hitems⟩

/-- The children of an entry go behind those from before. -/
theorem Description.Takes.children_eq (h : before.Takes name value after) :
    after.template.children.entries =
      before.template.children.entries ++ childrenOf (name, value) := by
  cases h with
  | child hname hfresh =>
    rw [childrenOf_of_none hname]
    have hrow : (before.template.children.insertAll [(name, value)]).entries =
        before.template.children.entries ++ [(name, value)] := OrderedMap.entries_insertAll hfresh
    exact hrow
  | children hfresh =>
    rw [childrenOf_children]
    exact OrderedMap.entries_insertAll hfresh
  | attrs => rw [childrenOf_of_keyword .attrs nofun, List.append_nil]
  | body => rw [childrenOf_of_keyword .body nofun, List.append_nil]
  | foreach => rw [childrenOf_of_keyword .foreach nofun, List.append_nil]

/-- What stands under a keyword is held in the place of what was held under it before. -/
theorem Description.Takes.held_eq (h : before.Takes name value after) {keyword : Keyword}
    (hkeyword : keyword ≠ .children) :
    after.held keyword = if name = keyword.label then some value else before.held keyword := by
  cases h with
  | child hname =>
    have hne : name ≠ keyword.label := by
      rintro rfl
      rw [(Keyword.ofLabel?_eq_some_iff _ keyword).2 rfl] at hname
      cases hname
    rw [if_neg hne]
    cases keyword <;> rfl
  | children | attrs | body | foreach =>
    cases keyword with
    | children => exact absurd rfl hkeyword
    | attrs | body | foreach => rfl

/-- An entry is taken in exactly when it can be, and comes to what it says. -/
theorem addEntry_eq_ok_iff :
    before.addEntry name value = .ok after ↔ before.Takes name value after :=
  ⟨takes_of_addEntry, fun h => h.addEntry⟩

/-- Entries are taken in one after the other. -/
theorem addEntries_cons (before : Description) (name : String) (value : Content)
    (rest : List (String × Content)) :
    before.addEntries ((name, value) :: rest) =
      before.addEntry name value >>= fun middle => middle.addEntries rest :=
  rfl

/-- Entries can be taken in exactly if all of them fit and the names of their children are fresh. -/
theorem exists_addEntries_iff : (∃ after, before.addEntries entries = .ok after) ↔
    (∀ entry ∈ entries, Fits entry) ∧
      Fresh before.template.children.names (declared entries) := by
  induction entries generalizing before with
  | nil => exact ⟨fun _ => ⟨nofun, List.nodup_nil, nofun⟩, fun _ => ⟨before, rfl⟩⟩
  | cons entry rest ih =>
    obtain ⟨name, value⟩ := entry
    have hnames : ∀ {middle}, before.Takes name value middle → middle.template.children.names =
        before.template.children.names ++ (childrenOf (name, value)).map Prod.fst := by
      intro middle htakes
      rw [OrderedMap.names_eq, OrderedMap.names_eq, htakes.children_eq, List.map_append]
    have hdeclared : declared ((name, value) :: rest) =
        (childrenOf (name, value)).map Prod.fst ++ declared rest := by
      rw [declared, List.flatMap_cons, List.map_append]
      rfl
    rw [hdeclared, fresh_append, List.forall_mem_cons]
    simp only [addEntries_cons, bind_eq_ok_iff, addEntry_eq_ok_iff]
    constructor
    · rintro ⟨after, middle, htakes, hrest⟩
      obtain ⟨hfits, hfresh⟩ := exists_takes_iff.1 ⟨middle, htakes⟩
      obtain ⟨hfits', hfresh'⟩ := ih.1 ⟨after, hrest⟩
      rw [hnames htakes] at hfresh'
      exact ⟨⟨hfits, hfits'⟩, hfresh, hfresh'⟩
    · rintro ⟨⟨hfits, hfits'⟩, hfresh, hfresh'⟩
      obtain ⟨middle, htakes⟩ := exists_takes_iff.2 ⟨hfits, hfresh⟩
      rw [← hnames htakes] at hfresh'
      obtain ⟨after, hrest⟩ := ih.2 ⟨hfits', hfresh'⟩
      exact ⟨after, middle, htakes, hrest⟩

/-- The children of entries go behind those from before, in the order of the entries. -/
theorem children_of_addEntries (h : before.addEntries entries = .ok after) :
    after.template.children.entries =
      before.template.children.entries ++ entries.flatMap childrenOf := by
  induction entries generalizing before with
  | nil =>
    cases h
    rw [List.flatMap_nil, List.append_nil]
  | cons entry rest ih =>
    obtain ⟨name, value⟩ := entry
    obtain ⟨middle, hmiddle, hrest⟩ := bind_eq_ok_iff.1 h
    rw [ih hrest, (takes_of_addEntry hmiddle).children_eq, List.flatMap_cons, List.append_assoc]

/-- After entries under different names a description holds what stands under a keyword among them,
or what it held before. -/
theorem held_of_addEntries (hnames : (entries.map Prod.fst).Nodup)
    (h : before.addEntries entries = .ok after) {keyword : Keyword}
    (hkeyword : keyword ≠ .children) :
    after.held keyword =
      ((entries.find? fun entry => entry.1 == keyword.label).map Prod.snd).or
        (before.held keyword) := by
  induction entries generalizing before with
  | nil =>
    cases h
    rfl
  | cons entry rest ih =>
    obtain ⟨name, value⟩ := entry
    obtain ⟨middle, hmiddle, hrest⟩ := bind_eq_ok_iff.1 h
    obtain ⟨hname, hnames'⟩ := List.nodup_cons.1 hnames
    rw [ih hnames' hrest, (takes_of_addEntry hmiddle).held_eq hkeyword]
    rw [List.find?_cons]
    by_cases heq : name = keyword.label
    · -- the keyword does not come again
      have hnone : (rest.find? fun entry => entry.1 == name) = none := by
        rw [List.find?_eq_none]
        intro other hother hlabel
        exact hname (List.mem_map.2 ⟨other, hother, beq_iff_eq.1 hlabel⟩)
      rw [if_pos heq, ← heq, hnone, beq_self_eq_true]
      rfl
    · rw [if_neg heq, beq_eq_false_iff_ne.2 heq]

end Describing

/-- A keyword is found under its own name. -/
theorem ofLabel?_label (keyword : Keyword) : Keyword.ofLabel? keyword.label = some keyword :=
  (Keyword.ofLabel?_eq_some_iff _ keyword).2 rfl

/-- An entry declares a child under its own name, or those of the map under the keyword for
children. -/
theorem mem_names_childrenOf {entry : String × Content} {name : String} :
    name ∈ (childrenOf entry).map Prod.fst ↔ Keyword.ofLabel? entry.1 = none ∧ name = entry.1 ∨
      ∃ inner, entry = (Keyword.children.label, .map inner) ∧ name ∈ inner.names := by
  obtain ⟨key, value⟩ := entry
  cases hkeyword : Keyword.ofLabel? key with
  | none =>
    have hne : ∀ inner, (key, value) ≠ (Keyword.children.label, .map inner) := by
      rintro inner heq
      cases heq
      rw [ofLabel?_label] at hkeyword
      cases hkeyword
    rw [childrenOf_of_none hkeyword]
    simp [hne]
  | some keyword =>
    obtain rfl := (Keyword.ofLabel?_eq_some_iff _ _).1 hkeyword
    by_cases hchildren : keyword = .children
    · subst hchildren
      cases value with
      | map members =>
        rw [childrenOf_children]
        simp [OrderedMap.names_eq]
      | scalar text => simp [childrenOf, ofLabel?_label, Content.members?]
      | sequence items => simp [childrenOf, ofLabel?_label, Content.members?]
    · have hne : keyword.label ≠ Keyword.children.label := by
        intro heq
        have hsame := (ofLabel?_label keyword).symm.trans (heq ▸ ofLabel?_label .children)
        exact hchildren (Option.some.inj hsame)
      rw [childrenOf_of_keyword keyword hchildren]
      simp [hne]

/-- Children are declared under different names unless one under the
keyword for children has a name that stands beside it. -/
theorem nodup_declared_iff {members : ContentMap} :
    (declared members.entries).Nodup ↔
      ∀ inner, members.find? Keyword.children.label = some (.map inner) →
        ∀ name ∈ inner.names, name ∈ members.names → ∃ keyword, name = Keyword.label keyword := by
  simp only [OrderedMap.find?_eq_some_iff]
  have hnames := members.names_eq ▸ members.nodup_names
  rw [declared, List.map_flatMap, List.nodup_flatMap]
  constructor
  · rintro ⟨-, hpairwise⟩ inner hchildren name hname hbeside
    rw [OrderedMap.names_eq] at hbeside
    obtain ⟨entry, hentry, rfl⟩ := List.mem_map.1 hbeside
    cases hkeyword : Keyword.ofLabel? entry.1 with
    | some keyword => exact ⟨keyword, (Keyword.ofLabel?_eq_some_iff _ _).1 hkeyword⟩
    | none =>
      -- the entry declares the same name a second time
      have hne : entry ≠ (Keyword.children.label, .map inner) := by
        rintro rfl
        rw [ofLabel?_label] at hkeyword
        cases hkeyword
      have hsymm : Std.Symm (Function.onFun List.Disjoint fun entry : String × Content =>
          (childrenOf entry).map Prod.fst) := ⟨fun _ _ hdisjoint _ hleft hright =>
          hdisjoint hright hleft⟩
      have hdisjoint := hpairwise.forall hentry hchildren hne
      exact absurd (mem_names_childrenOf.2 (.inr ⟨inner, rfl, hname⟩))
        (hdisjoint (mem_names_childrenOf.2 (.inl ⟨hkeyword, rfl⟩)))
  · intro hbeside
    have hsame := List.inj_on_of_nodup_map hnames
    have hplain : ∀ entry ∈ members.entries, Keyword.ofLabel? entry.1 = none →
        ∀ inner, (Keyword.children.label, .map inner) ∈ members.entries →
          entry.1 ∉ inner.names := by
      intro entry hentry hkeyword inner hchildren hname
      have hmem : entry.1 ∈ members.names := members.names_eq ▸ List.mem_map_of_mem hentry
      obtain ⟨keyword, hlabel⟩ := hbeside inner hchildren _ hname hmem
      rw [hlabel, ofLabel?_label] at hkeyword
      cases hkeyword
    refine ⟨fun entry hentry => ?_, (List.Nodup.of_map _ hnames).pairwise_of_forall_ne ?_⟩
    · unfold childrenOf
      split
      · exact List.nodup_singleton _
      · next hkeyword =>
        obtain ⟨key, value⟩ := entry
        obtain rfl : key = _ := (Keyword.ofLabel?_eq_some_iff _ _).1 hkeyword
        cases value with
        | map inner => exact inner.names_eq ▸ inner.nodup_names
        | scalar text => exact List.nodup_nil
        | sequence items => exact List.nodup_nil
      · exact List.nodup_nil
    · intro entry hentry other hother hne name hname hname'
      obtain ⟨hkeyword, rfl⟩ | ⟨inner, rfl, hmem⟩ := mem_names_childrenOf.1 hname
      · obtain ⟨-, hkey⟩ | ⟨inner, rfl, hmem⟩ := mem_names_childrenOf.1 hname'
        · exact hne (hsame hentry hother hkey)
        · exact hplain entry hentry hkeyword inner hother hmem
      · obtain ⟨hkeyword, rfl⟩ | ⟨inner', rfl, -⟩ := mem_names_childrenOf.1 hname'
        · exact hplain other hother hkeyword inner hentry hmem
        · exact hne (hsame hentry hother rfl)

/-- What a map describes depends on its entries by their names, its children apart. -/
theorem held_of_describe {members : ContentMap} {description : Description}
    (h : describe members = .ok description) {keyword : Keyword} (hkeyword : keyword ≠ .children) :
    description.held keyword =
      (members.find? keyword.label).or (Description.held ⟨.empty, none⟩ keyword) :=
  held_of_addEntries (members.names_eq ▸ members.nodup_names) h hkeyword

/-- A content map describes an element exactly if what stands under each keyword is something that
the keyword can take, and no name under the keyword for children stands beside it, unless it is a
keyword there.  The children are then those that the entries declare, in their order, each under a
name of its own, and the attributes, the text and the repetition are what stands under their
keywords, if anything does.  In whatever order the entries stand, the map describes an element or
does not, and the same one except for the order of the children. -/
theorem describe_ok_iff (members : ContentMap) :
    ((∃ description, describe members = .ok description) ↔
      (∀ (keyword : Keyword) value, members.find? keyword.label = some value →
        keyword.Takes value) ∧
      ∀ inner, members.find? Keyword.children.label = some (.map inner) →
        ∀ name ∈ inner.names, name ∈ members.names → ∃ keyword, name = Keyword.label keyword) ∧
    (∀ description, describe members = .ok description →
      description.template.children.entries = members.entries.flatMap childrenOf ∧
      description.template.children.names.Nodup ∧
      ∀ keyword : Keyword, keyword ≠ .children → description.held keyword =
        (members.find? keyword.label).or (Description.held ⟨.empty, none⟩ keyword)) ∧
    ∀ other : ContentMap, other.entries.Perm members.entries →
      ((∃ description, describe other = .ok description) ↔
        ∃ description, describe members = .ok description) ∧
      ∀ description description', describe members = .ok description →
        describe other = .ok description' →
          description'.template.attrs = description.template.attrs ∧
          description'.template.body = description.template.body ∧
          description'.repetition = description.repetition := by
  have haccepts : ∀ map : ContentMap, (∃ description, describe map = .ok description) ↔
      (∀ entry ∈ map.entries, Fits entry) ∧ (declared map.entries).Nodup := by
    intro map
    have hfresh : Fresh [] (declared map.entries) ↔ (declared map.entries).Nodup := by
      simp [Fresh]
    exact exists_addEntries_iff.trans (and_congr_right fun _ => hfresh)
  refine ⟨?_, fun description hdescribe => ?_, fun other hperm => ⟨?_, ?_⟩⟩
  · have hfits : (∀ entry ∈ members.entries, Fits entry) ↔
        ∀ (keyword : Keyword) value, members.find? keyword.label = some value →
          keyword.Takes value := by
      simp only [OrderedMap.find?_eq_some_iff]
      constructor
      · exact fun h keyword value hvalue => h _ hvalue keyword (ofLabel?_label keyword)
      · rintro h ⟨name, value⟩ hentry keyword hkeyword
        obtain rfl := (Keyword.ofLabel?_eq_some_iff _ _).1 hkeyword
        exact h keyword value hentry
    rw [haccepts, nodup_declared_iff, hfits]
  · have hchildren := children_of_addEntries hdescribe
    rw [show (Description.mk Template.empty none).template.children.entries = [] from rfl,
      List.nil_append] at hchildren
    refine ⟨hchildren, ?_, fun keyword => held_of_describe hdescribe⟩
    rw [OrderedMap.names_eq, hchildren]
    exact ((haccepts members).1 ⟨description, hdescribe⟩).2
  · rw [haccepts, haccepts]
    have hdeclared : (declared other.entries).Perm (declared members.entries) :=
      (hperm.flatMap_right childrenOf).map Prod.fst
    rw [hdeclared.nodup_iff]
    simp only [hperm.mem_iff]
  · intro description description' hdescribe hdescribe'
    apply Description.eq_of_held
    funext keyword
    by_cases hkeyword : keyword = .children
    · subst hkeyword
      rfl
    · rw [held_of_describe hdescribe' hkeyword, held_of_describe hdescribe hkeyword,
        OrderedMap.find?_of_perm hperm]

/-- Children on either side of the keyword for children, under which a child has the name of a
keyword that stands beside it. -/
def crossed : ContentMap :=
  .ofList [("p", .scalar "1"), ("body", .scalar "[x]"),
    ("children", .map (.ofList [("attrs", .scalar "2"), ("q", .sequence [])])),
    ("r", .scalar "3"), ("foreach", .sequence [.scalar "x", .sequence [.scalar "y"]]),
    ("attrs", .map (.ofList [("k", .scalar "[x]")]))]

/-- What is found under a name of the crossed description is found once. -/
theorem find?_crossed {name : String} {value found : Content}
    (h : crossed.find? name = some value) (hfound : crossed.find? name = some found) :
    value = found :=
  Option.some.inj (h.symm.trans hfound)

/-- Children are put together in the order of the entries, and the entries in reverse describe an
element too. -/
theorem describe_ok_iff_crossed :
    (∃ description, describe crossed = .ok description ∧
      description.template.children.names = ["p", "attrs", "q", "r"] ∧
      description.held .body = some (.scalar "[x]")) ∧
    ∃ description, describe (.ofList crossed.entries.reverse) = .ok description := by
  have hchildren : ∀ inner, crossed.find? Keyword.children.label = some (.map inner) →
      inner = .ofList [("attrs", .scalar "2"), ("q", .sequence [])] :=
    fun inner h => Content.map.inj (find?_crossed h rfl)
  obtain ⟨hiff, hresult, hperm⟩ := describe_ok_iff crossed
  have haccepted : ∃ description, describe crossed = .ok description := by
    refine hiff.2 ⟨fun keyword value hvalue => ?_, fun inner hinner name hname hbeside => ?_⟩
    · cases keyword with
      | children => exact ⟨_, find?_crossed hvalue rfl⟩
      | attrs => exact ⟨.ofList [("k", "[x]")], find?_crossed hvalue rfl⟩
      | body => exact ⟨"[x]", find?_crossed hvalue rfl⟩
      | foreach => exact ⟨⟨"x", ["y"]⟩, find?_crossed hvalue rfl, by decide, by decide⟩
    · rw [hchildren inner hinner] at hname
      rcases List.mem_cons.1 hname with rfl | hname
      · exact ⟨.attrs, rfl⟩
      · rw [List.mem_singleton.1 hname] at hbeside
        have hnew : "q" ∉ crossed.names := by decide
        exact absurd hbeside hnew
  obtain ⟨description, hdescribe⟩ := haccepted
  obtain ⟨hentries, -, hheld⟩ := hresult description hdescribe
  have hreverse : (OrderedMap.ofList crossed.entries.reverse).entries.Perm crossed.entries := by
    rw [OrderedMap.entries_ofList (by decide)]
    exact List.reverse_perm _
  refine ⟨⟨description, hdescribe, ?_, hheld .body nofun⟩,
    (hperm _ hreverse).1.2 ⟨description, hdescribe⟩⟩
  rw [OrderedMap.names_eq, hentries]
  rfl

end Template

end XmlWorkload
