import Mathlib.Data.List.Forall2
import XmlWorkload.Proofs.Template.ResolvedTexts

/-!
# Templates with other texts

A template whose texts were replaced has the shape that it had before, so that it resolves to
elements of the same names, or fails for a reason that lies in its new texts: a character that no
document carries, or a repetition whose placeholder is empty now.  Which of these are possible
depends on what is known of the new texts, and that has to survive the substitution of items for
tokens.  Main statement: where the old template resolves the new one does so too, to elements of the
same names, up to these failures (`Template.keeps_resolve`).
-/

set_option autoImplicit false

namespace XmlWorkload

open CharacterData (Carries)

/-- What is known of texts that were put in place of others. -/
structure TextRule where
  /-- What is known of a new text. -/
  text : String → Prop
  /-- What is known of the placeholder of a repetition and the one in its place. -/
  placeholder : String → String → Prop
  text_empty : text ""
  text_substitute : ∀ (token : String) {item body : String}, text item → text body →
    text ((Substitution.single token item).apply body)
  placeholder_substitute : ∀ (first second : Repetition) (item other : String) {old new : String},
    placeholder old new → placeholder ((Substitution.single first.token item).apply old)
      ((Substitution.single second.token other).apply new)

/-- The failures that new texts can bring about. -/
def TextRule.Allows (rule : TextRule) (error : Error) : Prop :=
  ((∃ field c, error = .invalidContent field (.forbiddenCharacter c)) ∧
      ∃ text, rule.text text ∧ ¬ Carries text) ∨
    ((∃ clause, error = .malformedRepetition clause .placeholderEmpty) ∧
      ∃ old, old ≠ "" ∧ rule.placeholder old "")

/-- Texts are replaced on both sides in ways that keep what is known of them. -/
structure TextRule.Respects (rule : TextRule) (first second : String → String) : Prop where
  text : ∀ {body}, rule.text body → rule.text (second body)
  placeholder : ∀ {old new}, rule.placeholder old new → rule.placeholder (first old) (second new)

variable (rule : TextRule)

/-- Replacing the tokens of two repetitions respects a rule, if the items do. -/
theorem TextRule.respects_substitute (first second : Repetition) (item : String) {other : String}
    (h : rule.text other) : rule.Respects (Substitution.single first.token item).apply
      (Substitution.single second.token other).apply :=
  ⟨rule.text_substitute second.token h, rule.placeholder_substitute first second item other⟩

namespace Content

/-- The placeholder of a clause, if the description can be one. -/
def placeholder? : Content → Option String
  | .sequence (.scalar name :: _) => some name
  | _ => none

/-- The placeholder of one clause stands for that of another. -/
def ClauseRefilled (old new : Content) : Prop :=
  ∀ name ∈ old.placeholder?, ∀ name' ∈ new.placeholder?, rule.placeholder name name'

mutual

/-- A description has the shape of another one, and its texts keep to a rule. -/
def Refilled : Content → Content → Prop
  | .scalar _, .scalar new => rule.text new
  | .map ⟨old⟩, .map new => RefilledMembers old new.entries
  | .sequence old, .sequence new => RefilledItems old new
  | _, _ => False

/-- Entries have the names and shapes of the members of a map, and their texts keep to a rule. -/
def RefilledMembers {names : List String} :
    Entries Content names → List (String × Content) → Prop
  | .nil, [] => True
  | .cons name old _ rest, (name', new) :: rest' =>
    name' = name ∧ Refilled old new ∧
      (name = Keyword.foreach.label → ClauseRefilled rule old new) ∧ RefilledMembers rest rest'
  | _, _ => False

/-- Items have the shapes of others, and their texts keep to a rule. -/
def RefilledItems : List Content → List Content → Prop
  | [], [] => True
  | old :: rest, new :: rest' => Refilled old new ∧ RefilledItems rest rest'
  | _, _ => False

end

/-- Entries have the names and shapes of others, and their texts keep to a rule. -/
def RefilledEntries : List (String × Content) → List (String × Content) → Prop
  | [], [] => True
  | (name, old) :: rest, (name', new) :: rest' =>
    name' = name ∧ Refilled rule old new ∧
      (name = Keyword.foreach.label → ClauseRefilled rule old new) ∧ RefilledEntries rest rest'
  | _, _ => False

/-- Members are refilled when their list of entries is. -/
theorem refilledMembers_iff {names : List String} (old : Entries Content names)
    (new : List (String × Content)) :
    RefilledMembers rule old new ↔ RefilledEntries rule old.toList new := by
  induction old generalizing new with
  | nil => cases new <;> exact Iff.rfl
  | cons name value fresh rest ih =>
    cases new with
    | nil => exact Iff.rfl
    | cons entry rest' => exact and_congr_right' (and_congr_right' (and_congr_right' (ih rest')))

/-- A map has the shape of another one if its entries have the names and shapes of the others. -/
theorem refilled_map_iff {old new : ContentMap} :
    Refilled rule (.map old) (.map new) ↔ RefilledEntries rule old.entries new.entries :=
  refilledMembers_iff rule old.held new.entries

/-- The placeholder of a rewritten content is the rewritten placeholder. -/
theorem placeholder?_mapText (f : String → String) (content : Content) :
    (content.mapText f).placeholder? = content.placeholder?.map f := by
  rcases content with text | ⟨entries⟩ | ⟨_ | ⟨_ | ⟨_⟩ | _, rest⟩⟩ <;> rfl

section Substitution

variable {rule} {first second : String → String}

/-- A refilled clause stays so when both sides are rewritten by functions that respect the rule. -/
theorem ClauseRefilled.mapText (hrule : rule.Respects first second) {old new : Content}
    (h : ClauseRefilled rule old new) :
    ClauseRefilled rule (old.mapText first) (new.mapText second) := by
  intro name hname name' hname'
  rw [placeholder?_mapText] at hname hname'
  obtain ⟨source, hsource, rfl⟩ := Option.map_eq_some_iff.1 hname
  obtain ⟨source', hsource', rfl⟩ := Option.map_eq_some_iff.1 hname'
  exact hrule.placeholder (h source hsource source' hsource')

mutual

/-- Replacing the texts on both sides keeps what is known of them, if the replacement does. -/
theorem Refilled.mapText (hrule : rule.Respects first second) : ∀ (old new : Content),
    Refilled rule old new → Refilled rule (old.mapText first) (new.mapText second)
  | .scalar _, .scalar _, h => hrule.text h
  | .map ⟨old⟩, .map new, h => by
    show RefilledMembers rule _ (ContentMap.mapText second new).entries
    rw [ContentMap.entries_mapText]
    exact RefilledMembers.mapText hrule old new.entries h
  | .sequence old, .sequence new, h => RefilledItems.mapText hrule old new h
  | .scalar _, .map _, h => h.elim
  | .scalar _, .sequence _, h => h.elim
  | .map _, .scalar _, h => h.elim
  | .map _, .sequence _, h => h.elim
  | .sequence _, .scalar _, h => h.elim
  | .sequence _, .map _, h => h.elim

/-- Refilled members stay so when both sides are rewritten by functions that respect the rule. -/
theorem RefilledMembers.mapText (hrule : rule.Respects first second) :
    ∀ {names : List String} (old : Entries Content names) (new : List (String × Content)),
      RefilledMembers rule old new → RefilledMembers rule (mapEntriesM (m := Id) first old)
        (new.map fun entry => (entry.1, entry.2.mapText second))
  | _, .nil, [], _ => trivial
  | _, .cons name old fresh rest, (name', new) :: rest', h => by
    obtain ⟨hname, hvalue, hclause, hrest⟩ := h
    refine ⟨hname, Refilled.mapText hrule old new hvalue, ?_,
      RefilledMembers.mapText hrule rest rest' hrest⟩
    intro hforeach
    exact (hclause hforeach).mapText hrule
  | _, .nil, _ :: _, h => h.elim
  | _, .cons _ _ _ _, [], h => h.elim

/-- Refilled items stay so when both sides are rewritten by functions that respect the rule. -/
theorem RefilledItems.mapText (hrule : rule.Respects first second) : ∀ (old new : List Content),
    RefilledItems rule old new →
    RefilledItems rule (mapItemsM (m := Id) first old) (mapItemsM (m := Id) second new)
  | [], [], _ => trivial
  | old :: rest, new :: rest', h =>
    ⟨Refilled.mapText hrule old new h.1, RefilledItems.mapText hrule rest rest' h.2⟩
  | [], _ :: _, h => h.elim
  | _ :: _, [], h => h.elim

end

end Substitution

variable {rule}

/-- What has the shape of a clause is one. -/
theorem Refilled.clause {name : String} {items : List Content} {new : Content}
    (h : Refilled rule (.sequence [.scalar name, .sequence items]) new) :
    ∃ name' items', new = .sequence [.scalar name', .sequence items'] ∧
      RefilledItems rule items items' := by
  match new, h with
  | .sequence [.scalar name', .sequence items'], h => exact ⟨name', items', rfl, h.2.1⟩

/-- Refilled entries have the same names. -/
theorem RefilledEntries.names_eq : ∀ {old new : List (String × Content)},
    RefilledEntries rule old new → new.map Prod.fst = old.map Prod.fst
  | [], [], _ => rfl
  | (name, _) :: rest, (name', _) :: rest', h => by
    rw [List.map_cons, List.map_cons, h.1, RefilledEntries.names_eq h.2.2.2]
  | [], _ :: _, h => h.elim
  | _ :: _, [], h => h.elim

/-- Writing one description on both sides under one name keeps the shapes alike. -/
theorem RefilledEntries.insertEntry {name : String} {value value' : Content}
    (hvalue : Refilled rule value value')
    (hclause : name = Keyword.foreach.label → ClauseRefilled rule value value') :
    ∀ {old new : List (String × Content)}, RefilledEntries rule old new →
      RefilledEntries rule (OrderedMap.insertEntry name value old)
        (OrderedMap.insertEntry name value' new)
  | [], [], _ => ⟨rfl, hvalue, hclause, trivial⟩
  | (other, _) :: rest, (other', _) :: rest', h => by
    obtain ⟨rfl, hold, holdClause, hrest⟩ := h
    rw [OrderedMap.insertEntry, OrderedMap.insertEntry]
    split
    · exact ⟨rfl, hvalue, hclause, hrest⟩
    · exact ⟨rfl, hold, holdClause, RefilledEntries.insertEntry hvalue hclause hrest⟩
  | [], _ :: _, h => h.elim
  | _ :: _, [], h => h.elim

end Content

namespace Template

/-- The attributes of one element keep to a rule under the names of those of another. -/
def AttributesRefilled (old new : List (String × String)) : Prop :=
  List.Forall₂ (fun entry entry' : String × String => entry'.1 = entry.1 ∧ rule.text entry'.2) old new

/-- A template has the shape of another one, and its texts keep to a rule. -/
structure Refilled (old new : Template) : Prop where
  children : Content.RefilledEntries rule old.children.entries new.children.entries
  attrs : AttributesRefilled rule old.attrs.entries new.attrs.entries
  body : rule.text new.body

variable {rule}

/-- An empty template is refilled by an empty one. -/
theorem refilled_empty : Refilled rule .empty .empty := ⟨trivial, .nil, rule.text_empty⟩

/-- Refilled attributes stay so when both sides are rewritten by functions that respect the rule. -/
theorem AttributesRefilled.mapText {first second : String → String}
    (hrule : rule.Respects first second) {old new : List (String × String)}
    (h : AttributesRefilled rule old new) :
    AttributesRefilled rule (old.map fun entry => (entry.1, first entry.2))
      (new.map fun entry => (entry.1, second entry.2)) := by
  induction h with
  | nil => exact .nil
  | cons hentry _ ih => exact .cons ⟨hentry.1, hrule.text hentry.2⟩ ih

/-- Copies of a template for other items have the shape of its copies. -/
theorem Refilled.substitute {old new : Template} (h : Refilled rule old new)
    (first second : Repetition) (item : String) {other : String} (hother : rule.text other) :
    Refilled rule (old.substitute (.single first.token item))
      (new.substitute (.single second.token other)) := by
  have hrule := rule.respects_substitute first second item hother
  have hchildren := Content.Refilled.mapText hrule (.map old.children) (.map new.children)
    ((Content.refilled_map_iff rule).2 h.children)
  refine ⟨(Content.refilled_map_iff rule).1 hchildren, ?_, hrule.text h.body⟩
  show AttributesRefilled rule (old.attrs.mapValues _).entries (new.attrs.mapValues _).entries
  rw [OrderedMap.entries_mapValues, OrderedMap.entries_mapValues]
  exact h.attrs.mapText hrule

end Template

/-- A computation on new texts keeps up with one on the old texts: where that one succeeds, it does
so too, with a result that is related, or fails as the rule allows. -/
def Keeps {ε α β : Type} (related : α → β → Prop) (old : Except ε α) (new : Except Error β) : Prop :=
  ∀ value, old = .ok value →
    (∃ value', new = .ok value' ∧ related value value') ∨
      ∃ error, new = .error error ∧ rule.Allows error

namespace Keeps

variable {rule} {ε α β α' β' : Type} {related : α → β → Prop} {related' : α' → β' → Prop}

/-- Two values that are related are kept. -/
theorem ok {value : α} {value' : β} (h : related value value') :
    Keeps rule related (.ok value : Except ε α) (.ok value') := by
  intro result hresult
  cases hresult
  exact .inl ⟨value', rfl, h⟩

/-- There is nothing to keep where the old side fails. -/
theorem error (error : ε) (new : Except Error β) :
    Keeps rule related (.error error) new := by
  intro result hresult
  cases hresult

/-- Two steps that keep the rule keep it together. -/
theorem bind {old : Except ε α} {new : Except Error β} {next : α → Except ε α'}
    {next' : β → Except Error β'} (hstep : Keeps rule related old new)
    (hnext : ∀ value value', old = .ok value → related value value' →
      Keeps rule related' (next value) (next' value')) :
    Keeps rule related' (old >>= next) (new >>= next') := by
  intro result hresult
  obtain ⟨value, hvalue, hlast⟩ := Template.bind_eq_ok_iff.1 hresult
  rcases hstep value hvalue with ⟨value', hvalue', hrelated⟩ | ⟨error, herror, hallows⟩
  · rw [hvalue']
    exact hnext value value' hvalue hrelated result hlast
  · rw [herror]
    exact .inr ⟨error, rfl, hallows⟩

/-- Where both succeed, the results are related. -/
theorem related_of_ok {old : Except ε α} {new : Except Error β} (h : Keeps rule related old new)
    {value : α} {value' : β} (hold : old = .ok value) (hnew : new = .ok value') :
    related value value' := by
  rcases h value hold with ⟨found, hfound, hrelated⟩ | ⟨error, herror, -⟩
  · rw [hnew] at hfound
    cases hfound
    exact hrelated
  · rw [hnew] at herror
    cases herror

/-- Where only the one on the new texts fails, the rule allows it. -/
theorem allows_of_error {old : Except ε α} {new : Except Error β} (h : Keeps rule related old new)
    {value : α} {error : Error} (hold : old = .ok value) (hnew : new = .error error) :
    rule.Allows error := by
  rcases h value hold with ⟨found, hfound, -⟩ | ⟨other, hother, hallows⟩
  · rw [hnew] at hfound
    cases hfound
  · rw [hnew] at hother
    cases hother
    exact hallows

/-- What keeps a relation keeps a weaker one. -/
theorem imp {old : Except ε α} {new : Except Error β} {other : α → β → Prop}
    (h : Keeps rule related old new) (himp : ∀ value value', related value value' →
      other value value') : Keeps rule other old new := by
  intro value hvalue
  exact (h value hvalue).imp_left fun ⟨value', hvalue', hrelated⟩ =>
    ⟨value', hvalue', himp value value' hrelated⟩

/-- What is made of two values that are kept is kept. -/
theorem map {old : Except ε α} {new : Except Error β} {make : α → α'} {make' : β → β'}
    (hstep : Keeps rule related old new)
    (hmake : ∀ value value', related value value' → related' (make value) (make' value')) :
    Keeps rule related' (old.map make) (new.map make') := by
  have hbind := hstep.bind fun value value' _ h =>
    (ok (hmake value value' h) : Keeps rule related' (.ok (make value) : Except ε α') _)
  cases old <;> cases new <;> exact hbind

/-- Steps that keep the rule for each value keep it for all. -/
theorem mapM {make : α → Except ε α'} {make' : β → Except Error β'} {values : List α}
    {values' : List β} (hvalues : List.Forall₂ related values values')
    (hmake : ∀ value ∈ values, ∀ value', related value value' →
      Keeps rule related' (make value) (make' value')) :
    Keeps rule (List.Forall₂ related') (values.mapM make) (values'.mapM make') := by
  induction hvalues with
  | nil => exact ok .nil
  | cons hfirst _ ih =>
    rw [List.mapM_cons, List.mapM_cons]
    apply bind (hmake _ List.mem_cons_self _ hfirst)
    intro made made' _ hmade
    apply bind (ih fun value hvalue => hmake value (List.mem_cons_of_mem _ hvalue))
    intro others others' _ hothers
    exact ok (.cons hmade hothers)

end Keeps

namespace Template

variable {rule}

/-- A check of a text that follows the rule is passed if the old one was. -/
theorem keeps_check {ε : Type} (old : Except ε Unit) (field : String) {text : String}
    (h : rule.text text) :
    Keeps rule (fun _ _ => True) old (CharacterData.check field text) := by
  intro _ _
  cases hcheck : CharacterData.check field text with
  | ok => exact .inl ⟨(), rfl, trivial⟩
  | error error =>
    have hnot : ¬ Carries text := by
      intro hcarries
      rw [(CharacterData.check_eq_ok_iff field text).2 hcarries] at hcheck
      cases hcheck
    unfold CharacterData.check at hcheck
    split at hcheck
    · cases hcheck
      exact .inr ⟨_, rfl, .inl ⟨⟨_, _, rfl⟩, text, h, hnot⟩⟩
    · cases hcheck

/-- Checks of refilled attributes are passed if those of the old ones were. -/
theorem keeps_checkAttributes {old new : List (String × String)}
    (h : AttributesRefilled rule old new) :
    Keeps rule (fun _ _ => True) (checkAttributes old) (checkAttributes new) := by
  induction h with
  | nil => exact Keeps.ok trivial
  | cons hentry _ ih =>
    apply Keeps.bind (keeps_check _ _ hentry.2)
    intro _ _ _ _
    exact ih

/-- Checks of a refilled template are passed if those of the old one were. -/
theorem keeps_checkTexts {old new : Template} (h : Refilled rule old new) :
    Keeps rule (fun _ _ => True) old.checkTexts new.checkTexts := by
  apply Keeps.bind (keeps_check _ _ h.body)
  intro _ _ _ _
  exact keeps_checkAttributes h.attrs

/-- Attributes are read from refilled entries if they were from the old ones. -/
theorem keeps_attributeEntries : ∀ {names names' : List String} {old : Entries Content names}
    {new : Entries Content names'}, Content.RefilledEntries rule old.toList new.toList →
    Keeps rule (fun attrs attrs' => AttributesRefilled rule attrs.toList attrs'.toList)
      (attributeEntries old) (attributeEntries new)
  | _, _, .nil, .nil, _ => Keeps.ok .nil
  | _, _, .cons name (.scalar _) _ rest, .cons name' (.scalar _) _ rest', h => by
    obtain ⟨hname, htext, -, hrest⟩ := h
    apply Keeps.bind (keeps_attributeEntries hrest)
    intro others others' _ hothers
    exact Keeps.ok (.cons ⟨hname, htext⟩ hothers)
  | _, _, .cons _ (.map _) _ _, _, _ => Keeps.error _ _
  | _, _, .cons _ (.sequence _) _ _, _, _ => Keeps.error _ _
  | _, _, .cons _ (.scalar _) _ _, .cons _ (.map _) _ _, h => h.2.1.elim
  | _, _, .cons _ (.scalar _) _ _, .cons _ (.sequence _) _ _, h => h.2.1.elim
  | _, _, .nil, .cons _ _ _ _, h => h.elim
  | _, _, .cons _ _ _ _, .nil, h => h.elim

/-- Attributes are read from a refilled content if they were from the old one. -/
theorem keeps_attributesOf : ∀ {old new : Content}, Content.Refilled rule old new →
    Keeps rule (fun attrs attrs' => AttributesRefilled rule attrs.entries attrs'.entries)
      (attributesOf old) (attributesOf new)
  | .map old, .map new, h => by
    apply Keeps.bind (keeps_attributeEntries ((Content.refilled_map_iff rule).1 h))
    intro held held' _ hentries
    exact Keeps.ok hentries
  | .scalar _, _, _ => Keeps.error _ _
  | .sequence _, _, _ => Keeps.error _ _
  | .map _, .scalar _, h => h.elim
  | .map _, .sequence _, h => h.elim

/-- A refilled child can be added if the old one could. -/
theorem keeps_addChild {old new : Template} (h : Refilled rule old new) (name : String)
    {value value' : Content} (hvalue : Content.Refilled rule value value')
    (hclause : name = Keyword.foreach.label → Content.ClauseRefilled rule value value') :
    Keeps rule (Refilled rule) (old.addChild name value) (new.addChild name value') := by
  -- whether a name is taken depends on the names alone
  have hcontains : new.children.contains name = old.children.contains name := by
    rw [Bool.eq_iff_iff, OrderedMap.contains_iff_mem_names, OrderedMap.contains_iff_mem_names,
      OrderedMap.names_eq, h.children.names_eq, OrderedMap.names_eq]
  unfold addChild
  rw [hcontains]
  split
  · exact Keeps.error _ _
  · refine Keeps.ok ⟨?_, h.attrs, h.body⟩
    rw [OrderedMap.entries_insert, OrderedMap.entries_insert]
    exact h.children.insertEntry hvalue hclause

/-- Refilled children can be added if the old ones could. -/
theorem keeps_addChildren : ∀ {entries entries' : List (String × Content)},
    Content.RefilledEntries rule entries entries' → ∀ {old new : Template}, Refilled rule old new →
    Keeps rule (Refilled rule) (old.addChildren entries) (new.addChildren entries')
  | [], [], _, _, _, h => Keeps.ok h
  | (name, _) :: rest, (name', _) :: rest', hentries, old, new, h => by
    obtain ⟨rfl, hvalue, hclause, hrest⟩ := hentries
    apply Keeps.bind (keeps_addChild h _ hvalue hclause)
    intro added added' _ hadded
    exact keeps_addChildren hrest hadded
  | [], _ :: _, hentries, _, _, _ => hentries.elim
  | _ :: _, [], hentries, _, _, _ => hentries.elim

end Template

namespace Repetition

variable {rule}

/-- One repetition has as many items as another, and they keep to the rule. -/
def Refilled (rule : TextRule) (old new : Repetition) : Prop :=
  List.Forall₂ (fun _ item => rule.text item) old.items new.items

/-- Texts are read from refilled items if they were from the old ones. -/
theorem texts?_refilled : ∀ {old new : List Content} {texts : List String},
    Content.RefilledItems rule old new → texts? old = some texts →
    ∃ texts', texts? new = some texts' ∧ List.Forall₂ (fun _ item => rule.text item) texts texts'
  | [], [], _, _, h => by
    cases h
    exact ⟨[], rfl, .nil⟩
  | .scalar text :: rest, .scalar text' :: rest', _, hrefilled, h => by
    obtain ⟨others, hothers, hsome⟩ := Option.bind_eq_some_iff.1 h
    obtain ⟨others', hothers', hall⟩ := texts?_refilled hrefilled.2 hothers
    cases hsome
    refine ⟨text' :: others', ?_, .cons hrefilled.1 hall⟩
    simp only [texts?, Content.text?, hothers', Option.bind_eq_bind, Option.bind_some,
      Option.pure_def]
  | .map _ :: _, _, _, _, h => by cases h
  | .sequence _ :: _, _, _, _, h => by cases h
  | .scalar _ :: _, .map _ :: _, _, hrefilled, _ => hrefilled.1.elim
  | .scalar _ :: _, .sequence _ :: _, _, hrefilled, _ => hrefilled.1.elim
  | [], _ :: _, _, hrefilled, _ => hrefilled.elim
  | _ :: _, [], _, hrefilled, _ => hrefilled.elim

/-- A clause that describes a repetition has a placeholder that is not empty, and items that are
texts. -/
theorem of_parseClause {clause : Content} {repetition : Repetition}
    (h : parseClause clause = .ok repetition) : ∃ items,
      clause = .sequence [.scalar repetition.placeholder, .sequence items] ∧
        repetition.placeholder ≠ "" ∧ items ≠ [] ∧ texts? items = some repetition.items := by
  unfold parseClause at h
  split at h
  · simp only [bind, Except.bind, pure, Except.pure, throw, throwThe, MonadExceptOf.throw] at h
    repeat' split at h
    all_goals
      cases h
    simp_all
  · cases h
  · cases h

/-- A clause whose items are texts fails for its placeholder alone. -/
theorem parseClause_of_items {name : String} {items : List Content} {texts : List String}
    (hitems : items ≠ []) (htexts : texts? items = some texts) :
    parseClause (.sequence [.scalar name, .sequence items]) =
      if name = "" then .error .placeholderEmpty else .ok ⟨name, texts⟩ := by
  unfold parseClause
  simp only [bind, Except.bind, pure, Except.pure, throw, throwThe, MonadExceptOf.throw]
  simp [hitems, htexts]

/-- A refilled clause is read if the old one was. -/
theorem keeps_parse {old new : Content} (h : Content.Refilled rule old new)
    (hclause : Content.ClauseRefilled rule old new) :
    Keeps rule (Refilled rule) (parse old) (parse new) := by
  intro repetition hparse
  have hold : parseClause old = .ok repetition := by
    cases hresult : parseClause old with
    | ok parsed =>
      rw [parse, hresult] at hparse
      cases hparse
      rfl
    | error fault =>
      rw [parse, hresult] at hparse
      cases hparse
  -- the new clause has the same parts, so it is at fault only if its placeholder is empty now
  obtain ⟨items, rfl, hname, hitems, htexts⟩ := of_parseClause hold
  obtain ⟨name', items', rfl, hrefilled⟩ := h.clause
  obtain ⟨texts', htexts', hall⟩ := texts?_refilled hrefilled htexts
  have hitems' : items' ≠ [] := by
    rintro rfl
    cases items with
    | nil => exact hitems rfl
    | cons => exact hrefilled.elim
  have hparsed := @parseClause_of_items name' items' texts' hitems' htexts'
  by_cases hempty : name' = ""
  · have hplaceholder : rule.placeholder repetition.placeholder name' :=
      hclause _ rfl _ rfl
    rw [if_pos hempty] at hparsed
    refine .inr ⟨_, by rw [parse, hparsed]; rfl, .inr ⟨⟨_, rfl⟩, repetition.placeholder, hname, ?_⟩⟩
    rw [← hempty]
    exact hplaceholder
  · rw [if_neg hempty] at hparsed
    exact .inl ⟨⟨name', texts'⟩, by rw [parse, hparsed]; rfl, hall⟩

end Repetition

namespace Template

variable {rule}

/-- One description has the template of another with other texts, and a repetition where that one
has one. -/
structure Description.Refilled (rule : TextRule) (old new : Description) : Prop where
  template : Template.Refilled rule old.template new.template
  repetition : Option.Rel (Repetition.Refilled rule) old.repetition new.repetition

/-- A refilled entry can be taken in if the old one could. -/
theorem keeps_addEntry {old new : Description} (h : Description.Refilled rule old new) (name : String)
    {value value' : Content} (hvalue : Content.Refilled rule value value')
    (hclause : name = Keyword.foreach.label → Content.ClauseRefilled rule value value') :
    Keeps rule (Description.Refilled rule) (old.addEntry name value) (new.addEntry name value') := by
  unfold Description.addEntry
  cases hkeyword : Keyword.ofLabel? name with
  | none =>
    apply Keeps.bind (keeps_addChild h.template name hvalue hclause)
    intro template template' _ htemplate
    exact Keeps.ok ⟨htemplate, h.repetition⟩
  | some keyword =>
    cases keyword with
    | children =>
      match value, value', hvalue with
      | .map _, .map _, hvalue =>
        apply Keeps.bind (keeps_addChildren ((Content.refilled_map_iff rule).1 hvalue) h.template)
        intro template template' _ htemplate
        exact Keeps.ok ⟨htemplate, h.repetition⟩
      | .scalar _, _, _ => exact Keeps.error _ _
      | .sequence _, _, _ => exact Keeps.error _ _
    | attrs =>
      apply Keeps.bind (keeps_attributesOf hvalue)
      intro attrs attrs' _ hattrs
      exact Keeps.ok ⟨⟨h.template.children, hattrs, h.template.body⟩, h.repetition⟩
    | body =>
      match value, value', hvalue with
      | .scalar _, .scalar _, hvalue =>
        exact Keeps.ok ⟨⟨h.template.children, h.template.attrs, hvalue⟩, h.repetition⟩
      | .map _, _, _ => exact Keeps.error _ _
      | .sequence _, _, _ => exact Keeps.error _ _
    | foreach =>
      have hforeach := hclause ((Keyword.ofLabel?_eq_some_iff name .foreach).1 hkeyword)
      apply Keeps.bind (Repetition.keeps_parse hvalue hforeach)
      intro repetition repetition' _ hrepetition
      exact Keeps.ok ⟨h.template, .some hrepetition⟩

/-- Refilled entries can be taken in if the old ones could. -/
theorem keeps_addEntries : ∀ {entries entries' : List (String × Content)},
    Content.RefilledEntries rule entries entries' → ∀ {old new : Description},
    Description.Refilled rule old new →
    Keeps rule (Description.Refilled rule) (old.addEntries entries) (new.addEntries entries')
  | [], [], _, _, _, h => Keeps.ok h
  | (name, _) :: rest, (name', _) :: rest', hentries, old, new, h => by
    obtain ⟨rfl, hvalue, hclause, hrest⟩ := hentries
    apply Keeps.bind (keeps_addEntry h _ hvalue hclause)
    intro added added' _ hadded
    exact keeps_addEntries hrest hadded
  | [], _ :: _, hentries, _, _, _ => hentries.elim
  | _ :: _, [], hentries, _, _, _ => hentries.elim

/-- The templates of a description have the shapes of those of another, one by one. -/
theorem Description.Refilled.templates {old new : Description}
    (h : Description.Refilled rule old new) :
    List.Forall₂ (Template.Refilled rule) old.templates new.templates := by
  obtain ⟨template, repetition⟩ := old
  obtain ⟨template', repetition'⟩ := new
  obtain ⟨htemplate, hrepetition⟩ := h
  cases hrepetition with
  | none => exact .cons htemplate .nil
  | some hrepetition =>
    rename_i first second
    show List.Forall₂ _ (first.copies template) (second.copies template')
    unfold Repetition.copies
    rw [List.forall₂_map_left_iff, List.forall₂_map_right_iff]
    exact hrepetition.imp fun item item' hitem => htemplate.substitute first second item hitem

/-- Refilled members describe siblings if the old ones did. -/
theorem keeps_siblings {old new : ContentMap}
    (h : Content.RefilledEntries rule old.entries new.entries) :
    Keeps rule (List.Forall₂ (Refilled rule)) (siblings old) (siblings new) := by
  have hdescribe : Keeps rule (Description.Refilled rule) (describe old) (describe new) :=
    keeps_addEntries h ⟨refilled_empty, .none⟩
  exact hdescribe.map fun _ _ hdescription => hdescription.templates

/-- Elements in a row put the names of others down. -/
def SameNames (old new : List Element) : Prop :=
  Element.namesOfAll new = Element.namesOfAll old

/-- The names of two rows of elements are those of the first and those of the second. -/
theorem namesOfAll_append (first second : List Element) :
    Element.namesOfAll (first ++ second) =
      Element.namesOfAll first ++ Element.namesOfAll second := by
  induction first with
  | nil => rfl
  | cons element rest ih => simp [Element.namesOfAll, ih]

/-- Rows of elements with the same names have them together. -/
theorem SameNames.append {old new others others' : List Element} (h : SameNames old new)
    (hothers : SameNames others others') : SameNames (old ++ others) (new ++ others') := by
  unfold SameNames at *
  rw [namesOfAll_append, namesOfAll_append, h, hothers]

/-- Elements with the same names, one by one, have the same names as rows. -/
theorem sameNames_of_forall₂ {old new : List Element}
    (h : List.Forall₂ (fun element element' => element'.names = element.names) old new) :
    SameNames old new := by
  induction h with
  | nil => rfl
  | cons hfirst _ ih =>
    unfold SameNames at *
    rw [Element.namesOfAll, Element.namesOfAll, hfirst, ih]

/-- Refilled attributes have the same names. -/
theorem AttributesRefilled.names_eq {old new : List (String × String)}
    (h : AttributesRefilled rule old new) : new.map Prod.fst = old.map Prod.fst := by
  induction h with
  | nil => rfl
  | cons hentry _ ih => rw [List.map_cons, List.map_cons, hentry.1, ih]

/-- Two elements of one name put the same names down when their attributes and children do. -/
theorem names_mk {old new : Template} (h : Refilled rule old new) (name : String)
    {children children' : List Element} (hchildren : SameNames children children') :
    (Element.mk name new.attrs.entries children' new.body).names =
      (Element.mk name old.attrs.entries children old.body).names := by
  unfold SameNames at hchildren
  rw [Element.names, Element.names, h.attrs.names_eq, hchildren]

/-- Where a template resolves, one with other texts resolves to elements of the same names, up to
the failures that the new texts can bring about. -/
theorem keeps_resolve {old new : Template} (h : Refilled rule old new) :
    Keeps rule SameNames old.resolve new.resolve := by
  -- one statement for each of the functions that call each other
  refine (resolve.mutual_induct
    (fun old => ∀ new, Refilled rule old new → Keeps rule SameNames old.resolve new.resolve)
    (fun old => ∀ new, Content.RefilledEntries rule old new →
      Keeps rule SameNames (resolveEntries old) (resolveEntries new))
    (fun name old => ∀ new, Content.Refilled rule old new →
      Keeps rule SameNames (resolveContent name old) (resolveContent name new))
    (fun name old => ∀ new, Content.RefilledItems rule old new →
      Keeps rule SameNames (resolveItems name old) (resolveItems name new))
    ?template ?noEntries ?entries ?scalar ?failed ?map ?sequence ?noItems ?items).1
    old new h
  case template =>
    intro old ih new h
    rw [resolve, resolve]
    apply Keeps.bind (keeps_checkTexts h)
    intro _ _ _ _
    exact ih new.children.entries h.children
  case noEntries =>
    intro new h
    cases new with
    | cons _ _ => exact h.elim
    | nil =>
      rw [resolveEntries]
      exact Keeps.ok rfl
  case entries =>
    intro name value rest ihValue ihRest new h
    cases new with
    | nil => exact h.elim
    | cons entry rest' =>
      obtain ⟨name', value'⟩ := entry
      obtain ⟨rfl, hvalue, -, hrest⟩ := h
      rw [resolveEntries, resolveEntries]
      apply Keeps.bind (ihValue value' hvalue)
      intro own own' _ hown
      apply Keeps.bind (ihRest rest' hrest)
      intro others others' _ hothers
      exact Keeps.ok (hown.append hothers)
  case scalar =>
    intro name text new h
    cases new with
    | map _ => exact h.elim
    | sequence _ => exact h.elim
    | scalar text' =>
      rw [resolveContent, resolveContent]
      apply Keeps.bind (keeps_check _ name h)
      intro _ _ _ _
      exact Keeps.ok rfl
  case failed =>
    intro name members error hfailed new h
    rw [resolveContent_map, hfailed]
    exact Keeps.error _ _
  case map =>
    intro name members templates hsiblings ih new h
    cases new with
    | scalar _ => exact h.elim
    | sequence _ => exact h.elim
    | map members' =>
      rw [resolveContent_map, resolveContent_map]
      apply Keeps.bind (keeps_siblings ((Content.refilled_map_iff rule).1 h))
      intro found found' hfound hall
      rw [hsiblings] at hfound
      cases hfound
      refine (Keeps.mapM hall ?_).imp fun _ _ => sameNames_of_forall₂
      intro template hmem template' htemplate
      apply Keeps.bind (ih template hmem template' htemplate)
      intro children children' _ hchildren
      exact Keeps.ok (names_mk htemplate name hchildren)
  case sequence =>
    intro name items ih new h
    cases new with
    | scalar _ => exact h.elim
    | map _ => exact h.elim
    | sequence items' =>
      rw [resolveContent, resolveContent]
      exact ih items' h
  case noItems =>
    intro name new h
    cases new with
    | cons _ _ => exact h.elim
    | nil =>
      rw [resolveItems]
      exact Keeps.ok rfl
  case items =>
    intro name item rest ihItem ihRest new h
    cases new with
    | nil => exact h.elim
    | cons item' rest' =>
      rw [resolveItems, resolveItems]
      apply Keeps.bind (ihItem item' h.1)
      intro own own' _ hown
      apply Keeps.bind (ihRest rest' h.2)
      intro others others' _ hothers
      exact Keeps.ok (hown.append hothers)

end Template

end XmlWorkload
