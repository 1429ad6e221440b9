import Mathlib
import XmlWorkload.Proofs.Pattern.Characters
import XmlWorkload.Proofs.Run.Cycle
import XmlWorkload.Proofs.Template.Refilling
import XmlWorkload.Workload.Reader

/-!
# Templates with their patterns filled in

A workload is accepted when its templates resolve before any pattern in them is filled in.  What a
cycle fills in are texts, so that names and shapes stay.  But a placeholder may become empty, and a
token may come to stand for an item with a character that no document carries.  Main statements: the
template of a cycle resolves to elements of the names that it had at first, up to these failures,
and without them where no text has such a character and no placeholder has a brace or a bracket
(`Workload.resolve_filled`); and a placeholder that becomes empty does keep a template from being
resolved (`Workload.not_resolve_filled`).
-/

set_option autoImplicit false

namespace XmlWorkload

open CharacterData (Carries)
open XmlWorkload.Random (Draw Yields yields_pure run_bind_eq_some_iff run_pure_eq_some_iff)

namespace TextRule

/-- Nothing is known of the new texts. -/
def any : TextRule where
  text _ := True
  placeholder _ _ := True
  text_empty := trivial
  text_substitute _ _ _ _ _ := trivial
  placeholder_substitute _ _ _ _ _ _ _ := trivial

/-- The empty text can be carried. -/
theorem carries_empty : Carries "" := List.forall_mem_nil _

/-- A document can carry the new texts. -/
def carried : TextRule where
  text := Carries
  placeholder _ _ := True
  text_empty := carries_empty
  text_substitute token _ _ := Substitution.carries_apply token
  placeholder_substitute _ _ _ _ _ _ _ := trivial

/-- A text without a bracket has no token in it. -/
theorem apply_token_of_not_mem {text : String} (h : '[' ∉ text.toList) (repetition : Repetition)
    (item : String) : (Substitution.single repetition.token item).apply text = text := by
  have htoken : repetition.token.toList = '[' :: (repetition.placeholder ++ "]").toList := by
    simp [Repetition.token, String.toList_append]
  have hnone := Text.replaceAll_of_not_mem h (repetition.placeholder ++ "]").toList item.toList
  show String.ofList (Text.replaceAll repetition.token.toList item.toList text.toList) = text
  rw [htoken, hnone, String.ofList_toList]

/-- A document can carry the new texts, and the placeholders are the old ones and without a
bracket. -/
def fixed : TextRule where
  text := Carries
  placeholder old new := new = old ∧ '[' ∉ old.toList
  text_empty := carries_empty
  text_substitute token _ _ := Substitution.carries_apply token
  placeholder_substitute first second item other := by
    rintro old new ⟨rfl, hplain⟩
    rw [apply_token_of_not_mem hplain, apply_token_of_not_mem hplain]
    exact ⟨rfl, hplain⟩

/-- When a document can carry the new texts then only a placeholder can be at fault. -/
theorem of_carried_allows {error : Error} (h : carried.Allows error) :
    ∃ clause, error = .malformedRepetition clause .placeholderEmpty := by
  rcases h with ⟨-, text, hcarries, hnot⟩ | ⟨hclause, -⟩
  · exact absurd hcarries hnot
  · exact hclause

/-- When the placeholders are the old ones then they are not at fault either. -/
theorem not_fixed_allows (error : Error) : ¬ fixed.Allows error := by
  rintro (⟨-, text, hcarries, hnot⟩ | ⟨-, old, hne, hsame, -⟩)
  · exact hnot hcarries
  · exact hne hsame.symm

end TextRule

namespace Content

mutual

/-- The placeholders of the clauses in a description, wherever a clause may stand. -/
def placeholders : Content → List String
  | .scalar _ => []
  | .map ⟨entries⟩ => placeholdersOfEntries entries
  | .sequence items => placeholdersOfItems items

/-- The placeholders of the clauses among entries and in their values. -/
def placeholdersOfEntries {names : List String} : Entries Content names → List String
  | .nil => []
  | .cons name value _ rest =>
    (if name = Keyword.foreach.label then value.placeholder?.toList else []) ++
      (placeholders value ++ placeholdersOfEntries rest)

/-- The placeholders of the clauses in items. -/
def placeholdersOfItems : List Content → List String
  | [] => []
  | item :: rest => placeholders item ++ placeholdersOfItems rest

end

variable {rule : TextRule} {ρ : Type} {fill : String → Draw ρ String}

/-- The placeholder of a filled clause is the filled placeholder of the clause. -/
theorem yields_clauseRefilled {content : Content}
    (h : ∀ name ∈ content.placeholder?, Yields (fill name) (rule.placeholder name)) :
    Yields (content.mapTextM fill) (ClauseRefilled rule content) := by
  -- only a sequence that begins with a text has a placeholder
  have hother : content.placeholder? = none →
      Yields (content.mapTextM fill) (ClauseRefilled rule content) := by
    intro hnone source drawn _ name hname
    rw [hnone] at hname
    cases hname
  obtain text | ⟨entries⟩ | ⟨_ | ⟨⟨name⟩ | _ | _, rest⟩⟩ := content
  case sequence.cons.scalar =>
    have hitems : Yields (mapItemsM fill (.scalar name :: rest)) fun filled =>
        ∃ name' rest', filled = .scalar name' :: rest' ∧ rule.placeholder name name' := by
      have hfirst : Yields ((Content.scalar name).mapTextM fill) fun filled =>
          ∃ name', filled = .scalar name' ∧ rule.placeholder name name' :=
        (h name rfl).bind fun name' hname' => yields_pure ⟨name', rfl, hname'⟩
      refine hfirst.bind ?_
      rintro _ ⟨name', rfl, hname'⟩ source drawn hrun
      obtain ⟨others, -, hpure⟩ := run_bind_eq_some_iff.1 hrun
      rw [← run_pure_eq_some_iff.1 hpure]
      exact ⟨name', others.1, rfl, hname'⟩
    refine hitems.bind ?_
    rintro _ ⟨name', rest', rfl, hname'⟩
    refine yields_pure fun old hold new hnew => ?_
    cases hold
    cases hnew
    exact hname'
  all_goals exact hother rfl

mutual

/-- Filling texts in gives a description of the same shape, and the rule holds that each text
obeys. -/
theorem yields_refilled : ∀ (content : Content),
    (∀ text ∈ content.texts, Yields (fill text) rule.text) →
    (∀ name ∈ content.placeholders, Yields (fill name) (rule.placeholder name)) →
    Yields (content.mapTextM fill) (Refilled rule content)
  | .scalar text, htexts, _ =>
    (htexts text List.mem_cons_self).bind fun _ hfilled => yields_pure hfilled
  | .map ⟨entries⟩, htexts, hnames =>
    (yields_refilledMembers entries htexts hnames).bind fun _ hfilled => yields_pure hfilled
  | .sequence items, htexts, hnames =>
    (yields_refilledItems items htexts hnames).bind fun _ hfilled => yields_pure hfilled

/-- Filling the texts of entries in keeps their names and shapes. -/
theorem yields_refilledMembers : ∀ {names : List String} (entries : Entries Content names),
    (∀ text ∈ textsOfEntries entries, Yields (fill text) rule.text) →
    (∀ name ∈ placeholdersOfEntries entries, Yields (fill name) (rule.placeholder name)) →
    Yields (mapEntriesM fill entries) fun filled => RefilledMembers rule entries filled.toList
  | _, .nil, _, _ => yields_pure trivial
  | _, .cons name value _ rest, htexts, hnames => by
    simp only [textsOfEntries, placeholdersOfEntries, List.forall_mem_append] at htexts hnames
    have hvalue := yields_refilled value htexts.1 hnames.2.1
    have hclause : Yields (value.mapTextM fill) fun filled =>
        name = Keyword.foreach.label → ClauseRefilled rule value filled := by
      intro source drawn hrun hforeach
      rw [if_pos hforeach] at hnames
      exact yields_clauseRefilled (fun old hold => hnames.1 old (Option.mem_toList.2 hold))
        source drawn hrun
    refine (hvalue.and hclause).bind fun filled hfilled => ?_
    refine (yields_refilledMembers rest htexts.2 hnames.2.2).bind fun others hothers => ?_
    exact yields_pure ⟨rfl, hfilled.1, hfilled.2, hothers⟩

/-- Filling the texts of items in keeps their shapes. -/
theorem yields_refilledItems : ∀ (items : List Content),
    (∀ text ∈ textsOfItems items, Yields (fill text) rule.text) →
    (∀ name ∈ placeholdersOfItems items, Yields (fill name) (rule.placeholder name)) →
    Yields (mapItemsM fill items) (RefilledItems rule items)
  | [], _, _ => yields_pure trivial
  | item :: rest, htexts, hnames => by
    simp only [textsOfItems, placeholdersOfItems, List.forall_mem_append] at htexts hnames
    refine (yields_refilled item htexts.1 hnames.1).bind fun filled hfilled => ?_
    refine (yields_refilledItems rest htexts.2 hnames.2).bind fun others hothers => ?_
    exact yields_pure ⟨hfilled, hothers⟩

end

end Content

namespace Template

/-- The texts of a template: those of its children, of its attributes, and its own. -/
def texts (template : Template) : List String :=
  Content.textsOfEntries template.children.held ++
    (template.attrs.entries.map Prod.snd ++ [template.body])

/-- The placeholders of the clauses in a template. -/
def placeholders (template : Template) : List String :=
  Content.placeholdersOfEntries template.children.held

variable {rule : TextRule} {ρ : Type} {fill : String → Draw ρ String}

/-- Filling values in keeps their names. -/
theorem yields_attributesRefilled {names : List String} {entries : Entries String names}
    (htexts : ∀ text ∈ entries.toList.map Prod.snd, Yields (fill text) rule.text) :
    Yields (entries.mapM fill) fun filled =>
      AttributesRefilled rule entries.toList filled.toList := by
  induction entries with
  | nil => exact yields_pure .nil
  | cons name value fresh rest ih =>
    rw [Entries.toList, List.map_cons, List.forall_mem_cons] at htexts
    refine htexts.1.bind fun filled hfilled => ?_
    refine (ih htexts.2).bind fun others hothers => ?_
    exact yields_pure (.cons ⟨rfl, hfilled⟩ hothers)

/-- Filling texts in gives a template of the same shape. -/
theorem yields_refilled {template : Template}
    (htexts : ∀ text ∈ template.texts, Yields (fill text) rule.text)
    (hnames : ∀ name ∈ template.placeholders, Yields (fill name) (rule.placeholder name)) :
    Yields (template.mapTextM fill) (Refilled rule template) := by
  simp only [texts, List.forall_mem_append, List.forall_mem_singleton] at htexts
  obtain ⟨hchildren, hattrs, hbody⟩ := htexts
  have hmembers : Yields (template.children.mapTextM fill) fun filled =>
      Content.RefilledEntries rule template.children.entries filled.entries :=
    (Content.yields_refilledMembers _ hchildren hnames).bind fun held hheld =>
      yields_pure ((Content.refilledMembers_iff rule _ _).1 hheld)
  have hvalues : Yields (template.attrs.mapValuesM fill) fun filled =>
      AttributesRefilled rule template.attrs.entries filled.entries :=
    (yields_attributesRefilled hattrs).bind fun held hheld => yields_pure hheld
  refine hmembers.bind fun children hchildren => hvalues.bind fun attrs hattrs => ?_
  exact hbody.bind fun body hbody => yields_pure ⟨hchildren, hattrs, hbody⟩

end Template

/-- An operation that passes its check has a template that resolves. -/
theorem OperationDeclaration.resolve_of_check {declaration : OperationDeclaration}
    {name : String} {operation : Operation} (h : declaration.check name = .ok operation) :
    ∃ elements, operation.template.resolve = .ok elements := by
  have hresolved : ∀ {template : Template} {elements : List Element},
      template.resolve.mapError OperationFault.template = .ok elements →
        template.resolve = .ok elements := by
    intro template elements h
    cases hresolve : template.resolve with
    | ok found =>
      rw [hresolve] at h
      cases h
      rfl
    | error error =>
      rw [hresolve] at h
      cases h
  unfold check at h
  by_cases hpath : declaration.path = []
  · rw [if_pos hpath] at h
    cases h
  rw [if_neg hpath] at h
  obtain ⟨file, -, h⟩ := Template.bind_eq_ok_iff.1 h
  -- whether or not attributes are declared, the check goes on in the same way
  dsimp only at h
  split at h
  all_goals
    obtain ⟨attrs, -, h⟩ := Template.bind_eq_ok_iff.1 h
    obtain ⟨body, -, h⟩ := Template.bind_eq_ok_iff.1 h
    obtain ⟨elements, hchecked, h⟩ := Template.bind_eq_ok_iff.1 h
    cases h
    exact ⟨elements, hresolved hchecked⟩

namespace Workload

/-- The template of a cycle is that of its operation with every pattern in it filled in. -/
theorem template_of_resolve {workload : Workload} {seed cycle : Nat} {step : CycleStep}
    (h : workload.resolve seed cycle = .ok step) : ∃ behind final : Random.ChaCha,
      ((workload.operationOf cycle).template.mapTextM fun text => Pattern.resolve text cycle).run
        behind = some (step.template, final) := by
  obtain ⟨named, file, filled, -, -, hfilled, rfl⟩ := eq_of_resolve h
  obtain ⟨path, -, hfilled⟩ := run_bind_eq_some_iff.1 hfilled
  obtain ⟨template, htemplate, hpure⟩ := run_bind_eq_some_iff.1 hfilled
  cases hpure
  exact ⟨path.2, template.2, htemplate⟩

/-- Let a workload be accepted, and let a cycle of it resolve.  The template of its operation
resolves before the patterns in it are filled in.  With the patterns filled in it can only fail to
resolve for a character that no document carries or for a repetition whose placeholder has become
empty, and otherwise resolves to elements of the same names.  The first failure is impossible where
a document can carry all texts of the template, and both are where no placeholder has a brace or a
bracket besides. -/
theorem resolve_filled {text : String} {workload : Workload}
    (hload : Workload.ofText text = .ok workload) {seed cycle : Nat} {step : CycleStep}
    (hstep : workload.resolve seed cycle = .ok step) :
    let template := (workload.operationOf cycle).template
    ∃ elements, template.resolve = .ok elements ∧
      (∀ filled, step.template.resolve = .ok filled →
        Element.namesOfAll filled = Element.namesOfAll elements) ∧
      (∀ error, step.template.resolve = .error error →
        (∃ field c, error = .invalidContent field (.forbiddenCharacter c)) ∨
          ∃ clause, error = .malformedRepetition clause .placeholderEmpty) ∧
      ((∀ text ∈ template.texts, Carries text) →
        (∀ error, step.template.resolve = .error error →
          ∃ clause, error = .malformedRepetition clause .placeholderEmpty) ∧
        ((∀ name ∈ template.placeholders, '\x7b' ∉ name.toList ∧ '[' ∉ name.toList) →
          ∃ filled, step.template.resolve = .ok filled)) := by
  intro template
  obtain ⟨declaration, name, hcheck⟩ := exists_check_of_ofText hload (workload.operationOf cycle)
    (List.get_mem _ _)
  obtain ⟨elements, helements⟩ := OperationDeclaration.resolve_of_check hcheck
  obtain ⟨behind, final, hfilled⟩ := template_of_resolve hstep
  -- each rule that the new texts keep to says which failures are possible
  have hkeeps : ∀ rule : TextRule,
      (∀ text ∈ template.texts,
        Yields (Pattern.resolve text cycle : Draw Random.ChaCha String) rule.text) →
      (∀ name ∈ template.placeholders,
        Yields (Pattern.resolve name cycle : Draw Random.ChaCha String) (rule.placeholder name)) →
      Keeps rule Template.SameNames template.resolve step.template.resolve := fun _ htexts hnames =>
    Template.keeps_resolve (Template.yields_refilled htexts hnames behind _ hfilled)
  have hany := hkeeps .any (fun _ _ _ _ _ => trivial) fun _ _ _ _ _ => trivial
  refine ⟨elements, helements, ?names, ?faults, ?carried⟩
  case names =>
    intro filled hresolve
    exact hany.related_of_ok helements hresolve
  case faults =>
    intro error herror
    exact (hany.allows_of_error helements herror).imp And.left And.left
  case carried =>
    intro htexts
    have hcarried : ∀ text ∈ template.texts,
        Yields (Pattern.resolve text cycle : Draw Random.ChaCha String) Carries :=
      fun text htext _ _ hrun => Pattern.carries_resolve (htexts text htext) hrun
    refine ⟨?_, ?_⟩
    · intro error herror
      have hcarriedKeeps := hkeeps .carried hcarried fun _ _ _ _ _ => trivial
      exact TextRule.of_carried_allows (hcarriedKeeps.allows_of_error helements herror)
    · intro hplain
      have hfixed : ∀ name ∈ template.placeholders,
          Yields (Pattern.resolve name cycle : Draw Random.ChaCha String)
            fun filled => filled = name ∧ '[' ∉ name.toList := by
        intro name hname
        rw [Pattern.resolve_of_plain (hplain name hname).1]
        exact yields_pure ⟨rfl, (hplain name hname).2⟩
      have hfixedKeeps := hkeeps .fixed hcarried hfixed
      rcases hfixedKeeps elements helements with ⟨filled, hresolve, -⟩ | ⟨error, -, hallows⟩
      · exact ⟨filled, hresolve⟩
      · exact absurd hallows (TextRule.not_fixed_allows error)

/-- A workload with one operation at the path `a` and the given children. -/
def ofChildren (children : ContentMap) : Workload :=
  ⟨none, "root", 1, [⟨"op0", .element, none, ["a"], ⟨children, .empty, ""⟩⟩], Nat.one_pos, by simp⟩

/-- The declaration of such a workload. -/
def declarationOf (children : ContentMap) : WorkloadDeclaration :=
  ⟨none, none, none, [⟨none, none, none, ["a"], none, some children, none⟩]⟩

/-- A text that declares children whose template resolves is a workload. -/
theorem ofText_ofChildren {text : String} {children : ContentMap}
    (htext : WorkloadDeclaration.ofText? text = some (declarationOf children))
    {elements : List Element} (hresolve : Template.resolve ⟨children, .empty, ""⟩ = .ok elements) :
    Workload.ofText text = .ok (ofChildren children) := by
  have hname : "op" ++ toString 0 = "op0" := by decide
  have hoperations : WorkloadDeclaration.checkOperations 0
      [⟨none, none, none, ["a"], none, some children, none⟩] =
        .ok [⟨"op0", .element, none, ["a"], ⟨children, .empty, ""⟩⟩] := by
    simp only [WorkloadDeclaration.checkOperations, OperationDeclaration.check,
      OperationDeclaration.optionalText, OperationDeclaration.resolvedCommand, Option.getD_some,
      Option.getD_none, bind, Except.bind, pure, Except.pure, reduceCtorEq, if_false, hresolve,
      Except.mapError, hname]
  have hcheck : (declarationOf children).check = .ok (ofChildren children) := by
    unfold WorkloadDeclaration.check declarationOf
    rw [dif_neg (List.cons_ne_nil _ _), dif_neg (show Option.getD none 1 ≠ 0 by decide)]
    split
    · next herror =>
      rw [hoperations] at herror
      cases herror
    · next hok =>
      rw [hoperations] at hok
      cases hok
      rfl
  simp only [Workload.ofText, htext, hcheck]
  rfl

/-- A cycle of such a workload resolves if its children can be filled in. -/
theorem resolve_ofChildren {children filled : ContentMap} {cycle : Nat}
    (h : (children.mapTextM fun text => Pattern.resolve text cycle) =
      (pure filled : Draw Random.ChaCha ContentMap)) (seed : Nat) :
    (ofChildren children).resolve seed cycle =
      .ok ⟨cycle, "op0", .element, cycle % 1, ["a"], ⟨filled, .empty, ""⟩⟩ := by
  have hoperation : (ofChildren children).operationOf cycle =
      ⟨"op0", .element, none, ["a"], ⟨children, .empty, ""⟩⟩ :=
    List.mem_singleton.1 (List.get_mem _ _)
  have hplain : ∀ text : String, '\x7b' ∉ text.toList →
      (Pattern.resolve text cycle : Draw Random.ChaCha String) = pure text :=
    fun text htext => Pattern.resolve_of_plain htext cycle
  have hvalues : ((OrderedMap.empty : OrderedMap String).mapValuesM fun text =>
      Pattern.resolve text cycle) = (pure .empty : Draw Random.ChaCha (OrderedMap String)) := rfl
  have hfill : (Operation.fill ⟨"op0", .element, none, ["a"], ⟨children, .empty, ""⟩⟩ cycle :
      Draw Random.ChaCha (List String × Template)) = pure (["a"], ⟨filled, .empty, ""⟩) := by
    simp only [Operation.fill, Operation.fillAll, Template.mapTextM, h, hvalues,
      hplain "a" (by decide), hplain "" (by decide), pure_bind]
  unfold resolve
  rw [hoperation]
  simp only [Operation.fillFile, hfill]
  rfl

/-- A text of a workload with a repetition in it. -/
def repeatedText : String :=
  "ops: [\x7bpath: [a], children: \x7b't': \x7b'foreach': ['p', ['\x7bindex\x7d']], 'body': '[p]'\x7d\x7d\x7d]"

/-- The children that the text declares. -/
def repeatedChildren : ContentMap :=
  .ofList [("t", .map (.ofList [
    ("foreach", .sequence [.scalar "p", .sequence [.scalar "\x7bindex\x7d"]]),
    ("body", .scalar "[p]")]))]

set_option maxRecDepth 4000 in
/-- The text of the repeated workload declares the repeated children. -/
theorem ofText?_repeated :
    WorkloadDeclaration.ofText? repeatedText = some (declarationOf repeatedChildren) := by cbv

/-- The children are filled in with the cycle. -/
theorem mapTextM_repeated :
    (repeatedChildren.mapTextM fun text => Pattern.resolve text 7) =
      (pure (.ofList [("t", .map (.ofList [
        ("foreach", .sequence [.scalar "p", .sequence [.scalar "7"]]),
        ("body", .scalar "[p]")]))]) : Draw Random.ChaCha ContentMap) := by
  have hplain : ∀ text : String, '\x7b' ∉ text.toList →
      (Pattern.resolve text 7 : Draw Random.ChaCha String) = pure text :=
    fun text htext => Pattern.resolve_of_plain htext 7
  have hindex : (Pattern.resolve "\x7bindex\x7d" 7 : Draw Random.ChaCha String) = pure "7" := by
    have hfilled : Pattern.fillIndex 7 "\x7bindex\x7d".toList = ['7'] := by rfl
    rw [Pattern.resolve, hfilled, Pattern.fillIdentifiers_of_plain (by decide), Random.always_pure,
      pure_bind, Pattern.fillNumbers_of_plain (by decide), pure_bind]
  have hchildren : repeatedChildren = ⟨.cons "t" (.map ⟨.cons "foreach"
      (.sequence [.scalar "p", .sequence [.scalar "\x7bindex\x7d"]]) (by decide)
      (.cons "body" (.scalar "[p]") List.not_mem_nil .nil)⟩) List.not_mem_nil .nil⟩ := rfl
  rw [hchildren]
  simp only [ContentMap.mapTextM, Content.mapEntriesM, Content.mapTextM, Content.mapItemsM, hindex,
    hplain "p" (by decide), hplain "[p]" (by decide), pure_bind]
  rfl

/-- A repetition whose item is a pattern resolves in a cycle. -/
theorem resolve_filled_small :
    ∃ step filled, Workload.ofText repeatedText = .ok (ofChildren repeatedChildren) ∧
      (ofChildren repeatedChildren).resolve 1 7 = .ok step ∧
      step.template.resolve = .ok filled := by
  have hresolve : Template.resolve ⟨repeatedChildren, .empty, ""⟩ =
      .ok [.leaf "t" "\x7bindex\x7d"] := by cbv
  have hload : Workload.ofText repeatedText = .ok (ofChildren repeatedChildren) :=
    ofText_ofChildren ofText?_repeated hresolve
  have hstep := resolve_ofChildren mapTextM_repeated 1
  obtain ⟨elements, -, -, -, hcarried⟩ := resolve_filled hload hstep
  have htexts : ∀ text ∈ ((ofChildren repeatedChildren).operationOf 7).template.texts,
      Carries text := by
    have hall : (["p", "\x7bindex\x7d", "[p]", ""].all fun text =>
        text.toList.all CharacterData.isAllowed) = true := by decide
    intro text htext
    exact List.all_eq_true.1 (List.all_eq_true.1 hall text htext)
  have hnames : ∀ name ∈ ((ofChildren repeatedChildren).operationOf 7).template.placeholders,
      '\x7b' ∉ name.toList ∧ '[' ∉ name.toList := by
    show ∀ name ∈ ["p"], _
    decide
  obtain ⟨filled, hfilled⟩ := (hcarried htexts).2 hnames
  exact ⟨_, filled, hload, hstep, hfilled⟩

/-- A text of a workload with a repetition whose placeholder is a number without digits. -/
def emptiedText : String :=
  "ops: [\x7bpath: [a], children: \x7b't': \x7b'foreach': ['\x7brand:0\x7d', ['x']]\x7d\x7d\x7d]"

/-- The children that the text declares, the placeholder of the repetition left open. -/
def emptiedChildren (placeholder : String) : ContentMap :=
  .ofList [("t", .map (.ofList [
    ("foreach", .sequence [.scalar placeholder, .sequence [.scalar "x"]])]))]

set_option maxRecDepth 4000 in
/-- The text of the emptied workload declares the emptied children. -/
theorem ofText?_emptied :
    WorkloadDeclaration.ofText? emptiedText =
      some (declarationOf (emptiedChildren "\x7brand:0\x7d")) := by cbv

/-- A number without digits is the empty text. -/
theorem resolve_noDigits {ρ : Type} [Random.WordSource ρ] (index : Nat) :
    (Pattern.resolve "\x7brand:0\x7d" index : Draw ρ String) = pure "" := by
  have hindex : Pattern.fillIndex index "\x7brand:0\x7d".toList = "\x7brand:0\x7d".toList := by rfl
  have hidentifiers : (Pattern.fillIdentifiers "\x7brand:0\x7d".toList : StateM ρ (List Char)) =
      pure "\x7brand:0\x7d".toList := by rfl
  have hsplit : Text.splitAtFirst? Pattern.numberMark "\x7brand:0\x7d".toList =
      some ([], "0\x7d".toList) := by rfl
  have hbrace : Pattern.splitAtBrace? "0\x7d".toList = some (['0'], []) := by rfl
  have hcount : Decimal.readUnsigned? Decimal.wordBound ['0'] = some 0 := by rfl
  have hnumbers : (Pattern.fillNumbers "\x7brand:0\x7d".toList : Draw ρ (List Char)) =
      pure [] := by
    rw [Pattern.fillNumbers_of_number hsplit hbrace hcount,
      Pattern.fillNumbers_of_plain (List.not_mem_nil)]
    rfl
  rw [Pattern.resolve, hindex, hidentifiers, Random.always_pure, pure_bind, hnumbers]
  rfl

/-- A workload is accepted, and a cycle of it resolves, whose placeholder has become empty then, so
that its template does not resolve. -/
theorem not_resolve_filled :
    ∃ workload step, Workload.ofText emptiedText = .ok workload ∧
      workload.resolve 42 0 = .ok step ∧
      step.template.resolve = .error (.malformedRepetition
        (.sequence [.scalar "", .sequence [.scalar "x"]]) .placeholderEmpty) := by
  have hresolve : Template.resolve ⟨emptiedChildren "\x7brand:0\x7d", .empty, ""⟩ =
      .ok [.leaf "t" ""] := by cbv
  have hload : Workload.ofText emptiedText = .ok (ofChildren (emptiedChildren "\x7brand:0\x7d")) :=
    ofText_ofChildren ofText?_emptied hresolve
  have hplain : ∀ text : String, '\x7b' ∉ text.toList →
      (Pattern.resolve text 0 : Draw Random.ChaCha String) = pure text :=
    fun text htext => Pattern.resolve_of_plain htext 0
  have hchildren : ∀ placeholder, emptiedChildren placeholder = ⟨.cons "t" (.map ⟨.cons "foreach"
      (.sequence [.scalar placeholder, .sequence [.scalar "x"]]) List.not_mem_nil .nil⟩)
      List.not_mem_nil .nil⟩ := fun _ => rfl
  have hfilled : ((emptiedChildren "\x7brand:0\x7d").mapTextM fun text => Pattern.resolve text 0) =
      (pure (emptiedChildren "") : Draw Random.ChaCha ContentMap) := by
    rw [hchildren, hchildren]
    simp only [ContentMap.mapTextM, Content.mapEntriesM, Content.mapTextM, Content.mapItemsM,
      resolve_noDigits, hplain "x" (by decide), pure_bind]
  refine ⟨_, _, hload, resolve_ofChildren hfilled 42, ?_⟩
  cbv

end Workload

end XmlWorkload
