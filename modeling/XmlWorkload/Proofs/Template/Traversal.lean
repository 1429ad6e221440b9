import XmlWorkload.Proofs.Random.Digits
import XmlWorkload.Proofs.Template.Commuting
import XmlWorkload.Proofs.Template.Places
import XmlWorkload.Workload.Cycle

/-!
# Replacing texts in turn

Texts are replaced by a function that may keep a state, such as a source of random words, and that
may fail, such as when a number is to have more digits than a text can have.  It is called once for
each place of a text, in the order of the places, and each call starts in the state in which the one
before it ended.  Main statement: what replacing texts gives is the template of the same names and
nesting in which every text is the outcome of its own call, and the state behind the last of them
(`Template.traversal_of_mapTextM`).
-/

set_option autoImplicit false

namespace XmlWorkload

open XmlWorkload.Random (Draw always run_bind_eq_some_iff run_pure_eq_some_iff)

/-- Calls of a function, one for each place of a row.  A call gets the old text at its place, starts
in the state in which the one before it ended, and gives the new text at its place. -/
inductive Calls {σ π : Type} (f : String → Draw σ String) (old new : π → Option String) :
    σ → List π → σ → Prop where
  | nil (state : σ) : Calls f old new state [] state
  | cons {state between final : σ} {place : π} {places : List π} {text replaced : String}
      (hold : old place = some text) (hrun : (f text).run state = some (replaced, between))
      (hnew : new place = some replaced) (hrest : Calls f old new between places final) :
      Calls f old new state (place :: places) final

namespace Calls

variable {σ π τ : Type} {f : String → Draw σ String} {old new new' : π → Option String}
  {state final final' : σ} {places others : List π}

/-- The calls for two rows of places are those for the first and then those for the second. -/
theorem append_iff : Calls f old new state (places ++ others) final ↔
    ∃ between, Calls f old new state places between ∧ Calls f old new between others final := by
  constructor
  · intro h
    induction places generalizing state with
    | nil => exact ⟨state, .nil state, h⟩
    | cons place places ih =>
      cases h with
      | cons hold hrun hnew hrest =>
        obtain ⟨between, hfirst, hsecond⟩ := ih hrest
        exact ⟨between, .cons hold hrun hnew hfirst, hsecond⟩
  · rintro ⟨between, h, hothers⟩
    induction h with
    | nil => exact hothers
    | cons hold hrun hnew _ ih => exact .cons hold hrun hnew (ih hothers)

/-- Calls for places that are known by other names. -/
theorem map_iff (name : π → τ) {old new : τ → Option String} :
    Calls f old new state (places.map name) final ↔
      Calls f (fun place => old (name place)) (fun place => new (name place)) state places final := by
  constructor
  · intro h
    induction places generalizing state with
    | nil =>
      cases h
      exact .nil _
    | cons place places ih =>
      cases h with
      | cons hold hrun hnew hrest => exact .cons hold hrun hnew (ih hrest)
  · intro h
    induction h with
    | nil => exact .nil _
    | cons hold hrun hnew _ ih => exact .cons hold hrun hnew ih

/-- The old texts and the state at first decide what the calls give. -/
theorem unique (h : Calls f old new state places final)
    (h' : Calls f old new' state places final') :
    final = final' ∧ ∀ place ∈ places, new place = new' place := by
  induction h with
  | nil =>
    cases h'
    exact ⟨rfl, List.forall_mem_nil _⟩
  | cons hold hrun hnew _ ih =>
    obtain _ | ⟨hold', hrun', hnew', hrest'⟩ := h'
    rw [hold, Option.some_inj] at hold'
    rw [← hold', hrun] at hrun'
    cases hrun'
    obtain ⟨hfinal, hplaces⟩ := ih hrest'
    exact ⟨hfinal, List.forall_mem_cons.2 ⟨hnew.trans hnew'.symm, hplaces⟩⟩

end Calls

namespace Content

variable {σ : Type} {f : String → Draw σ String} {state final : σ}

/-- Replacing the texts of entries replaces those of their values. -/
theorem map_values_run_mapEntriesM (f : String → Draw σ String) {names : List String}
    (entries : Entries Content names) (state : σ) :
    ((mapEntriesM f entries).run state).map (fun run => (run.1.toList.map Prod.snd, run.2)) =
      (mapItemsM f (entries.toList.map Prod.snd)).run state := by
  induction entries generalizing state with
  | nil => rfl
  | cons name value fresh rest ih =>
    rw [Entries.toList, List.map_cons, mapEntriesM, mapItemsM, StateT.run_bind, StateT.run_bind]
    cases (value.mapTextM f).run state with
    | none => rfl
    | some first =>
      rw [Option.bind_eq_bind, Option.bind_eq_bind, Option.bind_some, Option.bind_some,
        StateT.run_bind, StateT.run_bind, ← ih first.2]
      cases (mapEntriesM f rest).run first.2 <;> rfl

/-- Replacing the texts of a description that is none itself replaces those of its parts. -/
theorem map_parts_run_mapTextM (f : String → Draw σ String) {content : Content}
    (hinner : content.text? = none) (state : σ) :
    ((content.mapTextM f).run state).map (fun run => (run.1.parts, run.2)) =
      (mapItemsM f content.parts).run state := by
  rcases content with _ | ⟨⟨entries⟩⟩ | items
  · cases hinner
  · have hentries := map_values_run_mapEntriesM f entries state
    rw [mapTextM, StateT.run_bind]
    refine Eq.trans ?_ hentries
    cases (mapEntriesM f entries).run state <;> rfl
  · rw [mapTextM, StateT.run_bind]
    show _ = (mapItemsM f items).run state
    cases (mapItemsM f items).run state <;> rfl

/-- The parts are replaced where a description is that is no text itself. -/
theorem run_mapItemsM_of_inner {content replaced : Content} (hinner : content.text? = none)
    (h : (content.mapTextM f).run state = some (replaced, final)) :
    (mapItemsM f content.parts).run state = some (replaced.parts, final) := by
  rw [← map_parts_run_mapTextM f hinner, h]
  rfl

/-- The texts of items are replaced in the first one and then in the rest. -/
theorem run_mapItemsM_cons_iff {item : Content} {rest replaced : List Content} :
    (mapItemsM f (item :: rest)).run state = some (replaced, final) ↔ ∃ first between others,
      (item.mapTextM f).run state = some (first, between) ∧
        (mapItemsM f rest).run between = some (others, final) ∧ replaced = first :: others := by
  rw [mapItemsM, run_bind_eq_some_iff]
  simp only [run_bind_eq_some_iff, run_pure_eq_some_iff, Prod.exists, Prod.mk.injEq]
  constructor
  · rintro ⟨first, between, hfirst, others, behind, hothers, hreplaced, rfl⟩
    exact ⟨first, between, others, hfirst, hothers, hreplaced.symm⟩
  · rintro ⟨first, between, others, hfirst, hothers, rfl⟩
    exact ⟨first, between, hfirst, others, final, hothers, rfl, rfl⟩

/-- Replacing texts leaves the form of a description. -/
theorem form_of_run_mapTextM {content replaced : Content}
    (h : (content.mapTextM f).run state = some (replaced, final)) :
    replaced.form = content.form := by
  rcases content with text | ⟨⟨entries⟩⟩ | items
  · obtain ⟨drawn, -, hpure⟩ := run_bind_eq_some_iff.1 h
    cases hpure
    rfl
  · obtain ⟨held, -, hpure⟩ := run_bind_eq_some_iff.1 h
    cases hpure
    rfl
  · obtain ⟨run, hrun, hpure⟩ := run_bind_eq_some_iff.1 h
    cases hpure
    obtain ⟨others, behind⟩ := run
    show Form.sequence others.length = .sequence items.length
    congr 1
    clear h
    induction items generalizing state others with
    | nil =>
      cases hrun
      rfl
    | cons item rest ih =>
      obtain ⟨_, between, tail, -, htail, rfl⟩ := run_mapItemsM_cons_iff.1 hrun
      rw [List.length_cons, List.length_cons, ih _ htail]

/-- Replacing texts leaves the form of everything in items, if it does so in each of them. -/
theorem map_formAt?_of_run_mapItemsM {items replaced : List Content}
    (h : ∀ item ∈ items, ∀ {state final : σ} {replaced},
      (item.mapTextM f).run state = some (replaced, final) → replaced.formAt? = item.formAt?)
    (hrun : (mapItemsM f items).run state = some (replaced, final)) :
    replaced.map formAt? = items.map formAt? := by
  induction items generalizing state replaced with
  | nil =>
    cases hrun
    rfl
  | cons item rest ih =>
    obtain ⟨hitem, hrest⟩ := List.forall_mem_cons.1 h
    obtain ⟨first, between, others, hfirst, hothers, rfl⟩ := run_mapItemsM_cons_iff.1 hrun
    rw [List.map_cons, List.map_cons, hitem hfirst, ih hrest hothers]

/-- Replacing texts leaves the form of everything. -/
theorem formAt?_of_run_mapTextM (content : Content) : ∀ {state final : σ} {replaced : Content},
    (content.mapTextM f).run state = some (replaced, final) →
      replaced.formAt? = content.formAt? := by
  induction content using inductionOnParts with
  | text body =>
    intro state final replaced h
    obtain ⟨drawn, -, hpure⟩ := run_bind_eq_some_iff.1 h
    cases hpure
    funext way
    cases way <;> rfl
  | inner content hinner ih =>
    intro state final replaced h
    have hparts := map_formAt?_of_run_mapItemsM ih (run_mapItemsM_of_inner hinner h)
    funext way
    cases way with
    | nil => exact congrArg some (form_of_run_mapTextM h)
    | cons position way =>
      have hpart := congrArg (fun forms => forms[position]?.bind fun form => form way) hparts
      simp only [List.getElem?_map, Option.bind_map, Function.comp_def] at hpart
      rw [formAt?_cons, formAt?_cons, hpart]

/-- The items are gone through one after the other, if each of them is gone through text by text. -/
theorem calls_of_run_mapItemsM {items replaced : List Content}
    (h : ∀ item ∈ items, ∀ {state final : σ} {replaced},
      (item.mapTextM f).run state = some (replaced, final) →
        Calls f item.textAt? replaced.textAt? state item.ways final)
    (hrun : (mapItemsM f items).run state = some (replaced, final)) (position : Nat)
    {old new : List Nat → Option String}
    (hold : ∀ index way, old ((position + index) :: way) =
      items[index]?.bind fun item => item.textAt? way)
    (hnew : ∀ index way, new ((position + index) :: way) =
      replaced[index]?.bind fun item => item.textAt? way) :
    Calls f old new state (waysOfItems position items) final := by
  induction items generalizing position state replaced with
  | nil =>
    cases hrun
    exact .nil _
  | cons item rest ih =>
    obtain ⟨hitem, hrest⟩ := List.forall_mem_cons.1 h
    obtain ⟨first, between, others, hfirst, hothers, rfl⟩ := run_mapItemsM_cons_iff.1 hrun
    have hold₀ : (fun way => old (position :: way)) = item.textAt? := funext (hold 0)
    have hnew₀ : (fun way => new (position :: way)) = first.textAt? := funext (hnew 0)
    have hshift : ∀ index, position + 1 + index = position + (index + 1) := by omega
    refine Calls.append_iff.2 ⟨between, (Calls.map_iff _).2 ?_, ih hrest hothers (position + 1)
      (fun index way => by rw [hshift, hold]; rfl) fun index way => by rw [hshift, hnew]; rfl⟩
    rw [hold₀, hnew₀]
    exact hitem hfirst

/-- The texts of a description are replaced in turn. -/
theorem calls_of_run_mapTextM (content : Content) : ∀ {state final : σ} {replaced : Content},
    (content.mapTextM f).run state = some (replaced, final) →
      Calls f content.textAt? replaced.textAt? state content.ways final := by
  induction content using inductionOnParts with
  | text body =>
    intro state final replaced h
    obtain ⟨drawn, hdrawn, hpure⟩ := run_bind_eq_some_iff.1 h
    cases hpure
    exact .cons rfl hdrawn rfl (.nil _)
  | inner content hinner ih =>
    intro state final replaced h
    rw [ways_of_inner hinner]
    refine calls_of_run_mapItemsM ih (run_mapItemsM_of_inner hinner h) 0 (fun index way => ?_)
      fun index way => ?_
    · rw [Nat.zero_add, textAt?_cons]
    · rw [Nat.zero_add, textAt?_cons]

/-- Where there are calls for the texts of items, the items can be replaced, if that is so of each
of them. -/
theorem exists_run_mapItemsM {items : List Content}
    (h : ∀ item ∈ items, ∀ {state final : σ} {new}, Calls f item.textAt? new state item.ways final →
      ∃ replaced, (item.mapTextM f).run state = some (replaced, final)) (position : Nat)
    {old new : List Nat → Option String}
    (hold : ∀ index way, old ((position + index) :: way) =
      items[index]?.bind fun item => item.textAt? way)
    (hcalls : Calls f old new state (waysOfItems position items) final) :
    ∃ replaced, (mapItemsM f items).run state = some (replaced, final) := by
  induction items generalizing position state with
  | nil =>
    cases hcalls
    exact ⟨[], rfl⟩
  | cons item rest ih =>
    obtain ⟨hitem, hrest⟩ := List.forall_mem_cons.1 h
    obtain ⟨between, hfirst, hothers⟩ := Calls.append_iff.1 hcalls
    have hold₀ : (fun way => old (position :: way)) = item.textAt? := funext (hold 0)
    have hown := (Calls.map_iff (position :: ·)).1 hfirst
    rw [hold₀] at hown
    obtain ⟨first, hfirst⟩ := hitem hown
    have hshift : ∀ index, position + 1 + index = position + (index + 1) := by omega
    obtain ⟨others, hothers⟩ := ih hrest (position + 1)
      (fun index way => by rw [hshift, hold]; rfl) hothers
    exact ⟨first :: others,
      run_mapItemsM_cons_iff.2 ⟨first, between, others, hfirst, hothers, rfl⟩⟩

/-- Where there are calls for the texts of a description, they can be replaced. -/
theorem exists_run_mapTextM (content : Content) : ∀ {state final : σ} {new},
    Calls f content.textAt? new state content.ways final →
      ∃ replaced, (content.mapTextM f).run state = some (replaced, final) := by
  induction content using inductionOnParts with
  | text body =>
    intro state final new h
    cases h with
    | cons hold hrun _ hrest =>
      cases hold
      cases hrest
      exact ⟨_, run_bind_eq_some_iff.2 ⟨_, hrun, rfl⟩⟩
  | inner content hinner ih =>
    intro state final new h
    rw [ways_of_inner hinner] at h
    obtain ⟨parts, hparts⟩ := exists_run_mapItemsM ih 0
      (fun index way => by rw [Nat.zero_add, textAt?_cons]) h
    rw [← map_parts_run_mapTextM f hinner] at hparts
    obtain ⟨⟨replaced, behind⟩, hrun, hbehind⟩ := Option.map_eq_some_iff.1 hparts
    cases hbehind
    exact ⟨replaced, hrun⟩

end Content

namespace Entries

variable {σ : Type} {f : String → Draw σ String} {state final : σ} {names : List String}

/-- Values are replaced in turn. -/
theorem calls_of_run_mapM {held replaced : Entries String names}
    (h : (held.mapM f).run state = some (replaced, final)) (position : Nat)
    {old new : Nat → Option String}
    (hold : ∀ index, old (position + index) = held.toList[index]?.map Prod.snd)
    (hnew : ∀ index, new (position + index) = replaced.toList[index]?.map Prod.snd) :
    Calls f old new state (List.range' position held.toList.length) final := by
  induction held generalizing position state with
  | nil =>
    cases h
    exact .nil _
  | cons name value fresh rest ih =>
    obtain ⟨first, hfirst, h⟩ := run_bind_eq_some_iff.1 h
    obtain ⟨others, hothers, h⟩ := run_bind_eq_some_iff.1 h
    cases h
    have hshift : ∀ index, position + 1 + index = position + (index + 1) := by omega
    exact .cons (hold 0) hfirst (hnew 0) (ih hothers (position + 1)
      (fun index => by rw [hshift, hold]; rfl) fun index => by rw [hshift, hnew]; rfl)

/-- Where there are calls for values, they can be replaced. -/
theorem exists_run_mapM (held : Entries String names) (position : Nat)
    {old new : Nat → Option String}
    (hold : ∀ index, old (position + index) = held.toList[index]?.map Prod.snd)
    (h : Calls f old new state (List.range' position held.toList.length) final) :
    ∃ replaced, (held.mapM f).run state = some (replaced, final) := by
  induction held generalizing position state with
  | nil =>
    cases h
    exact ⟨.nil, rfl⟩
  | cons name value fresh rest ih =>
    have hshift : ∀ index, position + 1 + index = position + (index + 1) := by omega
    cases h with
    | cons hvalue hrun _ hrest =>
      rw [show old position = some value from hold 0] at hvalue
      cases hvalue
      obtain ⟨others, hothers⟩ := ih (position + 1) (fun index => by rw [hshift, hold]; rfl) hrest
      exact ⟨_, run_bind_eq_some_iff.2 ⟨_, hrun, run_bind_eq_some_iff.2 ⟨_, hothers, rfl⟩⟩⟩

end Entries

/-! ## Functions without a state, and functions that do not fail -/

/-- A way to see the effects of one monad as those of another. -/
structure MonadHom (m n : Type → Type) [Monad m] [Monad n] where
  app : {α : Type} → m α → n α
  app_pure : ∀ {α : Type} (result : α), app (pure result) = pure result
  app_bind : ∀ {α β : Type} (first : m α) (next : α → m β),
    app (first >>= next) = app first >>= fun result => app (next result)

/-- No effects at all. -/
def MonadHom.ofPure {n : Type → Type} [Monad n] [LawfulMonad n] : MonadHom Id n where
  app result := pure (f := n) result.run
  app_pure _ := rfl
  app_bind first next := (pure_bind first.run fun result => pure (next result).run).symm

/-- A state, without a failure. -/
def MonadHom.always {σ : Type} : MonadHom (StateM σ) (Draw σ) where
  app := Random.always
  app_pure _ := rfl
  app_bind _ _ := rfl

namespace Content

variable {m n : Type → Type} [Monad m] [Monad n] (hom : MonadHom m n) (f : String → m String)

mutual

/-- Seen with other effects, replacing texts is replacing them with these effects. -/
theorem mapTextM_app : ∀ content : Content,
    content.mapTextM (fun text => hom.app (f text)) = hom.app (content.mapTextM f)
  | .scalar _ => by
    rw [mapTextM, mapTextM, hom.app_bind]
    simp only [hom.app_pure]
  | .map ⟨entries⟩ => by
    rw [mapTextM, mapTextM, hom.app_bind, mapEntriesM_app entries]
    simp only [hom.app_pure]
  | .sequence items => by
    rw [mapTextM, mapTextM, hom.app_bind, mapItemsM_app items]
    simp only [hom.app_pure]

/-- Replacing texts in entries goes along with a map between effects. -/
theorem mapEntriesM_app : ∀ {names : List String} (entries : Entries Content names),
    mapEntriesM (fun text => hom.app (f text)) entries = hom.app (mapEntriesM f entries)
  | _, .nil => (hom.app_pure _).symm
  | _, .cons _ value _ rest => by
    rw [mapEntriesM, mapEntriesM, hom.app_bind, mapTextM_app value]
    simp only [hom.app_bind, hom.app_pure, mapEntriesM_app rest]

/-- Replacing texts in items goes along with a map between effects. -/
theorem mapItemsM_app : ∀ items : List Content,
    mapItemsM (fun text => hom.app (f text)) items = hom.app (mapItemsM f items)
  | [] => (hom.app_pure _).symm
  | item :: rest => by
    rw [mapItemsM, mapItemsM, hom.app_bind, mapTextM_app item]
    simp only [hom.app_bind, hom.app_pure, mapItemsM_app rest]

end

end Content

/-- Seen with other effects, replacing values is replacing them with these effects. -/
theorem Entries.mapM_app {m n : Type → Type} [Monad m] [Monad n] (hom : MonadHom m n)
    (f : String → m String) {names : List String} (held : Entries String names) :
    held.mapM (fun text => hom.app (f text)) = hom.app (held.mapM f) := by
  induction held with
  | nil => exact (hom.app_pure _).symm
  | cons name value fresh rest ih =>
    rw [mapM, mapM, hom.app_bind]
    simp only [hom.app_bind, hom.app_pure, ih]

namespace Template

variable {σ : Type} {f : String → Draw σ String} {start final : σ} {template replaced : Template}

/-- Seen with other effects, replacing the texts of a template is replacing them with these
effects. -/
theorem mapTextM_app {m n : Type → Type} [Monad m] [Monad n] (hom : MonadHom m n)
    (f : String → m String) (template : Template) :
    template.mapTextM (fun text => hom.app (f text)) = hom.app (template.mapTextM f) := by
  simp only [mapTextM, ContentMap.mapTextM, OrderedMap.mapValuesM, hom.app_bind, hom.app_pure,
    Content.mapEntriesM_app, Entries.mapM_app]

/-- The texts of a template are replaced in the children, then in the attributes and then in the
body. -/
theorem run_mapTextM_eq_some_iff : (template.mapTextM f).run start = some (replaced, final) ↔
    ∃ behind between, ((Content.map template.children).mapTextM f).run start =
        some (.map replaced.children, behind) ∧
      (template.attrs.mapValuesM f).run behind = some (replaced.attrs, between) ∧
      (f template.body).run between = some (replaced.body, final) := by
  have hchildren : ∀ children behind, (template.children.mapTextM f).run start =
      some (children, behind) ↔ ((Content.map template.children).mapTextM f).run start =
        some (.map children, behind) := by
    intro children behind
    rw [ContentMap.mapTextM, Content.mapTextM, run_bind_eq_some_iff, run_bind_eq_some_iff]
    simp only [run_pure_eq_some_iff, Prod.mk.injEq, Content.map.injEq]
  rw [mapTextM]
  simp only [run_bind_eq_some_iff, run_pure_eq_some_iff, Prod.exists, Prod.mk.injEq, hchildren]
  constructor
  · rintro ⟨children, behind, hchildren, attrs, between, hattrs, body, final, hbody, rfl, rfl⟩
    exact ⟨behind, between, hchildren, hattrs, hbody⟩
  · rintro ⟨behind, between, hchildren, hattrs, hbody⟩
    exact ⟨_, behind, hchildren, _, between, hattrs, _, final, hbody, rfl, rfl⟩

/-- What replacing texts in turn comes to: names and nesting stay, and the places of the texts can be
listed in their order so that there is one call for each. -/
structure Traversal {σ : Type} (f : String → Draw σ String) (start : σ) (old new : Template)
    (final : σ) : Prop where
  form : SameForm new old
  calls : ∃ places : List Place, places.Pairwise Place.Before ∧
    (∀ place, place ∈ places ↔ (old.textAt? place).isSome) ∧
    Calls f old.textAt? new.textAt? start places final

/-- Replacing the values of a map leaves its names. -/
theorem names_of_run_mapValuesM {map replaced : OrderedMap String}
    (h : (map.mapValuesM f).run start = some (replaced, final)) : replaced.names = map.names := by
  obtain ⟨held, -, hpure⟩ := run_bind_eq_some_iff.1 h
  cases hpure
  rfl

/-- The values of a map are replaced in turn. -/
theorem calls_of_run_mapValuesM {map replaced : OrderedMap String}
    (h : (map.mapValuesM f).run start = some (replaced, final)) :
    Calls f (fun position => map.entries[position]?.map Prod.snd)
      (fun position => replaced.entries[position]?.map Prod.snd) start
      (List.range' 0 map.entries.length) final := by
  obtain ⟨held, hheld, hpure⟩ := run_bind_eq_some_iff.1 h
  cases hpure
  exact Entries.calls_of_run_mapM hheld 0 (fun index => by rw [Nat.zero_add]; rfl)
    fun index => by rw [Nat.zero_add]; rfl

/-- The texts of a template are replaced in turn. -/
theorem traversal_of_run_mapTextM (h : (template.mapTextM f).run start = some (replaced, final)) :
    Traversal f start template replaced final := by
  obtain ⟨behind, between, hchildren, hattrs, hbody⟩ := run_mapTextM_eq_some_iff.1 h
  refine ⟨⟨congrFun (Content.formAt?_of_run_mapTextM _ hchildren), names_of_run_mapValuesM hattrs⟩,
    template.places, template.pairwise_places, template.mem_places_iff, ?_⟩
  exact Calls.append_iff.2 ⟨behind, (Calls.map_iff _).2 (Content.calls_of_run_mapTextM _ hchildren),
    Calls.append_iff.2 ⟨between, (Calls.map_iff _).2 (calls_of_run_mapValuesM hattrs),
      .cons rfl hbody rfl (.nil _)⟩⟩

/-- Where there are calls for the texts of a template, they can be replaced. -/
theorem exists_run_mapTextM {new : Place → Option String}
    (h : Calls f template.textAt? new start template.places final) :
    ∃ replaced, (template.mapTextM f).run start = some (replaced, final) := by
  obtain ⟨behind, hchildren, h⟩ := Calls.append_iff.1 h
  obtain ⟨between, hattrs, h⟩ := Calls.append_iff.1 h
  have hways : Calls f (Content.map template.children).textAt? (fun way => new (.child way)) start
      (Content.map template.children).ways behind := (Calls.map_iff Place.child).1 hchildren
  obtain ⟨content, hcontent⟩ := Content.exists_run_mapTextM _ hways
  obtain ⟨held, hheld⟩ := Entries.exists_run_mapM template.attrs.held 0
    (fun index => by rw [Nat.zero_add]; rfl) ((Calls.map_iff Place.value).1 hattrs)
  cases h with
  | cons hold hrun _ hrest =>
    cases hold
    cases hrest
    obtain ⟨children, -, hpure⟩ := run_bind_eq_some_iff.1 hcontent
    cases hpure
    exact ⟨⟨⟨_⟩, ⟨held⟩, _⟩, run_mapTextM_eq_some_iff.2
      ⟨_, between, hcontent, run_bind_eq_some_iff.2 ⟨_, hheld, rfl⟩, hrun⟩⟩

/-- The places of the texts in their order are the only such list. -/
theorem places_unique {template : Template} {places others : List Place}
    (h : places.Pairwise Place.Before) (h' : others.Pairwise Place.Before)
    (hmem : ∀ place, place ∈ places ↔ (template.textAt? place).isSome)
    (hmem' : ∀ place, place ∈ others ↔ (template.textAt? place).isSome) : places = others := by
  have hnodup : ∀ {places : List Place}, places.Pairwise Place.Before → places.Nodup := by
    intro places h
    refine h.imp ?_
    rintro place _ hbefore rfl
    exact Place.Before.irrefl place hbefore
  have hperm : places.Perm others := (List.perm_ext_iff_of_nodup (hnodup h) (hnodup h')).2
    fun place => (hmem place).trans (hmem' place).symm
  exact hperm.eq_of_pairwise (fun _ _ _ _ hbefore hbehind => absurd hbehind hbefore.asymm) h h'

/-- Only one template and one state can come of replacing texts in turn. -/
theorem Traversal.unique {final' : σ} {old new new' : Template} (h : Traversal f start old new final)
    (h' : Traversal f start old new' final') : new = new' ∧ final = final' := by
  obtain ⟨hform, places, hordered, hmem, hcalls⟩ := h
  obtain ⟨hform', others, hordered', hmem', hcalls'⟩ := h'
  obtain rfl := places_unique hordered hordered' hmem hmem'
  obtain ⟨hfinal, htexts⟩ := hcalls.unique hcalls'
  refine ⟨eq_of_textAt? ⟨fun way => (hform.children way).trans (hform'.children way).symm,
    hform.attrs.trans hform'.attrs.symm⟩ fun place => ?_, hfinal⟩
  by_cases hplace : place ∈ places
  · exact htexts place hplace
  · -- where the old template has no text the new ones have none either
    have hnone : ¬ (old.textAt? place).isSome := mt (hmem place).2 hplace
    have hnew := mt (hform.isSome_textAt? place).1 hnone
    have hnew' := mt (hform'.isSome_textAt? place).1 hnone
    rw [Option.not_isSome_iff_eq_none] at hnew hnew'
    rw [hnew, hnew']

/-- What comes of replacing the texts of a template is what replacing them in turn comes to. -/
theorem run_mapTextM_eq_some_iff_traversal :
    (template.mapTextM f).run start = some (replaced, final) ↔
      Traversal f start template replaced final := by
  refine ⟨traversal_of_run_mapTextM, fun h => ?_⟩
  obtain ⟨places, hordered, hmem, hcalls⟩ := h.calls
  obtain rfl := places_unique hordered template.pairwise_places hmem template.mem_places_iff
  obtain ⟨found, hfound⟩ := exists_run_mapTextM hcalls
  obtain ⟨rfl, -⟩ := (traversal_of_run_mapTextM hfound).unique h
  exact hfound

/-- A function that does not fail replaces the texts of a template without a failure, and what
replacing them in turn comes to is what comes of it. -/
theorem run_mapTextM_eq_iff (f : String → StateM σ String) :
    (template.mapTextM f).run start = (replaced, final) ↔
      Traversal (fun text => always (f text)) start template replaced final := by
  have happ : template.mapTextM (fun text => always (f text)) = always (template.mapTextM f) :=
    mapTextM_app MonadHom.always f template
  rw [← run_mapTextM_eq_some_iff_traversal, happ, Random.run_always, Option.some_inj]

end Template

/-- The patterns in the template of an operation are filled in from where the path has left the
source of random words. -/
theorem Operation.traversal_of_fill {ρ : Type} [Random.WordSource ρ] {operation : Operation}
    {index : Nat} {source : ρ} {filled : (List String × Template) × ρ}
    (h : (operation.fill index).run source = some filled) :
    ∃ drawn, (fillAll index operation.path).run source = some drawn ∧
      Template.Traversal (fun text => Pattern.resolve text index) drawn.2 operation.template
        filled.1.2 filled.2 := by
  obtain ⟨drawn, hdrawn, h⟩ := run_bind_eq_some_iff.1 h
  obtain ⟨⟨template, final⟩, htemplate, hpure⟩ := run_bind_eq_some_iff.1 h
  cases hpure
  exact ⟨drawn, hdrawn, Template.traversal_of_run_mapTextM htemplate⟩

/-- The file and the path are filled in one after the other. -/
theorem Operation.run_fillAll_of_fillFile {ρ : Type} [Random.WordSource ρ] {operation : Operation}
    {index : Nat} {source : ρ} {named : Option String × ρ} {drawn : List String × ρ}
    (hnamed : (operation.fillFile index).run source = some named)
    (hdrawn : (fillAll index operation.path).run named.2 = some drawn) :
    (fillAll index (operation.file.toList ++ operation.path)).run source =
      some (named.1.toList ++ drawn.1, drawn.2) := by
  obtain ⟨name, command, file, path, template⟩ := operation
  cases file with
  | none =>
    cases hnamed
    exact hdrawn
  | some pattern =>
    obtain ⟨text, htext, hpure⟩ := run_bind_eq_some_iff.1 hnamed
    cases hpure
    exact run_bind_eq_some_iff.2 ⟨text, htext, run_bind_eq_some_iff.2 ⟨drawn, hdrawn, rfl⟩⟩

/-- The patterns in the template of a cycle are filled in from the stream of the cycle, from where
the file and the path have left it. -/
theorem Workload.traversal_of_resolve {workload : Workload} {seed cycle : Nat} {step : CycleStep}
    (h : workload.resolve seed cycle = .ok step) :
    let operation := workload.operationOf cycle
    ∃ drawn final, (Operation.fillAll cycle (operation.file.toList ++ operation.path)).run
        (Random.cycleStream seed.toUInt64 cycle.toUInt64) = some drawn ∧
      Template.Traversal (fun text => Pattern.resolve text cycle) drawn.2 operation.template
        step.template final := by
  obtain ⟨named, file, filled, hnamed, -, hfilled, rfl⟩ := eq_of_resolve h
  obtain ⟨drawn, hdrawn, htraversal⟩ := Operation.traversal_of_fill hfilled
  exact ⟨_, filled.2, Operation.run_fillAll_of_fillFile hnamed hdrawn, htraversal⟩

namespace Template

/-- A function without a state replaces texts in turn, and leaves any state alone. -/
theorem traversal_mapText (f : String → String) (template : Template) {σ : Type} (state : σ) :
    Traversal (fun text => pure (f text)) state template (template.mapText f) state := by
  refine run_mapTextM_eq_some_iff_traversal.1 ?_
  have happ : template.mapTextM (fun text => (pure (f text) : Draw σ String)) =
      pure (template.mapText f) := mapTextM_app (m := Id) MonadHom.ofPure f template
  rw [happ]
  rfl

/-- Let a function that may keep a state be applied to the texts of a template.  A template and a
state come of it exactly if the names and the nesting are the old ones and there is one call for each
place of a text, depth first in the children and in the order of declaration, then in the attributes,
then for the body, where each call starts in the state in which the one before it ended and gives the
text at its place.  The same holds of a function that may fail: then nothing comes of it if one of
the calls fails.  A function without a state leaves any state alone, and two of them can be applied
one after the other or both at once.  Substitutions replace texts in this way, and so do the cycles
of a run, which draw from their stream for one pattern after the other. -/
theorem traversal_of_mapTextM (template : Template) :
    (∀ (σ : Type) (f : String → StateM σ String) (start final : σ) (replaced : Template),
      (template.mapTextM f).run start = (replaced, final) ↔
        Traversal (fun text => always (f text)) start template replaced final) ∧
    (∀ (σ : Type) (f : String → Draw σ String) (start final : σ) (replaced : Template),
      (template.mapTextM f).run start = some (replaced, final) ↔
        Traversal f start template replaced final) ∧
    (∀ (σ : Type) (f : String → String) (state : σ),
      Traversal (fun text => pure (f text)) state template (template.mapText f) state) ∧
    (∀ f g : String → String,
      (template.mapText f).mapText g = template.mapText fun text => g (f text)) ∧
    (∀ (σ : Type) (substitution : Substitution) (state : σ),
      Traversal (fun text => pure (substitution.apply text)) state template
        (template.substitute substitution) state) ∧
    ∀ (workload : Workload) (seed cycle : Nat) (step : CycleStep),
      workload.resolve seed cycle = .ok step →
        let operation := workload.operationOf cycle
        ∃ drawn final, (Operation.fillAll cycle (operation.file.toList ++ operation.path)).run
            (Random.cycleStream seed.toUInt64 cycle.toUInt64) = some drawn ∧
          Traversal (fun text => Pattern.resolve text cycle) drawn.2 operation.template
            step.template final := by
  refine ⟨fun σ f start final replaced => run_mapTextM_eq_iff f,
    fun σ f start final replaced => run_mapTextM_eq_some_iff_traversal,
    fun σ f state => traversal_mapText f template state, fun f g => mapText_mapText f g template,
    ?_, fun workload seed cycle step h => Workload.traversal_of_resolve h⟩
  intro σ substitution state
  exact traversal_mapText substitution.apply template state

/-- The texts of the children come first, then the value of the attribute, then the body. -/
example : ((Template.mapTextM (fun text => (do
      set ((← get) ++ [text])
      pure text : StateM (List String) String))
    ⟨.ofList [("a", .sequence [.scalar "1", .map (.ofList [("b", .scalar "2")])]),
        ("c", .scalar "3")],
      .ofList [("d", "4")], "5"⟩).run []).2 = ["1", "2", "3", "4", "5"] := rfl

end Template

end XmlWorkload
