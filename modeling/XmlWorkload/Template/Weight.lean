import XmlWorkload.Template.Basic

/-!
# The size of templates

Replacing texts changes no size, and the templates that a content map stands for are no larger than
the map.  So the resolution of a template, which goes on with changed copies, comes to an end.
-/

set_option autoImplicit false

namespace XmlWorkload

namespace Content

mutual

/-- A description keeps its size when its texts are replaced. -/
theorem weight_mapText (f : String → String) : ∀ content : Content,
    weight (mapText f content) = weight content
  | .scalar _ => rfl
  | .map ⟨entries⟩ => by
    have h := weightOfMembers_mapEntries f entries
    simp only [mapText, mapTextM] at *
    simpa [weight, bind, pure] using h
  | .sequence items => by
    have h := weightOfItems_mapItems f items
    simp only [mapText, mapTextM] at *
    simpa [weight, bind, pure] using h

/-- The members of a map keep their size when their texts are replaced. -/
theorem weightOfMembers_mapEntries (f : String → String) :
    ∀ {names : List String} (entries : Entries Content names),
      weightOfMembers (mapEntriesM (m := Id) f entries) = weightOfMembers entries
  | _, .nil => rfl
  | _, .cons name value fresh rest => by
    have h₁ := weight_mapText f value
    have h₂ := weightOfMembers_mapEntries f rest
    simp only [mapText, mapEntriesM, bind, pure, weightOfMembers] at *
    rw [h₁, h₂]

/-- The items of a sequence keep their size when their texts are replaced. -/
theorem weightOfItems_mapItems (f : String → String) : ∀ items : List Content,
    weightOfItems (mapItemsM (m := Id) f items) = weightOfItems items
  | [] => rfl
  | item :: rest => by
    have h₁ := weight_mapText f item
    have h₂ := weightOfItems_mapItems f rest
    simp only [mapText, mapItemsM, bind, pure, weightOfItems] at *
    rw [h₁, h₂]

end

/-- A description has a positive size. -/
theorem weight_pos (content : Content) : 0 < weight content := by
  cases content <;> simp only [weight] <;> omega

end Content

/-- Entries in two parts have the size of both parts. -/
theorem Content.weightOfEntries_append (first second : List (String × Content)) :
    weightOfEntries (first ++ second) = weightOfEntries first + weightOfEntries second := by
  induction first with
  | nil => exact (Nat.zero_add _).symm
  | cons entry rest ih =>
    rw [List.cons_append, weightOfEntries, ih, weightOfEntries, Nat.add_assoc]

/-- A map keeps its size when its texts are replaced. -/
theorem ContentMap.weight_mapText (f : String → String) (members : ContentMap) :
    weight (members.mapText f) = weight members := by
  have hmap := Content.weight_mapText f (.map members)
  rw [show Content.mapText f (.map members) = .map (members.mapText f) from rfl, Content.weight_map,
    Content.weight_map] at hmap
  exact Nat.add_left_cancel hmap

/-- A new name makes a map larger by the size of its value. -/
theorem ContentMap.weight_insert (members : ContentMap) (name : String) (value : Content)
    (h : name ∉ members.names) :
    weight (members.insert name value) = weight members + value.weight := by
  rw [OrderedMap.names_eq] at h
  rw [weight, OrderedMap.entries_insert, OrderedMap.insertEntry_of_not_mem value h,
    Content.weightOfEntries_append]
  rfl

namespace Template

/-- One more child makes a template larger by the size of the child. -/
theorem weight_addChild {template result : Template} {name : String} {value : Content}
    (h : template.addChild name value = .ok result) :
    ContentMap.weight result.children = ContentMap.weight template.children + value.weight := by
  unfold addChild at h
  split at h
  · simp at h
  · next hfree =>
    simp only [Except.ok.injEq] at h
    subst h
    exact ContentMap.weight_insert _ _ _
      (mt (OrderedMap.contains_iff_mem_names template.children name).2 hfree)

/-- More children make a template larger by their sizes. -/
theorem weight_addChildren {template result : Template} {entries : List (String × Content)}
    (h : template.addChildren entries = .ok result) :
    ContentMap.weight result.children =
      ContentMap.weight template.children + Content.weightOfEntries entries := by
  induction entries generalizing template with
  | nil =>
    simp only [addChildren, Except.ok.injEq] at h
    subst h
    simp [Content.weightOfEntries]
  | cons entry rest ih =>
    obtain ⟨name, value⟩ := entry
    rw [addChildren] at h
    cases hadd : template.addChild name value with
    | error e => simp [hadd, bind, Except.bind] at h
    | ok next =>
      simp only [hadd, bind, Except.bind] at h
      have h₁ := weight_addChild hadd
      have h₂ := ih h
      simp only [Content.weightOfEntries]
      omega

/-- One more entry makes a description larger by no more than its size. -/
theorem Description.weight_addEntry {description result : Description} {name : String}
    {value : Content} (h : description.addEntry name value = .ok result) :
    ContentMap.weight result.template.children ≤
      ContentMap.weight description.template.children + value.weight := by
  unfold addEntry at h
  split at h
  · split at h
    · next members =>
      cases hadd : description.template.addChildren members.entries with
      | error e => simp [hadd, bind, Except.bind] at h
      | ok next =>
        simp only [hadd, bind, Except.bind, pure, Except.pure, Except.ok.injEq] at h
        subst h
        have := weight_addChildren hadd
        simp only [Content.weight_map]
        omega
    · simp [throw, throwThe, MonadExceptOf.throw] at h
  · cases hattrs : attributesOf value with
    | error e => simp [hattrs, bind, Except.bind] at h
    | ok attrs =>
      simp only [hattrs, bind, Except.bind, pure, Except.pure, Except.ok.injEq] at h
      subst h
      exact Nat.le_add_right _ _
  · split at h
    · simp only [pure, Except.pure, Except.ok.injEq] at h
      subst h
      exact Nat.le_add_right _ _
    · simp [throw, throwThe, MonadExceptOf.throw] at h
  · cases hparse : Repetition.parse value with
    | error e => simp [hparse, bind, Except.bind] at h
    | ok repetition =>
      simp only [hparse, bind, Except.bind, pure, Except.pure, Except.ok.injEq] at h
      subst h
      exact Nat.le_add_right _ _
  · cases hadd : description.template.addChild name value with
    | error e => simp [hadd, bind, Except.bind] at h
    | ok next =>
      simp only [hadd, bind, Except.bind, pure, Except.pure, Except.ok.injEq] at h
      subst h
      exact Nat.le_of_eq (weight_addChild hadd)

/-- More entries make a description larger by no more than their sizes. -/
theorem Description.weight_addEntries {description result : Description}
    {entries : List (String × Content)} (h : description.addEntries entries = .ok result) :
    ContentMap.weight result.template.children ≤
      ContentMap.weight description.template.children + Content.weightOfEntries entries := by
  induction entries generalizing description with
  | nil =>
    simp only [addEntries, Except.ok.injEq] at h
    subst h
    exact Nat.le_add_right _ _
  | cons entry rest ih =>
    obtain ⟨name, value⟩ := entry
    rw [addEntries] at h
    cases hadd : description.addEntry name value with
    | error e => simp [hadd, bind, Except.bind] at h
    | ok next =>
      simp only [hadd, bind, Except.bind] at h
      have h₁ := weight_addEntry hadd
      have h₂ := ih h
      simp only [Content.weightOfEntries]
      omega

/-- A template keeps the size of its children when its texts are replaced. -/
theorem weight_substitute (template : Template) (substitution : Substitution) :
    ContentMap.weight (template.substitute substitution).children =
      ContentMap.weight template.children :=
  template.children.weight_mapText substitution.apply

/-- The templates that a content map stands for are no larger than the map. -/
theorem weight_le_of_mem_siblings {members : ContentMap} {templates : List Template}
    {template : Template} (h : siblings members = .ok templates)
    (hmem : template ∈ templates) :
    ContentMap.weight template.children ≤ ContentMap.weight members := by
  unfold siblings at h
  cases hdec : describe members with
  | error e => simp [hdec, Except.map] at h
  | ok description =>
    simp only [hdec, Except.map, Except.ok.injEq] at h
    subst h
    have hle := Description.weight_addEntries hdec
    simp only [empty, ContentMap.weight, OrderedMap.entries_empty, Content.weightOfEntries] at hle
    unfold Description.templates at hmem
    split at hmem
    · simp only [Repetition.copies, List.mem_map] at hmem
      obtain ⟨item, -, rfl⟩ := hmem
      rw [weight_substitute]
      simpa [ContentMap.weight] using hle
    · simp only [List.mem_singleton] at hmem
      subst hmem
      simpa [ContentMap.weight] using hle

end Template

end XmlWorkload
