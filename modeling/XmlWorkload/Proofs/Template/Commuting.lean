import Mathlib.Data.List.Infix
import XmlWorkload.Proofs.Pattern.OnePass
import XmlWorkload.Template.Basic

/-!
# Substitutions that commute

Replacing every occurrence of a mark goes from the left, and what is put in can hide an occurrence
of another mark or make a new one.  Neither happens where the marks cannot overlap in a text and
nothing that is put in shares a character with the mark of the other replacement: an occurrence of
one mark is passed as a whole by the search for the other.  Main statements: two such replacements
can be carried out in either order (`Text.replaceAll_comm`), and so can two such substitutions on a
whole template (`Template.substitute_comm`).
-/

set_option autoImplicit false

namespace XmlWorkload

namespace Text

variable {mark other inserted inserted' text done word : List Char} {c : Char}

/-- Two marks cannot overlap in a text: neither contains the other, and neither goes on where the
other ends. -/
structure Apart (first second : List Char) : Prop where
  not_infix : ¬ first <:+: second
  not_infix' : ¬ second <:+: first
  not_prefix : ∀ common, common ≠ [] → common ≠ first → common <:+ first → ¬ common <+: second
  not_prefix' : ∀ common, common ≠ [] → common ≠ second → common <:+ second → ¬ common <+: first

/-- Two marks are apart when neither occurs in the other and no end of one starts the other. -/
theorem apart_iff (first second : List Char) :
    Apart first second ↔ ¬ first <:+: second ∧ ¬ second <:+: first ∧
      (∀ common ∈ first.tails, common ≠ [] → common ≠ first → ¬ common <+: second) ∧
      ∀ common ∈ second.tails, common ≠ [] → common ≠ second → ¬ common <+: first := by
  simp only [List.mem_tails]
  exact ⟨fun h => ⟨h.not_infix, h.not_infix', fun common hend hne hpart =>
      h.not_prefix common hne hpart hend, fun common hend hne hpart =>
      h.not_prefix' common hne hpart hend⟩,
    fun ⟨hinside, hinside', hbegins, hbegins'⟩ => ⟨hinside, hinside',
      fun common hne hpart hend => hbegins common hend hne hpart,
      fun common hne hpart hend => hbegins' common hend hne hpart⟩⟩

instance (first second : List Char) : Decidable (Apart first second) :=
  decidable_of_iff' _ (apart_iff first second)

/-- Marks are apart in either order. -/
theorem Apart.symm (h : Apart mark other) : Apart other mark :=
  ⟨h.not_infix', h.not_infix, h.not_prefix', h.not_prefix⟩

/-- Two replacements leave each other alone: their marks cannot overlap, and what one puts in is
something without a character of the other mark. -/
structure Independent (mark inserted other inserted' : List Char) : Prop where
  apart : Apart mark other
  nonempty : inserted ≠ []
  nonempty' : inserted' ≠ []
  disjoint : ∀ c ∈ inserted, c ∉ other
  disjoint' : ∀ c ∈ inserted', c ∉ mark

/-- Two replacements are independent in either order. -/
theorem Independent.symm (h : Independent mark inserted other inserted') :
    Independent other inserted' mark inserted :=
  ⟨h.apart.symm, h.nonempty', h.nonempty, h.disjoint', h.disjoint⟩

/-- No occurrence of a mark starts in one of another mark that it cannot overlap. -/
theorem Apart.passed (h : Apart mark other) : Passed mark other := by
  intro text left right heq
  by_contra hlt
  rw [Nat.not_le] at hlt
  rcases Nat.le_total (left ++ mark).length other.length with hend | hend
  · -- the occurrence ends in the other mark as well
    obtain ⟨more, hother, -⟩ : ∃ more, other = left ++ mark ++ more ∧ right = more ++ text :=
      exists_of_append_eq heq.symm hend
    exact h.not_infix ⟨left, more, hother.symm⟩
  · obtain ⟨more, hmark, -⟩ : ∃ more, left ++ mark = other ++ more ∧ text = more ++ right :=
      exists_of_append_eq heq hend
    obtain ⟨common, hcommon, rfl⟩ : ∃ common, other = left ++ common ∧ mark = common ++ more :=
      exists_of_append_eq hmark (Nat.le_of_lt hlt)
    have hne : common ≠ [] := by
      rintro rfl
      rw [hcommon, List.append_nil] at hlt
      exact Nat.lt_irrefl _ hlt
    by_cases hwhole : common = other
    · subst hwhole
      exact h.not_infix' (List.prefix_append _ _).isInfix
    · exact h.not_prefix' common hne hwhole ⟨left, hcommon.symm⟩ (List.prefix_append _ _)

/-- No occurrence of a mark starts in a text without its characters. -/
theorem Passed.of_disjoint (hmark : mark ≠ []) (h : ∀ c ∈ done, c ∉ mark) : Passed mark done := by
  obtain ⟨first, rest, rfl⟩ := List.exists_cons_of_ne_nil hmark
  exact .of_not_mem (fun hfirst => h first hfirst List.mem_cons_self) rest

/-- A mark at the start of a text is replaced, and what follows it. -/
theorem replaceAll_mark (hmark : mark ≠ []) (inserted text : List Char) :
    replaceAll mark inserted (mark ++ text) = inserted ++ replaceAll mark inserted text := by
  have hsplit : splitAtFirst? mark (mark ++ text) = some ([], text) := by
    obtain ⟨first, rest, rfl⟩ := List.exists_cons_of_ne_nil hmark
    have hstart : dropStart? (first :: rest) (first :: (rest ++ text)) = some text :=
      (dropStart?_eq_some_iff _ _ _).2 rfl
    rw [List.cons_append, splitAtFirst?, hstart]
  rw [replaceAll, replaceAll, if_neg hmark, if_neg hmark, replaceFrom_of_some hmark hsplit]
  rfl

/-- A character at which no mark starts is kept, and what follows it is replaced. -/
theorem replaceAll_cons (h : ¬ mark <+: c :: text) (inserted : List Char) :
    replaceAll mark inserted (c :: text) = c :: replaceAll mark inserted text := by
  have hmark : mark ≠ [] := fun hnil => h (hnil ▸ List.nil_prefix)
  have hstart : dropStart? mark (c :: text) = none := by
    by_contra hsome
    obtain ⟨rest, hrest⟩ := Option.ne_none_iff_exists'.1 hsome
    exact h ⟨rest, ((dropStart?_eq_some_iff _ _ _).1 hrest).symm⟩
  rw [replaceAll, replaceAll, if_neg hmark, if_neg hmark, replaceFrom, hstart]

/-- What is passed stays, and the search goes on behind it. -/
theorem Passed.replaceAll (h : Passed mark done) (inserted text : List Char) :
    Text.replaceAll mark inserted (done ++ text) = done ++ Text.replaceAll mark inserted text := by
  by_cases hmark : mark = []
  · rw [Text.replaceAll, Text.replaceAll, if_pos hmark, if_pos hmark]
  rw [Text.replaceAll, Text.replaceAll, if_neg hmark, if_neg hmark]
  have hsplit := h.splitAtFirst? text
  cases htext : Text.splitAtFirst? mark text with
  | none =>
    rw [htext] at hsplit
    rw [replaceFrom_of_none hsplit, replaceFrom_of_none htext]
  | some parts =>
    rw [htext] at hsplit
    rw [replaceFrom_of_some hmark hsplit, replaceFrom_of_some hmark htext]
    simp only [List.append_assoc]

/-- A word that starts a text after a replacement started it before, unless it has a character of
what was put in. -/
theorem prefix_of_prefix_replaceAll (hinserted : inserted ≠ []) (hword : ∀ c ∈ inserted, c ∉ word)
    (h : word <+: replaceAll mark inserted text) : word <+: text := by
  by_cases hmark : mark = []
  · rwa [replaceAll, if_pos hmark] at h
  induction text generalizing word with
  | nil => rwa [replaceAll, if_neg hmark, replaceFrom] at h
  | cons c text ih =>
    cases word with
    | nil => exact List.nil_prefix
    | cons d word =>
      by_cases hstart : mark <+: c :: text
      · -- the word would start with what was put in
        obtain ⟨rest, hrest⟩ := hstart
        obtain ⟨first, more, rfl⟩ := List.exists_cons_of_ne_nil hinserted
        rw [← hrest, replaceAll_mark hmark, List.cons_append, List.cons_prefix_cons] at h
        exact absurd (h.1 ▸ List.mem_cons_self) (hword first List.mem_cons_self)
      · rw [replaceAll_cons hstart, List.cons_prefix_cons] at h
        rw [List.cons_prefix_cons]
        exact ⟨h.1, ih (fun e he hmem => hword e he (List.mem_cons_of_mem d hmem)) h.2⟩

/-- A mark that does not start a text does not come to start it when what follows the first
character is searched for another mark. -/
theorem Independent.not_prefix_cons (h : Independent mark inserted other inserted')
    (hstart : ¬ other <+: c :: text) : ¬ other <+: c :: replaceAll mark inserted text := by
  intro hbegins
  cases other with
  | nil => exact hstart List.nil_prefix
  | cons d rest =>
    rw [List.cons_prefix_cons] at hstart hbegins
    refine hstart
      ⟨hbegins.1, prefix_of_prefix_replaceAll h.nonempty (fun e he hmem => ?_) hbegins.2⟩
    exact h.disjoint e he (List.mem_cons_of_mem d hmem)

/-- At an occurrence of one mark it does not matter which replacement comes first, if it does not
behind it. -/
theorem Independent.comm_at_mark (h : Independent mark inserted other inserted') (hmark : mark ≠ [])
    (hother : other ≠ [])
    (hrest : replaceAll other inserted' (replaceAll mark inserted text) =
      replaceAll mark inserted (replaceAll other inserted' text)) :
    replaceAll other inserted' (replaceAll mark inserted (mark ++ text)) =
      replaceAll mark inserted (replaceAll other inserted' (mark ++ text)) := by
  have hput : Passed other inserted := .of_disjoint hother h.disjoint
  rw [replaceAll_mark hmark, hput.replaceAll, h.apart.symm.passed.replaceAll, replaceAll_mark hmark,
    hrest]

/-- Two replacements that leave each other alone can be carried out in either order. -/
theorem replaceAll_comm (h : Independent mark inserted other inserted') (hmark : mark ≠ [])
    (hother : other ≠ []) (text : List Char) :
    replaceAll other inserted' (replaceAll mark inserted text) =
      replaceAll mark inserted (replaceAll other inserted' text) := by
  -- the text is used up from the left, by an occurrence of one of the marks or by one character
  induction hlength : text.length using Nat.strongRecOn generalizing text with
  | ind length ih =>
    subst hlength
    have hshorter : ∀ {word rest : List Char}, word ≠ [] → rest.length < (word ++ rest).length := by
      intro word rest hword
      have := List.length_pos_iff.2 hword
      rw [List.length_append]
      omega
    cases text with
    | nil => simp only [replaceAll, if_neg hmark, if_neg hother, replaceFrom]
    | cons c text =>
      by_cases hfirst : mark <+: c :: text
      · obtain ⟨rest, hrest⟩ := hfirst
        rw [← hrest] at ih ⊢
        exact h.comm_at_mark hmark hother (ih _ (hshorter hmark) rest rfl)
      by_cases hsecond : other <+: c :: text
      · obtain ⟨rest, hrest⟩ := hsecond
        rw [← hrest] at ih ⊢
        exact (h.symm.comm_at_mark hother hmark (ih _ (hshorter hother) rest rfl).symm).symm
      rw [replaceAll_cons hfirst, replaceAll_cons hsecond,
        replaceAll_cons (h.not_prefix_cons hsecond),
        replaceAll_cons (h.symm.not_prefix_cons hfirst)]
      exact congrArg (c :: ·) (ih _ (Nat.lt_succ_self _) text rfl)

end Text

namespace Substitution

/-- Nothing that one substitution does is in the way of another: no placeholder of one can overlap
one of the other, and what either puts in is something without a character of the placeholders of
the other.  A pair with an empty placeholder does nothing. -/
structure Apart (first second : Substitution) : Prop where
  placeholders : ∀ pair ∈ first.pairs, pair.1 ≠ "" → ∀ other ∈ second.pairs, other.1 ≠ "" →
    Text.Apart pair.1.toList other.1.toList
  inserted : ∀ pair ∈ first.pairs, pair.1 ≠ "" → pair.2 ≠ "" ∧
    ∀ other ∈ second.pairs, ∀ c ∈ pair.2.toList, c ∉ other.1.toList
  inserted' : ∀ pair ∈ second.pairs, pair.1 ≠ "" → pair.2 ≠ "" ∧
    ∀ other ∈ first.pairs, ∀ c ∈ pair.2.toList, c ∉ other.1.toList

/-- A pair with an empty mark replaces nothing. -/
theorem applyPair_of_empty {pair : String × String} (h : pair.1 = "") (text : List Char) :
    applyPair text pair = text := by
  rw [applyPair, h]
  rfl

/-- One replacement of each substitution can be carried out in either order. -/
theorem Apart.applyPair_comm {first second : Substitution} (h : Apart first second)
    {pair other : String × String} (hpair : pair ∈ first.pairs) (hother : other ∈ second.pairs)
    (text : List Char) :
    applyPair (applyPair text pair) other = applyPair (applyPair text other) pair := by
  by_cases hempty : pair.1 = ""
  · rw [applyPair_of_empty hempty, applyPair_of_empty hempty]
  by_cases hempty' : other.1 = ""
  · rw [applyPair_of_empty hempty', applyPair_of_empty hempty']
  obtain ⟨hput, hdisjoint⟩ := h.inserted pair hpair hempty
  obtain ⟨hput', hdisjoint'⟩ := h.inserted' other hother hempty'
  have hindependent : Text.Independent pair.1.toList pair.2.toList other.1.toList other.2.toList :=
    ⟨h.placeholders pair hpair hempty other hother hempty', mt String.toList_eq_nil_iff.1 hput,
      mt String.toList_eq_nil_iff.1 hput', hdisjoint other hother, hdisjoint' pair hpair⟩
  exact Text.replaceAll_comm hindependent (mt String.toList_eq_nil_iff.1 hempty)
    (mt String.toList_eq_nil_iff.1 hempty') text

/-- A replacement can be carried out before or behind a row of others if it can be exchanged with
each of them. -/
theorem foldl_applyPair_comm {pair : String × String} {others : List (String × String)}
    (h : ∀ other ∈ others, ∀ text, applyPair (applyPair text pair) other =
      applyPair (applyPair text other) pair) (text : List Char) :
    others.foldl applyPair (applyPair text pair) =
      applyPair (others.foldl applyPair text) pair := by
  induction others generalizing text with
  | nil => rfl
  | cons other rest ih =>
    obtain ⟨hother, hrest⟩ := List.forall_mem_cons.1 h
    rw [List.foldl_cons, List.foldl_cons, hother, ih hrest]

/-- Two rows of replacements can be exchanged if all of their members can. -/
theorem foldl_foldl_applyPair {pairs others : List (String × String)}
    (h : ∀ pair ∈ pairs, ∀ other ∈ others, ∀ text, applyPair (applyPair text pair) other =
      applyPair (applyPair text other) pair) (text : List Char) :
    others.foldl applyPair (pairs.foldl applyPair text) =
      pairs.foldl applyPair (others.foldl applyPair text) := by
  induction pairs generalizing text with
  | nil => rfl
  | cons pair rest ih =>
    obtain ⟨hpair, hrest⟩ := List.forall_mem_cons.1 h
    rw [List.foldl_cons, List.foldl_cons, ih hrest, foldl_applyPair_comm hpair]

/-- Substitutions that are not in each other's way can be carried out in either order. -/
theorem Apart.apply_comm {first second : Substitution} (h : Apart first second) (text : String) :
    second.apply (first.apply text) = first.apply (second.apply text) := by
  simp only [apply, String.toList_ofList]
  exact congrArg String.ofList
    (foldl_foldl_applyPair (fun _ hpair _ hother => h.applyPair_comm hpair hother) text.toList)

end Substitution

namespace Content

variable (f g : String → String)

mutual

/-- Replacing texts twice is replacing them once. -/
theorem mapText_mapText : ∀ content : Content,
    (content.mapText f).mapText g = content.mapText fun text => g (f text)
  | .scalar _ => rfl
  | .map ⟨entries⟩ =>
    congrArg (fun entries => Content.map ⟨entries⟩) (mapEntries_mapEntries entries)
  | .sequence items => congrArg Content.sequence (mapItems_mapItems items)

/-- Rewriting entries twice rewrites them by both functions. -/
theorem mapEntries_mapEntries : ∀ {names : List String} (entries : Entries Content names),
    mapEntriesM (m := Id) g (mapEntriesM (m := Id) f entries) =
      mapEntriesM (m := Id) (fun text => g (f text)) entries
  | _, .nil => rfl
  | _, .cons name value fresh rest =>
    congrArg₂ (fun value rest => Entries.cons name value fresh rest) (mapText_mapText value)
      (mapEntries_mapEntries rest)

/-- Rewriting items twice rewrites them by both functions. -/
theorem mapItems_mapItems : ∀ items : List Content,
    mapItemsM (m := Id) g (mapItemsM (m := Id) f items) =
      mapItemsM (m := Id) (fun text => g (f text)) items
  | [] => rfl
  | item :: rest => congrArg₂ List.cons (mapText_mapText item) (mapItems_mapItems rest)

end

end Content

/-- Replacing values twice is replacing them once. -/
theorem Entries.mapM_mapM {α β γ : Type} (f : α → β) (g : β → γ) {names : List String}
    (entries : Entries α names) :
    Entries.mapM (m := Id) g (Entries.mapM (m := Id) f entries) =
      Entries.mapM (m := Id) (fun value => g (f value)) entries := by
  induction entries with
  | nil => rfl
  | cons name value fresh rest ih => exact congrArg (Entries.cons name (g (f value)) fresh) ih

namespace Template

/-- Replacing the texts of a template twice is replacing them once. -/
theorem mapText_mapText (f g : String → String) (template : Template) :
    (template.mapText f).mapText g = template.mapText fun text => g (f text) := by
  have hchildren := Content.mapEntries_mapEntries f g template.children.held
  have hattrs := Entries.mapM_mapM f g template.attrs.held
  exact congrArg₂ (fun children attrs => Template.mk ⟨children⟩ ⟨attrs⟩ (g (f template.body)))
    hchildren hattrs

/-- Substitutions that are not in each other's way can be carried out on a template in either
order, whatever its texts are. -/
theorem substitute_comm {first second : Substitution} (h : first.Apart second)
    (template : Template) :
    (template.substitute first).substitute second =
      (template.substitute second).substitute first := by
  simp only [substitute, mapText_mapText]
  exact congrArg template.mapText (funext h.apply_comm)

/-- A template with texts in its children, its attributes and its body. -/
def tokens : Template :=
  ⟨.ofList [("c", .sequence [.scalar "[n][m]", .map (.ofList [("d", .scalar "a[m]a[n]aa")])])],
    .ofList [("k", "[m]")], "aaa[n[m]]"⟩

/-- Two substitutions whose tokens begin and end alike, one of them with a placeholder that overlaps
itself and with an empty one. -/
theorem substitute_comm_tokens :
    Substitution.Apart ⟨[("[n]", "1"), ("", "]["), ("aa", "x")]⟩ ⟨[("[m]", "yy")]⟩ ∧
      (tokens.substitute ⟨[("[n]", "1"), ("", "]["), ("aa", "x")]⟩).substitute ⟨[("[m]", "yy")]⟩ =
        (tokens.substitute ⟨[("[m]", "yy")]⟩).substitute
          ⟨[("[n]", "1"), ("", "]["), ("aa", "x")]⟩ := by
  have hapart : Substitution.Apart ⟨[("[n]", "1"), ("", "]["), ("aa", "x")]⟩ ⟨[("[m]", "yy")]⟩ :=
    ⟨by decide, by simp, by simp⟩
  exact ⟨hapart, substitute_comm hapart tokens⟩

end Template

end XmlWorkload
