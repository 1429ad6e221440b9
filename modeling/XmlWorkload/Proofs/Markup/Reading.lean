import XmlWorkload.Name
import XmlWorkload.Proofs.Markup.Reader
import XmlWorkload.Proofs.Markup.Reference
import XmlWorkload.Proofs.Sink.Writing

/-!
# Reading what was written

Reading undoes writing.  A tree can be read back when its names are names, its texts can be carried
and are not empty, and no two texts stand side by side: two of them would be read as one, and an
empty one not at all.  Main statement: the reader accepts the written form of such a tree, with a
declaration in front of it or without, and gives the tree (`Markup.read?_render`).
-/

set_option autoImplicit false

namespace XmlWorkload.Markup

open CharacterData (Carries escaped escapedChar isAllowed)

/-- Whether something is a text and not an element. -/
def IsText : Markup → Prop
  | .text _ => True
  | .element _ _ _ => False

/-- Attributes can be read back: their names are names, and their values can be carried. -/
def ReadableAttributes (attrs : List (String × String)) : Prop :=
  ∀ entry ∈ attrs, Name.isValid entry.1 = true ∧ Carries entry.2

mutual

/-- A part of a document can be read back. -/
def Readable : Markup → Prop
  | .text body => body ≠ "" ∧ Carries body
  | .element name attrs content =>
    Name.isValid name = true ∧ ReadableAttributes attrs ∧ ReadableAll content

/-- Parts of a document in a row can be read back: each of them can, and no two texts stand side by
side. -/
def ReadableAll : List Markup → Prop
  | [] => True
  | node :: rest =>
    Readable node ∧ (IsText node → ∀ next ∈ rest.head?, ¬ IsText next) ∧ ReadableAll rest

end

mutual

/-- The tags and texts that a part of a document is written as. -/
def tokens : Markup → List Token
  | .text body => [.text body]
  | .element name attrs content =>
    if content.isEmpty then [.single name attrs]
    else .opening name attrs :: (tokensAll content ++ [.closing name])

/-- The tags and texts that parts of a document in a row are written as. -/
def tokensAll : List Markup → List Token
  | [] => []
  | node :: rest => tokens node ++ tokensAll rest

end

section Characters

/-- No character of a name ends it. -/
theorem not_endsName_of_isValid {name : String} (h : Name.isValid name = true) :
    name.toList ≠ [] ∧ ∀ c ∈ name.toList, endsName c = false := by
  have hpart : ∀ c : Char, Name.isPart c = true → endsName c = false := by
    intro c hc
    cases hends : endsName c with
    | false => rfl
    | true =>
      simp only [endsName, isSpace, Bool.or_eq_true, beq_iff_eq] at hends
      rcases hends with ((((((((((rfl | rfl) | rfl) | rfl) | rfl) | rfl) | rfl) | rfl) | rfl) | rfl) |
        rfl) <;> exact absurd hc (by decide)
  have hstart : ∀ c : Char, Name.isStart c = true → Name.isPart c = true := by
    intro c hc
    simp only [Name.isStart, Bool.or_eq_true] at hc
    rcases hc with (hc | hc) | hc <;> simp [Name.isPart, hc]
  unfold Name.isValid at h
  split at h
  · cases h
  · next first rest htext =>
    rw [Bool.and_eq_true, List.all_eq_true] at h
    rw [htext]
    refine ⟨List.cons_ne_nil _ _, ?_⟩
    intro c hc
    rcases List.mem_cons.1 hc with rfl | hc
    · exact hpart _ (hstart _ h.1)
    · exact hpart c (h.2 c hc)

/-- A name in front of a character that ends it is read as far as it goes. -/
theorem nameIn_append {name : String} (h : Name.isValid name = true) {c : Char}
    (hc : endsName c = true) (rest : List Char) :
    nameIn (name.toList ++ c :: rest) = name.toList ∧
      behindName (name.toList ++ c :: rest) = c :: rest := by
  have hname : ∀ c ∈ name.toList, (!endsName c) = true := by
    intro c hc
    rw [(not_endsName_of_isValid h).2 c hc]
    rfl
  refine ⟨?_, ?_⟩
  · rw [nameIn, List.takeWhile_append_of_pos hname, List.takeWhile_cons_of_neg (by simp [hc]),
      List.append_nil]
  · rw [behindName, List.dropWhile_append_of_pos hname, List.dropWhile_cons_of_neg (by simp [hc])]

/-- There is no space to skip in front of another character. -/
theorem skipSpace_cons {c : Char} (h : isSpace c = false) (rest : List Char) :
    skipSpace (c :: rest) = c :: rest :=
  List.dropWhile_cons_of_neg (by simp [h])

/-- A text that does not have a character is cut off in front of it. -/
theorem splitAtFirst?_singleton {c : Char} {before : List Char} (h : c ∉ before)
    (behind : List Char) : Text.splitAtFirst? [c] (before ++ c :: behind) = some (before, behind) := by
  induction before with
  | nil => simp [Text.splitAtFirst?, Text.dropStart?]
  | cons other rest ih =>
    rw [List.mem_cons, not_or] at h
    have hother : Text.dropStart? [c] (other :: (rest ++ c :: behind)) = none := by
      simp [Text.dropStart?, h.1]
    rw [List.cons_append, Text.splitAtFirst?, hother, ih h.2]
    rfl

/-- A character is decoded from the form in which it is written. -/
theorem decode?_escapedChar {c : Char} (h : isAllowed c = true) (rest : List Char) :
    decode? (escapedChar c ++ rest) = (decode? rest).map (c :: ·) := by
  have hreference : ∀ name : List Char, ';' ∉ name → ∀ stands : Char, entity? name = some stands →
      decode? ('&' :: (name ++ ';' :: rest)) = (decode? rest).map (stands :: ·) := by
    intro name hname stands hentity
    rw [decode?]
    simp only [if_true]
    split
    · next hsplit =>
      rw [splitAtFirst?_singleton hname] at hsplit
      cases hsplit
    · next found behind hsplit =>
      rw [splitAtFirst?_singleton hname] at hsplit
      cases hsplit
      rw [hentity]
      rfl
  unfold escapedChar
  split
  · exact hreference "lt".toList (by decide) _ rfl
  · exact hreference "gt".toList (by decide) _ rfl
  · exact hreference "amp".toList (by decide) _ rfl
  · exact hreference "apos".toList (by decide) _ rfl
  · exact hreference "quot".toList (by decide) _ rfl
  · next hlt _ hamp _ _ =>
    have hplain : ¬ (c = '<' ∨ isAllowed c = false) := by
      rintro (hstart | hforbidden)
      · exact hlt hstart
      · rw [h] at hforbidden
        cases hforbidden
    rw [List.cons_append, List.nil_append, decode?, if_neg hamp, if_neg hplain]

/-- A text is decoded from the form in which it is written. -/
theorem decode?_escaped {text : String} (h : Carries text) :
    decode? (escaped text).toList = some text.toList := by
  rw [escaped, String.toList_ofList]
  unfold CharacterData.Carries at h
  generalize text.toList = chars at h
  induction chars with
  | nil => rw [List.flatMap_nil, decode?]
  | cons c rest ih =>
    rw [List.flatMap_cons, decode?_escapedChar (h c List.mem_cons_self),
      ih fun other hother => h other (List.mem_cons_of_mem c hother)]
    rfl

/-- The form in which a text is written has neither the start of a tag nor a quote. -/
theorem plain_of_mem_escaped {text : String} {c : Char} (h : c ∈ (escaped text).toList) :
    c ≠ '<' ∧ c ≠ '"' := by
  rw [escaped, String.toList_ofList, List.mem_flatMap] at h
  obtain ⟨source, -, hc⟩ := h
  unfold escapedChar at hc
  split at hc
  case h_6 hlt _ _ _ hquot =>
    rw [List.mem_singleton] at hc
    rw [hc]
    exact ⟨hlt, hquot⟩
  all_goals
    constructor
    · rintro rfl
      exact absurd hc (by decide)
    · rintro rfl
      exact absurd hc (by decide)

end Characters

section Tags

/-- An attribute is read from the form in which it is written. -/
theorem readAttribute?_renderAttribute {entry : String × String}
    (hname : Name.isValid entry.1 = true) (hvalue : Carries entry.2) (rest : List Char) :
    readAttribute? (entry.1.toList ++ '=' :: '"' :: ((escaped entry.2).toList ++ '"' :: rest)) =
      some (entry, rest) := by
  obtain ⟨hread, hbehind⟩ := nameIn_append hname (show endsName '=' = true from rfl)
    ('"' :: ((escaped entry.2).toList ++ '"' :: rest))
  have hquote : '"' ∉ (escaped entry.2).toList := fun hmem => (plain_of_mem_escaped hmem).2 rfl
  unfold readAttribute?
  rw [hread, hbehind, skipSpace_cons rfl]
  simp only [skipSpace_cons (show isSpace '"' = false from rfl), splitAtFirst?_singleton hquote,
    if_neg (not_endsName_of_isValid hname).1, decode?_escaped hvalue, Option.map_some,
    String.ofList_toList]

/-- A name does not start with a character that ends a name. -/
theorem head?_name_append {name : String} (h : Name.isValid name = true) (rest : List Char) {c : Char}
    (hc : endsName c = true) : (name.toList ++ rest).head? ≠ some c := by
  obtain ⟨hne, hnot⟩ := not_endsName_of_isValid h
  obtain ⟨first, others, htext⟩ := List.exists_cons_of_ne_nil hne
  rw [htext] at hnot ⊢
  intro heq
  cases heq
  have hfirst := hnot c List.mem_cons_self
  rw [hc] at hfirst
  cases hfirst

/-- The attributes of a tag are read from the form in which they are written, whichever end of the
tag follows them. -/
theorem readAttributes?_render {attrs : List (String × String)} (h : ReadableAttributes attrs)
    {ending : List Char} {isEmpty : Bool} {rest : List Char}
    (hending : readAttributes? ending = some ([], isEmpty, rest)) :
    readAttributes? ((String.join (attrs.map renderAttribute)).toList ++ ending) =
      some (attrs, isEmpty, rest) := by
  induction attrs with
  | nil => exact hending
  | cons entry others ih =>
    obtain ⟨hname, hvalue⟩ := h entry List.mem_cons_self
    have hothers := ih fun other hother => h other (List.mem_cons_of_mem entry hother)
    let behind := (String.join (others.map renderAttribute)).toList ++ ending
    let inner := entry.1.toList ++ '=' :: '"' :: ((escaped entry.2).toList ++ '"' :: behind)
    have hwritten : (String.join ((entry :: others).map renderAttribute)).toList ++ ending =
        ' ' :: inner := by
      simp [renderAttribute, inner, behind, String.join_cons, String.toList_append]
    have hspace : skipSpace inner = inner := by
      obtain ⟨first, letters, htext⟩ :=
        List.exists_cons_of_ne_nil (not_endsName_of_isValid hname).1
      have hfirst := (not_endsName_of_isValid hname).2 first (by simp [htext])
      simp only [inner, htext, List.cons_append]
      apply skipSpace_cons
      cases hblank : isSpace first with
      | false => rfl
      | true =>
        rw [endsName, hblank] at hfirst
        cases hfirst
    have hmore : ¬ (inner.head? = some '>' ∨ inner.head? = some '/') := by
      rintro (hhead | hhead)
      · exact head?_name_append hname _ rfl hhead
      · exact head?_name_append hname _ rfl hhead
    have hread := readAttribute?_renderAttribute hname hvalue behind
    change readAttribute? inner = _ at hread
    rw [← hspace] at hmore hread
    rw [hwritten, readAttributes?_space hmore hread, hothers]
    rfl

/-- A start tag, or the tag of an element without content, is read from the form in which it is
written. -/
theorem readToken?_renderHead {name : String} {attrs : List (String × String)}
    (hname : Name.isValid name = true) (hattrs : ReadableAttributes attrs) {c : Char}
    (hc : endsName c = true) {ending rest : List Char} {isEmpty : Bool}
    (hending : readAttributes? (c :: ending) = some ([], isEmpty, rest)) :
    readToken? ('<' :: ((renderHead name attrs).toList ++ c :: ending)) =
      some (if isEmpty then .single name attrs else .opening name attrs, rest) := by
  let behind := (String.join (attrs.map renderAttribute)).toList ++ c :: ending
  have hwritten : (renderHead name attrs).toList ++ c :: ending = name.toList ++ behind := by
    rw [renderHead, String.toList_append, List.append_assoc]
  -- behind the name there is a blank or the end of the tag
  obtain ⟨d, more, hd, hbehind⟩ : ∃ d more, endsName d = true ∧ behind = d :: more := by
    cases attrs with
    | nil => exact ⟨c, ending, hc, rfl⟩
    | cons entry others =>
      refine ⟨' ', behind.tail, rfl, ?_⟩
      simp only [behind, List.map_cons, String.join_cons, renderAttribute, String.toList_append,
        List.append_assoc]
      rfl
  obtain ⟨hread, hleft⟩ := nameIn_append hname hd more
  rw [← hbehind] at hread hleft
  have hattributes := readAttributes?_render hattrs hending
  rw [hwritten, readToken?, if_pos rfl, if_neg (head?_name_append hname behind rfl), readOpening?,
    hread, if_neg (not_endsName_of_isValid hname).1, hleft, hattributes]
  simp only [Option.map_some, String.ofList_toList]

/-- An end tag is read from the form in which it is written. -/
theorem readToken?_closing {name : String} (hname : Name.isValid name = true) (rest : List Char) :
    readToken? ('<' :: '/' :: (name.toList ++ '>' :: rest)) = some (.closing name, rest) := by
  obtain ⟨hread, hleft⟩ := nameIn_append hname (show endsName '>' = true from rfl) rest
  rw [readToken?, if_pos rfl, List.head?_cons, if_pos rfl, List.tail_cons, readClosing?, hread, hleft,
    skipSpace_cons rfl]
  simp only [if_neg (not_endsName_of_isValid hname).1, String.ofList_toList]

/-- A text up to the next tag is read from the form in which it is written. -/
theorem readToken?_escaped {body : String} (hne : body ≠ "") (hcarries : Carries body)
    {rest : List Char} (hrest : ∀ c ∈ rest.head?, c = '<') :
    readToken? ((escaped body).toList ++ rest) = some (.text body, rest) := by
  have hplain : ∀ c ∈ (escaped body).toList, (c != '<') = true := by
    intro c hc
    simpa using (plain_of_mem_escaped hc).1
  have htake : rest.takeWhile (· != '<') = [] ∧ rest.dropWhile (· != '<') = rest := by
    cases rest with
    | nil => exact ⟨rfl, rfl⟩
    | cons c more =>
      obtain rfl := hrest c rfl
      exact ⟨rfl, rfl⟩
  have hread : readText? ((escaped body).toList ++ rest) = some (.text body, rest) := by
    rw [readText?, List.takeWhile_append_of_pos hplain, List.dropWhile_append_of_pos hplain,
      htake.1, htake.2, List.append_nil, decode?_escaped hcarries]
    simp only [Option.map_some, String.ofList_toList]
  cases hbody : (escaped body).toList with
  | nil =>
    have hdecoded := decode?_escaped hcarries
    rw [hbody, decode?, Option.some.injEq] at hdecoded
    exact absurd (String.toList_eq_nil_iff.1 hdecoded.symm) hne
  | cons first letters =>
    have hmem : first ∈ (escaped body).toList := by simp [hbody]
    have hfirst : first ≠ '<' := (plain_of_mem_escaped hmem).1
    rw [hbody] at hread
    rw [List.cons_append, readToken?, if_neg hfirst]
    exact hread

end Tags

section Trees

/-- What is written behind a text does not go on with it: it is a tag, or nothing. -/
theorem head?_render_element (name : String) (attrs : List (String × String))
    (content : List Markup) : (render (.element name attrs content)).toList.head? = some '<' := by
  rw [render]
  split <;> simp only [String.toList_append, List.append_assoc] <;> rfl

/-- Nodes of which the first is no text begin with a tag, if something that does follows them. -/
theorem head?_renderAll {nodes : List Markup} (h : ∀ next ∈ nodes.head?, ¬ IsText next)
    {rest : List Char} (hrest : ∀ c ∈ rest.head?, c = '<') :
    ∀ c ∈ ((renderAll nodes).toList ++ rest).head?, c = '<' := by
  cases nodes with
  | nil => exact hrest
  | cons node others =>
    cases node with
    | text body => exact absurd trivial (h _ rfl)
    | element name attrs content =>
      have hhead := head?_render_element name attrs content
      obtain ⟨more, hmore⟩ : ∃ more, (render (.element name attrs content)).toList = '<' :: more := by
        cases htext : (render (.element name attrs content)).toList with
        | nil =>
          rw [htext] at hhead
          cases hhead
        | cons c more =>
          rw [htext] at hhead
          cases hhead
          exact ⟨more, rfl⟩
      intro c hc
      rw [renderAll, String.toList_append, hmore] at hc
      cases hc
      rfl

mutual

/-- The tags and texts of a part of a document are those that it is written as. -/
theorem tokens?_render : ∀ (node : Markup), Readable node → ∀ {rest : List Char},
    (IsText node → ∀ c ∈ rest.head?, c = '<') →
    tokens? ((render node).toList ++ rest) = (tokens? rest).map (tokens node ++ ·)
  | .text body, h, rest, hrest => by
    rw [render, tokens?_of_readToken? (readToken?_escaped h.1 h.2 (hrest trivial)), tokens]
    rfl
  | .element name attrs content, h, rest, _ => by
    obtain ⟨hname, hattrs, hcontent⟩ := h
    rw [render, tokens]
    by_cases hempty : content.isEmpty = true
    · have hending : readAttributes? ('/' :: '>' :: rest) = some ([], true, rest) := by
        rw [readAttributes?]
        rfl
      have hwritten : ("<" ++ renderHead name attrs ++ "/>").toList ++ rest =
          '<' :: ((renderHead name attrs).toList ++ '/' :: '>' :: rest) := by
        simp [String.toList_append]
      rw [if_pos hempty, if_pos hempty, hwritten,
        tokens?_of_readToken? (readToken?_renderHead hname hattrs rfl hending)]
      rfl
    · let behind := '<' :: '/' :: (name.toList ++ '>' :: rest)
      have hending : readAttributes? ('>' :: ((renderAll content).toList ++ behind)) =
          some ([], false, (renderAll content).toList ++ behind) := by
        rw [readAttributes?]
        rfl
      have hwritten : ("<" ++ renderHead name attrs ++ ">" ++ renderAll content ++ "</" ++ name ++
          ">").toList ++ rest = '<' :: ((renderHead name attrs).toList ++
            '>' :: ((renderAll content).toList ++ behind)) := by
        simp [String.toList_append, behind]
      have hinner := @tokens?_renderAll content hcontent behind fun c hc => by
        cases hc
        rfl
      rw [if_neg hempty, if_neg hempty, hwritten,
        tokens?_of_readToken? (readToken?_renderHead hname hattrs rfl hending), hinner,
        tokens?_of_readToken? (readToken?_closing hname rest)]
      simp [Function.comp_def]

/-- The tags and texts of parts of a document in a row, with a tag or nothing behind them, are those
that they are written as. -/
theorem tokens?_renderAll : ∀ (nodes : List Markup), ReadableAll nodes → ∀ {rest : List Char},
    (∀ c ∈ rest.head?, c = '<') →
    tokens? ((renderAll nodes).toList ++ rest) = (tokens? rest).map (tokensAll nodes ++ ·)
  | [], _, rest, _ => by
    rw [renderAll, tokensAll]
    simp
  | node :: others, h, rest, hrest => by
    obtain ⟨hnode, hapart, hothers⟩ := h
    have hbehind := tokens?_renderAll others hothers hrest
    have hfirst := tokens?_render node hnode fun htext => head?_renderAll (hapart htext) hrest
    rw [renderAll, String.toList_append, List.append_assoc, hfirst, hbehind, tokensAll]
    simp [Function.comp_def]

end

mutual

/-- What a part of a document is written as is put together to that part. -/
theorem build?_tokens : ∀ (node : Markup) (levels : List Level) (content : List Markup)
    (rest : List Token),
    build? levels content (tokens node ++ rest) = build? levels (content ++ [node]) rest
  | .text body, levels, content, rest => by
    rw [tokens, List.singleton_append, build?]
  | .element name attrs inner, levels, content, rest => by
    rw [tokens]
    by_cases hempty : inner.isEmpty = true
    · rw [if_pos hempty, List.singleton_append, build?, List.isEmpty_iff.1 hempty]
    · rw [if_neg hempty, List.cons_append, build?, List.append_assoc, build?_tokensAll,
        List.nil_append, List.singleton_append, build?, if_pos rfl]

/-- What parts of a document in a row are written as is put together to these parts. -/
theorem build?_tokensAll : ∀ (nodes : List Markup) (levels : List Level) (content : List Markup)
    (rest : List Token),
    build? levels content (tokensAll nodes ++ rest) = build? levels (content ++ nodes) rest
  | [], levels, content, rest => by
    rw [tokensAll, List.nil_append, List.append_nil]
  | node :: others, levels, content, rest => by
    rw [tokensAll, List.append_assoc, build?_tokens, build?_tokensAll, List.append_assoc]
    rfl

end

/-- The declaration is passed over, and a text that has none is taken as it is. -/
theorem behindDeclaration?_prologue (declared : Bool) {text : List Char}
    (htext : text.tail.head? ≠ some '?') :
    behindDeclaration? ((Reference.prologue declared).toList ++ text) = some text := by
  cases declared with
  | true => rfl
  | false =>
    have hnone : Text.dropStart? "<?xml ".toList text = none := by
      cases hdrop : Text.dropStart? "<?xml ".toList text with
      | none => rfl
      | some rest =>
        rw [(Text.dropStart?_eq_some_iff _ _ _).1 hdrop] at htext
        exact absurd rfl htext
    show behindDeclaration? text = some text
    rw [behindDeclaration?, hnone]

/-- Reading a document that was written, with a declaration in front of it or without, gives the
document. -/
theorem read?_render {name : String} {attrs : List (String × String)} {content : List Markup}
    (h : Readable (.element name attrs content)) (declared : Bool) :
    read? (Reference.prologue declared ++ render (.element name attrs content)) =
      some (.element name attrs content) := by
  let tree : Markup := .element name attrs content
  have htail : (render tree).toList.tail.head? ≠ some '?' := by
    have hstart : ∃ rest, (render tree).toList = '<' :: (name.toList ++ rest) := by
      simp only [tree, render, renderHead]
      split <;> simp only [String.toList_append, List.append_assoc] <;> exact ⟨_, rfl⟩
    obtain ⟨rest, hrest⟩ := hstart
    rw [hrest]
    obtain ⟨hne, -⟩ := not_endsName_of_isValid h.1
    obtain ⟨first, letters, hname⟩ := List.exists_cons_of_ne_nil hne
    intro heq
    rw [hname] at heq
    cases heq
    have hvalid := h.1
    rw [Name.isValid, hname, Bool.and_eq_true] at hvalid
    exact absurd hvalid.1 (by decide)
  have htokens := @tokens?_render tree h [] fun _ c hc => by cases hc
  have hbuild := build?_tokens tree [] [] []
  rw [List.append_nil] at htokens hbuild
  have hnothing : tokens? [] = some [] := by
    rw [tokens?, if_pos rfl]
  rw [read?, String.toList_append, behindDeclaration?_prologue declared htail]
  simp only [Option.bind_eq_bind, Option.bind_some, htokens, hnothing, Option.map_some,
    List.append_nil, hbuild]
  rfl

end Trees

end XmlWorkload.Markup
