import XmlWorkload.Proofs.Markup.Basic
import XmlWorkload.Text.Replace

/-!
# Reading documents

A plain reader of documents.  A text is cut into tags and the texts between them, and these are put
together to one tree.  The reader knows start tags, end tags and tags of elements without content,
attributes with their values between double quotes, and the five references to characters; it takes
every character as it stands, blanks among them.  It knows nothing of how documents are written.
-/

set_option autoImplicit false

namespace XmlWorkload.Markup

/-- Whether a character is a blank, as it may stand between the parts of a tag. -/
def isSpace (c : Char) : Bool := c == ' ' || c == '\t' || c == '\r' || c == '\n'

/-- Whether a name ends in front of a character. -/
def endsName (c : Char) : Bool :=
  isSpace c || c == '<' || c == '>' || c == '/' || c == '=' || c == '"' || c == '\'' || c == '&'

/-- The name in front of a text. -/
def nameIn (text : List Char) : List Char := text.takeWhile fun c => !endsName c

/-- What stands behind the name in front of a text. -/
def behindName (text : List Char) : List Char := text.dropWhile fun c => !endsName c

/-- A text without the blanks in front of it. -/
def skipSpace (text : List Char) : List Char := text.dropWhile isSpace

/-- The character that a reference stands for. -/
def entity? (name : List Char) : Option Char :=
  if name = "lt".toList then some '<'
  else if name = "gt".toList then some '>'
  else if name = "amp".toList then some '&'
  else if name = "apos".toList then some '\''
  else if name = "quot".toList then some '"'
  else none

/-- What characters stand for, each reference for one character and every other one for itself.  The
start of a tag and characters that a document cannot carry stand for nothing. -/
def decode? (text : List Char) : Option (List Char) :=
  match text with
  | [] => some []
  | c :: rest =>
    if c = '&' then
      match _h : Text.splitAtFirst? [';'] rest with
      | none => none
      | some (name, behind) => (entity? name).bind fun c => (decode? behind).map (c :: ·)
    else if c = '<' ∨ CharacterData.isAllowed c = false then none
    else (decode? rest).map (c :: ·)
termination_by text.length
decreasing_by
  · have hlength := congrArg List.length (Text.eq_of_splitAtFirst? _h)
    simp only [List.length_append, List.length_cons, List.length_nil] at hlength ⊢
    omega
  · exact Nat.lt_succ_self _

/-- A tag, or a text between two tags. -/
inductive Token where
  | opening (name : String) (attrs : List (String × String))
  /-- The tag of an element without content. -/
  | single (name : String) (attrs : List (String × String))
  | closing (name : String)
  | text (body : String)

/-- The attribute in front of a text, and what stands behind it. -/
def readAttribute? (text : List Char) : Option ((String × String) × List Char) :=
  match skipSpace (behindName text) with
  | '=' :: rest =>
    match skipSpace rest with
    | '"' :: rest =>
      match Text.splitAtFirst? ['"'] rest with
      | some (value, behind) =>
        if nameIn text = [] then none
        else (decode? value).map fun value =>
          ((String.ofList (nameIn text), String.ofList value), behind)
      | none => none
    | _ => none
  | _ => none

/-- Skipping space makes a text no longer. -/
theorem length_skipSpace_le (text : List Char) : (skipSpace text).length ≤ text.length :=
  (List.dropWhile_suffix isSpace).length_le

/-- What is behind a name is no longer than the text. -/
theorem length_behindName_le (text : List Char) : (behindName text).length ≤ text.length :=
  (List.dropWhile_suffix _).length_le

/-- What stands behind an attribute is shorter than what held it. -/
theorem length_of_readAttribute? {text behind : List Char} {entry : String × String}
    (h : readAttribute? text = some (entry, behind)) : behind.length < text.length := by
  unfold readAttribute? at h
  have hname := length_skipSpace_le (behindName text)
  have htext := length_behindName_le text
  split at h
  · next rest hequals =>
    have hrest := length_skipSpace_le rest
    split at h
    · next inner hquote =>
      split at h
      · next value left hsplit =>
        have hlength := congrArg List.length (Text.eq_of_splitAtFirst? hsplit)
        split at h
        · cases h
        · obtain ⟨decoded, -, heq⟩ := Option.map_eq_some_iff.1 h
          cases heq
          rw [hequals] at hname
          rw [hquote] at hrest
          simp only [List.length_append, List.length_cons, List.length_nil] at *
          omega
      · cases h
    · cases h
  · cases h

/-- The attributes in front of a text up to the end of the tag, whether the tag is that of an
element without content, and what stands behind the tag.  There are blanks in front of each
attribute. -/
def readAttributes? (text : List Char) : Option (List (String × String) × Bool × List Char) :=
  match text with
  | [] => none
  | c :: rest =>
    if c = '>' then some ([], false, rest)
    else if c = '/' then
      if rest.head? = some '>' then some ([], true, rest.tail) else none
    else if isSpace c then
      if (skipSpace rest).head? = some '>' ∨ (skipSpace rest).head? = some '/' then
        readAttributes? (skipSpace rest)
      else
        match _h : readAttribute? (skipSpace rest) with
        | none => none
        | some (entry, behind) =>
          (readAttributes? behind).map fun others => (entry :: others.1, others.2)
    else none
termination_by text.length
decreasing_by
  · exact Nat.lt_succ_of_le (length_skipSpace_le rest)
  · have hless := length_of_readAttribute? _h
    have hskip := length_skipSpace_le rest
    simp only [List.length_cons]
    omega

/-- What stands behind a tag is shorter than what held its attributes. -/
theorem length_of_readAttributes? {text behind : List Char} {attrs : List (String × String)}
    {isEmpty : Bool} (h : readAttributes? text = some (attrs, isEmpty, behind)) :
    behind.length < text.length := by
  fun_induction readAttributes? text generalizing attrs isEmpty behind with
  | case1 => cases h
  | case2 rest =>
    cases h
    exact Nat.lt_succ_self _
  | case3 rest _ =>
    cases h
    exact Nat.lt_succ_of_le (List.length_tail ▸ Nat.sub_le _ _)
  | case4 => cases h
  | case5 c rest _ _ _ _ ih =>
    exact Nat.lt_trans (ih h) (Nat.lt_succ_of_le (length_skipSpace_le rest))
  | case6 => cases h
  | case7 c rest _ _ _ _ entry left hentry ih =>
    obtain ⟨⟨others, ending⟩, hothers, heq⟩ := Option.map_eq_some_iff.1 h
    cases heq
    have hless := ih hothers
    have hbefore := length_of_readAttribute? hentry
    have hskip := length_skipSpace_le rest
    simp only [List.length_cons]
    omega
  | case8 => cases h

/-- Behind a blank the attributes of a tag go on with one attribute and the others. -/
theorem readAttributes?_space {rest behind : List Char} {entry : String × String}
    (hmore : ¬ ((skipSpace rest).head? = some '>' ∨ (skipSpace rest).head? = some '/'))
    (hentry : readAttribute? (skipSpace rest) = some (entry, behind)) :
    readAttributes? (' ' :: rest) =
      (readAttributes? behind).map fun others => (entry :: others.1, others.2) := by
  rw [readAttributes?, if_neg (by decide), if_neg (by decide), if_pos (by decide), if_neg hmore]
  split
  · next hnone =>
    rw [hentry] at hnone
    cases hnone
  · next found left hfound =>
    rw [hentry] at hfound
    cases hfound
    rfl

/-- The end tag whose name is in front of a text, and what stands behind it. -/
def readClosing? (text : List Char) : Option (Token × List Char) :=
  match skipSpace (behindName text) with
  | '>' :: behind =>
    if nameIn text = [] then none else some (.closing (String.ofList (nameIn text)), behind)
  | _ => none

/-- The tag whose name is in front of a text, and what stands behind it. -/
def readOpening? (text : List Char) : Option (Token × List Char) :=
  if nameIn text = [] then none
  else (readAttributes? (behindName text)).map fun tag =>
    let name := String.ofList (nameIn text)
    (if tag.2.1 then .single name tag.1 else .opening name tag.1, tag.2.2)

/-- The text in front of the next tag, and what stands behind it. -/
def readText? (text : List Char) : Option (Token × List Char) :=
  (decode? (text.takeWhile (· != '<'))).map fun body =>
    (.text (String.ofList body), text.dropWhile (· != '<'))

/-- The tag or text in front of a text, and what stands behind it. -/
def readToken? (text : List Char) : Option (Token × List Char) :=
  match text with
  | [] => none
  | c :: rest =>
    if c = '<' then
      if rest.head? = some '/' then readClosing? rest.tail else readOpening? rest
    else readText? (c :: rest)

/-- What stands behind a tag or text is shorter than what held it. -/
theorem length_of_readToken? {text behind : List Char} {token : Token}
    (h : readToken? text = some (token, behind)) : behind.length < text.length := by
  have hclosing : ∀ {rest : List Char}, readClosing? rest = some (token, behind) →
      behind.length < rest.length := by
    intro rest h
    unfold readClosing? at h
    have hname := length_skipSpace_le (behindName rest)
    have hrest := length_behindName_le rest
    split at h
    · next left hend =>
      split at h
      · cases h
      · cases h
        rw [hend, List.length_cons] at hname
        omega
    · cases h
  have hopening : ∀ {rest : List Char}, readOpening? rest = some (token, behind) →
      behind.length < rest.length := by
    intro rest h
    unfold readOpening? at h
    split at h
    · cases h
    · obtain ⟨tag, htag, heq⟩ := Option.map_eq_some_iff.1 h
      cases heq
      exact Nat.lt_of_lt_of_le (length_of_readAttributes? htag) (length_behindName_le rest)
  unfold readToken? at h
  split at h
  · cases h
  · next c rest =>
    split at h
    · split at h
      · have htail : rest.tail.length ≤ rest.length := List.length_tail ▸ Nat.sub_le _ _
        exact Nat.lt_succ_of_lt (Nat.lt_of_lt_of_le (hclosing h) htail)
      · exact Nat.lt_succ_of_lt (hopening h)
    · next htag =>
      obtain ⟨body, -, heq⟩ := Option.map_eq_some_iff.1 h
      cases heq
      rw [List.dropWhile_cons_of_pos (by simpa using htag)]
      exact Nat.lt_succ_of_le (List.dropWhile_suffix _).length_le

/-- The tags and texts of a text. -/
def tokens? (text : List Char) : Option (List Token) :=
  if text = [] then some []
  else
    match _h : readToken? text with
    | none => none
    | some (token, behind) => (tokens? behind).map (token :: ·)
termination_by text.length
decreasing_by exact length_of_readToken? _h

/-- The tags and texts of a text are the first one and those behind it. -/
theorem tokens?_of_readToken? {text behind : List Char} {token : Token}
    (h : readToken? text = some (token, behind)) :
    tokens? text = (tokens? behind).map (token :: ·) := by
  have hne : text ≠ [] := by
    rintro rfl
    cases h
  rw [tokens?, if_neg hne]
  split
  · next hnone =>
    rw [h] at hnone
    cases hnone
  · next found left hfound =>
    rw [h] at hfound
    cases hfound
    rfl

/-- An element that was opened, with what stands in front of it inside the element around it. -/
structure Level where
  name : String
  attrs : List (String × String)
  before : List Markup

/-- What tags and texts amount to inside open elements, the innermost first, behind the content that
the innermost one has so far.  An end tag has to have the name of the element that it ends. -/
def build? : List Level → List Markup → List Token → Option (List Markup)
  | [], content, [] => some content
  | _ :: _, _, [] => none
  | levels, content, .text body :: rest => build? levels (content ++ [.text body]) rest
  | levels, content, .single name attrs :: rest =>
    build? levels (content ++ [.element name attrs []]) rest
  | levels, content, .opening name attrs :: rest => build? (⟨name, attrs, content⟩ :: levels) [] rest
  | [], _, .closing _ :: _ => none
  | level :: levels, content, .closing name :: rest =>
    if level.name = name then
      build? levels (level.before ++ [.element level.name level.attrs content]) rest
    else none

/-- What stands behind the declaration of a text, which need not have one. -/
def behindDeclaration? (text : List Char) : Option (List Char) :=
  match Text.dropStart? "<?xml ".toList text with
  | none => some text
  | some rest => (Text.splitAtFirst? "?>".toList rest).map Prod.snd

/-- The document that a text is: one element, with a declaration in front of it or not. -/
def read? (text : String) : Option Markup := do
  let body ← behindDeclaration? text.toList
  let tokens ← tokens? body
  match ← build? [] [] tokens with
  | [.element name attrs content] => some (.element name attrs content)
  | _ => none

end XmlWorkload.Markup
