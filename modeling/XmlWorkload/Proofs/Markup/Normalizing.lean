import XmlWorkload.Proofs.Markup.Reading
import XmlWorkload.Proofs.Sink.Writing

/-!
# Line ends and blanks on reading

Before a processor of XML 1.0 expands references it turns every end of a line into a line feed, and
in the value of an attribute every tab and line feed into a space.  A stream writes these characters
as they stand, without a reference that would keep them.  Main statement: what a processor reads
from what a stream writes for a text or a value is the text with its line ends turned, and the value
with its blanks turned; so a text comes back as it was exactly if it has no carriage return, and a
value exactly if it has no tab, line feed or carriage return
(`XmlStream.normalized_of_accepted`).
-/

set_option autoImplicit false

namespace XmlWorkload

namespace Markup

open CharacterData

/-- A text with a line feed for each end of a line: a carriage return, alone or with a line feed
behind it. -/
def normalizeLines : List Char → List Char
  | '\r' :: '\n' :: rest => '\n' :: normalizeLines rest
  | '\r' :: rest => '\n' :: normalizeLines rest
  | c :: rest => c :: normalizeLines rest
  | [] => []

/-- A tab, line feed or carriage return, as one that is no space of its own. -/
def isBreak (c : Char) : Bool := c == '\t' || c == '\n' || c == '\r'

/-- A text with a space for each tab, line feed and carriage return. -/
def normalizeBlanks (text : List Char) : List Char :=
  text.map fun c => if isBreak c then ' ' else c

/-- What a processor reads from the characters of a text. -/
def textRead? (written : List Char) : Option (List Char) := decode? (normalizeLines written)

/-- What a processor reads from the characters of the value of an attribute. -/
def valueRead? (written : List Char) : Option (List Char) :=
  decode? (normalizeBlanks (normalizeLines written))

section Lines

variable {c : Char} {rest text : List Char}

/-- Normalizing lines keeps a character that is no carriage return. -/
theorem normalizeLines_cons_of_ne (h : c ≠ '\r') (rest : List Char) :
    normalizeLines (c :: rest) = c :: normalizeLines rest := by
  rw [normalizeLines]
  · rintro rest' rfl -
    exact h rfl
  · exact h

/-- A carriage return that no line feed follows becomes a line feed. -/
theorem normalizeLines_return (h : rest.head? ≠ some '\n') :
    normalizeLines ('\r' :: rest) = '\n' :: normalizeLines rest := by
  rw [normalizeLines]
  rintro behind rfl
  exact h rfl

/-- Only a carriage return is turned, so what comes before the first one stays. -/
theorem normalizeLines_append (h : '\r' ∉ text) (rest : List Char) :
    normalizeLines (text ++ rest) = text ++ normalizeLines rest := by
  induction text with
  | nil => rfl
  | cons c text ih =>
    obtain ⟨hc, htext⟩ := not_or.1 (mt List.mem_cons.2 h)
    rw [List.cons_append, normalizeLines_cons_of_ne (Ne.symm hc), ih htext, List.cons_append]

/-- Every character of a text with its line ends turned is one of the text or a line feed, and none
is a carriage return. -/
theorem of_mem_normalizeLines (h : c ∈ normalizeLines text) : (c ∈ text ∨ c = '\n') ∧ c ≠ '\r' := by
  induction text using normalizeLines.induct with
  | case1 rest ih =>
    rw [normalizeLines] at h
    rcases List.mem_cons.1 h with rfl | h
    · exact ⟨.inr rfl, by decide⟩
    · exact ⟨(ih h).1.imp_left fun hmem => .tail _ (.tail _ hmem), (ih h).2⟩
  | case2 rest hnot ih =>
    rw [normalizeLines.eq_2 rest hnot] at h
    rcases List.mem_cons.1 h with rfl | h
    · exact ⟨.inr rfl, by decide⟩
    · exact ⟨(ih h).1.imp_left (.tail _), (ih h).2⟩
  | case3 first rest _ hne ih =>
    rw [normalizeLines_cons_of_ne hne] at h
    rcases List.mem_cons.1 h with rfl | h
    · exact ⟨.inl (.head _), hne⟩
    · exact ⟨(ih h).1.imp_left (.tail _), (ih h).2⟩
  | case4 => cases h

/-- Normalizing lines keeps a text exactly when it has no carriage return. -/
theorem normalizeLines_eq_self_iff : normalizeLines text = text ↔ '\r' ∉ text := by
  constructor
  · intro heq hmem
    rw [← heq] at hmem
    exact (of_mem_normalizeLines hmem).2 rfl
  · intro hnot
    have hall := normalizeLines_append hnot []
    rwa [List.append_nil, normalizeLines, List.append_nil] at hall

end Lines

section Blanks

variable {c : Char} {text : List Char}

/-- No line break is left in a value with normalized blanks. -/
theorem not_isBreak_of_mem_normalizeBlanks (h : c ∈ normalizeBlanks text) : isBreak c = false := by
  obtain ⟨source, -, rfl⟩ := List.mem_map.1 h
  cases hsource : isBreak source with
  | true => rfl
  | false => exact hsource

/-- Normalizing blanks keeps a text without line breaks and tabs. -/
theorem normalizeBlanks_of_forall (h : ∀ c ∈ text, isBreak c = false) :
    normalizeBlanks text = text := by
  unfold normalizeBlanks
  rw [List.map_congr_left (g := id), List.map_id]
  intro c hc
  rw [h c hc]
  rfl

/-- A value with its blanks turned is the same only if it has none to turn. -/
theorem normalized_eq_self_iff :
    normalizeBlanks (normalizeLines text) = text ↔ ∀ c ∈ text, isBreak c = false := by
  constructor
  · intro heq c hc
    rw [← heq] at hc
    exact not_isBreak_of_mem_normalizeBlanks hc
  · intro hall
    have hreturn : '\r' ∉ text := fun hmem => absurd (hall _ hmem) (by decide)
    rw [normalizeLines_eq_self_iff.2 hreturn, normalizeBlanks_of_forall hall]

end Blanks

section Escaping

variable {c : Char} {text : List Char}

/-- References have no blanks, so that a blank in the written form of a character is that
character. -/
theorem eq_of_isBreak {blank : Char} (h : blank ∈ escapedChar c) (hblank : isBreak blank = true) :
    blank = c := by
  have hreference : ∀ reference : List Char, reference.any isBreak = false →
      blank ∉ reference := by
    intro reference hnone hmem
    exact absurd hblank (List.any_eq_false.1 hnone blank hmem)
  unfold escapedChar at h
  split at h
  -- what is not escaped stands for itself
  case h_6 => exact List.mem_singleton.1 h
  all_goals exact absurd h (hreference _ (by decide))

/-- A line break or tab is written as it is. -/
theorem escapedChar_of_isBreak (h : isBreak c = true) : escapedChar c = [c] := by
  simp only [isBreak, Bool.or_eq_true, beq_iff_eq] at h
  rcases h with (rfl | rfl) | rfl <;> rfl

/-- Every character is written as something. -/
theorem escapedChar_ne_nil (c : Char) : escapedChar c ≠ [] := by
  unfold escapedChar
  split <;> simp

/-- Escaping does not bring a line feed to the front. -/
theorem head?_escaped (h : text.head? ≠ some '\n') :
    (text.flatMap escapedChar).head? ≠ some '\n' := by
  cases text with
  | nil => exact h
  | cons c rest =>
    intro hhead
    obtain ⟨first, others, hform⟩ := List.exists_cons_of_ne_nil (escapedChar_ne_nil c)
    rw [List.flatMap_cons, hform, List.cons_append, List.head?_cons, Option.some_inj] at hhead
    have hfirst : '\n' ∈ escapedChar c := by
      rw [hform, hhead]
      exact .head _
    exact h (congrArg some (eq_of_isBreak hfirst rfl).symm)

/-- Escaping and turning line ends do not meet. -/
theorem normalizeLines_escaped (text : List Char) :
    normalizeLines (text.flatMap escapedChar) = (normalizeLines text).flatMap escapedChar := by
  induction text using normalizeLines.induct with
  | case1 rest ih =>
    show normalizeLines ('\r' :: '\n' :: rest.flatMap escapedChar) = _
    rw [normalizeLines, normalizeLines, ih]
    rfl
  | case2 rest hnot ih =>
    have hhead : rest.head? ≠ some '\n' := by
      intro hhead
      obtain ⟨behind, rfl⟩ := List.head?_eq_some_iff.1 hhead
      exact hnot behind rfl
    show normalizeLines ('\r' :: rest.flatMap escapedChar) = _
    rw [normalizeLines_return (head?_escaped hhead), normalizeLines_return hhead, ih]
    rfl
  | case3 c rest _ hne ih =>
    have hplain : '\r' ∉ escapedChar c := fun hmem => hne (eq_of_isBreak hmem rfl).symm
    rw [List.flatMap_cons, normalizeLines_append hplain, normalizeLines_cons_of_ne hne,
      List.flatMap_cons, ih]
  | case4 => rfl

/-- Neither do escaping and turning blanks. -/
theorem normalizeBlanks_escaped (text : List Char) :
    normalizeBlanks (text.flatMap escapedChar) = (normalizeBlanks text).flatMap escapedChar := by
  unfold normalizeBlanks
  rw [List.map_flatMap, List.flatMap_map]
  congr 1
  funext c
  cases hc : isBreak c with
  | true =>
    rw [escapedChar_of_isBreak hc, List.map_singleton, hc]
    rfl
  | false =>
    apply normalizeBlanks_of_forall
    intro other hother
    rw [Bool.eq_false_iff]
    intro hbreak
    rw [← eq_of_isBreak hother hbreak, hbreak] at hc
    cases hc

/-- Escaped characters are decoded to what they were. -/
theorem decode?_flatMap (h : ∀ c ∈ text, isAllowed c = true) :
    decode? (text.flatMap escapedChar) = some text := by
  have hcarries : Carries (String.ofList text) := by
    intro c hc
    rw [String.toList_ofList] at hc
    exact h c hc
  have hdecode := decode?_escaped hcarries
  rwa [escaped, String.toList_ofList, String.toList_ofList] at hdecode

/-- Normalizing lines brings in no character that is not allowed. -/
theorem isAllowed_of_mem_normalizeLines (h : ∀ c ∈ text, isAllowed c = true) :
    ∀ c ∈ normalizeLines text, isAllowed c = true := by
  intro c hc
  rcases (of_mem_normalizeLines hc).1 with hmem | rfl
  · exact h c hmem
  · rfl

/-- A text is read back as it was, with normalized lines. -/
theorem textRead?_escaped {text : String} (h : Carries text) :
    textRead? (escaped text).toList = some (normalizeLines text.toList) := by
  rw [textRead?, escaped, String.toList_ofList, normalizeLines_escaped,
    decode?_flatMap (isAllowed_of_mem_normalizeLines h)]

/-- A value is read back as it was, with normalized lines and blanks. -/
theorem valueRead?_escaped {value : String} (h : Carries value) :
    valueRead? (escaped value).toList = some (normalizeBlanks (normalizeLines value.toList)) := by
  rw [valueRead?, escaped, String.toList_ofList, normalizeLines_escaped, normalizeBlanks_escaped]
  apply decode?_flatMap
  intro c hc
  obtain ⟨source, hsource, rfl⟩ := List.mem_map.1 hc
  split
  · rfl
  · exact isAllowed_of_mem_normalizeLines h source hsource

end Escaping

end Markup

namespace XmlStream

open Markup

variable {ω : Type} [Output ω] (reliable : Output.Reliable ω) {stream : XmlStream ω} {frame : Frame}
  {outer : List Frame}

/-- A text for the innermost element is written behind the start tag that was held back. -/
theorem writeText_taken (hholds : reliable.holds stream.output)
    (hframes : stream.frames = frame :: outer) {text : String}
    (htext : CharacterData.Carries text) :
    ∃ later, (writeText frame.element text).run stream = (.ok (), later) ∧
      reliable.taken later.output = reliable.taken stream.output ++
        ((if text = "" then "" else stream.heldText) ++ CharacterData.escaped text).toUTF8 := by
  have hframe : stream.innermostFrame .writeText frame.element = .ok frame := by
    rw [innermostFrame, hframes]
    exact if_pos rfl
  unfold writeText
  rw [Action.run_getState_bind, Action.run_ofExcept_bind_of_ok hframe]
  by_cases hempty : text = ""
  · refine ⟨stream, by rw [if_pos hempty]; rfl, ?_⟩
    rw [if_pos hempty, hempty]
    exact ByteArray.append_empty.symm
  · obtain ⟨output, hheld, hholds', htaken⟩ := writeHeldTag_taken stream hholds
    obtain ⟨output', hemit, -, htaken'⟩ :=
      emit_ok { stream with output, heldTag := none } [CharacterData.escaped text] hholds'
    refine ⟨{ stream with output := output', heldTag := none }, ?_, ?_⟩
    · rw [if_neg hempty,
        Action.run_ofExcept_bind_of_ok (CharacterData.check_of_carries htext _),
        Action.run_bind_of_ok hheld]
      exact hemit
    · rw [if_neg hempty, Text.toUTF8_append, ← ByteArray.append_assoc, ← htaken, htaken']
      simp

omit [Output ω] in
/-- A value of the innermost element is put behind the attributes of the start tag that is held
back. -/
theorem setAttribute_held (hframes : stream.frames = frame :: outer) {tag : StartTag}
    (hheld : stream.heldTag = some tag) {name value : String} (hname : Name.validate name = .ok ())
    (hvalue : CharacterData.Carries value) :
    ∃ later, (setAttribute frame.element name value).run stream = (.ok (), later) ∧
      later.heldText = "<" ++ tag.render ++ " " ++ name ++ "=\"" ++ CharacterData.escaped value ++
        "\">" := by
  have hframe : stream.innermostFrame .setAttribute frame.element = .ok frame := by
    rw [innermostFrame, hframes]
    exact if_pos rfl
  let later : XmlStream ω :=
    { stream with heldTag := some { tag with attrs := tag.attrs ++ [(name, value)] } }
  refine ⟨later, ?_, ?_⟩
  · unfold setAttribute
    rw [Action.run_getState_bind, Action.run_ofExcept_bind_of_ok hframe,
      Action.run_ofExcept_bind_of_ok hname,
      Action.run_ofExcept_bind_of_ok (CharacterData.check_of_carries hvalue _), hheld]
    rfl
  · simp [later, heldText, startPieces, StartTag.render, StartTag.renderAttribute,
      String.join_cons, String.append_assoc]

/-- Let a text and a value be ones that pass the check of what a document can carry.  The innermost
element of a stream on an output that takes everything takes the text, and it is written so that a
processor reads it with its line ends turned: unchanged exactly if it has no carriage return.  As
long as the start tag is held back the element takes the value too, under any name, and it is put
into the start tag so that a processor reads it with its blanks turned: unchanged exactly if it has
no tab, line feed or carriage return. -/
theorem normalized_of_accepted (hholds : reliable.holds stream.output)
    (hframes : stream.frames = frame :: outer) :
    (∀ field text : String, CharacterData.check field text = .ok () →
      ∃ (later : XmlStream ω) (written : String),
        (writeText frame.element text).run stream = (.ok (), later) ∧
        reliable.taken later.output = reliable.taken stream.output ++
          ((if text = "" then "" else stream.heldText) ++ written).toUTF8 ∧
        textRead? written.toList = some (normalizeLines text.toList) ∧
        (textRead? written.toList = some text.toList ↔ '\r' ∉ text.toList)) ∧
    ∀ (tag : StartTag) (field name value : String), stream.heldTag = some tag →
      Name.validate name = .ok () → CharacterData.check field value = .ok () →
      ∃ (later : XmlStream ω) (written : String),
        (setAttribute frame.element name value).run stream = (.ok (), later) ∧
        later.heldText = "<" ++ tag.render ++ " " ++ name ++ "=\"" ++ written ++ "\">" ∧
        valueRead? written.toList = some (normalizeBlanks (normalizeLines value.toList)) ∧
        (valueRead? written.toList = some value.toList ↔
          ∀ c ∈ value.toList, isBreak c = false) := by
  constructor
  · intro field text hcheck
    have htext : CharacterData.Carries text := (CharacterData.check_eq_ok_iff field text).1 hcheck
    have hread := textRead?_escaped htext
    obtain ⟨later, hrun, htaken⟩ := writeText_taken reliable hholds hframes htext
    refine ⟨later, _, hrun, htaken, hread, ?_⟩
    rw [hread, Option.some_inj, normalizeLines_eq_self_iff]
  · intro tag field name value hheld hname hcheck
    have hvalue : CharacterData.Carries value :=
      (CharacterData.check_eq_ok_iff field value).1 hcheck
    have hread := valueRead?_escaped hvalue
    obtain ⟨later, hrun, htext⟩ := setAttribute_held hframes hheld hname hvalue
    refine ⟨later, _, hrun, htext, hread, ?_⟩
    rw [hread, Option.some_inj, normalized_eq_self_iff]

/-- A text with a line feed goes through a new stream unchanged. -/
theorem normalized_of_accepted_small :
    Memory.reliable.holds Memory.unlimited ∧
      (start Memory.unlimited "r").frames = ⟨0, "r"⟩ :: [] ∧
      CharacterData.check "r" "a\nb" = .ok () ∧
      ∃ (later : XmlStream Memory) (written : String),
        (writeText 0 "a\nb").run (start Memory.unlimited "r") = (.ok (), later) ∧
        textRead? written.toList = some "a\nb".toList := by
  have hholds : Memory.reliable.holds Memory.unlimited := ⟨rfl, rfl⟩
  have hframes : (start Memory.unlimited "r").frames = ⟨0, "r"⟩ :: [] := rfl
  have hcheck : CharacterData.check "r" "a\nb" = .ok () := by rfl
  obtain ⟨later, written, hrun, -, -, hsame⟩ :=
    (normalized_of_accepted Memory.reliable hholds hframes).1 "r" "a\nb" hcheck
  exact ⟨hholds, hframes, hcheck, later, written, hrun, hsame.2 (by decide)⟩

/-- Not every text and not every value that is accepted comes back unchanged.  A new stream takes a
carriage return as its text and a tab as the value of an attribute and writes them as they stand, and
a processor reads something else. -/
theorem not_unchanged :
    (CharacterData.check "r" "\r" = .ok () ∧ ∃ later : XmlStream Memory,
      (writeText 0 "\r").run (start Memory.unlimited "r") = (.ok (), later) ∧
      Memory.reliable.taken later.output =
        Memory.reliable.taken (start Memory.unlimited "r").output ++ ("<r>" ++ "\r").toUTF8 ∧
      textRead? "\r".toList ≠ some "\r".toList) ∧
    CharacterData.check "r@a" "\t" = .ok () ∧ ∃ later : XmlStream Memory,
      (setAttribute 0 "a" "\t").run (start Memory.unlimited "r") = (.ok (), later) ∧
      later.heldText = "<r a=\"" ++ "\t" ++ "\">" ∧ valueRead? "\t".toList ≠ some "\t".toList := by
  have hholds : Memory.reliable.holds Memory.unlimited := ⟨rfl, rfl⟩
  have hframes : (start Memory.unlimited "r").frames = ⟨0, "r"⟩ :: [] := rfl
  have htext : CharacterData.check "r" "\r" = .ok () := by rfl
  have hvalue : CharacterData.check "r@a" "\t" = .ok () := by rfl
  have hreturn := (CharacterData.check_eq_ok_iff "r" "\r").1 htext
  have htab := (CharacterData.check_eq_ok_iff "r@a" "\t").1 hvalue
  refine ⟨⟨htext, ?_⟩, hvalue, ?_⟩
  · obtain ⟨later, hrun, htaken⟩ := writeText_taken Memory.reliable hholds hframes hreturn
    have hread := textRead?_escaped hreturn
    have hwritten : CharacterData.escaped "\r" = "\r" := by rfl
    rw [hwritten] at htaken hread
    refine ⟨later, hrun, htaken, ?_⟩
    rw [hread]
    decide
  · have hname : Name.validate "a" = .ok () := by rfl
    obtain ⟨later, hrun, hheld⟩ := setAttribute_held hframes rfl hname htab
    have hread := valueRead?_escaped htab
    have hwritten : CharacterData.escaped "\t" = "\t" := by rfl
    rw [hwritten] at hheld hread
    refine ⟨later, hrun, hheld, ?_⟩
    rw [hread]
    decide

end XmlStream

end XmlWorkload
