import XmlWorkload.Proofs.Pattern.Numbers
import XmlWorkload.Proofs.Pattern.Splitting
import XmlWorkload.Proofs.Random.Digits
import XmlWorkload.Random.ChaCha

/-!
# Placeholders for numbers

The search for numbers cuts a text into pieces: placeholders with a number of digits that can be
read, and what stands between them.  It closes every opening with the first brace behind it and goes
on behind that brace.  So an opening hides every placeholder that starts in front of this brace, and
a placeholder that can be read is a piece exactly if it is not hidden.  Main statement: this holds
of the text that indices and identifiers leave, which is then filled piece by piece
(`Pattern.pieces_of_resolve`).
-/

set_option autoImplicit false

namespace XmlWorkload

namespace Decimal

/-- Every character of a text that is read as digits is a digit. -/
theorem mem_of_readDigitsFrom {base soFar value : Nat} {text : List Char}
    (h : readDigitsFrom base soFar text = some value) : ∀ c ∈ text, (digitInBase? base c).isSome := by
  induction text generalizing soFar with
  | nil => exact List.forall_mem_nil _
  | cons c text ih =>
    obtain ⟨digit, hdigit, hrest⟩ := Option.bind_eq_some_iff.1 h
    exact List.forall_mem_cons.2 ⟨Option.isSome_of_eq_some hdigit, ih hrest⟩

/-- A number that can be read consists of digits, and a plus sign perhaps. -/
theorem mem_of_readUnsigned? {bound value : Nat} {text : List Char}
    (h : readUnsigned? bound text = some value) :
    ∀ c ∈ text, c = '+' ∨ (digitInBase? 10 c).isSome := by
  have hdigits : ∀ {digits}, readDigits? 10 digits = some value →
      ∀ c ∈ digits, (digitInBase? 10 c).isSome := by
    intro digits hread
    rw [readDigits?] at hread
    split at hread
    · cases hread
    · exact mem_of_readDigitsFrom hread
  have hread := (Option.filter_eq_some_iff.1 h).1
  split at hread
  · exact List.forall_mem_cons.2 ⟨.inl rfl, fun c hc => .inr (hdigits hread c hc)⟩
  · exact fun c hc => .inr (hdigits hread c hc)

end Decimal

namespace Pattern

open XmlWorkload.Random

/-- A piece of a text in which numbers are filled in. -/
inductive Piece where
  | kept (text : List Char)
  /-- A placeholder with the text of its number of digits, and the number. -/
  | number (count : List Char) (value : Nat)

/-- The text that a piece is cut from. -/
def Piece.source : Piece → List Char
  | .kept text => text
  | .number count _ => numberMark ++ count ++ ['\x7d']

/-- The text that pieces are cut from. -/
def sourceOf (pieces : List Piece) : List Char := pieces.flatMap Piece.source

/-- The piece that stands between the start of a placeholder and its brace. -/
def closedPiece (count : List Char) : Piece :=
  match Decimal.readUnsigned? Decimal.wordBound count with
  | none => .kept (numberMark ++ count ++ ['\x7d'])
  | some value => .number count value

/-- The pieces of a text. -/
def pieces (text : List Char) : List Piece :=
  match _h : Text.splitAtFirst? numberMark text with
  | none => [.kept text]
  | some (before, opened) =>
    match _hbrace : splitAtBrace? opened with
    | none => [.kept text]
    | some (count, behind) => .kept before :: closedPiece count :: pieces behind
termination_by text.length
decreasing_by
  have h₁ := congrArg List.length (Text.eq_of_splitAtFirst? _h)
  have h₂ := congrArg List.length (Text.eq_of_splitAtFirst? _hbrace)
  simp only [List.length_append, List.length_cons, List.length_nil] at h₁ h₂
  omega

/-- An opening in front of a place hides it: no brace stands between. -/
def Hidden (before : List Char) : Prop :=
  ∃ outer inner, before = outer ++ numberMark ++ inner ∧ '\x7d' ∉ inner

/-- A placeholder whose number of digits can be read stands in a text, behind `before`. -/
structure ReadableAt (text before count : List Char) (value : Nat) : Prop where
  reads : Decimal.readUnsigned? Decimal.wordBound count = some value
  stands : ∃ behind, text = before ++ numberMark ++ count ++ ['\x7d'] ++ behind

/-- A placeholder is one of the pieces, behind `before`. -/
def NumberAt (pieces : List Piece) (before count : List Char) (value : Nat) : Prop :=
  ∃ left right, pieces = left ++ .number count value :: right ∧ sourceOf left = before

section Fill

variable {ρ : Type} [WordSource ρ]

/-- A piece filled in. -/
def Piece.fill : Piece → Draw ρ (List Char)
  | .kept text => pure text
  | .number _ value => digits value

/-- Pieces filled in from the left. -/
def fillPieces : List Piece → Draw ρ (List Char)
  | [] => pure []
  | piece :: pieces => do
    let filled ← piece.fill
    let rest ← fillPieces pieces
    pure (filled ++ rest)

end Fill

/-- The source of no pieces is empty. -/
@[simp]
theorem sourceOf_nil : sourceOf [] = [] := rfl

/-- The source of pieces is that of the first one and that of the rest. -/
@[simp]
theorem sourceOf_cons (piece : Piece) (pieces : List Piece) :
    sourceOf (piece :: pieces) = piece.source ++ sourceOf pieces := List.flatMap_cons

/-- The source of a piece for a closed mark is the mark with its text and its brace. -/
theorem source_closedPiece (count : List Char) :
    (closedPiece count).source = numberMark ++ count ++ ['\x7d'] := by
  unfold closedPiece
  split
  · rfl
  · rfl

/-- The pieces of a text are cut from it, and nothing is lost. -/
theorem sourceOf_pieces (text : List Char) : sourceOf (pieces text) = text := by
  fun_induction pieces text with
  | case1 text hsplit => simp [Piece.source]
  | case2 text before opened hsplit hbrace => simp [Piece.source]
  | case3 text before opened hsplit count behind hbrace ih =>
    rw [sourceOf_cons, sourceOf_cons, source_closedPiece, ih, Text.eq_of_splitAtFirst? hsplit,
      Text.eq_of_splitAtFirst? hbrace]
    simp [Piece.source]

/-- Filling in the numbers of a text is filling in its pieces. -/
theorem fillNumbers_eq_fillPieces {ρ : Type} [WordSource ρ] (text : List Char) :
    (fillNumbers text : Draw ρ (List Char)) = fillPieces (pieces text) := by
  fun_induction pieces text with
  | case1 text hsplit =>
    rw [fillNumbers_of_unmarked hsplit]
    simp [fillPieces, Piece.fill]
  | case2 text before opened hsplit hbrace =>
    rw [fillNumbers_of_unclosed hsplit hbrace]
    simp [fillPieces, Piece.fill]
  | case3 text before opened hsplit count behind hbrace ih =>
    cases hvalue : Decimal.readUnsigned? Decimal.wordBound count with
    | none =>
      rw [fillNumbers_of_kept hsplit hbrace hvalue, ih]
      simp [fillPieces, Piece.fill, closedPiece, hvalue]
    | some value =>
      rw [fillNumbers_of_number hsplit hbrace hvalue, ih]
      simp [fillPieces, Piece.fill, closedPiece, hvalue]

/-! ## What is hidden -/

namespace Hidden

variable {inner : List Char}

/-- What is hidden stays hidden behind anything. -/
theorem append (h : Hidden inner) (outer : List Char) : Hidden (outer ++ inner) := by
  obtain ⟨first, last, rfl, hlast⟩ := h
  exact ⟨outer ++ first, last, by simp only [List.append_assoc], hlast⟩

/-- An opening in front of a brace hides nothing behind it. -/
theorem of_brace {outer : List Char} (h : Hidden (outer ++ ['\x7d'] ++ inner)) : Hidden inner := by
  obtain ⟨first, last, heq, hlast⟩ := h
  rcases Nat.lt_or_ge outer.length first.length with hlt | hge
  · obtain ⟨more, -, hinner⟩ : ∃ more, first = outer ++ ['\x7d'] ++ more ∧
        inner = more ++ (numberMark ++ last) :=
      Text.exists_of_append_eq (by simpa using heq) (by simpa [Nat.succ_le_iff] using hlt)
    exact ⟨more, last, by rw [hinner, List.append_assoc], hlast⟩
  · obtain ⟨more, -, hmark⟩ : ∃ more, outer = first ++ more ∧
        numberMark ++ last = more ++ (['\x7d'] ++ inner) :=
      Text.exists_of_append_eq (by simpa using heq.symm) hge
    have hmem : '\x7d' ∈ numberMark ++ last := by simp [hmark]
    exact absurd hmem (by simpa using ⟨by decide, hlast⟩)

end Hidden

/-- There is no closing brace among digits that can be read. -/
theorem ReadableAt.not_mem {text before count : List Char} {value : Nat}
    (h : ReadableAt text before count value) : '\x7d' ∉ count := by
  intro hmem
  rcases Decimal.mem_of_readUnsigned? h.reads _ hmem with hplus | hdigit
  · exact absurd hplus (by decide)
  · exact absurd hdigit (by decide)

section Next

variable {text before opened count behind left digits : List Char} {value : Nat}

/-- What stands in front of the first brace is all of a text without a brace that one follows. -/
theorem eq_of_splitAtBrace? {right : List Char}
    (h : splitAtBrace? (digits ++ ['\x7d'] ++ right) = some (count, behind))
    (hdigits : '\x7d' ∉ digits) : digits = count := by
  have hle : count.length ≤ digits.length := Text.length_le_of_splitAtFirst? h ⟨right, rfl⟩
  have heq : digits ++ '\x7d' :: right = count ++ '\x7d' :: behind := by
    simpa using Text.eq_of_splitAtFirst? h
  have hge : digits.length ≤ count.length :=
    Nat.le_of_not_lt fun hlt => hdigits (Text.mem_of_append_eq heq hlt)
  exact (List.append_inj heq (Nat.le_antisymm hge hle)).1

/-- No opening starts within another one. -/
theorem length_le_of_openings {rest : List Char}
    (h : before ++ (numberMark ++ opened) = left ++ (numberMark ++ rest))
    (hlt : before.length < left.length) : (before ++ numberMark).length ≤ left.length := by
  obtain ⟨more, rfl, hmore⟩ := Text.exists_of_append_eq h (Nat.le_of_lt hlt)
  cases more with
  | nil => simp at hlt
  | cons c more =>
    have htail : "rand:".toList ++ opened = more ++ numberMark ++ rest := by
      rw [List.append_assoc]
      exact (List.cons.inj hmore).2
    have hpassed : Text.Passed numberMark "rand:".toList := .of_not_mem (by decide) "rand:".toList
    have hle := hpassed _ _ _ htail
    simp only [List.length_append, List.length_cons]
    exact Nat.add_le_add_left (Nat.succ_le_succ hle) _

/-- A placeholder behind an opening that does not hide it stands behind the brace that closes the
opening. -/
theorem ReadableAt.behind_brace (h : ReadableAt text left digits value) (hvisible : ¬Hidden left)
    (hsplit : Text.splitAtFirst? numberMark text = some (before, opened))
    (hbrace : splitAtBrace? opened = some (count, behind)) (hlt : before.length < left.length) :
    ∃ inner, left = before ++ numberMark ++ count ++ ['\x7d'] ++ inner ∧
      ReadableAt behind inner digits value := by
  obtain ⟨right, htext⟩ := h.stands
  have hopenings : before ++ (numberMark ++ opened) =
      left ++ (numberMark ++ (digits ++ ['\x7d'] ++ right)) := by
    rw [← List.append_assoc, ← Text.eq_of_splitAtFirst? hsplit, htext]
    simp only [List.append_assoc]
  obtain ⟨between, rfl, hbetween⟩ : ∃ between, left = before ++ numberMark ++ between ∧
      opened = between ++ (numberMark ++ (digits ++ ['\x7d'] ++ right)) :=
    Text.exists_of_append_eq (by rw [List.append_assoc, hopenings])
      (length_le_of_openings hopenings hlt)
  have hclosed : '\x7d' ∈ between := by
    by_contra hopen
    exact hvisible ⟨before, between, rfl, hopen⟩
  obtain ⟨first, last, rfl⟩ := List.append_of_mem hclosed
  have hle : count.length ≤ first.length :=
    Text.length_le_of_splitAtFirst? hbrace
      ⟨last ++ (numberMark ++ (digits ++ ['\x7d'] ++ right)), by simp [hbetween]⟩
  obtain ⟨inner, hinner, hbehind⟩ : ∃ inner, first ++ '\x7d' :: last = count ++ ['\x7d'] ++ inner ∧
      behind = inner ++ (numberMark ++ (digits ++ ['\x7d'] ++ right)) :=
    Text.exists_of_append_eq (by rw [← Text.eq_of_splitAtFirst? hbrace, hbetween])
      (by simp; omega)
  refine ⟨inner, by rw [hinner]; simp only [List.append_assoc], h.reads, right, ?_⟩
  rw [hbehind]
  simp only [List.append_assoc]

end Next

/-! ## The pieces of a text -/

/-- A number stays a piece behind two more pieces. -/
theorem NumberAt.behind {pieces : List Piece} {left count : List Char} {value : Nat}
    (h : NumberAt pieces left count value) (first second : Piece) :
    NumberAt (first :: second :: pieces) (first.source ++ second.source ++ left) count value := by
  obtain ⟨left, right, rfl, rfl⟩ := h
  exact ⟨first :: second :: left, right, rfl, by simp⟩

/-- A number that can be read stands behind a mark and is closed by a brace. -/
theorem ReadableAt.exists_opened {text left digits : List Char} {value : Nat}
    (h : ReadableAt text left digits value) :
    ∃ right, text = left ++ numberMark ++ (digits ++ ['\x7d'] ++ right) := by
  obtain ⟨right, rfl⟩ := h.stands
  exact ⟨right, by simp only [List.append_assoc]⟩

/-- A placeholder that can be read and is not hidden is one of the pieces. -/
theorem numberAt_of_visible {text left digits : List Char} {value : Nat}
    (h : ReadableAt text left digits value) (hvisible : ¬Hidden left) :
    NumberAt (pieces text) left digits value := by
  obtain ⟨right, htext⟩ := h.exists_opened
  fun_induction pieces text generalizing left right with
  | case1 text hsplit =>
    obtain ⟨before, behind, hsome, -⟩ :=
      Text.exists_splitAtFirst? numberMark left (digits ++ ['\x7d'] ++ right)
    rw [← htext, hsplit] at hsome
    cases hsome
  | case2 text before opened hsplit hbrace =>
    have hle := Text.length_le_of_splitAtFirst? hsplit ⟨_, htext.symm⟩
    obtain ⟨more, -, hopened⟩ : ∃ more, left ++ numberMark ++ digits = before ++ numberMark ++ more ∧
        opened = more ++ (['\x7d'] ++ right) :=
      Text.exists_of_append_eq (by rw [← Text.eq_of_splitAtFirst? hsplit, htext]; simp)
        (by simp only [List.length_append]; omega)
    obtain ⟨count, behind, hsome, -⟩ := Text.exists_splitAtFirst? ['\x7d'] more right
    rw [List.append_assoc, ← hopened] at hsome
    exact absurd (hbrace.symm.trans hsome) nofun
  | case3 text before opened hsplit count behind hbrace ih =>
    -- the search stops at the placeholder, or at an opening in front of it
    rcases Nat.lt_or_eq_of_le (Text.length_le_of_splitAtFirst? hsplit ⟨_, htext.symm⟩)
      with hlt | heq
    · obtain ⟨inner, rfl, hinner⟩ := h.behind_brace hvisible hsplit hbrace hlt
      obtain ⟨right, hbehind⟩ := hinner.exists_opened
      have hnumber := ih hinner (fun hhidden => hvisible (hhidden.append _)) right hbehind
      have hmore := hnumber.behind (.kept before) (closedPiece count)
      rw [source_closedPiece] at hmore
      simpa only [Piece.source, List.append_assoc] using hmore
    · rw [Text.eq_of_splitAtFirst? hsplit, List.append_assoc, List.append_assoc] at htext
      obtain ⟨rfl, hrest⟩ := List.append_inj htext heq
      have hopened : opened = digits ++ ['\x7d'] ++ right := List.append_cancel_left hrest
      obtain rfl : digits = count := eq_of_splitAtBrace? (hopened ▸ hbrace) h.not_mem
      have hclosed : closedPiece digits = .number digits value := by rw [closedPiece, h.reads]
      exact ⟨[.kept before], pieces behind, by rw [hclosed]; rfl, by simp [Piece.source]⟩

/-- No piece that is a placeholder is hidden. -/
theorem visible_of_numberAt {text left digits : List Char} {value : Nat}
    (h : NumberAt (pieces text) left digits value) : ¬Hidden left := by
  obtain ⟨first, last, hpieces, rfl⟩ := h
  fun_induction pieces text generalizing first with
  | case1 text hsplit =>
    have hmem : Piece.number digits value ∈ [Piece.kept text] := by simp [hpieces]
    cases List.mem_singleton.1 hmem
  | case2 text before opened hsplit hbrace =>
    have hmem : Piece.number digits value ∈ [Piece.kept text] := by simp [hpieces]
    cases List.mem_singleton.1 hmem
  | case3 text before opened hsplit count behind hbrace ih =>
    match first with
    | [] => cases hpieces
    | [piece] =>
      obtain rfl : Piece.kept before = piece := (List.cons.inj hpieces).1
      rintro ⟨outer, inner, hbefore, -⟩
      have heq : before = outer ++ numberMark ++ inner := by simpa [Piece.source] using hbefore
      have hle : before.length ≤ outer.length :=
        Text.length_le_of_splitAtFirst? hsplit ⟨inner ++ numberMark ++ opened,
          by rw [Text.eq_of_splitAtFirst? hsplit, heq]; simp only [List.append_assoc]⟩
      have hmark : numberMark.length = 6 := rfl
      rw [heq, List.length_append, List.length_append] at hle
      omega
    | piece :: closed :: first =>
      rw [List.cons_append, List.cons_append, List.cons.injEq, List.cons.injEq] at hpieces
      obtain ⟨rfl, rfl, hrest⟩ := hpieces
      intro hhidden
      rw [sourceOf_cons, sourceOf_cons, source_closedPiece, ← List.append_assoc,
        ← List.append_assoc] at hhidden
      exact ih first hrest hhidden.of_brace

/-- The number of digits of a piece can be read. -/
theorem reads_of_mem_pieces {text digits : List Char} {value : Nat}
    (h : Piece.number digits value ∈ pieces text) :
    Decimal.readUnsigned? Decimal.wordBound digits = some value := by
  fun_induction pieces text with
  | case1 text hsplit => cases List.mem_singleton.1 h
  | case2 text before opened hsplit hbrace => cases List.mem_singleton.1 h
  | case3 text before opened hsplit count behind hbrace ih =>
    rcases List.mem_cons.1 h with hkept | h
    · cases hkept
    rcases List.mem_cons.1 h with hclosed | h
    · unfold closedPiece at hclosed
      split at hclosed
      · cases hclosed
      · next hvalue =>
        cases hclosed
        exact hvalue
    · exact ih h

/-- The placeholders among the pieces are those that can be read and are not hidden. -/
theorem numberAt_pieces_iff {text before count : List Char} {value : Nat} :
    NumberAt (pieces text) before count value ↔
      ReadableAt text before count value ∧ ¬Hidden before := by
  refine ⟨fun h => ⟨?_, visible_of_numberAt h⟩, fun h => numberAt_of_visible h.1 h.2⟩
  obtain ⟨left, right, hpieces, rfl⟩ := h
  have hmem : Piece.number count value ∈ pieces text := by
    rw [hpieces]
    exact List.mem_append_right _ List.mem_cons_self
  refine ⟨reads_of_mem_pieces hmem, sourceOf right, ?_⟩
  have hsource := sourceOf_pieces text
  rw [hpieces] at hsource
  simpa [sourceOf, Piece.source] using hsource.symm

section Resolve

variable {ρ : Type} [WordSource ρ]

/-- A piece can be filled in unless it is a placeholder for more digits than a text can have. -/
theorem Piece.fill_run_eq_none_iff {piece : Piece} {source : ρ} :
    piece.fill.run source = none ↔ ∃ count value, piece = .number count value ∧ textBound < value := by
  cases piece with
  | kept text => exact ⟨nofun, fun ⟨_, _, hpiece, _⟩ => nomatch hpiece⟩
  | number count value =>
    refine digits_run_eq_none_iff.trans ⟨fun hvalue => ⟨count, value, rfl, hvalue⟩, ?_⟩
    rintro ⟨count, value, ⟨⟩, hvalue⟩
    exact hvalue

/-- Pieces can be filled in unless one of them cannot. -/
theorem fillPieces_run_eq_none_iff {pieces : List Piece} {source : ρ} :
    (fillPieces pieces).run source = none ↔
      ∃ before count value, NumberAt pieces before count value ∧ textBound < value := by
  have hmem : (fillPieces pieces).run source = none ↔
      ∃ count value, .number count value ∈ pieces ∧ textBound < value := by
    induction pieces generalizing source with
    | nil => exact ⟨nofun, fun ⟨_, _, hnil, _⟩ => nomatch hnil⟩
    | cons piece pieces ih =>
      rw [fillPieces, run_bind_eq_none_iff]
      constructor
      · intro hnone
        cases hfill : piece.fill.run source with
        | none =>
          obtain ⟨count, value, rfl, hvalue⟩ := Piece.fill_run_eq_none_iff.1 hfill
          exact ⟨count, value, List.mem_cons_self, hvalue⟩
        | some filled =>
          have hrest : (fillPieces pieces).run filled.2 = none := by
            by_contra hsome
            obtain ⟨rest, hrest⟩ := Option.ne_none_iff_exists'.1 hsome
            exact nomatch run_bind_eq_none_iff.1 (hnone filled hfill) rest hrest
          obtain ⟨count, value, hmem, hvalue⟩ := ih.1 hrest
          exact ⟨count, value, List.mem_cons_of_mem _ hmem, hvalue⟩
      · rintro ⟨count, value, hmem, hvalue⟩ filled hfill
        rcases List.mem_cons.1 hmem with rfl | hmem
        · have hnone : (Piece.number count value).fill.run source = none :=
            Piece.fill_run_eq_none_iff.2 ⟨count, value, rfl, hvalue⟩
          cases hnone.symm.trans hfill
        · exact run_bind_eq_none_iff.2 fun rest hrest =>
            nomatch (ih.2 ⟨count, value, hmem, hvalue⟩).symm.trans hrest
  refine hmem.trans ⟨?_, ?_⟩
  · rintro ⟨count, value, hnumber, hvalue⟩
    obtain ⟨left, right, hpieces⟩ := List.append_of_mem hnumber
    exact ⟨sourceOf left, count, value, ⟨left, right, hpieces, rfl⟩, hvalue⟩
  · rintro ⟨before, count, value, ⟨left, right, rfl, -⟩, hvalue⟩
    exact ⟨count, value, List.mem_append_right _ List.mem_cons_self, hvalue⟩

/-- The text that indices and identifiers leave is cut into pieces that are filled in from the left:
a placeholder for a number is one of them exactly if its number of digits can be read and no opening
in front of it hides it.  All else is kept, and digits that are drawn form a number of so many
digits.  There is no text if one of the pieces asks for more digits than a text can have. -/
theorem pieces_of_resolve (pattern : String) (index : Nat) (source : ρ) :
    let identified := (fillIdentifiers (fillIndex index pattern.toList)).run source
    ∃ cut : List Piece, sourceOf cut = identified.1 ∧
      (∀ before count value, NumberAt cut before count value ↔
        ReadableAt identified.1 before count value ∧ ¬Hidden before) ∧
      (resolve pattern index).run source = (String.ofList <$> fillPieces cut).run identified.2 ∧
      ((resolve pattern index).run source = none ↔
        ∃ before count value, NumberAt cut before count value ∧ textBound < value) ∧
      ∀ count (later : ρ) drawn rest, (digits count).run later = some (drawn, rest) →
        IsNumber count drawn := by
  intro identified
  refine ⟨pieces identified.1, sourceOf_pieces _, fun _ _ _ => numberAt_pieces_iff, ?_, ?_,
    fun _ _ _ _ => isNumber_digits⟩
  · rw [← fillNumbers_eq_fillPieces]
    rfl
  · rw [resolve_run_eq_map, Option.map_eq_none_iff, fillNumbers_eq_fillPieces]
    exact fillPieces_run_eq_none_iff

/-- Pieces with a placeholder give as many digits at least as it asks for. -/
theorem le_countP_fillPieces {before : List Char} {count : List Char} {value : Nat}
    {pieces : List Piece} (h : NumberAt pieces before count value) {source : ρ}
    {filled : List Char × ρ} (hrun : (fillPieces pieces).run source = some filled) :
    value ≤ filled.1.countP Char.isDigit := by
  obtain ⟨left, right, rfl, -⟩ := h
  induction left generalizing source filled with
  | nil =>
    obtain ⟨drawn, hdrawn, hrun⟩ := run_bind_eq_some_iff.1 hrun
    obtain ⟨rest, hrest, hrun⟩ := run_bind_eq_some_iff.1 hrun
    cases hrun
    have hnumber : IsNumber value drawn.1 := isNumber_digits hdrawn
    have hall : drawn.1.countP Char.isDigit = value := by
      rw [List.countP_eq_length.2 hnumber.digit, hnumber.length]
    rw [List.countP_append]
    exact Nat.le_trans (Nat.le_of_eq hall.symm) (Nat.le_add_right _ _)
  | cons piece left ih =>
    obtain ⟨drawn, hdrawn, hrun⟩ := run_bind_eq_some_iff.1 hrun
    obtain ⟨rest, hrest, hrun⟩ := run_bind_eq_some_iff.1 hrun
    cases hrun
    rw [List.countP_append]
    exact Nat.le_trans (ih hrest) (Nat.le_add_left _ _)

end Resolve

/-- An opening without a brace hides the placeholder behind it, which is then not filled in. -/
theorem not_pieces_of_resolve :
    ¬ ∀ (pattern : String) (index : Nat) (source : ChaCha),
      let identified := (fillIdentifiers (fillIndex index pattern.toList)).run source
      ∃ cut : List Piece, sourceOf cut = identified.1 ∧
        (∀ before count value, NumberAt cut before count value ↔
          ReadableAt identified.1 before count value) ∧
        (resolve pattern index).run source = (String.ofList <$> fillPieces cut).run identified.2 := by
  intro hall
  let text := "\x7brand:x \x7brand:3\x7d".toList
  obtain ⟨cut, -, hnumbers, hresolve⟩ := hall "\x7brand:x \x7brand:3\x7d" 0 (cycleStream 42 0)
  have hsplit : Text.splitAtFirst? numberMark text = some ([], "x \x7brand:3\x7d".toList) := rfl
  have hbrace : splitAtBrace? "x \x7brand:3\x7d".toList = some ("x \x7brand:3".toList, []) := rfl
  have hkept : (fillNumbers text : Draw ChaCha (List Char)) = pure text := by
    rw [fillNumbers_of_kept hsplit hbrace rfl, fillNumbers_of_unmarked rfl]
    rfl
  have hrun : (String.ofList <$> fillNumbers text).run (cycleStream 42 0) =
      (String.ofList <$> fillPieces cut).run (cycleStream 42 0) := hresolve
  rw [hkept, StateT.run_map, StateT.run_map, StateT.run_pure] at hrun
  obtain ⟨filled, hfilled, heq⟩ := Option.map_eq_some_iff.1 hrun.symm
  have htext : filled.1 = text := String.ofList_injective (congrArg Prod.fst heq)
  have hnumber : NumberAt cut "\x7brand:x ".toList ['3'] 3 := (hnumbers _ _ _).2 ⟨rfl, [], rfl⟩
  have hdrawn : 3 ≤ filled.1.countP Char.isDigit := le_countP_fillPieces hnumber hfilled
  rw [htext] at hdrawn
  exact absurd hdrawn (by decide)

end Pattern

end XmlWorkload
