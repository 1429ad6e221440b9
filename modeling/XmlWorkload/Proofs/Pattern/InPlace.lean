import XmlWorkload.Proofs.Pattern.Numbers
import XmlWorkload.Proofs.Pattern.Offsets
import XmlWorkload.Proofs.Pattern.OnePass
import XmlWorkload.Proofs.Pattern.Plain
import XmlWorkload.Random.ChaCha

/-!
# Filling a pattern in place

A pattern can also be filled by rewriting it in place: one loop looks for an identifier from the
front again after each draw, and another for the numbers from an offset in bytes that moves along
with the text.  Main statement: the loops end, with every cut at a boundary, and leave the text of
one pass; or they are stopped where that pass comes to a number that no text can have
(`Pattern.rewrites_iff_onePass`).
-/

set_option autoImplicit false

namespace XmlWorkload

open XmlWorkload.Random

/-! ## Loops -/

/-- What a round of a loop comes to. -/
inductive Round (σ : Type) where
  /-- The loop is left in the state that the round found. -/
  | ended
  /-- The loop goes on. -/
  | again (state : σ)
  /-- A cut was out of range or within a character. -/
  | fault

/-- How a loop ends: its rounds follow each other, without a fault, until one is the last, or until
a round comes to nothing. -/
inductive Loops {ρ σ : Type} (round : σ → Draw ρ (Round σ)) : σ → ρ → Option (σ × ρ) → Prop where
  | ended {state : σ} {source rest : ρ} (h : (round state).run source = some (.ended, rest)) :
      Loops round state source (some (state, rest))
  | stopped {state : σ} {source : ρ} (h : (round state).run source = none) :
      Loops round state source none
  | again {state next : σ} {source later : ρ} {outcome : Option (σ × ρ)}
      (h : (round state).run source = some (.again next, later))
      (hnext : Loops round next later outcome) : Loops round state source outcome

/-- A loop ends in one way at most. -/
theorem Loops.unique {ρ σ : Type} {round : σ → Draw ρ (Round σ)} {state : σ} {source : ρ}
    {first second : Option (σ × ρ)} (hfirst : Loops round state source first)
    (hsecond : Loops round state source second) : first = second := by
  induction hfirst with
  | ended h =>
    cases hsecond with
    | ended h' =>
      cases h.symm.trans h'
      rfl
    | stopped h' => cases h.symm.trans h'
    | again h' => cases h.symm.trans h'
  | stopped h =>
    cases hsecond with
    | ended h' => cases h.symm.trans h'
    | stopped => rfl
    | again h' => cases h.symm.trans h'
  | again h _ ih =>
    cases hsecond with
    | ended h' => cases h.symm.trans h'
    | stopped h' => cases h.symm.trans h'
    | again h' hnext =>
      cases h.symm.trans h'
      exact ih hnext

/-- A text with the first occurrence of a mark replaced. -/
def Text.replaceFirst (mark replacement text : List Char) : List Char :=
  match splitAtFirst? mark text with
  | none => text
  | some (before, behind) => before ++ replacement ++ behind

namespace Pattern

variable {ρ : Type} [WordSource ρ]

/-- A round of the loop over the identifiers: the first one of the whole text is replaced. -/
def identifierRound (text : List Char) : Draw ρ (Round (List Char)) :=
  if (Text.find? identifierMark text).isSome then do
    let drawn ← always identifier
    pure (.again (Text.replaceFirst identifierMark drawn text))
  else pure .ended

/-- What the loop over the numbers finds behind an offset. -/
inductive Found where
  | missing
  /-- A placeholder that stays, and the offset behind it. -/
  | kept (next : Nat)
  /-- A placeholder at an offset, its number of digits, and the text on either side. -/
  | number (start count : Nat) (left right : List Char)

/-- The first placeholder for a number behind an offset; nothing if a cut fails. -/
def findNumber? (text : List Char) (searchFrom : Nat) : Option Found := do
  let suffix ← Text.dropTo? searchFrom text
  match Text.find? numberMark suffix with
  | none => pure .missing
  | some offset =>
    let start := searchFrom + offset
    let opened ← Text.dropTo? start text
    match Text.find? ['\x7d'] opened with
    | none => pure .missing
    | some length =>
      let stop := start + length
      let count ← Text.slice? (start + 6) stop text
      match Decimal.readUnsigned? Decimal.wordBound count with
      | none => pure (.kept (stop + 1))
      | some count =>
        let left ← Text.takeTo? start text
        let right ← Text.dropTo? (stop + 1) text
        pure (.number start count left right)

/-- A round of the loop over the numbers, which is at an offset of a text. -/
def numberRound : List Char × Nat → Draw ρ (Round (List Char × Nat))
  | (text, searchFrom) =>
    match findNumber? text searchFrom with
    | none => pure .fault
    | some .missing => pure .ended
    | some (.kept next) => pure (.again (text, next))
    | some (.number start count left right) => do
      let drawn ← digits count
      pure (.again (left ++ drawn ++ right, start + Text.byteLength drawn))

/-- How the rewriting of a pattern in place ends: with a text and a source behind the words that
were drawn, or with none when the loop over the numbers is stopped. -/
inductive Rewrites (pattern : List Char) (index : Nat) (source : ρ) :
    Option (List Char × ρ) → Prop where
  | plain (hplain : '\x7b' ∉ pattern) : Rewrites pattern index source (some (pattern, source))
  | filled {text : List Char} {later : ρ} {outcome : Option ((List Char × Nat) × ρ)}
      (hopen : '\x7b' ∈ pattern)
      (hidentifiers : Loops identifierRound (fillIndex index pattern) source (some (text, later)))
      (hnumbers : Loops numberRound (text, 0) later outcome) :
      Rewrites pattern index source (outcome.map (Prod.map Prod.fst id))

/-- A round for identifiers ends where no mark is left. -/
theorem identifierRound_of_none {text : List Char}
    (h : Text.splitAtFirst? identifierMark text = none) (source : ρ) :
    (identifierRound text).run source = some (.ended, source) := by
  simp only [identifierRound, Text.find?, h]
  rfl

/-- A round for identifiers replaces the first mark by the identifier that is drawn next. -/
theorem identifierRound_of_some {text before behind : List Char}
    (h : Text.splitAtFirst? identifierMark text = some (before, behind)) (source : ρ) :
    (identifierRound text).run source =
      some (.again (before ++ (identifier.run source).1 ++ behind), (identifier.run source).2) := by
  simp only [identifierRound, Text.find?, Text.replaceFirst, h]
  rfl

/-- The loop over the identifiers, behind what it has passed. -/
theorem loops_identifiers {done : List Char} (text : List Char) (number : Nat) (source : ρ)
    (hdone : Text.Passed identifierMark done) :
    Loops identifierRound (done ++ text) (behindWords source (16 * number))
      (some (done ++ (fillEach identifierMark (identifierAt source) number text).1,
        behindWords source (16 * (fillEach identifierMark (identifierAt source) number text).2))) := by
  -- the text of the loop is what it has passed, in which it finds nothing again, and what is left
  fun_induction fillEach identifierMark (identifierAt source) number text generalizing done with
  | case1 number text hmark => cases hmark
  | case2 number text hmark hsplit =>
    exact .ended (identifierRound_of_none (by rw [hdone.splitAtFirst?, hsplit]; rfl) _)
  | case3 number text hmark before behind hsplit ih =>
    have hround := identifierRound_of_some
      (by rw [hdone.splitAtFirst?, hsplit]; rfl) (behindWords source (16 * number))
    rw [identifier_run] at hround
    have hrest := ih (passed_identifier hdone hsplit source number)
    apply Loops.again hround
    simpa only [List.append_assoc, Prod.map_fst, Prod.map_snd, id] using hrest

/-- The brace is searched for from the opening on, which has none of its own. -/
theorem find?_brace (opened : List Char) :
    Text.find? ['\x7d'] (numberMark ++ opened) =
      (splitAtBrace? opened).map fun parts => Text.byteLength (numberMark ++ parts.1) := by
  have hpassed : Text.Passed ['\x7d'] numberMark := .of_not_mem (by decide) []
  rw [Text.find?, hpassed.splitAtFirst?, Option.map_map]
  rfl

section Find

variable (done : List Char) {text before opened count behind : List Char}

/-- No number is found behind an offset where no mark is left. -/
theorem findNumber?_of_unmarked (hsplit : Text.splitAtFirst? numberMark text = none) :
    findNumber? (done ++ text) (Text.byteLength done) = some .missing := by
  rw [findNumber?, Text.dropTo?_append, Option.bind_eq_bind, Option.bind_some, Text.find?, hsplit]
  rfl

/-- No number is found behind an offset where no brace closes the first mark. -/
theorem findNumber?_of_unclosed (hsplit : Text.splitAtFirst? numberMark text = some (before, opened))
    (hbrace : splitAtBrace? opened = none) :
    findNumber? (done ++ text) (Text.byteLength done) = some .missing := by
  have htext : done ++ text = done ++ before ++ (numberMark ++ opened) := by
    rw [Text.eq_of_splitAtFirst? hsplit]
    simp only [List.append_assoc]
  rw [findNumber?, Text.dropTo?_append, Option.bind_eq_bind, Option.bind_some, Text.find?, hsplit]
  dsimp only [Option.map_some]
  rw [← Text.byteLength_append, htext, Text.dropTo?_append, Option.bind_some, find?_brace, hbrace]
  rfl

/-- The number of digits, and what stands on either side, is cut out at boundaries. -/
theorem findNumber?_of_closed (hsplit : Text.splitAtFirst? numberMark text = some (before, opened))
    (hbrace : splitAtBrace? opened = some (count, behind)) :
    findNumber? (done ++ text) (Text.byteLength done) =
      match Decimal.readUnsigned? Decimal.wordBound count with
      | none => some (.kept (Text.byteLength (done ++ before ++ numberMark ++ count ++ ['\x7d'])))
      | some value =>
        some (.number (Text.byteLength (done ++ before)) value (done ++ before) behind) := by
  have htext : done ++ text = done ++ before ++ (numberMark ++ opened) := by
    rw [Text.eq_of_splitAtFirst? hsplit]
    simp only [List.append_assoc]
  have hmark : Text.byteLength numberMark = 6 := by decide
  have hstop : Text.byteLength (done ++ before) + Text.byteLength (numberMark ++ count) =
      Text.byteLength (done ++ before ++ numberMark ++ count) := by
    rw [← Text.byteLength_append]
    simp only [List.append_assoc]
  have hnext : Text.byteLength (done ++ before ++ numberMark ++ count) + 1 =
      Text.byteLength (done ++ before ++ numberMark ++ count ++ ['\x7d']) := by
    rw [Text.byteLength_append _ ['\x7d']]
    rfl
  have hslice := Text.slice?_append (done ++ before ++ numberMark) count (['\x7d'] ++ behind)
  have hdrop := Text.dropTo?_append (done ++ before ++ numberMark ++ count ++ ['\x7d']) behind
  rw [Text.byteLength_append _ numberMark, hmark] at hslice
  rw [findNumber?, Text.dropTo?_append, Option.bind_eq_bind, Option.bind_some, Text.find?, hsplit]
  dsimp only [Option.map_some]
  rw [← Text.byteLength_append, htext, Text.dropTo?_append, Option.bind_some, find?_brace, hbrace]
  dsimp only [Option.map_some]
  rw [Text.eq_of_splitAtFirst? hbrace, Text.takeTo?_append]
  simp only [List.append_assoc] at hstop hnext hslice hdrop ⊢
  rw [hstop, hnext, hslice, hdrop]
  rfl

end Find

/-- The loop over the numbers ends, behind what it has passed, as the pass over what is left does. -/
theorem loops_numbers (done text : List Char) (source : ρ) :
    ∃ outcome, Loops numberRound (done ++ text, Text.byteLength done) source outcome ∧
      outcome.map (Prod.map Prod.fst id) =
        ((fillNumbers text).run source).map (Prod.map (done ++ ·) id) := by
  -- here nothing has to be known of what was passed: its length in bytes is the offset
  induction text using fillNumbers.induct (ρ := ρ) generalizing done source with
  | case1 text hsplit =>
    rw [fillNumbers_of_unmarked hsplit]
    exact ⟨_, .ended (by rw [numberRound, findNumber?_of_unmarked done hsplit]; rfl), rfl⟩
  | case2 text before opened hsplit hbrace =>
    rw [fillNumbers_of_unclosed hsplit hbrace]
    exact ⟨_, .ended (by rw [numberRound, findNumber?_of_unclosed done hsplit hbrace]; rfl), rfl⟩
  | case3 text before opened hsplit count behind hbrace value hvalue ih =>
    rw [fillNumbers_of_number hsplit hbrace hvalue, StateT.run_bind]
    cases hdrawn : (digits value : Draw ρ (List Char)).run source with
    | none =>
      have hround : (numberRound (done ++ text, Text.byteLength done)).run source = none := by
        rw [numberRound, findNumber?_of_closed done hsplit hbrace, hvalue]
        exact run_bind_eq_none_iff.2 fun drawn h => nomatch hdrawn.symm.trans h
      exact ⟨none, .stopped hround, rfl⟩
    | some drawn =>
      have hround : (numberRound (done ++ text, Text.byteLength done)).run source =
          some (.again (done ++ before ++ drawn.1 ++ behind,
            Text.byteLength (done ++ before ++ drawn.1)), drawn.2) := by
        rw [numberRound, findNumber?_of_closed done hsplit hbrace, hvalue,
          Text.byteLength_append _ drawn.1]
        exact run_bind_eq_some_iff.2 ⟨drawn, hdrawn, rfl⟩
      obtain ⟨outcome, hloops, houtcome⟩ := ih (done ++ before ++ drawn.1) drawn.2
      refine ⟨outcome, .again hround hloops, houtcome.trans ?_⟩
      rw [Option.bind_eq_bind, Option.bind_some, StateT.run_bind]
      cases (fillNumbers behind : Draw ρ (List Char)).run drawn.2 with
      | none => rfl
      | some rest => simp [Prod.map]
  | case4 text before opened hsplit count behind hbrace hvalue ih =>
    have hround : (numberRound (done ++ text, Text.byteLength done)).run source =
        some (.again (done ++ text,
          Text.byteLength (done ++ before ++ numberMark ++ count ++ ['\x7d'])), source) := by
      rw [numberRound, findNumber?_of_closed done hsplit hbrace, hvalue]
      rfl
    have htext : done ++ text = done ++ before ++ numberMark ++ count ++ ['\x7d'] ++ behind := by
      rw [Text.eq_of_splitAtFirst? hsplit, Text.eq_of_splitAtFirst? hbrace]
      simp only [List.append_assoc]
    obtain ⟨outcome, hloops, houtcome⟩ :=
      ih (done ++ before ++ numberMark ++ count ++ ['\x7d']) source
    rw [← htext] at hloops
    refine ⟨outcome, .again hround hloops, houtcome.trans ?_⟩
    rw [fillNumbers_of_kept hsplit hbrace hvalue, StateT.run_bind]
    cases (fillNumbers behind : Draw ρ (List Char)).run source with
    | none => rfl
    | some rest => simp [Prod.map]

/-- The rewriting of a pattern in place ends, as one pass over the pattern does. -/
theorem rewrites_onePass (pattern : String) (index : Nat) (source : ρ) :
    Rewrites pattern.toList index source (onePass pattern.toList index source) := by
  by_cases hopen : '\x7b' ∈ pattern.toList
  · have hidentifiers := loops_identifiers (fillIndex index pattern.toList) 0 source
      (.nil identifierMark)
    obtain ⟨outcome, hnumbers, houtcome⟩ := loops_numbers []
      (fillEach identifierMark (identifierAt source) 0 (fillIndex index pattern.toList)).1
      (behindWords source
        (16 * (fillEach identifierMark (identifierAt source) 0 (fillIndex index pattern.toList)).2))
    have hpass : outcome.map (Prod.map Prod.fst id) = onePass pattern.toList index source := by
      rw [houtcome, onePass, ← Text.replaceAll_eq_fillEach]
      exact congrFun Option.map_id _
    rw [← hpass]
    exact .filled hopen hidentifiers hnumbers
  · have hrun := resolve_run pattern index source
    rw [resolve_of_plain hopen] at hrun
    obtain ⟨⟨filled, rest⟩, hpass, hfilled⟩ := Option.map_eq_some_iff.1 hrun.symm
    obtain ⟨htext, rfl⟩ := Prod.mk.inj hfilled
    have hplain : filled = pattern.toList := by rw [← htext, String.toList_ofList]
    rw [hpass, hplain]
    exact .plain hopen

/-- The rewriting of a pattern ends in one way at most. -/
theorem Rewrites.unique {pattern : List Char} {index : Nat} {source : ρ}
    {first second : Option (List Char × ρ)} (hfirst : Rewrites pattern index source first)
    (hsecond : Rewrites pattern index source second) : first = second := by
  cases hfirst with
  | plain hplain =>
    cases hsecond with
    | plain => rfl
    | filled hopen => exact absurd hopen hplain
  | filled hopen hidentifiers hnumbers =>
    cases hsecond with
    | plain hplain => exact absurd hopen hplain
    | filled _ hidentifiers' hnumbers' =>
      cases hidentifiers.unique hidentifiers'
      rw [hnumbers.unique hnumbers']

/-- The rewriting of a pattern in place ends for every pattern, index and source, and comes to the
same as filling it in one pass, which is what the pattern gives.  It comes to nothing only where a
number is to have more digits than a text can have.  Every identifier put in is the version-four
identifier of its group of words, and every number has so many digits and no leading zero, drawn by
the loop in machine words. -/
theorem rewrites_iff_onePass (pattern : String) (index : Nat) (source : ρ) :
    (∀ outcome, Rewrites pattern.toList index source outcome ↔
      outcome = onePass pattern.toList index source) ∧
    (resolve pattern index).run source =
      (onePass pattern.toList index source).map (Prod.map String.ofList id) ∧
    (∀ number, IsVersionFour (identifierAt source number)) ∧
    ∀ count, (digits count : Draw ρ (List Char)) = wordDigits count ∧
      ∀ later : ρ, ((digits count).run later = none ↔ textBound < count) ∧
        ∀ drawn rest, (digits count).run later = some (drawn, rest) → IsNumber count drawn := by
  refine ⟨fun outcome => ⟨fun hrewrites => ?_, ?_⟩, resolve_run pattern index source,
    isVersionFour_identifierAt source, fun count => ⟨(wordDigits_eq count).symm, fun later =>
      ⟨digits_run_eq_none_iff, fun drawn rest hdrawn => isNumber_digits hdrawn⟩⟩⟩
  · exact hrewrites.unique (rewrites_onePass pattern index source)
  · rintro rfl
    exact rewrites_onePass pattern index source

/-- A number that is to have one digit more than a text can have leaves a pattern without a text. -/
theorem not_rewrites_some :
    ¬ ∀ (pattern : String) (index : Nat) (source : ChaCha),
      ∃ result rest, Rewrites pattern.toList index source (some (result, rest)) := by
  intro hall
  let text := "\x7brand:9223372036854775808\x7d".toList
  have hsplit : Text.splitAtFirst? numberMark text =
      some ([], "9223372036854775808\x7d".toList) := rfl
  have hbrace : splitAtBrace? "9223372036854775808\x7d".toList =
      some ("9223372036854775808".toList, []) := rfl
  have hnone : (digits 9223372036854775808 : Draw ChaCha (List Char)).run (cycleStream 42 0) =
      none := digits_run_eq_none_iff.2 (by decide)
  have hnumbers : (fillNumbers text).run (cycleStream 42 0) = none := by
    rw [fillNumbers_of_number hsplit hbrace rfl]
    exact run_bind_eq_none_iff.2 fun drawn h => nomatch hnone.symm.trans h
  have hresolve : (resolve "\x7brand:9223372036854775808\x7d" 0).run (cycleStream 42 0) = none :=
    (resolve_run_eq_map _ _ _).trans (Option.map_eq_none_iff.2 hnumbers)
  have hpass : onePass text 0 (cycleStream 42 0) = none :=
    Option.map_eq_none_iff.1 ((resolve_run _ _ _).symm.trans hresolve)
  obtain ⟨result, rest, hrewrites⟩ :=
    hall "\x7brand:9223372036854775808\x7d" 0 (cycleStream 42 0)
  cases hpass.symm.trans ((rewrites_onePass _ _ _).unique hrewrites)

end Pattern

end XmlWorkload
