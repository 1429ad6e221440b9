import XmlWorkload.Proofs.Disk.Place

/-!
# Ways to places

The names of a path tell the place that it leads to, if it leads anywhere.  On the way to a place
that something is listed at there are directories only, and a path that leads up nowhere passes no
other places.  Main statements: the directories above a path are those of its first names
(`Path.names_of_mem_ancestors`), and a way without steps up exists wherever the places on it are
directories (`Disk.walk_of_directories`).
-/

set_option autoImplicit false

namespace XmlWorkload

namespace Path

/-- A piece between slashes has no slash. -/
theorem noSlash_of_mem_splitOn {chars piece : List Char} (h : piece ∈ chars.splitOn '/') :
    '/' ∉ piece := by
  -- at a slash the text falls into two shorter ones
  induction hlength : chars.length using Nat.strongRecOn generalizing chars with
  | ind count ih =>
    by_cases hslash : '/' ∈ chars
    · obtain ⟨front, back, hsplit⟩ := List.append_of_mem hslash
      have hchars := congrArg List.length hsplit
      rw [List.length_append, List.length_cons] at hchars
      rw [hsplit, List.splitOn_append_cons_self, List.mem_append] at h
      rcases h with h | h
      · exact ih front.length (by omega) h rfl
      · exact ih back.length (by omega) h rfl
    · rw [List.splitOn_eq_singleton hslash] at h
      rw [List.mem_singleton.1 h]
      exact hslash

/-- A piece of a path has no slash. -/
theorem noSlash_of_mem_pieces {path piece : String} (h : piece ∈ pieces path) :
    '/' ∉ piece.toList := by
  obtain ⟨chars, hchars, rfl⟩ := List.mem_map.1 h
  rw [String.toList_ofList]
  exact noSlash_of_mem_splitOn hchars

/-- A text of pieces with slashes between them has these pieces. -/
theorem pieces_intercalate {parts : List String} (hne : parts ≠ [])
    (hparts : ∀ part ∈ parts, '/' ∉ part.toList) :
    pieces (String.intercalate "/" parts) = parts := by
  have hslash : "/".toList = ['/'] := rfl
  unfold pieces
  rw [String.toList_intercalate, hslash, List.splitOn_intercalate, List.map_map]
  · simp [Function.comp_def]
  · intro chars hchars
    obtain ⟨part, hpart, rfl⟩ := List.mem_map.1 hchars
    exact hparts part hpart
  · simpa using hne

/-- A path that is not empty starts at the root exactly if its first piece is empty. -/
theorem isAbsolute_iff {path first : String} {rest : List String} (hne : path ≠ "")
    (hpieces : pieces path = first :: rest) : isAbsolute path = true ↔ first = "" := by
  have hchars : path.toList ≠ [] := fun hnil => hne (String.toList_eq_nil_iff.1 hnil)
  obtain ⟨c, chars, hpath⟩ := List.exists_cons_of_ne_nil hchars
  unfold isAbsolute
  unfold pieces at hpieces
  rw [hpath, List.splitOn_cons_eq_if_modifyHead] at hpieces
  rw [hpath, List.head?_cons, beq_iff_eq, Option.some_inj]
  split at hpieces
  · next hslash =>
    rw [List.map_cons, List.cons.injEq] at hpieces
    exact iff_of_true (beq_iff_eq.1 hslash) hpieces.1.symm
  · next hslash =>
    obtain ⟨piece, others, hothers⟩ := List.exists_cons_of_ne_nil (List.splitOn_ne_nil '/' chars)
    rw [hothers, List.modifyHead_cons, List.map_cons, List.cons.injEq] at hpieces
    refine iff_of_false (fun heq => hslash (beq_iff_eq.2 heq)) ?_
    rw [← hpieces.1]
    simp

/-- The names of a path that count are pieces of it.  Behind the front none is empty or a single
dot, and at the front of a path that does not start at the root there is no empty one either. -/
theorem names_eq {path : String} (hne : path ≠ "") :
    ∃ front behind, names path = front ++ behind ∧
      (∀ name ∈ front ++ behind, '/' ∉ name.toList) ∧
      (∀ name ∈ behind, name ≠ "" ∧ name ≠ ".") ∧
      if isAbsolute path = true then front = [] else ∃ first, front = [first] ∧ first ≠ "" := by
  cases hpieces : pieces path with
  | nil => exact absurd (List.map_eq_nil_iff.1 hpieces) (List.splitOn_ne_nil _ _)
  | cons first rest =>
    have hslash : ∀ name ∈ first :: rest, '/' ∉ name.toList := by
      rw [← hpieces]
      exact fun name => noSlash_of_mem_pieces
    have habsolute := isAbsolute_iff hne hpieces
    let behind := rest.filter fun piece => piece != "" && piece != "."
    have hbehind : ∀ name ∈ behind, name ∈ rest ∧ name ≠ "" ∧ name ≠ "." := by
      intro name hname
      simpa using List.mem_filter.1 hname
    unfold names
    rw [hpieces]
    by_cases hfirst : first = ""
    · refine ⟨[], behind, if_pos hfirst, ?_, fun name hname => (hbehind name hname).2, ?_⟩
      · exact fun name hname => hslash name (.tail _ (hbehind name hname).1)
      · rw [if_pos (habsolute.2 hfirst)]
    · refine ⟨[first], behind, if_neg hfirst, ?_, fun name hname => (hbehind name hname).2, ?_⟩
      · intro name hname
        rcases List.mem_cons.1 hname with rfl | hname
        · exact hslash _ (.head _)
        · exact hslash name (.tail _ (hbehind name hname).1)
      · rw [if_neg fun hroot => hfirst (habsolute.1 hroot)]
        exact ⟨first, rfl, hfirst⟩

/-- The names of a path whose other pieces are names are these pieces, without an empty first one.
-/
theorem names_of_pieces {path first : String} {kept : List String}
    (hpieces : pieces path = first :: kept) (hkept : ∀ name ∈ kept, name ≠ "" ∧ name ≠ ".") :
    names path = if first = "" then kept else first :: kept := by
  have hall : kept.filter (fun piece => piece != "" && piece != ".") = kept := by
    rw [List.filter_eq_self]
    intro name hname
    simpa using hkept name hname
  unfold names
  rw [hpieces]
  simp only [hall]

/-- The names of a directory above a path are the first ones of the path. -/
theorem names_above {path : String} {count : Nat} (hne : path ≠ "")
    (hsome : (names path).take count ≠ []) :
    let above := (if isAbsolute path then "/" else "") ++
      String.intercalate "/" ((names path).take count)
    names above = (names path).take count ∧ isAbsolute above = isAbsolute path := by
  intro above
  obtain ⟨front, behind, hsplit, hslash, hbehind, hfront⟩ := names_eq hne
  have hparts : ∀ part ∈ (names path).take count, '/' ∉ part.toList := by
    intro part hpart
    apply hslash
    rw [← hsplit]
    exact List.mem_of_mem_take hpart
  cases hroot : isAbsolute path with
  | true =>
    rw [if_pos hroot] at hfront
    rw [hfront, List.nil_append] at hsplit
    -- the slash at the front is an empty piece before the names
    have habove : above = String.intercalate "/" ("" :: (names path).take count) := by
      rw [String.intercalate_cons_of_ne_nil hsome]
      simp [above, hroot]
    have hpieces : pieces above = "" :: (names path).take count := by
      rw [habove]
      apply pieces_intercalate (List.cons_ne_nil _ _)
      intro part hpart
      rcases List.mem_cons.1 hpart with rfl | hpart
      · exact List.not_mem_nil
      · exact hparts part hpart
    have hne' : above ≠ "" := by
      intro hempty
      rw [hempty] at hpieces
      exact hsome (List.cons.inj hpieces).2.symm
    refine ⟨?_, (isAbsolute_iff hne' hpieces).2 rfl⟩
    rw [names_of_pieces hpieces, if_pos rfl]
    intro name hname
    rw [hsplit] at hname
    exact hbehind name (List.mem_of_mem_take hname)
  | false =>
    rw [if_neg (by simp [hroot])] at hfront
    obtain ⟨first, rfl, hfirst⟩ := hfront
    -- the first name is among those that are kept, so it is the first piece
    obtain ⟨less, rfl⟩ : ∃ less, count = less + 1 := by
      refine Nat.exists_eq_succ_of_ne_zero ?_
      rintro rfl
      exact hsome List.take_zero
    rw [List.singleton_append] at hsplit
    rw [hsplit, List.take_succ_cons] at hparts hsome ⊢
    have habove : above = String.intercalate "/" (first :: behind.take less) := by
      simp [above, hroot, hsplit]
    have hpieces : pieces above = first :: behind.take less := by
      rw [habove]
      exact pieces_intercalate (List.cons_ne_nil _ _) hparts
    have hne' : above ≠ "" := by
      intro hempty
      rw [hempty] at hpieces
      exact hfirst (List.cons.inj hpieces).1.symm
    refine ⟨?_, ?_⟩
    · rw [names_of_pieces hpieces fun name hname => hbehind name (List.mem_of_mem_take hname),
        if_neg hfirst]
    · rw [Bool.eq_false_iff]
      exact fun habsolute => hfirst ((isAbsolute_iff hne' hpieces).1 habsolute)

/-- The directories above a path, and the path itself, have the first names of the path. -/
theorem names_of_mem_ancestors {path part : String} (hne : path ≠ "")
    (hpart : part ∈ Disk.ancestors path) :
    (∃ count, names part = (names path).take count) ∧ isAbsolute part = isAbsolute path := by
  rcases List.mem_append.1 hpart with habove | hself
  · obtain ⟨count, hcount, rfl⟩ := List.mem_map.1 habove
    rw [List.mem_range] at hcount
    have hsome : (names path).take (count + 1) ≠ [] := by
      rw [← List.length_pos_iff, List.length_take]
      omega
    obtain ⟨hnames, habsolute⟩ := names_above hne hsome
    exact ⟨⟨_, hnames⟩, habsolute⟩
  · rw [List.mem_singleton.1 hself]
    exact ⟨⟨_, List.take_length.symm⟩, rfl⟩

end Path

namespace Disk

/-- The place that names lead to from another one, if they lead anywhere. -/
def reach : Location → List String → Location
  | location, [] => location
  | location, name :: rest =>
    if name = "." then reach location rest
    else if name = ".." then reach location.dropLast rest
    else reach (location ++ [name]) rest

/-- Names that go on behind others go on from the place that those reach. -/
theorem reach_append (location : Location) (first second : List String) :
    reach location (first ++ second) = reach (reach location first) second := by
  induction location, first using reach.induct with
  | case1 location => rfl
  | case2 location rest ih =>
    rw [List.cons_append, reach, if_pos rfl, reach, if_pos rfl, ih]
  | case3 location rest hdot ih =>
    rw [List.cons_append, reach, if_neg hdot, if_pos rfl, reach, if_neg hdot, if_pos rfl, ih]
  | case4 location name rest hdot hdots ih =>
    rw [List.cons_append, reach, if_neg hdot, if_neg hdots, reach, if_neg hdot, if_neg hdots, ih]

/-- Where a walk arrives is told by the names alone. -/
theorem eq_reach_of_walk {disk : Disk} {location reached : Location} {names : List String}
    (h : disk.walk location names = .ok reached) : reached = reach location names := by
  induction names generalizing location with
  | nil =>
    cases h
    rfl
  | cons name rest ih =>
    rw [walk] at h
    split at h
    · split at h
      · cases h
      · rw [reach]
        split at h
        · next hdot =>
          rw [if_pos hdot]
          exact ih h
        · next hdot =>
          rw [if_neg hdot]
          split at h
          · next hdots =>
            rw [if_pos hdots]
            exact ih h
          · next hdots =>
            rw [if_neg hdots]
            exact ih h
    · cases h
    · cases h

/-- Without steps up a way leads down. -/
theorem prefix_reach {names : List String} (h : ".." ∉ names) (location : Location) :
    location <+: reach location names := by
  induction names generalizing location with
  | nil => exact List.prefix_rfl
  | cons name rest ih =>
    obtain ⟨hname, hrest⟩ := not_or.1 (mt List.mem_cons.2 h)
    rw [reach]
    split
    · exact ih hrest location
    · rw [if_neg (Ne.symm hname)]
      exact (List.prefix_append _ _).trans (ih hrest _)

/-- Without a step up the first names of a path reach a place above the one that all of them reach.
-/
theorem reach_take_prefix {names : List String} (h : ".." ∉ names) (location : Location)
    (count : Nat) : reach location (names.take count) <+: reach location names := by
  have hrest : ".." ∉ names.drop count := fun hmem => h (List.mem_of_mem_drop hmem)
  have hsplit : reach location names =
      reach (reach location (names.take count)) (names.drop count) := by
    rw [← reach_append, List.take_append_drop]
  rw [hsplit]
  exact prefix_reach hrest _

/-- A walk without steps up that one disk allows is allowed by every disk that has directories in all
places on the way. -/
theorem walk_of_directories {disk other : Disk} {location reached : Location} {names : List String}
    (hnames : ".." ∉ names) (hwalk : other.walk location names = .ok reached)
    (hall : ∀ front, front <+: reached → disk.entry? front = some .directory) :
    disk.walk location names = .ok reached := by
  induction names generalizing location with
  | nil => exact hwalk
  | cons name rest ih =>
    obtain ⟨hname, hrest⟩ := not_or.1 (mt List.mem_cons.2 hnames)
    have hhere : disk.entry? location = some .directory := by
      apply hall
      rw [eq_reach_of_walk hwalk]
      exact prefix_reach hnames location
    rw [walk] at hwalk ⊢
    rw [hhere]
    split at hwalk
    · split at hwalk
      · cases hwalk
      · next hfits =>
        rw [if_neg hfits]
        split at hwalk
        · next hdot =>
          rw [if_pos hdot]
          exact ih hrest hwalk
        · next hdot =>
          rw [if_neg hdot, if_neg (Ne.symm hname)]
          rw [if_neg (Ne.symm hname)] at hwalk
          exact ih hrest hwalk
    · cases hwalk
    · cases hwalk

end Disk

end XmlWorkload
