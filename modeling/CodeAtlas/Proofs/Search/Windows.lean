import CodeAtlas.Proofs.Workspace.Runs
import CodeAtlas.Workspace.Queries

/-!
# The lines around a match

A match is shown with lines before and after it.  Those before are kept while the search goes
through the text, last one first, and those after are cut from what remains; both come to the lines
that the row of the match tells (`describe?_eq_some`).

The number of lines asked for is any word, and the end of the lines after a match is computed as
the row after it and so many more.  That number has to be a word as well.  If it is for every match,
the search goes through to the end; and one match for which it is not makes the search break off,
whatever else there is (`inText_windows`).  Whether there are so many lines plays no part, so a
single line can be searched in vain (`inText_breaks_off`), and one such file is enough for a search
of a whole project to come to nothing (`breaksOff_findText_iff`).
-/

namespace CodeAtlas.Search

variable {search : Search} {path : String}

/-! ## What is shown of a row -/

/-- The lines before a row, no more than were asked for. -/
def linesBefore (search : Search) (lines : List (List Char)) (row : Nat) : List (List Char) :=
  (lines.take row).drop (row - search.contextLines)

/-- The lines after a row, no more than were asked for. -/
def linesAfter (search : Search) (lines : List (List Char)) (row : Nat) : List (List Char) :=
  (lines.drop (row + 1)).take search.contextLines

/-- What is to be told of a row, if it has a match. -/
def matchAt (search : Search) (path : String) (lines : List (List Char))
    (place : List Char × Nat) : Option Match :=
  (search.regex.find? place.1).map fun start => {
    path
    line := place.2 + 1
    column := start + 1
    text := clip place.1
    before := (search.linesBefore lines place.2).map clip
    after := (search.linesAfter lines place.2).map clip }

/-- The end of the lines after a row has a number, as far as it is needed. -/
def Numbered (search : Search) (place : List Char × Nat) : Prop :=
  (search.regex.find? place.1).isSome = true → place.2 + 1 + search.contextLines ≤ Number.maxWord

theorem describe?_eq_some {passed : List (List Char)} {start : Nat} {line : List Char}
    {rest : List (List Char)}
    (h : passed.length + 1 + search.contextLines ≤ Number.maxWord) :
    search.describe? path passed passed.length start line rest = some {
      path
      line := passed.length + 1
      column := start + 1
      text := clip line
      before := (search.linesBefore (passed.reverse ++ line :: rest) passed.length).map clip
      after := (search.linesAfter (passed.reverse ++ line :: rest) passed.length).map clip } := by
  have hbefore : search.linesBefore (passed.reverse ++ line :: rest) passed.length =
      (passed.take search.contextLines).reverse := by
    rw [linesBefore, List.take_left' List.length_reverse, List.reverse_take]
  have hafter : search.linesAfter (passed.reverse ++ line :: rest) passed.length =
      rest.take search.contextLines := by
    rw [linesAfter, ← List.drop_drop, List.drop_left' List.length_reverse]
    rfl
  rw [describe?, Number.add?, if_pos h, hbefore, hafter, List.map_reverse]
  simp

theorem describe?_eq_none {passed : List (List Char)} {row start : Nat} {line : List Char}
    {rest : List (List Char)} (h : ¬ row + 1 + search.contextLines ≤ Number.maxWord) :
    search.describe? path passed row start line rest = none := by
  rw [describe?, Number.add?, if_neg h]
  rfl

/-! ## Through the lines -/

section Steps

variable (done : List Match) (passed : List (List Char)) (row : Nat) {line : List Char}
  (rest : List (List Char))

theorem inLinesOnto_of_find?_none (h : search.regex.find? line = none) :
    search.inLinesOnto path done passed row (line :: rest) =
      search.inLinesOnto path done (line :: passed) (row + 1) rest := by
  rw [inLinesOnto, h]

theorem inLinesOnto_of_find?_some {start : Nat} (h : search.regex.find? line = some start) :
    search.inLinesOnto path done passed row (line :: rest) =
      (search.describe? path passed row start line rest).bind fun m =>
        search.inLinesOnto path (m :: done) (line :: passed) (row + 1) rest := by
  rw [inLinesOnto, h]
  cases hm : search.describe? path passed row start line rest <;> simp [hm]

end Steps

theorem inLinesOnto_eq_some (done : List Match) (passed rest : List (List Char))
    (h : ∀ place ∈ rest.zipIdx passed.length, search.Numbered place) :
    search.inLinesOnto path done passed passed.length rest =
      some (done.reverse ++ (rest.zipIdx passed.length).filterMap
        (search.matchAt path (passed.reverse ++ rest))) := by
  induction rest generalizing done passed with
  | nil => simp [inLinesOnto]
  | cons line rest ih =>
    rw [List.zipIdx_cons, List.forall_mem_cons] at h
    have hrest (done' : List Match) := ih done' (line :: passed) h.2
    rw [List.length_cons, List.reverse_cons, List.append_assoc, List.singleton_append] at hrest
    rw [List.zipIdx_cons]
    cases hfind : search.regex.find? line with
    | none =>
      have hnone : search.matchAt path (passed.reverse ++ line :: rest) (line, passed.length) =
          none := by
        rw [matchAt, hfind]
        rfl
      rw [inLinesOnto_of_find?_none _ _ _ _ hfind, List.filterMap_cons_none hnone, hrest]
    | some start =>
      have hnumber := h.1 (by rw [hfind]; rfl)
      have hsome : search.describe? path passed passed.length start line rest = _ :=
        describe?_eq_some hnumber
      have hmatch : search.matchAt path (passed.reverse ++ line :: rest) (line, passed.length) =
          search.describe? path passed passed.length start line rest := by
        rw [matchAt, hfind, hsome]
        rfl
      rw [inLinesOnto_of_find?_some _ _ _ _ hfind, hsome, Option.bind_some, hrest,
        List.filterMap_cons_some (hmatch.trans hsome), List.reverse_cons, List.append_assoc,
        List.singleton_append]

theorem inLinesOnto_eq_none (done : List Match) (passed : List (List Char)) (row : Nat)
    (rest : List (List Char)) (h : ¬ ∀ place ∈ rest.zipIdx row, search.Numbered place) :
    search.inLinesOnto path done passed row rest = none := by
  induction rest generalizing done passed row with
  | nil => exact absurd (fun _ hplace => nomatch hplace) h
  | cons line rest ih =>
    rw [List.zipIdx_cons, List.forall_mem_cons, not_and] at h
    cases hfind : search.regex.find? line with
    | none =>
      rw [inLinesOnto_of_find?_none _ _ _ _ hfind]
      exact ih done (line :: passed) (row + 1) (h fun hsome => by simp [hfind] at hsome)
    | some start =>
      rw [inLinesOnto_of_find?_some _ _ _ _ hfind, Option.bind_eq_none_iff]
      intro m hm
      refine ih (m :: done) (line :: passed) (row + 1) (h fun _ => ?_)
      refine Decidable.byContradiction fun hnumber => ?_
      rw [describe?_eq_none hnumber] at hm
      cases hm

/-! ## Whole texts -/

theorem inText?_eq_some {text : List Char}
    (h : ∀ place ∈ (Text.lines text).zipIdx, search.Numbered place) :
    search.inText? path text =
      some ((Text.lines text).zipIdx.filterMap (search.matchAt path (Text.lines text))) :=
  inLinesOnto_eq_some [] [] (Text.lines text) h

theorem inText?_eq_none {text : List Char}
    (h : ¬ ∀ place ∈ (Text.lines text).zipIdx, search.Numbered place) :
    search.inText? path text = none :=
  inLinesOnto_eq_none [] [] 0 _ h

/-- What a search gives is told of the rows with a match, one after the other. -/
theorem eq_of_inText? {text : List Char} {found : List Match}
    (h : search.inText? path text = some found) :
    found = (Text.lines text).zipIdx.filterMap (search.matchAt path (Text.lines text)) := by
  by_cases hall : ∀ place ∈ (Text.lines text).zipIdx, search.Numbered place
  · rw [inText?_eq_some hall] at h
    exact (Option.some_inj.mp h).symm
  · rw [inText?_eq_none hall] at h
    cases h

/-- What is told of a row is told under its path, with its number and the place of the match. -/
theorem matchAt_eq_some {lines : List (List Char)} {place : List Char × Nat} {m : Match}
    (h : search.matchAt path lines place = some m) :
    m.path = path ∧ m.line = place.2 + 1 ∧
      ∃ start, search.regex.find? place.1 = some start ∧ m.column = start + 1 := by
  obtain ⟨start, hstart, rfl⟩ := Option.map_eq_some_iff.mp h
  exact ⟨rfl, rfl, start, hstart, rfl⟩

theorem path_of_mem_inText? {text : List Char} {found : List Match}
    (h : search.inText? path text = some found) : ∀ m ∈ found, m.path = path := by
  intro m hm
  rw [eq_of_inText? h] at hm
  obtain ⟨place, -, hplace⟩ := List.mem_filterMap.mp hm
  exact (matchAt_eq_some hplace).1

theorem pairwise_line_of_inText? {text : List Char} {found : List Match}
    (h : search.inText? path text = some found) : found.Pairwise fun a b => a.line < b.line := by
  rw [eq_of_inText? h]
  have hrows : (Text.lines text).zipIdx.Pairwise fun a b => a.2 < b.2 := by
    rw [← List.pairwise_map, List.zipIdx_map_snd]
    exact List.pairwise_lt_range'
  refine hrows.filterMap _ fun a b hab m hm n hn => ?_
  rw [(matchAt_eq_some hm).2.1, (matchAt_eq_some hn).2.1]
  exact Nat.succ_lt_succ hab

/-- Where the lines of the text and those asked for add up to a word, a search goes through. -/
theorem isSome_inText?_of_le {text : List Char}
    (h : (Text.lines text).length + search.contextLines ≤ Number.maxWord) :
    (search.inText? path text).isSome = true := by
  refine Option.isSome_iff_exists.mpr ⟨_, inText?_eq_some fun place hplace _ => ?_⟩
  have hrow := List.snd_lt_of_mem_zipIdx hplace
  omega

/-- **A search that goes through shows every match with exactly the lines around it.**  It goes
through if and only if for every row with a match the row after it and the number of lines asked for
add up to a word, and then there is one match for each of these rows, in their order, with the lines
before and after it up to the number asked for. -/
theorem inText_windows (search : Search) (path : String) (text : List Char) :
    ((search.inText? path text).isSome = true ↔
      ∀ place ∈ (Text.lines text).zipIdx, (search.regex.find? place.1).isSome = true →
        place.2 + 1 + search.contextLines ≤ Number.maxWord) ∧
    ∀ found, search.inText? path text = some found →
      found = (Text.lines text).zipIdx.filterMap (search.matchAt path (Text.lines text)) := by
  by_cases h : ∀ place ∈ (Text.lines text).zipIdx, search.Numbered place
  · rw [inText?_eq_some h]
    exact ⟨⟨fun _ => h, fun _ => rfl⟩, fun found hfound => (Option.some_inj.mp hfound).symm⟩
  · rw [inText?_eq_none h]
    refine ⟨⟨fun hsome => ?_, fun hall => absurd hall h⟩, fun _ hfound => nomatch hfound⟩
    cases hsome

/-- The largest word is taken for a number of lines, and then a text of one line that is the pattern
itself cannot be searched. -/
theorem inText_breaks_off :
    ∃ search, Search.of { pattern := "x", contextLines := Number.maxWord } = .ok search ∧
      search.contextLines ≤ Number.maxWord ∧ Text.lines "x\n".toList = [['x']] ∧
      search.inText? "a.txt" "x\n".toList = none :=
  ⟨_, rfl, Nat.le_refl _, rfl, rfl⟩

/-! ## Whole projects -/

/-- One file in which a search breaks off is enough for it to come to nothing. -/
theorem isSome_inFiles?_iff (policy : Policy) (fs : FileSystem) (project : Project)
    (paths : List String) (limit : Nat) :
    (search.inFiles? policy fs project paths limit).isSome = true ↔
      ∀ path ∈ paths, (search.inFile? policy fs project path).isSome = true := by
  have hall : (paths.mapM (search.inFile? policy fs project)).isSome = true ↔
      ∀ path ∈ paths, (search.inFile? policy fs project path).isSome = true := by
    induction paths with
    | nil => simp
    | cons path rest ih =>
      rw [List.mapM_cons, List.forall_mem_cons, ← ih]
      cases search.inFile? policy fs project path <;>
        cases rest.mapM (search.inFile? policy fs project) <;> simp
  rw [← hall, inFiles?]
  cases paths.mapM (search.inFile? policy fs project) <;> rfl

/-- A call breaks off exactly if the search does in one of the files that are listed. -/
theorem breaksOff_findText_iff {around : Surroundings} {w : Workspace} {p : Project} {name : String}
    {options : Options} {pattern : Option String} {listed : List String}
    (hproject : w.projects.get name = .ok p) (hsearch : Search.of options = .ok search)
    (hlisted : w.policy.list around.files p { pattern } = .ok listed) (asked : Option Nat) :
    (Workspace.findText name options pattern asked).breaksOff around w = true ↔
      ∃ path ∈ listed, search.inFile? w.policy around.files p path = none := by
  have hfiles := search.isSome_inFiles?_iff w.policy around.files p listed (w.limit asked)
  have hbreaks : (Workspace.findText name options pattern asked).breaksOff around w =
      (search.inFiles? w.policy around.files p listed (w.limit asked)).isNone := by
    rw [Work.breaksOff]
    cases hfound : search.inFiles? w.policy around.files p listed (w.limit asked) <;>
      simp [Workspace.findText, Work.run_bind, hproject, hsearch, hlisted, hfound]
  rw [hbreaks, Option.isNone_iff_eq_none, ← Option.not_isSome_iff_eq_none, hfiles]
  simp

end CodeAtlas.Search
