import CodeAtlas.Proofs.Files.Listing
import CodeAtlas.Proofs.Search.Windows
import Mathlib.Data.Prod.Lex
import Mathlib.Data.String.Basic

/-!
# The order in which files are searched

The files of a project may be searched in any order.  What is found in them is sorted by path and
line, and no two matches agree in both, since a path is searched once and a line is told once
(`pairwise_key_inFile`).  So one list has all matches of all files, strictly in the order of paths
and lines, and whatever order the files come in, a search gives the beginning of that list
(`inFiles?_any_order`).

A search that breaks off in one of the files comes to nothing.  The matches in the other files are
lost with it (`matches_lost_beside`).
-/

namespace CodeAtlas.Search

variable {search : Search} {policy : Policy} {fs : FileSystem} {project : Project}
  {path : String} {paths : List String}

/-! ## The order of matches -/

/-- An earlier path, or an earlier line under the same path. -/
def Match.Before (a b : Match) : Prop :=
  a.path < b.path ∨ a.path = b.path ∧ a.line < b.line

/-- What matches are sorted by. -/
def Match.key (m : Match) : String ×ₗ Nat :=
  toLex (m.path, m.line)

theorem Match.before_iff {a b : Match} : a.Before b ↔ a.key < b.key := by
  rw [Before, key, key, Prod.Lex.toLex_lt_toLex]

theorem Match.noLater_iff {a b : Match} : a.noLater b = true ↔ a.key ≤ b.key := by
  rw [noLater, key, key, Prod.Lex.toLex_le_toLex]
  by_cases h : a.path = b.path
  · simp [h]
  · simp [h]

theorem Match.noLater_trans (a b c : Match) (hab : a.noLater b = true) (hbc : b.noLater c = true) :
    a.noLater c = true :=
  noLater_iff.mpr ((noLater_iff.mp hab).trans (noLater_iff.mp hbc))

theorem Match.noLater_total (a b : Match) : (a.noLater b || b.noLater a) = true := by
  rw [Bool.or_eq_true, noLater_iff, noLater_iff]
  exact le_total a.key b.key

/-- Where no two matches have one key, sorting is strict. -/
theorem Match.pairwise_before_mergeSort {found : List Match}
    (h : found.Pairwise fun a b => a.key ≠ b.key) :
    (found.mergeSort noLater).Pairwise Before := by
  have hsorted := List.pairwise_mergeSort noLater_trans noLater_total found
  have hdistinct := h.perm (List.mergeSort_perm found noLater).symm fun hab => hab.symm
  refine (hsorted.and hdistinct).imp fun hab => ?_
  exact before_iff.mpr (lt_of_le_of_ne (noLater_iff.mp hab.1) hab.2)

/-- There is one strict order of some matches. -/
theorem Match.eq_of_pairwise_before {found found' : List Match} (h : found.Perm found')
    (hfound : found.Pairwise Before) (hfound' : found'.Pairwise Before) : found = found' := by
  refine h.eq_of_pairwise (fun a b _ _ hab hba => ?_) hfound hfound'
  exact absurd (before_iff.mp hba) (before_iff.mp hab).asymm

/-! ## Single files -/

/-- The file of a path is there to be searched: the path resolves, the file is read, and it does not
look binary. -/
structure Searched (policy : Policy) (fs : FileSystem) (project : Project) (path : String)
    (octets : List UInt8) : Prop where
  read : ∃ place, policy.resolve fs project path = .ok place ∧
    policy.readBytes fs place = .ok octets
  text : 0 ∉ octets.take 8192

theorem inFile?_of_searched {octets : List UInt8}
    (h : Searched policy fs project path octets) :
    search.inFile? policy fs project path =
      search.inText? path (Text.Utf8.decodeLossy octets) := by
  obtain ⟨place, hplace, hoctets⟩ := h.read
  have hread : (policy.resolve fs project path >>= policy.readBytes fs) = .ok octets := by
    rw [hplace]
    exact hoctets
  have hbinary : looksBinary octets = false := by
    simpa [looksBinary, sniffed] using h.text
  simp [inFile?, hread, hbinary]

theorem inFile?_of_not_searched (h : ∀ octets, ¬ Searched policy fs project path octets) :
    search.inFile? policy fs project path = some [] := by
  rw [inFile?]
  cases hplace : policy.resolve fs project path with
  | error => rfl
  | ok place =>
    cases hread : policy.readBytes fs place with
    | error => simp [bind, Except.bind, hread]
    | ok octets =>
      have hbinary : looksBinary octets = true := by
        simpa [looksBinary, sniffed] using
          mt (Searched.mk ⟨place, hplace, hread⟩) (h octets)
      simp [bind, Except.bind, hread, hbinary]

/-- What is found in a file is found in its text. -/
theorem inFile?_eq_some_iff {m : Match} :
    (∃ found, search.inFile? policy fs project path = some found ∧ m ∈ found) ↔
      ∃ octets found, Searched policy fs project path octets ∧
        search.inText? path (Text.Utf8.decodeLossy octets) = some found ∧ m ∈ found := by
  constructor
  · rintro ⟨found, hfound, hm⟩
    by_cases h : ∃ octets, Searched policy fs project path octets
    · obtain ⟨octets, hoctets⟩ := h
      exact ⟨octets, found, hoctets, (inFile?_of_searched hoctets).symm.trans hfound, hm⟩
    · rw [inFile?_of_not_searched (not_exists.mp h), Option.some_inj] at hfound
      simp [← hfound] at hm
  · rintro ⟨octets, found, hoctets, hfound, hm⟩
    exact ⟨found, (inFile?_of_searched hoctets).trans hfound, hm⟩

theorem inFile?_eq_none_iff :
    search.inFile? policy fs project path = none ↔
      ∃ octets, Searched policy fs project path octets ∧
        search.inText? path (Text.Utf8.decodeLossy octets) = none := by
  constructor
  · intro hnone
    by_cases h : ∃ octets, Searched policy fs project path octets
    · obtain ⟨octets, hoctets⟩ := h
      exact ⟨octets, hoctets, (inFile?_of_searched hoctets).symm.trans hnone⟩
    · rw [inFile?_of_not_searched (not_exists.mp h)] at hnone
      cases hnone
  · rintro ⟨octets, hoctets, hnone⟩
    exact (inFile?_of_searched hoctets).trans hnone

/-- The matches of one file have its path and are told in the order of their lines. -/
theorem of_inFile? {found : List Match}
    (h : search.inFile? policy fs project path = some found) :
    (∀ m ∈ found, m.path = path) ∧ found.Pairwise fun a b => a.line < b.line := by
  by_cases hsearched : ∃ octets, Searched policy fs project path octets
  · obtain ⟨octets, hoctets⟩ := hsearched
    rw [inFile?_of_searched hoctets] at h
    exact ⟨path_of_mem_inText? h, pairwise_line_of_inText? h⟩
  · rw [inFile?_of_not_searched (not_exists.mp hsearched), Option.some_inj] at h
    simp [← h]

/-! ## All files -/

/-- What a search comes to in a file: the matches, or nothing if it breaks off. -/
def inFile (search : Search) (policy : Policy) (fs : FileSystem) (project : Project)
    (path : String) : List Match :=
  (search.inFile? policy fs project path).getD []

theorem mapM_inFile? (h : ∀ path ∈ paths, (search.inFile? policy fs project path).isSome = true) :
    paths.mapM (search.inFile? policy fs project) =
      some (paths.map (search.inFile policy fs project)) := by
  induction paths with
  | nil => rfl
  | cons path rest ih =>
    rw [List.forall_mem_cons] at h
    obtain ⟨here, hhere⟩ := Option.isSome_iff_exists.mp h.1
    rw [List.mapM_cons, ih h.2, hhere, List.map_cons, inFile, hhere]
    rfl

/-- No two matches agree in path and line, as long as no path is searched twice. -/
theorem pairwise_key_inFile (hpaths : paths.Nodup) :
    (paths.map (search.inFile policy fs project)).flatten.Pairwise fun a b => a.key ≠ b.key := by
  have hof (path : String) : (∀ m ∈ search.inFile policy fs project path, m.path = path) ∧
      (search.inFile policy fs project path).Pairwise fun a b => a.line < b.line := by
    cases h : search.inFile? policy fs project path with
    | none => simp [inFile, h]
    | some here =>
      rw [inFile, h]
      exact of_inFile? h
  rw [List.pairwise_flatten, List.forall_mem_map, List.pairwise_map]
  constructor
  · intro path _
    exact (hof path).2.imp fun hab hkey => hab.ne (congrArg (fun k => (ofLex k).2) hkey)
  · refine hpaths.imp fun {path path'} hne m hm n hn hkey => hne ?_
    calc path = m.path := ((hof path).1 m hm).symm
      _ = n.path := congrArg (fun k => (ofLex k).1) hkey
      _ = path' := (hof path').1 n hn

/-- All matches in some files, by path and line. -/
def sorted (search : Search) (policy : Policy) (fs : FileSystem) (project : Project)
    (paths : List String) : List Match :=
  (paths.map (search.inFile policy fs project)).flatten.mergeSort Match.noLater

theorem inFiles?_eq_some (h : ∀ path ∈ paths, (search.inFile? policy fs project path).isSome = true)
    (limit : Nat) :
    search.inFiles? policy fs project paths limit =
      some ((search.sorted policy fs project paths).take limit) := by
  rw [inFiles?, mapM_inFile? h]
  rfl

theorem pairwise_before_sorted (hpaths : paths.Nodup) :
    (search.sorted policy fs project paths).Pairwise Match.Before :=
  Match.pairwise_before_mergeSort (pairwise_key_inFile hpaths)

/-- Files in another order have the same matches, and so the same list of them. -/
theorem sorted_perm {others : List String} (h : others.Perm paths) (hpaths : paths.Nodup) :
    search.sorted policy fs project others = search.sorted policy fs project paths := by
  have hperm : (search.sorted policy fs project others).Perm
      (search.sorted policy fs project paths) :=
    ((List.mergeSort_perm _ _).trans (h.map _).flatten).trans (List.mergeSort_perm _ _).symm
  exact Match.eq_of_pairwise_before hperm (pairwise_before_sorted (h.nodup_iff.mpr hpaths))
    (pairwise_before_sorted hpaths)

theorem mem_sorted {m : Match} :
    m ∈ search.sorted policy fs project paths ↔
      ∃ path ∈ paths, ∃ found, search.inFile? policy fs project path = some found ∧ m ∈ found := by
  rw [sorted, (List.mergeSort_perm _ _).mem_iff, ← List.flatMap_def, List.mem_flatMap]
  refine exists_congr fun path => and_congr_right fun _ => ?_
  cases h : search.inFile? policy fs project path <;> simp [inFile, h]

theorem inFiles?_eq_none {path : String} (hpath : path ∈ paths)
    (h : search.inFile? policy fs project path = none) (limit : Nat) :
    search.inFiles? policy fs project paths limit = none := by
  rw [← Option.not_isSome_iff_eq_none, isSome_inFiles?_iff]
  intro hall
  simpa [h] using hall path hpath

/-- **What is found in the files of a project does not depend on the order they are searched in, and
a limit cuts the end off.**  If the search goes through in every file that is there to be searched,
there is one list, strictly in the order of paths and lines, with the matches of all these files and
nothing else, and a search of the paths in any order gives the beginning of it.  If it breaks off in
one of them, it does so for any order of the paths.  So the search for fewer matches always comes to
the first ones of a search for more. -/
theorem inFiles?_any_order (search : Search) (policy : Policy) (fs : FileSystem) (project : Project)
    (paths : List String) (hpaths : paths.Nodup) :
    ((∀ path ∈ paths, ∀ octets, Searched policy fs project path octets →
        (search.inText? path (Text.Utf8.decodeLossy octets)).isSome = true) →
      ∃ all : List Match,
        (∀ others, others.Perm paths → ∀ limit,
          search.inFiles? policy fs project others limit = some (all.take limit)) ∧
        (all.Pairwise fun a b => a.path < b.path ∨ a.path = b.path ∧ a.line < b.line) ∧
        ∀ m, m ∈ all ↔ ∃ path ∈ paths, ∃ octets found, Searched policy fs project path octets ∧
          search.inText? path (Text.Utf8.decodeLossy octets) = some found ∧ m ∈ found) ∧
    ((∃ path ∈ paths, ∃ octets, Searched policy fs project path octets ∧
        search.inText? path (Text.Utf8.decodeLossy octets) = none) →
      ∀ others, others.Perm paths → ∀ limit,
        search.inFiles? policy fs project others limit = none) ∧
    ∀ fewer more, fewer ≤ more →
      search.inFiles? policy fs project paths fewer =
        (search.inFiles? policy fs project paths more).map (List.take fewer) := by
  refine ⟨fun hall => ?_, ?_, fun fewer more hle => ?_⟩
  · have hfiles (path) (hpath : path ∈ paths) :
        (search.inFile? policy fs project path).isSome = true := by
      rw [← Option.isNone_eq_false_iff, ← Bool.not_eq_true, Option.isNone_iff_eq_none,
        inFile?_eq_none_iff]
      rintro ⟨octets, hoctets, hnone⟩
      simpa [hnone] using hall path hpath octets hoctets
    refine ⟨search.sorted policy fs project paths, fun others hperm limit => ?_,
      pairwise_before_sorted hpaths, fun m => ?_⟩
    · rw [inFiles?_eq_some (fun path hpath => hfiles path (hperm.mem_iff.mp hpath)),
        sorted_perm hperm hpaths]
    · simp only [mem_sorted, inFile?_eq_some_iff]
  · rintro ⟨path, hpath, hnone⟩ others hperm limit
    exact inFiles?_eq_none (hperm.mem_iff.mpr hpath) (inFile?_eq_none_iff.mpr hnone) limit
  · by_cases hfiles : ∀ path ∈ paths, (search.inFile? policy fs project path).isSome = true
    · rw [inFiles?_eq_some hfiles, inFiles?_eq_some hfiles, Option.map_some, List.take_take,
        Nat.min_eq_left hle]
    · obtain ⟨path, hpath, hnone⟩ : ∃ path ∈ paths,
          search.inFile? policy fs project path = none := by simpa using hfiles
      rw [inFiles?_eq_none hpath hnone, inFiles?_eq_none hpath hnone, Option.map_none]

/-! ## Two files -/

/-- The second file has another line before its match. -/
def shelf : FileSystem where
  items := [("a.py", .file [120, 10] 7), ("b.py", .file [121, 10, 120, 10] 7)]

theorem searched_shelf {name : String} {octets : List UInt8} (hname : Path.IsName name)
    (hpermits : Policy.homePolicy.Permits ([name] : Place))
    (hfile : shelf.file? ([name] : Place) = some (octets, 7))
    (hfits : octets.length ≤ 16) (htext : 0 ∉ octets.take 8192) :
    Searched Policy.homePolicy shelf Policy.driveProject name octets := by
  have hroot : Policy.driveProject.root.Proper := fun _ hs => nomatch hs
  refine ⟨⟨_, Policy.resolve_name hroot hname hpermits hfile hfits, ?_⟩, htext⟩
  have hread : shelf.read [name] = .ok octets := by
    rw [FileSystem.read, FileSystem.file?_eq_some_iff.mp hfile]
  have hsmall : octets.length ≤ Policy.homePolicy.maxFileBytes := hfits
  simp [Policy.readBytes, Policy.driveProject, hread, hsmall]

theorem searched_a : Searched Policy.homePolicy shelf Policy.driveProject "a.py" [120, 10] :=
  searched_shelf (by decide +kernel) (Policy.permits_iff.mpr (by decide +kernel))
    (by decide +kernel) (by decide) (by decide)

theorem searched_b :
    Searched Policy.homePolicy shelf Policy.driveProject "b.py" [121, 10, 120, 10] :=
  searched_shelf (by decide +kernel) (Policy.permits_iff.mpr (by decide +kernel))
    (by decide +kernel) (by decide) (by decide)

theorem text_a : Text.Utf8.decodeLossy [120, 10] = ['x', '\n'] := by
  simp [Text.Utf8.decodeLossy, Text.Utf8.decode, Text.Utf8.decodeOnto, Text.Utf8.next]

theorem text_b : Text.Utf8.decodeLossy [121, 10, 120, 10] = ['y', '\n', 'x', '\n'] := by
  simp [Text.Utf8.decodeLossy, Text.Utf8.decode, Text.Utf8.decodeOnto, Text.Utf8.next]

/-- The search for an `x`. -/
def forX (contextLines : Nat) : Search :=
  { regex := literal false ['x'], contextLines }

/-- The two matches, as they are sorted. -/
def onShelf : List Match := [
  { path := "a.py", line := 1, column := 1, text := "x", before := [], after := [] },
  { path := "b.py", line := 2, column := 1, text := "x", before := ["y"], after := [] }]

theorem inFiles?_onShelf (limit : Nat) :
    (forX 1).inFiles? Policy.homePolicy shelf Policy.driveProject ["a.py", "b.py"] limit =
      some (onShelf.take limit) := by
  have ha : (forX 1).inFile? Policy.homePolicy shelf Policy.driveProject "a.py" =
      some (onShelf.take 1) := by
    rw [inFile?_of_searched searched_a, text_a]
    rfl
  have hb : (forX 1).inFile? Policy.homePolicy shelf Policy.driveProject "b.py" =
      some (onShelf.drop 1) := by
    rw [inFile?_of_searched searched_b, text_b]
    rfl
  have hsort : onShelf.mergeSort Match.noLater = onShelf :=
    List.mergeSort_of_pairwise (by decide)
  simp only [inFiles?, List.mapM_cons, List.mapM_nil, ha, hb, bind, Option.bind, pure,
    List.flatten_cons, List.flatten_nil, List.append_nil, List.take_append_drop, hsort]

/-- Every order of the two paths gives the same two matches. -/
theorem inFiles?_any_order_shelf :
    Search.of { pattern := "x", contextLines := 1 } = .ok (forX 1) ∧ ["b.py", "a.py"].Nodup ∧
      ∀ others, others.Perm ["b.py", "a.py"] → ∀ limit,
        (forX 1).inFiles? Policy.homePolicy shelf Policy.driveProject others limit =
          some (onShelf.take limit) := by
  have hdistinct : ["b.py", "a.py"].Nodup := by decide
  obtain ⟨hthrough, -, -⟩ := inFiles?_any_order (forX 1) Policy.homePolicy shelf
    Policy.driveProject ["b.py", "a.py"] hdistinct
  obtain ⟨all, hall, -, -⟩ := hthrough fun path hpath octets hoctets => by
    rw [← inFile?_of_searched hoctets]
    have hsome := congrArg Option.isSome (inFiles?_onShelf 0)
    rw [Option.isSome_some, isSome_inFiles?_iff] at hsome
    exact hsome path ((List.Perm.swap _ _ []).mem_iff.mp hpath)
  have hsame : all = onShelf := by
    have hlong := hall ["a.py", "b.py"] (by decide) (all.length + onShelf.length)
    rw [inFiles?_onShelf, List.take_of_length_le (Nat.le_add_left _ _),
      List.take_of_length_le (Nat.le_add_right _ _)] at hlong
    exact (Option.some_inj.mp hlong).symm
  exact ⟨rfl, hdistinct, hsame ▸ hall⟩

/-- Where the number of lines asked for is the largest word but one, the match in the second row of
one file takes that in the first row of the other with it. -/
theorem matches_lost_beside :
    Search.of { pattern := "x", contextLines := Number.maxWord - 1 } =
        .ok (forX (Number.maxWord - 1)) ∧
      ["a.py", "b.py"].Nodup ∧
      Searched Policy.homePolicy shelf Policy.driveProject "a.py" [120, 10] ∧
      (forX (Number.maxWord - 1)).inText? "a.py" (Text.Utf8.decodeLossy [120, 10]) =
        some (onShelf.take 1) ∧
      ∀ limit, (forX (Number.maxWord - 1)).inFiles? Policy.homePolicy shelf Policy.driveProject
        ["a.py", "b.py"] limit = none := by
  refine ⟨rfl, by decide, searched_a, ?_, fun limit => ?_⟩
  · rw [text_a]
    rfl
  · have hnone : (forX (Number.maxWord - 1)).inFile? Policy.homePolicy shelf Policy.driveProject
        "b.py" = none := by
      rw [inFile?_of_searched searched_b, text_b]
      rfl
    exact inFiles?_eq_none (by decide) hnone limit

end CodeAtlas.Search
