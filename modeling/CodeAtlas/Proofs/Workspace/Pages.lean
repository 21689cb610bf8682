import CodeAtlas.Proofs.Files.Listing
import CodeAtlas.Proofs.Text.Lines
import CodeAtlas.Proofs.Workspace.Limits

/-!
# Reading a file page by page

A client that wants a long file asks for so many lines at a time, and goes on behind the last line
it was given until it has the last one there is (`Paged`).  Page `i` starts where `i` full pages
end (`window_page`), so the reading comes to an end after as many pages as it takes to hold the
lines, and what the client was given are the lines of the file (`pages_reproduce`).

A page is told with numbers of lines.  They are computed in machine words, and no step of the
computation leaves the word, whatever line and however many lines are asked for
(`window?_eq_some`).
-/

namespace CodeAtlas

/-! ## One window -/

/-- The lines that a client finds in what it was given. -/
def FileContent.shown (c : FileContent) : List (List Char) :=
  if c.endLine = 0 then [] else Text.splitOn '\n' c.content.toList

namespace Policy

variable {path : String} {text : List Char} {lines : List (List Char)} {len n i : Nat}

/-- A file of so many lines has a page `i` of `n` lines: the page starts inside the file, or it is
the first one. -/
def HasPage (len n i : Nat) : Prop :=
  i * n < len ∨ i = 0

theorem HasPage.of_le {m : Nat} (h : HasPage len n m) (hi : i ≤ m) : HasPage len n i := by
  rcases h with h | rfl
  · exact .inl ((Nat.mul_le_mul_right n hi).trans_lt h)
  · exact .inr (Nat.le_zero.mp hi)

theorem HasPage.start_lt (h : HasPage len n i) (hlen : 0 < len) : i * n < len := by
  rcases h with h | rfl
  · exact h
  · rwa [Nat.zero_mul]

theorem HasPage.start_le (h : HasPage len n i) : i * n ≤ len := by
  rcases h with h | rfl
  · exact h.le
  · simp

theorem splitOn_joinLines (h : ∀ line ∈ lines, '\n' ∉ line) (hne : lines ≠ []) :
    Text.splitOn '\n' (joinLines lines) = lines := by
  rw [Text.splitOn_eq_splitOn, joinLines]
  exact List.splitOn_intercalate '\n' h hne

/-- Page `i` of a file with these lines, if there are `n` lines on a page. -/
def page (path : String) (lines : List (List Char)) (n i : Nat) : FileContent where
  path
  startLine := i * n + 1
  endLine := min ((i + 1) * n) lines.length
  totalLines := lines.length
  content := String.ofList (joinLines ((lines.drop (i * n)).take n))

/-- The window that starts where full pages end is the next page, if there is one. -/
theorem window_page (path : String) (hn : 1 ≤ n) (h : HasPage (Text.lines text).length n i) :
    window path text (some (i * n + 1)) (some n) = page path (Text.lines text) n i := by
  have hstart : i * n ≤ (Text.lines text).length := h.start_le
  have hnext : (i + 1) * n = i * n + n := Nat.succ_mul i n
  have hend : (if n = 0 ∨ (Text.lines text).length ≤ i * n then 0
      else i * n + min n ((Text.lines text).length - i * n)) =
        min ((i + 1) * n) (Text.lines text).length := by
    split
    next hnone =>
      have hempty : ¬ 0 < (Text.lines text).length := fun hsome => by
        have hlt := h.start_lt hsome
        omega
      omega
    next => omega
  simp [window, page, Nat.min_eq_left hstart, hend]

theorem shown_page (path : String) (hn : 1 ≤ n) (hlines : ∀ line ∈ lines, '\n' ∉ line)
    (h : HasPage lines.length n i) :
    (page path lines n i).shown = (lines.drop (i * n)).take n := by
  have hpos : 1 ≤ (i + 1) * n := Nat.mul_pos (Nat.succ_pos i) hn
  rcases Nat.eq_zero_or_pos lines.length with hnil | hsome
  · rw [List.length_eq_zero_iff.mp hnil]
    simp [FileContent.shown, page]
  · have hstart : i * n < lines.length := h.start_lt hsome
    have hne : (lines.drop (i * n)).take n ≠ [] := by
      simp only [ne_eq, List.take_eq_nil_iff, List.drop_eq_nil_iff]
      omega
    have hin : ∀ line ∈ (lines.drop (i * n)).take n, '\n' ∉ line :=
      fun line hline => hlines line (List.mem_of_mem_drop (List.mem_of_mem_take hline))
    have hend : (page path lines n i).endLine ≠ 0 := by
      simp only [page]
      omega
    rw [FileContent.shown, if_neg hend, page, String.toList_ofList, splitOn_joinLines hin hne]

theorem startLine_le_endLine_page (path : String) (hn : 1 ≤ n) (h : HasPage lines.length n i)
    (hne : lines ≠ []) : (page path lines n i).startLine ≤ (page path lines n i).endLine := by
  have hstart : i * n < lines.length := h.start_lt (List.length_pos_of_ne_nil hne)
  simp only [page, Nat.succ_mul]
  omega

/-- What is shown on a page are the lines with the numbers it tells. -/
theorem shown_page_eq (path : String) (hn : 1 ≤ n) (hlines : ∀ line ∈ lines, '\n' ∉ line)
    (h : HasPage lines.length n i) :
    (page path lines n i).shown = (lines.take (page path lines n i).endLine).drop
      ((page path lines n i).startLine - 1) := by
  have hcut : lines.take (min ((i + 1) * n) lines.length) = lines.take (i * n + n) := by
    rw [← List.take_take, List.take_length, Nat.succ_mul]
  rw [shown_page path hn hlines h]
  simp only [page, Nat.add_sub_cancel, hcut]
  rw [List.drop_take, Nat.add_sub_cancel_left]

/-- The pages up to some number hold the lines up to the end of the last one. -/
theorem flatMap_range_page (lines : List (List Char)) (n m : Nat) :
    ((List.range m).flatMap fun i => (lines.drop (i * n)).take n) = lines.take (m * n) := by
  induction m with
  | zero => simp
  | succ m ih =>
    rw [List.range_succ, List.flatMap_append, ih, List.flatMap_singleton, Nat.succ_mul,
      List.take_add]

/-- Pages up to one that a file has and ends with show all lines there are. -/
theorem flatMap_shown_page (path : String) (hn : 1 ≤ n) (hlines : ∀ line ∈ lines, '\n' ∉ line)
    {m : Nat} (hlast : lines.length ≤ (m + 1) * n) (hpage : HasPage lines.length n m) :
    ((List.range (m + 1)).map (page path lines n)).flatMap FileContent.shown = lines := by
  have hshown : ∀ i ∈ List.range (m + 1),
      (page path lines n i).shown = (lines.drop (i * n)).take n := by
    intro i hi
    have hle : i ≤ m := Nat.le_of_lt_succ (List.mem_range.mp hi)
    exact shown_page path hn hlines (hpage.of_le hle)
  rw [List.flatMap_map, List.flatMap_congr hshown, flatMap_range_page,
    List.take_of_length_le hlast]

/-! ## Windows in words -/

/-- The number of the last line shown behind those skipped, if it is a word. -/
def endLine? (skipped : Nat) (shown : List (List Char)) : Option Nat :=
  if shown.isEmpty then some 0 else Number.add? skipped shown.length

/-- The window with its numbers as they are computed in words.  It comes to nothing if a step of the
computation leaves the word. -/
def window? (path : String) (text : List Char) (startLine maxLines : Option Nat) :
    Option FileContent := do
  let lines := Text.lines text
  let start := max (startLine.getD 1) 1
  let before ← if 1 ≤ start then some (start - 1) else none
  let skipped := min before lines.length
  let shown := (lines.drop skipped).take (maxLines.getD Number.maxWord)
  let endLine ← endLine? skipped shown
  let startsAt ← Number.add? skipped 1
  return { window path text startLine maxLines with startLine := startsAt, endLine }

/-- What is shown ends with a line of the file, which has a number. -/
theorem endLine?_take_drop {skipped : Nat} (h : lines.length ≤ Number.maxWord)
    (hskipped : skipped ≤ lines.length) (n : Nat) :
    endLine? skipped ((lines.drop skipped).take n) =
      some (if ((lines.drop skipped).take n).isEmpty then 0
        else skipped + ((lines.drop skipped).take n).length) := by
  have hend : skipped + ((lines.drop skipped).take n).length ≤ Number.maxWord := by
    rw [List.length_take, List.length_drop]
    omega
  rw [endLine?, Number.add?, if_pos hend, apply_ite some]

theorem window?_eq_some (path : String) (h : (Text.lines text).length < Number.maxWord)
    (startLine maxLines : Option Nat) :
    window? path text startLine maxLines = some (window path text startLine maxLines) := by
  have hbefore : max (startLine.getD 1) 1 - 1 = startLine.getD 1 - 1 := by omega
  have hskipped : min (startLine.getD 1 - 1) (Text.lines text).length ≤
      (Text.lines text).length := Nat.min_le_right _ _
  have hstarts : Number.add? (min (startLine.getD 1 - 1) (Text.lines text).length) 1 =
      some (min (startLine.getD 1 - 1) (Text.lines text).length + 1) := if_pos (by omega)
  simp only [window?, hbefore, Nat.le_max_right, if_true, Option.bind_eq_bind, Option.bind_some,
    endLine?_take_drop h.le hskipped, hstarts]
  cases maxLines with
  | some n => rfl
  | none =>
    have hall (skipped : Nat) : ((Text.lines text).drop skipped).take Number.maxWord =
        (Text.lines text).drop skipped :=
      List.take_of_length_le (by rw [List.length_drop]; omega)
    rw [Option.getD_none, hall]
    rfl

theorem endLine_window_le (path : String) (text : List Char) (startLine maxLines : Option Nat) :
    (window path text startLine maxLines).endLine ≤ (Text.lines text).length := by
  have hend (skipped : Nat) (hskipped : skipped ≤ (Text.lines text).length)
      (shown : List (List Char)) (hshown : shown.length ≤ (Text.lines text).length - skipped) :
      (if shown.isEmpty then 0 else skipped + shown.length) ≤ (Text.lines text).length := by
    split <;> omega
  refine hend _ (Nat.min_le_right _ _) _ ?_
  rw [← List.length_drop]
  cases maxLines with
  | some n => exact List.length_take_le' n _
  | none => exact le_rfl

end Policy

/-! ## Page after page -/

namespace Workspace

/-- The pages that a client is given from some line on, with so many lines asked for at a time. -/
inductive Paged (around : Surroundings) (name path : String) (n : Nat) :
    Workspace → Nat → List FileContent → Prop
  | /-- The page that has the last line. -/
    last {w v : Workspace} {start : Nat} {c : FileContent}
      (h : (readFile name path (some start) (some n)).run around w = (.ok c, v))
      (hend : ¬ c.endLine < c.totalLines) : Paged around name path n w start [c]
  | /-- A page with more behind it. -/
    more {w v : Workspace} {start : Nat} {c : FileContent} {pages : List FileContent}
      (h : (readFile name path (some start) (some n)).run around w = (.ok c, v))
      (hend : c.endLine < c.totalLines) (hrest : Paged around name path n v (c.endLine + 1) pages) :
      Paged around name path n w start (c :: pages)

variable {around : Surroundings} {w : Workspace} {name path : String} {p : Project}
  {file : FileRef} {octets : List UInt8} {n start i m : Nat} {pages others : List FileContent}

/-- There is one way to read on. -/
theorem Paged.eq (h : Paged around name path n w start pages)
    (hothers : Paged around name path n w start others) : others = pages := by
  induction h generalizing others with
  | last h hend =>
    cases hothers with
    | last h' _ =>
      obtain ⟨hc, -⟩ := Prod.mk.inj (h'.symm.trans h)
      rw [Except.ok.inj hc]
    | more h' hend' _ =>
      obtain ⟨hc, -⟩ := Prod.mk.inj (h'.symm.trans h)
      exact absurd (Except.ok.inj hc ▸ hend') hend
  | more h hend _ ih =>
    cases hothers with
    | last h' hend' =>
      obtain ⟨hc, -⟩ := Prod.mk.inj (h'.symm.trans h)
      exact absurd hend (Except.ok.inj hc ▸ hend')
    | more h' _ hrest' =>
      obtain ⟨hc, rfl⟩ := Prod.mk.inj (h'.symm.trans h)
      obtain rfl := Except.ok.inj hc
      rw [ih hrest']

section

variable (hproject : w.projects.get name = .ok p)
  (hresolve : w.policy.resolve around.files p path = .ok file)
  (hread : w.policy.readBytes around.files file = .ok octets)

include hproject hresolve hread

theorem run_readFile (startLine maxLines : Option Nat) :
    (readFile name path startLine maxLines).run around w =
      (.ok (Policy.window file.displayPath (Text.Utf8.decodeLossy octets) startLine maxLines),
        w) := by
  have htext : w.policy.readText around.files p path startLine maxLines =
      .ok (Policy.window file.displayPath (Text.Utf8.decodeLossy octets) startLine maxLines) := by
    simp [Policy.readText, hresolve, hread, bind, Except.bind, pure, Except.pure]
  simp [readFile, Work.run_bind, hproject, htext]

/-- The lines are counted for the description of a file as they are for its pages. -/
theorem run_fileMetadata :
    ∃ told, (fileMetadata name path).run around w = (.ok told, w) ∧
      told.lineCount = (Text.lines (Text.Utf8.decodeLossy octets)).length := by
  obtain ⟨told, htold, hcount⟩ : ∃ told, w.policy.metadata around.files p path = .ok told ∧
      told.lineCount = (Text.lines (Text.Utf8.decodeLossy octets)).length := by
    simp [Policy.metadata, hresolve, hread, bind, Except.bind, pure, Except.pure]
  exact ⟨told, by simp [fileMetadata, Work.run_bind, hproject, htold], hcount⟩

/-- Where the file ends with page `m`, the pages from any page on are those up to this one. -/
theorem paged_from (hn : 1 ≤ n)
    (hlast : (Text.lines (Text.Utf8.decodeLossy octets)).length ≤ (m + 1) * n)
    (hpage : Policy.HasPage (Text.lines (Text.Utf8.decodeLossy octets)).length n m) (k : Nat)
    (hk : i + k = m) :
    Paged around name path n w (i * n + 1) ((List.range' i (k + 1)).map
      (Policy.page file.displayPath (Text.lines (Text.Utf8.decodeLossy octets)) n)) := by
  have hrun (i : Nat) (hi : i ≤ m) : (readFile name path (some (i * n + 1)) (some n)).run around w =
      (.ok (Policy.page file.displayPath (Text.lines (Text.Utf8.decodeLossy octets)) n i), w) := by
    rw [run_readFile hproject hresolve hread, Policy.window_page _ hn (hpage.of_le hi)]
  -- the induction is on the pages that are left
  induction k generalizing i with
  | zero =>
    obtain rfl : i = m := hk
    exact .last (hrun i le_rfl) (by simp [Policy.page, Nat.min_eq_right hlast])
  | succ k ih =>
    have hnext : (i + 1) * n < (Text.lines (Text.Utf8.decodeLossy octets)).length :=
      (hpage.of_le (by omega)).resolve_right (Nat.succ_ne_zero i)
    have hend : (Policy.page file.displayPath (Text.lines (Text.Utf8.decodeLossy octets)) n
        i).endLine = (i + 1) * n := Nat.min_eq_left hnext.le
    rw [List.range'_succ, List.map_cons]
    refine .more (hrun i (by omega)) (hend ▸ hnext) ?_
    rw [hend]
    exact ih (by omega)

end

/-- The page of the last line is the last one, and there are as many pages as it takes to hold the
lines. -/
theorem last_page (len : Nat) (hn : 1 ≤ n) :
    len ≤ ((len - 1) / n + 1) * n ∧ Policy.HasPage len n ((len - 1) / n) ∧
      (len - 1) / n + 1 = max 1 ((len + n - 1) / n) := by
  have habove : len - 1 < n * ((len - 1) / n + 1) := Nat.lt_mul_div_succ (len - 1) hn
  have hbelow : (len - 1) / n * n ≤ len - 1 := Nat.div_mul_le_self (len - 1) n
  rw [Nat.mul_comm] at habove
  refine ⟨by omega, ?_, ?_⟩
  · rcases Nat.eq_zero_or_pos len with rfl | hpos
    · exact .inr (by simp)
    · exact .inl (by omega)
  · rcases Nat.eq_zero_or_pos len with rfl | hpos
    · rw [Nat.zero_add, Nat.div_eq_of_lt (Nat.sub_one_lt (Nat.ne_of_gt hn))]
      simp
    · have hmore : len + n - 1 = len - 1 + n := by omega
      rw [hmore, Nat.add_div_right _ hn]
      exact (Nat.max_eq_right (Nat.succ_le_succ (Nat.zero_le _))).symm

/-- A file in memory has so few octets that its lines, and one more, have numbers. -/
theorem length_lines_lt_maxWord (h : octets.length < Nat.pow 2 63) :
    (Text.lines (Text.Utf8.decodeLossy octets)).length < Number.maxWord := by
  have hlines := Text.length_lines_le octets
  have hcount : octets.count 10 ≤ octets.length := List.count_le_length
  have hword : Nat.pow 2 63 < Number.maxWord := by decide
  omega

/-- **Reading page by page reproduces a file.**  A client that reads so many lines at a time, from
the first one on and then behind the last line of each page as long as there are more, is done after
as many pages as it takes to hold the lines, one for an empty file, and there is no other way for
the reading to go.  The lines it was given, page after page, are the lines of the file.  Each page
has the lines from its first to its last number, and tells the number of all lines, as the
description of the file does.  No window of lines leaves the machine word on its way, whatever is
asked for, as long as the file fits in memory. -/
theorem pages_reproduce (around : Surroundings) (w : Workspace) (name path : String) (n : Nat)
    (hn : 1 ≤ n) (hproject : w.projects.get name = .ok p)
    (hresolve : w.policy.resolve around.files p path = .ok file)
    (hread : w.policy.readBytes around.files file = .ok octets) (lines : List (List Char))
    (hlines : lines = Text.lines (Text.Utf8.decodeLossy octets)) :
    (∃ pages, Paged around name path n w 1 pages ∧
      (∀ others, Paged around name path n w 1 others → others = pages) ∧
      pages.length = max 1 ((lines.length + n - 1) / n) ∧
      pages.flatMap FileContent.shown = lines ∧
      ∀ i c, pages[i]? = some c →
        c.startLine = i * n + 1 ∧ c.endLine = min ((i + 1) * n) lines.length ∧
        (lines ≠ [] → c.startLine ≤ c.endLine) ∧
        c.shown = (lines.take c.endLine).drop (c.startLine - 1) ∧
        c.totalLines = lines.length) ∧
    (∃ told, (fileMetadata name path).run around w = (.ok told, w) ∧
      told.lineCount = lines.length) ∧
    (octets.length < Nat.pow 2 63 → ∀ startLine maxLines,
      ∃ c, (readFile name path startLine maxLines).run around w = (.ok c, w) ∧
        Policy.window? file.displayPath (Text.Utf8.decodeLossy octets) startLine maxLines =
          some c ∧
        c.endLine < Number.maxWord) := by
  subst hlines
  set lines := Text.lines (Text.Utf8.decodeLossy octets) with hlines
  have hwhole : ∀ line ∈ lines, '\n' ∉ line := fun line => Text.newline_notMem_of_mem_lines
  obtain ⟨hlast, hpage, hcount⟩ := last_page lines.length hn
  have hpaged := paged_from hproject hresolve hread hn hlast hpage ((lines.length - 1) / n)
    (Nat.zero_add _)
  rw [← List.range_eq_range', Nat.zero_mul] at hpaged
  refine ⟨⟨_, hpaged, fun others hothers => hpaged.eq hothers, ?_,
    Policy.flatMap_shown_page _ hn hwhole hlast hpage, fun i c hc => ?_⟩,
    run_fileMetadata hproject hresolve hread, fun hfits startLine maxLines => ?_⟩
  · rw [List.length_map, List.length_range, hcount]
  · obtain ⟨j, hj, rfl⟩ := Option.map_eq_some_iff.mp (List.getElem?_map.symm.trans hc)
    obtain ⟨hi, rfl⟩ : i < (lines.length - 1) / n + 1 ∧ i = j := by
      simpa [List.getElem?_eq_some_iff] using hj
    have hhere := hpage.of_le (Nat.le_of_lt_succ hi)
    exact ⟨rfl, rfl, Policy.startLine_le_endLine_page _ hn hhere,
      Policy.shown_page_eq _ hn hwhole hhere, rfl⟩
  · have hwords : lines.length < Number.maxWord := length_lines_lt_maxWord hfits
    exact ⟨_, run_readFile hproject hresolve hread startLine maxLines,
      Policy.window?_eq_some _ hwords startLine maxLines,
      (Policy.endLine_window_le _ _ startLine maxLines).trans_lt hwords⟩

/-! ## Three lines -/

/-- One file, whose second line is not UTF-8 and whose last one is empty. -/
def pagedOctets : List UInt8 := [120, 10, 255, 10, 10]

def pagedAround : Surroundings :=
  { nestedAround with files := { items := [("a.py", .file pagedOctets 7)] } }

def pagedFile : FileRef :=
  { nestedFile with size := 5 }

theorem resolve_paged :
    demoSpace.policy.resolve pagedAround.files demo "a.py" = .ok pagedFile := by
  have hroot : demo.root.Proper := fun _ hs => nomatch hs
  have hname : Path.IsName "a.py" := by decide +kernel
  have hpermits : demoSpace.policy.Permits (["a.py"] : Place) :=
    Policy.permits_iff.mpr (by decide +kernel)
  have hfile : pagedAround.files.file? (demo.root ++ (["a.py"] : Place)) =
      some (pagedOctets, 7) := by
    decide +kernel
  exact Policy.resolve_name hroot hname hpermits hfile (by decide)

theorem lines_paged :
    Text.lines (Text.Utf8.decodeLossy pagedOctets) = [['x'], ['\uFFFD'], []] := by
  have htext : Text.Utf8.decodeLossy pagedOctets = ['x', '\n', '\uFFFD', '\n', '\n'] := by
    simp [pagedOctets, Text.Utf8.decodeLossy, Text.Utf8.decode, Text.Utf8.decodeOnto,
      Text.Utf8.next, Text.Utf8.replacement]
  rw [htext]
  rfl

/-- Two lines at a time, the three lines take two pages. -/
theorem pages_reproduce_three :
    1 ≤ 2 ∧ demoSpace.projects.get "demo" = .ok demo ∧
      demoSpace.policy.resolve pagedAround.files demo "a.py" = .ok pagedFile ∧
      demoSpace.policy.readBytes pagedAround.files pagedFile = .ok pagedOctets ∧
      [['x'], ['\uFFFD'], []] = Text.lines (Text.Utf8.decodeLossy pagedOctets) ∧
      ∃ pages, Paged pagedAround "demo" "a.py" 2 demoSpace 1 pages ∧ pages.length = 2 ∧
        pages.flatMap FileContent.shown = [['x'], ['\uFFFD'], []] := by
  obtain ⟨⟨pages, hpaged, -, hlength, hshown, -⟩, -⟩ := pages_reproduce pagedAround demoSpace
    "demo" "a.py" 2 (by decide) rfl resolve_paged rfl _ lines_paged.symm
  exact ⟨by decide, rfl, resolve_paged, rfl, lines_paged.symm, pages, hpaged, hlength, hshown⟩

end Workspace

end CodeAtlas
