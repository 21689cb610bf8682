import CodeAtlas.Analysis.Complexity
import CodeAtlas.Proofs.Syntax.Traversal
import Mathlib.Order.Bounds.Defs

/-!
# What is counted of a document

The lines of a text are counted in two ways: blank ones along the text, and those of comments along
the rows of the nodes of a tree, whatever these rows are.  That the two counts together are no more
than there are lines is so because a row is counted once, only if it is a line of the text, and only if
that line is not blank (`countFilled_eq`).

What a walk has gathered after some visits is `Tally.Holds`, which every visit preserves.
-/

namespace CodeAtlas.Analysis.Complexity

open Syntax (Node)
open Text (allBlank)
open Text.Utf8 (decodeLossy)

/-! ## Rows of comments -/

section Rows

variable {lines : List (List Char)} {rows : List Nat} {row r : Nat}

/-- Whether a row belongs to a comment.  The row where it starts does not if code stands before. -/
def covers (lines : List (List Char)) (n : Node) (row : Nat) : Bool :=
  (if codeBefore lines n then n.span.startRow < row else n.span.startRow ≤ row) &&
    row ≤ n.span.endRow

theorem mem_rowsOf_iff {n : Node} : row ∈ rowsOf lines n ↔ covers lines n row = true := by
  rw [rowsOf, covers, List.mem_range'_1]
  cases codeBefore lines n
  · simp
    omega
  · simp
    omega

theorem mem_insertRow_iff : r ∈ insertRow row rows ↔ r = row ∨ r ∈ rows := by
  induction rows with
  | nil => simp [insertRow]
  | cons first rest ih =>
    rw [insertRow]
    split
    · exact List.mem_cons
    · split
      next heq => simp [heq]
      next => simp [ih, or_left_comm]

theorem falling_insertRow (h : rows.Pairwise (· > ·)) : (insertRow row rows).Pairwise (· > ·) := by
  induction rows with
  | nil => exact List.pairwise_singleton _ _
  | cons first rest ih =>
    obtain ⟨hfirst, hrest⟩ := List.pairwise_cons.mp h
    rw [insertRow]
    split
    next hlt =>
      refine List.pairwise_cons.mpr ⟨fun r hr => ?_, h⟩
      rcases List.mem_cons.mp hr with rfl | hr
      · exact hlt
      · exact Nat.lt_trans (hfirst r hr) hlt
    next hle =>
      split
      next => exact h
      next hne =>
        refine List.pairwise_cons.mpr ⟨fun r hr => ?_, ih hrest⟩
        rcases mem_insertRow_iff.mp hr with rfl | hr
        · omega
        · exact hfirst r hr

theorem mem_foldl_insertRow_iff {added : List Nat} :
    r ∈ added.foldl (fun rows row => insertRow row rows) rows ↔ r ∈ added ∨ r ∈ rows := by
  induction added generalizing rows with
  | nil => simp
  | cons row added ih => rw [List.foldl_cons, ih, mem_insertRow_iff, List.mem_cons, or_left_comm,
      or_assoc]

theorem falling_foldl_insertRow (added : List Nat) (h : rows.Pairwise (· > ·)) :
    (added.foldl (fun rows row => insertRow row rows) rows).Pairwise (· > ·) := by
  induction added generalizing rows with
  | nil => exact h
  | cons row added ih => exact ih (falling_insertRow h)

end Rows

/-! ## Counting along a text -/

/-- What is counted along a list with its positions is counted along the positions. -/
theorem countP_zipIdx {α : Type} (f : α → Nat → Bool) (l : List α) (k m : Nat)
    (h : l.length ≤ m) :
    (l.zipIdx k).countP (fun p => f p.1 p.2) =
      (List.range' k m).countP fun i => l[i - k]?.any (f · i) := by
  induction l generalizing k m with
  | nil => simp [List.countP_eq_zero.mpr]
  | cons a l ih =>
    cases m with
    | zero => cases h
    | succ m =>
      have htail : (List.range' (k + 1) m).countP (fun i => (a :: l)[i - k]?.any (f · i)) =
          (List.range' (k + 1) m).countP (fun i => l[i - (k + 1)]?.any (f · i)) := by
        refine List.countP_congr fun i hi => ?_
        have hk := (List.mem_range'_1.mp hi).1
        have hi : i - k = i - (k + 1) + 1 := by omega
        rw [hi, List.getElem?_cons_succ]
      rw [List.zipIdx_cons, List.range'_succ, List.countP_cons, List.countP_cons, htail,
        ih (k + 1) m (Nat.le_of_succ_le_succ h), Nat.sub_self, List.getElem?_cons_zero,
        Option.any_some]

/-- Rows that are told once each are counted as the lines that they are. -/
theorem countFilled_eq (lines : List (List Char)) {rows : List Nat}
    (h : rows.Pairwise (· > ·)) :
    countFilled lines rows =
      lines.zipIdx.countP fun (line, row) => !allBlank line && decide (row ∈ rows) := by
  have hnodup : rows.Nodup := h.imp fun hgt => Nat.ne_of_gt hgt
  rw [countFilled,
    countP_zipIdx (fun line row => !allBlank line && decide (row ∈ rows)) lines 0 lines.length
      (Nat.le_refl _), List.countP_eq_length_filter]
  have hrange : (List.range' 0 lines.length).Nodup := List.nodup_range'
  refine List.Perm.length_eq ((List.perm_ext_iff_of_nodup (hnodup.filter _)
    (hrange.filter _)).mpr fun row => ?_)
  rw [List.mem_filter, List.mem_filter, List.mem_range'_1, Nat.sub_zero]
  cases hline : lines[row]? with
  | none => simp
  | some line =>
    have hlt := (List.getElem?_eq_some_iff.mp hline).1
    simp [hlt, and_comm]

/-- A text has no fewer lines than there are blank ones and filled ones of some kind. -/
theorem length_eq_add (lines : List (List Char)) (p : Nat → Bool) :
    lines.length = countBlank lines + (lines.zipIdx.countP fun (line, row) =>
      !allBlank line && p row) + lines.zipIdx.countP fun (line, row) => !allBlank line && !p row := by
  have hblank : countBlank lines = lines.zipIdx.countP fun (line, _) => allBlank line := by
    rw [countBlank, ← List.countP_eq_length_filter]
    conv => lhs; rw [← List.zipIdx_map_fst 0 lines, List.countP_map]
    rfl
  rw [hblank, ← List.length_zipIdx (l := lines) (i := 0)]
  induction lines.zipIdx with
  | nil => rfl
  | cons a rest ih =>
    obtain ⟨line, row⟩ := a
    simp only [List.length_cons, List.countP_cons, ih]
    cases allBlank line <;> cases p row <;> simp <;> omega

/-! ## What a walk gathers -/

section Walk

variable {language : Language} {lines : List (List Char)} {visits : List (Node × Nat)} {t : Tally}

/-- What is gathered after some visits. -/
structure Tally.Holds (language : Language) (lines : List (List Char)) (visits : List (Node × Nat))
    (t : Tally) : Prop where
  decisions : t.decisions = visits.countP fun v => (decisionKinds language).contains v.1.kind
  level_le : ∀ v ∈ visits, v.2 ≤ t.maxNesting
  attained : t.maxNesting = 0 ∨ ∃ v ∈ visits, v.2 = t.maxNesting
  falling : t.commentRows.Pairwise (· > ·)
  mem_rows : ∀ row, row ∈ t.commentRows ↔
    ∃ v ∈ visits, isComment v.1 = true ∧ covers lines v.1 row = true

theorem Tally.commentRows_add (t : Tally) (n : Node) (level : Nat) :
    (t.add language lines n level).commentRows =
      if isComment n then (rowsOf lines n).foldl (fun rows row => insertRow row rows) t.commentRows
      else t.commentRows := rfl

theorem Tally.holds_nil : Tally.Holds language lines [] {} where
  decisions := rfl
  level_le := nofun
  attained := .inl rfl
  falling := .nil
  mem_rows := by simp

/-- One more visit. -/
theorem Tally.Holds.add (h : t.Holds language lines visits) (n : Node) (level : Nat) :
    (t.add language lines n level).Holds language lines (visits ++ [(n, level)]) where
  decisions := by
    rw [List.countP_append, List.countP_singleton, ← h.decisions, Tally.add]
    split <;> rfl
  level_le := by
    intro v hv
    rcases List.mem_append.mp hv with hv | hv
    · exact Nat.le_trans (h.level_le v hv) (Nat.le_max_left _ _)
    · obtain rfl := List.mem_singleton.mp hv
      exact Nat.le_max_right _ _
  attained := by
    rcases Nat.le_total t.maxNesting level with hle | hle
    · exact .inr ⟨(n, level), by simp, (Nat.max_eq_right hle).symm⟩
    · rw [show (t.add language lines n level).maxNesting = t.maxNesting from Nat.max_eq_left hle]
      exact h.attained.imp_right fun ⟨v, hv, heq⟩ => ⟨v, List.mem_append_left _ hv, heq⟩
  falling := by
    rw [Tally.commentRows_add]
    split
    · exact falling_foldl_insertRow _ h.falling
    · exact h.falling
  mem_rows := by
    intro row
    have hconcat (p : Node → Prop) :
        (∃ v ∈ visits ++ [(n, level)], p v.1) ↔ p n ∨ ∃ v ∈ visits, p v.1 := by
      rw [or_comm]
      simp [or_and_right, exists_or]
    rw [Tally.commentRows_add, hconcat fun m => isComment m = true ∧ covers lines m row = true,
      ← h.mem_rows]
    split
    next hcomment => rw [mem_foldl_insertRow_iff, mem_rowsOf_iff, and_iff_right hcomment]
    next hcomment => exact (or_iff_right fun hn => hcomment hn.1).symm

theorem Tally.Holds.after (h : t.Holds language lines visits) (more : List (Node × Nat)) :
    (Syntax.Walk.after (Tally.add language lines) more t).Holds language lines
      (visits ++ more) := by
  induction more generalizing visits t with
  | nil => rwa [List.append_nil]
  | cons v more ih =>
    rw [← List.singleton_append, ← List.append_assoc]
    exact ih (h.add v.1 v.2)

theorem exists_tally (language : Language) (lines : List (List Char)) (root : Node) :
    ∃ t, tally? language lines root = some t ∧
      t.Holds language lines (root.visits (nestingKinds language) 0) :=
  ⟨_, Syntax.walk?_eq _ _ _ _, Tally.holds_nil.after _⟩

end Walk

/-! ## Reports -/

variable {d : Document} {symbols : Symbols}

def textLines (d : Document) : List (List Char) := Text.lines (decodeLossy d.source)

def comments (d : Document) : List Node := d.root.preorder.filter isComment

def counted (d : Document) (r : Nat) : Bool :=
  (comments d).any fun n => covers (textLines d) n r

theorem counted_eq {t : Tally}
    (h : t.Holds d.language (textLines d) (d.root.visits (nestingKinds d.language) 0)) (r : Nat) :
    decide (r ∈ t.commentRows) = counted d r := by
  rw [Bool.eq_iff_iff, decide_eq_true_eq, h.mem_rows, counted, List.any_eq_true, comments,
    ← Syntax.Node.map_fst_visits (nestingKinds d.language) 0]
  simp [and_assoc]

/-- A report is made of every document, since no count is more than the one it is taken from. -/
theorem exists_report (d : Document) (symbols : Symbols) :
    ∃ (t : Tally) (report : Complexity),
      t.Holds d.language (textLines d) (d.root.visits (nestingKinds d.language) 0) ∧
      of? d symbols = some report ∧
      report.totalLines = (textLines d).length ∧
      report.blankLines = countBlank (textLines d) ∧
      report.commentLines =
        ((textLines d).zipIdx.countP fun (line, row) => !allBlank line && counted d row) ∧
      report.codeLines =
        ((textLines d).zipIdx.countP fun (line, row) => !allBlank line && !counted d row) ∧
      report.cyclomatic = 1 + t.decisions ∧ report.maxNesting = t.maxNesting := by
  obtain ⟨t, ht, hholds⟩ := exists_tally d.language (textLines d) d.root
  have hcomment : countFilled (textLines d) t.commentRows =
      (textLines d).zipIdx.countP fun (line, row) => !allBlank line && counted d row := by
    rw [countFilled_eq (textLines d) hholds.falling]
    simp only [counted_eq hholds]
  have hlength := length_eq_add (textLines d) (counted d)
  have hfilled : Number.sub? (textLines d).length (countBlank (textLines d)) =
      some ((textLines d).length - countBlank (textLines d)) := if_pos (by omega)
  have hcode : Number.sub? ((textLines d).length - countBlank (textLines d))
        (countFilled (textLines d) t.commentRows) =
      some ((textLines d).zipIdx.countP fun (line, row) => !allBlank line && !counted d row) := by
    rw [Number.sub?, if_pos (by omega)]
    exact congrArg some (by omega)
  refine ⟨t, ?_⟩
  rw [of?]
  simp only [textLines] at ht hfilled hcode
  simp only [ht, hfilled, hcode, Option.bind_eq_bind, Option.bind_some, Option.pure_def]
  exact ⟨_, hholds, rfl, rfl, rfl, hcomment, rfl, rfl, rfl⟩

theorem of_eq {report : Complexity} (h : of? d symbols = some report) : of d symbols = report := by
  rw [of, h]
  rfl

/-- A line of nothing but blanks. -/
def Blank (line : List Char) : Prop := ∀ c ∈ line, Text.Unicode.isBlank c = true

instance (line : List Char) : Decidable (Blank line) := inferInstanceAs (Decidable (∀ c ∈ line, _))

theorem allBlank_eq (line : List Char) : allBlank line = decide (Blank line) := by
  rw [Bool.eq_iff_iff, decide_eq_true_eq, allBlank, List.all_eq_true]
  rfl

/-- The greatest number of levels that are open on a walk, which starts with none. -/
theorem Tally.Holds.isGreatest {language : Language} {lines : List (List Char)} {root : Node}
    {t : Tally} (h : t.Holds language lines (root.visits (nestingKinds language) 0)) :
    IsGreatest {k | ∃ route above n, root.reach? route = some (above, n) ∧
      k = (above ++ [n]).countP fun a => a.named ∧ a.kind ∈ nestingKinds language}
      t.maxNesting := by
  have hattained : ∃ v ∈ root.visits (nestingKinds language) 0, v.2 = t.maxNesting := by
    refine h.attained.elim (fun hzero => ?_) id
    -- If no level is ever open, the root attains the bound as well.
    have hroot : (root, 0 + (root.opens (nestingKinds language)).toNat) ∈
        root.visits (nestingKinds language) 0 := by
      rw [Node.visits_eq]
      exact List.mem_cons_self
    have hle := h.level_le _ hroot
    exact ⟨_, hroot, by omega⟩
  constructor
  · obtain ⟨v, hv, hlevel⟩ := hattained
    obtain ⟨route, above, hroute, hk⟩ := Node.mem_visits_iff.mp hv
    exact ⟨route, above, v.1, hroute, by rw [← hlevel, ← hk, Nat.zero_add, Node.opens_eq]⟩
  · rintro k ⟨route, above, n, hroute, rfl⟩
    have hv := Node.mem_visits_iff.mpr ⟨route, above, hroute, Eq.refl
      (0 + (above ++ [n]).countP (Node.opens (nestingKinds language)))⟩
    have hle := h.level_le _ hv
    rwa [Nat.zero_add, Node.opens_eq] at hle

/-- **The lines of a text are parted into those of code, those of comment and blank ones.**  Every
document has a report, whatever its language, its source and its tree; no count goes below zero on the
way.  The blank lines are those of nothing but blanks.  Of the other lines, those of comment are the
ones on a row of a comment, and those of code are the rest.  The cyclomatic complexity is one more than
there are nodes, named or not, of the kinds that decide, and the nesting is the greatest number of
named nodes of the kinds that nest on a way down from the root. -/
theorem report_partitions (d : Document) (symbols : Symbols) :
    ∃ report, of? d symbols = some report ∧
      report.totalLines = (textLines d).length ∧
      report.totalLines = report.codeLines + report.commentLines + report.blankLines ∧
      report.blankLines = ((textLines d).countP fun line => Blank line) ∧
      report.commentLines =
        ((textLines d).zipIdx.countP fun (line, row) => ¬ Blank line ∧ counted d row = true) ∧
      report.codeLines =
        ((textLines d).zipIdx.countP fun (line, row) => ¬ Blank line ∧ ¬ counted d row = true) ∧
      report.cyclomatic =
        1 + (d.root.preorder.countP fun n => n.kind ∈ decisionKinds d.language) ∧
      IsGreatest {k | ∃ route above n, d.root.reach? route = some (above, n) ∧
        k = (above ++ [n]).countP fun a => a.named ∧ a.kind ∈ nestingKinds d.language}
        report.maxNesting := by
  obtain ⟨t, report, ht, hreport, htotal, hblank, hcomment, hcode, hcyclomatic, hnesting⟩ :=
    exists_report d symbols
  have hlength := length_eq_add (textLines d) (counted d)
  refine ⟨report, hreport, htotal, by omega, ?_, ?_, ?_, ?_, ?_⟩
  · rw [hblank, countBlank, ← List.countP_eq_length_filter]
    exact List.countP_congr fun line _ => by rw [allBlank_eq]
  · rw [hcomment]
    simp [allBlank_eq]
  · rw [hcode]
    simp [allBlank_eq]
  · rw [hcyclomatic, ht.decisions, ← Syntax.Node.map_fst_visits (nestingKinds d.language) 0,
      List.countP_map]
    simp [Function.comp_def]
  · rw [hnesting]
    exact ht.isGreatest

end CodeAtlas.Analysis.Complexity
