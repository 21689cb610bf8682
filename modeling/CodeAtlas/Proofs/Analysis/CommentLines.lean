import CodeAtlas.Proofs.Analysis.Tally
import CodeAtlas.Proofs.Syntax.Ranges
import CodeAtlas.Proofs.Text.Lines

/-!
# Lines of comment

Which lines belong to a comment is counted over the lines of the text by the rows of the comments.
Said of octets, a line that is counted has an octet of a comment on it, or a comment ends where the
line starts: its last octet is then the newline before.  Such a line is counted as a comment and is
missing among the lines of code (`commentLines_spec`, `commentLines_after_note`).
-/

namespace CodeAtlas.Analysis.Complexity

open Syntax (Node rowStart le_row_iff)
open Text (allBlank rowOctets)
open Text.Utf8 (decodeLossy)

variable {source : List UInt8} {n : Node} {r : Nat}

/-! ## One comment and one row -/

/-- The node has no octet on the row, but ends where the row starts; or it has no octets at all and
stands on the row, with nothing but blanks before it. -/
def EndsBefore (source : List UInt8) (n : Node) (r : Nat) : Prop :=
  n.span.startByte < n.span.endByte ∧ n.span.endByte = rowStart source r ∨
    n.span.startByte = n.span.endByte ∧ n.span.startRow = r ∧
      codeBefore (Text.lines (decodeLossy source)) n = false

instance (source : List UInt8) (n : Node) (r : Nat) : Decidable (EndsBefore source n r) :=
  inferInstanceAs (Decidable (_ ∧ _ ∨ _ ∧ _))

theorem covers_eq_true_iff (lines : List (List Char)) (n : Node) (r : Nat) :
    covers lines n r = true ↔
      n.span.startRow ≤ r ∧ r ≤ n.span.endRow ∧
        (codeBefore lines n = true → n.span.startRow < r) := by
  rw [covers]
  cases codeBefore lines n
  · simp
  · simp
    omega

/-- A comment covers a row that it has no octet on exactly if it ends before it. -/
theorem covers_iff_endsBefore (h : n.span.LiesIn source) (hr : r ≤ source.count 10)
    (hoff : ¬ n.span.OnLines source (r + 1) (r + 1)) :
    covers (Text.lines (decodeLossy source)) n r = true ↔ EndsBefore source n r := by
  have hfirst : r ≤ n.span.startRow ↔ rowStart source r ≤ n.span.startByte := by
    rw [h.startRow]
    exact le_row_iff hr
  have hlast : r ≤ n.span.endRow ↔ rowStart source r ≤ n.span.endByte := by
    rw [h.endRow]
    exact le_row_iff hr
  rw [covers_eq_true_iff, EndsBefore]
  rcases Nat.lt_or_eq_of_le h.ordered with hs | hs
  · rw [h.onLines_iff hs (by omega) (Nat.le_refl _) (by omega), Nat.add_sub_cancel] at hoff
    constructor
    · rintro ⟨hstart, hend, -⟩
      exact .inl ⟨hs, by omega⟩
    · rintro (⟨-, hend⟩ | ⟨heq, -⟩)
      · exact ⟨by omega, by omega, fun _ => by omega⟩
      · omega
  · have hrows : n.span.startRow = n.span.endRow := by rw [h.startRow, h.endRow, hs]
    constructor
    · rintro ⟨hstart, hend, hcode⟩
      refine .inr ⟨hs, by omega, Bool.eq_false_iff.mpr fun hbefore => ?_⟩
      have hlt := hcode hbefore
      omega
    · rintro (⟨hlt, -⟩ | ⟨-, hrow, hcode⟩)
      · omega
      · rw [hcode]
        exact ⟨by omega, by omega, nofun⟩

/-! ## The rows of a document -/

variable {d : Document}

/-- Whether a comment has an octet on the row. -/
def OnComment (d : Document) (r : Nat) : Prop :=
  ∃ n ∈ comments d, n.span.OnLines d.source (r + 1) (r + 1)

/-- Whether a comment ends before the row. -/
def AfterComment (d : Document) (r : Nat) : Prop :=
  ∃ n ∈ comments d, EndsBefore d.source n r

instance (d : Document) (r : Nat) : Decidable (OnComment d r) :=
  inferInstanceAs (Decidable (∃ n ∈ comments d, n.span.OnLines d.source (r + 1) (r + 1)))

instance (d : Document) (r : Nat) : Decidable (AfterComment d r) :=
  inferInstanceAs (Decidable (∃ n ∈ comments d, EndsBefore d.source n r))

/-- The rows of the source that are not blank. -/
def filledRows (d : Document) : List Nat :=
  (List.range (d.source.count 10 + 1)).filter fun r =>
    !allBlank (decodeLossy (rowOctets d.source r))

/-- The rows that count as comment. -/
def commentRows (d : Document) : List Nat := (filledRows d).filter (counted d)

/-- The rows that are not blank and that no comment has an octet on. -/
def bareRows (d : Document) : List Nat := (filledRows d).filter fun r => ¬ OnComment d r

theorem le_count_of_mem_filledRows (h : r ∈ filledRows d) : r ≤ d.source.count 10 :=
  Nat.le_of_lt_succ (List.mem_range.mp (List.mem_filter.mp h).1)

/-- A row without an octet of a comment counts as comment exactly if a comment ends before it. -/
theorem counted_iff_afterComment (htree : d.root.LiesIn d.source) (hr : r ≤ d.source.count 10)
    (hbare : ¬ OnComment d r) : counted d r = true ↔ AfterComment d r := by
  rw [counted, List.any_eq_true]
  refine exists_congr fun n => and_congr_right fun hn => ?_
  exact covers_iff_endsBefore (htree n (List.mem_filter.mp hn).1) hr fun hon => hbare ⟨n, hn, hon⟩

/-! ## Counting lines by rows -/

/-- The lines that are not blank are the rows that are not. -/
theorem countP_lines (d : Document) (q : Nat → Bool) :
    (Text.lines (decodeLossy d.source)).zipIdx.countP (fun p => !allBlank p.1 && q p.2) =
      (filledRows d).countP q := by
  rw [countP_zipIdx (fun line i => !allBlank line && q i) _ 0 _ (Text.length_lines_le d.source),
    ← List.range_eq_range', filledRows, List.countP_filter]
  congr 1
  funext i
  rw [← Text.any_getElem?_lines, Nat.sub_zero]
  cases (Text.lines (decodeLossy d.source))[i]? with
  | none => exact (Bool.and_false _).symm
  | some line => exact Bool.and_comm _ _

theorem commentLines_eq (d : Document) (symbols : Symbols) :
    (Complexity.of d symbols).commentLines = (commentRows d).length := by
  obtain ⟨t, report, -, hreport, -, -, hcomment, -⟩ := exists_report d symbols
  rw [of_eq hreport, hcomment, commentRows, ← List.countP_eq_length_filter]
  exact countP_lines d (counted d)

/-- The lines of code are the rows that are not blank and do not count as comment. -/
theorem codeLines_eq (d : Document) (symbols : Symbols) :
    (Complexity.of d symbols).codeLines = (filledRows d).countP fun r => ¬ counted d r := by
  obtain ⟨t, report, -, hreport, -, -, -, hcode, -⟩ := exists_report d symbols
  rw [of_eq hreport, hcode, ← countP_lines d fun r => ¬ counted d r]
  simp [textLines]

/-! ## Documents -/

/-- **A line of comment has a comment on it, or comes after one.**  For every document whose tree is
over its source, the lines of comment are rows that are not blank, and each of them has an octet of a
comment on it or a comment that ends before it.  All of them have an octet of a comment exactly if no
comment ends before a row that is not blank and has none; and only such rows can be missing among the
lines of code. -/
theorem commentLines_spec (d : Document) (symbols : Symbols) (htree : d.root.LiesIn d.source) :
    (Complexity.of d symbols).commentLines = (commentRows d).length ∧
    (∀ r ∈ commentRows d, OnComment d r ∨ AfterComment d r) ∧
    ((∀ r ∈ commentRows d, OnComment d r) ↔ ∀ r ∈ bareRows d, ¬ AfterComment d r) ∧
    (bareRows d).length ≤
      (Complexity.of d symbols).codeLines + (bareRows d).countP fun r => AfterComment d r := by
  have hbare (r : Nat) (hr : r ∈ bareRows d) :
      r ∈ filledRows d ∧ ¬ OnComment d r ∧ (counted d r = true ↔ AfterComment d r) := by
    obtain ⟨hfilled, hoff⟩ := List.mem_filter.mp hr
    have hoff := of_decide_eq_true hoff
    exact ⟨hfilled, hoff,
      counted_iff_afterComment htree (le_count_of_mem_filledRows hfilled) hoff⟩
  have hcomment (r : Nat) (hr : r ∈ commentRows d) (hoff : ¬ OnComment d r) :
      r ∈ bareRows d ∧ AfterComment d r := by
    obtain ⟨hfilled, hcounted⟩ := List.mem_filter.mp hr
    have hmem : r ∈ bareRows d := List.mem_filter.mpr ⟨hfilled, decide_eq_true hoff⟩
    exact ⟨hmem, (hbare r hmem).2.2.mp hcounted⟩
  refine ⟨commentLines_eq d symbols, fun r hr => ?_, ⟨fun hon r hr hafter => ?_, fun hnone r hr => ?_⟩,
    ?_⟩
  · rcases Decidable.em (OnComment d r) with hon | hoff
    · exact .inl hon
    · exact .inr (hcomment r hr hoff).2
  · obtain ⟨hfilled, hoff, hiff⟩ := hbare r hr
    exact hoff (hon r (List.mem_filter.mpr ⟨hfilled, hiff.mpr hafter⟩))
  · refine Decidable.byContradiction fun hoff => ?_
    obtain ⟨hmem, hafter⟩ := hcomment r hr hoff
    exact hnone r hmem hafter
  · -- The bare rows that do not count as comment are lines of code.
    have hcode : (bareRows d).countP (fun r => ¬ AfterComment d r) ≤
        (filledRows d).countP fun r => ¬ counted d r := by
      refine Nat.le_trans (List.countP_mono_left fun r hr hafter => ?_)
        (List.filter_sublist.countP_le)
      have hiff := (hbare r hr).2.2
      simpa [hiff] using hafter
    have hlength := List.length_eq_countP_add_countP (fun r => decide (AfterComment d r))
      (l := bareRows d)
    simp only [decide_eq_true_eq] at hlength
    rw [codeLines_eq, hlength]
    omega

/-! ## A comment with its newline -/

open Syntax (noted notedSource noted_liesIn)

/-- A document of a comment for documentation and the function below it. -/
def notedDocument : Document where
  project := "demo"
  path := ["f.rs"]
  language := .rust
  fingerprint := ⟨16, some 7, ""⟩
  source := notedSource
  tree := .ofRoot noted false

def notedSymbols : Symbols where
  path := "f.rs"
  language := .rust
  functions := [⟨"f", "function_item", .ofOffsets notedSource 6 15⟩]
  classes := []
  imports := []

/-- The row of the function is the one that counts as comment after a comment, and the one that is
missing among the lines of code. -/
theorem commentLines_spec_noted :
    notedDocument.root.LiesIn notedDocument.source ∧
    (Complexity.of notedDocument notedSymbols).commentLines = 2 ∧
    (¬ ∀ r ∈ commentRows notedDocument, OnComment notedDocument r) ∧
    (bareRows notedDocument).length ≤ (Complexity.of notedDocument notedSymbols).codeLines + 1 := by
  obtain ⟨hlines, -, hiff, hcode⟩ := commentLines_spec notedDocument notedSymbols noted_liesIn
  obtain ⟨hcomment, hbare, hafter, hcount⟩ : (commentRows notedDocument).length = 2 ∧
      1 ∈ bareRows notedDocument ∧ AfterComment notedDocument 1 ∧
      (bareRows notedDocument).countP (fun r => AfterComment notedDocument r) = 1 := by
    decide +kernel
  rw [hcomment] at hlines
  rw [hcount] at hcode
  exact ⟨noted_liesIn, hlines, fun hall => hiff.mp hall 1 hbare hafter, hcode⟩

/-- The line of the function has no octet of the comment, and still both lines are lines of comment
and none is a line of code. -/
theorem commentLines_after_note :
    notedDocument.root.LiesIn notedDocument.source ∧ notedDocument.root.nested = true ∧
    commentRows notedDocument = [0, 1] ∧ ¬ OnComment notedDocument 1 ∧
    bareRows notedDocument = [1] ∧
    (Complexity.of notedDocument notedSymbols).commentLines = 2 ∧
    (Complexity.of notedDocument notedSymbols).codeLines = 0 := by
  refine ⟨noted_liesIn, ?_⟩
  decide +kernel

end CodeAtlas.Analysis.Complexity
