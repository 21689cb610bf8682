import CodeAtlas.Proofs.Syntax.Projection
import CodeAtlas.Proofs.Syntax.Rows

/-!
# Ranges of lines and of octets

Some lines of a source are also a stretch of its octets, from where the first of them starts to
where the line after the last one starts.  The range of octets touches a span exactly if an octet of
the span is on the lines.  The range of lines goes by the rows of the two ends, and the end of a span
is the place after its last octet: a span whose last octet is the newline before the lines has its
end on the first of them, and is touched as well.

That is the only difference between the two (`lines_overlaps_iff_bytes`), and comments that include
their newline make it visible (`lines_overlaps_note`).
-/

namespace CodeAtlas.Syntax

variable {source : List UInt8} {s : Span} {root : Node} {a b : Nat}

/-! ## Single spans -/

theorem overlaps_bytes_iff (start stop : Nat) :
    (Range.bytes start stop).overlaps s = true ↔ s.startByte < stop ∧ start < s.endByte := by
  simp [Range.overlaps]

theorem overlaps_lines_iff (ha : 1 ≤ a) (hab : a ≤ b) :
    (Range.lines a b).overlaps s = true ↔ s.startRow < b ∧ a ≤ s.endRow + 1 := by
  simp only [Range.overlaps, Bool.and_eq_true, decide_eq_true_eq]
  omega

/-- A span starts before the end of the lines exactly if its first row is one of them or before. -/
theorem Span.LiesIn.startByte_lt_iff (h : s.LiesIn source) (hs : s.startByte < s.endByte)
    (hb : b ≤ source.count 10 + 1) : s.startByte < rowStart source b ↔ s.startRow < b := by
  rw [h.startRow]
  rcases Nat.lt_or_ge (source.count 10) b with hlast | hlast
  · -- The last of the lines is the last one of the source.
    rw [rowStart_of_count_lt hlast]
    have hrow := row_ofOffset_le_count source s.startByte
    have hinside := h.inside
    omega
  · have hiff := le_row_iff (p := s.startByte) hlast
    omega

/-- The octets of the lines touch a span exactly if it has an octet on them. -/
theorem Span.LiesIn.overlaps_bytes_iff_onLines (h : s.LiesIn source)
    (hs : s.startByte < s.endByte) (ha : 1 ≤ a) (hab : a ≤ b) (hb : b ≤ source.count 10 + 1) :
    (Range.bytes (rowStart source (a - 1)) (rowStart source b)).overlaps s = true ↔
      s.OnLines source a b := by
  rw [overlaps_bytes_iff, h.startByte_lt_iff hs hb, h.onLines_iff hs ha hab hb]

/-- The lines touch one span more than their octets, which ends where the first line starts. -/
theorem Span.LiesIn.overlaps_lines_iff_onLines (h : s.LiesIn source)
    (hs : s.startByte < s.endByte) (ha : 1 ≤ a) (hab : a ≤ b) (hb : b ≤ source.count 10 + 1) :
    (Range.lines a b).overlaps s = true ↔
      s.OnLines source a b ∨ s.endByte = rowStart source (a - 1) := by
  have hfirst : a - 1 ≤ s.endRow ↔ rowStart source (a - 1) ≤ s.endByte := by
    rw [h.endRow]
    exact le_row_iff (by omega)
  -- A span that ends where the first line starts has started before it.
  have hbefore : s.endByte = rowStart source (a - 1) → s.startRow < b := by
    intro hend
    rw [h.startRow]
    have hlast : a - 1 ≤ source.count 10 := by omega
    have hstart := mt (le_row_iff (p := s.startByte) hlast).mp (by omega)
    omega
  rw [overlaps_lines_iff ha hab, h.onLines_iff hs ha hab hb]
  omega

/-! ## Trees -/

/-- **A range of lines is the range of their octets, but for spans that end where the lines start.**
For every tree over a source and lines of it, the two touch the same nodes that are not empty, and
the lines those besides that end where the first line starts; so they agree on a tree exactly if it
has none of these.  In an outline for the lines, a node below the root that is not empty has an octet
on them, or ends where they start. -/
theorem lines_overlaps_iff_bytes (htree : root.LiesIn source) (ha : 1 ≤ a) (hab : a ≤ b)
    (hb : b ≤ source.count 10 + 1) :
    let lines := Range.lines a b
    let octets := Range.bytes (rowStart source (a - 1)) (rowStart source b)
    let filled := root.preorder.filter fun n => n.span.startByte < n.span.endByte
    (∀ n ∈ filled, lines.overlaps n.span = true ↔
      octets.overlaps n.span = true ∨ n.span.endByte = rowStart source (a - 1)) ∧
    ((∀ n ∈ filled, lines.overlaps n.span = octets.overlaps n.span) ↔
      ∀ n ∈ filled, n.span.endByte ≠ rowStart source (a - 1)) ∧
    ∀ options : Outline.Options, options.range = some lines →
      ∀ row ∈ (Outline.ofRoot root source options).rows 0, 0 < row.1 →
        row.2.span.startByte < row.2.span.endByte →
        row.2.span.OnLines source a b ∨ row.2.span.endByte = rowStart source (a - 1) := by
  intro lines octets filled
  have hnode : ∀ n ∈ filled, lines.overlaps n.span = true ↔
      octets.overlaps n.span = true ∨ n.span.endByte = rowStart source (a - 1) := by
    intro n hn
    obtain ⟨hn, hfilled⟩ := List.mem_filter.mp hn
    have hs : n.span.startByte < n.span.endByte := of_decide_eq_true hfilled
    rw [(htree n hn).overlaps_lines_iff_onLines hs ha hab hb,
      (htree n hn).overlaps_bytes_iff_onLines hs ha hab hb]
  refine ⟨hnode, ⟨fun hsame n hn hend => ?_, fun hnone n hn => ?_⟩, ?_⟩
  · have hoctets := hsame n hn ▸ (hnode n hn).mpr (.inr hend)
    have hlt := ((overlaps_bytes_iff _ _).mp hoctets).2
    omega
  · rw [Bool.eq_iff_iff, hnode n hn, or_iff_left (hnone n hn)]
  · intro options hrange row hrow hdepth hs
    rw [Outline.ofRoot_eq] at hrow
    obtain ⟨-, n, hn, hspan, htop | hwants⟩ := Outline.rows_projection _ 0 _ root row hrow
    · omega
    · rw [hspan] at hs ⊢
      refine ((htree n hn).overlaps_lines_iff_onLines hs ha hab hb).mp ?_
      rw [Outline.Options.wants, hrange] at hwants
      exact hwants

/-! ## A comment with its newline -/

/-- A comment for documentation, and the function below it. -/
def notedSource : List UInt8 :=
  Text.Utf8.encode "/// a\nfn f() \x7b\x7d\n".toList

/-- A node of some kind between two offsets. -/
def notedNode (kind : String) (named : Bool) (field : Option String) (start stop : Nat)
    (children : List Node) : Node :=
  .mk { kind, named, missing := false, error := false, field,
        span := .ofOffsets notedSource start stop } children

def noted : Node :=
  notedNode "source_file" true none 0 16 [
    notedNode "line_comment" true none 0 6 [
      notedNode "//" false none 0 2 [],
      notedNode "outer_doc_comment_marker" true (some "outer") 2 3 [
        notedNode "/" false none 2 3 []],
      notedNode "doc_comment" true (some "doc") 3 6 []],
    notedNode "function_item" true none 6 15 [
      notedNode "fn" false none 6 8 [],
      notedNode "identifier" true (some "name") 9 10 [],
      notedNode "parameters" true (some "parameters") 10 12 [
        notedNode "(" false none 10 11 [],
        notedNode ")" false none 11 12 []],
      notedNode "block" true (some "body") 13 15 [
        notedNode "\x7b" false none 13 14 [],
        notedNode "\x7d" false none 14 15 []]]]

theorem noted_liesIn : noted.LiesIn notedSource := by decide +kernel

/-- On the first line the two ranges agree. -/
theorem lines_overlaps_iff_bytes_noted :
    noted.LiesIn notedSource ∧ 1 ≤ 1 ∧ 1 ≤ notedSource.count 10 + 1 ∧
    (∀ n ∈ noted.preorder.filter fun n => n.span.startByte < n.span.endByte,
      (Range.lines 1 1).overlaps n.span =
        (Range.bytes (rowStart notedSource 0) (rowStart notedSource 1)).overlaps n.span) := by
  have hlast : 1 ≤ notedSource.count 10 + 1 := Nat.le_add_left 1 _
  have hends : ∀ n ∈ noted.preorder.filter fun n => n.span.startByte < n.span.endByte,
      n.span.endByte ≠ rowStart notedSource (1 - 1) := by decide +kernel
  have hsame :=
    (lines_overlaps_iff_bytes noted_liesIn (Nat.le_refl 1) (Nat.le_refl 1) hlast).2.1.mpr hends
  exact ⟨noted_liesIn, Nat.le_refl 1, hlast, hsame⟩

/-- The second line touches the comment on the first one, whose octets are all before it, and an
outline for the second line shows the comment. -/
theorem lines_overlaps_note :
    noted.LiesIn notedSource ∧ noted.nested = true ∧ notedSource.count 10 + 1 = 3 ∧
    ∃ n ∈ noted.preorder, n.kind = "line_comment" ∧ n.span.startByte < n.span.endByte ∧
      (Range.lines 2 2).overlaps n.span = true ∧
      (Range.bytes (rowStart notedSource 1) (rowStart notedSource 2)).overlaps n.span = false ∧
      ¬ n.span.OnLines notedSource 2 2 ∧
      ∃ row ∈ (Outline.ofRoot noted notedSource { range := some (.lines 2 2) }).rows 0,
        row.1 = 1 ∧ row.2.kind = "line_comment" ∧ row.2.span = n.span := by
  refine ⟨noted_liesIn, ?_⟩
  decide +kernel

end CodeAtlas.Syntax
