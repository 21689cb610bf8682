import CodeAtlas.Syntax.Node

/-!
# Rows of a source

A row is ended by a newline, which still belongs to it, and the last row by the end of the source.
`rowStart` gives the offset where a row starts, and `le_row_iff` is the one fact that ties rows to
offsets: an offset lies in a row or after it exactly if the row starts no later.

A tree over a source (`Node.LiesIn`) has spans whose rows and columns are those of their offsets, so
that what is said of the rows of a node can be said of its octets (`Span.OnLines`).
-/

namespace CodeAtlas.Syntax

variable {source : List UInt8} {r p q : Nat}

/-! ## Where rows start -/

/-- Where a row starts.  A row that there is not starts at the end of the source. -/
def rowStart : List UInt8 → Nat → Nat
  | _, 0 => 0
  | [], _ + 1 => 0
  | octet :: rest, r + 1 => (if octet = 10 then rowStart rest r else rowStart rest (r + 1)) + 1

@[simp] theorem rowStart_zero (source : List UInt8) : rowStart source 0 = 0 := by
  cases source <;> rfl

theorem rowStart_newline (rest : List UInt8) (r : Nat) :
    rowStart (10 :: rest) (r + 1) = rowStart rest r + 1 := rfl

theorem rowStart_cons_of_ne {octet : UInt8} (h : octet ≠ 10) (rest : List UInt8) (r : Nat) :
    rowStart (octet :: rest) (r + 1) = rowStart rest (r + 1) + 1 := by
  rw [rowStart, if_neg h]

theorem rowStart_append_newline {row : List UInt8} (h : 10 ∉ row) (rest : List UInt8) (r : Nat) :
    rowStart (row ++ 10 :: rest) (r + 1) = row.length + (rowStart rest r + 1) := by
  induction row with
  | nil => exact (rowStart_newline rest r).trans (Nat.zero_add _).symm
  | cons octet row ih =>
    obtain ⟨ho, hrow⟩ := not_or.mp (mt List.mem_cons.mpr h)
    rw [List.cons_append, rowStart_cons_of_ne (Ne.symm ho), ih hrow, List.length_cons]
    omega

theorem rowStart_of_count_lt (h : source.count 10 < r) : rowStart source r = source.length := by
  induction source generalizing r with
  | nil =>
    cases r with
    | zero => omega
    | succ r => rfl
  | cons octet rest ih =>
    cases r with
    | zero => omega
    | succ r =>
      by_cases ho : octet = 10
      · subst ho
        rw [List.count_cons_self] at h
        rw [rowStart_newline, ih (by omega), List.length_cons]
      · rw [List.count_cons_of_ne ho] at h
        rw [rowStart_cons_of_ne ho, ih h, List.length_cons]

/-! ## Which row an offset lies in -/

theorem row_foldl_advance (octets : List UInt8) (p : Point) :
    (octets.foldl Point.advance p).row = p.row + octets.count 10 := by
  induction octets generalizing p with
  | nil => rfl
  | cons octet rest ih =>
    rw [List.foldl_cons, ih, Point.advance]
    by_cases ho : octet = 10
    · subst ho
      rw [if_pos rfl, List.count_cons_self]
      exact Nat.add_right_comm _ _ _
    · rw [if_neg ho, List.count_cons_of_ne ho]

/-- The row of an offset is the number of newlines before it. -/
theorem row_ofOffset (source : List UInt8) (p : Nat) :
    (Point.ofOffset source p).row = (source.take p).count 10 := by
  rw [Point.ofOffset, row_foldl_advance, Nat.zero_add]

theorem row_ofOffset_le_count (source : List UInt8) (p : Nat) :
    (Point.ofOffset source p).row ≤ source.count 10 := by
  rw [row_ofOffset]
  exact (List.take_sublist p source).count_le 10

theorem row_ofOffset_mono (source : List UInt8) (h : p ≤ q) :
    (Point.ofOffset source p).row ≤ (Point.ofOffset source q).row := by
  rw [row_ofOffset, row_ofOffset]
  exact (List.take_sublist_take_left h).count_le 10

/-- An offset lies in a row of the source or after it exactly if the row starts no later. -/
theorem le_row_iff (hr : r ≤ source.count 10) :
    r ≤ (Point.ofOffset source p).row ↔ rowStart source r ≤ p := by
  rw [row_ofOffset]
  induction source generalizing r p with
  | nil =>
    obtain rfl := Nat.le_zero.mp hr
    simp
  | cons octet rest ih =>
    cases r with
    | zero => simp
    | succ r =>
      cases p with
      | zero => simp [rowStart]
      | succ p =>
        rw [List.take_succ_cons]
        by_cases ho : octet = 10
        · subst ho
          rw [List.count_cons_self] at hr ⊢
          rw [rowStart_newline, Nat.add_le_add_iff_right, Nat.add_le_add_iff_right]
          exact ih (by omega)
        · rw [List.count_cons_of_ne ho] at hr ⊢
          rw [rowStart_cons_of_ne ho, Nat.add_le_add_iff_right]
          exact ih hr

theorem row_rowStart (hr : r ≤ source.count 10) :
    (Point.ofOffset source (rowStart source r)).row = r := by
  rw [row_ofOffset]
  induction source generalizing r with
  | nil =>
    obtain rfl := Nat.le_zero.mp hr
    rfl
  | cons octet rest ih =>
    cases r with
    | zero => rfl
    | succ r =>
      by_cases ho : octet = 10
      · subst ho
        rw [List.count_cons_self] at hr
        rw [rowStart_newline, List.take_succ_cons, List.count_cons_self, ih (by omega)]
      · rw [List.count_cons_of_ne ho] at hr
        rw [rowStart_cons_of_ne ho, List.take_succ_cons, List.count_cons_of_ne ho, ih hr]

/-- An offset is where its row starts and its column further on. -/
theorem rowStart_add_column (hp : p ≤ source.length) :
    rowStart source (Point.ofOffset source p).row + (Point.ofOffset source p).column = p := by
  induction p with
  | zero => simp [Point.ofOffset]
  | succ p ih =>
    have hstep : Point.ofOffset source (p + 1) =
        (Point.ofOffset source p).advance source[p] := by
      rw [Point.ofOffset, List.take_succ_eq_append_getElem hp, List.foldl_append]
      rfl
    have hcount := row_ofOffset_le_count source (p + 1)
    have ih := ih (Nat.le_of_succ_le hp)
    by_cases ho : source[p] = 10
    · -- The row is a new one, which starts after `p` and no later than right after it.
      rw [Point.advance, if_pos ho] at hstep
      have hrow : (Point.ofOffset source (p + 1)).row = (Point.ofOffset source p).row + 1 :=
        congrArg Point.row hstep
      have hcolumn : (Point.ofOffset source (p + 1)).column = 0 := congrArg Point.column hstep
      have hle := (le_row_iff hcount).mp (Nat.le_refl _)
      have hlt := mt (le_row_iff (p := p) hcount).mpr (by omega)
      omega
    · rw [Point.advance, if_neg ho] at hstep
      rw [hstep]
      simp only
      omega

/-! ## Spans and trees over a source -/

/-- The span is a stretch of the source, with the rows and columns of its two ends. -/
structure Span.LiesIn (s : Span) (source : List UInt8) : Prop where
  ordered : s.startByte ≤ s.endByte
  inside : s.endByte ≤ source.length
  points : s = .ofOffsets source s.startByte s.endByte

instance (s : Span) (source : List UInt8) : Decidable (s.LiesIn source) :=
  decidable_of_iff (s.startByte ≤ s.endByte ∧ s.endByte ≤ source.length ∧
      s = .ofOffsets source s.startByte s.endByte)
    ⟨fun h => ⟨h.1, h.2.1, h.2.2⟩, fun h => ⟨h.ordered, h.inside, h.points⟩⟩

namespace Span.LiesIn

variable {s : Span}

theorem startPoint (h : s.LiesIn source) : s.startPoint = .ofOffset source s.startByte := by
  rw [h.points]
  rfl

theorem endPoint (h : s.LiesIn source) : s.endPoint = .ofOffset source s.endByte := by
  rw [h.points]
  rfl

theorem startRow (h : s.LiesIn source) :
    s.startRow = (Point.ofOffset source s.startByte).row :=
  congrArg Point.row h.startPoint

theorem endRow (h : s.LiesIn source) : s.endRow = (Point.ofOffset source s.endByte).row :=
  congrArg Point.row h.endPoint

end Span.LiesIn

/-- All nodes of a tree lie in the source. -/
def Node.LiesIn (root : Node) (source : List UInt8) : Prop :=
  ∀ n ∈ root.preorder, n.span.LiesIn source

instance (root : Node) (source : List UInt8) : Decidable (root.LiesIn source) :=
  inferInstanceAs (Decidable (∀ n ∈ root.preorder, n.span.LiesIn source))

theorem Node.LiesIn.of_child {child n : Node} (h : n.LiesIn source) (hchild : child ∈ n.children) :
    child.LiesIn source :=
  fun m hm => h m (mem_preorder_of_child hchild hm)

mutual

/-- The spans of the children follow each other within that of the node, and so on below. -/
def Node.nested : Node → Bool
  | .mk label children => nestedFrom label.span.startByte label.span.endByte children

def nestedFrom (start stop : Nat) : List Node → Bool
  | [] => start ≤ stop
  | n :: rest => start ≤ n.span.startByte && n.nested && nestedFrom n.span.endByte stop rest

end

/-! ## Spans on lines -/

/-- Some octet of the span lies on one of the lines, which are counted from one. -/
def Span.OnLines (s : Span) (source : List UInt8) (first last : Nat) : Prop :=
  ∃ p < s.endByte, s.startByte ≤ p ∧ first ≤ (Point.ofOffset source p).row + 1 ∧
    (Point.ofOffset source p).row + 1 ≤ last

instance (s : Span) (source : List UInt8) (first last : Nat) :
    Decidable (s.OnLines source first last) :=
  inferInstanceAs (Decidable (∃ p < s.endByte, s.startByte ≤ p ∧ _ ∧ _))

/-- Whether a span is on lines is told by its two ends and by where the first of the lines starts. -/
theorem Span.LiesIn.onLines_iff {s : Span} {a b : Nat} (h : s.LiesIn source)
    (hs : s.startByte < s.endByte) (ha : 1 ≤ a) (hab : a ≤ b) (hb : b ≤ source.count 10 + 1) :
    s.OnLines source a b ↔ s.startRow < b ∧ rowStart source (a - 1) < s.endByte := by
  have hrow : (Point.ofOffset source (rowStart source (a - 1))).row = a - 1 :=
    row_rowStart (by omega)
  have hstart (p : Nat) :
      a - 1 ≤ (Point.ofOffset source p).row ↔ rowStart source (a - 1) ≤ p :=
    le_row_iff (by omega)
  rw [h.startRow]
  constructor
  · rintro ⟨p, hlt, hle, hfirst, hlast⟩
    have hmono := row_ofOffset_mono source hle
    have hp := (hstart p).mp (by omega)
    omega
  · rintro ⟨hlast, hfirst⟩
    -- The first octet that is in the span and on the lines.
    rcases Nat.le_total (rowStart source (a - 1)) s.startByte with hle | hle
    · have hp := (hstart s.startByte).mpr hle
      exact ⟨s.startByte, hs, Nat.le_refl _, by omega, by omega⟩
    · exact ⟨rowStart source (a - 1), hfirst, hle, by omega, by omega⟩

end CodeAtlas.Syntax
