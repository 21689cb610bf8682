/-! # Tables of runs

A property of code points is stored as consecutive runs that share one value, and looked up by
halving the range of runs that can hold the code point. -/

namespace CodeAtlas.Text.Unicode

/-- The runs in increasing order, each given by its first code point and its value. -/
structure RunTable (α : Type) where
  absent : α
  runs : Array (Nat × α)

namespace RunTable

variable {α : Type}

/-- Lay runs of the given lengths end to end from code point zero. -/
def ofRuns (absent : α) (lengths : List (Nat × α)) : RunTable α where
  absent := absent
  runs := (lengths.foldl (fun (acc, start) (n, a) => (acc.push (start, a), start + n))
    ((#[] : Array (Nat × α)), 0)).1

/-- Look between `lo` (inclusive) and `hi` (exclusive) for the last run that starts at or before
the code point.  The range halves at each step, so its length is fuel enough. -/
def search (t : RunTable α) (code : Nat) : Nat → Nat → Nat → α
  | 0, lo, _ => ((t.runs[lo]?).map Prod.snd).getD t.absent
  | fuel + 1, lo, hi =>
    if hi ≤ lo + 1 then ((t.runs[lo]?).map Prod.snd).getD t.absent
    else
      let mid := (lo + hi) / 2
      if ((t.runs[mid]?).map Prod.fst).getD 0 ≤ code then t.search code fuel mid hi
      else t.search code fuel lo mid

def get (t : RunTable α) (code : Nat) : α :=
  t.search code (t.runs.size.log2 + 2) 0 t.runs.size

end RunTable

/-- Membership in a list of inclusive ranges. -/
def inRanges (ranges : List (Nat × Nat)) (code : Nat) : Bool :=
  ranges.any fun (lo, hi) => lo ≤ code && code ≤ hi

end CodeAtlas.Text.Unicode
