import CodeAtlas.Number.Unsigned
import CodeAtlas.Syntax.Cursor

/-! # Traversals with a cursor

A traversal goes down to the first child as long as there is one, and otherwise up until a node has a
sibling after it.  It enters a node when it comes to it from above or from the side, and leaves it when
all of its children are left.  Nothing is remembered of the way but the cursor. -/

namespace CodeAtlas.Syntax

namespace Cursor

variable {σ ρ : Type}

/-! ## The loop -/

def remainingAbove : List (Node × List Node) → Nat
  | [] => 0
  | (_, after) :: above => Node.sizeAll after + remainingAbove above

/-- The number of nodes that are not passed yet, with the one where the cursor stands. -/
def remaining (c : Cursor) : Nat :=
  c.node.size + Node.sizeAll c.after + remainingAbove c.above

theorem remaining_firstChild? {c first : Cursor} (h : c.firstChild? = some first) :
    first.remaining < c.remaining := by
  obtain ⟨⟨label, children⟩, after, above⟩ := c
  cases children with
  | nil => cases h
  | cons n rest =>
    obtain rfl := Option.some.inj h
    simp only [remaining, remainingAbove, Node.size, Node.sizeAll]
    omega

theorem remaining_nextSibling? {c next : Cursor} (h : c.nextSibling? = some next) :
    next.remaining ≤ Node.sizeAll c.after + remainingAbove c.above := by
  obtain ⟨n, after, above⟩ := c
  cases after with
  | nil => cases h
  | cons m rest =>
    obtain rfl := Option.some.inj h
    exact Nat.le_refl _

theorem above_parent? {c up : Cursor} (h : c.parent? = some up) :
    ∃ n, c.above = (n, up.after) :: up.above := by
  obtain ⟨n, after, above⟩ := c
  cases above with
  | nil => cases h
  | cons a above =>
    obtain rfl := Option.some.inj h
    exact ⟨a.1, rfl⟩

/-- Leave the node where the cursor stands, and the nodes above it, until one has a sibling after it to
go on with.  To leave a node may end the traversal. -/
def turn (leave : Cursor → σ → Except ρ σ) (c : Cursor) (s : σ) : Except ρ (Option Cursor × σ) :=
  match leave c s with
  | .error r => .error r
  | .ok s =>
    match c.nextSibling? with
    | some next => .ok (some next, s)
    | none =>
      match _ : c.parent? with
      | some up => turn leave up s
      | none => .ok (none, s)
termination_by c.above.length
decreasing_by
  obtain ⟨n, habove⟩ := above_parent? ‹c.parent? = some up›
  rw [habove]
  exact Nat.lt_succ_self _

theorem remaining_turn {leave : Cursor → σ → Except ρ σ} {c next : Cursor} {s s' : σ}
    (h : turn leave c s = .ok (some next, s')) :
    next.remaining ≤ Node.sizeAll c.after + remainingAbove c.above := by
  induction c, s using turn.induct leave with
  | case1 c s r hleave =>
    rw [turn, hleave] at h
    cases h
  | case2 c s t hleave next' hnext =>
    rw [turn, hleave] at h
    simp only [hnext] at h
    cases h
    exact remaining_nextSibling? hnext
  | case3 c s t hleave hnext up hup ih =>
    rw [turn, hleave] at h
    simp only [hnext] at h
    split at h
    next up' hup' =>
      obtain rfl := Option.some.inj (hup.symm.trans hup')
      obtain ⟨n, habove⟩ := above_parent? hup
      rw [habove, remainingAbove]
      exact Nat.le_trans (ih h) (Nat.le_add_left _ _)
    next hnone => cases hup.symm.trans hnone
  | case4 c s t hleave hnext hup =>
    rw [turn, hleave] at h
    simp only [hnext] at h
    split at h
    next up' hup' => cases hup.symm.trans hup'
    next => cases h

/-- Enter the node where the cursor stands and go through all nodes from there on. -/
def traverse (enter : Cursor → σ → σ) (leave : Cursor → σ → Except ρ σ) (c : Cursor) (s : σ) :
    Except ρ σ :=
  match _ : c.firstChild? with
  | some first => traverse enter leave first (enter c s)
  | none =>
    match _ : turn leave c (enter c s) with
    | .ok (some next, s) => traverse enter leave next s
    | .ok (none, s) => .ok s
    | .error r => .error r
termination_by c.remaining
decreasing_by
  · exact remaining_firstChild? ‹_›
  · have hnext := remaining_turn ‹_›
    have hsize := c.node.size_pos
    unfold remaining at *
    omega

/-! ## Kinds -/

def noteKind (c : Cursor) (kinds : List String) : List String :=
  if c.node.named then c.node.kind :: kinds else kinds

/-- End a traversal with what it has when a node is left. -/
def stopAt (start c : Cursor) (kinds : List String) : Except (List String) (List String) :=
  if c.samePlace start then .error kinds else .ok kinds

/-- The kinds of the named nodes that are entered before the node where the cursor starts is left. -/
def kindsFrom (start : Cursor) : List String :=
  match start.traverse noteKind (stopAt start) [] with
  | .ok kinds | .error kinds => kinds.reverse

/-- The kinds of the named nodes from where a cursor stands down, each one before those below it. -/
def kindSequence (c : Cursor) : List String :=
  c.anew.kindsFrom

end Cursor

def Node.kindSequence (n : Node) : List String :=
  Cursor.kindSequence { node := n }

/-! ## Levels -/

/-- Whether a node opens a level, which named nodes of some kinds do. -/
def Node.opens (nesting : List String) (n : Node) : Bool :=
  n.named && nesting.contains n.kind

/-- What is known on a walk. -/
structure Walk (σ : Type) where
  /-- For each node that is not left yet, the nearest one first, whether it opened a level. -/
  opened : List Bool := []
  /-- The number of open levels. -/
  level : Nat := 0
  result : σ

namespace Walk

variable {σ : Type}

def enter (nesting : List String) (visit : σ → Node → Nat → σ) (n : Node) (w : Walk σ) : Walk σ :=
  let level := if n.opens nesting then w.level + 1 else w.level
  { opened := n.opens nesting :: w.opened, level, result := visit w.result n level }

/-- Close the level that a node opened.  This fails if no level is open. -/
def leave (w : Walk σ) : Except Unit (Walk σ) :=
  match w.opened with
  | true :: opened =>
    match Number.sub? w.level 1 with
    | some level => .ok { w with opened, level }
    | none => .error ()
  | false :: opened => .ok { w with opened }
  | [] => .ok w

end Walk

/-- Visit the nodes from where a cursor stands down, each with the number of levels that are open
there.  There is no result if a level is closed that is not open. -/
def walk? {σ : Type} (nesting : List String) (visit : σ → Node → Nat → σ) (init : σ) (c : Cursor) :
    Option σ :=
  let outcome := c.anew.traverse (fun c w => w.enter nesting visit c.node) (fun _ w => w.leave)
    { result := init }
  outcome.toOption.map Walk.result

end CodeAtlas.Syntax
