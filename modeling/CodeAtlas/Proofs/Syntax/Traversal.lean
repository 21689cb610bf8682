import CodeAtlas.Proofs.Syntax.Routes
import CodeAtlas.Syntax.Traversal

/-!
# A traversal goes through a subtree in pre-order

A cursor has no stack of its own for what is left to do: after a node it goes to the first child, to
a sibling, or up.  What it does is nevertheless what a recursion over the tree does (`within`), which
enters a node, goes through its children and leaves each of them.  The traversal from a node is this
recursion for the node, followed by the turn that leaves the node itself (`traverse_mk`).  The loop
is opened nowhere else: its two uses are recursions over the tree that differ in what they do at a
node.

* The kinds of a node end where the node is left, because the cursor is then back in its place
  (`kindsFrom_eq`).  This needs no bound for the cursor: siblings after the node and nodes above it may
  well be there to go to.
* On a walk the flags of the open nodes are as deep as the cursor is, and a level is closed by the
  node that opened it, so the counter never goes below zero (`within_walk`).
-/

namespace CodeAtlas.Syntax

namespace Cursor

variable {σ ρ : Type} {enter : Cursor → σ → σ} {leave : Cursor → σ → Except ρ σ}

/-! ## The recursion -/

mutual

/-- Enter a node and go through everything below it. -/
def within (enter : Cursor → σ → σ) (leave : Cursor → σ → Except ρ σ) :
    Node → List Node → List (Node × List Node) → σ → Except ρ σ
  | .mk label children, after, above, s =>
    among enter leave children ((.mk label children, after) :: above)
      (enter ⟨.mk label children, after, above⟩ s)

/-- Go through some siblings, and leave each of them before the next one is entered. -/
def among (enter : Cursor → σ → σ) (leave : Cursor → σ → Except ρ σ) :
    List Node → List (Node × List Node) → σ → Except ρ σ
  | [], _, s => .ok s
  | n :: rest, above, s => do
    let s ← within enter leave n rest above s
    let s ← leave ⟨n, rest, above⟩ s
    among enter leave rest above s

end

/-- What is left to do when everything below a node is done. -/
def finish (enter : Cursor → σ → σ) (leave : Cursor → σ → Except ρ σ) (c : Cursor) (s : σ) :
    Except ρ σ := do
  match ← turn leave c s with
  | (some next, s) => traverse enter leave next s
  | (none, s) => .ok s

theorem ok_bind {τ : Type} (s : σ) (f : σ → Except ρ τ) : (Except.ok s >>= f) = f s := rfl

/-! ## One turn of the loop -/

theorem turn_nextSibling (n next : Node) (rest : List Node) (above : List (Node × List Node))
    (s : σ) :
    turn leave ⟨n, next :: rest, above⟩ s =
      leave ⟨n, next :: rest, above⟩ s >>= fun s => .ok (some ⟨next, rest, above⟩, s) := by
  rw [turn]
  cases leave ⟨n, next :: rest, above⟩ s <;> rfl

theorem turn_parent (n up : Node) (after : List Node) (above : List (Node × List Node)) (s : σ) :
    turn leave ⟨n, [], (up, after) :: above⟩ s =
      leave ⟨n, [], (up, after) :: above⟩ s >>= turn leave ⟨up, after, above⟩ := by
  rw [turn]
  cases leave ⟨n, [], (up, after) :: above⟩ s <;> rfl

theorem turn_top (n : Node) (s : σ) :
    turn leave ⟨n, [], []⟩ s = leave ⟨n, [], []⟩ s >>= fun s => .ok (none, s) := by
  rw [turn]
  cases leave ⟨n, [], []⟩ s <;> rfl

theorem finish_nextSibling (n next : Node) (rest : List Node) (above : List (Node × List Node))
    (s : σ) :
    finish enter leave ⟨n, next :: rest, above⟩ s =
      leave ⟨n, next :: rest, above⟩ s >>= traverse enter leave ⟨next, rest, above⟩ := by
  rw [finish, turn_nextSibling]
  cases leave ⟨n, next :: rest, above⟩ s <;> rfl

theorem finish_parent (n up : Node) (after : List Node) (above : List (Node × List Node)) (s : σ) :
    finish enter leave ⟨n, [], (up, after) :: above⟩ s =
      leave ⟨n, [], (up, after) :: above⟩ s >>= finish enter leave ⟨up, after, above⟩ := by
  rw [finish, turn_parent]
  cases leave ⟨n, [], (up, after) :: above⟩ s <;> rfl

theorem finish_top (n : Node) (s : σ) :
    finish enter leave ⟨n, [], []⟩ s = leave ⟨n, [], []⟩ s := by
  rw [finish, turn_top]
  cases leave ⟨n, [], []⟩ s <;> rfl

theorem traverse_of_leaf {c : Cursor} (h : c.firstChild? = none) (s : σ) :
    traverse enter leave c s = finish enter leave c (enter c s) := by
  rw [traverse, finish]
  split
  next first hfirst => cases h.symm.trans hfirst
  next =>
    split
    all_goals
      rename_i hturn
      rw [hturn]
      rfl

theorem traverse_of_firstChild {c first : Cursor} (h : c.firstChild? = some first) (s : σ) :
    traverse enter leave c s = traverse enter leave first (enter c s) := by
  rw [traverse]
  split
  next first' hfirst =>
    obtain rfl := Option.some.inj (h.symm.trans hfirst)
    rfl
  next hnone => cases h.symm.trans hnone

/-! ## The loop is the recursion -/

mutual

theorem traverse_mk : ∀ (n : Node) (after : List Node) (above : List (Node × List Node)) (s : σ),
    traverse enter leave ⟨n, after, above⟩ s =
      within enter leave n after above s >>= finish enter leave ⟨n, after, above⟩
  | .mk label [], after, above, s => by
    rw [traverse_of_leaf rfl, within, among]
    rfl
  | .mk label (m :: rest), after, above, s => by
    rw [traverse_of_firstChild rfl, within]
    exact traverse_among (m :: rest) (.mk label (m :: rest)) after above (enter _ s) m rest rfl

theorem traverse_among : ∀ (ns : List Node) (up : Node) (after : List Node)
    (above : List (Node × List Node)) (s : σ) (m : Node) (rest : List Node), ns = m :: rest →
    traverse enter leave ⟨m, rest, (up, after) :: above⟩ s =
      among enter leave ns ((up, after) :: above) s >>= finish enter leave ⟨up, after, above⟩
  | [], _, _, _, _, _, _, h => nomatch h
  | n :: ns, up, after, above, s, m, rest, h => by
    obtain ⟨rfl, rfl⟩ := List.cons.inj h
    rw [traverse_mk n ns ((up, after) :: above) s, among]
    simp only [bind_assoc]
    congr 1
    funext s
    cases hns : ns with
    | nil =>
      rw [finish_parent]
      rfl
    | cons next rest =>
      rw [finish_nextSibling]
      congr 1
      funext s
      rw [← hns]
      exact traverse_among ns up after above s next rest hns

end

/-! ## Kinds -/

theorem sameAbove_self (above : List (Node × List Node)) : sameAbove above above = true := by
  induction above with
  | nil => rfl
  | cons a above ih => simp [sameAbove, ih]

theorem samePlace_self (c : Cursor) : c.samePlace c = true := by
  simp [samePlace, sameAbove_self]

theorem length_eq_of_sameAbove {above above' : List (Node × List Node)}
    (h : sameAbove above above' = true) : above.length = above'.length := by
  induction above generalizing above' with
  | nil =>
    cases above' with
    | nil => rfl
    | cons => cases h
  | cons a above ih =>
    cases above' with
    | nil => cases h
    | cons a' above' =>
      rw [sameAbove, Bool.and_eq_true] at h
      rw [List.length_cons, List.length_cons, ih h.1]

/-- Below the node where it starts, a cursor is in another place. -/
theorem stopAt_of_lt {start c : Cursor} (h : start.above.length < c.above.length)
    (kinds : List String) : stopAt start c kinds = .ok kinds := by
  refine if_neg fun hsame => ?_
  rw [samePlace, Bool.and_eq_true] at hsame
  exact Nat.ne_of_gt h (length_eq_of_sameAbove hsame.1)

theorem stopAt_self (start : Cursor) (kinds : List String) :
    stopAt start start kinds = .error kinds :=
  if_pos (samePlace_self start)

/-- The kinds of the named ones among some nodes. -/
def namedKinds (ns : List Node) : List String := (ns.filter Node.named).map Node.kind

theorem noteKind_eq (c : Cursor) (kinds : List String) :
    noteKind c kinds = (namedKinds [c.node]).reverse ++ kinds := by
  rw [noteKind, namedKinds, List.filter_singleton]
  cases c.node.named <;> rfl

theorem namedKinds_append (ns ms : List Node) :
    namedKinds (ns ++ ms) = namedKinds ns ++ namedKinds ms := by
  rw [namedKinds, List.filter_append, List.map_append]
  rfl

theorem namedKinds_cons (n : Node) (ns : List Node) :
    namedKinds (n :: ns) = namedKinds [n] ++ namedKinds ns :=
  namedKinds_append [n] ns

variable {start : Cursor}

mutual

theorem within_kinds : ∀ (n : Node) (after : List Node) (above : List (Node × List Node))
    (kinds : List String), start.above.length ≤ above.length →
    within noteKind (stopAt start) n after above kinds =
      .ok ((namedKinds n.preorder).reverse ++ kinds)
  | .mk label children, after, above, kinds, h => by
    rw [within, among_kinds children ((.mk label children, after) :: above) _ (Nat.lt_succ_of_le h),
      noteKind_eq, Node.preorder, namedKinds_cons _ (Node.preorderAll children),
      List.reverse_append, List.append_assoc]

theorem among_kinds : ∀ (ns : List Node) (above : List (Node × List Node)) (kinds : List String),
    start.above.length < above.length →
    among noteKind (stopAt start) ns above kinds =
      .ok ((namedKinds (Node.preorderAll ns)).reverse ++ kinds)
  | [], _, _, _ => rfl
  | n :: rest, above, kinds, h => by
    have hleave := stopAt_of_lt (c := ⟨n, rest, above⟩) h
    rw [among, within_kinds n rest above kinds (Nat.le_of_lt h), ok_bind, hleave, ok_bind,
      among_kinds rest above _ h, Node.preorderAll, namedKinds_append, List.reverse_append,
      List.append_assoc]

end

/-- The kinds are those of the node and of all nodes below it, whatever is around the node. -/
theorem kindsFrom_eq (c : Cursor) : c.kindsFrom = namedKinds c.node.preorder := by
  have hleft (kinds : List String) : finish noteKind (stopAt c) c kinds = .error kinds := by
    rw [finish, turn, stopAt_self]
    rfl
  rw [kindsFrom, traverse_mk c.node c.after c.above, within_kinds _ _ _ _ (Nat.le_refl _), ok_bind,
    hleft, List.append_nil]
  exact List.reverse_reverse _

theorem kindSequence_eq (c : Cursor) : c.kindSequence = namedKinds c.node.preorder :=
  kindsFrom_eq c.anew

end Cursor

theorem Node.kindSequence_eq (n : Node) :
    n.kindSequence = (n.preorder.filter Node.named).map Node.kind :=
  Cursor.kindSequence_eq { node := n }

/-! ## Levels -/

theorem Node.opens_eq (nesting : List String) :
    Node.opens nesting = fun a => decide (a.named = true ∧ a.kind ∈ nesting) := by
  funext a
  rw [opens, Bool.decide_and, Bool.decide_eq_true, List.contains_eq_mem]

/-- The nodes on all ways down, each with the number of nodes that open a level on its way, over a
number of levels that are open already. -/
def Node.visits (nesting : List String) (level : Nat) (n : Node) : List (Node × Nat) :=
  n.ways.map fun (above, m) => (m, level + (above ++ [m]).countP (Node.opens nesting))

theorem Node.mem_visits_iff {nesting : List String} {level k : Nat} {n m : Node} :
    (m, k) ∈ n.visits nesting level ↔ ∃ route above, n.reach? route = some (above, m) ∧
      level + (above ++ [m]).countP (Node.opens nesting) = k := by
  rw [visits, List.mem_map]
  constructor
  · rintro ⟨⟨above, m'⟩, hway, heq⟩
    obtain ⟨rfl, rfl⟩ := Prod.mk.inj heq
    obtain ⟨route, hroute⟩ := mem_ways_iff.mp hway
    exact ⟨route, above, hroute, rfl⟩
  · rintro ⟨route, above, hroute, rfl⟩
    exact ⟨(above, m), mem_ways_iff.mpr ⟨route, hroute⟩, rfl⟩

theorem Node.map_fst_visits (nesting : List String) (level : Nat) (n : Node) :
    (n.visits nesting level).map Prod.fst = n.preorder := by
  rw [visits, List.map_map, ← map_snd_ways]
  rfl

theorem Node.visits_eq (nesting : List String) (level : Nat) (n : Node) :
    n.visits nesting level =
      (n, level + (n.opens nesting).toNat) ::
        n.children.flatMap (Node.visits nesting (level + (n.opens nesting).toNat)) := by
  have hstep (above : List Node) (m : Node) :
      level + (n :: above ++ [m]).countP (Node.opens nesting) =
        level + (n.opens nesting).toNat + (above ++ [m]).countP (Node.opens nesting) := by
    rw [List.cons_append, List.countP_cons]
    cases n.opens nesting
    · simp
    · simp
      omega
  rw [Node.visits, Node.ways_eq, List.map_cons, List.map_flatMap]
  simp only [List.map_map, Function.comp_def, hstep, List.nil_append, List.countP_singleton]
  cases n.opens nesting <;> rfl

namespace Walk

variable {σ : Type} {nesting : List String} {visit : σ → Node → Nat → σ}

theorem enter_eq (n : Node) (w : Walk σ) :
    w.enter nesting visit n =
      { opened := n.opens nesting :: w.opened
        level := w.level + (n.opens nesting).toNat
        result := visit w.result n (w.level + (n.opens nesting).toNat) } := by
  rw [enter]
  cases n.opens nesting <;> rfl

/-- The level that a node opened is there to be closed. -/
theorem leave_opened (flag : Bool) (opened : List Bool) (level : Nat) (result : σ) :
    leave { opened := flag :: opened, level := level + flag.toNat, result } =
      .ok { opened, level, result } := by
  cases flag with
  | false => rfl
  | true =>
    have hopen : Number.sub? (level + 1) 1 = some level := if_pos (Nat.le_add_left 1 level)
    simp only [leave, Bool.toNat_true, hopen]

/-- The nodes of some visits are visited one after the other. -/
def after (visit : σ → Node → Nat → σ) (visits : List (Node × Nat)) (result : σ) : σ :=
  visits.foldl (fun s (n, level) => visit s n level) result

theorem after_append (first second : List (Node × Nat)) (result : σ) :
    after visit (first ++ second) result = after visit second (after visit first result) :=
  List.foldl_append

mutual

theorem within_walk : ∀ (n : Node) (rest : List Node) (above : List (Node × List Node))
    (w : Walk σ),
    Cursor.within (fun c w => w.enter nesting visit c.node) (fun _ w => w.leave) n rest above w =
      .ok { opened := n.opens nesting :: w.opened
            level := w.level + (n.opens nesting).toNat
            result := after visit (n.visits nesting w.level) w.result }
  | .mk label children, rest, above, w => by
    rw [Cursor.within, among_walk children, enter_eq, Node.visits_eq]
    rfl

theorem among_walk : ∀ (ns : List Node) (above : List (Node × List Node)) (w : Walk σ),
    Cursor.among (fun c w => w.enter nesting visit c.node) (fun _ w => w.leave) ns above w =
      .ok { w with result := after visit (ns.flatMap (Node.visits nesting w.level)) w.result }
  | [], _, _ => rfl
  | n :: rest, above, w => by
    rw [Cursor.among, within_walk n, Cursor.ok_bind, leave_opened, Cursor.ok_bind, among_walk rest,
      List.flatMap_cons, after_append]

end

end Walk

/-- A walk visits the nodes on all ways down with the levels that are open there. -/
theorem walk?_eq {σ : Type} (nesting : List String) (visit : σ → Node → Nat → σ) (init : σ)
    (c : Cursor) :
    walk? nesting visit init c = some (Walk.after visit (c.node.visits nesting 0) init) := by
  have htraverse := @Cursor.traverse_mk (Walk σ) Unit
    (fun c w => w.enter nesting visit c.node) (fun _ w => w.leave) c.node [] [] { result := init }
  rw [Walk.within_walk, Cursor.ok_bind, Cursor.finish_top, Walk.leave_opened] at htraverse
  rw [walk?, Cursor.anew, htraverse]
  rfl

/-! ## Traversals -/

/-- **Both traversals go through a subtree in pre-order.**  The routes from a node are those that
lead to a child at every step, and they are listed in lexicographic order without repetition.  From
wherever a cursor stands, whatever comes after the node and above it, a walk visits the nodes at the
ends of these routes, in this order and nothing else, each with the number of named nodes of the given
kinds on the way to it; closing levels never fails.  The kind sequence is that of the named nodes in
the same order, also from a cursor that could leave the node. -/
theorem traversals_preorder (nesting : List String) (c : Cursor) :
    let n := c.node
    let ends := n.routes.filterMap n.reach?
    n.routes.Pairwise (· < ·) ∧
    (∀ route, route ∈ n.routes ↔ (n.reach? route).isSome = true) ∧
    (∀ (σ : Type) (visit : σ → Node → Nat → σ) (init : σ),
      walk? nesting visit init c = some (ends.foldl (fun s (above, m) =>
        visit s m ((above ++ [m]).countP fun a => a.named ∧ a.kind ∈ nesting)) init)) ∧
    c.kindSequence = ((ends.map Prod.snd).filter Node.named).map Node.kind ∧
    c.kindsFrom = c.kindSequence := by
  intro n ends
  refine ⟨n.pairwise_routes, fun _ => Node.mem_routes_iff, fun σ visit init => ?_, ?_, ?_⟩
  · rw [walk?_eq, Walk.after, Node.visits, List.foldl_map, Node.opens_eq]
    simp only [Nat.zero_add]
    rfl
  · rw [Cursor.kindSequence_eq]
    exact congrArg Cursor.namedKinds n.map_snd_ways.symm
  · rw [Cursor.kindsFrom_eq, Cursor.kindSequence_eq]

end CodeAtlas.Syntax
