import CodeAtlas.Syntax.Node
import Mathlib.Data.List.Basic

/-!
# Routes in a tree

Routes (`Node.reach?`) tell two nodes apart even if they look the same, and their lexicographic order
is the order in which a node comes before its children and children come one after the other.

`Node.routes` lists all routes from a node in this order (`pairwise_routes`), each once, and none that
leads out of the node (`mem_routes_iff`).  What lies on these routes can also be said by recursion over
the tree (`ways_eq`), and their ends are the nodes of the tree in pre-order (`map_snd_ways`).
-/

namespace CodeAtlas.Syntax.Node

mutual

/-- All routes from a node, each one before those that go on from where it ends. -/
def routes : Node → List (List Nat)
  | mk _ children => [] :: routesAmong 0 children

/-- The routes that start with a step to one of some siblings, which are numbered from `i` on. -/
def routesAmong (i : Nat) : List Node → List (List Nat)
  | [] => []
  | n :: rest => n.routes.map (i :: ·) ++ routesAmong (i + 1) rest

end

theorem routes_eq (n : Node) : n.routes = [] :: routesAmong 0 n.children := by
  cases n
  rw [routes]
  rfl

/-! ## All routes, each once and in order -/

theorem mem_routesAmong_iff {i : Nat} {ns : List Node} {route : List Nat} :
    route ∈ routesAmong i ns ↔
      ∃ j n rest, ns[j]? = some n ∧ rest ∈ n.routes ∧ route = (i + j) :: rest := by
  induction ns generalizing i with
  | nil => simp [routesAmong]
  | cons n ns ih =>
    rw [routesAmong, List.mem_append, List.mem_map, ih]
    constructor
    · rintro (⟨rest, hrest, rfl⟩ | ⟨j, m, rest, hm, hrest, rfl⟩)
      · exact ⟨0, n, rest, rfl, hrest, rfl⟩
      · exact ⟨j + 1, m, rest, hm, hrest, by rw [Nat.add_right_comm, Nat.add_assoc]⟩
    · rintro ⟨j, m, rest, hm, hrest, rfl⟩
      cases j with
      | zero =>
        obtain rfl := Option.some.inj hm
        exact .inl ⟨rest, hrest, rfl⟩
      | succ j => exact .inr ⟨j, m, rest, hm, hrest, by rw [Nat.add_right_comm, Nat.add_assoc]⟩

/-- The routes from a node are those that lead somewhere. -/
theorem mem_routes_iff {n : Node} {route : List Nat} :
    route ∈ n.routes ↔ (n.reach? route).isSome = true := by
  induction route generalizing n with
  | nil => simp [routes_eq, reach?]
  | cons i route ih =>
    rw [routes_eq, List.mem_cons, mem_routesAmong_iff, or_iff_right (List.cons_ne_nil i route), reach?]
    constructor
    · rintro ⟨j, child, rest, hchild, hrest, heq⟩
      obtain ⟨rfl, rfl⟩ := List.cons.inj heq
      rw [Nat.zero_add, hchild, Option.bind_some, Option.isSome_map]
      exact ih.mp hrest
    · intro h
      cases hchild : n.children[i]? with
      | none => rw [hchild] at h; cases h
      | some child =>
        rw [hchild, Option.bind_some, Option.isSome_map] at h
        exact ⟨i, child, route, hchild, ih.mpr h, by rw [Nat.zero_add]⟩

mutual

/-- Routes are listed in lexicographic order, without repetition. -/
theorem pairwise_routes : ∀ n : Node, n.routes.Pairwise (· < ·)
  | mk label children => by
    rw [routes, List.pairwise_cons]
    refine ⟨fun route hroute => ?_, pairwise_routesAmong 0 children⟩
    obtain ⟨j, n, rest, -, -, rfl⟩ := mem_routesAmong_iff.mp hroute
    exact List.nil_lt_cons _ _

theorem pairwise_routesAmong : ∀ (i : Nat) (ns : List Node),
    (routesAmong i ns).Pairwise (· < ·)
  | _, [] => .nil
  | i, n :: rest => by
    rw [routesAmong, List.pairwise_append]
    refine ⟨?_, pairwise_routesAmong (i + 1) rest, ?_⟩
    · refine List.pairwise_map.mpr ((pairwise_routes n).imp fun h => ?_)
      exact List.cons_lt_cons_iff.mpr (.inr ⟨rfl, h⟩)
    · intro route hroute other hother
      obtain ⟨first, -, rfl⟩ := List.mem_map.mp hroute
      obtain ⟨j, m, second, -, -, rfl⟩ := mem_routesAmong_iff.mp hother
      exact List.cons_lt_cons_iff.mpr (.inl (by omega))

end

/-! ## Recursion over the tree -/

/-- Each node below a node, and the nodes on the way to it. -/
def ways (n : Node) : List (List Node × Node) := n.routes.filterMap n.reach?

theorem mem_ways_iff {n m : Node} {above : List Node} :
    (above, m) ∈ n.ways ↔ ∃ route, n.reach? route = some (above, m) := by
  rw [ways, List.mem_filterMap]
  refine exists_congr fun route => and_iff_right_of_imp fun hroute => ?_
  rw [mem_routes_iff, hroute]
  rfl

theorem filterMap_routesAmong {α : Type} (f : List Nat → Option α) (g : Node → List Nat → Option α)
    (i : Nat) (ns : List Node)
    (h : ∀ j n, ns[j]? = some n → ∀ route, f ((i + j) :: route) = g n route) :
    (routesAmong i ns).filterMap f = ns.flatMap fun n => n.routes.filterMap (g n) := by
  induction ns generalizing i with
  | nil => rfl
  | cons n ns ih =>
    have hfirst : f ∘ (i :: ·) = g n := funext (h 0 n rfl)
    have hrest (j : Nat) (m : Node) (hm : ns[j]? = some m) (route : List Nat) :
        f ((i + 1 + j) :: route) = g m route := by
      rw [Nat.add_right_comm, Nat.add_assoc]
      exact h (j + 1) m hm route
    rw [routesAmong, List.filterMap_append, List.filterMap_map, hfirst, ih (i + 1) hrest,
      List.flatMap_cons]

/-- A node is reached first, and then what is reached from its children. -/
theorem ways_eq (n : Node) :
    n.ways = ([], n) :: n.children.flatMap fun child => child.ways.map fun (above, m) =>
      (n :: above, m) := by
  have hbelow : (routesAmong 0 n.children).filterMap n.reach? =
      n.children.flatMap fun child => child.routes.filterMap fun route =>
        (child.reach? route).map fun (above, m) => (n :: above, m) := by
    refine filterMap_routesAmong _ _ 0 _ fun j child hchild route => ?_
    rw [reach?, Nat.zero_add, hchild, Option.bind_some]
  have hself : n.reach? [] = some ([], n) := rfl
  rw [ways, routes_eq, List.filterMap_cons_some hself, hbelow]
  simp only [ways, List.map_filterMap]

/-- The nodes that are reached are the node and all nodes below it. -/
theorem map_snd_ways (n : Node) : n.ways.map Prod.snd = n.preorder := by
  induction n using Node.induction with
  | step n ih =>
    have hall (ns : List Node) (h : ∀ child ∈ ns, child.ways.map Prod.snd = child.preorder) :
        (ns.flatMap fun child => child.ways.map Prod.snd) = preorderAll ns := by
      induction ns with
      | nil => rfl
      | cons child rest ihrest =>
        obtain ⟨hchild, hrest⟩ := List.forall_mem_cons.mp h
        rw [List.flatMap_cons, preorderAll, hchild, ihrest hrest]
    rw [ways_eq, preorder_eq, List.map_cons, List.map_flatMap]
    simp only [List.map_map, Function.comp_def]
    rw [hall _ ih]

theorem mem_preorder_of_reach? {n m : Node} {route : List Nat} {above : List Node}
    (h : n.reach? route = some (above, m)) : m ∈ n.preorder := by
  rw [← map_snd_ways]
  exact List.mem_map_of_mem (mem_ways_iff.mpr ⟨route, h⟩)

end CodeAtlas.Syntax.Node
