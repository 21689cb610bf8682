import CodeAtlas.Proofs.Files.Containment
import CodeAtlas.Proofs.Workspace.Runs
import CodeAtlas.Workspace.Queries

/-!
# What a limit cuts off

A query of a whole project applies its limit twice: to the hits of each file, in the order in which
its matches are complete, and to all of them together in the order of paths and starts.  This file
says when the first cut takes nothing away that the second would have kept.  It is so if every file
has its hits in the order of their starts, since the sort is stable and sorting what is put together
means merging what is sorted.  For a single file it is so only then: a match that is complete late
may start early.
-/

namespace CodeAtlas

/-! ## Stable sorting -/

namespace Sorting

variable {α β : Type} {le : α → α → Bool}

section

variable (trans : ∀ a b c, le a b → le b c → le a c) (total : ∀ a b, le a b || le b a)

include trans total

theorem mergeSort_cons (a : α) (l : List α) :
    (a :: l).mergeSort le = [a].merge (l.mergeSort le) le := by
  obtain ⟨before, after, hcons, hrest, hbefore⟩ := List.mergeSort_cons trans total a l
  have hsorted : (a :: after).Pairwise (le · ·) :=
    (List.pairwise_append.mp (hcons ▸ List.pairwise_mergeSort trans total (a :: l))).2.1
  rw [hcons, hrest]
  clear hcons hrest
  induction before with
  | nil =>
    cases after with
    | nil => simp
    | cons b after =>
      rw [List.nil_append, List.nil_append,
        List.cons_merge_cons_pos _ _ _ ((List.pairwise_cons.mp hsorted).1 b List.mem_cons_self),
        List.nil_merge]
  | cons b before ih =>
    have hb : ¬ le a b := by simpa using hbefore b List.mem_cons_self
    rw [List.cons_append, List.cons_append, List.cons_merge_cons_neg _ _ _ hb,
      ih fun c hc => hbefore c (List.mem_cons_of_mem b hc)]

/-- The induction follows the merge of the two lists; in each case it matters whether the single
element comes before both heads, between them, or after them. -/
theorem merge_singleton_merge (a : α) (l l' : List α) :
    ([a].merge l le).merge l' le = [a].merge (l.merge l' le) le := by
  fun_induction List.merge l l' le with
  | case1 l' => simp
  | case2 l hl => simp
  | case3 b l c l' hbc ih =>
    by_cases hab : le a b
    · rw [List.cons_merge_cons_pos _ _ _ hab, List.cons_merge_cons_pos _ _ _ hab,
        List.nil_merge, List.nil_merge, List.cons_merge_cons_pos _ _ _ (trans a b c hab hbc),
        List.cons_merge_cons_pos _ _ _ hbc]
    · rw [List.cons_merge_cons_neg _ _ _ hab, List.cons_merge_cons_neg _ _ _ hab,
        List.cons_merge_cons_pos _ _ _ hbc, ih]
  | case4 b l c l' hbc ih =>
    by_cases hab : le a b
    · rw [List.cons_merge_cons_pos _ _ _ hab, List.nil_merge] at ih ⊢
      by_cases hac : le a c
      · rw [List.cons_merge_cons_pos _ _ _ hac, List.cons_merge_cons_pos _ _ _ hac,
          List.cons_merge_cons_neg _ _ _ hbc, List.nil_merge]
      · rw [List.cons_merge_cons_neg _ _ _ hac, List.cons_merge_cons_neg _ _ _ hac, ih]
    · have hac : ¬ le a c := fun hac => hab (trans a c b hac (by simpa [hbc] using total b c))
      rw [List.cons_merge_cons_neg _ _ _ hab] at ih ⊢
      rw [List.cons_merge_cons_neg _ _ _ hbc, List.cons_merge_cons_neg _ _ _ hac, ih]

/-- To sort what is put together, merge what is sorted. -/
theorem mergeSort_append (l l' : List α) :
    (l ++ l').mergeSort le = (l.mergeSort le).merge (l'.mergeSort le) le := by
  induction l with
  | nil => simp
  | cons a l ih =>
    rw [List.cons_append, mergeSort_cons trans total, ih, mergeSort_cons trans total a l,
      merge_singleton_merge trans total]

end

/-- The beginning of a merge only depends on the beginnings of what is merged. -/
theorem take_merge_take (l l' : List α) {k i j : Nat} (hi : k ≤ i) (hj : k ≤ j) :
    ((l.take i).merge (l'.take j) le).take k = (l.merge l' le).take k := by
  fun_induction List.merge l l' le generalizing k i j with
  | case1 l' => simp [List.take_take, hj]
  | case2 l hl => simp [List.take_take, hi]
  | case3 a l b l' hab ih =>
    cases k with
    | zero => simp
    | succ k =>
      obtain ⟨i, rfl⟩ := Nat.exists_eq_add_one_of_ne_zero (Nat.ne_zero_of_lt hi)
      obtain ⟨j, rfl⟩ := Nat.exists_eq_add_one_of_ne_zero (Nat.ne_zero_of_lt hj)
      have hrest := ih (Nat.le_of_succ_le_succ hi) (Nat.le_of_succ_le hj)
      rw [List.take_succ_cons] at hrest
      rw [List.take_succ_cons, List.take_succ_cons, List.cons_merge_cons_pos _ _ _ hab,
        List.take_succ_cons, List.take_succ_cons, hrest]
  | case4 a l b l' hab ih =>
    cases k with
    | zero => simp
    | succ k =>
      obtain ⟨i, rfl⟩ := Nat.exists_eq_add_one_of_ne_zero (Nat.ne_zero_of_lt hi)
      obtain ⟨j, rfl⟩ := Nat.exists_eq_add_one_of_ne_zero (Nat.ne_zero_of_lt hj)
      have hrest := ih (Nat.le_of_succ_le hi) (Nat.le_of_succ_le_succ hj)
      rw [List.take_succ_cons] at hrest
      rw [List.take_succ_cons, List.take_succ_cons, List.cons_merge_cons_neg _ _ _ hab,
        List.take_succ_cons, List.take_succ_cons, hrest]

/-- If every part is in order, cutting the parts does not show in the beginning of the whole. -/
theorem take_mergeSort_flatMap (trans : ∀ a b c, le a b → le b c → le a c)
    (total : ∀ a b, le a b || le b a) {parts : List β} {f : β → List α}
    (hparts : ∀ b ∈ parts, (f b).Pairwise (le · ·)) {k m : Nat} (h : k ≤ m) :
    ((parts.flatMap fun b => (f b).take m).mergeSort le).take k =
      ((parts.flatMap f).mergeSort le).take k := by
  induction parts with
  | nil => rfl
  | cons b parts ih =>
    have hb : (f b).Pairwise (le · ·) := hparts b List.mem_cons_self
    have hrest := ih fun c hc => hparts c (List.mem_cons_of_mem b hc)
    rw [List.flatMap_cons, List.flatMap_cons, mergeSort_append trans total,
      mergeSort_append trans total, List.mergeSort_of_pairwise hb,
      List.mergeSort_of_pairwise (hb.sublist (List.take_sublist m (f b))),
      ← take_merge_take ((f b).take m) _ (Nat.le_refl k) (Nat.le_refl k), hrest,
      List.take_take, Nat.min_eq_left h, take_merge_take _ _ (Nat.le_refl k) (Nat.le_refl k)]

/-- Lists whose beginnings hold the same elements are equal: each beginning adds one. -/
theorem eq_of_take_perm {l l' : List α} (h : ∀ k, (l.take k).Perm (l'.take k)) : l = l' := by
  induction l generalizing l' with
  | nil => simpa using h l'.length
  | cons a l ih =>
    cases l' with
    | nil => simpa using h 1
    | cons b l' =>
      obtain rfl : a = b := by simpa using h 1
      rw [ih fun k => List.perm_cons a |>.mp (h (k + 1))]

/-- If cutting a list does not show in the beginning of the sorted list, the list is in order. -/
theorem pairwise_of_take_mergeSort (trans : ∀ a b c, le a b → le b c → le a c)
    (total : ∀ a b, le a b || le b a) {l : List α}
    (h : ∀ k, (l.take k).mergeSort le = (l.mergeSort le).take k) : l.Pairwise (le · ·) := by
  have hsorted : l = l.mergeSort le := eq_of_take_perm fun k =>
    (h k ▸ List.mergeSort_perm (l.take k) le).symm
  rw [hsorted]
  exact List.pairwise_mergeSort trans total l

end Sorting

/-! ## Hits -/

namespace Workspace

theorem hitNoLater_iff {a b : Query.Hit} : hitNoLater a b ↔
    a.path < b.path ∨ a.path = b.path ∧ a.span.startByte ≤ b.span.startByte := by
  unfold hitNoLater
  by_cases h : a.path = b.path
  · simp [h]
  · simp [h]

theorem hitNoLater_trans (a b c : Query.Hit) (hab : hitNoLater a b) (hbc : hitNoLater b c) :
    hitNoLater a c := by
  rw [hitNoLater_iff] at hab hbc ⊢
  rcases hab with hab | ⟨hab, hstart⟩
  · rcases hbc with hbc | ⟨hbc, -⟩
    · exact .inl (String.lt_trans hab hbc)
    · exact .inl (hbc ▸ hab)
  · rcases hbc with hbc | ⟨hbc, hstart'⟩
    · exact .inl (hab ▸ hbc)
    · exact .inr ⟨hab.trans hbc, Nat.le_trans hstart hstart'⟩

theorem hitNoLater_total (a b : Query.Hit) : hitNoLater a b || hitNoLater b a := by
  rw [Bool.or_eq_true, hitNoLater_iff, hitNoLater_iff]
  by_cases hab : a.path < b.path
  · exact .inl (.inl hab)
  · by_cases hba : b.path < a.path
    · exact .inr (.inl hba)
    · have hpath : a.path = b.path :=
        String.le_antisymm (String.not_lt.mp hba) (String.not_lt.mp hab)
      rcases Nat.le_total a.span.startByte b.span.startByte with hstart | hstart
      · exact .inl (.inr ⟨hpath, hstart⟩)
      · exact .inr (.inr ⟨hpath.symm, hstart⟩)

/-- The hits of a query in a document come in the order of their starts. -/
def InOrder (q : Query) (d : Document) : Prop :=
  (Query.Hit.all q d).Pairwise (hitNoLater · ·)

theorem firstHits_collect {q : Query} {docs : List Document} (hdocs : ∀ d ∈ docs, InOrder q d)
    {k m : Nat} (h : k ≤ m) :
    (firstHits (docs.flatMap fun d => Query.Hit.collect q d m) m).take k =
      firstHits (docs.flatMap (Query.Hit.all q)) k := by
  rw [firstHits, List.take_take, Nat.min_eq_left h]
  exact Sorting.take_mergeSort_flatMap hitNoLater_trans hitNoLater_total hdocs h

theorem inOrder_of_firstHits_collect {q : Query} {d : Document}
    (h : ∀ k m, k ≤ m → firstHits (Query.Hit.collect q d k) k =
      (firstHits (Query.Hit.collect q d m) m).take k) : InOrder q d := by
  refine Sorting.pairwise_of_take_mergeSort hitNoLater_trans hitNoLater_total fun k => ?_
  have hlaw := h k (max k (Query.Hit.all q d).length) (Nat.le_max_left _ _)
  simp only [firstHits, Query.Hit.collect, List.take_take] at hlaw
  rw [Nat.min_eq_left (Nat.le_max_left k _), List.take_of_length_le (Nat.le_max_right k _)] at hlaw
  refine (List.take_of_length_le ?_).symm.trans hlaw
  rw [List.length_mergeSort]
  exact List.length_take_le k _

/-! ## Queries of a whole project -/

variable {name source : String} {asked : Option String} {around : Surroundings} {w : Workspace}

/-- What a source is compiled to, and the documents that it is put to. -/
def queried (name source : String) (asked : Option String) : Work (Query × List Document) := do
  let p ← project name
  let l ← queryLanguage asked none
  let q ← Query.compile l source
  return (q, ← inDocuments p l (fun d => [d]) (← listLanguage p l))

/-- What is looked for does not matter for which documents are read. -/
theorem run_inDocuments {α : Type} (p : Project) (l : Language) (find : Document → List α)
    (paths : List String) (around : Surroundings) (w : Workspace) :
    ∃ docs left, (inDocuments p l (fun d => [d]) paths).run around w = (.ok docs, left) ∧
      (inDocuments p l find paths).run around w = (.ok (docs.flatMap find), left) := by
  induction paths generalizing w with
  | nil => exact ⟨[], w, rfl, rfl⟩
  | cons path rest ih =>
    cases hfile : w.policy.resolve around.files p path with
    | error e =>
      obtain ⟨docs, left, hdocs, hfound⟩ := ih w
      refine ⟨docs, left, ?_, ?_⟩ <;>
        simp [inDocuments, Work.run_bind, Work.run_tryCatch, hfile, hdocs, hfound]
    | ok file =>
      rcases hread : (documentOf file l).run around w with ⟨e | d, left₁⟩
      · obtain ⟨docs, left, hdocs, hfound⟩ := ih left₁
        refine ⟨docs, left, ?_, ?_⟩ <;>
          simp [inDocuments, Work.run_bind, Work.run_tryCatch, Work.run_map, Except.map, hfile,
            hread, hdocs, hfound]
      · obtain ⟨docs, left, hdocs, hfound⟩ := ih left₁
        refine ⟨d :: docs, left, ?_, ?_⟩ <;>
          simp [inDocuments, Work.run_bind, Work.run_tryCatch, Work.run_map, Except.map, hfile,
            hread, hdocs, hfound]

/-- The limit is all that a query of a whole project adds to the documents it is put to. -/
theorem run_runQuery (count : Option Nat) :
    (runQuery name source asked none count).run around w =
      (((queried name source asked).run around w).1.map fun (q, docs) =>
        firstHits (docs.flatMap fun d => Query.Hit.collect q d (w.limit count)) (w.limit count),
      ((queried name source asked).run around w).2) := by
  unfold runQuery queried hitsIn
  cases hproject : w.projects.get name with
  | error e => simp [Work.run_bind, hproject, Except.map]
  | ok p =>
    rcases hlanguage : (queryLanguage asked none).run around w with ⟨e | l, v⟩
    · simp [Work.run_bind, hproject, hlanguage, Except.map]
    · cases hquery : Query.compile l source with
      | error e => simp [Work.run_bind, hproject, hlanguage, hquery, Except.map]
      | ok q =>
        cases hlist : v.policy.listLanguage around.files p l with
        | error e => simp [Work.run_bind, hproject, hlanguage, hquery, hlist, Except.map]
        | ok paths =>
          obtain ⟨docs, left, hdocs, hfound⟩ := run_inDocuments p l
            (fun d => Query.Hit.collect q d (w.limit count)) paths around v
          simp [Work.run_bind, Work.run_map, hproject, hlanguage, hquery, hlist, hdocs, hfound,
            Except.map]

/-- With a smaller limit comes the beginning of what comes with a larger one. -/
def LimitCutsTail (name source : String) (asked : Option String) (around : Surroundings)
    (w : Workspace) : Prop :=
  ∀ k m, k ≤ m → ((runQuery name source asked none (some k)).run around w).1 =
    ((runQuery name source asked none (some m)).run around w).1.map (·.take k)

theorem limitCutsTail_iff {q : Query} {docs : List Document}
    (h : ((queried name source asked).run around w).1 = .ok (q, docs)) :
    LimitCutsTail name source asked around w ↔ ∀ k m, k ≤ m →
      firstHits (docs.flatMap fun d => Query.Hit.collect q d k) k =
        (firstHits (docs.flatMap fun d => Query.Hit.collect q d m) m).take k := by
  have hrun (n : Nat) : ((runQuery name source asked none (some n)).run around w).1 =
      .ok (firstHits (docs.flatMap fun d => Query.Hit.collect q d n) n) := by
    rw [run_runQuery, h]
    rfl
  simp only [LimitCutsTail, hrun, Except.map, Except.ok.injEq]

/-- **When a limit only cuts the tail.**  It does if every document has its hits in the order of
their starts, and if there is a single document, only then. -/
theorem limit_cuts_tail {q : Query} {docs : List Document}
    (h : ((queried name source asked).run around w).1 = .ok (q, docs)) :
    ((∀ d ∈ docs, InOrder q d) → LimitCutsTail name source asked around w) ∧
      ∀ d, docs = [d] → LimitCutsTail name source asked around w → InOrder q d := by
  constructor
  · intro hdocs
    refine (limitCutsTail_iff h).mpr fun k m hkm => ?_
    rw [firstHits_collect hdocs hkm, ← firstHits_collect hdocs (Nat.le_refl k), firstHits,
      List.take_take, Nat.min_self]
  · rintro d rfl hlaw
    refine inOrder_of_firstHits_collect fun k m hkm => ?_
    simpa using (limitCutsTail_iff h).mp hlaw k m hkm

/-! ### A function inside a function

The outer function ends with a statement of its own, so as a match it is complete after the inner
one, before which it starts. -/

/-- A query with one pattern and no conditions on texts. -/
def single (p : Query.Pattern) (capture : String) : Query where
  clauses := [⟨some p, []⟩]
  captures := [capture]

/-- The hits of matches that are listed. -/
def hitsOf (q : Query) (d : Document) (found : List Query.Match) : List Query.Hit :=
  (found.filter fun m =>
    match q.clauses[m.clause]? with
    | some c => c.predicates.all fun p => p.holds d.source m
    | none => false).flatMap (Query.Hit.ofMatch d)

/-- Two matches are listed by which of them is complete first. -/
theorem all_of_pair {p : Query.Pattern} {capture : String} {d : Document} {m n : Query.Match}
    (h : p.allMatches 0 (Syntax.Spot.levelsOf false [.ofRoot d.root]) = [m, n]) :
    Query.Hit.all (single p capture) d =
      hitsOf (single p capture) d
        (Query.distinct [] (if m.before n then [m, n] else [n, m])) := by
  have hshapes : (single p capture).shapes d.root =
      Query.distinct [] ([m, n].mergeSort Query.Match.before) := by
    simp [Query.shapes, single, h]
  have hpair : [m, n].mergeSort Query.Match.before =
      if m.before n then [m, n] else [n, m] := by
    by_cases hmn : m.before n <;> simp [List.mergeSort, hmn]
  rw [Query.Hit.all, Query.run, hshapes, hpair]
  rfl

def construct (kind : String) (field : Option String) (first last : Nat)
    (children : List Syntax.Node) : Syntax.Node :=
  .mk {
    (default : Syntax.Label) with
    kind, field, named := true
    span := { (default : Syntax.Span) with startByte := first, endByte := last } } children

def nested : Syntax.Node :=
  construct "module" none 0 9 [
    construct "function_definition" none 0 8 [
      construct "block" (some "body") 1 8 [
        construct "function_definition" none 2 5 [
          construct "block" (some "body") 3 5 [construct "return_statement" none 4 5 []]],
        construct "return_statement" none 6 8 []]]]

def nestedDocument : Document where
  project := "demo"
  path := ["a.py"]
  language := .python
  fingerprint := .of (some 7) [120]
  source := [120]
  tree := .ofRoot nested false

def nestedFile : FileRef where
  project := "demo"
  relative := ["a.py"]
  absolute := ["a.py"]
  size := 1
  modified := some 7

/-- One file, whatever it holds being a function inside a function. -/
def nestedAround : Surroundings where
  files := { items := [("a.py", .file [120] 7)] }
  parser := fun _ _ => some (.ofRoot nested false)
  now := 0
  date := "now"

def demo : Project where
  name := "demo"
  root := []
  description := none
  registeredAt := "now"

def demoSpace : Workspace :=
  { Workspace.new { cache := { enabled := false } } with projects := ⟨[demo]⟩ }

theorem listLanguage_nested :
    demoSpace.policy.listLanguage nestedAround.files demo .python = .ok ["a.py"] := by
  have hlevel : Ignore.Level.of nestedAround.files [] = {
      base := [], rules := [[], [], []] } := by
    simp [Ignore.Level.of, Ignore.Level.fileNames, FileSystem.readPath, FileSystem.locate_pathTo,
      FileSystem.follow, FileSystem.entry?, FileSystem.entryBelow?, nestedAround,
      List.lookup_cons, bind, Except.bind]
  have hwalk : Listing.filesBelow nestedAround.files demoSpace.policy none [] =
      [(["a.py"] : Place)] := by
    have hitems : nestedAround.files.items = [(("a.py" : RawText), .file [120] 7)] := rfl
    simp [Listing.filesBelow, FileSystem.locate_pathTo, FileSystem.follow, Listing.walk,
      Listing.walkItems, Listing.deeper?, FileSystem.entry?, FileSystem.entryBelow?, hlevel, hitems]
    decide +kernel
  have hwants : Listing.wants demoSpace.policy {} none ["a.py"] = true := by decide +kernel
  have hslashed : Place.slashed ["a.py"] = "a.py" := by decide +kernel
  have hpython : Language.ofPath? (Path.ofString "a.py") = some .python := by decide +kernel
  simp [Policy.listLanguage, Policy.list, Listing.globOf, bind, Except.bind, pure, Except.pure,
    demo, hwalk, hwants, hslashed, hpython]

theorem resolve_nested :
    demoSpace.policy.resolve nestedAround.files demo "a.py" = .ok nestedFile := by
  have haccept : demoSpace.policy.accept demo "a.py" = .ok (["a.py"] : Place) := by
    decide +kernel
  have hfollow : nestedAround.files.follow FileSystem.linkLimit [] [.name "a.py"] =
      .ok (["a.py"] : Place) := by
    simp [FileSystem.follow, FileSystem.linkLimit, FileSystem.entry?, FileSystem.entryBelow?,
      nestedAround]
  simp only [Policy.resolve, haccept, FileSystem.locate_pathTo, bind, Except.bind]
  simp [demo, hfollow]
  rfl

/-- Any source in the language is put to the one document there is. -/
theorem queried_nested {source : String} {q : Query} (h : Query.compile .python source = .ok q) :
    ((queried "demo" source (some "python")).run nestedAround demoSpace).1 =
      .ok (q, [nestedDocument]) := by
  let left : Workspace := { demoSpace with languages := (demoSpace.languages.get "python").2 }
  have hproject : demoSpace.projects.get "demo" = .ok demo := rfl
  have hlanguage : (queryLanguage (some "python") none).run nestedAround demoSpace =
      (.ok .python, left) := rfl
  have hlist : left.policy.listLanguage nestedAround.files demo .python = .ok ["a.py"] :=
    listLanguage_nested
  have hresolve : left.policy.resolve nestedAround.files demo "a.py" = .ok nestedFile :=
    resolve_nested
  have hoctets : demoSpace.policy.readBytes nestedAround.files nestedFile = .ok [120] := rfl
  have hread : (documentOf nestedFile .python).run nestedAround left = (.ok nestedDocument, {
      left with cache := left.cache.countParse }) := by
    have hoff : left.cache.settings.enabled = false := rfl
    have hpolicy : left.policy = demoSpace.policy := rfl
    simp only [run_documentOf, hpolicy, hoctets, Cache.get_of_off hoff]
    rfl
  simp [queried, inDocuments, Work.run_bind, Work.run_map, Work.run_tryCatch, Except.map,
    hproject, hlanguage, h, hlist, hresolve, hread]

def hitAt (capture kind : String) (first last : Nat) : Query.Hit where
  path := "a.py"
  capture := capture
  kind := kind
  span := { (default : Syntax.Span) with startByte := first, endByte := last }
  text := ""

def returns : Query.Pattern :=
  .node { test := .kind "return_statement" true, captures := ["r"] } [] false

theorem compile_returns :
    Query.compile .python "(return_statement) @r" = .ok (single returns "r") := rfl

theorem all_returns : Query.Hit.all (single returns "r") nestedDocument =
    [hitAt "r" "return_statement" 4 5, hitAt "r" "return_statement" 6 8] := by
  obtain ⟨m, n, hfound, hhits⟩ : ∃ m n,
      returns.allMatches 0 (Syntax.Spot.levelsOf false [.ofRoot nestedDocument.root]) = [m, n] ∧
      hitsOf (single returns "r") nestedDocument
        (Query.distinct [] (if m.before n then [m, n] else [n, m])) =
        [hitAt "r" "return_statement" 4 5, hitAt "r" "return_statement" 6 8] :=
    ⟨_, _, rfl, by decide +kernel⟩
  rw [all_of_pair hfound, hhits]

/-- The statements at the ends of the two functions are found in their order. -/
theorem limit_cuts_tail_returns : ∃ q docs,
    ((queried "demo" "(return_statement) @r" (some "python")).run nestedAround demoSpace).1 =
      .ok (q, docs) ∧ (∀ d ∈ docs, InOrder q d) ∧
    LimitCutsTail "demo" "(return_statement) @r" (some "python") nestedAround demoSpace := by
  have hqueried := queried_nested compile_returns
  have hdocs : ∀ d ∈ [nestedDocument], InOrder (single returns "r") d := by
    intro d hd
    obtain rfl := List.mem_singleton.mp hd
    rw [InOrder, all_returns]
    decide +kernel
  exact ⟨_, _, hqueried, hdocs, (limit_cuts_tail hqueried).1 hdocs⟩

def functions : Query.Pattern :=
  .node { test := .kind "function_definition" true, captures := ["f"] } [
    (false, .node { test := .kind "block" true, field := some "body" } [
      (false, .node { test := .kind "return_statement" true } [] false)] false)] false

def functionsSource : String :=
  "(function_definition body: (block (return_statement))) @f"

theorem compile_functions :
    Query.compile .python functionsSource = .ok (single functions "f") := rfl

theorem all_functions : Query.Hit.all (single functions "f") nestedDocument =
    [hitAt "f" "function_definition" 2 5, hitAt "f" "function_definition" 0 8] := by
  obtain ⟨m, n, hfound, hhits⟩ : ∃ m n,
      functions.allMatches 0 (Syntax.Spot.levelsOf false [.ofRoot nestedDocument.root]) =
        [m, n] ∧
      hitsOf (single functions "f") nestedDocument
        (Query.distinct [] (if m.before n then [m, n] else [n, m])) =
        [hitAt "f" "function_definition" 2 5, hitAt "f" "function_definition" 0 8] :=
    ⟨_, _, rfl, by decide +kernel⟩
  rw [all_of_pair hfound, hhits]

/-- The one result that a limit of one gives is not the first of the two that a limit of two
gives. -/
theorem runQuery_inner_function_first :
    ((runQuery "demo" functionsSource (some "python") none (some 2)).run nestedAround
      demoSpace).1 =
        .ok [hitAt "f" "function_definition" 0 8, hitAt "f" "function_definition" 2 5] ∧
    ((runQuery "demo" functionsSource (some "python") none (some 1)).run nestedAround
      demoSpace).1 = .ok [hitAt "f" "function_definition" 2 5] := by
  have hqueried := queried_nested compile_functions
  have hno : hitNoLater (hitAt "f" "function_definition" 2 5)
      (hitAt "f" "function_definition" 0 8) = false := by decide +kernel
  constructor
  · rw [run_runQuery, hqueried]
    simp [Except.map, limit, firstHits, Query.Hit.collect, all_functions, List.mergeSort, hno]
  · rw [run_runQuery, hqueried]
    simp [Except.map, limit, firstHits, Query.Hit.collect, all_functions]

end Workspace

end CodeAtlas
