import CodeAtlas.Analysis.Dependencies
import CodeAtlas.Analysis.Symbols
import CodeAtlas.Query.Template

/-!
# The templates behind reports can be read

Reports on one file put templates to its tree.  For each of the languages these templates can be
read, so once there is a document such a report does not fail.

The texts are long, and a text given by its characters is read without taking it apart first.  What
is read is compared with the clauses that are expected (`readsAs`); templates have only patterns of
nodes and of alternatives, and only one kind of predicate.
-/

namespace CodeAtlas

namespace Query

/-- Whether a text can be read as a query. -/
def reads (language : Language) (cs : List Char) : Bool :=
  match readDrafts language (cs.length + 1) [] ⟨skipBlanks cs, [], []⟩ with
  | .ok (drafts, _) => (drafts.mapM (Draft.clause cs)).isOk
  | .error _ => false

theorem exists_compile_of_reads {language : Language} {cs : List Char}
    (h : reads language cs = true) : ∃ q, Query.compile language (String.ofList cs) = .ok q := by
  unfold reads at h
  rw [Query.compile, String.toList_ofList]
  split at h
  · rename_i drafts captures hdrafts
    simp only [hdrafts, bind, Except.bind]
    cases hclauses : drafts.mapM (Draft.clause cs) with
    | error e => simp [hclauses, Except.isOk, Except.toBool] at h
    | ok clauses => exact ⟨_, rfl⟩
  · cases h

/-! ## What is read -/

mutual

/-- Whether two patterns of nodes and alternatives are the same. -/
def Pattern.same : Pattern → Pattern → Bool
  | .node head items closed, .node head' items' closed' =>
    head = head' && sameItems items items' && closed = closed'
  | .choice ps, .choice qs => sameEach ps qs
  | _, _ => false

def sameEach : List Pattern → List Pattern → Bool
  | [], [] => true
  | p :: ps, q :: qs => p.same q && sameEach ps qs
  | _, _ => false

def sameItems : List (Bool × Pattern) → List (Bool × Pattern) → Bool
  | [], [] => true
  | (anchored, p) :: ps, (anchored', q) :: qs =>
    anchored = anchored' && p.same q && sameItems ps qs
  | _, _ => false

end

mutual

theorem Pattern.eq_of_same : ∀ {p q : Pattern}, p.same q = true → p = q
  | .node _ items _, .node _ items' _, h => by
    simp only [Pattern.same, Bool.and_eq_true, decide_eq_true_eq] at h
    obtain ⟨⟨rfl, hitems⟩, rfl⟩ := h
    rw [eq_of_sameItems hitems]
  | .choice ps, .choice qs, h => by
    rw [Pattern.same] at h
    rw [eq_of_sameEach h]

theorem eq_of_sameEach : ∀ {ps qs : List Pattern}, sameEach ps qs = true → ps = qs
  | [], [], _ => rfl
  | p :: ps, q :: qs, h => by
    rw [sameEach, Bool.and_eq_true] at h
    rw [p.eq_of_same h.1, eq_of_sameEach h.2]

theorem eq_of_sameItems : ∀ {ps qs : List (Bool × Pattern)}, sameItems ps qs = true → ps = qs
  | [], [], _ => rfl
  | (_, p) :: ps, (_, q) :: qs, h => by
    simp only [sameItems, Bool.and_eq_true, decide_eq_true_eq] at h
    obtain ⟨⟨rfl, hp⟩, hps⟩ := h
    rw [p.eq_of_same hp, eq_of_sameItems hps]

end

def Predicate.same : Predicate → Predicate → Bool
  | .hasText mode a text, .hasText mode' a' text' => mode = mode' && a = a' && text = text'
  | _, _ => false

theorem Predicate.eq_of_same : ∀ {p q : Predicate}, p.same q = true → p = q
  | .hasText .., .hasText .., h => by
    simp only [Predicate.same, Bool.and_eq_true, decide_eq_true_eq] at h
    obtain ⟨⟨rfl, rfl⟩, rfl⟩ := h
    rfl

/-- Whether two lists have the same elements as far as a test tells. -/
def sameList {α : Type} (same : α → α → Bool) : List α → List α → Bool
  | [], [] => true
  | a :: as, b :: bs => same a b && sameList same as bs
  | _, _ => false

theorem eq_of_sameList {α : Type} {same : α → α → Bool} (h : ∀ a b, same a b = true → a = b) :
    ∀ {as bs : List α}, sameList same as bs = true → as = bs
  | [], [], _ => rfl
  | a :: as, b :: bs, hsame => by
    rw [sameList, Bool.and_eq_true] at hsame
    rw [h a b hsame.1, eq_of_sameList h hsame.2]

def Clause.same (c c' : Clause) : Bool :=
  sameList Predicate.same c.predicates c'.predicates &&
    sameEach c.pattern.toList c'.pattern.toList

theorem Clause.eq_of_same {c c' : Clause} (h : c.same c' = true) : c = c' := by
  obtain ⟨pattern, predicates⟩ := c
  obtain ⟨pattern', predicates'⟩ := c'
  rw [Clause.same, Bool.and_eq_true] at h
  obtain rfl : predicates = predicates' := eq_of_sameList (fun _ _ => Predicate.eq_of_same) h.1
  have hpatterns := eq_of_sameEach h.2
  cases pattern <;> cases pattern' <;> simp_all

/-- Whether a text is read as these clauses. -/
def readsAs (language : Language) (cs : List Char) (clauses : List Clause) : Bool :=
  match readDrafts language (cs.length + 1) [] ⟨skipBlanks cs, [], []⟩ with
  | .ok (drafts, _) =>
    match drafts.mapM (Draft.clause cs) with
    | .ok found => sameList Clause.same found clauses
    | .error _ => false
  | .error _ => false

theorem exists_compile_of_readsAs {language : Language} {cs : List Char} {clauses : List Clause}
    (h : readsAs language cs clauses = true) :
    ∃ q, Query.compile language (String.ofList cs) = .ok q ∧ q.clauses = clauses := by
  unfold readsAs at h
  rw [Query.compile, String.toList_ofList]
  split at h
  · rename_i drafts captures hdrafts
    split at h
    · rename_i found hfound
      obtain rfl := eq_of_sameList (fun _ _ => Clause.eq_of_same) h
      exact ⟨⟨found, captures⟩, by simp only [hdrafts, hfound]; rfl, rfl⟩
    · cases h
  · cases h

namespace Template

/-- The templates that reports are made from. -/
def reported : List String := ["functions", "classes", "imports", "dependencies"]

theorem exists_query_of_reads {language : Language} {name : String} {t : Template}
    {cs : List Char} (hfind : find language name = .ok t) (hsource : t.source = String.ofList cs)
    (hreads : reads t.language cs = true) : ∃ q, query language name = .ok q := by
  obtain ⟨q, hq⟩ := exists_compile_of_reads hreads
  refine ⟨q, ?_⟩
  rw [query, hfind]
  simp only [bind, Except.bind, compile, hsource, hq]

theorem exists_query_of_readsAs {language : Language} {name : String} {t : Template}
    {cs : List Char} {clauses : List Clause} (hfind : find language name = .ok t)
    (hsource : t.source = String.ofList cs) (h : readsAs t.language cs clauses = true) :
    ∃ q, query language name = .ok q ∧ q.clauses = clauses := by
  obtain ⟨q, hq, hclauses⟩ := exists_compile_of_readsAs h
  refine ⟨q, ?_, hclauses⟩
  rw [query, hfind]
  simp only [bind, Except.bind, compile, hsource, hq]

set_option maxRecDepth 4000 in
theorem exists_query (language : Language) {name : String} (h : name ∈ reported) :
    ∃ q, query language name = .ok q := by
  simp only [reported, List.mem_cons, List.not_mem_nil, or_false] at h
  rcases h with rfl | rfl | rfl | rfl <;> cases language <;>
    exact exists_query_of_reads rfl rfl (by decide +kernel)

end Template

end Query

namespace Analysis

open Query.Template (exists_query reported)

theorem Symbols.exists_definitions {template : String} (h : template ∈ reported) (family : String)
    (d : Document) : ∃ found, definitions template family d = .ok found := by
  obtain ⟨q, hq⟩ := exists_query d.language h
  exact ⟨_, by simp only [definitions, hq, bind, Except.bind]; rfl⟩

theorem Symbols.exists_of (d : Document) : ∃ report, Symbols.of d = .ok report := by
  have hmem : "functions" ∈ reported ∧ "classes" ∈ reported ∧ "imports" ∈ reported := by decide
  obtain ⟨functions, hfunctions⟩ := exists_definitions hmem.1 "function" d
  obtain ⟨classes, hclasses⟩ := exists_definitions hmem.2.1 "class" d
  obtain ⟨imports, himports⟩ := exists_query d.language hmem.2.2
  exact ⟨_, by simp only [Symbols.of, hfunctions, hclasses, himports, bind, Except.bind]; rfl⟩

theorem Dependencies.exists_of (d : Document) : ∃ report, Dependencies.of d = .ok report := by
  have hmem : "dependencies" ∈ reported := by decide
  obtain ⟨q, hq⟩ := exists_query d.language hmem
  exact ⟨_, by simp only [Dependencies.of, hq, bind, Except.bind]; rfl⟩

end Analysis

end CodeAtlas
