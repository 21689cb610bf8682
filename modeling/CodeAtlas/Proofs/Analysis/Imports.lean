import CodeAtlas.Analysis.Dependencies
import CodeAtlas.Analysis.Symbols
import CodeAtlas.Proofs.Query.Matches
import CodeAtlas.Proofs.Query.Templates
import CodeAtlas.Proofs.Syntax.Pruning

/-!
# Imports and the modules that they name

Imports are listed by one template and modules by another.  The first asks for a statement, the
second for the way from a statement down to the name of a module (`Way`).  So an import has an edge
if one of these ways leads down from it: the name is then a node inside the statement, and in a tree
over a source it stands on one of the statement's lines.

The ways of the grammars are more than those of the templates.  In an import of Go the path may be
raw, and TypeScript can import by a clause with a call of its own; the templates know neither.
-/

namespace CodeAtlas.Analysis

open Query Syntax

/-! ## Ways down a tree -/

/-- A step to a child of some kind in some field, as far as these are told. -/
structure Step where
  kind : Option String
  field : Option String

namespace Step

def fits (step : Step) (s : Spot) : Bool :=
  s.label.named && !s.label.error && step.kind.all (fun kind => s.label.kind = kind) &&
    step.field.all fun field => s.label.field = some field

/-- What a query asks of the child. -/
def pattern (step : Step) (captures : List String) (items : List (Bool × Pattern)) : Pattern :=
  let test : Test := match step.kind with
    | some kind => .kind kind true
    | none => .anyNamed
  .node { test, field := step.field, captures } items false

variable {step : Step} {captures : List String} {items : List (Bool × Pattern)}

theorem takes_of_fits {s : Spot} (h : step.fits s = true) {rest : List Spot}
    {below : List Capture} {after : List Spot} (hitems : ItemsTake items s.children below after) :
    (step.pattern captures items).Takes (s :: rest)
      (captures.map (fun name => ⟨name, s⟩) ++ below) rest := by
  refine takes_node_iff.mpr ⟨s, rfl, ?_, below, after, hitems, rfl⟩
  simp only [fits, Bool.and_eq_true, Bool.not_eq_true'] at h
  obtain ⟨⟨⟨hnamed, hsound⟩, hkind⟩, hfield⟩ := h
  cases hk : step.kind <;> cases hf : step.field <;>
    simp_all [Head.accepts, Test.accepts]

end Step

/-- The nodes where some steps end. -/
def ends : List Step → Spot → List Spot
  | [], s => [s]
  | step :: steps, s => (s.children.filter step.fits).flatMap (ends steps)

/-- A way from a statement to the name of a module. -/
structure Way where
  statement : String
  step : Step
  more : List Step := []

namespace Way

def modules (w : Way) (s : Spot) : List Spot :=
  if s.label.kind = w.statement && s.label.named then ends (w.step :: w.more) s else []

/-- The steps as a query writes them, with the last node captured. -/
def items (step : Step) : List Step → List (Bool × Pattern)
  | [] => [(false, step.pattern ["module"] [])]
  | next :: more => [(false, step.pattern [] (items next more))]

def clause (w : Way) : Clause :=
  ⟨some (.construct w.statement none [] (items w.step w.more)), []⟩

theorem anyQuantifier_items (step : Step) (more : List Step) :
    Pattern.anyQuantifier (items step more) = false := by
  induction more generalizing step with
  | nil => rfl
  | cons next more ih =>
    rw [items, Pattern.anyQuantifier, Pattern.anyQuantifier, Bool.or_false]
    exact ih next

theorem exists_itemsTake {step : Step} {more : List Step} {s n : Spot}
    (h : n ∈ ends (step :: more) s) :
    ∃ rest, ItemsTake (items step more) s.children [⟨"module", n⟩] rest := by
  induction more generalizing step s with
  | nil =>
    rw [ends, List.mem_flatMap] at h
    obtain ⟨c, hc, hn⟩ := h
    obtain ⟨hchild, hfits⟩ := List.mem_filter.mp hc
    obtain ⟨before, rest, hchildren⟩ := List.append_of_mem hchild
    obtain rfl := List.mem_singleton.mp hn
    exact ⟨rest, (itemsTake_singleton_iff rfl).mpr ⟨before, n :: rest, hchildren,
      Step.takes_of_fits hfits (itemsTake_nil_iff.mpr ⟨rfl, rfl⟩)⟩⟩
  | cons next more ih =>
    rw [ends, List.mem_flatMap] at h
    obtain ⟨c, hc, hn⟩ := h
    obtain ⟨hchild, hfits⟩ := List.mem_filter.mp hc
    obtain ⟨before, rest, hchildren⟩ := List.append_of_mem hchild
    obtain ⟨after, hbelow⟩ := ih hn
    exact ⟨rest, (itemsTake_singleton_iff rfl).mpr ⟨before, c :: rest, hchildren,
      Step.takes_of_fits hfits hbelow⟩⟩

theorem mem_modules_iff {w : Way} {s n : Spot} :
    n ∈ w.modules s ↔ Stands w.statement none s ∧ n ∈ ends (w.step :: w.more) s := by
  have hstands : (s.label.kind = w.statement && s.label.named) = true ↔
      Stands w.statement none s := by
    rw [Bool.and_eq_true, decide_eq_true_eq]
    exact ⟨fun h => ⟨h.1, h.2, nofun⟩, fun h => ⟨h.kind, h.named⟩⟩
  rw [← hstands, modules]
  split <;> simp_all

/-- Where a way of a template ends there is a match of its clause. -/
theorem matches_of_mem_modules {w : Way} {root : Node} {source : List UInt8} {s n : Spot}
    (hs : s ∈ (Spot.ofRoot root).preorder) (hn : n ∈ w.modules s) :
    w.clause.Matches root source [⟨"module", n⟩] := by
  obtain ⟨hstands, hends⟩ := mem_modules_iff.mp hn
  obtain ⟨rest, hitems⟩ := exists_itemsTake hends
  exact (matches_construct_iff (anyQuantifier_items _ _)).mpr
    ⟨⟨s, hs, hstands, _, rest, hitems, rfl⟩, by simp⟩

end Way

/-! ## The two templates -/

/-- The kinds of the statements that import. -/
def importKinds : Language → List String
  | .python => ["import_statement", "import_from_statement"]
  | .rust => ["use_declaration", "extern_crate_declaration"]
  | .javascript | .typescript | .tsx => ["import_statement"]
  | .go => ["import_declaration"]

def importClause (kind : String) : Clause :=
  ⟨some (.construct kind none ["import"] []), []⟩

def sourceWay : Way := ⟨"import_statement", ⟨some "string", some "source"⟩, []⟩

/-- The ways of the template for modules. -/
def ways : Language → List Way
  | .python => [
    ⟨"import_statement", ⟨some "dotted_name", some "name"⟩, []⟩,
    ⟨"import_statement", ⟨some "aliased_import", some "name"⟩, [⟨some "dotted_name", some "name"⟩]⟩,
    ⟨"import_from_statement", ⟨some "dotted_name", some "module_name"⟩, []⟩,
    ⟨"import_from_statement", ⟨some "relative_import", some "module_name"⟩, []⟩]
  | .rust => [
    ⟨"use_declaration", ⟨none, some "argument"⟩, []⟩,
    ⟨"extern_crate_declaration", ⟨some "identifier", some "name"⟩, []⟩]
  | .javascript | .typescript | .tsx => [sourceWay]
  | .go => [⟨"import_spec", ⟨some "interpreted_string_literal", some "path"⟩, []⟩]

/-- A module that is required by a call. -/
def requireClause : Clause where
  pattern := some (.construct "call_expression" none [] [
    (false, .construct "identifier" (some "function") ["_require"] []),
    (false, .construct "arguments" (some "arguments") [] [
      (false, .construct "string" none ["module"] [])])])
  predicates := [.hasText ⟨true, true⟩ "_require" "require"]

def requireClauses : Language → List Clause
  | .javascript | .typescript | .tsx => [requireClause]
  | _ => []

def moduleClauses (language : Language) : List Clause :=
  (ways language).map Way.clause ++ requireClauses language

set_option maxRecDepth 4000 in
theorem exists_imports (language : Language) :
    ∃ q, Template.query language "imports" = .ok q ∧
      q.clauses = (importKinds language).map importClause := by
  cases language <;> exact Template.exists_query_of_readsAs rfl rfl (by decide +kernel)

set_option maxRecDepth 4000 in
theorem exists_modules (language : Language) :
    ∃ q, Template.query language "dependencies" = .ok q ∧
      q.clauses = moduleClauses language := by
  cases language <;> exact Template.exists_query_of_readsAs rfl rfl (by decide +kernel)

/-! ## What the reports hold -/

variable {d : Document} {q : Query}

theorem importClause_matches_iff {kind : String} {root : Node} {source : List UInt8}
    {captures : List Capture} :
    (importClause kind).Matches root source captures ↔
      ∃ s ∈ (Spot.ofRoot root).preorder, Stands kind none s ∧ captures = [⟨"import", s⟩] := by
  rw [importClause, matches_construct_iff rfl, and_iff_left (by simp)]
  simp only [itemsTake_nil_iff]
  refine exists_congr fun s => and_congr_right fun _ => and_congr_right fun _ => ?_
  constructor
  · rintro ⟨below, after, ⟨rfl, -⟩, rfl⟩
    rfl
  · rintro rfl
    exact ⟨[], s.children, ⟨rfl, rfl⟩, rfl⟩

/-- The symbol of an import. -/
def importOf (d : Document) (s : Spot) : Symbol :=
  Symbols.ofImport (Hit.ofCapture d ⟨"import", s⟩)

theorem ofMatch_import {m : Match} {s : Spot} (h : m.found.captures = [⟨"import", s⟩]) :
    Hit.ofMatch d m = [Hit.ofCapture d ⟨"import", s⟩] := by
  have hshown : Hit.isHelper "import" = false := by decide
  simp [Hit.ofMatch, h, hshown]

/-- The imports that are listed are the statements of these kinds. -/
theorem mem_imports_iff {kinds : List String} (h : q.clauses = kinds.map importClause)
    {x : Symbol} :
    x ∈ (Hit.all q d).map Symbols.ofImport ↔
      ∃ s ∈ (Spot.ofRoot d.root).preorder, (∃ kind ∈ kinds, Stands kind none s) ∧
        x = importOf d s := by
  simp only [Hit.all, List.mem_map, List.mem_flatMap]
  constructor
  · rintro ⟨hit, ⟨m, hm, hhit⟩, rfl⟩
    obtain ⟨c, hc, hmatches⟩ := exists_mem_run_iff.mp ⟨m, hm, rfl, rfl⟩
    have hmem := List.mem_of_getElem? hc
    rw [h] at hmem
    obtain ⟨kind, hkind, rfl⟩ := List.mem_map.mp hmem
    obtain ⟨s, hs, hstands, hcaptures⟩ := importClause_matches_iff.mp hmatches
    rw [ofMatch_import hcaptures, List.mem_singleton] at hhit
    exact ⟨s, hs, ⟨kind, hkind, hstands⟩, hhit ▸ rfl⟩
  · rintro ⟨s, hs, ⟨kind, hkind, hstands⟩, rfl⟩
    have hclause : importClause kind ∈ q.clauses := h ▸ List.mem_map_of_mem hkind
    obtain ⟨i, hi⟩ := List.mem_iff_getElem?.mp hclause
    obtain ⟨m, hm, -, hcaptures⟩ :=
      exists_mem_run_iff.mpr ⟨_, hi, importClause_matches_iff.mpr ⟨s, hs, hstands, rfl⟩⟩
    exact ⟨_, ⟨m, hm, ofMatch_import hcaptures ▸ List.mem_singleton_self _⟩, rfl⟩

/-- The edges of a query for modules, in the order of their lines. -/
def edges (q : Query) (d : Document) : List Dependency :=
  ((q.run d.root d.source).flatMap fun m =>
    (m.nodes "module").map (Dependencies.ofSpot (Spot.ofRoot d.root) d.source)).mergeSort
      Dependencies.lineNoLater

theorem exists_mem_edges {w : Way} (hw : w.clause ∈ q.clauses) {s n : Spot}
    (hs : s ∈ (Spot.ofRoot d.root).preorder) (hn : n ∈ w.modules s) :
    ∃ e ∈ edges q d, e.line = n.label.span.startLine := by
  obtain ⟨i, hi⟩ := List.mem_iff_getElem?.mp hw
  obtain ⟨m, hm, -, hcaptures⟩ :=
    exists_mem_run_iff.mpr ⟨_, hi, Way.matches_of_mem_modules hs hn⟩
  have hnode : n ∈ m.nodes "module" := by simp [Match.nodes, hcaptures]
  exact ⟨Dependencies.ofSpot (Spot.ofRoot d.root) d.source n, List.mem_mergeSort.mpr
    (List.mem_flatMap.mpr ⟨m, hm, List.mem_map_of_mem hnode⟩), rfl⟩

/-! ## From an import to a module -/

theorem mem_ends_cons {step : Step} {steps : List Step} {s n : Spot} :
    n ∈ ends (step :: steps) s ↔ ∃ c ∈ s.children, step.fits c = true ∧ n ∈ ends steps c := by
  simp only [ends, List.mem_flatMap, List.mem_filter, and_assoc]

theorem mem_preorder_of_mem_ends {steps : List Step} {s n : Spot} (h : n ∈ ends steps s) :
    n ∈ s.preorder := by
  induction steps generalizing s with
  | nil =>
    obtain rfl := List.mem_singleton.mp h
    exact n.self_mem_preorder
  | cons step steps ih =>
    obtain ⟨c, hc, -, hn⟩ := mem_ends_cons.mp h
    exact Spot.mem_preorder_of_child hc (ih hn)

/-- What is below a statement starts on one of its lines. -/
theorem startLine_within (hlies : d.root.LiesIn d.source) (hnested : d.root.nested = true)
    {s n : Spot} (hs : s ∈ (Spot.ofRoot d.root).preorder) (hn : n ∈ s.preorder) :
    s.label.span.startLine ≤ n.label.span.startLine ∧
      n.label.span.startLine ≤ s.label.span.endLine := by
  have hencloses := (hlies.enclosing hnested).encloses_spot hs hn
  obtain ⟨i, m, hm, rfl⟩ :=
    Spot.exists_node_of_mem_ofNode 0 d.root n (Spot.preorder_subset_of_mem _ s hs hn)
  have hspan : (Spot.ofNode i m).label.span.LiesIn d.source := by
    cases m
    exact hlies _ hm
  have hrows : (Spot.ofNode i m).label.span.startRow ≤ (Spot.ofNode i m).label.span.endRow := by
    rw [hspan.startRow, hspan.endRow]
    exact row_ofOffset_mono d.source hspan.ordered
  exact ⟨Nat.succ_le_succ hencloses.startRow,
    Nat.succ_le_succ (Nat.le_trans hrows hencloses.endRow)⟩

/-- In a declaration of Go the template starts from one of its parts. -/
def goStep : Step := ⟨some "import_spec", none⟩

/-- The ways from a statement that imports to a module that has an edge. -/
def told : Language → List Way
  | .go => [
    ⟨"import_declaration", goStep, [⟨some "interpreted_string_literal", some "path"⟩]⟩,
    ⟨"import_declaration", ⟨some "import_spec_list", none⟩,
      [goStep, ⟨some "interpreted_string_literal", some "path"⟩]⟩]
  | language => ways language

/-- The other ways in which the grammars let a statement name a module: by a clause with a call of its
own, and by a raw path. -/
def missed : Language → List Way
  | .typescript | .tsx => [
    ⟨"import_statement", ⟨some "import_require_clause", none⟩, [⟨some "string", some "source"⟩]⟩]
  | .go => [
    ⟨"import_declaration", goStep, [⟨some "raw_string_literal", some "path"⟩]⟩,
    ⟨"import_declaration", ⟨some "import_spec_list", none⟩,
      [goStep, ⟨some "raw_string_literal", some "path"⟩]⟩]
  | _ => []

/-- The statement names a module in one of these ways. -/
def WrittenIn (ws : List Way) (s : Spot) : Prop :=
  ∃ w ∈ ws, ∃ n, n ∈ w.modules s

/-- The statement imports nothing: in Go a group may be empty. -/
def ImportsNothing (language : Language) (s : Spot) : Prop :=
  language = .go ∧ ∃ group ∈ s.children, Stands "import_spec_list" none group ∧
    ∀ part ∈ group.children, ¬ Stands "import_spec" none part

instance (language : Language) (s : Spot) : Decidable (ImportsNothing language s) :=
  inferInstanceAs (Decidable (language = .go ∧ ∃ group ∈ s.children, _ ∧ _))

/-- What a parser gives for a file without errors: a tree over the source, in which every import is
written as the grammar has it. -/
structure Parsed (d : Document) : Prop where
  liesIn : d.root.LiesIn d.source
  nested : d.root.nested = true
  noErrors : d.hasErrors = false
  grammatical : ∀ s ∈ (Spot.ofRoot d.root).preorder, ∀ kind ∈ importKinds d.language,
    Stands kind none s → WrittenIn (told d.language) s ∨ WrittenIn (missed d.language) s ∨
      ImportsNothing d.language s

theorem modules_of_goStep {c n : Spot} (hc : goStep.fits c = true) {step : Step}
    (hn : n ∈ ends [step] c) : n ∈ (⟨"import_spec", step, []⟩ : Way).modules c := by
  simp only [goStep, Step.fits, Bool.and_eq_true, Option.all_some, Option.all_none,
    decide_eq_true_eq, Bool.not_eq_true'] at hc
  obtain ⟨⟨⟨hnamed, -⟩, hkind⟩, -⟩ := hc
  exact Way.mem_modules_iff.mpr ⟨⟨hkind, hnamed, nofun⟩, hn⟩

/-- A way that is told ends where one of the template's ends, and that one starts at or below the
statement. -/
theorem exists_way_of_told {language : Language} {w : Way} (hw : w ∈ told language) {s n : Spot}
    (hn : n ∈ w.modules s) : ∃ w' ∈ ways language, ∃ t ∈ s.preorder, n ∈ w'.modules t := by
  cases language with
  | go =>
    have hends := (Way.mem_modules_iff.mp hn).2
    rcases List.mem_cons.mp hw with rfl | hw
    · obtain ⟨c, hc, hfits, hn⟩ := mem_ends_cons.mp hends
      exact ⟨_, List.mem_singleton_self _, c, Spot.mem_preorder_of_child hc c.self_mem_preorder,
        modules_of_goStep hfits hn⟩
    · obtain rfl := List.mem_singleton.mp hw
      obtain ⟨group, hgroup, -, hn⟩ := mem_ends_cons.mp hends
      obtain ⟨c, hc, hfits, hn⟩ := mem_ends_cons.mp hn
      exact ⟨_, List.mem_singleton_self _, c, Spot.mem_preorder_of_child hgroup
        (Spot.mem_preorder_of_child hc c.self_mem_preorder), modules_of_goStep hfits hn⟩
  | _ => exact ⟨w, hw, s, s.self_mem_preorder, hn⟩

/-! ## Imports and edges -/

/-- Some edge is on one of the lines of the import. -/
def HasEdge (deps : Dependencies) (x : Symbol) : Prop :=
  ∃ e ∈ deps.edges, x.span.startLine ≤ e.line ∧ e.line ≤ x.span.endLine

/-- The reports on a document. -/
theorem exists_reports (d : Document) : ∃ report deps, Symbols.of d = .ok report ∧
    Dependencies.of d = .ok deps ∧
    (∀ x, x ∈ report.imports ↔ ∃ s ∈ (Spot.ofRoot d.root).preorder,
      (∃ kind ∈ importKinds d.language, Stands kind none s) ∧ x = importOf d s) ∧
    ∃ q : Query, q.clauses = moduleClauses d.language ∧ deps.edges = edges q d := by
  obtain ⟨imports, himports, hkinds⟩ := exists_imports d.language
  obtain ⟨q, hq, hclauses⟩ := exists_modules d.language
  have hmem : "functions" ∈ Template.reported ∧ "classes" ∈ Template.reported := by decide
  obtain ⟨functions, hfunctions⟩ := Symbols.exists_definitions hmem.1 "function" d
  obtain ⟨classes, hclasses⟩ := Symbols.exists_definitions hmem.2 "class" d
  let report : Symbols := {
    path := d.displayPath, language := d.language, functions, classes
    imports := (Hit.all imports d).map Symbols.ofImport }
  have hreport : Symbols.of d = .ok report := by
    simp only [Symbols.of, hfunctions, hclasses, himports, bind, Except.bind]
    rfl
  have hdeps : Dependencies.of d = .ok ⟨d.displayPath, d.language, edges q d⟩ := by
    simp only [Dependencies.of, hq, bind, Except.bind]
    rfl
  exact ⟨report, _, hreport, hdeps, fun x => mem_imports_iff hkinds, q, hclauses, rfl⟩

/-- **An import has an edge** on its lines if it names a module in a way that is told, so every import
has one that names a module at all, but for those that only do so in a way that is missed. -/
theorem import_has_edge (d : Document) (h : Parsed d) :
    ∃ report deps, Symbols.of d = .ok report ∧ Dependencies.of d = .ok deps ∧
      ∀ x ∈ report.imports, ∃ s ∈ (Spot.ofRoot d.root).preorder,
        (∃ kind ∈ importKinds d.language, Stands kind none s) ∧ x = importOf d s ∧
        (HasEdge deps x ∨ ¬ WrittenIn (told d.language) s ∧
          (WrittenIn (missed d.language) s ∨ ImportsNothing d.language s)) := by
  obtain ⟨report, deps, hreport, hdeps, himports, q, hclauses, hedges⟩ := exists_reports d
  refine ⟨report, deps, hreport, hdeps, fun x hx => ?_⟩
  obtain ⟨s, hs, ⟨kind, hkind, hstands⟩, rfl⟩ := (himports x).mp hx
  refine ⟨s, hs, ⟨kind, hkind, hstands⟩, rfl, ?_⟩
  by_cases htold : WrittenIn (told d.language) s
  · obtain ⟨w, hw, n, hn⟩ := htold
    obtain ⟨w', hw', t, ht, hn'⟩ := exists_way_of_told hw hn
    have hclause : w'.clause ∈ q.clauses := by
      rw [hclauses, moduleClauses]
      exact List.mem_append_left _ (List.mem_map_of_mem hw')
    obtain ⟨e, he, hline⟩ :=
      exists_mem_edges (d := d) hclause (Spot.preorder_subset_of_mem _ s hs ht) hn'
    refine .inl ⟨e, hedges ▸ he, ?_⟩
    rw [hline]
    exact startLine_within h.liesIn h.nested hs
      (mem_preorder_of_mem_ends (Way.mem_modules_iff.mp hn).2)
  · exact .inr ⟨htold, (h.grammatical s hs kind hkind hstands).resolve_left htold⟩

/-- Where no clause matches there are no edges. -/
theorem edges_eq_nil (hclauses : q.clauses = moduleClauses d.language)
    (h : ((moduleClauses d.language).all fun c =>
      c.pattern.all fun p => (p.allMatches 0 (levels d.root)).isEmpty) = true) :
    edges q d = [] := by
  have hrun : q.run d.root d.source = [] := by
    refine List.eq_nil_iff_forall_not_mem.mpr fun m hm => ?_
    obtain ⟨c, hc, p, hp, ⟨m', hm', -⟩, -⟩ := exists_mem_run_iff.mp ⟨m, hm, rfl, rfl⟩
    have hmem : c ∈ moduleClauses d.language := hclauses ▸ List.mem_of_getElem? hc
    have hempty := List.all_eq_true.mp h c hmem
    rw [hp, Option.all_some, List.isEmpty_iff] at hempty
    rw [hempty] at hm'
    cases hm'
  rw [edges, hrun, List.flatMap_nil, List.mergeSort_nil]

/-! ### Files with one import -/

/-- A file of Go with a tree over its source. -/
def goFile (text : String)
    (tree : (String → Bool → Option String → Nat → Nat → List Node → Node) → Node) : Document where
  project := "demo"
  path := ["a.go"]
  language := .go
  fingerprint := .of none (Text.Utf8.encode text.toList)
  source := Text.Utf8.encode text.toList
  tree := .ofRoot (tree fun kind named field first last children => .mk {
    (default : Label) with
    kind, named, field
    span := .ofOffsets (Text.Utf8.encode text.toList) first last } children) false

def oneImport : Document :=
  goFile "import \"fmt\"\n" fun node => node "source_file" true none 0 13 [
    node "import_declaration" true none 0 12 [
      node "import" false none 0 6 [],
      node "import_spec" true none 7 12 [
        node "interpreted_string_literal" true (some "path") 7 12 [
          node "\"" false none 7 8 [],
          node "interpreted_string_literal_content" true none 8 11 [],
          node "\"" false none 11 12 []]]]]

def noImport : Document :=
  goFile "package main\n\nimport ()\n" fun node => node "source_file" true none 0 24 [
    node "package_clause" true none 0 12 [
      node "package" false none 0 7 [], node "package_identifier" true none 8 12 []],
    node "import_declaration" true none 14 23 [
      node "import" false none 14 20 [],
      node "import_spec_list" true none 21 23 [
        node "(" false none 21 22 [], node ")" false none 22 23 []]]]

/-- Every import that is reported has an edge on its lines. -/
def AllHaveEdges (d : Document) : Prop :=
  ∀ report deps, Symbols.of d = .ok report → Dependencies.of d = .ok deps →
    ∀ x ∈ report.imports, HasEdge deps x

theorem import_has_edge_oneImport : Parsed oneImport ∧ AllHaveEdges oneImport := by
  have htold : ∀ s ∈ (Spot.ofRoot oneImport.root).preorder, ∀ kind ∈ importKinds .go,
      Stands kind none s → WrittenIn (told .go) s := by
    have hway : ∀ s ∈ (Spot.ofRoot oneImport.root).preorder, ∀ kind ∈ importKinds .go,
      Stands kind none s → ∃ w ∈ told .go, (w.modules s).isEmpty = false := by decide +kernel
    intro s hs kind hkind hstands
    obtain ⟨w, hw, hmodules⟩ := hway s hs kind hkind hstands
    exact ⟨w, hw, List.exists_mem_of_ne_nil _ (by simpa using hmodules)⟩
  have hparsed : Parsed oneImport := ⟨by decide +kernel, by decide +kernel, rfl,
    fun s hs kind hkind hstands => .inl (htold s hs kind hkind hstands)⟩
  refine ⟨hparsed, fun report deps hreport hdeps x hx => ?_⟩
  obtain ⟨report', deps', hreport', hdeps', himports⟩ := import_has_edge oneImport hparsed
  obtain rfl := Except.ok.inj (hreport.symm.trans hreport')
  obtain rfl := Except.ok.inj (hdeps.symm.trans hdeps')
  obtain ⟨s, hs, ⟨kind, hkind, hstands⟩, -, hedge | ⟨hnot, -⟩⟩ := himports x hx
  · exact hedge
  · exact absurd (htold s hs kind hkind hstands) hnot

/-- A group that is empty is reported as an import, and it has no edge. -/
theorem empty_group_without_edge : Parsed noImport ∧ ¬ AllHaveEdges noImport := by
  have hnothing : ∀ s ∈ (Spot.ofRoot noImport.root).preorder, ∀ kind ∈ importKinds .go,
    Stands kind none s → ImportsNothing .go s := by decide +kernel
  have himport : ∃ s ∈ (Spot.ofRoot noImport.root).preorder, ∃ kind ∈ importKinds .go,
    Stands kind none s := by decide +kernel
  have hnone : ((moduleClauses .go).all fun c => c.pattern.all fun p =>
    (p.allMatches 0 (levels noImport.root)).isEmpty) = true := by decide +kernel
  refine ⟨⟨by decide +kernel, by decide +kernel, rfl,
    fun s hs kind hkind hstands => .inr (.inr (hnothing s hs kind hkind hstands))⟩, fun hall => ?_⟩
  obtain ⟨report, deps, hreport, hdeps, himports, q, hclauses, hedges⟩ := exists_reports noImport
  obtain ⟨s, hs, hstatement⟩ := himport
  obtain ⟨e, he, -⟩ :=
    hall report deps hreport hdeps _ ((himports _).mpr ⟨s, hs, hstatement, rfl⟩)
  rw [hedges, edges_eq_nil hclauses hnone] at he
  cases he

end CodeAtlas.Analysis
