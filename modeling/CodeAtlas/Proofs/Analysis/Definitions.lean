import CodeAtlas.Analysis.Symbols
import CodeAtlas.Proofs.Query.Matches
import CodeAtlas.Proofs.Query.Templates

/-!
# Lists of definitions

The templates for functions and for classes are made of clauses of one form: a node of some kind with
a name of some kind, and perhaps a value.  So every match of such a template has one node and one
name (`Form.matches_iff`), and none is passed over because it lacks either.

A list of definitions is sorted by where its entries start and loses all but the first of those that
start at one place.  Hence it has an entry for every place where a definition starts (`Lists`), and
one for every definition if no two of them start at one place (`Lists.exact`).
-/

namespace CodeAtlas.Analysis

open Query Syntax

/-! ## Forms of definitions -/

/-- How a template writes a definition: the kind of its node, the kind of its name and, if it is to
have a value, the kinds of that. -/
structure Form where
  kind : String
  nameKind : String
  valueKinds : List String := []

namespace Form

def value (f : Form) : List (Bool × Pattern) :=
  if f.valueKinds.isEmpty then []
  else [(false, .choice (f.valueKinds.map fun kind => .construct kind (some "value") [] []))]

def items (family : String) (f : Form) : List (Bool × Pattern) :=
  (false, .construct f.nameKind (some "name") [family ++ ".name"] []) :: f.value

def clause (family : String) (f : Form) : Clause :=
  ⟨some (.construct f.kind none [family ++ ".def"] (f.items family)), []⟩

/-- The node is a definition of this form and the other one its name. -/
structure Fits (f : Form) (s n : Spot) : Prop where
  node : Stands f.kind none s
  name : Stands f.nameKind (some "name") n
  children : ∃ before after, s.children = before ++ n :: after ∧
    (f.valueKinds = [] ∨ ∃ v ∈ after, ∃ kind ∈ f.valueKinds, Stands kind (some "value") v)

/-- What a match of such a clause captures. -/
def found (family : String) (s n : Spot) : List Capture :=
  [⟨family ++ ".def", s⟩, ⟨family ++ ".name", n⟩]

variable {f : Form} {family : String} {ss : List Spot} {captures : List Capture}

theorem exists_itemsTake_value_iff :
    (∃ rest, ItemsTake f.value ss captures rest) ↔
      captures = [] ∧
        (f.valueKinds = [] ∨ ∃ v ∈ ss, ∃ kind ∈ f.valueKinds, Stands kind (some "value") v) := by
  unfold value
  cases hkinds : f.valueKinds with
  | nil => simp [itemsTake_nil_iff]
  | cons kind kinds =>
    simp only [List.isEmpty_cons, Bool.false_eq_true, if_false, reduceCtorEq, false_or,
      itemsTake_singleton_iff (p := .choice _) rfl, takes_choice_iff, List.mem_map,
      exists_exists_and_eq_and, takes_leaf_iff, List.map_nil]
    constructor
    · rintro ⟨rest, before, mid, rfl, kind, hkind, v, rfl, hv, rfl⟩
      exact ⟨rfl, v, List.mem_append_right before List.mem_cons_self, kind, hkind, hv⟩
    · rintro ⟨rfl, v, hv, kind, hkind, hstands⟩
      obtain ⟨before, rest, rfl⟩ := List.append_of_mem hv
      exact ⟨rest, before, _, rfl, kind, hkind, v, rfl, hstands, rfl⟩

theorem anyQuantifier_items : Pattern.anyQuantifier (f.items family) = false := by
  have hvalue (kinds : List String) : Pattern.eachQuantifier
      (kinds.map fun kind => .construct kind (some "value") [] []) = false := by
    induction kinds with
    | nil => rfl
    | cons kind kinds ih => exact ih
  rw [items, Pattern.anyQuantifier, value]
  split
  · rfl
  · simpa [Pattern.anyQuantifier, Pattern.construct, Pattern.hasQuantifier] using hvalue _

theorem mem_found_def_iff {s n t : Spot} : ⟨family ++ ".def", t⟩ ∈ found family s n ↔ t = s := by
  simp [found]

theorem mem_found_name_iff {s n t : Spot} :
    ⟨family ++ ".name", t⟩ ∈ found family s n ↔ t = n := by
  simp [found]

/-- **A clause of this form** captures a definition and its name, and does so wherever there is one. -/
theorem matches_iff {root : Node} {source : List UInt8} :
    (f.clause family).Matches root source captures ↔
      ∃ s ∈ (Spot.ofRoot root).preorder, ∃ n, f.Fits s n ∧ captures = found family s n := by
  rw [clause, matches_construct_iff anyQuantifier_items, and_iff_left (by simp)]
  refine exists_congr fun s => and_congr_right fun _ => ?_
  constructor
  · rintro ⟨hnode, below, rest, hitems, rfl⟩
    obtain ⟨before, mid, after, here, there, hchildren, hname, hvalue, rfl⟩ :=
      (itemsTake_cons_iff rfl).mp hitems
    obtain ⟨n, rfl, hstands, rfl⟩ := takes_leaf_iff.mp hname
    obtain ⟨rfl, hkinds⟩ := exists_itemsTake_value_iff.mp ⟨rest, hvalue⟩
    exact ⟨n, ⟨hnode, hstands, before, after, hchildren, hkinds⟩, rfl⟩
  · rintro ⟨n, ⟨hnode, hstands, before, after, hchildren, hvalue⟩, rfl⟩
    obtain ⟨rest, hrest⟩ := exists_itemsTake_value_iff.mpr ⟨rfl, hvalue⟩
    exact ⟨hnode, _, rest, (itemsTake_cons_iff rfl).mpr ⟨before, n :: after, after, _, [], hchildren,
      takes_leaf_iff.mpr ⟨n, rfl, hstands, rfl⟩, hrest, rfl⟩, rfl⟩

end Form

/-! ## Templates of definitions -/

/-- The functions of a language with arrow functions. -/
def arrowForms : List Form := [
  ⟨"function_declaration", "identifier", []⟩, ⟨"method_definition", "property_identifier", []⟩,
  ⟨"variable_declarator", "identifier", ["arrow_function", "function_expression"]⟩]

def functionForms : Language → List Form
  | .python => [⟨"function_definition", "identifier", []⟩]
  | .rust => [⟨"function_item", "identifier", []⟩]
  | .javascript | .typescript | .tsx => arrowForms
  | .go => [
    ⟨"function_declaration", "identifier", []⟩, ⟨"method_declaration", "field_identifier", []⟩]

/-- Classes and what else declares a type of its own name. -/
def declaredForms : List Form := [
  ⟨"class_declaration", "type_identifier", []⟩, ⟨"interface_declaration", "type_identifier", []⟩,
  ⟨"enum_declaration", "identifier", []⟩, ⟨"type_alias_declaration", "type_identifier", []⟩]

def classForms : Language → List Form
  | .python => [⟨"class_definition", "identifier", []⟩]
  | .rust =>
    ["struct_item", "enum_item", "trait_item", "type_item"].map fun kind =>
      ⟨kind, "type_identifier", []⟩
  | .javascript => [⟨"class_declaration", "identifier", []⟩]
  | .typescript | .tsx => declaredForms
  | .go => [⟨"type_spec", "type_identifier", []⟩]

/-- The query has the clauses of these forms. -/
def MadeOf (q : Query) (family : String) (forms : List Form) : Prop :=
  q.clauses = forms.map (Form.clause family)

set_option maxRecDepth 4000 in
theorem exists_functions (language : Language) :
    ∃ q, Template.query language "functions" = .ok q ∧
      MadeOf q "function" (functionForms language) := by
  cases language <;> exact Template.exists_query_of_readsAs rfl rfl (by decide +kernel)

set_option maxRecDepth 4000 in
theorem exists_classes (language : Language) :
    ∃ q, Template.query language "classes" = .ok q ∧ MadeOf q "class" (classForms language) := by
  cases language <;> exact Template.exists_query_of_readsAs rfl rfl (by decide +kernel)

/-! ## What a template defines -/

/-- In some match of the query these nodes are a definition and its name. -/
def Names (q : Query) (family : String) (d : Document) (s n : Spot) : Prop :=
  ∃ m ∈ q.run d.root d.source,
    ⟨family ++ ".def", s⟩ ∈ m.found.captures ∧ ⟨family ++ ".name", n⟩ ∈ m.found.captures

/-- In some match of the query the node is a definition. -/
def Defines (q : Query) (family : String) (d : Document) (s : Spot) : Prop :=
  ∃ m ∈ q.run d.root d.source, ⟨family ++ ".def", s⟩ ∈ m.found.captures

variable {q : Query} {family : String} {forms : List Form} {d : Document} {s n : Spot}

/-- The symbol of a definition and its name. -/
def symbolOf (d : Document) (s n : Spot) : Symbol :=
  ⟨n.label.span.text d.source, s.label.kind, s.label.span⟩

theorem exists_found_of_mem_run (h : MadeOf q family forms) {m : Match}
    (hm : m ∈ q.run d.root d.source) :
    ∃ f ∈ forms, ∃ s ∈ (Spot.ofRoot d.root).preorder, ∃ n, f.Fits s n ∧
      m.found.captures = Form.found family s n := by
  obtain ⟨c, hc, hmatches⟩ := exists_mem_run_iff.mp ⟨m, hm, rfl, rfl⟩
  have hmem := List.mem_of_getElem? hc
  rw [h] at hmem
  obtain ⟨f, hf, rfl⟩ := List.mem_map.mp hmem
  obtain ⟨s, hs, n, hfits, hcaptures⟩ := Form.matches_iff.mp hmatches
  exact ⟨f, hf, s, hs, n, hfits, hcaptures⟩

/-- A definition of a template is a node of the tree that has one of the forms. -/
theorem names_iff (h : MadeOf q family forms) :
    Names q family d s n ↔ s ∈ (Spot.ofRoot d.root).preorder ∧ ∃ f ∈ forms, f.Fits s n := by
  constructor
  · rintro ⟨m, hm, hs, hn⟩
    obtain ⟨f, hf, s', hs', n', hfits, hcaptures⟩ := exists_found_of_mem_run h hm
    rw [hcaptures] at hs hn
    obtain rfl := Form.mem_found_def_iff.mp hs
    obtain rfl := Form.mem_found_name_iff.mp hn
    exact ⟨hs', f, hf, hfits⟩
  · rintro ⟨hs, f, hf, hfits⟩
    have hclause : f.clause family ∈ q.clauses := h ▸ List.mem_map_of_mem hf
    obtain ⟨i, hi⟩ := List.mem_iff_getElem?.mp hclause
    obtain ⟨m, hm, -, hcaptures⟩ :=
      exists_mem_run_iff.mpr ⟨_, hi, Form.matches_iff.mpr ⟨s, hs, n, hfits, rfl⟩⟩
    exact ⟨m, hm, hcaptures ▸ Form.mem_found_def_iff.mpr rfl,
      hcaptures ▸ Form.mem_found_name_iff.mpr rfl⟩

/-- No definition is without a name. -/
theorem defines_iff (h : MadeOf q family forms) :
    Defines q family d s ↔ ∃ n, Names q family d s n := by
  constructor
  · rintro ⟨m, hm, hs⟩
    obtain ⟨f, hf, s', hs', n, hfits, hcaptures⟩ := exists_found_of_mem_run h hm
    refine ⟨n, m, hm, hs, hcaptures ▸ Form.mem_found_name_iff.mpr rfl⟩
  · rintro ⟨n, m, hm, hs, -⟩
    exact ⟨m, hm, hs⟩

theorem ofMatch?_eq {m : Match} (h : m.found.captures = Form.found family s n) :
    Symbols.ofMatch? family d.source m = some (symbolOf d s n) := by
  have hname : m.nodes (family ++ ".name") = [n] := by simp [Match.nodes, h, Form.found]
  have hdef : m.nodes (family ++ ".def") = [s] := by simp [Match.nodes, h, Form.found]
  simp [Symbols.ofMatch?, hname, hdef, symbolOf]

/-- What is listed before the list is sorted. -/
theorem mem_filterMap_ofMatch_iff (h : MadeOf q family forms) {x : Symbol} :
    x ∈ (q.run d.root d.source).filterMap (Symbols.ofMatch? family d.source) ↔
      ∃ s n, Names q family d s n ∧ x = symbolOf d s n := by
  rw [List.mem_filterMap]
  constructor
  · rintro ⟨m, hm, hx⟩
    obtain ⟨f, hf, s, hs, n, hfits, hcaptures⟩ := exists_found_of_mem_run h hm
    rw [ofMatch?_eq hcaptures, Option.some.injEq] at hx
    exact ⟨s, n, (names_iff h).mpr ⟨hs, f, hf, hfits⟩, hx.symm⟩
  · rintro ⟨s, n, ⟨m, hm, hs, hn⟩, rfl⟩
    obtain ⟨f, hf, s', hs', n', hfits, hcaptures⟩ := exists_found_of_mem_run h hm
    refine ⟨m, hm, ?_⟩
    rw [hcaptures] at hs hn
    obtain rfl := Form.mem_found_def_iff.mp hs
    obtain rfl := Form.mem_found_name_iff.mp hn
    exact ofMatch?_eq hcaptures

/-! ## Symbols with different starts -/

namespace Symbols

theorem distinctStarts_sublist (symbols : List Symbol) :
    (distinctStarts symbols).Sublist symbols := by
  fun_induction distinctStarts symbols with
  | case1 => exact .slnil
  | case2 s => exact List.Sublist.refl [s]
  | case3 s t rest h ih => exact ih.trans ((List.sublist_cons_self t rest).cons_cons s)
  | case4 s t rest h ih => exact ih.cons_cons s

/-- Where symbols are sorted, those that stay start one after the other. -/
theorem pairwise_distinctStarts {symbols : List Symbol}
    (h : symbols.Pairwise fun s t => s.span.startByte ≤ t.span.startByte) :
    (distinctStarts symbols).Pairwise fun s t => s.span.startByte < t.span.startByte := by
  fun_induction distinctStarts symbols with
  | case1 => exact .nil
  | case2 s => exact List.pairwise_singleton _ s
  | case3 s t rest heq ih => exact ih (h.sublist ((List.sublist_cons_self t rest).cons_cons s))
  | case4 s t rest hne ih =>
    obtain ⟨hfirst, hrest⟩ := List.pairwise_cons.mp h
    have hlt := Nat.lt_of_le_of_ne (hfirst t List.mem_cons_self) hne
    refine List.pairwise_cons.mpr ⟨fun u hu => Nat.lt_of_lt_of_le hlt ?_, ih hrest⟩
    rcases List.mem_cons.mp ((distinctStarts_sublist (t :: rest)).subset hu) with rfl | hu
    · exact Nat.le_refl _
    · exact (List.pairwise_cons.mp hrest).1 u hu

/-- What is dropped starts where something starts that stays. -/
theorem exists_mem_distinctStarts {symbols : List Symbol} {s : Symbol} (h : s ∈ symbols) :
    ∃ t ∈ distinctStarts symbols, t.span.startByte = s.span.startByte := by
  fun_induction distinctStarts symbols generalizing s with
  | case1 => cases h
  | case2 t => exact ⟨s, h, rfl⟩
  | case3 t u rest heq ih =>
    rcases List.mem_cons.mp h with rfl | h
    · exact ih List.mem_cons_self
    rcases List.mem_cons.mp h with rfl | h
    · exact heq ▸ ih (s := t) List.mem_cons_self
    · exact ih (List.mem_cons_of_mem t h)
  | case4 t u rest hne ih =>
    rcases List.mem_cons.mp h with rfl | h
    · exact ⟨s, List.mem_cons_self, rfl⟩
    · exact (ih h).imp fun v hv => ⟨List.mem_cons_of_mem t hv.1, hv.2⟩

end Symbols

/-! ## Lists of definitions -/

/-- The symbols are definitions in the order of their starts, with one at each start of one. -/
structure Lists (q : Query) (family : String) (d : Document) (symbols : List Symbol) : Prop where
  increasing : symbols.Pairwise fun x y => x.span.startByte < y.span.startByte
  sound : ∀ x ∈ symbols, ∃ s n, Names q family d s n ∧ x = symbolOf d s n
  complete : ∀ s, Defines q family d s →
    ∃ x ∈ symbols, x.span.startByte = s.label.span.startByte

theorem exists_definitions {template : String} (hquery : Template.query d.language template = .ok q)
    (h : MadeOf q family forms) :
    ∃ symbols, Symbols.definitions template family d = .ok symbols ∧ Lists q family d symbols := by
  refine ⟨_, by simp only [Symbols.definitions, hquery, bind, Except.bind]; rfl, ?_, ?_, ?_⟩
  · refine Symbols.pairwise_distinctStarts ?_
    have hsorted (symbols : List Symbol) : (symbols.mergeSort Symbols.startsNoLater).Pairwise
        fun x y => Symbols.startsNoLater x y = true :=
      List.pairwise_mergeSort (fun x y z hxy hyz => by simp [Symbols.startsNoLater] at *; omega)
        (fun x y => by simp [Symbols.startsNoLater]; omega) symbols
    exact (hsorted _).imp fun hle => by simpa [Symbols.startsNoLater] using hle
  · intro x hx
    have hfound := (Symbols.distinctStarts_sublist _).subset hx
    exact (mem_filterMap_ofMatch_iff h).mp (List.mem_mergeSort.mp hfound)
  · intro s hs
    obtain ⟨n, hn⟩ := (defines_iff h).mp hs
    exact Symbols.exists_mem_distinctStarts (s := symbolOf d s n)
      (List.mem_mergeSort.mpr ((mem_filterMap_ofMatch_iff h).mpr ⟨s, n, hn, rfl⟩))

/-- The symbols are, in this order, those of the nodes. -/
def OneEach (q : Query) (family : String) (d : Document) (nodes : List Spot)
    (symbols : List Symbol) : Prop :=
  List.Forall₂ (fun s x => ∃ n, Names q family d s n ∧ x = symbolOf d s n) nodes symbols

/-- No two definitions start at one place. -/
def StartsApart (q : Query) (family : String) (d : Document) : Prop :=
  ∀ s t, Defines q family d s → Defines q family d t →
    s.label.span.startByte = t.label.span.startByte → s = t

theorem Lists.exact {symbols : List Symbol} (h : Lists q family d symbols)
    (hapart : StartsApart q family d) :
    ∃ nodes : List Spot, nodes.Nodup ∧ (∀ s, s ∈ nodes ↔ Defines q family d s) ∧
      OneEach q family d nodes symbols := by
  have hsound : ∀ x ∈ symbols, ∃ s n, Names q family d s n ∧ x = symbolOf d s n := h.sound
  choose! node name hnames hsymbol using hsound
  have hstart : ∀ x ∈ symbols, x.span.startByte = (node x).label.span.startByte :=
    fun x hx => congrArg (fun y => y.span.startByte) (hsymbol x hx)
  have hdefines : ∀ x ∈ symbols, Defines q family d (node x) := by
    intro x hx
    obtain ⟨m, hm, hs, -⟩ := hnames x hx
    exact ⟨m, hm, hs⟩
  refine ⟨symbols.map node, ?_, fun s => ?_, ?_⟩
  · refine List.pairwise_map.mpr (h.increasing.imp_of_mem fun {x y} hx hy hlt hsame => ?_)
    rw [hstart x hx, hstart y hy, hsame] at hlt
    exact Nat.lt_irrefl _ hlt
  · rw [List.mem_map]
    constructor
    · rintro ⟨x, hx, rfl⟩
      exact hdefines x hx
    · intro hs
      obtain ⟨x, hx, hxs⟩ := h.complete s hs
      exact ⟨x, hx, hapart _ _ (hdefines x hx) hs ((hstart x hx).symm.trans hxs)⟩
  · refine List.forall₂_map_left_iff.mpr (List.forall₂_same.mpr fun x hx => ?_)
    exact ⟨name x, hnames x hx, hsymbol x hx⟩

/-- The list has one symbol for each definition, in the order of their starts. -/
structure Exact (q : Query) (family : String) (d : Document) (symbols : List Symbol) : Prop where
  increasing : symbols.Pairwise fun x y => x.span.startByte < y.span.startByte
  exact : StartsApart q family d → ∃ nodes : List Spot, nodes.Nodup ∧
    (∀ s, s ∈ nodes ↔ Defines q family d s) ∧ OneEach q family d nodes symbols

/-- **The lists of functions and classes** are those of the definitions that the templates find. -/
theorem symbols_exact (d : Document) : ∃ report functions classes, Symbols.of d = .ok report ∧
    Template.query d.language "functions" = .ok functions ∧
    Template.query d.language "classes" = .ok classes ∧
    Exact functions "function" d report.functions ∧ Exact classes "class" d report.classes := by
  obtain ⟨functions, hfunctions, hforms⟩ := exists_functions d.language
  obtain ⟨classes, hclasses, hforms'⟩ := exists_classes d.language
  have hmem : "imports" ∈ Template.reported := by decide
  obtain ⟨imports, himports⟩ := Template.exists_query d.language hmem
  obtain ⟨listed, hlisted, hexact⟩ := exists_definitions hfunctions hforms
  obtain ⟨listed', hlisted', hexact'⟩ := exists_definitions hclasses hforms'
  let report : Symbols := {
    path := d.displayPath, language := d.language, functions := listed, classes := listed'
    imports := (Hit.all imports d).map Symbols.ofImport }
  have hreport : Symbols.of d = .ok report := by
    simp only [Symbols.of, hlisted, hlisted', himports, bind, Except.bind]
    rfl
  exact ⟨report, functions, classes, hreport, hfunctions, hclasses,
    ⟨hexact.increasing, hexact.exact⟩, ⟨hexact'.increasing, hexact'.exact⟩⟩

/-! ### A file with one function -/

/-- The tree of `def f(): f`, without the block. -/
def oneFunction : Document where
  project := "demo"
  path := ["a.py"]
  language := .python
  fingerprint := .of none [100, 101, 102, 32, 102, 40, 41, 58, 32, 102]
  source := [100, 101, 102, 32, 102, 40, 41, 58, 32, 102]
  tree := .ofRoot (node "module" none 0 10 [
    node "function_definition" none 0 10 [
      node "identifier" (some "name") 4 5 [], node "identifier" none 9 10 []]]) false
where
  node (kind : String) (field : Option String) (first last : Nat) (children : List Node) : Node :=
    .mk { (default : Label) with
      kind, field, named := true
      span := { (default : Span) with startByte := first, endByte := last } } children

theorem symbols_exact_oneFunction : ∃ report functions, Symbols.of oneFunction = .ok report ∧
    Template.query .python "functions" = .ok functions ∧
    StartsApart functions "function" oneFunction ∧
    ∃ nodes : List Spot, nodes.Nodup ∧
      (∀ s, s ∈ nodes ↔ Defines functions "function" oneFunction s) ∧
      OneEach functions "function" oneFunction nodes report.functions := by
  obtain ⟨report, functions, classes, hreport, hfunctions, -, hexact, -⟩ :=
    symbols_exact oneFunction
  obtain ⟨q, hq, hforms⟩ := exists_functions .python
  obtain rfl := Except.ok.inj (hfunctions.symm.trans hq)
  have hone : ∀ s, Defines functions "function" oneFunction s →
      s ∈ (Spot.ofRoot oneFunction.root).preorder ∧ s.index = 1 := by
    intro s hs
    obtain ⟨n, hn⟩ := (defines_iff hforms).mp hs
    obtain ⟨hmem, f, hf, hfits⟩ := (names_iff hforms).mp hn
    obtain rfl := List.mem_singleton.mp hf
    have honly : ∀ s ∈ (Spot.ofRoot oneFunction.root).preorder,
      s.label.kind = "function_definition" → s.index = 1 := by decide +kernel
    exact ⟨hmem, honly s hmem hfits.node.kind⟩
  have hapart : StartsApart functions "function" oneFunction := fun s t hs ht _ =>
    Spot.eq_of_index_eq (hone s hs).1 (hone t ht).1 ((hone s hs).2.trans (hone t ht).2.symm)
  exact ⟨report, functions, hreport, hfunctions, hapart, hexact.exact hapart⟩

end CodeAtlas.Analysis
