import CodeAtlas.Proofs.Query.Appending
import CodeAtlas.Proofs.Query.Matches
import CodeAtlas.Proofs.Query.Templates
import Mathlib.Data.Set.Basic

/-!
# Joined templates

Templates are joined as texts, each without the blanks around it and under a comment with its name.
What the joined text means depends on how it is read: a part must end where it ends alone, whatever
part comes next.

A text is read as one clause after the other (`Clauses`), so the clauses of two texts are those of
the first and then those of the second (`HasClauses.append`).  Each template can stand as a part
(`joins_of_mem`), so the joined text has the clauses of its templates (`exists_join`), and a query
captures what its clauses match (`mem_captured_iff`).
-/

namespace CodeAtlas.Query

open Syntax (Node)

variable {language : Language} {x cs : List Char} {clauses clauses' : List Clause}

/-! ## The clauses of a text -/

/-- Up to its end the text is read as these clauses, one after the other. -/
inductive Clauses (language : Language) : Progress → List Clause → Prop
  | done {p : Progress} : p.rest = [] → Clauses language p []
  | next {p q : Progress} {pattern : Option Pattern} {predicates : List (Option Predicate)}
    {clauses : List Clause} : p.rest ≠ [] →
    readPattern language (2 * p.rest.length + 2) p = .ok (pattern, q) →
    q.calls.mapM Call.predicate = .ok predicates →
    Clauses language { q with calls := [] } clauses →
    Clauses language p (⟨pattern, predicates.filterMap id⟩ :: clauses)

theorem Clauses.readDrafts {p : Progress} (h : Clauses language p clauses) (whole : List Char)
    (drafts : List Draft) {fuel : Nat} (hfuel : clauses.length < fuel) :
    ∃ ds names, Query.readDrafts language fuel drafts p = .ok (drafts.reverse ++ ds, names) ∧
      ds.mapM (Draft.clause whole) = .ok clauses := by
  induction h generalizing drafts fuel with
  | @done p hend =>
    obtain ⟨fuel, rfl⟩ := Nat.exists_eq_add_one_of_ne_zero (Nat.ne_of_gt hfuel)
    exact ⟨[], p.names, by simp [Query.readDrafts, hend], rfl⟩
  | @next p q pattern predicates clauses hmore hread hpredicates _ ih =>
    obtain ⟨fuel, rfl⟩ := Nat.exists_eq_add_one_of_ne_zero (Nat.ne_zero_of_lt hfuel)
    obtain ⟨ds, names, hds, hclauses⟩ :=
      ih (⟨p.rest, pattern, q.calls⟩ :: drafts) (Nat.lt_of_succ_lt_succ hfuel)
    refine ⟨⟨p.rest, pattern, q.calls⟩ :: ds, names, ?_, ?_⟩
    · rw [Query.readDrafts, if_neg (by simpa using hmore), hread]
      rw [List.reverse_cons, List.append_assoc] at hds
      exact hds
    · rw [List.mapM_cons, hclauses]
      simp only [Draft.clause, hpredicates]
      rfl

theorem clauses_of_readDrafts {fuel : Nat} (whole : List Char) {drafts ds : List Draft}
    {names : List String} {p : Progress}
    (h : readDrafts language fuel drafts p = .ok (ds, names)) :
    ∃ ds', ds = drafts.reverse ++ ds' ∧ ∀ clauses, ds'.mapM (Draft.clause whole) = .ok clauses →
      clauses.length < fuel ∧ Clauses language p clauses := by
  induction fuel generalizing drafts p with
  | zero => cases h
  | succ fuel ih =>
    rw [readDrafts] at h
    split at h
    · rename_i hend
      cases h
      refine ⟨[], (List.append_nil _).symm, ?_⟩
      rintro _ ⟨⟩
      exact ⟨Nat.succ_pos fuel, .done (by simpa using hend)⟩
    · rename_i hmore
      cases hread : readPattern language (2 * p.rest.length + 2) p with
      | error stop =>
        rw [hread] at h
        cases h
      | ok found =>
        obtain ⟨pattern, q⟩ := found
        rw [hread] at h
        obtain ⟨ds', hds, hclauses⟩ := ih h
        refine ⟨⟨p.rest, pattern, q.calls⟩ :: ds', by simpa using hds, fun clauses h => ?_⟩
        rw [List.mapM_cons] at h
        cases hpredicates : q.calls.mapM Call.predicate with
        | error message =>
          simp only [Draft.clause, hpredicates] at h
          cases h
        | ok predicates =>
          simp only [Draft.clause, hpredicates] at h
          cases hrest : ds'.mapM (Draft.clause whole) with
          | error e =>
            rw [hrest] at h
            cases h
          | ok rest =>
            rw [hrest] at h
            cases h
            obtain ⟨hlength, hnext⟩ := hclauses rest hrest
            exact ⟨Nat.succ_lt_succ hlength, .next (by simpa using hmore) hread hpredicates hnext⟩

/-- The text has these clauses, and no more of them than it has characters. -/
structure HasClauses (language : Language) (cs : List Char) (clauses : List Clause) : Prop where
  length_le : clauses.length ≤ cs.length
  clauses : Clauses language ⟨skipBlanks cs, [], []⟩ clauses

theorem exists_compile_iff {source : String} :
    (∃ q, Query.compile language source = .ok q ∧ q.clauses = clauses) ↔
      HasClauses language source.toList clauses := by
  constructor
  · rintro ⟨q, hq, rfl⟩
    rw [Query.compile] at hq
    split at hq
    · cases hq
    · rename_i drafts captures hdrafts
      obtain ⟨ds, hds, hclauses⟩ := clauses_of_readDrafts source.toList hdrafts
      obtain rfl : drafts = ds := hds
      cases hmap : drafts.mapM (Draft.clause source.toList) with
      | error e =>
        rw [hmap] at hq
        cases hq
      | ok clauses =>
        rw [hmap] at hq
        cases hq
        obtain ⟨hlength, h⟩ := hclauses clauses hmap
        exact ⟨Nat.le_of_lt_succ hlength, h⟩
  · intro h
    obtain ⟨ds, names, hds, hclauses⟩ :=
      h.clauses.readDrafts source.toList [] (Nat.lt_succ_of_le h.length_le)
    refine ⟨⟨clauses, names⟩, ?_, rfl⟩
    rw [Query.compile]
    simp only [hds, List.reverse_nil, List.nil_append, hclauses]
    rfl

/-! ## Text after text -/

/-- What follows is read with the names known by then. -/
theorem Clauses.append_of {p p' : Progress} (hx : Follows x) (h : Clauses language p clauses)
    (hcalls : p.calls = []) (hp : Ready x p p')
    (hnext : ∀ q : Progress, q.rest = skipBlanks x → q.calls = [] → Clauses language q clauses') :
    Clauses language p' (clauses ++ clauses') := by
  induction h generalizing p' with
  | done hend =>
    have hrest := hp.rest.longer
    rw [hend] at hrest
    exact hnext p' hrest (hp.calls.trans hcalls)
  | @next p q pattern predicates clauses hmore hread hpredicates _ ih =>
    obtain ⟨c, cs, hcons⟩ := List.exists_cons_of_ne_nil hmore
    have hrest' : p'.rest = c :: (cs ++ x) := by
      have hrest := hp.rest
      rw [hcons] at hrest
      exact hrest.of_cons
    have hfuel : 2 * p.rest.length + 2 ≤ 2 * p'.rest.length + 2 := by
      rw [hcons, hrest', List.length_cons, List.length_cons, List.length_append]
      omega
    obtain ⟨⟨pattern', q'⟩, hread', hpattern, hq⟩ :=
      (readsOn hx language _).pattern hfuel hp _ hread
    obtain rfl : pattern = pattern' := hpattern
    refine .next (by simp [hrest']) hread' (hq.calls ▸ hpredicates) ?_
    exact ih rfl ⟨⟨rfl, hq.names⟩, hq.rest⟩

/-- Names that are known do no harm. -/
theorem Clauses.knowing {p p' : Progress} (h : Clauses language p clauses) (hcalls : p.calls = [])
    (hp : Knows p p') (hrest : p'.rest = p.rest) (hskipped : skipBlanks p.rest = p.rest) :
    Clauses language p' clauses := by
  have hx : Follows [] := ⟨nofun, nofun⟩
  have hready : Ready [] p p' := ⟨hp, hskipped, by rw [List.append_nil, hskipped, hrest]⟩
  have happend := h.append_of hx hcalls hready fun q hq _ => .done hq
  rwa [List.append_nil] at happend

/-- **The clauses of two texts** are those of the one and those of the other. -/
theorem HasClauses.append (hx : Follows x) (h : HasClauses language cs clauses)
    (h' : HasClauses language x clauses') : HasClauses language (cs ++ x) (clauses ++ clauses') where
  length_le := by
    rw [List.length_append, List.length_append]
    exact Nat.add_le_add h.length_le h'.length_le
  clauses := by
    refine h.clauses.append_of hx rfl ⟨⟨rfl, List.Subset.refl []⟩, .skipBlanks hx cs⟩ ?_
    intro q hq hcalls
    exact h'.clauses.knowing rfl ⟨hcalls, List.nil_subset _⟩ hq (skipBlanks_skipBlanks x)

theorem HasClauses.of_skipBlanks_eq {cs' : List Char} (h : HasClauses language cs clauses)
    (hskip : skipBlanks cs' = skipBlanks cs) (hlength : cs.length ≤ cs'.length) :
    HasClauses language cs' clauses :=
  ⟨Nat.le_trans h.length_le hlength, hskip ▸ h.clauses⟩

/-- A line of comment is passed over. -/
theorem skipBlanks_comment {comment : List Char} (h : ∀ c ∈ comment, c ≠ '\n' ∧ c ≠ '\x00')
    (cs : List Char) : skipBlanks (';' :: (comment ++ '\n' :: cs)) = skipBlanks cs := by
  have hpass : skipFrom true (comment ++ '\n' :: cs) = skipFrom false cs := by
    induction comment with
    | nil => rfl
    | cons c comment ih =>
      obtain ⟨⟨hline, hnul⟩, hrest⟩ := List.forall_mem_cons.mp h
      rw [List.cons_append, skipFrom, if_pos rfl, if_neg hnul, decide_eq_true hline]
      exact ih hrest
  exact hpass

namespace Template

/-! ## Parts -/

/-- The line above a part. -/
def heading (name : String) (version : Nat) : List Char :=
  (s!" {name} v{version}").toList

/-- Whether the characters of a template without the blanks around them are read, so that only
newlines stand around what is read. -/
def standsAlone (language : Language) (cs : List Char) : Bool :=
  (cs = Text.trim cs || cs = '\n' :: (Text.trim cs ++ ['\n'])) &&
    (Text.trim cs).head? = some '(' && reads language (Text.trim cs)

set_option maxRecDepth 4000 in
theorem standsAlone_of_mem {t : Template} (h : t ∈ ofLanguage language) :
    ∃ cs, t.source = String.ofList cs ∧ standsAlone language cs = true := by
  cases language <;> simp only [ofLanguage, five, List.mem_cons, List.not_mem_nil, or_false] at h <;>
    rcases h with rfl | rfl | rfl | rfl | rfl <;> exact ⟨_, rfl, by decide +kernel⟩

theorem heading_of_mem {t : Template} (h : t ∈ ofLanguage language) :
    t.language = language ∧ (heading t.name t.version).all (fun c => c ≠ '\n' && c ≠ '\x00') := by
  cases language <;> simp only [ofLanguage, five, List.mem_cons, List.not_mem_nil, or_false] at h <;>
    rcases h with rfl | rfl | rfl | rfl | rfl <;> exact ⟨rfl, by decide +kernel⟩

theorem mem_ofLanguage_of_find {name : String} {t : Template} (h : find language name = .ok t) :
    t ∈ ofLanguage language ∧ t.name = name := by
  unfold find at h
  split at h
  · rename_i found hfound
    cases h
    exact ⟨List.mem_of_find?_eq_some hfound, by simpa using List.find?_some hfound⟩
  · cases h

theorem find_of_known {name : String} (h : ∃ t ∈ ofLanguage language, t.name = name) :
    ∃ t, find language name = .ok t := by
  unfold find
  split
  · exact ⟨_, rfl⟩
  · rename_i hnone
    obtain ⟨t, ht, hname⟩ := h
    exact absurd hname (by simpa using List.find?_eq_none.mp hnone t ht)

theorem find_of_unknown {name : String} (h : ¬ ∃ t ∈ ofLanguage language, t.name = name) :
    find language name = .error (.templateNotFound language.id name) := by
  cases hfind : find language name with
  | ok t => exact absurd ⟨t, mem_ofLanguage_of_find hfind⟩ h
  | error e =>
    unfold find at hfind
    split at hfind
    · cases hfind
    · cases hfind
      rfl

/-- The characters of a part. -/
def partText (t : Template) : List Char :=
  (part t).toList

theorem partText_eq (t : Template) :
    t.partText = ';' :: (heading t.name t.version ++ '\n' :: Text.trim t.source.toList) := by
  simp [partText, part, heading, String.strip, toString]

/-- The template is read in the same way alone and as a part. -/
structure Joins (t : Template) (q : Query) : Prop where
  alone : t.compile = .ok q
  joined : HasClauses t.language t.partText q.clauses
  begins : (skipBlanks t.partText).head? = some '('

theorem joins_of_mem {t : Template} (h : t ∈ ofLanguage language) : ∃ q, t.Joins q := by
  obtain ⟨cs, hsource, hcs⟩ := standsAlone_of_mem h
  obtain ⟨rfl, hheading⟩ := heading_of_mem h
  have hcomment : ∀ c ∈ heading t.name t.version, c ≠ '\n' ∧ c ≠ '\x00' := by simpa using hheading
  simp only [standsAlone, Bool.and_eq_true, Bool.or_eq_true, decide_eq_true_eq] at hcs
  obtain ⟨⟨haround, hbegins⟩, hreads⟩ := hcs
  obtain ⟨core, hcore⟩ : ∃ core, core = Text.trim cs := ⟨_, rfl⟩
  rw [← hcore] at haround hbegins hreads
  obtain ⟨q, hq⟩ := exists_compile_of_reads hreads
  have hclauses : HasClauses t.language core q.clauses := by
    simpa using exists_compile_iff.mp ⟨q, hq, rfl⟩
  have halone : HasClauses t.language cs q.clauses := by
    rcases haround with rfl | rfl
    · exact hclauses
    · have hnewline : Follows ['\n'] := ⟨by simp, nofun⟩
      have hend := hclauses.append hnewline ⟨Nat.zero_le _, .done rfl⟩
      rw [List.append_nil] at hend
      exact hend.of_skipBlanks_eq rfl (Nat.le_succ _)
  have hwhole : HasClauses t.language t.source.toList q.clauses := by
    rwa [hsource, String.toList_ofList]
  obtain ⟨q', hq', hsame⟩ := exists_compile_iff.mpr hwhole
  have hpart : t.partText = ';' :: (heading t.name t.version ++ '\n' :: core) := by
    rw [partText_eq, hsource, String.toList_ofList, hcore]
  have hskip : skipBlanks t.partText = skipBlanks core := by
    rw [hpart, skipBlanks_comment hcomment]
  refine ⟨q', hq', ?_, ?_⟩
  · rw [hsame]
    refine hclauses.of_skipBlanks_eq hskip ?_
    rw [hpart]
    simp
    omega
  · obtain ⟨rest, rfl⟩ := List.head?_eq_some_iff.mp hbegins
    rw [hskip]
    rfl

/-! ## Joined parts -/

theorem reads_intercalate {ts : List Template} {q : Template → Query} (hts : ts ≠ [])
    (hlanguage : ∀ t ∈ ts, t.language = language) (hjoins : ∀ t ∈ ts, t.Joins (q t)) :
    HasClauses language (['\n', '\n'].intercalate (ts.map partText)) (ts.flatMap fun t => (q t).clauses) ∧
      (skipBlanks (['\n', '\n'].intercalate (ts.map partText))).head? = some '(' := by
  induction ts with
  | nil => exact absurd rfl hts
  | cons t ts ih =>
    obtain ⟨rfl, hlanguages⟩ := List.forall_mem_cons.mp hlanguage
    obtain ⟨ht, hrest⟩ := List.forall_mem_cons.mp hjoins
    cases ts with
    | nil => simpa using ⟨ht.joined, ht.begins⟩
    | cons t' ts =>
      obtain ⟨hreads, hbegins⟩ := ih (List.cons_ne_nil t' ts) hlanguages hrest
      obtain ⟨rest, hstart⟩ := List.head?_eq_some_iff.mp ht.begins
      rw [List.map_cons, List.map_cons, List.intercalate_cons_cons, List.flatMap_cons,
        List.append_assoc, skipBlanks_append_of_cons hstart]
      rw [List.map_cons] at hreads hbegins
      have hfollows : Follows (['\n', '\n'] ++ ['\n', '\n'].intercalate
          (t'.partText :: ts.map partText)) := by
        refine ⟨by simp, fun c hc => ?_⟩
        obtain rfl := Option.some.inj (hbegins.symm.trans hc)
        decide
      exact ⟨ht.joined.append hfollows (hreads.of_skipBlanks_eq rfl (by simp; omega)), rfl⟩

theorem mapM_find_of_known {names : List String}
    (h : ∀ name ∈ names, ∃ t ∈ ofLanguage language, t.name = name) :
    ∃ ts, names.mapM (find language) = .ok ts ∧
      ∀ t, t ∈ ts ↔ ∃ name ∈ names, find language name = .ok t := by
  induction names with
  | nil => exact ⟨[], rfl, by simp⟩
  | cons name names ih =>
    obtain ⟨hname, hnames⟩ := List.forall_mem_cons.mp h
    obtain ⟨t, ht⟩ := find_of_known hname
    obtain ⟨ts, hts, hmem⟩ := ih hnames
    refine ⟨t :: ts, by rw [List.mapM_cons, ht, hts]; rfl, fun t' => ?_⟩
    rw [List.mem_cons, hmem, List.exists_mem_cons_iff, ht, Except.ok.injEq, eq_comm]

theorem mapM_find_of_unknown {front back : List String} {name : String}
    (hfront : ∀ known ∈ front, ∃ t ∈ ofLanguage language, t.name = known)
    (h : ¬ ∃ t ∈ ofLanguage language, t.name = name) :
    (front ++ name :: back).mapM (find language) =
      .error (.templateNotFound language.id name) := by
  induction front with
  | nil =>
    rw [List.nil_append, List.mapM_cons, find_of_unknown h]
    rfl
  | cons known front ih =>
    obtain ⟨hknown, hrest⟩ := List.forall_mem_cons.mp hfront
    obtain ⟨t, ht⟩ := find_of_known hknown
    rw [List.cons_append, List.mapM_cons, ht, ih hrest]
    rfl

/-- The clauses of joined templates are those of the templates. -/
theorem exists_join {names : List String} (hnames : names ≠ [])
    (hknown : ∀ name ∈ names, ∃ t ∈ ofLanguage language, t.name = name) :
    (∀ name ∈ names, ∃ q, query language name = .ok q) ∧
      ∃ text joined, join language names = .ok text ∧
        Query.compile language text = .ok joined ∧
        ∀ clause, clause ∈ joined.clauses ↔
          ∃ name ∈ names, ∃ q, query language name = .ok q ∧ clause ∈ q.clauses := by
  obtain ⟨ts, hts, hmem⟩ := mapM_find_of_known hknown
  have hlisted : ∀ t ∈ ts, t ∈ ofLanguage language := by
    intro t ht
    obtain ⟨name, -, hfind⟩ := (hmem t).mp ht
    exact (mem_ofLanguage_of_find hfind).1
  have hjoins (t : Template) : ∃ q, t ∈ ofLanguage language → t.Joins q := by
    by_cases ht : t ∈ ofLanguage language
    · exact (joins_of_mem ht).imp fun q hq _ => hq
    · exact ⟨⟨[], []⟩, fun h => absurd h ht⟩
  choose q hq using hjoins
  have hquery {name : String} {t : Template} (hfind : find language name = .ok t) :
      query language name = .ok (q t) := by
    rw [query, hfind]
    exact (hq t (mem_ofLanguage_of_find hfind).1).alone
  have hts' : ts ≠ [] := by
    obtain ⟨name, hname⟩ := List.exists_mem_of_ne_nil names hnames
    obtain ⟨t, ht⟩ := find_of_known (hknown name hname)
    exact List.ne_nil_of_mem ((hmem t).mpr ⟨name, hname, ht⟩)
  obtain ⟨hreads, -⟩ := reads_intercalate hts' (fun t ht => (heading_of_mem (hlisted t ht)).1)
    fun t ht => hq t (hlisted t ht)
  have htext : ("\n\n".intercalate (ts.map part)).toList =
      ['\n', '\n'].intercalate (ts.map partText) := by
    rw [String.toList_intercalate, List.map_map]
    rfl
  rw [← htext] at hreads
  obtain ⟨joined, hcompile, hclauses⟩ := exists_compile_iff.mpr hreads
  refine ⟨fun name hname => ?_, _, joined, ?_, hcompile, fun clause => ?_⟩
  · obtain ⟨t, ht⟩ := find_of_known (hknown name hname)
    exact ⟨q t, hquery ht⟩
  · have hsome : names.isEmpty = false := by simpa using hnames
    simp only [join, hsome, hts, bind, Except.bind, hcompile]
    rfl
  · simp only [hclauses, List.mem_flatMap, hmem]
    constructor
    · rintro ⟨t, ⟨name, hname, hfind⟩, hclause⟩
      exact ⟨name, hname, q t, hquery hfind, hclause⟩
    · rintro ⟨name, hname, q', hq', hclause⟩
      obtain ⟨t, ht⟩ := find_of_known (hknown name hname)
      obtain rfl := Except.ok.inj ((hquery ht).symm.trans hq')
      exact ⟨t, ⟨name, hname, ht⟩, hclause⟩

theorem join_of_unknown {front back : List String} {name : String}
    (hfront : ∀ known ∈ front, ∃ t ∈ ofLanguage language, t.name = known)
    (h : ¬ ∃ t ∈ ofLanguage language, t.name = name) :
    join language (front ++ name :: back) = .error (.templateNotFound language.id name) := by
  have hsome : (front ++ name :: back).isEmpty = false := by simp
  simp only [join, hsome, mapM_find_of_unknown hfront h, bind, Except.bind]
  rfl

end Template

/-! ## What a query captures -/

/-- The names and nodes that some match of the query holds. -/
def captured (q : Query) (root : Node) (source : List UInt8) : Set Capture :=
  {c | ∃ m ∈ q.run root source, c ∈ m.found.captures}

theorem mem_captured_iff {q : Query} {root : Node} {source : List UInt8} {c : Capture} :
    c ∈ q.captured root source ↔
      ∃ clause ∈ q.clauses, ∃ captures, clause.Matches root source captures ∧ c ∈ captures := by
  constructor
  · rintro ⟨m, hm, hc⟩
    obtain ⟨clause, hclause, hmatches⟩ := exists_mem_run_iff.mp ⟨m, hm, rfl, rfl⟩
    exact ⟨clause, List.mem_of_getElem? hclause, _, hmatches, hc⟩
  · rintro ⟨clause, hclause, captures, hmatches, hc⟩
    obtain ⟨i, hi⟩ := List.mem_iff_getElem?.mp hclause
    obtain ⟨m, hm, -, rfl⟩ := exists_mem_run_iff.mpr ⟨clause, hi, hmatches⟩
    exact ⟨m, hm, hc⟩

namespace Template

/-- **Joining templates** gives one query that captures, in every tree, what they capture together;
the first name that no template has is told. -/
theorem join_means_union (language : Language) {names : List String} (hnames : names ≠ []) :
    ((∀ name ∈ names, ∃ t ∈ ofLanguage language, t.name = name) →
      (∀ name ∈ names, ∃ q, query language name = .ok q) ∧
      ∃ text joined, join language names = .ok text ∧
        Query.compile language text = .ok joined ∧
        ∀ (root : Node) (source : List UInt8), joined.captured root source =
          {c | ∃ name ∈ names, ∃ q, query language name = .ok q ∧ c ∈ q.captured root source}) ∧
    ∀ front name back, names = front ++ name :: back →
      (∀ known ∈ front, ∃ t ∈ ofLanguage language, t.name = known) →
      (¬ ∃ t ∈ ofLanguage language, t.name = name) →
      join language names = .error (.templateNotFound language.id name) := by
  constructor
  · intro hknown
    obtain ⟨hqueries, text, joined, hjoin, hcompile, hclauses⟩ := exists_join hnames hknown
    refine ⟨hqueries, text, joined, hjoin, hcompile, fun root source => ?_⟩
    ext c
    simp only [mem_captured_iff, hclauses, Set.mem_ofPred_eq]
    constructor
    · rintro ⟨clause, ⟨name, hname, q, hq, hclause⟩, hmatches⟩
      exact ⟨name, hname, q, hq, clause, hclause, hmatches⟩
    · rintro ⟨name, hname, q, hq, clause, hclause, hmatches⟩
      exact ⟨clause, ⟨name, hname, q, hq, hclause⟩, hmatches⟩
  · rintro front name back rfl hfront hunknown
    exact join_of_unknown hfront hunknown

theorem join_means_union_calls :
    (∃ text joined, join .rust ["calls", "functions", "calls"] = .ok text ∧
      Query.compile .rust text = .ok joined ∧
      ∀ (root : Node) (source : List UInt8), joined.captured root source =
        {c | ∃ name ∈ ["calls", "functions", "calls"], ∃ q,
          query .rust name = .ok q ∧ c ∈ q.captured root source}) ∧
    join .rust ["calls", "methods", "types"] = .error (.templateNotFound "rust" "methods") := by
  have hunion := join_means_union .rust (List.cons_ne_nil "calls" ["functions", "calls"])
  have hfault := join_means_union .rust (List.cons_ne_nil "calls" ["methods", "types"])
  exact ⟨(hunion.1 (by decide)).2,
    hfault.2 ["calls"] "methods" ["types"] rfl (by decide) (by decide)⟩

end Template

end CodeAtlas.Query
