import CodeAtlas.Proofs.Language.History
import CodeAtlas.Proofs.Query.Uses
import CodeAtlas.Proofs.Workspace.Ranking

/-!
# Uses of a name are found

The search for the uses of a name puts one query to the files of each language in turn, takes no
more than the limit from each file, and cuts what it has found once more when all is in order.  This
file says that nothing is lost on the way: nodes with nested spans are found in the order of their
starts, so the early cuts take away what the last one would have.

That no use is found twice takes, as for similar code, that each listed path is the one by which its
file is shown.
-/

namespace CodeAtlas

open Syntax (Node)

/-! ## Ties -/

/-- A stable sort puts elements that tie in the order in which they came. -/
theorem Sorting.pairwise_mergeSort_of_ties {α : Type} {le : α → α → Bool} {R : α → α → Prop}
    (trans : ∀ a b c, le a b → le b c → le a c) (total : ∀ a b, le a b || le b a) {l : List α}
    (h : l.Pairwise fun a b => le b a → R a b) :
    (l.mergeSort le).Pairwise fun a b => le b a → R a b := by
  induction l with
  | nil => simp
  | cons a l ih =>
    obtain ⟨ha, hl⟩ := List.pairwise_cons.mp h
    obtain ⟨before, after, hcons, hrest, hbefore⟩ := List.mergeSort_cons trans total a l
    have hsorted := ih hl
    rw [hrest] at hsorted
    obtain ⟨hleft, hright, hcross⟩ := List.pairwise_append.mp hsorted
    rw [hcons]
    refine List.pairwise_append.mpr ⟨hleft, List.pairwise_cons.mpr ⟨fun b hb => ?_, hright⟩,
      fun b hb c hc => ?_⟩
    · have hmem : b ∈ l.mergeSort le := hrest ▸ List.mem_append_right before hb
      exact ha b (List.mem_mergeSort.mp hmem)
    · rcases List.mem_cons.mp hc with rfl | hc
      · intro htie
        have hno := hbefore b hb
        rw [htie] at hno
        cases hno
      · exact hcross b hb c hc

/-! ## Uses -/

namespace Analysis.Candidate

open Query.Usage (kindsOf isUse hitOf)

variable {symbol : String} {d : Document} {docs : List Document} {a b c : Candidate}

/-- The node is there and named, of a kind that names have in the language of its document, and the
symbol is its text. -/
structure IsUse (symbol : String) (c : Candidate) : Prop where
  there : c.document.root.preorder[c.number]? = some c.node
  named : c.node.named = true
  kind : c.node.kind ∈ kindsOf c.document.language
  text : c.node.span.octets c.document.source = Text.Utf8.encode symbol.toList

/-- What is told of a use. -/
def hit (c : Candidate) : Query.Hit := hitOf c.document c.node.label

/-- One is shown ahead of the other: by the path, or in one file by the order of the tree. -/
def Ahead (a b : Candidate) : Prop :=
  a.document.displayPath < b.document.displayPath ∨
    a.document.displayPath = b.document.displayPath ∧ a.number < b.number

def usesIn (symbol : String) (d : Document) : List Candidate :=
  (d.root.preorder.zipIdx.filter fun x =>
    isUse (kindsOf d.language) symbol d.source x.1.label).map fun x => ⟨d, x.2, x.1⟩

theorem map_hit_usesIn (symbol : String) (d : Document) :
    (usesIn symbol d).map hit =
      Query.Hit.all (Query.Usage.query (kindsOf d.language) symbol) d := by
  rw [Query.Usage.all_query Query.Usage.nodup_kindsOf, usesIn, List.map_map]
  conv_rhs => rw [← List.zipIdx_map_fst 0 d.root.preorder, List.filter_map, List.map_map]
  rfl

theorem mem_usesIn_iff : c ∈ usesIn symbol d ↔ c.document = d ∧ c.IsUse symbol := by
  simp only [usesIn, isUse, Query.Usage.wants, List.mem_map, List.mem_filter,
    List.mem_zipIdx_iff_getElem?, Bool.and_eq_true, decide_eq_true_eq, List.contains_iff_mem]
  constructor
  · rintro ⟨⟨n, i⟩, ⟨hthere, ⟨hnamed, hkind⟩, htext⟩, rfl⟩
    exact ⟨rfl, hthere, hnamed, hkind, htext⟩
  · rintro ⟨rfl, hthere, hnamed, hkind, htext⟩
    exact ⟨(c.node, c.number), ⟨hthere, ⟨hnamed, hkind⟩, htext⟩, rfl⟩

theorem pairwise_number_usesIn (symbol : String) (d : Document) :
    (usesIn symbol d).Pairwise fun a b => a.number < b.number := by
  have hall : (d.root.preorder.zipIdx.map Prod.snd).Pairwise (· < ·) := by
    rw [List.zipIdx_map_snd]
    exact List.pairwise_lt_range'
  exact List.pairwise_map.mpr ((List.pairwise_map.mp hall).filter _)

/-- In a tree with nested spans the order of the nodes is the order of their starts. -/
theorem start_le_of_number_le (hnested : d.root.nested = true) (ha : a ∈ usesIn symbol d)
    (hb : b ∈ usesIn symbol d) (h : a.number ≤ b.number) :
    a.node.span.startByte ≤ b.node.span.startByte := by
  obtain ⟨hda, ha⟩ := mem_usesIn_iff.mp ha
  obtain ⟨hdb, hb⟩ := mem_usesIn_iff.mp hb
  have hthere := ha.there
  have hthere' := hb.there
  rw [hda, List.getElem?_eq_some_iff] at hthere
  rw [hdb, List.getElem?_eq_some_iff] at hthere'
  obtain ⟨hi, hthere⟩ := hthere
  obtain ⟨hj, hthere'⟩ := hthere'
  rcases Nat.lt_or_eq_of_le h with hlt | heq
  · have hstarts := (d.root.startsWithin_preorder hnested).inOrder
    rw [← hthere, ← hthere']
    exact List.pairwise_iff_getElem.mp hstarts _ _ hi hj hlt
  · simp only [heq] at hthere
    rw [← hthere, ← hthere']

/-- The uses in a tree with nested spans are found in the order in which they are shown. -/
theorem pairwise_all (symbol : String) (hnested : d.root.nested = true) :
    (Query.Hit.all (Query.Usage.query (kindsOf d.language) symbol) d).Pairwise
      (Workspace.hitNoLater · ·) := by
  rw [← map_hit_usesIn, List.pairwise_map]
  refine (pairwise_number_usesIn symbol d).imp_of_mem fun {a b} ha hb hlt => ?_
  refine Workspace.hitNoLater_iff.mpr (.inr ⟨?_, start_le_of_number_le hnested ha hb hlt.le⟩)
  change a.document.displayPath = b.document.displayPath
  rw [(mem_usesIn_iff.mp ha).1, (mem_usesIn_iff.mp hb).1]

/-- What a list of nodes is if it has all uses of the symbol in some documents. -/
structure Uses (symbol : String) (docs : List Document) (found : List Candidate) : Prop where
  mem_iff : ∀ c, c ∈ found ↔ c.document ∈ docs ∧ c.IsUse symbol
  ordered : (found.map hit).Pairwise (Workspace.hitNoLater · ·)
  /-- So none is there twice. -/
  ahead : (docs.map Document.displayPath).Nodup → found.Pairwise Ahead

/-- All uses in some documents, in the order in which they are shown. -/
def allUses (symbol : String) (docs : List Document) : List Candidate :=
  (docs.flatMap (usesIn symbol)).mergeSort fun a b => Workspace.hitNoLater a.hit b.hit

theorem map_hit_allUses (symbol : String) (docs : List Document) :
    (allUses symbol docs).map hit =
      (docs.flatMap fun d => Query.Hit.all (Query.Usage.query (kindsOf d.language) symbol)
        d).mergeSort Workspace.hitNoLater := by
  rw [allUses, List.map_mergeSort (f := hit) (s := Workspace.hitNoLater) fun _ _ _ _ => rfl,
    List.map_flatMap]
  simp only [map_hit_usesIn]

theorem mem_allUses_iff : c ∈ allUses symbol docs ↔ c.document ∈ docs ∧ c.IsUse symbol := by
  rw [allUses, List.mem_mergeSort, List.mem_flatMap]
  simp only [mem_usesIn_iff]
  constructor
  · rintro ⟨d, hd, rfl, hc⟩
    exact ⟨hd, hc⟩
  · rintro ⟨hd, hc⟩
    exact ⟨_, hd, rfl, hc⟩

/-- Of two uses in one file, the one ahead in the tree comes first: either it starts earlier, or
they start together and the sort leaves them as they are. -/
theorem pairwise_ahead_allUses (hnested : ∀ d ∈ docs, d.root.nested = true)
    (hpaths : (docs.map Document.displayPath).Nodup) : (allUses symbol docs).Pairwise Ahead := by
  have hordered : (allUses symbol docs).Pairwise fun a b => Workspace.hitNoLater a.hit b.hit :=
    List.pairwise_mergeSort (fun a b c => Workspace.hitNoLater_trans a.hit b.hit c.hit)
      (fun a b => Workspace.hitNoLater_total a.hit b.hit) _
  have hties : (allUses symbol docs).Pairwise fun a b => Workspace.hitNoLater b.hit a.hit →
      a.document.displayPath = b.document.displayPath → a.number < b.number := by
    refine Sorting.pairwise_mergeSort_of_ties
      (fun a b c => Workspace.hitNoLater_trans a.hit b.hit c.hit)
      (fun a b => Workspace.hitNoLater_total a.hit b.hit) (List.pairwise_flatMap.mpr ⟨?_, ?_⟩)
    · exact fun d _ => (pairwise_number_usesIn symbol d).imp fun hlt _ _ => hlt
    · refine (List.pairwise_map.mp hpaths).imp fun {d d'} hne a ha b hb _ heq => ?_
      rw [(mem_usesIn_iff.mp ha).1, (mem_usesIn_iff.mp hb).1] at heq
      exact absurd heq hne
  refine (hordered.and hties).imp_of_mem fun {a b} ha hb ⟨hle, htie⟩ => ?_
  rcases Workspace.hitNoLater_iff.mp hle with hpath | ⟨hpath, hstart⟩
  · exact .inl hpath
  · refine .inr ⟨hpath, ?_⟩
    obtain ⟨hda, ha⟩ := mem_allUses_iff.mp ha
    obtain ⟨hdb, hb⟩ := mem_allUses_iff.mp hb
    have hsame : b.document = a.document :=
      List.inj_on_of_nodup_map hpaths hdb hda hpath.symm
    by_contra hlater
    have hback := start_le_of_number_le (hnested _ hda) (mem_usesIn_iff.mpr ⟨hsame, hb⟩)
      (mem_usesIn_iff.mpr ⟨rfl, ha⟩) (Nat.le_of_not_lt hlater)
    exact hlater (htie (Workspace.hitNoLater_iff.mpr (.inr ⟨hpath.symm, hback⟩)) hpath)

theorem uses_allUses (hnested : ∀ d ∈ docs, d.root.nested = true) :
    Uses symbol docs (allUses symbol docs) where
  mem_iff _ := mem_allUses_iff
  ordered := by
    rw [map_hit_allUses]
    exact List.pairwise_mergeSort Workspace.hitNoLater_trans Workspace.hitNoLater_total _
  ahead := pairwise_ahead_allUses hnested

end Analysis.Candidate

namespace Workspace

open Analysis (Candidate)
open Query.Usage (kindsOf)

variable {common : Common} {around : Surroundings} {w : Workspace} {p : Project}
  {name symbol : String} {scope asked : Option String} {only : Option Language}

/-! ## Files of several languages -/

/-- The documents of the listed files in the allowed languages, read without a cache. -/
def searched (policy : Policy) (around : Surroundings) (p : Project) (only : Option Language)
    (listed : List String) : List Document :=
  (Language.all.filter fun l => only.all (· = l)).flatMap fun l =>
    readable policy around p l listed

/-- A document is searched if it is what a listed path comes to in the language of the path, and
that language is allowed. -/
theorem mem_searched_iff {policy : Policy} {listed : List String} {d : Document} :
    d ∈ searched policy around p only listed ↔ ∃ path ∈ listed, ∃ l,
      Language.ofPath? (Path.ofString path) = some l ∧ (∀ l' ∈ only, l' = l) ∧
      fresh policy around p l path = .ok d := by
  simp only [searched, readable, inLanguage, List.mem_flatMap, List.mem_filter, mem_freshList_iff,
    decide_eq_true_eq, Option.all_eq_true]
  constructor
  · rintro ⟨l, ⟨-, hl⟩, path, ⟨hpath, hlanguage⟩, hd⟩
    exact ⟨path, hpath, l, hlanguage, hl, hd⟩
  · rintro ⟨path, hpath, l, hlanguage, hl, hd⟩
    exact ⟨l, ⟨Language.mem_all l, hl⟩, path, ⟨hpath, hlanguage⟩, hd⟩

theorem exists_tree_of_fresh {policy : Policy} {path : String} {l : Language} {d : Document}
    (h : fresh policy around p l path = .ok d) :
    d.language = l ∧ around.parser l d.source = some d.tree := by
  unfold fresh at h
  cases hfile : policy.resolve around.files p path with
  | error e => simp [hfile, bind, Except.bind] at h
  | ok file =>
    cases hsource : policy.readBytes around.files file with
    | error e => simp [hfile, hsource, bind, Except.bind] at h
    | ok octets =>
      simp only [hfile, hsource, bind, Except.bind] at h
      obtain ⟨tree, htree, rfl⟩ := Cache.eq_of_read h
      exact ⟨rfl, htree⟩

theorem nested_of_searched {policy : Policy} {listed : List String}
    (hnested : ∀ l source tree, around.parser l source = some tree → tree.root.nested = true) :
    ∀ d ∈ searched policy around p only listed, d.root.nested = true := by
  intro d hd
  obtain ⟨path, -, l, -, -, hfresh⟩ := mem_searched_iff.mp hd
  exact hnested l d.source d.tree (exists_tree_of_fresh hfresh).2

/-- No two documents are shown by the same path if none is listed twice: a path is of one language
only. -/
theorem nodup_displayPath_searched {policy : Policy} {listed : List String} (hnodup : listed.Nodup)
    (hshown : ∀ path ∈ listed, ShownAs policy around.files p path) :
    ((searched policy around p only listed).map Document.displayPath).Nodup := by
  have hsublist (l : Language) :
      List.Sublist ((readable policy around p l listed).map Document.displayPath)
        (inLanguage l listed) :=
    displayPaths_sublist fun path hpath => hshown path (List.mem_of_mem_filter hpath)
  have hlanguages : (Language.all.filter fun l => only.all (· = l)).Nodup := by
    have hall : Language.all.Nodup := by decide
    exact hall.filter _
  rw [searched, List.map_flatMap, List.nodup_flatMap]
  refine ⟨fun l _ => (hsublist l).nodup (hnodup.filter _), hlanguages.imp fun {l l'} hne => ?_⟩
  intro path hpath hpath'
  have hl := of_decide_eq_true (List.mem_filter.mp ((hsublist l).subset hpath)).2
  have hl' := of_decide_eq_true (List.mem_filter.mp ((hsublist l').subset hpath')).2
  exact hne (Option.some.inj (hl.symm.trans hl'))

/-! ## Runs -/

/-- The hits of the query of each language in its files. -/
def groupHits (policy : Policy) (around : Surroundings) (p : Project) (symbol : String)
    (limit : Nat) (group : Language × List String) : List Query.Hit :=
  (group.2.flatMap (freshList policy around p group.1)).flatMap fun d =>
    Query.Hit.collect (Query.Usage.query (kindsOf group.1) symbol) d limit

/-- The uses of a name are looked for in one group of files and then in the others. -/
theorem run_usesIn_cons (around : Surroundings) (hsound : w.languages.Sound)
    (hp : Registered w.projects p) (hname : Query.Usage.isName symbol = true) (limit : Nat)
    (l : Language) (paths : List String) (rest : List (Language × List String)) :
    let v : Workspace := { w with languages := (w.languages.get l.id).2 }
    ∃ docs left, (inDocuments p l (fun d => [d]) paths).run around v = (.ok docs, left) ∧
      v.Reads left ∧ (usesIn p symbol limit ((l, paths) :: rest)).run around w =
        (((usesIn p symbol limit rest).run around left).1.map ((docs.flatMap fun d =>
          Query.Hit.collect (Query.Usage.query (kindsOf l) symbol) d limit) ++ ·),
          ((usesIn p symbol limit rest).run around left).2) := by
  intro v
  have hlang : (language l.id).run around w = (.ok l, v) := by
    rw [run_language, hsound.get_id]
  obtain ⟨source, hsource, hquery⟩ := Query.Usage.compile_source l hname
  let find (d : Document) : List Query.Hit :=
    Query.Hit.collect (Query.Usage.query (kindsOf l) symbol) d limit
  obtain ⟨docs, left, hdocs, hfound⟩ := run_inDocuments p l find paths around v
  have hreads := (does_inDocuments hp l find paths around v rfl).reads
  rw [hfound] at hreads
  refine ⟨docs, left, hdocs, hreads, ?_⟩
  simp [usesIn, hitsIn, Work.run_bind, Work.run_map, hlang, hsource, hquery, hfound, find]

theorem run_usesIn (ha : Surroundings.Alike common around around)
    (hw : Workspace.Alike common w w) (hsound : w.languages.Sound) (hp : Registered w.projects p)
    (hname : Query.Usage.isName symbol = true) (limit : Nat)
    (groups : List (Language × List String)) :
    ((usesIn p symbol limit groups).run around w).1 =
      .ok (groups.flatMap (groupHits w.policy around p symbol limit)) := by
  induction groups generalizing w with
  | nil => rfl
  | cons group rest ih =>
    obtain ⟨l, paths⟩ := group
    let v : Workspace := { w with languages := (w.languages.get l.id).2 }
    obtain ⟨docs, left, hdocs, hreads, hrun⟩ :=
      run_usesIn_cons around hsound hp hname limit l paths rest
    have hfresh := run_inDocuments_fresh ha (w := v) hw.withLanguages p l paths
    have hsame : p.Redated p := ⟨p.registeredAt, rfl⟩
    have halike :=
      (alike_inDocuments hsame l (fun d => [d]) paths ha (w := v) hw.withLanguages).2
    rw [hdocs] at hfresh halike
    obtain rfl := Except.ok.inj hfresh
    have hpolicy : left.policy = w.policy := congrArg Policy.ofConfig hreads.config
    have hprojects : Registered left.projects p := by
      rw [hreads.projects]
      exact hp
    have hrest := ih halike (hreads.languages (hsound.get l.id)) hprojects
    rw [hpolicy] at hrest
    rw [hrun, hrest]
    rfl

/-- The language that was asked for, if any. -/
theorem run_mapM_language (around : Surroundings)
    (hasked : asked.mapM (fun id => (w.languages.get id).1) = .ok only) :
    ∃ languages, (asked.mapM language).run around w = (.ok only, { w with languages }) ∧
      (w.languages.Sound → languages.Sound) := by
  cases asked with
  | none =>
    obtain rfl := Except.ok.inj hasked
    exact ⟨w.languages, rfl, id⟩
  | some id =>
    have hrun : ((some id).mapM language).run around w =
        (some <$> language id).run around w := rfl
    have hget : (w.languages.get id).1.map some = .ok only := hasked
    refine ⟨(w.languages.get id).2, ?_, fun hsound => hsound.get id⟩
    rw [hrun, Work.run_map, run_language, hget]

/-- Groups without files add nothing. -/
theorem flatMap_byLanguage {β : Type} {f : Language × List String → List β}
    (hf : ∀ l, f (l, []) = []) (only : Option Language) (listed : List String) :
    (byLanguage only listed).flatMap f =
      (Language.all.filter fun l => only.all (· = l)).flatMap fun l =>
        f (l, inLanguage l listed) := by
  rw [byLanguage]
  induction Language.all.filter fun l => only.all (· = l) with
  | nil => rfl
  | cons l rest ih =>
    rw [List.map_cons, List.flatMap_cons, ← ih, inLanguage]
    by_cases hnone : listed.filter (fun path => Language.ofPath? (Path.ofString path) = some l) = []
    · simp [hnone, hf]
    · simp [hnone]

/-- The languages in turn find what is in the documents, up to the limit in each. -/
theorem flatMap_groupHits (policy : Policy) (around : Surroundings) (p : Project) (symbol : String)
    (limit : Nat) (only : Option Language) (listed : List String) :
    (byLanguage only listed).flatMap (groupHits policy around p symbol limit) =
      (searched policy around p only listed).flatMap fun d => (Query.Hit.all
        (Query.Usage.query (kindsOf d.language) symbol) d).take limit := by
  rw [flatMap_byLanguage (fun l => rfl), searched, List.flatMap_assoc]
  refine List.flatMap_congr fun l _ => List.flatMap_congr fun d hd => ?_
  obtain ⟨path, -, hfresh⟩ := List.mem_flatMap.mp hd
  rw [(exists_tree_of_fresh (mem_freshList_iff.mp hfresh)).1]
  rfl

/-- With a project, a language and a list of files, the uses are looked for in these files. -/
theorem run_findUsage_usesIn (hproject : w.projects.get name = .ok p)
    (hasked : asked.mapM (fun id => (w.languages.get id).1) = .ok only) {listed : List String}
    (hlisted : w.policy.list around.files p { pattern := scope } = .ok listed)
    (symbol : String) (count : Option Nat) :
    ∃ languages : Language.Registry, (w.languages.Sound → languages.Sound) ∧
      ((findUsage name symbol scope asked count).run around w).1 =
        ((usesIn p symbol (w.limit count) (byLanguage only listed)).run around
          { w with languages }).1.map (firstHits · (w.limit count)) := by
  obtain ⟨languages, honly, hlanguages⟩ := run_mapM_language around hasked
  refine ⟨languages, hlanguages, ?_⟩
  simp [findUsage, Work.run_bind, Work.run_map, hproject, honly, policy_withLanguages, hlisted]

theorem run_findUsage (ha : Surroundings.Alike common around around)
    (hw : Workspace.Alike common w w) (hsound : w.languages.Sound)
    (hnested : ∀ l source tree, around.parser l source = some tree → tree.root.nested = true)
    (hproject : w.projects.get name = .ok p)
    (hasked : asked.mapM (fun id => (w.languages.get id).1) = .ok only)
    (hname : Query.Usage.isName symbol = true) {listed : List String}
    (hlisted : w.policy.list around.files p { pattern := scope } = .ok listed)
    (count : Option Nat) :
    ((findUsage name symbol scope asked count).run around w).1 =
      .ok (((Candidate.allUses symbol (searched w.policy around p only listed)).map
        Candidate.hit).take (w.limit count)) := by
  obtain ⟨languages, hlanguages, hrun⟩ :=
    run_findUsage_usesIn hproject hasked hlisted symbol count
  let v : Workspace := { w with languages }
  have hp : Registered v.projects p := (does_project name around w rfl).result p hproject
  have huses := run_usesIn ha (w := v) hw.withLanguages (hlanguages hsound) hp hname (w.limit count)
    (byLanguage only listed)
  rw [policy_withLanguages] at huses
  have hsorted : ∀ d ∈ searched w.policy around p only listed,
      (Query.Hit.all (Query.Usage.query (kindsOf d.language) symbol) d).Pairwise
        (hitNoLater · ·) :=
    fun d hd => Candidate.pairwise_all symbol (nested_of_searched hnested d hd)
  have hcuts := Sorting.take_mergeSort_flatMap hitNoLater_trans hitNoLater_total hsorted
    (Nat.le_refl (w.limit count))
  rw [Candidate.map_hit_allUses, ← hcuts, ← flatMap_groupHits, hrun, huses]
  rfl

/-- **All uses of a name are found.**  Take any workspace that calls have come to, with one parser
and contents of different digests, and trees with nested spans.  Take a name that is one, a scope
that can be read, and a language that is known or none.  Then the files in the scope are listed, and
there is one list of uses of which every limit shows the beginning.  It has the nodes of all
documents of the listed files in the language that are uses of the name, in the order of paths and
starts.

If the list of files has no path twice and each path in it is the one by which the file is shown,
then the uses stand in the order of their paths and, in each file, of its tree, and none is there
twice.  Both are so if no name on the way to a file holds a backslash. -/
theorem usages_found (config : Config) {calls : List (Call × Surroundings)} {glob : Option Glob}
    (hcalls : ∀ call ∈ calls, Surroundings.Alike common call.2 call.2)
    (ha : Surroundings.Alike common around around)
    (hnested : ∀ l source tree, around.parser l source = some tree → tree.root.nested = true) :
    let w := (new config).session calls
    w.projects.get name = .ok p → asked.mapM (fun id => (w.languages.get id).1) = .ok only →
    Listing.globOf scope = .ok glob → Query.Usage.isName symbol = true →
    ∃ listed found, w.policy.list around.files p { pattern := scope } = .ok listed ∧
      Candidate.Uses symbol (searched w.policy around p only listed) found ∧
      (∀ count, ((findUsage name symbol scope asked count).run around w).1 =
        .ok ((found.map Candidate.hit).take (w.limit count))) ∧
      (listed.Nodup → (∀ path ∈ listed, ShownAs w.policy around.files p path) →
        found.Pairwise Candidate.Ahead) ∧
      (around.files.Regular → p.root.Proper → around.files.isDirectory p.root →
        (∀ place ∈ Listing.visited around.files w.policy p { pattern := scope } glob,
          place.Plain) →
        listed.Nodup ∧ ∀ path ∈ listed, ShownAs w.policy around.files p path) := by
  intro w hproject hasked hglob hname
  have hw : Workspace.Alike common w w := alike_session (alike_new config) hcalls
  have hsound : w.languages.Sound :=
    sound_session (Language.Registry.sound_empty.preload config.language.preferred) calls
  obtain ⟨listed, hlisted⟩ :
      ∃ listed, w.policy.list around.files p { pattern := scope } = .ok listed :=
    ⟨_, Policy.list_eq hglob⟩
  have hdocs : ∀ d ∈ searched w.policy around p only listed, d.root.nested = true :=
    nested_of_searched hnested
  have huses : Candidate.Uses symbol _ _ := Candidate.uses_allUses hdocs
  exact ⟨listed, _, hlisted, huses,
    run_findUsage ha hw hsound hnested hproject hasked hname hlisted,
    fun hnodup hshown => huses.ahead (nodup_displayPath_searched hnodup hshown),
    fun hfiles hroot hdirectory => shownAs_of_list hfiles hroot hdirectory hglob hlisted⟩

/-! ### A use that is found twice

Every file holds one letter, which is a name. -/

def oneName : Node :=
  construct "module" none 0 1 [construct "identifier" none 0 1 []]

def nameParser : Syntax.Parser Language := fun _ _ => some (.ofRoot oneName false)

def nameDocument : Document := { nestedDocument with tree := .ofRoot oneName false }

def nameHit : Query.Hit where
  path := "a.py"
  capture := "usage"
  kind := "identifier"
  span := { (default : Syntax.Span) with startByte := 0, endByte := 1 }
  text := "x"

theorem all_nameDocument :
    Query.Hit.all (Query.Usage.query (kindsOf .python) "x") nameDocument = [nameHit] := by
  rw [Query.Usage.all_query Query.Usage.nodup_kindsOf]
  decide +kernel

theorem usages_found_name :
    let around : Surroundings := { nestedAround with parser := nameParser }
    let w := rootSpace around
    w.projects.get "demo" = .ok demo ∧
    Listing.globOf none = .ok none ∧ Query.Usage.isName "x" = true ∧
    (∀ l source tree, around.parser l source = some tree → tree.root.nested = true) ∧
    ∃ listed found, w.policy.list around.files demo {} = .ok listed ∧
      Candidate.Uses "x" (searched w.policy around demo none listed) found ∧
      ∀ count, ((findUsage "demo" "x" none none count).run around w).1 =
        .ok ((found.map Candidate.hit).take (w.limit count)) := by
  intro around w
  have hproject : w.projects.get "demo" = .ok demo := project_rootSpace around rfl
  have ha : Surroundings.Alike ⟨nameParser, {[120]}, Set.injOn_singleton _ _⟩ around around :=
    alike_withParser nameParser (by simp [nestedAround])
  have hcalls : ∀ call ∈ [(Call.register "/" (some "demo") none, around)],
      Surroundings.Alike ⟨nameParser, {[120]}, Set.injOn_singleton _ _⟩ call.2 call.2 := by
    intro call hcall
    obtain rfl := List.mem_singleton.mp hcall
    exact ha
  have hname : Query.Usage.isName "x" = true := by decide +kernel
  have hnested : ∀ l source tree, around.parser l source = some tree →
      tree.root.nested = true := by
    rintro l source tree htree
    obtain rfl := Option.some.inj htree
    decide
  have hasked : (none : Option String).mapM (fun id => (w.languages.get id).1) = .ok none := rfl
  have hglob : Listing.globOf none = .ok none := rfl
  obtain ⟨listed, found, hlisted, huses, hrun, -⟩ :=
    usages_found {} hcalls ha hnested hproject hasked hglob hname
  exact ⟨hproject, rfl, hname, hnested, listed, found, hlisted, huses, hrun⟩

/-- What two paths to one file come to. -/
theorem searched_twin {policy : Policy} {d : Document}
    (hfresh : ∀ path ∈ ["a.py", "z/../a.py"], fresh policy around demo .python path = .ok d) :
    searched policy around demo none ["a.py", "z/../a.py"] = [d, d] := by
  have hpython : readable policy around demo .python ["a.py", "z/../a.py"] = [d, d] := by
    rw [readable, inLanguage_twin]
    simp [freshList, hfresh, Except.toOption]
  have hother (l : Language) (hl : l ≠ .python) :
      readable policy around demo l ["a.py", "z/../a.py"] = [] := by
    have hnone : inLanguage l ["a.py", "z/../a.py"] = [] := by
      cases l <;> first | decide +kernel | exact absurd rfl hl
    rw [readable, hnone]
    rfl
  simp [searched, Language.all, hpython, hother]

/-- The two listed paths are distinct and lead to one file, in which there is one use.  It is found
once for each path. -/
theorem findUsage_two_names :
    let around : Surroundings := { twinAround with parser := nameParser }
    let w := rootSpace around
    w.policy.list around.files demo {} = .ok ["a.py", "z/../a.py"] ∧
    (∀ path ∈ ["a.py", "z/../a.py"], fresh w.policy around demo .python path = .ok nameDocument) ∧
    Query.Hit.all (Query.Usage.query (kindsOf .python) "x") nameDocument = [nameHit] ∧
    ((findUsage "demo" "x" none none none).run around w).1 = .ok [nameHit, nameHit] := by
  intro around w
  have hpolicy : w.policy = (new {}).policy := policy_rootSpace around rfl
  have hlisted : w.policy.list around.files demo {} = .ok ["a.py", "z/../a.py"] := by
    rw [hpolicy]
    exact list_twinAround
  have hfresh : ∀ path ∈ ["a.py", "z/../a.py"],
      fresh w.policy around demo .python path = .ok nameDocument := by
    intro path hpath
    rw [hpolicy]
    exact fresh_twin hpath rfl
  have ha : Surroundings.Alike ⟨nameParser, {[120]}, Set.injOn_singleton _ _⟩ around around :=
    alike_withParser nameParser (by simp [twinAround])
  have hnested : ∀ l source tree, around.parser l source = some tree →
      tree.root.nested = true := by
    rintro l source tree htree
    obtain rfl := Option.some.inj htree
    decide
  have hsound : w.languages.Sound := sound_session (Language.Registry.sound_empty.preload _) _
  have hsearched := searched_twin hfresh
  have hlimit : w.limit none = 100 := by
    change (rootSpace around).limit none = 100
    rw [rootSpace_eq rfl]
    rfl
  have hself : hitNoLater nameHit nameHit = true := by decide
  refine ⟨hlisted, hfresh, all_nameDocument, ?_⟩
  have hasked : (none : Option String).mapM (fun id => (w.languages.get id).1) = .ok none := rfl
  have hname : Query.Usage.isName "x" = true := by decide +kernel
  have hinScope : w.policy.list around.files demo { pattern := none } =
      .ok ["a.py", "z/../a.py"] := hlisted
  rw [run_findUsage ha (alike_rootSpace ha) hsound hnested (project_rootSpace around rfl) hasked
    hname hinScope, Candidate.map_hit_allUses, hsearched, hlimit]
  have hall : Query.Hit.all (Query.Usage.query (kindsOf nameDocument.language) "x") nameDocument =
      [nameHit] := all_nameDocument
  simp [hall, List.mergeSort, List.MergeSort.Internal.splitInTwo, hself]

end Workspace

end CodeAtlas
