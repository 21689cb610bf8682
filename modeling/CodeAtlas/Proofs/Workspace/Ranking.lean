import CodeAtlas.Proofs.Analysis.Similarity
import CodeAtlas.Proofs.Workspace.Parts

/-!
# Similar code is found and ranked

The search for similar code reads all files of a language and ranks what it finds.  This file says
which nodes it ranks: all nodes that fit, in all files that can be read, whatever the cache holds and
whatever the limit is, which only cuts off the end.

That no node is ranked twice takes more than a list of files without repetition.  Two listed paths
may lead to one file, since a path is listed with slashes in the place of backslashes and may then be
the way to another file.
-/

namespace CodeAtlas

open Syntax (Node)

namespace Analysis.Candidate

variable {threshold : Nat × Nat}

/-- What a list of nodes is if all that fit are ranked. -/
structure Ranks (construct : Node) (threshold : Nat × Nat) (docs : List Document)
    (ranked : List Candidate) : Prop where
  mem_iff : ∀ c, c ∈ ranked ↔ c.document ∈ docs ∧ c.Fits construct threshold
  ordered : (ranked.map (report construct)).Pairwise (Similar.before · ·)
  once : (docs.map Document.displayPath).Nodup → (ranked.map place).Nodup
  /-- A copy of the construct is ranked if anything is, and none is ahead of it by its score. -/
  copies : ∀ s, s.document ∈ docs → s.Copies construct → ∀ c ∈ ranked,
    s ∈ ranked ∧ (c.report construct).score ≤ (s.report construct).score ∧
      ((c.report construct).score < (s.report construct).score → List.Sublist [s, c] ranked)

theorem ranks_ranking (construct : Node) (h : 0 < threshold.2) (docs : List Document) :
    Ranks construct threshold docs (ranking construct threshold docs) where
  mem_iff _ := mem_ranking_iff h
  ordered := pairwise_ranking construct threshold docs
  once := nodup_place_ranking construct threshold
  copies s hs hcopy c hc := by
    have hle := hcopy.similarity_le c.node
    have hmem : s ∈ ranking construct threshold docs :=
      (mem_ranking_iff h).mpr ⟨hs, hcopy.there, hcopy.kind,
        ((mem_ranking_iff h).mp hc).2.similar.trans hle⟩
    exact ⟨hmem, Profile.thousandths_le hle, ahead_of_score_lt hmem hc⟩

end Analysis.Candidate

namespace Workspace

open Analysis (Candidate Profile Similar)
open Number (ratio)

variable {common : Common} {around : Surroundings} {w : Workspace} {p : Project} {l : Language}
  {name snippet asked : String} {threshold : Number.Decimal}

/-- The documents of a project in a language, read without a cache. -/
def readable (policy : Policy) (around : Surroundings) (p : Project) (l : Language)
    (listed : List String) : List Document :=
  (inLanguage l listed).flatMap (freshList policy around p l)

/-- Each document is shown by the path that it was listed by. -/
theorem displayPaths_sublist {policy : Policy} {paths : List String}
    (hshown : ∀ path ∈ paths, ShownAs policy around.files p path) :
    List.Sublist ((paths.flatMap (freshList policy around p l)).map Document.displayPath) paths := by
  induction paths with
  | nil => exact List.Sublist.slnil
  | cons path rest ih =>
    have hrest := ih fun other hother => hshown other (List.mem_cons_of_mem path hother)
    rw [List.flatMap_cons, List.map_append]
    cases hfresh : fresh policy around p l path with
    | error e =>
      rw [freshList, hfresh]
      exact hrest.cons path
    | ok d =>
      rw [freshList, hfresh, ← displayPath_of_fresh hfresh (hshown path List.mem_cons_self)]
      exact hrest.cons_cons d.displayPath

/-- What is found does not depend on the cache. -/
theorem run_findSimilar (ha : Surroundings.Alike common around around)
    (hw : Workspace.Alike common w w) (hproject : w.projects.get name = .ok p)
    (hlanguage : (w.languages.get asked).1 = .ok l) (hunit : threshold.inUnit = true)
    {tree : Syntax.Tree} (htree : around.parser l (Text.Utf8.encode snippet.toList) = some tree)
    {listed : List String} (hlisted : w.policy.list around.files p {} = .ok listed)
    (count : Option Nat) :
    ((findSimilar name snippet asked threshold count).run around w).1 =
      .ok (((Candidate.ranking (Analysis.construct tree.root) threshold.lowerEnd
        (readable w.policy around p l listed)).map
          (Candidate.report (Analysis.construct tree.root))).take (w.limit count)) := by
  let v : Workspace := { w with languages := (w.languages.get asked).2 }
  obtain ⟨profile, hprofile⟩ : ∃ profile, profile = Profile.of (Analysis.construct tree.root) :=
    ⟨_, rfl⟩
  have hlang : (language asked).run around w = (.ok l, v) := by rw [run_language, hlanguage]
  have hsnippet : (snippetProfile l snippet).run around v = (.ok profile, v) := by
    rw [snippetProfile, Work.run_bind, Work.run_read]
    dsimp only
    rw [htree, hprofile]
    rfl
  have hpaths : v.policy.listLanguage around.files p l = .ok (inLanguage l listed) := by
    rw [policy_withLanguages, Policy.listLanguage, hlisted]
    rfl
  obtain ⟨docs, left, hdocs, hfound⟩ := run_inDocuments p l
    (fun d => Similar.within d profile threshold.lowerEnd) (inLanguage l listed) around v
  have hfresh := run_inDocuments_fresh ha (w := v) hw.withLanguages p l (inLanguage l listed)
  rw [hdocs, policy_withLanguages] at hfresh
  obtain rfl : docs = readable w.policy around p l listed := Except.ok.inj hfresh
  have hlimit : v.limit count = w.limit count := rfl
  rw [Candidate.map_report_ranking, ← hprofile]
  simp [findSimilar, similarTo, Work.run_bind, Work.run_map, Except.map, hproject, hunit, hlang,
    hsnippet, hpaths, hfound, hlimit, Similar.rank]

/-- **All that is similar is ranked.**  Take any workspace that calls have come to, with one parser
and contents of different digests, and a snippet that can be parsed.  Then the files are listed, and
there is one ranking of nodes of which every limit shows the beginning.  It ranks the nodes of all
documents of the listed files of the language that are of the kind of the snippet's construct and
similar enough to it.

What is similar enough is off the threshold by at most `2 ^ (-52)`, and no similarity to a node of
a usual size lies in between.  A copy of the construct is ranked unless the construct has no kinds.
No node is ranked twice if the list has no path twice and each path in it is the one by which the
file is shown; both are so if no name on the way to a file holds a backslash. -/
theorem similar_ranked (config : Config) {calls : List (Call × Surroundings)}
    (hcalls : ∀ call ∈ calls, Surroundings.Alike common call.2 call.2)
    (ha : Surroundings.Alike common around around) :
    let w := (new config).session calls
    w.projects.get name = .ok p → (w.languages.get asked).1 = .ok l → threshold.inUnit = true →
    ∀ tree, around.parser l (Text.Utf8.encode snippet.toList) = some tree →
    let construct := Analysis.construct tree.root
    ∃ listed ranked, w.policy.list around.files p {} = .ok listed ∧
      Candidate.Ranks construct threshold.lowerEnd (readable w.policy around p l listed) ranked ∧
      (∀ count, ((findSimilar name snippet asked threshold count).run around w).1 =
        .ok ((ranked.map (Candidate.report construct)).take (w.limit count))) ∧
      (∀ k m, k ≤ m → ((findSimilar name snippet asked threshold (some k)).run around w).1 =
        ((findSimilar name snippet asked threshold (some m)).run around w).1.map (·.take k)) ∧
      (ratio threshold.lowerEnd ≤ ratio threshold.toRatio ∧
        ratio threshold.toRatio ≤ ratio threshold.lowerEnd + 2 ^ (-52 : Int) ∧
        ∀ n, (Profile.score (.of construct) (.of n)).2 * threshold.toRatio.2 < 2 ^ 52 →
          (ratio threshold.lowerEnd ≤ Candidate.similarity construct n ↔
            ratio threshold.toRatio ≤ Candidate.similarity construct n)) ∧
      (construct.kindSequence ≠ [] → ∀ s : Candidate,
        s.document ∈ readable w.policy around p l listed → s.Copies construct → s ∈ ranked) ∧
      (listed.Nodup → (∀ path ∈ inLanguage l listed, ShownAs w.policy around.files p path) →
        (ranked.map Candidate.place).Nodup) ∧
      (around.files.Regular → p.root.Proper → around.files.isDirectory p.root →
        (∀ place ∈ Listing.visited around.files w.policy p {} none, place.Plain) →
        listed.Nodup ∧ ∀ path ∈ listed, ShownAs w.policy around.files p path) := by
  intro w hproject hlanguage hunit tree htree construct
  have hw : Workspace.Alike common w w := alike_session (alike_new config) hcalls
  have hglob : Listing.globOf ({} : Listing.Options).pattern = .ok none := rfl
  obtain ⟨listed, hlisted⟩ : ∃ listed, w.policy.list around.files p {} = .ok listed :=
    ⟨_, Policy.list_eq hglob⟩
  have hrun := run_findSimilar ha hw hproject hlanguage hunit htree hlisted
  have hranks := Candidate.ranks_ranking construct threshold.den_lowerEnd_pos
    (readable w.policy around p l listed)
  obtain ⟨hlow, hhigh⟩ := Number.Decimal.lowerEnd_bounds hunit
  refine ⟨listed, _, hlisted, hranks, hrun, fun k m hkm => ?limit, ⟨hlow, hhigh, fun n hn => ?exact⟩,
    fun hkinds s hs hcopy => ?copy, fun hnodup hshown => hranks.once ?once, fun hfiles hroot
    hdirectory => shownAs_of_plain hfiles hroot hdirectory hlisted⟩
  case limit =>
    rw [hrun, hrun, Except.map, List.take_take]
    exact congrArg (fun n => Except.ok (List.take n _)) (Nat.min_eq_left hkm).symm
  case exact => exact Number.Decimal.lowerEnd_le_iff hunit (Profile.den_score_pos _ _) hn
  case copy =>
    refine (hranks.mem_iff s).mpr ⟨hs, hcopy.there, hcopy.kind, ?_⟩
    rw [hcopy.similarity_eq hkinds]
    exact hlow.trans (Number.Decimal.ratio_le_one hunit)
  case once =>
    exact (displayPaths_sublist hshown).nodup (hnodup.filter _)

/-! ### A node that is ranked twice

Any snippet stands for the outer of the two functions, of which there is one in the project. -/

def outerFunction : Node :=
  construct "function_definition" none 0 8 [
    construct "block" (some "body") 1 8 [
      construct "function_definition" none 2 5 [
        construct "block" (some "body") 3 5 [construct "return_statement" none 4 5 []]],
      construct "return_statement" none 6 8 []]]

theorem construct_nested : Analysis.construct nested = outerFunction := by
  simp [Analysis.construct, nested, construct, Node.named, Node.label, Node.kind,
    Analysis.constructKinds, outerFunction]

/-- Nothing less than the same will do. -/
def whole : Number.Decimal := ⟨false, 1, 0⟩

def outerFound : Similar where
  path := "a.py"
  kind := "function_definition"
  span := { (default : Syntax.Span) with startByte := 0, endByte := 8 }
  score := 1000
  preview := ""

theorem within_nestedDocument : whole.inUnit = true ∧
    Similar.within nestedDocument (.of outerFunction) whole.lowerEnd = [outerFound] := by
  decide +kernel

theorem similar_ranked_nested :
    Surroundings.Alike oneContent nestedAround nestedAround ∧
    (rootSpace nestedAround).projects.get "demo" = .ok demo ∧
    ((rootSpace nestedAround).languages.get "python").1 = .ok .python ∧ whole.inUnit = true ∧
    nestedAround.parser .python (Text.Utf8.encode "x".toList) = some (.ofRoot nested false) ∧
    ∃ listed ranked,
      (rootSpace nestedAround).policy.list nestedAround.files demo {} = .ok listed ∧
      Candidate.Ranks outerFunction whole.lowerEnd
        (readable (rootSpace nestedAround).policy nestedAround demo .python listed) ranked ∧
      ∀ count,
        ((findSimilar "demo" "x" "python" whole count).run nestedAround
          (rootSpace nestedAround)).1 =
        .ok ((ranked.map (Candidate.report outerFunction)).take
          ((rootSpace nestedAround).limit count)) := by
  have hproject := project_rootSpace nestedAround rfl
  have hlanguage := get_python_rootSpace nestedAround rfl
  have hcalls : ∀ call ∈ [(Call.register "/" (some "demo") none, nestedAround)],
      Surroundings.Alike oneContent call.2 call.2 := by
    intro call hcall
    obtain rfl := List.mem_singleton.mp hcall
    exact alike_nestedAround
  have htree : nestedAround.parser .python (Text.Utf8.encode "x".toList) =
      some (.ofRoot nested false) := rfl
  obtain ⟨listed, ranked, hlisted, hranks, hrun, -⟩ :=
    similar_ranked {} hcalls alike_nestedAround hproject hlanguage within_nestedDocument.1
      (.ofRoot nested false) htree
  rw [Syntax.Tree.root_ofRoot, construct_nested] at hranks hrun
  exact ⟨alike_nestedAround, hproject, hlanguage, within_nestedDocument.1, htree, listed, ranked,
    hlisted, hranks, hrun⟩

/-- The two listed paths are distinct and lead to one file, in which one node fits.  It is ranked
once for each path. -/
theorem findSimilar_two_names :
    (rootSpace twinAround).policy.list twinAround.files demo {} = .ok ["a.py", "z/../a.py"] ∧
    (∀ path ∈ ["a.py", "z/../a.py"],
      fresh (rootSpace twinAround).policy twinAround demo .python path = .ok nestedDocument) ∧
    Similar.within nestedDocument (.of outerFunction) whole.lowerEnd = [outerFound] ∧
    ((findSimilar "demo" "x" "python" whole none).run twinAround (rootSpace twinAround)).1 =
      .ok [outerFound, outerFound] := by
  have hpolicy := policy_rootSpace twinAround rfl
  have hlisted : (rootSpace twinAround).policy.list twinAround.files demo {} =
      .ok ["a.py", "z/../a.py"] := by
    rw [hpolicy]
    exact list_twinAround
  have hfresh : ∀ path ∈ ["a.py", "z/../a.py"],
      fresh (rootSpace twinAround).policy twinAround demo .python path = .ok nestedDocument := by
    intro path hpath
    rw [hpolicy]
    exact fresh_twinAround hpath
  have hreadable : readable (rootSpace twinAround).policy twinAround demo .python
      ["a.py", "z/../a.py"] = [nestedDocument, nestedDocument] := by
    rw [readable, inLanguage_twin]
    simp [freshList, hfresh, Except.toOption]
  have hlimit : (rootSpace twinAround).limit none = 100 := by
    rw [rootSpace_eq rfl]
    rfl
  refine ⟨hlisted, hfresh, within_nestedDocument.2, ?_⟩
  have hself : Similar.before outerFound outerFound = true := by decide
  have htree : twinAround.parser .python (Text.Utf8.encode "x".toList) =
      some (.ofRoot nested false) := rfl
  rw [run_findSimilar alike_twinAround (alike_rootSpace alike_twinAround)
    (project_rootSpace _ rfl) (get_python_rootSpace _ rfl) within_nestedDocument.1 htree
    hlisted, Syntax.Tree.root_ofRoot, construct_nested, Candidate.map_report_ranking, hreadable,
    hlimit]
  simp [within_nestedDocument.2, List.mergeSort, List.MergeSort.Internal.splitInTwo, hself]

end Workspace

end CodeAtlas
