import CodeAtlas.Proofs.Query.Renaming

/-!
# Queries without their comments

A comment should not matter to a query that is carried over, so one could take the comments out
before or after (`AgreesWithoutComments`).  The scanner looks past blanks for a name, not past
comments, and so the law holds of a query only as far as no comment hides a name
(`adapt_withoutComments`).
-/

namespace CodeAtlas.Query

/-! ## Taking comments out -/

/-- A text with a blank for each comment; the lines stay. -/
def withoutCommentsFrom : Context → List Char → List Char
  | _, [] => []
  | .code, c :: rest =>
    (if c = ';' then ' ' else c) :: withoutCommentsFrom (Context.code.next c) rest
  | .comment, c :: rest =>
    if c = '\n' then c :: withoutCommentsFrom .code rest else withoutCommentsFrom .comment rest
  | context, c :: rest => c :: withoutCommentsFrom (context.next c) rest

def withoutComments (query : String) : String :=
  String.ofList (withoutCommentsFrom .code query.toList)

theorem withoutCommentsFrom_marks {s : Standing} {c : Char} (h : s.Marks c) (rest : List Char) :
    withoutCommentsFrom s.context (c :: rest) =
      c :: withoutCommentsFrom (s.next c).context rest := by
  rw [Standing.context_next]
  cases s with
  | code => rw [Standing.context, withoutCommentsFrom, if_neg h]
  | opened hidden => rw [Standing.context, withoutCommentsFrom, if_neg h.1]
  | string | escape => rfl
  | comment within =>
    obtain rfl : c = '\n' := h
    rfl

theorem withoutCommentsFrom_comment {cs : List Char} (h : '\n' ∉ cs) (rest : List Char) :
    withoutCommentsFrom .comment (cs ++ rest) = withoutCommentsFrom .comment rest := by
  induction cs with
  | nil => rfl
  | cons c cs ih =>
    obtain ⟨hc, hcs⟩ := not_or.mp (mt List.mem_cons.mpr h)
    rw [List.cons_append, withoutCommentsFrom, if_neg (Ne.symm hc), ih hcs]

theorem withoutCommentsFrom_name {cs : List Char} (h : ∀ c ∈ cs, isKindChar c = true)
    (rest : List Char) :
    withoutCommentsFrom .code (cs ++ rest) = cs ++ withoutCommentsFrom .code rest := by
  induction cs with
  | nil => rfl
  | cons c cs ih =>
    obtain ⟨hquote, hcomment, -⟩ := ne_of_isKindChar (h c List.mem_cons_self)
    rw [List.cons_append, withoutCommentsFrom, Context.next, if_neg hcomment, if_neg hquote,
      if_neg hcomment, ih fun d hd => h d (List.mem_cons_of_mem c hd), List.cons_append]

/-- The text of tokens without the comments. -/
def bareText (ts : List Token) : List Char :=
  (ts.flatMap Token.bare).flatMap Piece.text

theorem Reads.withoutCommentsFrom_eq {s : Standing} {ts : List Token} (h : Reads s ts) :
    withoutCommentsFrom s.context (textOf ts) = bareText ts := by
  induction h with
  | nil => rw [textOf, List.flatMap_nil, withoutCommentsFrom.eq_def]; rfl
  | mark hmark _ ih => exact (withoutCommentsFrom_marks hmark _).trans (congrArg _ ih)
  | @comment s cs ts hcode hcs _ ih =>
    obtain ⟨within, hnext⟩ := Standing.next_comment hcode
    rw [hnext] at ih
    rw [hcode]
    exact congrArg (' ' :: ·) ((withoutCommentsFrom_comment hcs _).trans ih)
  | name hword _ _ ih => exact (withoutCommentsFrom_name hword.chars _).trans (congrArg _ ih)

theorem toList_withoutComments {query : String} {ts : List Token} (h : Reads .code ts)
    (htext : textOf ts = query.toList) : (withoutComments query).toList = bareText ts := by
  rw [withoutComments, String.toList_ofList, ← htext]
  exact h.withoutCommentsFrom_eq

/-! ## What comments hide -/

/-- A comment stands between a name and its opening bracket. -/
def HiddenIn (query name : List Char) : Prop :=
  ∃ before rest, query = before ++ name ++ rest ∧ NameAt true before name rest

/-- A name without a counterpart that the other language does not know. -/
def Lost (source target : Language) (name : String) : Prop :=
  Concept.mapKind? name source target = none ∧ target.hasKind name = false

theorem hiddenIn_iff {ts : List Token} (h : Reads .code ts) {name : List Char} :
    HiddenIn (textOf ts) name ↔ .name true name ∈ ts := by
  constructor
  · rintro ⟨before, rest, htext, hname⟩
    obtain ⟨l, r, rfl, -⟩ := h.name_iff.mpr ⟨htext, hname⟩
    simp
  · intro hmem
    obtain ⟨l, r, rfl⟩ := List.append_of_mem hmem
    exact ⟨_, _, h.name_iff.mp ⟨l, r, rfl, rfl, rfl⟩⟩

/-- What is done to a query can be done to it without its comments. -/
structure AgreesWithoutComments (query : String) (source target : Language) : Prop where
  mapped : (adapt query source target).mapped =
    (adapt (withoutComments query) source target).mapped
  unmapped : (adapt query source target).unmapped =
    (adapt (withoutComments query) source target).unmapped
  query : withoutComments (adapt query source target).query =
    (adapt (withoutComments query) source target).query

section Reading

variable {query : String} {ts : List Token} (source target : Language)

/-- Without the comments all names are in view. -/
theorem pieces_withoutComments (h : Reads .code ts) (htext : textOf ts = query.toList) :
    pieces (withoutComments query).toList = ts.flatMap Token.bare := by
  rw [toList_withoutComments h htext]
  exact h.pieces_bare

theorem bare_rename (f : List Char → List Char) (t : Token) :
    (t.rename fun _ => f).bare = t.bare.map (Piece.rename f) := by
  cases t <;> rfl

theorem query_withoutComments (h : Reads .code ts) (htext : textOf ts = query.toList) :
    (adapt (withoutComments query) source target).query.toList =
      bareText (ts.map (Token.rename fun _ => renamed source target)) := by
  rw [(renames_adapt _ source target).query, pieces_withoutComments h htext, bareText,
    List.map_flatMap, List.flatMap_map]
  simp only [bare_rename]

theorem withoutComments_query (h : Reads .code ts) (htext : textOf ts = query.toList) :
    (withoutComments (adapt query source target).query).toList =
      bareText (ts.map (Token.rename (renameSeen source target))) :=
  toList_withoutComments (h.rename fun hidden _ hword => hword.renameSeen hidden)
    (toList_query_adapt h htext source target).symm

/-- Tokens that differ in their names only have the same text if they have the same names. -/
theorem bareText_rename_eq_iff (h : Reads .code ts) {f g : Bool → List Char → List Char}
    (hf : ∀ hidden cs, IsKindWord cs → IsKindWord (f hidden cs))
    (hg : ∀ hidden cs, IsKindWord cs → IsKindWord (g hidden cs)) :
    bareText (ts.map (Token.rename f)) = bareText (ts.map (Token.rename g)) ↔
      ∀ hidden name, .name hidden name ∈ ts → f hidden name = g hidden name := by
  constructor
  · intro htext
    have hbare := congrArg pieces htext
    -- the scanner finds the names of both
    rw [bareText, bareText, pieces, pieces,
      show Scan.code = Standing.code.bare from rfl, (h.rename hf).pieces_bare,
      (h.rename hg).pieces_bare] at hbare
    clear htext h
    induction ts with
    | nil => simp
    | cons t ts ih =>
      intro hidden name hmem
      have hhead : (t.rename f).bare = (t.rename g).bare ∧
          (ts.map (Token.rename f)).flatMap Token.bare =
            (ts.map (Token.rename g)).flatMap Token.bare := by
        rw [List.map_cons, List.map_cons, List.flatMap_cons, List.flatMap_cons] at hbare
        exact List.append_inj hbare (by cases t <;> rfl)
      rcases List.mem_cons.mp hmem with rfl | hmem
      · exact Piece.name.inj (List.singleton_inj.mp hhead.1)
      · exact ih hhead.2 hidden name hmem
  · intro hnames
    have hsame : ∀ t ∈ ts, t.rename f = t.rename g := by
      rintro (c | cs | ⟨hidden, name⟩) ht
      · rfl
      · rfl
      · exact congrArg (Token.name hidden) (hnames hidden name ht)
    rw [List.map_congr_left hsame]

/-- The text comes out the same exactly if no hidden name is to be replaced. -/
theorem query_agrees_iff (query : String) :
    withoutComments (adapt query source target).query =
        (adapt (withoutComments query) source target).query ↔
      ∀ name, HiddenIn query.toList name → renamed source target name = name := by
  obtain ⟨ts, h, htext⟩ := exists_reads .code (by decide) query.toList
  rw [← String.toList_inj, query_withoutComments source target h htext,
    withoutComments_query source target h htext, bareText_rename_eq_iff h
      (fun hidden _ hword => hword.renameSeen hidden) (fun _ _ hword => hword.renamed), ← htext]
  constructor
  · exact fun hnames name hhidden => (hnames true name ((hiddenIn_iff h).mp hhidden)).symm
  · rintro hnames (_ | _) name hmem
    · rfl
    · exact (hnames name ((hiddenIn_iff h).mpr hmem)).symm

/-- A name that a comment hides is found without the comments. -/
theorem mem_kindNames_of_hiddenIn {name : List Char} (hhidden : HiddenIn query.toList name)
    (hname : name ≠ ['_']) :
    String.ofList name ∈ kindNames (pieces (withoutComments query).toList) := by
  obtain ⟨ts, h, htext⟩ := exists_reads .code (by decide) query.toList
  rw [← htext, hiddenIn_iff h] at hhidden
  rw [pieces_withoutComments h htext]
  have hmem : .name name ∈ ts.flatMap Token.bare :=
    List.mem_flatMap.mpr ⟨_, hhidden, List.mem_singleton_self _⟩
  exact List.mem_filterMap.mpr ⟨.name name, hmem, if_neg hname⟩

/-- Of names that are not hidden, the same are found. -/
theorem kindNames_filter {p : String → Bool}
    (hp : ∀ name, HiddenIn query.toList name → name ≠ ['_'] → p (String.ofList name) = false) :
    (kindNames (pieces query.toList)).filter p =
      (kindNames (pieces (withoutComments query).toList)).filter p := by
  obtain ⟨ts, h, htext⟩ := exists_reads .code (by decide) query.toList
  have hseen : pieces (textOf ts) = ts.flatMap Token.seen := h.pieces_eq
  simp only [← htext, hiddenIn_iff h] at hp
  rw [pieces_withoutComments h htext, ← htext, hseen]
  clear h htext hseen
  induction ts with
  | nil => rfl
  | cons t ts ih =>
    have hmarks (cs : List Char) : kindNames (cs.map .mark) = [] := by
      induction cs with
      | nil => rfl
      | cons c cs ih => exact ih
    have happend (ps qs : List Piece) : kindNames (ps ++ qs) = kindNames ps ++ kindNames qs :=
      List.filterMap_append
    have hsame : (kindNames t.seen).filter p = (kindNames t.bare).filter p := by
      cases t with
      | mark c => rfl
      | comment cs => rw [Token.seen, hmarks]; rfl
      | name hidden name =>
        cases hidden with
        | false => rfl
        | true =>
          rw [Token.seen, hmarks]
          by_cases hname : name = ['_']
          · rw [hname]
            rfl
          · simp [kindNames, Token.bare, hname, hp name List.mem_cons_self hname]
    rw [List.flatMap_cons, List.flatMap_cons, happend, happend, List.filter_append,
      List.filter_append, hsame, ih fun name hmem => hp name (List.mem_cons_of_mem t hmem)]

end Reading

/-! ## The law of comments -/

/-- The pairs that are reported, by the names in them. -/
theorem mapped_eq (query : String) (source target : Language) :
    (adapt query source target).mapped =
      ((firstOccurrences (kindNames (pieces query.toList))).filter fun name =>
        (Concept.mapKind? name source target).any (· != name)).filterMap fun name =>
          (Concept.mapKind? name source target).map (name, ·) := by
  rw [List.filterMap_filter]
  refine List.filterMap_congr fun name _ => ?_
  cases hmap : Concept.mapKind? name source target with
  | none => simp
  | some kind => by_cases hsame : kind = name <;> simp [hsame]

/-- **Comments matter only where they hide names.**  A query agrees with itself without its comments
if none of the names between which and their brackets a comment stands is to be replaced or is lost.
If it agrees, none of them is to be replaced, and those that are lost are reported all the same, as
names that also stand elsewhere. -/
theorem adapt_withoutComments (query : String) (source target : Language) :
    ((∀ name, HiddenIn query.toList name → renamed source target name = name ∧
        (name ≠ ['_'] → ¬ Lost source target (String.ofList name))) →
      AgreesWithoutComments query source target) ∧
    (AgreesWithoutComments query source target → ∀ name, HiddenIn query.toList name →
      renamed source target name = name ∧ (name ≠ ['_'] → Lost source target (String.ofList name) →
        String.ofList name ∈ (adapt query source target).unmapped)) := by
  constructor
  · intro hhidden
    have hmapped : ∀ name, HiddenIn query.toList name → name ≠ ['_'] →
        (Concept.mapKind? (String.ofList name) source target).any (· != String.ofList name) =
          false := by
      intro name hname hblank
      have hsame := (hhidden name hname).1
      rw [renamed, if_neg hblank] at hsame
      cases hmap : Concept.mapKind? (String.ofList name) source target with
      | none => rfl
      | some kind =>
        simp only [hmap] at hsame
        simp [← hsame]
    have hunmapped : ∀ name, HiddenIn query.toList name → name ≠ ['_'] →
        ((Concept.mapKind? (String.ofList name) source target).isNone &&
          !target.hasKind (String.ofList name)) = false := by
      intro name hname hblank
      have hlost := (hhidden name hname).2 hblank
      simpa [Lost] using hlost
    refine ⟨?_, ?_, (query_agrees_iff ..).mpr fun name hname => (hhidden name hname).1⟩
    · rw [mapped_eq, mapped_eq, ← firstOccurrences_filter, ← firstOccurrences_filter,
        kindNames_filter hmapped]
    · rw [unmapped_eq, unmapped_eq, ← firstOccurrences_filter, ← firstOccurrences_filter,
        kindNames_filter hunmapped]
  · intro hagrees name hhidden
    refine ⟨(query_agrees_iff ..).mp hagrees.query name hhidden, fun hblank hlost => ?_⟩
    rw [hagrees.unmapped]
    have hlists := (renames_adapt (withoutComments query) source target).unmapped
    exact (hlists.mem_iff _).mpr ⟨mem_kindNames_of_hiddenIn hhidden hblank, hlost⟩

/-- A comment before its kind, and a definition of a function is not carried over. -/
theorem comment_hides_function :
    ¬ AgreesWithoutComments "(; note\nfunction_definition) @f" .python .rust := by
  intro h
  have hmapped : (adapt "(; note\nfunction_definition) @f" .python .rust).mapped = [] ∧
      (adapt (withoutComments "(; note\nfunction_definition) @f") .python .rust).mapped =
        [("function_definition", "function_item")] := by
    decide +kernel
  rw [h.mapped, hmapped.2] at hmapped
  exact List.cons_ne_nil _ _ hmapped.1

end CodeAtlas.Query
