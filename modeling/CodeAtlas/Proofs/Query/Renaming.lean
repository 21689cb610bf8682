import CodeAtlas.Proofs.Query.Tokens
import Mathlib.Data.List.Nodup

/-!
# Names carried over and back

To carry a query over replaces names and nothing else (`adapt_renames`).  What a name is replaced by
is told by the concepts, which no two kinds of a language share; so a query that is carried over and
back comes out as it was, unless a name means something only on the way back (`adapt_adapt`).
-/

namespace CodeAtlas.Query

/-! ## Concepts -/

namespace Concept

variable {kind other : String} {source target : Language}

/-- A kind plays one part in its language. -/
theorem eq_of_kind? {c d : Concept} (hc : c ∈ all) (hd : d ∈ all)
    (hkind : c.kind? source = some kind) (hkind' : d.kind? source = some kind) : c = d := by
  have hall : ∀ language : Language, ∀ c ∈ all, ∀ d ∈ all,
      (c.kind? language).isSome → c.kind? language = d.kind? language → c = d := by
    intro language
    cases language <;> decide +kernel
  exact hall source c hc d hd (by simp [hkind]) (hkind.trans hkind'.symm)

theorem mapKind?_eq_some_iff : mapKind? kind source target = some other ↔
    ∃ c ∈ all, c.kind? source = some kind ∧ c.kind? target = some other := by
  constructor
  · intro h
    obtain ⟨c, hc, hfound⟩ := List.exists_of_findSome?_eq_some h
    split_ifs at hfound with hkind
    exact ⟨c, hc, hkind, hfound⟩
  · rintro ⟨c, hc, hkind, hother⟩
    obtain ⟨d, hd, hfound⟩ : ∃ d ∈ all, d.kind? source = some kind ∧
        mapKind? kind source target = d.kind? target := by
      obtain ⟨other', hmap⟩ := Option.isSome_iff_exists.mp <| List.findSome?_isSome_iff
        (f := fun c : Concept => if c.kind? source = some kind then c.kind? target else none)
        |>.mpr ⟨c, hc, by simp [hkind, hother]⟩
      obtain ⟨d, hd, hfound⟩ := List.exists_of_findSome?_eq_some hmap
      split_ifs at hfound with hkind'
      exact ⟨d, hd, hkind', hmap.trans hfound.symm⟩
    rw [hfound.2, ← eq_of_kind? hc hd hkind hfound.1, hother]

/-- What is carried over is carried back. -/
theorem mapKind?_comm :
    mapKind? kind source target = some other ↔ mapKind? other target source = some kind := by
  simp only [mapKind?_eq_some_iff, and_comm]

theorem mapKind?_self (h : mapKind? kind source source = some other) : other = kind := by
  obtain ⟨c, _, hkind, hother⟩ := mapKind?_eq_some_iff.mp h
  exact Option.some.inj (hother.symm.trans hkind)

theorem isKindWord_of_kind? {c : Concept} (hc : c ∈ all) (h : c.kind? source = some kind) :
    IsKindWord kind.toList ∧ kind.toList ≠ ['_'] := by
  have hall : ∀ c ∈ all, ∀ p ∈ c,
      p.2.toList ≠ [] ∧ p.2.toList.all isKindChar = true ∧ p.2.toList ≠ ['_'] := by
    decide +kernel
  obtain ⟨p, hp, rfl⟩ : ∃ p ∈ c, p.2 = kind := by
    rw [kind?, List.lookup_eq_some_iff] at h
    obtain ⟨front, back, rfl, -⟩ := h
    exact ⟨(base source, kind), by simp, rfl⟩
  obtain ⟨hne, hchars, hblank⟩ := hall c hc p hp
  exact ⟨⟨hne, List.all_eq_true.mp hchars⟩, hblank⟩

theorem mapKind?_blank : mapKind? "_" source target = none := by
  refine Option.eq_none_iff_forall_ne_some.mpr fun other h => ?_
  obtain ⟨c, hc, hkind, -⟩ := mapKind?_eq_some_iff.mp h
  exact (isKindWord_of_kind? hc hkind).2 rfl

end Concept

/-! ## Names replaced -/

/-- What stands for a name in the other language. -/
def renamed (source target : Language) (name : List Char) : List Char :=
  if name = ['_'] then name
  else match Concept.mapKind? (String.ofList name) source target with
    | some kind => kind.toList
    | none => name

section Renamed

variable {source target : Language} {name : List Char}

theorem render_name : (Piece.name name).render source target = renamed source target name := by
  rw [renamed]
  split_ifs with h
  · rw [h, Piece.render, show String.ofList ['_'] = "_" from rfl, Concept.mapKind?_blank]
  · rfl

theorem IsKindWord.renamed (h : IsKindWord name) :
    IsKindWord (renamed source target name) := by
  rw [Query.renamed]
  split_ifs
  · exact h
  · split
    · next kind hmap =>
      obtain ⟨c, hc, -, hkind⟩ := Concept.mapKind?_eq_some_iff.mp hmap
      exact (Concept.isKindWord_of_kind? hc hkind).1
    · exact h

theorem renamed_self : renamed source source name = name := by
  rw [renamed]
  split_ifs
  · rfl
  · split
    · next kind hmap => rw [Concept.mapKind?_self hmap, String.toList_ofList]
    · rfl

/-- A name can be told from what stands for it: it plays a part in both languages, or none in the
other. -/
def ComesBack (first second : Language) (name : List Char) : Prop :=
  (∃ c ∈ Concept.all, c.kind? first = some (String.ofList name) ∧ (c.kind? second).isSome) ∨
    ∀ c ∈ Concept.all, c.kind? second ≠ some (String.ofList name)

instance (first second : Language) (name : List Char) : Decidable (ComesBack first second name) :=
  inferInstanceAs (Decidable (_ ∨ _))

theorem ComesBack.renamed_renamed (h : ComesBack source target name) :
    renamed target source (renamed source target name) = name := by
  by_cases hblank : name = ['_']
  · subst hblank
    rfl
  cases hmap : Concept.mapKind? (String.ofList name) source target with
  | some kind =>
    obtain ⟨c, hc, -, hkind⟩ := Concept.mapKind?_eq_some_iff.mp hmap
    have hback := Concept.mapKind?_comm.mp hmap
    simp [renamed, hblank, hmap, (Concept.isKindWord_of_kind? hc hkind).2, hback]
  | none =>
    have hback : Concept.mapKind? (String.ofList name) target source = none := by
      refine Option.eq_none_iff_forall_ne_some.mpr fun kind hmap' => ?_
      obtain ⟨c, hc, hname, hkind⟩ := Concept.mapKind?_eq_some_iff.mp hmap'
      rcases h with ⟨d, hd, hname', hother⟩ | hnone
      · obtain ⟨other, hother⟩ := Option.isSome_iff_exists.mp hother
        have := Concept.mapKind?_eq_some_iff.mpr ⟨d, hd, hname', hother⟩
        rw [hmap] at this
        cases this
      · exact hnone c hc hname
    simp [renamed, hblank, hmap, hback]

end Renamed

/-- Names in view are replaced, hidden ones are not. -/
def renameSeen (source target : Language) : Bool → List Char → List Char
  | false, name => renamed source target name
  | true, name => name

theorem IsKindWord.renameSeen {source target : Language} (hidden : Bool) {name : List Char}
    (h : IsKindWord name) : IsKindWord (renameSeen source target hidden name) := by
  cases hidden with
  | false => exact h.renamed
  | true => exact h

/-! ## Parts -/

/-- The parts of a query: the names that stand in view, and the other characters.  No query has them
in two ways (`PartsOf.unique`). -/
structure PartsOf (query : List Char) (ps : List Piece) : Prop where
  text : ps.flatMap Piece.text = query
  name_iff : ∀ before name rest,
    (∃ front back, ps = front ++ .name name :: back ∧ front.flatMap Piece.text = before ∧
      back.flatMap Piece.text = rest) ↔
    query = before ++ name ++ rest ∧ NameAt false before name rest

namespace PartsOf

variable {query name before rest : List Char} {done ps ps' part : List Piece}

theorem name_mem (h : PartsOf query ps) (hquery : query = before ++ name ++ rest)
    (hname : NameAt false before name rest) : .name name ∈ ps := by
  obtain ⟨front, back, rfl, -⟩ := (h.name_iff before name rest).mpr ⟨hquery, hname⟩
  simp

/-- No part is empty. -/
theorem text_ne_nil (h : PartsOf query ps) {p : Piece} (hp : p ∈ ps) : p.text ≠ [] := by
  cases p with
  | mark c => exact List.cons_ne_nil c []
  | name name =>
    obtain ⟨front, back, rfl⟩ := List.append_of_mem hp
    exact ((h.name_iff ..).mp ⟨front, back, rfl, rfl, rfl⟩).2.word.ne_nil

theorem eq_nil_of_text (h : PartsOf query ps) (hpart : part ⊆ ps)
    (htext : part.flatMap Piece.text = []) : part = [] :=
  List.eq_nil_iff_forall_not_mem.mpr fun p hp =>
    h.text_ne_nil (hpart hp) (List.flatMap_eq_nil_iff.mp htext p hp)

/-- Where one list of parts has a name, the other has it too. -/
theorem next_eq_name (h : PartsOf query (done ++ .name name :: ps))
    (h' : PartsOf query (done ++ ps')) : ∃ back, ps' = .name name :: back := by
  obtain ⟨front, back, hsplit, hfront, -⟩ :=
    (h'.name_iff ..).mpr ((h.name_iff ..).mp ⟨done, ps, rfl, rfl, rfl⟩)
  rcases List.append_eq_append_iff.mp hsplit with ⟨more, rfl, hps⟩ | ⟨more, rfl, hps⟩
  · have hmore : more.flatMap Piece.text = [] := by simpa using hfront
    obtain rfl := h'.eq_nil_of_text (by simp [hps]) hmore
    exact ⟨back, hps⟩
  · have hmore : more.flatMap Piece.text = [] := by simpa using hfront
    obtain rfl := h'.eq_nil_of_text (by simp) hmore
    exact ⟨back, hps.symm⟩

/-- A query has its parts in one way only: a name is told by where it stands. -/
theorem unique (h : PartsOf query ps) (h' : PartsOf query ps') : ps = ps' := by
  -- the induction is on what is left after the parts that are known to be the same
  have hrest : ∀ ps done ps', PartsOf query (done ++ ps) → PartsOf query (done ++ ps') →
      ps = ps' := by
    intro ps
    induction ps with
    | nil =>
      intro done ps' h h'
      have htext := h'.text.trans h.text.symm
      refine (h'.eq_nil_of_text (List.subset_append_right done ps') ?_).symm
      simpa using htext
    | cons p ps ih =>
      intro done ps' h h'
      have hsame : ∃ back, ps' = p :: back := by
        cases p with
        | name name => exact h.next_eq_name h'
        | mark c =>
          cases ps' with
          | nil =>
            have htext := h.text.trans h'.text.symm
            simp [Piece.text] at htext
          | cons p' ps' =>
            cases p' with
            | name name =>
              obtain ⟨back, hback⟩ := h'.next_eq_name h
              cases hback
            | mark c' =>
              have htext := h.text.trans h'.text.symm
              simp only [List.flatMap_append, List.append_cancel_left_eq, List.flatMap_cons,
                Piece.text, List.singleton_append, List.cons.injEq] at htext
              exact ⟨ps', by rw [htext.1]⟩
      obtain ⟨back, rfl⟩ := hsame
      rw [ih (done ++ [p]) back (by simpa using h) (by simpa using h')]
  exact hrest ps [] ps' h h'

end PartsOf

theorem text_seen (t : Token) : t.seen.flatMap Piece.text = t.text := by
  have hmarks (cs : List Char) : (cs.map Piece.mark).flatMap Piece.text = cs := by
    rw [List.flatMap_map]
    exact List.flatMap_singleton' cs
  cases t with
  | mark => rfl
  | comment cs => exact hmarks _
  | name hidden cs =>
    cases hidden with
    | false => simp [Token.seen, Piece.text, Token.text]
    | true => exact hmarks _

theorem textOf_seen (ts : List Token) : (ts.flatMap Token.seen).flatMap Piece.text = textOf ts := by
  rw [List.flatMap_assoc, textOf]
  exact congrArg (ts.flatMap ·) (funext text_seen)

/-- No name begins in marks. -/
theorem marks_append_eq {cs : List Char} {ps front back : List Piece} {name : List Char} :
    cs.map .mark ++ ps = front ++ .name name :: back ↔
      ∃ front', front = cs.map .mark ++ front' ∧ ps = front' ++ .name name :: back := by
  induction cs generalizing front with
  | nil => simp
  | cons c cs ih =>
    cases front with
    | nil => simp
    | cons p front =>
      simp only [List.map_cons, List.cons_append, List.cons.injEq, ih]
      constructor
      · rintro ⟨rfl, front', rfl, hps⟩
        exact ⟨front', ⟨rfl, rfl⟩, hps⟩
      · rintro ⟨front', ⟨rfl, rfl⟩, hps⟩
        exact ⟨rfl, front', rfl, hps⟩

/-- The names that the scanner finds are the ones in view. -/
theorem seen_split {ts : List Token} {front back : List Piece} {name : List Char} :
    ts.flatMap Token.seen = front ++ .name name :: back ↔
      ∃ l r, ts = l ++ .name false name :: r ∧ l.flatMap Token.seen = front ∧
        r.flatMap Token.seen = back := by
  induction ts generalizing front with
  | nil => simp
  | cons t ts ih =>
    have hmarks (cs : List Char) (ht : t.seen = cs.map .mark) (hname : t ≠ .name false name) :
        t.seen ++ ts.flatMap Token.seen = front ++ .name name :: back ↔
          ∃ l r, t :: ts = l ++ .name false name :: r ∧ l.flatMap Token.seen = front ∧
            r.flatMap Token.seen = back := by
      rw [ht, marks_append_eq]
      constructor
      · rintro ⟨front', rfl, hps⟩
        obtain ⟨l, r, rfl, rfl, rfl⟩ := ih.mp hps
        exact ⟨t :: l, r, rfl, by rw [List.flatMap_cons, ht], rfl⟩
      · rintro ⟨_ | ⟨t', l⟩, r, hsplit, rfl, rfl⟩
        · exact absurd (List.cons.inj hsplit).1 hname
        · obtain ⟨rfl, rfl⟩ := List.cons.inj hsplit
          exact ⟨l.flatMap Token.seen, by rw [List.flatMap_cons, ht], ih.mpr ⟨l, r, rfl, rfl, rfl⟩⟩
    rw [List.flatMap_cons]
    cases t with
    | mark c => exact hmarks [c] rfl (by simp)
    | comment cs => exact hmarks (';' :: cs) rfl (by simp)
    | name hidden cs =>
      cases hidden with
      | true => exact hmarks cs rfl (by simp)
      | false =>
        constructor
        · intro h
          cases front with
          | nil =>
            obtain ⟨hname, rfl⟩ := List.cons.inj h
            exact ⟨[], ts, by rw [Piece.name.inj hname]; rfl, rfl, rfl⟩
          | cons p front =>
            obtain ⟨rfl, hps⟩ := List.cons.inj h
            obtain ⟨l, r, rfl, rfl, rfl⟩ := ih.mp hps
            exact ⟨.name false cs :: l, r, rfl, rfl, rfl⟩
        · rintro ⟨_ | ⟨t, l⟩, r, hsplit, rfl, rfl⟩
          · obtain ⟨hname, rfl⟩ := List.cons.inj hsplit
            rw [(Token.name.inj hname).2]
            rfl
          · obtain ⟨rfl, rfl⟩ := List.cons.inj hsplit
            exact congrArg (.name cs :: ·) (ih.mpr ⟨l, r, rfl, rfl, rfl⟩)

/-- **The scanner finds the names that stand in view.** -/
theorem partsOf_pieces (query : List Char) : PartsOf query (pieces query) := by
  obtain ⟨ts, hts, rfl⟩ := exists_reads .code (by decide) query
  have hpieces : pieces (textOf ts) = ts.flatMap Token.seen := hts.pieces_eq
  rw [hpieces]
  refine ⟨textOf_seen ts, fun before name rest => ?_⟩
  rw [← hts.name_iff]
  constructor
  · rintro ⟨front, back, hps, rfl, rfl⟩
    obtain ⟨l, r, rfl, rfl, rfl⟩ := seen_split.mp hps
    exact ⟨l, r, rfl, (textOf_seen l).symm, (textOf_seen r).symm⟩
  · rintro ⟨l, r, rfl, rfl, rfl⟩
    exact ⟨_, _, seen_split.mpr ⟨l, r, rfl, rfl, rfl⟩, textOf_seen l, textOf_seen r⟩

/-! ## First occurrences -/

/-- The items that pass a test are listed, each once and in the order of first occurrence. -/
structure Lists (items : List String) (p : String → Prop) (listed : List String) : Prop where
  mem_iff : ∀ item, item ∈ listed ↔ item ∈ items ∧ p item
  once : listed.Nodup
  inOrder : listed.Pairwise fun a b => items.idxOf a < items.idxOf b

theorem firstOccurrences_concat (items : List String) (item : String) :
    firstOccurrences (items ++ [item]) =
      if item ∈ firstOccurrences items then firstOccurrences items
      else firstOccurrences items ++ [item] := by
  rw [firstOccurrences, List.foldl_concat, ← firstOccurrences]
  simp only [List.contains_iff_mem]

theorem mem_firstOccurrences {items : List String} {item : String} :
    item ∈ firstOccurrences items ↔ item ∈ items := by
  induction items using List.reverseRecOn with
  | nil => rfl
  | append_singleton items last ih =>
    rw [firstOccurrences_concat]
    split_ifs with hlast
    · rw [ih, List.mem_append, List.mem_singleton]
      refine ⟨.inl, fun h => h.elim id fun h => ?_⟩
      rw [h] at ih ⊢
      exact ih.mp hlast
    · rw [List.mem_append, ih, List.mem_append]

theorem pairwise_firstOccurrences (items : List String) :
    (firstOccurrences items).Pairwise fun a b => items.idxOf a < items.idxOf b := by
  induction items using List.reverseRecOn with
  | nil => exact .nil
  | append_singleton items last ih =>
    have hbefore {a : String} (ha : a ∈ firstOccurrences items) :
        (items ++ [last]).idxOf a = items.idxOf a :=
      List.idxOf_append_of_mem (mem_firstOccurrences.mp ha)
    have hsame : (firstOccurrences items).Pairwise fun a b =>
        (items ++ [last]).idxOf a < (items ++ [last]).idxOf b :=
      ih.imp_of_mem fun ha hb h => by rwa [hbefore ha, hbefore hb]
    rw [firstOccurrences_concat]
    split_ifs with hlast
    · exact hsame
    · refine List.pairwise_append.mpr ⟨hsame, List.pairwise_singleton .., fun a ha b hb => ?_⟩
      obtain rfl := List.mem_singleton.mp hb
      rw [hbefore ha, List.idxOf_append_of_notMem (mt mem_firstOccurrences.mpr hlast)]
      exact Nat.lt_add_right _ (List.idxOf_lt_length_of_mem (mem_firstOccurrences.mp ha))

/-- To pick items first or last is the same. -/
theorem firstOccurrences_filter (p : String → Bool) (items : List String) :
    firstOccurrences (items.filter p) = (firstOccurrences items).filter p := by
  induction items using List.reverseRecOn with
  | nil => rfl
  | append_singleton items last ih =>
    by_cases hp : p last = true
    · rw [List.filter_append, List.filter_singleton, hp, cond_true, firstOccurrences_concat,
        firstOccurrences_concat]
      simp only [mem_firstOccurrences, List.mem_filter, hp, and_true, ih]
      split_ifs
      · rfl
      · simp [hp]
    · rw [List.filter_append, List.filter_singleton, eq_false_of_ne_true hp, cond_false,
        List.append_nil, ih, firstOccurrences_concat]
      split_ifs
      · rfl
      · simp [hp]

theorem lists_filter (p : String → Bool) (items : List String) :
    Lists items (p · = true) ((firstOccurrences items).filter p) := by
  have horder := (pairwise_firstOccurrences items).filter p
  refine ⟨fun item => ?_, horder.imp fun h heq => ?_, horder⟩
  · rw [List.mem_filter, mem_firstOccurrences]
  · rw [heq] at h
    exact Nat.lt_irrefl _ h

/-! ## Queries carried over -/

def Piece.rename (f : List Char → List Char) : Piece → Piece
  | mark c => mark c
  | name cs => name (f cs)

/-- What becomes of the parts of a query. -/
structure Renames (source target : Language) (ps : List Piece) (a : Adapted) : Prop where
  query : a.query.toList = (ps.map (Piece.rename (renamed source target))).flatMap Piece.text
  mapped : Lists (kindNames ps)
    (fun name => ∃ kind, Concept.mapKind? name source target = some kind ∧ kind ≠ name)
    (a.mapped.map Prod.fst)
  mapped_kind : ∀ p ∈ a.mapped, Concept.mapKind? p.1 source target = some p.2
  unmapped : Lists (kindNames ps)
    (fun name => Concept.mapKind? name source target = none ∧ target.hasKind name = false)
    a.unmapped

theorem render_eq (source target : Language) (p : Piece) :
    p.render source target = (p.rename (renamed source target)).text := by
  cases p with
  | mark => rfl
  | name => exact render_name

/-- The names that are replaced by others. -/
theorem mapped_fst (query : String) (source target : Language) :
    (adapt query source target).mapped.map Prod.fst =
      (firstOccurrences (kindNames (pieces query.toList))).filter fun name =>
        (Concept.mapKind? name source target).any (· != name) := by
  change (List.filterMap _ _).map Prod.fst = _
  rw [List.map_filterMap, ← List.filterMap_eq_filter]
  refine List.filterMap_congr fun name _ => ?_
  cases hmap : Concept.mapKind? name source target with
  | none => simp [Option.guard, hmap]
  | some kind => by_cases hsame : kind = name <;> simp [Option.guard, hmap, hsame]

/-- The names that are lost. -/
theorem unmapped_eq (query : String) (source target : Language) :
    (adapt query source target).unmapped =
      (firstOccurrences (kindNames (pieces query.toList))).filter fun name =>
        (Concept.mapKind? name source target).isNone && !target.hasKind name :=
  firstOccurrences_filter ..

theorem mapKind?_of_mem_mapped {query : String} {source target : Language} {p : String × String}
    (h : p ∈ (adapt query source target).mapped) :
    Concept.mapKind? p.1 source target = some p.2 ∧ p.2 ≠ p.1 := by
  obtain ⟨name, -, hfound⟩ := List.mem_filterMap.mp h
  split at hfound
  · next hmap =>
    split_ifs at hfound with hsame
    obtain rfl := Option.some.inj hfound
    exact ⟨hmap, hsame⟩
  · cases hfound

theorem renames_adapt (query : String) (source target : Language) :
    Renames source target (pieces query.toList) (adapt query source target) := by
  refine ⟨?_, ?_, fun p hp => (mapKind?_of_mem_mapped hp).1, ?_⟩
  · change (String.ofList _).toList = _
    rw [String.toList_ofList, List.flatMap_map]
    exact congrArg (List.flatMap · _) (funext (render_eq source target))
  · rw [mapped_fst]
    convert lists_filter _ _ using 2
    rw [Option.any_eq_true]
    simp
  · rw [unmapped_eq]
    convert lists_filter _ _ using 2
    simp

/-- **To carry a query over replaces kinds and nothing else.**  The names in view are replaced, in
place, by what stands for them.  Reported are those that other names replace, and those without a
counterpart that are no kinds of the other language, which takes every beginning of the name of an
error for one.  Within one language nothing happens. -/
theorem adapt_renames (query : String) (source target : Language) :
    (∃ ps, PartsOf query.toList ps ∧ Renames source target ps (adapt query source target)) ∧
      (adapt query source source).query = query ∧ (adapt query source source).mapped = [] := by
  have hparts := partsOf_pieces query.toList
  refine ⟨⟨_, hparts, renames_adapt query source target⟩, ?_, ?_⟩
  · have hsame : Piece.rename (renamed source source) = id := by
      funext p
      cases p with
      | mark => rfl
      | name => exact congrArg Piece.name renamed_self
    have hquery := (renames_adapt query source source).query
    rw [hsame, List.map_id, hparts.text] at hquery
    exact String.toList_injective hquery
  · refine List.eq_nil_iff_forall_not_mem.mpr fun p hp => ?_
    obtain ⟨hmap, hother⟩ := mapKind?_of_mem_mapped hp
    exact hother (Concept.mapKind?_self hmap)

/-! ## There and back -/

theorem seen_rename (source target : Language) (t : Token) :
    (t.rename (renameSeen source target)).seen =
      t.seen.map (Piece.rename (renamed source target)) := by
  cases t with
  | mark => rfl
  | comment => simp [Token.rename, Token.seen, Piece.rename]
  | name hidden cs => cases hidden <;> simp [Token.rename, Token.seen, Piece.rename, renameSeen]

/-- What becomes of a query, by its tokens. -/
theorem toList_query_adapt {query : String} {ts : List Token} (hts : Reads .code ts)
    (htext : textOf ts = query.toList) (source target : Language) :
    (adapt query source target).query.toList =
      textOf (ts.map (Token.rename (renameSeen source target))) := by
  have hpieces : pieces (textOf ts) = ts.flatMap Token.seen := hts.pieces_eq
  rw [(renames_adapt query source target).query, ← htext, hpieces, List.map_flatMap, ← textOf_seen,
    List.flatMap_map]
  simp only [seen_rename]

/-- **Carried over and back, a query is what it was**, if every name in view comes back: it plays a
part in both languages, or none in the other. -/
theorem adapt_adapt (query : String) (first second : Language)
    (hback : ∀ before name rest, query.toList = before ++ name ++ rest →
      NameAt false before name rest → ComesBack first second name) :
    (adapt (adapt query first second).query second first).query = query := by
  obtain ⟨ts, hts, htext⟩ := exists_reads .code (by decide) query.toList
  have hthere := toList_query_adapt hts htext first second
  have hts' := hts.rename (f := renameSeen first second) fun hidden _ h => h.renameSeen hidden
  have hboth := toList_query_adapt hts' hthere.symm second first
  have hsame : ∀ t ∈ ts, (Token.rename (renameSeen second first) ∘
      Token.rename (renameSeen first second)) t = id t := by
    intro t ht
    rcases t with c | cs | ⟨_ | _, name⟩
    · rfl
    · rfl
    · obtain ⟨l, r, rfl⟩ := List.append_of_mem ht
      obtain ⟨hquery, hname⟩ := hts.name_iff.mp ⟨l, r, rfl, rfl, rfl⟩
      exact congrArg (Token.name false)
        (hback _ _ _ (htext.symm.trans hquery) hname).renamed_renamed
    · rfl
  rw [List.map_map, List.map_congr_left hsame, List.map_id, htext] at hboth
  exact String.toList_injective hboth

/-- A function that returns a string, carried from Python to Rust and back.  That brackets are
missing does not matter, nor what stands in the string and in the comment. -/
theorem adapt_adapt_function :
    let query := "(function_definition (return_statement ( string (_ \"(call\" ; (call"
    (∀ before name rest, query.toList = before ++ name ++ rest → NameAt false before name rest →
      ComesBack .python .rust name) ∧
    (adapt (adapt query .python .rust).query .rust .python).query = query := by
  intro query
  have hall : ∀ p ∈ pieces query.toList, ComesBack .python .rust p.text := by decide +kernel
  have hback : ∀ before name rest, query.toList = before ++ name ++ rest →
      NameAt false before name rest → ComesBack .python .rust name := by
    intro before name rest hquery hname
    exact hall (.name name) ((partsOf_pieces query.toList).name_mem hquery hname)
  exact ⟨hback, adapt_adapt query .python .rust hback⟩

end CodeAtlas.Query
