import CodeAtlas.Files.Path
import Mathlib.Data.List.Basic

/-!
# Places are made of names

A part of a written path becomes a step only if it is neither empty nor a dot, and two dots become
the step to the parent.  So the names that steps take are *names* in the strict sense below: they
cannot be read as a step elsewhere, and they hold no slash.  This file shows that resolving a path
by its steps keeps that property, and that what is left of the result below a root has it even
when the root itself is arbitrary.
-/

namespace CodeAtlas

/-- Raw text that names an item of a directory and nothing else. -/
structure Path.IsName (s : RawText) : Prop where
  nonempty : s.octets ≠ []
  notSelf : s.octets ≠ [dot]
  notParent : s.octets ≠ [dot, dot]
  unparted : slash ∉ s.octets

theorem Path.isName_iff {s : RawText} : IsName s ↔
    s.octets ≠ [] ∧ s.octets ≠ [dot] ∧ s.octets ≠ [dot, dot] ∧ slash ∉ s.octets :=
  ⟨fun h => ⟨h.nonempty, h.notSelf, h.notParent, h.unparted⟩,
    fun h => ⟨h.1, h.2.1, h.2.2.1, h.2.2.2⟩⟩

instance (s : RawText) : Decidable (Path.IsName s) :=
  decidable_of_iff _ Path.isName_iff.symm

/-- Every part of the place is a name. -/
def Place.Proper (p : Place) : Prop :=
  ∀ s ∈ p, Path.IsName s

/-! ## Parts of a written path -/

namespace Text

variable {α : Type} [DecidableEq α]

/-- One turn of splitting: the parts that are done, and the reversed one under way. -/
def splitStep (separator : α) (state : List (List α) × List α) (c : α) : List (List α) × List α :=
  if c = separator then (state.2.reverse :: state.1, []) else (state.1, c :: state.2)

theorem splitOn_eq (separator : α) (cs : List α) :
    splitOn separator cs =
      ((cs.foldl (splitStep separator) ([], [])).2.reverse ::
        (cs.foldl (splitStep separator) ([], [])).1).reverse := rfl

/-- No part of a split text holds the separator, since neither what is done nor what is under way
ever does. -/
theorem notMem_of_mem_splitOn {separator : α} {cs part : List α}
    (h : part ∈ splitOn separator cs) : separator ∉ part := by
  have inv := List.foldlRecOn cs (splitStep separator)
    (motive := fun state => (∀ part ∈ state.1, separator ∉ part) ∧ separator ∉ state.2)
    (b := ([], [])) (by simp) (by
      intro state hstate c _
      unfold splitStep
      by_cases hc : c = separator
      · simpa [hc, hstate.2] using hstate.1
      · simpa [hc, Ne.symm hc, hstate.2] using hstate.1)
  rw [splitOn_eq, List.mem_reverse] at h
  rcases List.mem_cons.mp h with rfl | h
  · simpa using inv.2
  · exact inv.1 part h

end Text

namespace Path

theorem isName_of_stepOf? {part : List UInt8} {s : RawText} (hpart : slash ∉ part)
    (h : stepOf? part = some (.name s)) : IsName s := by
  unfold stepOf? at h
  split at h
  · cases h
  · rename_i hdot
    split at h
    · cases h
    · rename_i hparent
      cases h
      exact ⟨fun hs => hdot (.inl hs), fun hs => hdot (.inr hs), hparent, hpart⟩

/-- The names that a written path goes through are names. -/
theorem isName_of_mem_steps {r s : RawText} (h : .name s ∈ (ofRaw r).steps) : IsName s := by
  obtain ⟨part, hpart, hstep⟩ := List.mem_filterMap.mp h
  exact isName_of_stepOf? (Text.notMem_of_mem_splitOn hpart) hstep

/-! ## Steps from a place -/

/-- Steps to the parent eat up the names last taken, and then the base from its end.  So the
result is a beginning of the base followed by names that the steps have taken. -/
theorem exists_foldl_advance_eq (base : Place) (steps : List Step)
    (hsteps : ∀ s, .name s ∈ steps → IsName s) :
    ∃ kept names, steps.foldl advance base = kept ++ names ∧ kept <+: base ∧
      Place.Proper names := by
  refine List.foldlRecOn steps advance
    (motive := fun place : Place => ∃ kept names, place = kept ++ names ∧ kept <+: base ∧
      Place.Proper names) ⟨base, [], by simp, List.prefix_rfl, by simp [Place.Proper]⟩ ?_
  rintro _ ⟨kept, names, rfl, hkept, hnames⟩ step hstep
  cases step with
  | name s =>
    refine ⟨kept, names ++ [s], by simp [advance], hkept, ?_⟩
    intro t ht
    rcases List.mem_append.mp ht with ht | ht
    · exact hnames t ht
    · obtain rfl := List.mem_singleton.mp ht
      exact hsteps t hstep
  | parent =>
    rcases List.eq_nil_or_concat' names with rfl | ⟨names, last, rfl⟩
    · refine ⟨kept.dropLast, [], by simp [advance], ?_, by simp [Place.Proper]⟩
      exact (List.dropLast_prefix kept).trans hkept
    · refine ⟨kept, names, ?_, hkept, fun t ht => hnames t (by simp [ht])⟩
      rw [advance, ← List.append_assoc, List.dropLast_concat]

end Path

/-! ## What is below a root -/

namespace Place

theorem proper_append {p q : Place} (hp : p.Proper) (hq : q.Proper) : Proper (p ++ q) := by
  intro s hs
  rcases List.mem_append.mp hs with hs | hs
  · exact hp s hs
  · exact hq s hs

theorem below?_eq_some_iff {root p relative : Place} :
    below? root p = some relative ↔ p = root ++ relative := by
  induction root generalizing p with
  | nil => simp [below?, eq_comm]
  | cons r root ih =>
    cases p with
    | nil => simp [below?]
    | cons s p =>
      by_cases h : r = s
      · simp [below?, h, ih]
      · have : s ≠ r := fun hs => h hs.symm
        simp [below?, h, this]

theorem below?_eq_none_iff {root p : Place} : below? root p = none ↔ ¬ root <+: p := by
  rw [Option.eq_none_iff_forall_ne_some]
  constructor
  · rintro h ⟨relative, rfl⟩
    exact h relative (below?_eq_some_iff.mpr rfl)
  · intro h relative hrelative
    exact h ⟨relative, (below?_eq_some_iff.mp hrelative).symm⟩

/-- What a path leads to below the root it starts at is made of names, whatever the root is. -/
theorem proper_of_resolve_eq {root relative : Place} {path : String}
    (h : Path.resolve root (Path.ofString path) = root ++ relative) : relative.Proper := by
  obtain ⟨kept, names, heq, hkept, hnames⟩ := Path.exists_foldl_advance_eq
    (if (Path.ofString path).absolute then [] else root) (Path.ofString path).steps
    (fun s hs => Path.isName_of_mem_steps hs)
  have hroot : kept <+: root := by
    refine hkept.trans ?_
    split
    · exact List.nil_prefix
    · exact List.prefix_rfl
  obtain ⟨rest, rfl⟩ := hroot
  rw [Path.resolve, heq, List.append_assoc] at h
  obtain rfl := List.append_cancel_left h
  exact fun s hs => hnames s (by simp [hs])

/-- Spelling a proper place out and taking it apart again changes nothing. -/
theorem tidy_eq_self {p : Place} (hp : p.Proper) : p.tidy = p := by
  unfold tidy
  split
  · rfl
  · exact absurd rfl (hp ⟨[]⟩ (by simp)).nonempty
  · rename_i s rest _
    have hrest : rest.filter (fun t => t.octets ≠ [] && t.octets ≠ [Path.dot]) = rest := by
      refine List.filter_eq_self.mpr fun t ht => ?_
      have := hp t (by simp [ht])
      simp [this.nonempty, this.notSelf]
    rw [hrest]

end Place

end CodeAtlas
