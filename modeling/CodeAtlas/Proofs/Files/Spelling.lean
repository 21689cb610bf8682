import CodeAtlas.Proofs.Files.Place
import CodeAtlas.Proofs.Text.Utf8

/-!
# Places written out

A place below a root can be written out as a path, its names joined by slashes.  Since the names of
a proper place cannot be read as anything else, the path leads back to the place, from any root and
judged by its steps alone.

A path that somebody asks for is text.  So a place can be asked for if its names make up text
(`Place.spelled?`), and not otherwise.
-/

namespace CodeAtlas

namespace Text

variable {α : Type} [DecidableEq α]

/-- The parts that are done come first, and the one under way is the beginning of the next. -/
theorem foldl_splitStep (separator : α) (cs : List α) (state : List (List α) × List α) :
    ((cs.foldl (splitStep separator) state).2.reverse ::
        (cs.foldl (splitStep separator) state).1).reverse =
      state.1.reverse ++ (cs.splitOn separator).modifyHead (state.2.reverse ++ ·) := by
  induction cs generalizing state with
  | nil => simp
  | cons c cs ih =>
    rw [List.foldl_cons, ih, List.splitOn_cons_eq_if_modifyHead]
    by_cases hc : c = separator
    · obtain ⟨part, parts, hparts⟩ := List.exists_cons_of_ne_nil (List.splitOn_ne_nil separator cs)
      simp [splitStep, hc, hparts]
    · simp [splitStep, hc, List.modifyHead_modifyHead, Function.comp_def]

theorem splitOn_eq_splitOn (separator : α) (cs : List α) :
    splitOn separator cs = cs.splitOn separator := by
  obtain ⟨part, parts, hparts⟩ := List.exists_cons_of_ne_nil (List.splitOn_ne_nil separator cs)
  rw [splitOn_eq, foldl_splitStep, hparts]
  rfl

end Text

namespace Place

variable {place : Place}

/-- Splitting a proper place that was joined by slashes gives its names. -/
theorem splitOn_joined (h : place.Proper) (hne : place ≠ []) :
    Text.splitOn Path.slash place.joined.octets = place.map RawText.octets := by
  rw [joined, Text.splitOn_eq_splitOn, List.splitOn_intercalate]
  · intro name hname
    obtain ⟨s, hs, rfl⟩ := List.mem_map.mp hname
    exact (h s hs).unparted
  · simpa using hne

end Place

namespace Path

variable {place : Place}

/-- A name is the step to itself. -/
theorem IsName.stepOf?_eq {s : RawText} (h : IsName s) : stepOf? s.octets = some (.name s) := by
  have hdot : ¬ (s.octets = [] ∨ s.octets = [dot]) := not_or.mpr ⟨h.nonempty, h.notSelf⟩
  rw [stepOf?, if_neg hdot, if_neg h.notParent]

theorem steps_ofRaw_joined (h : place.Proper) (hne : place ≠ []) :
    (ofRaw place.joined).steps = place.map .name := by
  have hsteps : ∀ s ∈ place, (stepOf? ∘ RawText.octets) s = (some ∘ Step.name) s :=
    fun s hs => (h s hs).stepOf?_eq
  rw [ofRaw, Place.splitOn_joined h hne, List.filterMap_map, List.filterMap_congr hsteps,
    List.filterMap_eq_map]

/-- If the path began with a slash, the first name would be empty. -/
theorem absolute_ofRaw_joined (h : place.Proper) (hne : place ≠ []) :
    (ofRaw place.joined).absolute = false := by
  refine decide_eq_false fun hhead => ?_
  obtain ⟨rest, hrest⟩ := List.head?_eq_some_iff.mp hhead
  have hparts := Place.splitOn_joined h hne
  rw [hrest, Text.splitOn_eq_splitOn, List.splitOn_cons_eq_if_modifyHead, if_pos (by simp)] at hparts
  obtain ⟨s, hs, hempty⟩ := List.mem_map.mp (hparts ▸ List.mem_cons_self)
  exact (h s hs).nonempty hempty

theorem foldl_advance_names (base place : Place) :
    (place.map Step.name).foldl advance base = base ++ place := by
  induction place generalizing base with
  | nil => simp
  | cons s rest ih =>
    rw [List.map_cons, List.foldl_cons, ih, advance, List.append_assoc, List.singleton_append]

theorem resolve_joined (root : Place) (h : place.Proper) (hne : place ≠ []) :
    resolve root (ofRaw place.joined) = root ++ place := by
  rw [resolve, absolute_ofRaw_joined h hne, steps_ofRaw_joined h hne]
  exact foldl_advance_names root place

end Path

/-! ## Places that can be written as text -/

namespace Place

variable {place other : Place} {text : String}

/-- The text that a place below a root is written as, if its names make up text. -/
def spelled? (place : Place) : Option String := place.joined.text?

theorem ofString_of_spelled? (h : place.spelled? = some text) : place.joined = .ofString text :=
  RawText.text?_eq_some_iff.mp h

/-- What is shown of such a place is its text. -/
theorem relative_of_spelled? (h : place.spelled? = some text) : place.relative = text := by
  rw [relative, ofString_of_spelled? h, RawText.shown_ofString]

/-- The path that a place below a root is written as leads to that place. -/
theorem resolve_of_spelled? (root : Place) (h : place.Proper) (hne : place ≠ [])
    (htext : place.spelled? = some text) :
    Path.resolve root (Path.ofString text) = root ++ place := by
  rw [← Path.resolve_joined root h hne, ofString_of_spelled? htext]
  rfl

theorem eq_of_joined_eq (hplace : place.Proper) (hother : other.Proper) (hne : place ≠ [])
    (hne' : other ≠ []) (h : place.joined = other.joined) : place = other := by
  have hparts := splitOn_joined hplace hne
  rw [h, splitOn_joined hother hne'] at hparts
  refine (List.map_inj_right fun r s hoctets => ?_).mp hparts.symm
  cases r
  cases s
  exact congrArg RawText.mk hoctets

end Place

end CodeAtlas
