import CodeAtlas.Language.Registry

/-!
# What a registry of languages remembers

A registry remembers which identifiers have failed, and an identifier that is remembered is not
tried again.  This file shows that it never remembers one that would not fail, so a language is
always there for whoever asks for it by its own identifier.
-/

namespace CodeAtlas.Language

theorem normalize_id (l : Language) : normalize l.id = l.id := by
  cases l <;> decide +kernel

theorem ofId?_id (l : Language) : ofId? l.id = some l := by
  cases l <;> decide +kernel

theorem id_injective {l l' : Language} (h : l.id = l'.id) : l = l' := by
  have hl := ofId?_id l
  rw [h, ofId?_id] at hl
  exact (Option.some.inj hl).symm

theorem ofId?_eq_some_iff {id : String} {l : Language} : ofId? id = some l ↔ l.id = id := by
  constructor
  · intro h
    simpa using List.find?_some h
  · rintro rfl
    exact ofId?_id l

namespace Registry

variable {registry : Registry} {id name : String}

/-- Only what is no language is remembered as failed. -/
def Sound (registry : Registry) : Prop :=
  ∀ id ∈ registry.failed, ofId? id = none

theorem mem_insertId {other : String} {ids : List String} :
    other ∈ insertId id ids ↔ other = id ∨ other ∈ ids := by
  induction ids with
  | nil => exact List.mem_singleton.trans (or_iff_left List.not_mem_nil).symm
  | cons first rest ih =>
    rw [insertId]
    split
    · exact List.mem_cons
    · split
      · rename_i heq
        exact (or_iff_right_of_imp fun h => h ▸ heq ▸ List.mem_cons_self).symm
      · rw [List.mem_cons, ih, List.mem_cons]
        exact or_left_comm

theorem sound_empty : empty.Sound := fun _ h => absurd h List.not_mem_nil

theorem Sound.load (h : registry.Sound) (id : String) : (registry.load id).2.Sound := by
  unfold Registry.load
  intro other hother
  split at hother
  · exact h other (List.mem_of_mem_erase hother)
  · rename_i hnone
    rcases mem_insertId.mp hother with rfl | hother
    · exact hnone
    · exact h other hother

theorem Sound.get (h : registry.Sound) (name : String) : (registry.get name).2.Sound := by
  unfold Registry.get
  dsimp only
  split
  · exact h
  · split
    · exact h
    · exact h.load _

theorem Sound.recheck (h : registry.Sound) (name : String) : (registry.recheck name).2.Sound := by
  unfold Registry.recheck
  dsimp only
  split
  · exact h
  · exact Sound.load (fun id hid => h id (List.mem_of_mem_erase hid)) _

theorem Sound.forPath (h : registry.Sound) (path : String) : (registry.forPath path).2.Sound := by
  unfold Registry.forPath
  split
  · exact h.get _
  · exact h

theorem Sound.preload (h : registry.Sound) (names : List String) :
    (registry.preload names).Sound := by
  induction names generalizing registry with
  | nil => exact h
  | cons name names ih => exact ih (h.get name)

theorem Sound.id_notMem (h : registry.Sound) (l : Language) : l.id ∉ registry.failed := by
  intro hmem
  have hnone := h l.id hmem
  rw [ofId?_id] at hnone
  cases hnone

/-- A language can be had by its identifier. -/
theorem Sound.exists_get_id (h : registry.Sound) (l : Language) :
    ∃ found, (registry.get l.id).1 = .ok found := by
  have hnot : registry.failed.contains l.id = false :=
    eq_false_of_ne_true fun hmem => h.id_notMem l (List.contains_iff_mem.mp hmem)
  unfold Registry.get
  simp only [normalize_id, hnot]
  split
  · exact ⟨_, rfl⟩
  · simp only [Registry.load, ofId?_id]
    exact ⟨_, rfl⟩

theorem id_of_loaded? {l : Language} (h : registry.loaded? id = some l) : l.id = id := by
  simpa using List.find?_some h

theorem loaded?_id {l : Language} (h : l ∈ registry.loaded) : registry.loaded? l.id = some l := by
  cases hfind : registry.loaded? l.id with
  | none =>
    have hnone := List.find?_eq_none.mp hfind l h
    simp at hnone
  | some found => rw [id_injective (id_of_loaded? hfind)]

theorem mem_loaded_of_load {l : Language} (h : (registry.load id).1 = .ok l) :
    l ∈ (registry.load id).2.loaded := by
  unfold Registry.load at h ⊢
  cases hfound : ofId? id with
  | none =>
    rw [hfound] at h
    cases h
  | some found =>
    rw [hfound] at h
    cases h
    dsimp only
    split
    · exact List.contains_iff_mem.mp ‹_›
    · exact List.mem_cons_self

/-- A language that a name was found to stand for is found by its identifier too. -/
theorem get_id_of_get {l : Language} (h : (registry.get name).1 = .ok l) :
    ((registry.get name).2.get l.id).1 = .ok l := by
  have hloaded : l ∈ (registry.get name).2.loaded := by
    unfold Registry.get at h ⊢
    cases hfound : registry.loaded? (normalize name) with
    | some found =>
      simp only [hfound, Except.ok.injEq] at h ⊢
      exact h ▸ List.mem_of_find?_eq_some hfound
    | none =>
      simp only [hfound] at h ⊢
      split at h
      · cases h
      · rw [if_neg ‹_›]
        exact mem_loaded_of_load h
  rw [Registry.get, normalize_id, loaded?_id hloaded]

theorem id_of_get {l : Language} (h : (registry.get name).1 = .ok l) : l.id = normalize name := by
  unfold Registry.get at h
  dsimp only at h
  split at h
  · rename_i loaded hloaded
    cases h
    exact id_of_loaded? hloaded
  · split at h
    · cases h
    · unfold load at h
      split at h
      · rename_i bundled hbundled
        cases h
        exact ofId?_eq_some_iff.mp hbundled
      · cases h

theorem Sound.get_id (h : registry.Sound) (l : Language) : (registry.get l.id).1 = .ok l := by
  obtain ⟨found, hfound⟩ := h.exists_get_id l
  rw [hfound, id_injective ((id_of_get hfound).trans (normalize_id l))]

/-- A language that is found for a path is the one that the path shows. -/
theorem ofPath?_of_forPath {path : String} {found : Language}
    (h : (registry.forPath path).1 = .ok found) :
    ofPath? (Path.ofString path) = some found := by
  unfold forPath at h
  split at h
  · rename_i l hl
    rw [hl, id_injective ((id_of_get h).trans (normalize_id l))]
  · cases h

end Registry

end CodeAtlas.Language
