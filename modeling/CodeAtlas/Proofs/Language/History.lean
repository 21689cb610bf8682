import CodeAtlas.Proofs.Language.Registry

/-!
# What a registry of languages answers

A registry looks at what it remembers before it answers, and there are four ways to ask it for a
language.  This file shows that they agree at any time, and that none of them depends on what was
asked before: `Registry.Remembers` says that the registry remembers just the identifiers it was
asked for, each on its side, so what it remembers is never at odds with what it would find out anew.
-/

namespace CodeAtlas.Language

variable {id : String} {l : Language}

theorem ofId?_eq_none_iff : ofId? id = none ↔ ∀ l : Language, l.id ≠ id := by
  simp [Option.eq_none_iff_forall_ne_some, ofId?_eq_some_iff]

theorem mem_all (l : Language) : l ∈ all := by
  cases l <;> decide

namespace Registry

variable {registry : Registry} {ids : List String} {name : String}

/-! ## What is remembered -/

/-- The registry remembers the identifiers that it was asked for, as loaded if they are languages
and as failed if they are none. -/
structure Remembers (registry : Registry) (ids : List String) : Prop where
  loaded : ∀ l, l ∈ registry.loaded ↔ l.id ∈ ids
  failed : ∀ id, id ∈ registry.failed ↔ id ∈ ids ∧ ofId? id = none

namespace Remembers

theorem empty : Registry.empty.Remembers [] :=
  ⟨fun _ => by simp [Registry.empty], fun _ => by simp [Registry.empty]⟩

/-- To ask for what was asked for before changes nothing. -/
theorem again (h : registry.Remembers ids) (hid : id ∈ ids) : registry.Remembers (ids ++ [id]) := by
  have hids (other : String) : other ∈ ids ++ [id] ↔ other ∈ ids := by
    simp only [List.mem_append, List.mem_singleton]
    exact or_iff_left_of_imp fun heq => heq ▸ hid
  exact ⟨fun l => by rw [hids, h.loaded], fun other => by rw [hids, h.failed]⟩

theorem again_of_loaded? (h : registry.Remembers ids) (hfound : registry.loaded? id = some l) :
    registry.Remembers (ids ++ [id]) := by
  have hasked : l.id ∈ ids := (h.loaded l).mp (List.mem_of_find?_eq_some hfound)
  rw [id_of_loaded? hfound] at hasked
  exact h.again hasked

theorem sound (h : registry.Remembers ids) : registry.Sound :=
  fun id hid => ((h.failed id).mp hid).2

/-- What is remembered of the identifier itself does not matter, so that it may be forgotten before
it is loaded. -/
theorem load (hloaded : ∀ l, l ∈ registry.loaded ↔ l.id ∈ ids)
    (hfailed : ∀ other ≠ id, other ∈ registry.failed ↔ other ∈ ids ∧ ofId? other = none)
    (hsound : registry.Sound) : (registry.load id).2.Remembers (ids ++ [id]) := by
  unfold Registry.load
  cases hfound : ofId? id with
  | some found =>
    obtain rfl := ofId?_eq_some_iff.mp hfound
    have hnot : found.id ∉ registry.failed := hsound.id_notMem found
    refine ⟨fun l => ?_, fun other => ?_⟩
    · have hadded : l ∈ (if registry.loaded.contains found then registry.loaded
          else found :: registry.loaded) ↔ l = found ∨ l ∈ registry.loaded := by
        split
        · exact (or_iff_right_of_imp fun h => h ▸ List.contains_iff_mem.mp ‹_›).symm
        · exact List.mem_cons
      rw [hadded, hloaded, List.mem_append, List.mem_singleton, or_comm]
      exact or_congr_right ⟨fun h => h ▸ rfl, id_injective⟩
    · rw [List.erase_of_not_mem hnot]
      by_cases hother : other = found.id
      · subst hother
        simp [hnot, hfound]
      · simp [hfailed other hother, hother]
  | none =>
    refine ⟨fun l => ?_, fun other => ?_⟩
    · have hl : l.id ≠ id := ofId?_eq_none_iff.mp hfound l
      simp [hloaded, hl]
    · rw [mem_insertId, List.mem_append, List.mem_singleton]
      by_cases hother : other = id
      · simp [hother, hfound]
      · simp [hfailed other hother, hother]

theorem get (h : registry.Remembers ids) (name : String) :
    (registry.get name).2.Remembers (ids ++ [normalize name]) := by
  unfold Registry.get
  dsimp only
  cases hloaded : registry.loaded? (normalize name) with
  | some found => exact h.again_of_loaded? hloaded
  | none =>
    dsimp only
    split
    · exact h.again ((h.failed _).mp (List.contains_iff_mem.mp ‹_›)).1
    · exact load h.loaded (fun other _ => h.failed other) h.sound

theorem recheck (h : registry.Remembers ids) (name : String) :
    (registry.recheck name).2.Remembers (ids ++ [normalize name]) := by
  unfold Registry.recheck
  dsimp only
  cases hloaded : registry.loaded? (normalize name) with
  | some found => exact h.again_of_loaded? hloaded
  | none =>
    refine load h.loaded (fun other hother => ?_) fun id hid => h.sound id (List.mem_of_mem_erase hid)
    rw [List.mem_erase_of_ne hother, h.failed]

theorem preload (h : registry.Remembers ids) (names : List String) :
    (registry.preload names).Remembers (ids ++ names.map normalize) := by
  induction names generalizing registry ids with
  | nil => simpa [Registry.preload] using h
  | cons name names ih =>
    have hrest := ih (h.get name)
    rwa [List.append_assoc, List.singleton_append] at hrest

theorem forPath (h : registry.Remembers ids) (path : String) :
    (registry.forPath path).2.Remembers
      (ids ++ ((ofPath? (Path.ofString path)).map Language.id).toList) := by
  unfold Registry.forPath
  cases ofPath? (Path.ofString path) with
  | some l =>
    have hget := h.get l.id
    rwa [normalize_id] at hget
  | none => simpa using h

end Remembers

/-! ## What is answered -/

/-- What there is to answer about a name, with nothing remembered. -/
def answer (name : String) : Except Error Language :=
  (ofId? (normalize name)).elim (.error (.languageUnavailable (normalize name) reason)) .ok

theorem answer_eq_ok_iff : answer name = .ok l ↔ l.id = normalize name := by
  rw [← ofId?_eq_some_iff, answer]
  cases ofId? (normalize name) <;> simp

theorem load_normalize (registry : Registry) (name : String) :
    (registry.load (normalize name)).1 = answer name := by
  unfold load answer
  cases ofId? (normalize name) <;> rfl

theorem answer_of_loaded? (h : registry.loaded? (normalize name) = some l) : answer name = .ok l :=
  answer_eq_ok_iff.mpr (id_of_loaded? h)

namespace Remembers

theorem get_eq (h : registry.Remembers ids) (name : String) : (registry.get name).1 = answer name := by
  unfold Registry.get
  dsimp only
  cases hloaded : registry.loaded? (normalize name) with
  | some found => exact (answer_of_loaded? hloaded).symm
  | none =>
    dsimp only
    split
    · have hnone := ((h.failed _).mp (List.contains_iff_mem.mp ‹_›)).2
      rw [answer, hnone, Option.elim_none]
    · exact load_normalize registry name

end Remembers

theorem recheck_eq (registry : Registry) (name : String) :
    (registry.recheck name).1 = answer name := by
  unfold recheck
  dsimp only
  cases hloaded : registry.loaded? (normalize name) with
  | some found => exact (answer_of_loaded? hloaded).symm
  | none => exact load_normalize _ name

namespace Remembers

theorem isAvailable_eq (h : registry.Remembers ids) (name : String) :
    registry.isAvailable name = (answer name).isOk := by
  unfold Registry.isAvailable
  dsimp only
  cases hloaded : registry.loaded? (normalize name) with
  | some found =>
    rw [answer_of_loaded? hloaded]
    rfl
  | none =>
    rw [answer]
    cases hfound : ofId? (normalize name) with
    | none => simp [Except.isOk, Except.toBool]
    | some l =>
      have hnot : normalize name ∉ registry.failed :=
        ofId?_eq_some_iff.mp hfound ▸ h.sound.id_notMem l
      simp [hnot, Except.isOk, Except.toBool]

theorem list_eq (h : registry.Remembers ids) : registry.list = all.map Language.id := by
  refine List.filter_eq_self.mpr fun id hid => ?_
  obtain ⟨l, -, rfl⟩ := List.mem_map.mp hid
  simpa using h.sound.id_notMem l

end Remembers

/-! ## Any requests -/

/-- What may be asked of a registry. -/
inductive Request where
  | get (name : String)
  | recheck (name : String)
  | forPath (path : String)
  | preload (names : List String)
  | isAvailable (name : String)
  | list
  | status

/-- The registry after a request.  To look at what it remembers changes nothing. -/
def Request.apply (registry : Registry) : Request → Registry
  | get name => (registry.get name).2
  | recheck name => (registry.recheck name).2
  | forPath path => (registry.forPath path).2
  | preload names => registry.preload names
  | isAvailable _ | list | status => registry

/-- The identifiers that a request asks to be loaded. -/
def Request.asked : Request → List String
  | get name | recheck name => [normalize name]
  | forPath path => ((ofPath? (Path.ofString path)).map Language.id).toList
  | preload names => names.map normalize
  | isAvailable _ | list | status => []

/-- The registry after some requests, from the empty one on. -/
def after (requests : List Request) : Registry :=
  requests.foldl Request.apply empty

theorem Remembers.apply (h : registry.Remembers ids) (request : Request) :
    (request.apply registry).Remembers (ids ++ request.asked) := by
  cases request with
  | get name => exact h.get name
  | recheck name => exact h.recheck name
  | forPath path => exact h.forPath path
  | preload names => exact h.preload names
  | isAvailable | list | status => rwa [Request.asked, List.append_nil]

theorem remembers_after (requests : List Request) :
    (after requests).Remembers (requests.flatMap Request.asked) := by
  have hfold (registry : Registry) (ids : List String) (h : registry.Remembers ids) :
      (requests.foldl Request.apply registry).Remembers (ids ++ requests.flatMap Request.asked) := by
    induction requests generalizing registry ids with
    | nil => simpa using h
    | cons request rest ih =>
      have hrest := ih _ _ (h.apply request)
      rwa [List.append_assoc] at hrest
  exact hfold empty [] .empty

/-- **A registry answers as if it remembered nothing.**  After any requests:

* what is loaded are just the languages whose identifiers were asked for, what has failed are just
  the other identifiers that were asked for, and none is on both sides;
* to get a language, to check for it again and to ask if it is available all come to the same,
  which depends on the name alone: there is one exactly if the name stands for the identifier of a
  language, and then it is the language of this identifier;
* all languages are listed, in the order of their identifiers. -/
theorem answers_without_history (requests : List Request) :
    let registry := after requests
    let asked := requests.flatMap Request.asked
    (∀ l ∈ registry.loaded, l.id ∉ registry.failed) ∧
    (∀ l, l ∈ registry.loaded ↔ l.id ∈ asked) ∧
    (∀ id, id ∈ registry.failed ↔ id ∈ asked ∧ id ∉ all.map Language.id) ∧
    registry.loadedIds = (all.map Language.id).filter asked.contains ∧
    (∀ name,
      (registry.get name).1 = answer name ∧ (registry.recheck name).1 = answer name ∧
      registry.isAvailable name = (answer name).isOk ∧
      ((answer name).isOk = true ↔ normalize name ∈ all.map Language.id) ∧
      ∀ l, answer name = .ok l ↔ l.id = normalize name) ∧
    registry.list = all.map Language.id ∧ (all.map Language.id).Pairwise (· < ·) := by
  intro registry asked
  have h : registry.Remembers asked := remembers_after requests
  have hnone (id : String) : ofId? id = none ↔ id ∉ all.map Language.id := by
    simp [ofId?_eq_none_iff, mem_all]
  refine ⟨fun l _ => h.sound.id_notMem l, h.loaded, fun id => by rw [h.failed, hnone], ?shown,
    fun name => ⟨h.get_eq name, recheck_eq registry name, h.isAvailable_eq name, ?some,
      fun l => answer_eq_ok_iff⟩, h.list_eq, by decide⟩
  case shown =>
    rw [loadedIds, List.filter_map]
    refine congrArg _ (List.filter_congr fun l _ => ?_)
    simp [h.loaded]
  case some =>
    have hsome : (answer name).isOk = true ↔ ofId? (normalize name) ≠ none := by
      rw [answer]
      cases ofId? (normalize name) <;> simp [Except.isOk, Except.toBool]
    rw [hsome, ne_eq, hnone, Decidable.not_not]

end Registry

end CodeAtlas.Language
