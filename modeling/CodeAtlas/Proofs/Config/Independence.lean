import CodeAtlas.Proofs.Config.Environment
import Mathlib.Data.List.Pairwise

/-!
# Settings do not depend on each other

A configuration is the values of its settings and nothing else (`value?_injective`).  To make a change
is to replace one of them by a value that the change has with it (`value?_apply`), and to fail is to
leave them all as they are, so an edit is the same at every configuration (`assign_cases`).

For an environment this comes to the law that the last entry wins: the value of a setting afterwards
is the one that the last entry gives which gives it any, or else the one from before
(`value?_applyEnvironment`).  Applying the environment again gives the same values again.  Entries for
different settings change places freely, and the order of all entries does not matter if no two are
for the same setting (`updates_independent`).
-/

namespace CodeAtlas.Config

/-! ## Values of settings -/

/-- What a setting holds. -/
inductive Value where
  | switch (on : Bool)
  | count (n : Nat)
  | text (s : String)
  | list (names : List String)
  /-- There may be no list at all. -/
  | choice (names : Option (List String))
deriving DecidableEq, Repr

/-- What each setting holds in a configuration. -/
def fields : List (String × (Config → Value)) := [
  ("cache.enabled", fun c => .switch c.cache.enabled),
  ("cache.max_size_mb", fun c => .count c.cache.maxSizeMb),
  ("cache.ttl_seconds", fun c => .count c.cache.ttlSeconds),
  ("security.max_file_size_mb", fun c => .count c.security.maxFileSizeMb),
  ("security.excluded_dirs", fun c => .list c.security.excludedDirs),
  ("security.allowed_extensions", fun c => .choice c.security.allowedExtensions),
  ("language.default_max_depth", fun c => .count c.language.defaultMaxDepth),
  ("language.preferred_languages", fun c => .list c.language.preferred),
  ("language.max_children", fun c => .count c.language.maxChildren),
  ("log_level", fun c => .text c.logLevel),
  ("max_results_default", fun c => .count c.maxResultsDefault)]

/-- The value of the setting at a path. -/
def value? (config : Config) (path : String) : Option Value :=
  (fields.lookup path).map fun read => read config

theorem value?_of_mem (config : Config) {f : String × (Config → Value)} (h : f ∈ fields) :
    config.value? f.1 = some (f.2 config) := by
  have hlookup : ∀ f ∈ fields, fields.lookup f.1 = some f.2 := by
    simp [fields, List.lookup_cons]
  rw [value?, hlookup f h]
  rfl

theorem value?_of_notMem (config : Config) {path : String} (h : path ∉ fields.map Prod.fst) :
    config.value? path = none := by
  have hlookup : fields.lookup path = none :=
    List.lookup_eq_none_iff.mpr fun f hf => bne_iff_ne.mpr fun heq =>
      h (heq ▸ List.mem_map_of_mem hf)
  rw [value?, hlookup]
  rfl

theorem value?_injective : Function.Injective value? := by
  intro a b h
  have hfields : ∀ f ∈ fields, f.2 a = f.2 b := by
    intro f hf
    have hvalue := congrFun h f.1
    rw [value?_of_mem a hf, value?_of_mem b hf] at hvalue
    exact Option.some.inj hvalue
  obtain ⟨⟨_, _, _⟩, ⟨_, _, _⟩, ⟨_, _, _⟩, _, _⟩ := a
  obtain ⟨⟨_, _, _⟩, ⟨_, _, _⟩, ⟨_, _, _⟩, _, _⟩ := b
  simpa [fields, and_assoc] using hfields

/-! ## Changes -/

namespace Change

/-- The path of the setting that is changed. -/
def path : Change → String
  | cacheEnabled _ => "cache.enabled"
  | cacheMaxSizeMb _ => "cache.max_size_mb"
  | cacheTtlSeconds _ => "cache.ttl_seconds"
  | maxFileSizeMb _ => "security.max_file_size_mb"
  | excludedDirs _ => "security.excluded_dirs"
  | allowedExtensions _ => "security.allowed_extensions"
  | defaultMaxDepth _ => "language.default_max_depth"
  | preferredLanguages _ => "language.preferred_languages"
  | maxChildren _ => "language.max_children"
  | logLevel _ => "log_level"
  | maxResultsDefault _ => "max_results_default"

/-- The value that the setting takes. -/
def value : Change → Value
  | cacheEnabled on => .switch on
  | cacheMaxSizeMb n => .count n
  | cacheTtlSeconds n => .count n
  | maxFileSizeMb n => .count n
  | excludedDirs names => .list names
  | allowedExtensions names => .choice (if names.isEmpty then none else some names)
  | defaultMaxDepth n => .count n
  | preferredLanguages ids => .list ids
  | maxChildren n => .count n
  | logLevel level => .text level
  | maxResultsDefault n => .count n

theorem path_mem (change : Change) : change.path ∈ fields.map Prod.fst := by
  cases change <;> simp [fields, path]

theorem exists_of_readCount {path value : String} {kind : Nat → Change} {change : Change}
    (h : (readCount path value).map kind = .ok change) : ∃ n, change = kind n := by
  cases hread : readCount path value with
  | error e =>
    rw [hread] at h
    cases h
  | ok n =>
    rw [hread] at h
    cases h
    exact ⟨n, rfl⟩

/-- The change that is read for a path is one of the setting there. -/
theorem path_of_read {path value : String} {change : Change}
    (h : Change.read path value = .ok change) : change.path = path := by
  unfold Change.read at h
  split at h
  case h_1 | h_5 | h_6 | h_8 | h_10 =>
    cases h
    rfl
  case h_2 | h_3 | h_4 | h_7 | h_9 | h_11 =>
    obtain ⟨n, rfl⟩ := exists_of_readCount h
    rfl
  case h_12 => cases h

end Change

/-- A change replaces the value of its setting and leaves all others as they are. -/
theorem value?_apply (change : Change) (config : Config) (path : String) :
    (change.apply config).value? path =
      if path = change.path then some change.value else config.value? path := by
  have hfields : ∀ f ∈ fields, f.2 (change.apply config) =
      if f.1 = change.path then change.value else f.2 config := by
    cases change <;> simp [fields, Change.apply, Change.path, Change.value]
  by_cases hpath : path ∈ fields.map Prod.fst
  · obtain ⟨f, hf, rfl⟩ := List.mem_map.mp hpath
    rw [value?_of_mem _ hf, value?_of_mem _ hf, hfields f hf, apply_ite some]
  · have hother : path ≠ change.path := fun heq => hpath (heq ▸ change.path_mem)
    rw [value?_of_notMem _ hpath, value?_of_notMem _ hpath, if_neg hother]

/-- An edit fails at every configuration and leaves it as it is, or it succeeds at every configuration
and gives one setting the same value everywhere. -/
theorem assign_cases (path value : String) :
    (∃ e, ∀ config, (assign path value).run config = (.error e, config)) ∨
      ∃ v, ∀ config, ∃ left, (assign path value).run config = (.ok (), left) ∧
        ∀ other, left.value? other = if other = path then some v else config.value? other := by
  cases hread : Change.read path value with
  | error e =>
    refine .inl ⟨e, fun config => ?_⟩
    rw [run_assign, hread]
  | ok change =>
    refine .inr ⟨change.value, fun config => ⟨change.apply config, ?_, fun other => ?_⟩⟩
    · rw [run_assign, hread]
    · rw [value?_apply, Change.path_of_read hread]

/-! ## Entries of an environment -/

/-- The value that an entry gives to the setting at a path, if it gives it any. -/
def given (path : String) (entry : String × String) : Option Value :=
  if pathOfVariable? entry.1 = some path then
    (Change.read path entry.2).toOption.map Change.value
  else none

theorem value?_applyVariable (config : Config) (name value path : String) :
    (config.applyVariable name value).value? path =
      (given path (name, value)).or (config.value? path) := by
  rw [applyVariable, given]
  cases hname : pathOfVariable? name with
  | none => rfl
  | some named =>
    simp only [run_assign]
    by_cases hpath : named = path
    · subst hpath
      rw [if_pos rfl]
      cases hread : Change.read named value with
      | error e => rfl
      | ok change =>
        simp only
        rw [value?_apply, if_pos (Change.path_of_read hread).symm]
        rfl
    · rw [if_neg fun heq => hpath (Option.some.inj heq)]
      cases hread : Change.read named value with
      | error e => rfl
      | ok change =>
        simp only
        rw [value?_apply, Change.path_of_read hread, if_neg (Ne.symm hpath)]
        rfl

/-- The last entry wins. -/
theorem value?_applyEnvironment (config : Config) (vars : List (String × String))
    (path : String) :
    (config.applyEnvironment vars).value? path =
      (vars.reverse.findSome? (given path)).or (config.value? path) := by
  induction vars generalizing config with
  | nil => rfl
  | cons entry vars ih =>
    rw [List.reverse_cons, List.findSome?_append, Option.or_assoc,
      show config.applyEnvironment (entry :: vars) =
        (config.applyVariable entry.1 entry.2).applyEnvironment vars from rfl,
      ih, value?_applyVariable]
    cases hgiven : given path entry <;> simp [hgiven]

/-- Both entries are for the same setting. -/
def SameSetting (a b : String × String) : Prop :=
  ∃ setting ∈ settings, Names a.1 setting ∧ Names b.1 setting

instance (a b : String × String) : Decidable (SameSetting a b) :=
  List.decidableBEx _ settings

theorem of_given {path : String} {entry : String × String} {v : Value}
    (h : given path entry = some v) :
    path ∈ settings.map Setting.path ∧ pathOfVariable? entry.1 = some path := by
  rw [given] at h
  split at h
  next hname =>
    refine ⟨Decidable.byContradiction fun hother => ?_, hname⟩
    rw [Change.read_of_notMem hother] at h
    cases h
  next => cases h

/-- It does not matter which of two entries is applied first. -/
def Interchangeable (a b : String × String) : Prop :=
  ∀ config : Config, (config.applyVariable a.1 a.2).applyVariable b.1 b.2 =
    (config.applyVariable b.1 b.2).applyVariable a.1 a.2

theorem Interchangeable.refl (a : String × String) : Interchangeable a a := fun _ => rfl

instance : Std.Symm Interchangeable := ⟨fun _ _ h config => (h config).symm⟩

/-- Entries for different settings may change places. -/
theorem interchangeable_of_not_sameSetting {a b : String × String} (h : ¬ SameSetting a b) :
    Interchangeable a b := by
  refine fun config => value?_injective (funext fun path => ?_)
  simp only [value?_applyVariable]
  cases ha : given path a with
  | none => rfl
  | some v =>
    cases hb : given path b with
    | none => rfl
    | some w =>
      obtain ⟨hmem, hname⟩ := of_given ha
      obtain ⟨-, hname'⟩ := of_given hb
      obtain ⟨setting, hsetting, rfl⟩ := List.mem_map.mp hmem
      exact absurd ⟨setting, hsetting, (pathOfVariable?_eq_path_iff hsetting _).mp hname,
        (pathOfVariable?_eq_path_iff hsetting _).mp hname'⟩ h

/-! ## Whole environments -/

/-- **Settings are changed one at a time and independently.**  A configuration is the values of its
settings.  For every path and text, to set it fails and leaves every configuration as it is, or gives
the one setting at the path a value that does not depend on the configuration.  So the entries of an
environment can be applied in any order if no two of them are for the same setting, and applied twice
they give what they give when applied once. -/
theorem updates_independent :
    Function.Injective value? ∧
    (∀ path value,
      (∃ e, ∀ config, (assign path value).run config = (.error e, config)) ∨
      ∃ v, ∀ config, ∃ left, (assign path value).run config = (.ok (), left) ∧
        ∀ other, left.value? other = if other = path then some v else config.value? other) ∧
    ∀ vars : List (String × String),
      ((vars.Pairwise fun a b => ¬ SameSetting a b) → ∀ vars', vars.Perm vars' →
        ∀ config : Config, config.applyEnvironment vars = config.applyEnvironment vars') ∧
      ∀ config : Config,
        (config.applyEnvironment vars).applyEnvironment vars = config.applyEnvironment vars := by
  refine ⟨value?_injective, assign_cases, fun vars => ⟨fun hvars vars' hperm config => ?_,
    fun config => ?_⟩⟩
  · have hpairwise : vars.Pairwise Interchangeable := hvars.imp interchangeable_of_not_sameSetting
    have hall := hpairwise.forall_of_forall fun a _ => Interchangeable.refl a
    exact hperm.foldl_eq' (fun a ha b hb config => hall ha hb config) config
  · refine value?_injective (funext fun path => ?_)
    rw [value?_applyEnvironment, value?_applyEnvironment, ← Option.or_assoc, Option.or_self]

/-- Two entries for numbers, one for a text, one whose text is no number and one for no setting. -/
def someEntries : List (String × String) := [
  ("ARBOR_CACHE_MAX_SIZE_MB", "42"),
  ("ARBOR_LANGUAGE_DEFAULT_MAX_DEPTH", "9"),
  ("ARBOR_LOG_LEVEL", "warn"),
  ("ARBOR_SECURITY_MAX_FILE_SIZE_MB", "nan"),
  ("OTHER_CACHE_MAX_SIZE_MB", "1")]

theorem updates_independent_five :
    (someEntries.Pairwise fun a b => ¬ SameSetting a b) ∧
    ({} : Config).applyEnvironment someEntries.reverse =
      { cache.maxSizeMb := 42, language.defaultMaxDepth := 9, logLevel := "WARN" } ∧
    (({} : Config).applyEnvironment someEntries).applyEnvironment someEntries =
      ({} : Config).applyEnvironment someEntries := by
  have hdistinct : someEntries.Pairwise fun a b => ¬ SameSetting a b := by decide +kernel
  obtain ⟨-, -, hvars⟩ := updates_independent
  obtain ⟨horder, htwice⟩ := hvars someEntries
  refine ⟨hdistinct, ?_, htwice {}⟩
  rw [← horder hdistinct someEntries.reverse someEntries.reverse_perm.symm {}]
  decide +kernel

end CodeAtlas.Config
