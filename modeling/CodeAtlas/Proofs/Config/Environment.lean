import CodeAtlas.Config
import Mathlib.Data.List.Basic

/-!
# Settings from the environment

An environment variable names a setting if the setting's path stands behind a prefix, in any case
and perhaps with an underscore for its dot (`Names`).  Each setting takes texts of its own kind
(`Takes`): a number of a machine word, any text, any list, or a word that switches it on or off.  An
entry that names no setting, and one whose text is no number where a number is asked for, change
nothing.  So the environment comes to what its other entries come to (`applyEnvironment_valid`).

The switch is different.  Every text that does not switch it on is read as one that switches it off,
so an entry with a text of no meaning is not passed over but turns caching off
(`maybe_switches_off`).
-/

namespace CodeAtlas

/-! ## Numbers -/

namespace Number

/-- A number with one more digit. -/
def withDigit (n : Nat) (c : Char) : Nat :=
  10 * n + (c.toNat - '0'.toNat)

/-- The number that some digits make. -/
def ofDigits (cs : List Char) : Nat :=
  cs.foldl withDigit 0

/-- The digits of a text, behind a plus sign if there is one. -/
def digits : List Char → List Char
  | '+' :: cs => cs
  | cs => cs

/-- A text of digits, perhaps behind a plus sign, for a number that is a word. -/
structure IsCount (cs : List Char) : Prop where
  nonempty : digits cs ≠ []
  decimal : ∀ c ∈ digits cs, Text.Unicode.asciiDigit c = true
  word : ofDigits (digits cs) ≤ maxWord

instance (cs : List Char) : Decidable (IsCount cs) :=
  decidable_of_iff ((!(digits cs).isEmpty && (digits cs).all Text.Unicode.asciiDigit &&
    Nat.ble (ofDigits (digits cs)) maxWord) = true) <| by
      simp only [Bool.and_eq_true, Bool.not_eq_true', List.isEmpty_eq_false_iff, List.all_eq_true,
        Nat.ble_eq]
      exact ⟨fun h => ⟨h.1.1, h.1.2, h.2⟩, fun h => ⟨⟨h.1, h.2⟩, h.3⟩⟩

theorem le_foldl_withDigit (n : Nat) (cs : List Char) : n ≤ cs.foldl withDigit n := by
  induction cs generalizing n with
  | nil => exact Nat.le_refl n
  | cons c cs ih => exact Nat.le_trans (by rw [withDigit]; omega) (ih (withDigit n c))

theorem addDigit_eq (n : Nat) (c : Char) :
    addDigit n c =
      if Text.Unicode.asciiDigit c then
        if withDigit n c ≤ maxWord then .ok (withDigit n c) else .error .tooLarge
      else .error .invalidDigit := rfl

/-- Numbers only grow while their digits are read, so the last one tells if all are words. -/
theorem foldlM_addDigit_eq_ok_iff {n m : Nat} (hn : n ≤ maxWord) {cs : List Char} :
    cs.foldlM addDigit n = .ok m ↔ (∀ c ∈ cs, Text.Unicode.asciiDigit c = true) ∧
      cs.foldl withDigit n ≤ maxWord ∧ cs.foldl withDigit n = m := by
  induction cs generalizing n with
  | nil => simp [pure, Except.pure, hn]
  | cons c cs ih =>
    rw [List.foldlM_cons, List.forall_mem_cons, List.foldl_cons, addDigit_eq]
    by_cases hdigit : Text.Unicode.asciiDigit c = true
    · by_cases hword : withDigit n c ≤ maxWord
      · rw [if_pos hdigit, if_pos hword, and_iff_right hdigit]
        exact ih hword
      · have hlarge : ¬ cs.foldl withDigit (withDigit n c) ≤ maxWord :=
          fun hle => hword (Nat.le_trans (le_foldl_withDigit _ cs) hle)
        simp [hdigit, hword, hlarge, bind, Except.bind]
    · simp [hdigit, bind, Except.bind]

theorem digits_eq_self {cs : List Char} (h : ∀ rest, cs = '+' :: rest → False) :
    digits cs = cs := by
  unfold digits
  split
  next rest => exact (h rest rfl).elim
  next => rfl

theorem readUnsigned_eq_ok_iff {cs : List Char} {m : Nat} :
    readUnsigned cs = .ok m ↔ IsCount cs ∧ ofDigits (digits cs) = m := by
  have hall (cs : List Char) (hne : cs ≠ []) : cs.foldlM addDigit 0 = .ok m ↔
      cs ≠ [] ∧ (∀ c ∈ cs, Text.Unicode.asciiDigit c = true) ∧ ofDigits cs ≤ maxWord ∧
        ofDigits cs = m := by
    rw [foldlM_addDigit_eq_ok_iff (Nat.zero_le _), and_iff_right hne]
    rfl
  have hsplit : IsCount cs ∧ ofDigits (digits cs) = m ↔ digits cs ≠ [] ∧
      (∀ c ∈ digits cs, Text.Unicode.asciiDigit c = true) ∧ ofDigits (digits cs) ≤ maxWord ∧
        ofDigits (digits cs) = m :=
    ⟨fun h => ⟨h.1.1, h.1.2, h.1.3, h.2⟩, fun h => ⟨⟨h.1, h.2.1, h.2.2.1⟩, h.2.2.2⟩⟩
  rw [hsplit]
  unfold readUnsigned
  split
  next => simp [digits]
  next => simp [digits]
  next cs hne => exact hall cs (fun hnil => hne hnil)
  next hne _ hplus =>
    rw [digits_eq_self hplus]
    exact hall cs hne

end Number

namespace Config

/-! ## Settings -/

/-- What a setting takes. -/
inductive Kind where
  | switch
  | count
  | text
  | list
deriving DecidableEq, Repr

structure Setting where
  path : String
  kind : Kind
deriving DecidableEq, Repr

/-- The setting that turns caching on and off. -/
def cacheSwitch : Setting := ⟨"cache.enabled", .switch⟩

def settings : List Setting := [
  cacheSwitch,
  ⟨"cache.max_size_mb", .count⟩,
  ⟨"cache.ttl_seconds", .count⟩,
  ⟨"security.max_file_size_mb", .count⟩,
  ⟨"security.excluded_dirs", .list⟩,
  ⟨"security.allowed_extensions", .list⟩,
  ⟨"language.default_max_depth", .count⟩,
  ⟨"language.preferred_languages", .list⟩,
  ⟨"language.max_children", .count⟩,
  ⟨"log_level", .text⟩,
  ⟨"max_results_default", .count⟩]

/-- The words that mean off. -/
def offWords : List String := ["false", "no", "0", "n", "f", "off"]

/-- The texts that have a meaning for a setting. -/
def Takes (kind : Kind) (value : String) : Prop :=
  match kind with
  | .switch => Text.Unicode.lowercase value.strip ∈ Change.onWords ++ offWords
  | .count => Number.IsCount (Text.trim value.toList)
  | .text => True
  | .list => True

instance : (kind : Kind) → (value : String) → Decidable (Takes kind value)
  | .switch, _ => inferInstanceAs (Decidable (_ ∈ _))
  | .count, _ => inferInstanceAs (Decidable (Number.IsCount _))
  | .text, _ => inferInstanceAs (Decidable True)
  | .list, _ => inferInstanceAs (Decidable True)

/-! ## What a text is read as -/

theorem Change.readCount_eq_ok_iff {path value : String} {n : Nat} :
    Change.readCount path value = .ok n ↔ Takes .count value ∧
      Number.ofDigits (Number.digits (Text.trim value.toList)) = n := by
  rw [Change.readCount, Takes, ← Number.readUnsigned_eq_ok_iff]
  cases Number.readUnsigned (Text.trim value.toList) <;> simp

theorem Change.exists_readCount_map_iff {α : Type} (f : Nat → α) (path value : String) :
    (∃ a, (Change.readCount path value).map f = .ok a) ↔ Takes .count value := by
  constructor
  · rintro ⟨a, ha⟩
    cases h : Change.readCount path value with
    | error e => simp [h, Except.map] at ha
    | ok n => exact (Change.readCount_eq_ok_iff.mp h).1
  · intro h
    rw [Change.readCount_eq_ok_iff.mpr ⟨h, rfl⟩]
    exact ⟨_, rfl⟩

/-- A text is read for a setting if it has a meaning there.  The switch reads every text. -/
theorem Change.exists_read_iff {setting : Setting} (hsetting : setting ∈ settings)
    (value : String) :
    (∃ change, Change.read setting.path value = .ok change) ↔
      Takes setting.kind value ∨ setting = cacheSwitch := by
  have hcount {path : String} (f : Nat → Change)
      (hpath : (⟨path, .count⟩ : Setting) ≠ cacheSwitch) :
      (∃ change, (Change.readCount path value).map f = .ok change) ↔
        Takes .count value ∨ (⟨path, .count⟩ : Setting) = cacheSwitch :=
    (exists_readCount_map_iff f path value).trans (or_iff_left hpath).symm
  simp only [settings, List.mem_cons, List.not_mem_nil, or_false] at hsetting
  rcases hsetting with rfl | rfl | rfl | rfl | rfl | rfl | rfl | rfl | rfl | rfl | rfl
  · exact iff_of_true ⟨_, rfl⟩ (.inr rfl)
  all_goals first
    | exact hcount _ (by decide)
    | exact iff_of_true ⟨_, rfl⟩ (.inl trivial)

/-- There are no other settings. -/
theorem Change.read_of_notMem {path : String} (hpath : path ∉ settings.map Setting.path)
    (value : String) : Change.read path value = .error (.unknownSetting path) := by
  simp only [settings, cacheSwitch, List.map_cons, List.map_nil, List.mem_cons, List.not_mem_nil,
    or_false, not_or] at hpath
  unfold Change.read
  split <;> simp_all

/-! ## Names of settings -/

/-- What stands behind the prefix in the name of a variable, in small letters. -/
def key? (name : String) : Option String :=
  (Text.dropPrefix? variablePrefix.toList name.toList).map fun key =>
    Text.Unicode.lowercase (String.ofList key)

/-- A path as it is written where a dot cannot stand. -/
def underscored (path : String) : String :=
  String.ofList (path.toList.map fun c => if c = '.' then '_' else c)

/-- A variable names a setting by its path, with its dot or with an underscore. -/
def Names (name : String) (setting : Setting) : Prop :=
  key? name = some setting.path ∨ key? name = some (underscored setting.path)

instance (name : String) (setting : Setting) : Decidable (Names name setting) :=
  inferInstanceAs (Decidable (_ ∨ _))

/-- The path that is made of a key, whose first part may name a section. -/
def pathOfKey (key : List Char) : String :=
  match key.dropWhile (· ≠ '_') with
  | _ :: setting =>
    if sections.contains (key.takeWhile (· ≠ '_')) then
      String.ofList (key.takeWhile (· ≠ '_') ++ '.' :: setting)
    else String.ofList key
  | [] => String.ofList key

theorem pathOfVariable?_eq (name : String) :
    pathOfVariable? name = (Text.dropPrefix? variablePrefix.toList name.toList).bind fun key =>
      if String.ofList key ∈ otherVariables then none
      else some (pathOfKey (Text.Unicode.lowercase (String.ofList key)).toList) := by
  rw [pathOfVariable?]
  cases Text.dropPrefix? variablePrefix.toList name.toList with
  | none => rfl
  | some key =>
    by_cases hother : String.ofList key ∈ otherVariables
    · simp [hother, guard]
    · have hfree : (!otherVariables.contains (String.ofList key)) = true := by simpa using hother
      simp only [Option.bind_eq_bind, Option.bind_some, guard, hfree, hother, if_true, if_false,
        pathOfKey, Option.pure_def]
      cases (Text.Unicode.lowercase (String.ofList key)).toList.dropWhile (· ≠ '_') with
      | nil => rfl
      | cons _ setting => exact (apply_ite some _ _ _).symm

/-- A key is its own path, or it starts with a section, behind which the dot is put. -/
theorem pathOfKey_eq (key : List Char) :
    pathOfKey key = String.ofList key ∨ ∃ start ∈ sections, ∃ rest,
      key = start ++ '_' :: rest ∧ pathOfKey key = String.ofList (start ++ '.' :: rest) := by
  rw [pathOfKey]
  split
  next c rest hrest =>
    split
    next hstart =>
      obtain rfl : c = '_' := by
        have hhead := List.head?_dropWhile_not (· ≠ '_') key
        rw [hrest, List.head?_cons] at hhead
        simpa using hhead
      refine .inr ⟨_, List.contains_iff_mem.mp hstart, rest, ?_, rfl⟩
      rw [← hrest, List.takeWhile_append_dropWhile]
    next => exact .inl rfl
  next => exact .inl rfl

/-- A path that has one dot, behind a name without any, is written with an underscore there. -/
theorem underscored_ofList {start rest : List Char} (hstart : '.' ∉ start) (hrest : '.' ∉ rest) :
    underscored (String.ofList (start ++ '.' :: rest)) = String.ofList (start ++ '_' :: rest) := by
  have hkept {cs : List Char} (h : '.' ∉ cs) :
      (cs.map fun c => if c = '.' then '_' else c) = cs := by
    refine (List.map_congr_left fun c hc => if_neg ?_).trans cs.map_id
    rintro rfl
    exact h hc
  simp [underscored, hkept hstart, hkept hrest]

theorem pathOfKey_eq_path_iff {setting : Setting} (hsetting : setting ∈ settings)
    (key : String) :
    pathOfKey key.toList = setting.path ↔ key = setting.path ∨ key = underscored setting.path := by
  have hhere : ∀ s ∈ settings, pathOfKey s.path.toList = s.path ∧
      pathOfKey (underscored s.path).toList = s.path := by decide +kernel
  have hdots : ∀ s ∈ settings, s.path.toList.count '.' ≤ 1 := by decide +kernel
  have hsections : ∀ start ∈ sections, '.' ∉ start := by decide +kernel
  constructor
  · intro h
    rcases pathOfKey_eq key.toList with hsame | ⟨start, hstart, rest, hkey, hpath⟩
    · rw [hsame, String.ofList_toList] at h
      exact .inl h
    · have hrest : '.' ∉ rest := by
        have hcount := hdots setting hsetting
        rw [← h, hpath, String.toList_ofList, List.count_append, List.count_cons_self] at hcount
        exact List.count_eq_zero.mp (by omega)
      refine .inr ?_
      rw [← h, hpath, underscored_ofList (hsections start hstart) hrest, ← hkey,
        String.ofList_toList]
  · rintro (rfl | rfl)
    · exact (hhere setting hsetting).1
    · exact (hhere setting hsetting).2

theorem pathOfVariable?_eq_path_iff {setting : Setting} (hsetting : setting ∈ settings)
    (name : String) : pathOfVariable? name = some setting.path ↔ Names name setting := by
  have hothers : ∀ other ∈ otherVariables, ∀ s ∈ settings,
      pathOfKey (Text.Unicode.lowercase other).toList ≠ s.path := by decide +kernel
  rw [pathOfVariable?_eq, Names, key?]
  cases Text.dropPrefix? variablePrefix.toList name.toList with
  | none => simp
  | some key =>
    rw [Option.bind_some, Option.map_some, Option.some_inj, Option.some_inj,
      ← pathOfKey_eq_path_iff hsetting]
    by_cases hother : String.ofList key ∈ otherVariables
    · simp [hother, hothers _ hother _ hsetting]
    · rw [if_neg hother, Option.some_inj]

/-! ## Single entries -/

variable {config : Config} {name value : String} {setting : Setting}

/-- An entry counts if it gives a setting a text with a meaning there. -/
def Valid (entry : String × String) : Prop :=
  ∃ setting ∈ settings, Names entry.1 setting ∧ Takes setting.kind entry.2

instance (entry : String × String) : Decidable (Valid entry) :=
  List.decidableBEx _ settings

theorem applyVariable_of_names (hsetting : setting ∈ settings) (h : Names name setting) :
    config.applyVariable name value = ((assign setting.path value).run config).2 := by
  rw [applyVariable, (pathOfVariable?_eq_path_iff hsetting name).mpr h]

/-- A name of no setting is passed over. -/
theorem applyVariable_of_unnamed (h : ∀ setting ∈ settings, ¬ Names name setting) :
    config.applyVariable name value = config := by
  rw [applyVariable]
  cases hpath : pathOfVariable? name with
  | none => rfl
  | some path =>
    have hmem : path ∉ settings.map Setting.path := by
      intro hmem
      obtain ⟨setting, hsetting, rfl⟩ := List.mem_map.mp hmem
      exact h setting hsetting ((pathOfVariable?_eq_path_iff hsetting name).mp hpath)
    simp only [run_assign, Change.read_of_notMem hmem]

/-- A text with a meaning is read as a change, which is made. -/
theorem applyVariable_of_valid (h : Valid (name, value)) :
    ∃ setting ∈ settings, Names name setting ∧ ∃ change,
      Change.read setting.path value = .ok change ∧
        config.applyVariable name value = change.apply config := by
  obtain ⟨setting, hsetting, hname, hvalue⟩ := h
  obtain ⟨change, hchange⟩ := (Change.exists_read_iff hsetting value).mpr (.inl hvalue)
  refine ⟨setting, hsetting, hname, change, hchange, ?_⟩
  rw [applyVariable_of_names hsetting hname, run_assign, hchange]

/-- A text without a meaning is passed over by every setting but the switch. -/
theorem applyVariable_of_not_takes (hsetting : setting ∈ settings) (hname : Names name setting)
    (hvalue : ¬ Takes setting.kind value) (hother : setting ≠ cacheSwitch) :
    config.applyVariable name value = config := by
  have hread := mt (Change.exists_read_iff hsetting value).mp (not_or.mpr ⟨hvalue, hother⟩)
  rw [applyVariable_of_names hsetting hname, run_assign]
  cases h : Change.read setting.path value with
  | error e => rfl
  | ok change => exact absurd ⟨change, h⟩ hread

/-- The switch is turned off by a text without a meaning. -/
theorem applyVariable_switch (hname : Names name cacheSwitch) (hvalue : ¬ Takes .switch value) :
    config.applyVariable name value = { config with cache.enabled := false } := by
  have hoff : Change.readSwitch value = false := by
    rw [Change.readSwitch, ← Bool.not_eq_true, List.contains_iff_mem]
    exact fun hon => hvalue (List.mem_append_left _ hon)
  have hread : Change.read cacheSwitch.path value = .ok (.cacheEnabled false) := by
    rw [← hoff]
    rfl
  rw [applyVariable_of_names List.mem_cons_self hname, run_assign, hread]
  rfl

theorem applyVariable_of_not_valid (h : ¬ Valid (name, value)) :
    config.applyVariable name value =
      if Names name cacheSwitch then { config with cache.enabled := false } else config := by
  have hinvalid (setting : Setting) (hsetting : setting ∈ settings) (hname : Names name setting) :
      ¬ Takes setting.kind value := fun hvalue => h ⟨setting, hsetting, hname, hvalue⟩
  split
  next hname => exact applyVariable_switch hname (hinvalid _ List.mem_cons_self hname)
  next hswitch =>
    by_cases hnamed : ∃ setting ∈ settings, Names name setting
    · obtain ⟨setting, hsetting, hname⟩ := hnamed
      have hother : setting ≠ cacheSwitch := by
        rintro rfl
        exact hswitch hname
      exact applyVariable_of_not_takes hsetting hname (hinvalid _ hsetting hname) hother
    · exact applyVariable_of_unnamed fun setting hsetting hname =>
        hnamed ⟨setting, hsetting, hname⟩

/-! ## Whole environments -/

/-- Entries that change nothing can be left out. -/
theorem applyEnvironment_filter (config : Config) {vars : List (String × String)}
    {p : String × String → Bool} (h : ∀ entry ∈ vars, p entry = false →
      ∀ config : Config, config.applyVariable entry.1 entry.2 = config) :
    config.applyEnvironment vars = config.applyEnvironment (vars.filter p) := by
  rw [applyEnvironment, applyEnvironment, List.foldl_filter]
  refine List.foldl_ext _ _ _ fun config entry hentry => ?_
  cases hp : p entry with
  | true => rfl
  | false => exact h entry hentry hp config

/-- **The environment comes to what its valid entries come to**, as long as no entry has a text
without a meaning for the switch of the cache.  A valid entry makes the change that its text is read
as for the setting it names.  Every other entry leaves the configuration as it is, but for one that
names the switch, which turns caching off. -/
theorem applyEnvironment_valid (config : Config) (vars : List (String × String)) :
    ((∀ entry ∈ vars, Names entry.1 cacheSwitch → Takes .switch entry.2) →
      config.applyEnvironment vars = config.applyEnvironment (vars.filter fun e => Valid e)) ∧
    config.applyEnvironment vars =
      config.applyEnvironment (vars.filter fun e => Valid e ∨ Names e.1 cacheSwitch) ∧
    ∀ name value,
      (Valid (name, value) → ∃ setting ∈ settings, Names name setting ∧ ∃ change,
        Change.read setting.path value = .ok change ∧
          config.applyVariable name value = change.apply config) ∧
      (¬ Valid (name, value) → config.applyVariable name value =
        if Names name cacheSwitch then { config with cache.enabled := false } else config) := by
  refine ⟨fun hswitch => ?_, ?_,
    fun name value => ⟨applyVariable_of_valid, applyVariable_of_not_valid⟩⟩
  · refine applyEnvironment_filter config fun entry hentry hp config => ?_
    have hvalid : ¬ Valid entry := of_decide_eq_false hp
    have hunnamed : ¬ Names entry.1 cacheSwitch := fun hname =>
      hvalid ⟨cacheSwitch, List.mem_cons_self, hname, hswitch entry hentry hname⟩
    rw [applyVariable_of_not_valid hvalid, if_neg hunnamed]
  · refine applyEnvironment_filter config fun entry _ hp config => ?_
    obtain ⟨hvalid, hunnamed⟩ := not_or.mp (of_decide_eq_false hp)
    rw [applyVariable_of_not_valid hvalid, if_neg hunnamed]

/-- A word that says neither on nor off turns caching off. -/
theorem maybe_switches_off :
    ¬ Valid ("ARBOR_CACHE_ENABLED", "maybe") ∧
      ({} : Config).applyEnvironment [("ARBOR_CACHE_ENABLED", "maybe")] =
        { cache.enabled := false } ∧
      ({} : Config).applyEnvironment
        ([("ARBOR_CACHE_ENABLED", "maybe")].filter fun e => Valid e) = {} := by
  decide +kernel

end Config

end CodeAtlas
