import CodeAtlas.Files.Access
import CodeAtlas.Proofs.Files.Place
import CodeAtlas.Proofs.Text.Utf8

/-!
# Files stay below the root of their project

A path is judged twice: by its steps before the file system is looked at, and by the place it
leads to.  This file shows that the two judgements leave no gap.  The file system is arbitrary:
links may dangle, lie in a circle or lead anywhere, and a root that was a directory when its
project was registered may be anything by now.

The invariant of following a path is `FileSystem.Canonical`: wherever the walk stands, what is
there is real, and so is every directory on the way.  Everything the second judgement needs is
read off it.
-/

namespace CodeAtlas

namespace FileSystem

/-- The place is real: its parts are names, there is something that is not a link, and every
place on the way there is a directory. -/
structure Canonical (fs : FileSystem) (place : Place) : Prop where
  names : place.Proper
  way : ∀ before after, place = before ++ after → after ≠ [] → fs.isDirectory before
  there : ∃ entry, fs.entry? place = some entry ∧ ∀ target, entry ≠ .link target

variable {fs : FileSystem} {links : Nat} {here place : Place} {steps : List Path.Step}

/-! ## Entries -/

theorem entryBelow?_of_append {items : List (RawText × Entry)} {before after : Place}
    {entry : Entry} (hafter : after ≠ []) (h : entryBelow? items (before ++ after) = some entry) :
    ∃ inner, entryBelow? items before = some (.directory inner) := by
  induction before generalizing items with
  | nil => exact ⟨items, rfl⟩
  | cons name before ih =>
    have hrest : before ++ after ≠ [] := by simp [hafter]
    rw [List.cons_append, entryBelow?.eq_3 _ _ _ (fun hnil => hrest hnil)] at h
    split at h
    · rename_i inner hlookup
      cases before with
      | nil => exact ⟨inner, hlookup⟩
      | cons next before =>
        obtain ⟨deeper, hdeeper⟩ := ih h
        exact ⟨deeper, by rw [entryBelow?, hlookup]; exact hdeeper; simp⟩
    · cases h

/-- Something is at a place only if everything on the way there is a directory. -/
theorem isDirectory_of_entry_append {before after : Place} {entry : Entry}
    (hafter : after ≠ []) (h : fs.entry? (before ++ after) = some entry) :
    fs.isDirectory before := by
  obtain ⟨inner, hinner⟩ := entryBelow?_of_append hafter h
  rw [isDirectory, entry?, hinner]

theorem isDirectory_iff : fs.isDirectory place ↔ ∃ items, fs.entry? place = some (.directory items) := by
  unfold isDirectory
  split
  · rename_i items h
    simp [h]
  · rename_i h
    simpa using fun items => h items

theorem file?_eq_some_iff {content : List UInt8} {modified : Nat} :
    fs.file? place = some (content, modified) ↔ fs.entry? place = some (.file content modified) := by
  unfold file?
  split
  · rename_i h
    simp [h]
  · rename_i h
    simpa using fun hfile => h _ _ hfile

/-! ## Walks -/

theorem canonical_of_entry {entry : Entry} (hnames : place.Proper)
    (h : fs.entry? place = some entry) (hlink : ∀ target, entry ≠ .link target) :
    fs.Canonical place where
  names := hnames
  way := by
    rintro before after rfl hafter
    exact isDirectory_of_entry_append hafter h
  there := ⟨entry, h, hlink⟩

/-- The root directory of the file system. -/
theorem canonical_nil : fs.Canonical [] :=
  canonical_of_entry (by simp [Place.Proper]) rfl (by simp)

theorem Canonical.parent (h : fs.Canonical place) : fs.Canonical place.dropLast := by
  rcases List.eq_nil_or_concat' place with rfl | ⟨before, last, rfl⟩
  · exact h
  · rw [List.dropLast_concat]
    obtain ⟨items, hitems⟩ := isDirectory_iff.mp (h.way before [last] rfl (by simp))
    exact canonical_of_entry (fun s hs => h.names s (by simp [hs])) hitems (by simp)

theorem Canonical.enter {s : RawText} {entry : Entry} (h : fs.Canonical here) (hs : Path.IsName s)
    (hentry : fs.entry? (here ++ [s]) = some entry) (hlink : ∀ target, entry ≠ .link target) :
    fs.Canonical (here ++ [s]) := by
  refine canonical_of_entry (Place.proper_append h.names ?_) hentry hlink
  intro t ht
  obtain rfl := List.mem_singleton.mp ht
  exact hs

/-- A walk from a real place ends at a real place.  A link puts the steps of its target before
the steps that are left, and those take names too. -/
theorem Canonical.follow (hhere : fs.Canonical here)
    (hsteps : ∀ s, .name s ∈ steps → Path.IsName s)
    (h : fs.follow links here steps = .ok place) : fs.Canonical place := by
  fun_induction fs.follow links here steps with
  | case1 here => cases h; exact hhere
  | case2 links here rest ih =>
    exact ih hhere.parent (fun s hs => hsteps s (by simp [hs])) h
  | case3 => cases h
  | case4 links here s rest items hentry ih =>
    refine ih (hhere.enter (hsteps s (by simp)) hentry (by simp)) ?_ h
    exact fun t ht => hsteps t (by simp [ht])
  | case5 links here s rest content modified hentry =>
    cases h
    exact hhere.enter (hsteps s (by simp)) hentry (by simp)
  | case6 => cases h
  | case7 => cases h
  | case8 here s rest target hentry links p ih =>
    refine ih ?_ ?_ h
    · split
      · exact canonical_nil
      · exact hhere
    · intro t ht
      rcases List.mem_append.mp ht with ht | ht
      · exact Path.isName_of_mem_steps ht
      · exact hsteps t (by simp [ht])

/-- A walk cannot go through a file. -/
theorem follow_through_file {content : List UInt8} {modified : Nat} (names : Place)
    (hnames : names ≠ []) (hsteps : steps ≠ [])
    (hfile : fs.entry? (here ++ names) = some (.file content modified)) :
    fs.follow links here (names.map .name ++ steps) = .error .notDirectory := by
  induction names generalizing here with
  | nil => exact absurd rfl hnames
  | cons s names ih =>
    rw [List.map_cons, List.cons_append, FileSystem.follow]
    cases names with
    | nil =>
      simp [hfile, hsteps]
    | cons next names =>
      rw [List.append_cons] at hfile
      obtain ⟨items, hitems⟩ := isDirectory_iff.mp
        (isDirectory_of_entry_append (by simp) hfile)
      rw [hitems]
      exact ih (by simp) hfile

/-- The path to a place is not written for a directory, so all it takes is the walk. -/
theorem locate_pathTo (fs : FileSystem) (place : Place) :
    fs.locate (pathTo place) = fs.follow linkLimit [] (place.map .name) := by
  simp only [locate, pathTo, Bool.not_true, Bool.false_and]
  cases hfollow : fs.follow linkLimit [] (place.map .name) with
  | error fault => simp [hfollow, bind, Except.bind]
  | ok found =>
    simp only [↓reduceIte, hfollow, bind, Except.bind, pure, Except.pure]
    cases fs.entry? found with
    | none => rfl
    | some entry => cases entry <;> rfl

end FileSystem

/-! ## The judgement on the steps -/

namespace Policy

variable {policy : Policy} {project : Project} {path : String} {relative : Place}

theorem excludes_eq_false_iff : policy.excludes relative = false ↔
    ∀ s ∈ relative, ∀ dir ∈ policy.excludedDirs, s ≠ RawText.ofString dir := by
  simp [excludes, isExcluded, RawText.text?_eq_some_iff]

/-- Either every extension is allowed, or the place has one and it is in the list up to the case
of its basic letters. -/
theorem allowsExtension_iff :
    policy.allowsExtension relative ↔ ∀ allowed, policy.allowedExtensions = some allowed →
      ∃ e : String, relative.extension? = some (RawText.ofString e) ∧
        ∃ a ∈ allowed, sameLetters a e := by
  have htext (e : String) : relative.extension?.bind RawText.text? = some e ↔
      relative.extension? = some (RawText.ofString e) := by
    cases relative.extension? <;> simp [RawText.text?_eq_some_iff]
  simp only [← htext]
  unfold allowsExtension
  cases policy.allowedExtensions with
  | none => simp
  | some allowed =>
    cases relative.extension?.bind RawText.text? with
    | none => simp
    | some e => simp

/-- What the steps of an accepted path say. -/
structure Accepted (policy : Policy) (project : Project) (path : String) (relative : Place) :
    Prop where
  leads : Path.resolve project.root (Path.ofString path) = project.root ++ relative
  nonempty : relative ≠ []
  names : relative.Proper
  visible : ∀ s ∈ relative, ∀ dir ∈ policy.excludedDirs, s ≠ RawText.ofString dir
  extension : ∀ allowed, policy.allowedExtensions = some allowed →
    ∃ e : String, relative.extension? = some (RawText.ofString e) ∧
      ∃ a ∈ allowed, sameLetters a e

theorem accepted_of_accept (h : policy.accept project path = .ok relative) :
    policy.Accepted project path relative := by
  unfold accept at h
  split at h
  · cases h
  · rename_i found hfound
    have hleads := Place.below?_eq_some_iff.mp hfound
    split at h
    · cases h
    · rename_i hnonempty
      split at h
      · cases h
      · rename_i hvisible
        split at h
        · cases h
        · rename_i hextension
          cases h
          exact {
            leads := hleads
            nonempty := by simpa using hnonempty
            names := Place.proper_of_resolve_eq hleads
            visible := excludes_eq_false_iff.mp (by simpa using hvisible)
            extension := allowsExtension_iff.mp (by simpa using hextension) }

theorem accept_of_outside
    (h : ¬ project.root <+: Path.resolve project.root (Path.ofString path)) :
    policy.accept project path = .error (escapes path) := by
  rw [accept, Place.below?_eq_none_iff.mpr h]

/-! ## The judgement on the place -/

variable {fs : FileSystem} {file : FileRef}

/-- Everything that happens before a file is handed out. -/
structure Resolved (policy : Policy) (fs : FileSystem) (project : Project) (path : String)
    (file : FileRef) : Prop where
  accepted : policy.accept project path = .ok file.relative
  located : fs.locate (FileSystem.pathTo (project.root ++ file.relative)) = .ok file.absolute
  below : project.root <+: file.absolute
  regular : ∃ content modified, fs.file? file.absolute = some (content, modified) ∧
    content.length = file.size
  fits : file.size ≤ policy.maxFileBytes
  owned : file.project = project.name

theorem resolved_of_resolve (h : policy.resolve fs project path = .ok file) :
    policy.Resolved fs project path file := by
  unfold resolve at h
  cases haccept : policy.accept project path with
  | error e => simp [haccept, bind, Except.bind] at h
  | ok relative =>
    simp only [haccept, bind, Except.bind] at h
    split at h
    · cases h
    · rename_i absolute hlocate
      split at h
      · cases h
      · rename_i hbelow
        split at h
        · cases h
        · rename_i content modified hfile
          split at h
          · cases h
          · rename_i hsize
            cases h
            exact {
              accepted := haccept
              located := hlocate
              below := by
                rw [Option.isNone_iff_eq_none, Place.below?_eq_none_iff] at hbelow
                exact Decidable.not_not.mp hbelow
              regular := ⟨content, modified, hfile, rfl⟩
              fits := Nat.le_of_not_gt hsize
              owned := rfl }

/-- The walk to a file below the root does not end at the root itself: if there were a file, it
would have stopped the walk. -/
theorem ne_root_of_follow {links : Nat} {absolute : Place} {content : List UInt8}
    {modified : Nat} (hrelative : relative ≠ [])
    (hfollow : fs.follow links [] ((project.root ++ relative).map .name) = .ok absolute)
    (hfile : fs.entry? absolute = some (.file content modified)) : absolute ≠ project.root := by
  rintro rfl
  by_cases hroot : project.root = []
  · simp [hroot, FileSystem.entry?, FileSystem.entryBelow?] at hfile
  · rw [List.map_append, FileSystem.follow_through_file project.root hroot
      (by simpa using hrelative) (by simpa using hfile)] at hfollow
    cases hfollow

/-- What is promised of a file that is handed out. -/
structure Contained (policy : Policy) (fs : FileSystem) (project : Project) (path : String)
    (file : FileRef) : Prop extends policy.Accepted project path file.relative where
  real : fs.Canonical file.absolute
  below : project.root <+: file.absolute
  strictlyBelow : file.absolute ≠ project.root
  regular : ∃ content modified, fs.file? file.absolute = some (content, modified) ∧
    content.length = file.size
  fits : file.size ≤ policy.maxFileBytes

theorem Resolved.contained (hroot : project.root.Proper)
    (h : policy.Resolved fs project path file) : policy.Contained fs project path file := by
  have accepted := accepted_of_accept h.accepted
  have hfollow := h.located
  rw [FileSystem.locate_pathTo] at hfollow
  have hnames : Place.Proper (project.root ++ file.relative) :=
    Place.proper_append hroot accepted.names
  refine { accepted with
    real := FileSystem.canonical_nil.follow (fun s hs => hnames s (by simpa using hs)) hfollow
    below := h.below
    strictlyBelow := ?_
    regular := h.regular
    fits := h.fits }
  obtain ⟨content, modified, hfile, -⟩ := h.regular
  exact ne_root_of_follow accepted.nonempty hfollow (FileSystem.file?_eq_some_iff.mp hfile)

/-- **Containment.**  A file that is handed out is a real file strictly below the root of its
project, it is no larger than allowed, and the place that was asked for is made of names, none of
which is excluded, and has an allowed extension.  A path whose steps leave the root is refused
whatever the file system holds, so the answer tells nothing about what is outside. -/
theorem resolve_contained (policy : Policy) (project : Project) (hroot : project.root.Proper)
    (path : String) :
    (∀ fs file, policy.resolve fs project path = .ok file →
      policy.Contained fs project path file) ∧
    (¬ project.root <+: Path.resolve project.root (Path.ofString path) →
      ∀ fs, policy.resolve fs project path =
        .error (.securityViolation path "path escapes project root")) := by
  constructor
  · intro fs file h
    exact (resolved_of_resolve h).contained hroot
  · intro houtside fs
    rw [resolve, accept_of_outside houtside]
    rfl

/-! ### A home with links

One link leads out of the home and back in, and one leads to a file outside of it. -/

def linkedHome : FileSystem where
  items := [
    ("home", .directory [
      ("lib", .directory [("a.py", .file [112, 97, 115, 115] 7)]),
      ("in.py", .link "lib/../../home/lib/a.py"),
      ("out.py", .link "/secret.py")]),
    ("secret.py", .file [49] 7)]

def home : Project where
  name := "home"
  root := ["home"]
  description := none
  registeredAt := ""

def homePolicy : Policy where
  maxFileBytes := 16
  excludedDirs := ["build"]
  allowedExtensions := some ["py"]

theorem proper_root_home : home.root.Proper := by
  intro s hs
  obtain rfl := List.mem_singleton.mp hs
  constructor <;> decide

/-- The walk is opened here because the walk recurses on the number of links left, which does not
reduce by itself. -/
theorem resolve_inner_link : homePolicy.resolve linkedHome home "lib/../in.py" = .ok {
    project := "home", relative := ["in.py"], absolute := ["home", "lib", "a.py"]
    size := 4, modified := some 7 } := by
  have haccept : homePolicy.accept home "lib/../in.py" = .ok ["in.py"] := by decide +kernel
  have htarget : Path.ofRaw "lib/../../home/lib/a.py" = {
      absolute := false
      steps := [.name "lib", .parent, .parent, .name "home", .name "lib", .name "a.py"] } := by
    decide +kernel
  have hfollow : linkedHome.follow FileSystem.linkLimit [] [.name "home", .name "in.py"] =
      .ok ["home", "lib", "a.py"] := by
    simp [FileSystem.follow, FileSystem.linkLimit, FileSystem.entry?, FileSystem.entryBelow?,
      linkedHome, htarget, List.lookup_cons]
  simp only [resolve, haccept, FileSystem.locate_pathTo, bind, Except.bind]
  simp [home, hfollow]
  rfl

theorem contained_of_inner_link :
    (∃ file, homePolicy.resolve linkedHome home "lib/../in.py" = .ok file ∧
      homePolicy.Contained linkedHome home "lib/../in.py" file) ∧
    ∀ fs, homePolicy.resolve fs home "lib/../../secret.py" =
      .error (.securityViolation "lib/../../secret.py" "path escapes project root") := by
  refine ⟨⟨_, resolve_inner_link, ?_⟩, ?_⟩
  · exact (resolve_contained homePolicy home proper_root_home "lib/../in.py").1 _ _
      resolve_inner_link
  · refine (resolve_contained homePolicy home proper_root_home "lib/../../secret.py").2 ?_
    decide +kernel

end Policy

end CodeAtlas
