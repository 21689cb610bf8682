import CodeAtlas.Proofs.Files.Containment
import CodeAtlas.Proofs.Files.Spelling

/-!
# What the policy permits and what is read

The policy's rules on names and extensions are put to the place that a path asks for, and the
octets come from the place where its links end.  Without links the two are the same.  In general
the policy permits the second one exactly if the file may also be asked for under its own name, as
far as that is text, so that is the only place at which a file can be read and the rules be broken.
-/

namespace CodeAtlas

namespace FileSystem

variable {fs : FileSystem} {links : Nat} {here place : Place}

/-- Neither the place nor any place on the way there is a link. -/
def Unlinked (fs : FileSystem) (place : Place) : Prop :=
  ∀ before after target, place = before ++ after → fs.entry? before ≠ some (.link target)

/-- A walk that meets no link ends where its names say. -/
theorem follow_of_unlinked (names : Place) (hunlinked : fs.Unlinked (here ++ names))
    (h : fs.follow links here (names.map .name) = .ok place) : place = here ++ names := by
  induction names generalizing here with
  | nil =>
    rw [List.map_nil, FileSystem.follow] at h
    cases h
    simp
  | cons s names ih =>
    rw [List.append_cons] at hunlinked
    rw [List.map_cons, FileSystem.follow] at h
    split at h
    · cases h
    · rw [ih hunlinked h]
      simp
    · split at h
      · rename_i hnames
        cases h
        simpa using hnames
      · cases h
    · rename_i target hlink
      exact absurd hlink (hunlinked (here ++ [s]) names target rfl)

/-- The names of a real place lead to it, whatever number of links may be followed. -/
theorem Canonical.follow_self (hplace : fs.Canonical place) (before after : Place)
    (h : place = before ++ after) : fs.follow links before (after.map .name) = .ok place := by
  induction after generalizing before with
  | nil => rw [List.map_nil, FileSystem.follow, h, List.append_nil]
  | cons s after ih =>
    rw [List.append_cons] at h
    rw [List.map_cons, FileSystem.follow]
    cases hafter : after with
    | nil =>
      obtain ⟨entry, hentry, hlink⟩ := hplace.there
      obtain rfl : place = before ++ [s] := by simpa [hafter] using h
      rw [hentry]
      cases entry with
      | file content modified => simp
      | directory items => simp [FileSystem.follow]
      | link target => exact absurd rfl (hlink target)
    | cons next rest =>
      obtain ⟨items, hitems⟩ := isDirectory_iff.mp
        (hplace.way (before ++ [s]) after h (by simp [hafter]))
      rw [hitems, ← hafter]
      exact ih (before ++ [s]) h

theorem Canonical.locate_pathTo_self (hplace : fs.Canonical place) :
    fs.locate (pathTo place) = .ok place := by
  rw [locate_pathTo]
  exact hplace.follow_self [] place rfl

end FileSystem

namespace Policy

variable {policy : Policy} {fs : FileSystem} {project : Project} {path text : String}
  {file again : FileRef} {relative place : Place}

/-- What the rules ask of a place below the root: no name of an excluded directory, and an
extension that is allowed. -/
structure Permits (policy : Policy) (relative : Place) : Prop where
  visible : ∀ s ∈ relative, ∀ dir ∈ policy.excludedDirs, s ≠ RawText.ofString dir
  extension : ∀ allowed, policy.allowedExtensions = some allowed →
    ∃ e : String, relative.extension? = some (RawText.ofString e) ∧
      ∃ a ∈ allowed, sameLetters a e

theorem permits_iff :
    policy.Permits relative ↔ policy.excludes relative = false ∧ policy.allowsExtension relative :=
  ⟨fun h => ⟨excludes_eq_false_iff.mpr h.visible, allowsExtension_iff.mpr h.extension⟩,
    fun h => ⟨excludes_eq_false_iff.mp h.1, allowsExtension_iff.mp h.2⟩⟩

theorem Accepted.permits (h : policy.Accepted project path relative) : policy.Permits relative :=
  ⟨h.visible, h.extension⟩

/-- A place that is written out is accepted exactly if the rules permit it. -/
theorem accept_spelled_iff (hplace : place.Proper) (hne : place ≠ [])
    (htext : place.spelled? = some text) :
    policy.accept project text = .ok place ↔ policy.Permits place := by
  constructor
  · exact fun h => (accepted_of_accept h).permits
  · intro h
    obtain ⟨hvisible, hextension⟩ := permits_iff.mp h
    rw [accept, Place.resolve_of_spelled? project.root hplace hne htext,
      Place.below?_eq_some_iff.mpr rfl]
    simp [hne, hvisible, hextension]

theorem resolve_of_resolved (h : policy.Resolved fs project path file) :
    ∃ modified, policy.resolve fs project path = .ok { file with modified } := by
  obtain ⟨content, modified, hfile, hsize⟩ := h.regular
  refine ⟨some modified, ?_⟩
  have hbelow : (project.root.below? file.absolute).isNone = false := by
    rw [Option.isNone_eq_false_iff, Option.isSome_iff_ne_none, ne_eq, Place.below?_eq_none_iff]
    exact fun hnot => hnot h.below
  have hfits : ¬ content.length > policy.maxFileBytes := by
    rw [hsize]
    exact Nat.not_lt.mpr h.fits
  unfold resolve
  simp only [h.accepted, h.located, hbelow, hfile, hfits, bind, Except.bind, pure, Except.pure]
  simp [h.owned, hsize]

/-- A file that was handed out can be asked for under its own name, if that is text, exactly if the
rules permit the place where it is. -/
theorem Contained.permits_iff_resolve (hfile : policy.Contained fs project path file)
    (hplace : file.absolute = project.root ++ place) (htext : place.spelled? = some text) :
    policy.Permits place ↔ ∃ again, policy.resolve fs project text = .ok again ∧
      again.relative = place ∧ again.absolute = file.absolute := by
  constructor
  · intro hpermits
    have hproper : place.Proper := fun s hs => hfile.real.names s (by simp [hplace, hs])
    have hne : place ≠ [] := fun hnil => hfile.strictlyBelow (by simp [hplace, hnil])
    have hresolved : policy.Resolved fs project text
        { file with relative := place, project := project.name } := {
      accepted := (accept_spelled_iff hproper hne htext).mpr hpermits
      located := by rw [← hplace]; exact hfile.real.locate_pathTo_self
      below := hfile.below
      regular := hfile.regular
      fits := hfile.fits
      owned := rfl }
    obtain ⟨modified, hresolve⟩ := resolve_of_resolved hresolved
    exact ⟨_, hresolve, rfl, rfl⟩
  · rintro ⟨again, hresolve, rfl, -⟩
    exact (accepted_of_accept (resolved_of_resolve hresolve).accepted).permits

theorem read_of_readBytes {octets : List UInt8} (h : policy.readBytes fs file = .ok octets) :
    fs.read file.absolute = .ok octets := by
  unfold readBytes at h
  split at h
  · cases h
  · rename_i content hcontent
    split at h
    · cases h
    · cases h
      exact hcontent

/-- **What is read and what is permitted.**  The octets that reading a path gives are those of a
file below the root.  The rules permit the place that was asked for.  They permit the place where
the file is exactly if the file may be asked for there too, as far as the names there are text, and
they do so whenever no link was met on the way. -/
theorem permits_read_iff (hroot : project.root.Proper)
    (hresolve : policy.resolve fs project path = .ok file) {octets : List UInt8}
    (hread : policy.readBytes fs file = .ok octets) :
    ∃ place, file.absolute = project.root ++ place ∧ fs.read file.absolute = .ok octets ∧
      policy.Permits file.relative ∧
      (∀ text, place.spelled? = some text →
        (policy.Permits place ↔ ∃ again, policy.resolve fs project text = .ok again ∧
          again.relative = place ∧ again.absolute = file.absolute)) ∧
      (fs.Unlinked (project.root ++ file.relative) → policy.Permits place) := by
  have hresolved := resolved_of_resolve hresolve
  have hfile := hresolved.contained hroot
  obtain ⟨place, hplace⟩ := hfile.below
  refine ⟨place, hplace.symm, read_of_readBytes hread, hfile.toAccepted.permits,
    fun _ => hfile.permits_iff_resolve hplace.symm, fun hunlinked => ?_⟩
  have hfollow := hresolved.located
  rw [FileSystem.locate_pathTo] at hfollow
  have habsolute :=
    FileSystem.follow_of_unlinked (project.root ++ file.relative) hunlinked hfollow
  obtain rfl : place = file.relative := by simpa [← hplace] using habsolute
  exact hfile.toAccepted.permits

/-- The link `in.py` leads to a place that is permitted. -/
theorem permits_read_inner_link : ∃ file octets,
    homePolicy.resolve linkedHome home "lib/../in.py" = .ok file ∧
    homePolicy.readBytes linkedHome file = .ok octets ∧
    ∃ place, file.absolute = home.root ++ place ∧
      linkedHome.read file.absolute = .ok octets ∧ homePolicy.Permits file.relative ∧
      (∀ text, place.spelled? = some text →
        (homePolicy.Permits place ↔ ∃ again,
          homePolicy.resolve linkedHome home text = .ok again ∧
            again.relative = place ∧ again.absolute = file.absolute)) ∧
      (linkedHome.Unlinked (home.root ++ file.relative) → homePolicy.Permits place) := by
  have hread : homePolicy.readBytes linkedHome {
      project := "home", relative := ["in.py"], absolute := ["home", "lib", "a.py"]
      size := 4, modified := some 7 } = .ok [112, 97, 115, 115] := rfl
  exact ⟨_, _, resolve_inner_link, hread,
    permits_read_iff proper_root_home resolve_inner_link hread⟩

/-- A home whose only way into an excluded directory is a link. -/
def lockedHome : FileSystem where
  items := [("home", .directory [
    ("build", .directory [("notes.txt", .file [49] 7)]),
    ("a.py", .link "build/notes.txt")])]

/-- The link is followed into the excluded directory, to a file whose extension is not allowed. -/
theorem read_behind_link : ∃ file octets,
    homePolicy.resolve lockedHome home "a.py" = .ok file ∧
    homePolicy.readBytes lockedHome file = .ok octets ∧
    file.absolute = home.root ++ (["build", "notes.txt"] : Place) ∧
    "build" ∈ homePolicy.excludedDirs ∧
    homePolicy.excludes ["build", "notes.txt"] = true ∧
    homePolicy.allowsExtension ["build", "notes.txt"] = false := by
  have haccept : homePolicy.accept home "a.py" = .ok ["a.py"] := by decide +kernel
  have htarget : Path.ofRaw "build/notes.txt" = {
      absolute := false, steps := [.name "build", .name "notes.txt"] } := by
    decide +kernel
  have hfollow : lockedHome.follow FileSystem.linkLimit [] [.name "home", .name "a.py"] =
      .ok ["home", "build", "notes.txt"] := by
    simp [FileSystem.follow, FileSystem.linkLimit, FileSystem.entry?, FileSystem.entryBelow?,
      lockedHome, htarget, List.lookup_cons]
  have hresolve : homePolicy.resolve lockedHome home "a.py" = .ok {
      project := "home", relative := ["a.py"], absolute := ["home", "build", "notes.txt"]
      size := 1, modified := some 7 } := by
    simp only [resolve, haccept, FileSystem.locate_pathTo, bind, Except.bind]
    simp [home, hfollow]
    rfl
  exact ⟨_, [49], hresolve, rfl, rfl, by decide, by decide +kernel, by decide +kernel⟩

end Policy

end CodeAtlas
