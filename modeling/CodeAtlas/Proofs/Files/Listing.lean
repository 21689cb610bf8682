import CodeAtlas.Files.Listing
import CodeAtlas.Proofs.Files.Permission
import Mathlib.Data.List.Nodup

/-!
# Listed files can be read back

A list of files shows each file by a text.  This file shows that the file can be had again for the
text of its place, unless it is too large: the rules that the list was made by are those that the
path is judged by, and since the list follows no links, the place is the one that the path leads to.

The text in the list is the one for the place as long as every name on the way is text without a
backslash.  Otherwise it is the text of another place, and what is found there, if there is anything,
is another file.

The walk through the tree carries `Listing.Finds`: what is found is a file, it is below where the
walk started, and it is found once.
-/

namespace CodeAtlas

namespace FileSystem

variable {fs : FileSystem} {here : Place}

/-- A file system as there can be one: the items of a directory have names, and no two the same. -/
structure Regular (fs : FileSystem) : Prop where
  names : ∀ place items, fs.entry? place = some (.directory items) →
    ∀ item ∈ items, Path.IsName item.1
  distinct : ∀ place items, fs.entry? place = some (.directory items) →
    (items.map Prod.fst).Nodup

theorem entryBelow?_concat {items inner : List (RawText × Entry)} {name : RawText}
    (h : entryBelow? items here = some (.directory inner)) :
    entryBelow? items (here ++ [name]) = inner.lookup name := by
  induction here generalizing items with
  | nil =>
    cases h
    rfl
  | cons first rest ih =>
    have hne : rest ++ [name] ≠ [] := by simp
    rw [List.cons_append, entryBelow?.eq_3 _ _ _ fun hnil => hne hnil]
    cases rest with
    | nil =>
      rw [entryBelow?] at h
      rw [h]
      rfl
    | cons next rest =>
      rw [entryBelow?.eq_3 _ _ _ (by simp)] at h
      split at h
      · exact ih h
      · cases h

/-- Each item of a directory is what there is at its place. -/
theorem Regular.entry?_item (hfs : fs.Regular) {items : List (RawText × Entry)}
    (h : fs.entry? here = some (.directory items)) {item : RawText × Entry} (hitem : item ∈ items) :
    fs.entry? (here ++ [item.1]) = some item.2 := by
  obtain ⟨before, after, rfl⟩ := List.append_of_mem hitem
  have hdistinct := hfs.distinct here _ h
  rw [List.map_append, List.map_cons] at hdistinct
  unfold entry?
  rw [entryBelow?_concat h, List.lookup_eq_some_iff]
  refine ⟨before, after, rfl, fun other hother => ?_⟩
  have hne : other.1 ≠ item.1 := (List.nodup_append.mp hdistinct).2.2 _
    (List.mem_map_of_mem hother) _ List.mem_cons_self
  simpa using hne.symm

/-- Where there is no directory but the root, whatever there is, is an item of the root. -/
theorem mem_items_of_flat (hflat : ∀ item ∈ fs.items, ∀ inner, item.2 ≠ .directory inner)
    {entry : Entry} (h : fs.entry? here = some entry) :
    entry = .directory fs.items ∨ ∃ name, (name, entry) ∈ fs.items := by
  have hmem {name : RawText} {found : Entry} (hfound : fs.items.lookup name = some found) :
      (name, found) ∈ fs.items := by
    obtain ⟨before, after, heq, -⟩ := List.lookup_eq_some_iff.mp hfound
    simp [heq]
  unfold entry? at h
  cases here with
  | nil =>
    cases h
    exact .inl rfl
  | cons name rest =>
    cases rest with
    | nil => exact .inr ⟨name, hmem h⟩
    | cons next rest =>
      rw [entryBelow?.eq_3 _ _ _ (by simp)] at h
      split at h
      · rename_i inner hinner
        exact absurd rfl (hflat _ (hmem hinner) inner)
      · cases h

theorem regular_of_flat (hflat : ∀ item ∈ fs.items, ∀ inner, item.2 ≠ .directory inner)
    (hnames : ∀ item ∈ fs.items, Path.IsName item.1) (hdistinct : (fs.items.map Prod.fst).Nodup) :
    fs.Regular := by
  have hroot (place : Place) (items : List (RawText × Entry))
      (h : fs.entry? place = some (.directory items)) : items = fs.items := by
    rcases mem_items_of_flat hflat h with heq | ⟨name, hmem⟩
    · exact Entry.directory.inj heq
    · exact absurd rfl (hflat _ hmem items)
  constructor
  · intro place items h
    rw [hroot place items h]
    exact hnames
  · intro place items h
    rw [hroot place items h]
    exact hdistinct

end FileSystem

/-! ## The walk -/

namespace Listing

variable {fs : FileSystem} {bases : List Place} {found : List Place}

/-- What is found at or below some places. -/
structure Finds (fs : FileSystem) (bases found : List Place) : Prop where
  below : ∀ place ∈ found, ∃ base ∈ bases, base <+: place
  names : ∀ place ∈ found, place.Proper
  files : ∀ place ∈ found, ∃ content modified, fs.file? place = some (content, modified)
  once : found.Nodup

theorem finds_nil (fs : FileSystem) (bases : List Place) : Finds fs bases [] where
  below _ h := nomatch h
  names _ h := nomatch h
  files _ h := nomatch h
  once := .nil

/-- What is found below the items of a directory is found below the directory. -/
theorem Finds.inside {here : Place} (h : Finds fs bases found)
    (hbases : ∀ base ∈ bases, here <+: base) : Finds fs [here] found where
  below place hplace := by
    obtain ⟨base, hbase, hbelow⟩ := h.below place hplace
    exact ⟨here, List.mem_singleton_self here, (hbases base hbase).trans hbelow⟩
  names := h.names
  files := h.files
  once := h.once

/-- Below different items of a directory different places are found. -/
theorem Finds.cons {here : Place} {name : RawText} {names : List RawText} {rest : List Place}
    (h : Finds fs [here ++ [name]] found)
    (hrest : Finds fs (names.map fun other => here ++ [other]) rest) (hname : name ∉ names) :
    Finds fs ((name :: names).map fun other => here ++ [other]) (found ++ rest) where
  below place hplace := by
    rcases List.mem_append.mp hplace with hplace | hplace
    · obtain ⟨base, hbase, hbelow⟩ := h.below place hplace
      obtain rfl := List.mem_singleton.mp hbase
      exact ⟨here ++ [name], List.mem_cons_self, hbelow⟩
    · obtain ⟨base, hbase, hbelow⟩ := hrest.below place hplace
      exact ⟨base, List.mem_cons_of_mem _ hbase, hbelow⟩
  names place hplace := (List.mem_append.mp hplace).elim (h.names place) (hrest.names place)
  files place hplace := (List.mem_append.mp hplace).elim (h.files place) (hrest.files place)
  once := by
    refine List.nodup_append.mpr ⟨h.once, hrest.once, ?_⟩
    rintro place hplace _ hother rfl
    obtain ⟨base, hbase, hbelow⟩ := h.below place hplace
    obtain rfl := List.mem_singleton.mp hbase
    obtain ⟨base', hbase', hbelow'⟩ := hrest.below place hother
    obtain ⟨other, hmem, rfl⟩ := List.mem_map.mp hbase'
    have heq : here ++ [name] = here ++ [other] :=
      (List.prefix_of_prefix_length_le hbelow hbelow' (by simp)).eq_of_length (by simp)
    obtain rfl : name = other := by simpa using heq
    exact hname hmem

/-- The induction is on the tree.  A directory hands to its items that they are what is at their
places, which is what makes the places found those of files. -/
theorem finds_walk (hfs : fs.Regular) (policy : Policy) (levels : List Ignore.Level)
    (depth : Option Nat) {here : Place} {entry : Entry} (hproper : here.Proper)
    (hentry : fs.entry? here = some entry) :
    Finds fs [here] (walk fs policy levels depth here entry) := by
  revert levels depth here entry
  have hboth := walk.mutual_induct fs policy
    (motive_1 := fun levels depth here entry => here.Proper → fs.entry? here = some entry →
      Finds fs [here] (walk fs policy levels depth here entry))
    (motive_2 := fun levels depth here items => here.Proper →
      (∀ item ∈ items, Path.IsName item.1 ∧ fs.entry? (here ++ [item.1]) = some item.2) →
      (items.map Prod.fst).Nodup →
      Finds fs ((items.map Prod.fst).map fun name => here ++ [name])
        (walkItems fs policy levels depth here items))
    ?file ?link ?bottom ?directory ?none ?item
  case file =>
    intro levels depth here content modified hproper hentry
    rw [walk]
    refine ⟨?_, ?_, ?_, List.nodup_singleton here⟩ <;> intro place hplace <;>
      obtain rfl := List.mem_singleton.mp hplace
    · exact ⟨place, List.mem_singleton_self place, List.prefix_rfl⟩
    · exact hproper
    · exact ⟨content, modified, FileSystem.file?_eq_some_iff.mpr hentry⟩
  case link =>
    intro levels depth here target _ _
    rw [walk]
    exact finds_nil fs _
  case bottom =>
    intro levels depth here items hdepth _ _
    rw [walk, hdepth]
    exact finds_nil fs _
  case directory =>
    intro levels depth here items deeper hdepth ih hproper hentry
    rw [walk, hdepth]
    refine (ih hproper (fun item hitem => ?_) (hfs.distinct here items hentry)).inside ?_
    · exact ⟨hfs.names here items hentry item hitem, hfs.entry?_item hentry hitem⟩
    · intro base hbase
      obtain ⟨name, -, rfl⟩ := List.mem_map.mp hbase
      exact List.prefix_append here [name]
  case none =>
    intro levels depth here _ _ _
    rw [walkItems]
    exact finds_nil fs _
  case item =>
    intro levels depth here name entry rest ih ihRest hproper hitems hdistinct
    obtain ⟨hname, hrest⟩ := List.nodup_cons.mp hdistinct
    obtain ⟨hisName, hentry⟩ := hitems (name, entry) List.mem_cons_self
    have hinner (held : Bool) : Finds fs [here ++ [name]]
        (if held then [] else walk fs policy levels depth (here ++ [name]) entry) := by
      cases held with
      | true => exact finds_nil fs _
      | false =>
        refine ih (Place.proper_append hproper fun s hs => ?_) hentry
        obtain rfl := List.mem_singleton.mp hs
        exact hisName
    unfold walkItems
    refine Finds.cons (hinner _) (ihRest hproper (fun item hitem => ?_) hrest) hname
    exact hitems item (List.mem_cons_of_mem _ hitem)
  exact fun levels depth here entry => hboth.1 levels depth here entry

/-- What is found below a root that is a directory. -/
theorem filesBelow_spec (hfs : fs.Regular) (policy : Policy) (maxDepth : Option Nat) {root : Place}
    (hproper : root.Proper) (hroot : fs.isDirectory root) :
    (filesBelow fs policy maxDepth root).Nodup ∧
      ∀ place ∈ filesBelow fs policy maxDepth root, place ≠ [] ∧ place.Proper ∧
        ∃ content modified, fs.file? (root ++ place) = some (content, modified) := by
  obtain ⟨items, hitems⟩ := FileSystem.isDirectory_iff.mp hroot
  have hcanonical : fs.Canonical root := FileSystem.canonical_of_entry hproper hitems (by simp)
  have hwalk := finds_walk hfs policy (Ignore.levelsAbove fs root) maxDepth hproper hitems
  rw [filesBelow, hcanonical.locate_pathTo_self]
  dsimp only
  rw [hitems]
  dsimp only
  constructor
  · refine List.Nodup.filterMap ?_ hwalk.once
    intro place other relative hplace hother
    rw [Option.mem_def, Place.below?_eq_some_iff] at hplace hother
    rw [hplace, hother]
  · intro place hplace
    obtain ⟨whole, hwhole, hbelow⟩ := List.mem_filterMap.mp hplace
    obtain rfl := Place.below?_eq_some_iff.mp hbelow
    obtain ⟨content, modified, hfile⟩ := hwalk.files _ hwhole
    refine ⟨?_, fun s hs => hwalk.names _ hwhole s (by simp [hs]), _, _, hfile⟩
    rintro rfl
    rw [List.append_nil, FileSystem.file?_eq_some_iff, hitems] at hfile
    cases hfile

/-- The places of the files in a list, relative to the root and in the order of the tree. -/
def visited (fs : FileSystem) (policy : Policy) (project : Project) (options : Options)
    (glob : Option Glob) : List Place :=
  (filesBelow fs policy options.maxDepth project.root).filter (wants policy options glob)

end Listing

/-! ## The texts in a list -/

namespace Place

/-- Every name on the way is text without a backslash. -/
def Plain (place : Place) : Prop :=
  ∀ s ∈ place, ∃ text : String, s = RawText.ofString text ∧ '\\' ∉ text.toList

variable {place other : Place}

theorem notMem_intercalate {c : Char} {between : List Char} {parts : List (List Char)}
    (hbetween : c ∉ between) (hparts : ∀ part ∈ parts, c ∉ part) :
    c ∉ between.intercalate parts := by
  induction parts with
  | nil => simp [List.intercalate]
  | cons part rest ih =>
    have hpart := hparts part List.mem_cons_self
    cases rest with
    | nil => simpa [List.intercalate] using hpart
    | cons next rest =>
      have hrest := ih fun p hp => hparts p (List.mem_cons_of_mem _ hp)
      rw [List.intercalate_cons_cons]
      simp only [List.mem_append, not_or]
      exact ⟨⟨hpart, hbetween⟩, hrest⟩

/-- Texts joined by slashes as octets are the octets of the texts joined by slashes. -/
theorem joined_ofString (texts : List String) :
    joined (texts.map RawText.ofString) = RawText.ofString ("/".intercalate texts) := by
  have hencode (parts : List (List Char)) :
      [Path.slash].intercalate (parts.map Text.Utf8.encode) =
        Text.Utf8.encode (['/'].intercalate parts) := by
    induction parts with
    | nil => rfl
    | cons part rest ih =>
      cases rest with
      | nil => simp [List.intercalate]
      | cons next rest =>
        rw [List.map_cons, List.map_cons, List.intercalate_cons_cons, ← List.map_cons, ih,
          List.intercalate_cons_cons, Text.Utf8.encode_append, Text.Utf8.encode_append]
        rfl
  rw [joined, RawText.ofString, String.toList_intercalate, List.map_map]
  have hmap : texts.map (RawText.octets ∘ RawText.ofString) =
      (texts.map String.toList).map Text.Utf8.encode := by
    rw [List.map_map]
    rfl
  rw [hmap, hencode]
  rfl

/-- A plain place is written as a text without a backslash. -/
theorem Plain.exists_spelled (h : place.Plain) :
    ∃ text, place.spelled? = some text ∧ '\\' ∉ text.toList := by
  choose! textOf htextOf using h
  have hplace : place = (place.map textOf).map RawText.ofString := by
    have hsame : ∀ s ∈ place, id s = (RawText.ofString ∘ textOf) s := fun s hs => (htextOf s hs).1
    rw [List.map_map, ← List.map_congr_left hsame, List.map_id]
  refine ⟨"/".intercalate (place.map textOf), ?_, ?_⟩
  · rw [spelled?, RawText.text?_eq_some_iff, ← joined_ofString, ← hplace]
  · rw [String.toList_intercalate]
    refine notMem_intercalate (by decide) fun part hpart => ?_
    obtain ⟨_, htext, rfl⟩ := List.mem_map.mp hpart
    obtain ⟨s, hs, rfl⟩ := List.mem_map.mp htext
    exact (htextOf s hs).2

/-- A text without a backslash is shown as it is. -/
theorem slashed_of_spelled? {text : String} (htext : place.spelled? = some text)
    (hplain : '\\' ∉ text.toList) : place.slashed = text := by
  have hsame : ∀ c ∈ text.toList, (if c = '\\' then '/' else c) = id c := by
    intro c hc
    have hne : c ≠ '\\' := fun heq => hplain (heq ▸ hc)
    exact if_neg hne
  rw [slashed, relative_of_spelled? htext, List.map_congr_left hsame, List.map_id,
    String.ofList_toList]

theorem Plain.spelled?_eq (h : place.Plain) : place.spelled? = some place.slashed := by
  obtain ⟨text, htext, hplain⟩ := h.exists_spelled
  rw [slashed_of_spelled? htext hplain, htext]

end Place

namespace Policy

variable {policy : Policy} {fs : FileSystem} {project : Project} {options : Listing.Options}
  {glob : Option Glob} {place : Place} {path : String}

/-- Reading a path back: it leads to the file at a place below the root and is shown as it was
written, or it is refused because that file is too large. -/
inductive ReadsBack (policy : Policy) (fs : FileSystem) (project : Project) (place : Place)
    (path : String) : Prop
  | file {file : FileRef} (h : policy.resolve fs project path = .ok file)
    (leads : file.absolute = project.root ++ place) (shown : file.displayPath = path)
  | tooLarge {content : List UInt8} {modified : Nat}
    (there : fs.file? (project.root ++ place) = some (content, modified))
    (large : policy.maxFileBytes < content.length)
    (h : policy.resolve fs project path = .error (.securityViolation path
      s!"file is {content.length} bytes, limit is {policy.maxFileBytes}"))

/-- What resolving comes to for the text of a place where there is a file that the rules permit. -/
theorem resolve_spelled_eq (hroot : project.root.Proper) (hproper : place.Proper)
    (hne : place ≠ []) (hpermits : policy.Permits place) {content : List UInt8} {modified : Nat}
    (hfile : fs.file? (project.root ++ place) = some (content, modified)) {text : String}
    (htext : place.spelled? = some text) :
    policy.resolve fs project text =
      if content.length > policy.maxFileBytes then
        .error (.securityViolation text
          s!"file is {content.length} bytes, limit is {policy.maxFileBytes}")
      else .ok {
        project := project.name, relative := place, absolute := project.root ++ place
        size := content.length, modified := some modified } := by
  have haccept : policy.accept project text = .ok place :=
    (accept_spelled_iff hproper hne htext).mpr hpermits
  have hcanonical : fs.Canonical (project.root ++ place) :=
    FileSystem.canonical_of_entry (Place.proper_append hroot hproper)
      (FileSystem.file?_eq_some_iff.mp hfile) (by simp)
  have hbelow : project.root.below? (project.root ++ place) = some place :=
    Place.below?_eq_some_iff.mpr rfl
  simp only [resolve, haccept, hcanonical.locate_pathTo_self, hbelow, hfile, bind, Except.bind,
    Option.isNone_some, Bool.false_eq_true, ↓reduceIte]
  split <;> rfl

/-- The name of a file that the rules permit leads to it, if it lies in the root itself. -/
theorem resolve_name (hroot : project.root.Proper) {name : String}
    (hname : Path.IsName (RawText.ofString name)) (hpermits : policy.Permits [name])
    {content : List UInt8} {modified : Nat}
    (hfile : fs.file? (project.root ++ ([name] : Place)) = some (content, modified))
    (hfits : content.length ≤ policy.maxFileBytes) :
    policy.resolve fs project name = .ok {
      project := project.name, relative := [name], absolute := project.root ++ ([name] : Place)
      size := content.length, modified := some modified } := by
  have hproper : Place.Proper [RawText.ofString name] := fun s hs => List.mem_singleton.mp hs ▸ hname
  have htext : Place.spelled? [RawText.ofString name] = some name := by
    have hjoined : Place.joined [RawText.ofString name] = .ofString name := by
      simp [Place.joined, List.intercalate]
    rw [Place.spelled?, hjoined, RawText.text?_ofString]
  have h := resolve_spelled_eq hroot hproper (List.cons_ne_nil _ []) hpermits hfile htext
  rwa [if_neg (Nat.not_lt.mpr hfits)] at h

theorem permits_of_wants (h : Listing.wants policy options glob place) :
    policy.Permits place := by
  simp only [Listing.wants, Bool.and_eq_true, Bool.not_eq_true'] at h
  exact permits_iff.mpr h.1.1

theorem list_eq (hglob : Listing.globOf options.pattern = .ok glob) :
    policy.list fs project options = .ok
      (((Listing.visited fs policy project options glob).map Place.slashed).mergeSort
        fun a b => decide (a ≤ b)) := by
  simp only [list, hglob, bind, Except.bind, pure, Except.pure, Listing.visited]

theorem readsBack_slashed (hroot : project.root.Proper) (hproper : place.Proper)
    (hne : place ≠ []) (hpermits : policy.Permits place) {content : List UInt8} {modified : Nat}
    (hfile : fs.file? (project.root ++ place) = some (content, modified)) (hplain : place.Plain) :
    policy.ReadsBack fs project place place.slashed := by
  have hresolve := resolve_spelled_eq hroot hproper hne hpermits hfile hplain.spelled?_eq
  by_cases hlarge : content.length > policy.maxFileBytes
  · rw [if_pos hlarge] at hresolve
    exact .tooLarge hfile hlarge hresolve
  · rw [if_neg hlarge] at hresolve
    exact .file hresolve rfl rfl

theorem pairwise_sorted (paths : List String) :
    (paths.mergeSort fun a b => decide (a ≤ b)).Pairwise (· ≤ ·) := by
  refine List.Pairwise.imp (fun hab => of_decide_eq_true hab) (List.pairwise_mergeSort ?_ ?_ paths)
  · intro a b c hab hbc
    exact decide_eq_true (String.le_trans (of_decide_eq_true hab) (of_decide_eq_true hbc))
  · intro a b
    simpa using String.le_total a b

theorem pairwise_lt_iff {paths : List String} (h : paths.Pairwise (· ≤ ·)) :
    paths.Pairwise (· < ·) ↔ paths.Nodup := by
  constructor
  · intro hlt
    refine hlt.imp ?_
    rintro a _ hab rfl
    exact String.lt_irrefl a hab
  · intro hne
    refine (h.and hne).imp fun {a b} hab => String.not_le.mp fun hba => hab.2 ?_
    exact String.le_antisymm hab.1 hba

variable {listed : List String}

/-- What a path in a list stands for. -/
theorem exists_visited_of_mem (hfs : fs.Regular) (hroot : project.root.Proper)
    (hdirectory : fs.isDirectory project.root) (hglob : Listing.globOf options.pattern = .ok glob)
    (hlisted : policy.list fs project options = .ok listed) (hpath : path ∈ listed) :
    ∃ place ∈ Listing.visited fs policy project options glob, path = place.slashed ∧
      (place.Plain → policy.ReadsBack fs project place path) := by
  rw [list_eq hglob, Except.ok.injEq] at hlisted
  subst hlisted
  obtain ⟨place, hplace, rfl⟩ := List.mem_map.mp ((List.mergeSort_perm _ _).mem_iff.mp hpath)
  obtain ⟨hfound, hwants⟩ := List.mem_filter.mp hplace
  obtain ⟨hne, hnames, content, modified, hfile⟩ :=
    (Listing.filesBelow_spec hfs policy options.maxDepth hroot hdirectory).2 place hfound
  exact ⟨place, hplace, rfl, readsBack_slashed hroot hnames hne (permits_of_wants hwants) hfile⟩

/-- No two files are shown alike if every name is text without a backslash. -/
theorem nodup_visited_of_plain (hfs : fs.Regular) (hroot : project.root.Proper)
    (hdirectory : fs.isDirectory project.root)
    (hplain : ∀ place ∈ Listing.visited fs policy project options glob, place.Plain) :
    ((Listing.visited fs policy project options glob).map Place.slashed).Nodup := by
  have hspec := Listing.filesBelow_spec hfs policy options.maxDepth hroot hdirectory
  refine (hspec.1.filter _).map_on fun place hplace other hother heq => ?_
  obtain ⟨hne, hnames, -⟩ := hspec.2 place (List.mem_of_mem_filter hplace)
  obtain ⟨hne', hnames', -⟩ := hspec.2 other (List.mem_of_mem_filter hother)
  have hplace := Place.ofString_of_spelled? (hplain place hplace).spelled?_eq
  have hother := Place.ofString_of_spelled? (hplain other hother).spelled?_eq
  exact Place.eq_of_joined_eq hnames hnames' hne hne' (by rw [hplace, hother, heq])

theorem nodup_list_iff (hglob : Listing.globOf options.pattern = .ok glob)
    (hlisted : policy.list fs project options = .ok listed) :
    listed.Nodup ↔
      ((Listing.visited fs policy project options glob).map Place.slashed).Nodup := by
  rw [list_eq hglob, Except.ok.injEq] at hlisted
  subst hlisted
  exact (List.mergeSort_perm _ _).nodup_iff

theorem pairwise_list (hlisted : policy.list fs project options = .ok listed) :
    listed.Pairwise (· ≤ ·) := by
  cases hglob : Listing.globOf options.pattern with
  | error e => simp [list, hglob, bind, Except.bind] at hlisted
  | ok glob =>
    rw [list_eq hglob, Except.ok.injEq] at hlisted
    subst hlisted
    exact pairwise_sorted _

/-- **Listed files can be read back.**  The list of a project's files is in order.  Each path in it
stands for a file that was visited, and if every name on the way to that file is text without a
backslash, the path leads to just this file and is shown as it was listed, or the file is refused as
too large.  The list has no path twice exactly if no two of the files visited are shown alike, and
two files with such names never are. -/
theorem list_reads_back (hfs : fs.Regular) (hroot : project.root.Proper)
    (hdirectory : fs.isDirectory project.root) (hglob : Listing.globOf options.pattern = .ok glob) :
    ∃ listed, policy.list fs project options = .ok listed ∧ listed.Pairwise (· ≤ ·) ∧
      (∀ path ∈ listed, ∃ place ∈ Listing.visited fs policy project options glob,
        path = place.slashed ∧ (place.Plain → policy.ReadsBack fs project place path)) ∧
      (listed.Pairwise (· < ·) ↔
        ((Listing.visited fs policy project options glob).map Place.slashed).Nodup) ∧
      ((∀ place ∈ Listing.visited fs policy project options glob, place.Plain) →
        listed.Pairwise (· < ·)) := by
  have hlisted : policy.list fs project options = _ := list_eq hglob
  have hsorted := pairwise_list hlisted
  refine ⟨_, hlisted, hsorted, ?back, ?strict, fun hplain => ?plain⟩
  case back => exact fun path => exists_visited_of_mem hfs hroot hdirectory hglob hlisted
  case strict => rw [pairwise_lt_iff hsorted, nodup_list_iff hglob hlisted]
  case plain =>
    rw [pairwise_lt_iff hsorted, nodup_list_iff hglob hlisted]
    exact nodup_visited_of_plain hfs hroot hdirectory hplain

/-! ### Names that are shown as others

The root directory is the project.  Of its three files one is too large to be read, one has a
backslash in its name, and the name of one is no text. -/

def nameless : RawText := ⟨[255, 46, 112, 121]⟩

def driveItems : List (RawText × Entry) := [
  ("large.py", .file (List.replicate 17 120) 7), ("near.py", .link "c\\d.py"),
  ("c\\d.py", .file [120] 7), (nameless, .file [121] 7)]

def drive : FileSystem where
  items := driveItems

def driveProject : Project where
  name := "drive"
  root := []
  description := none
  registeredAt := ""

theorem regular_drive : drive.Regular := by
  refine FileSystem.regular_of_flat ?_ ?_ (by decide +kernel)
  · intro item hitem inner
    simp only [drive, driveItems, List.mem_cons, List.not_mem_nil, or_false] at hitem
    rcases hitem with rfl | rfl | rfl | rfl <;> simp
  · intro item hitem
    simp only [drive, driveItems, List.mem_cons, List.not_mem_nil, or_false] at hitem
    rcases hitem with rfl | rfl | rfl | rfl <;> decide +kernel

theorem list_reads_back_drive :
    drive.Regular ∧ driveProject.root.Proper ∧ drive.isDirectory driveProject.root ∧
    Listing.globOf none = .ok none ∧
    ∃ listed, homePolicy.list drive driveProject {} = .ok listed ∧ listed.Pairwise (· ≤ ·) ∧
      (∀ path ∈ listed, ∃ place ∈ Listing.visited drive homePolicy driveProject {} none,
        path = place.slashed ∧
          (place.Plain → homePolicy.ReadsBack drive driveProject place path)) ∧
      (listed.Pairwise (· < ·) ↔
        ((Listing.visited drive homePolicy driveProject {} none).map Place.slashed).Nodup) ∧
      ((∀ place ∈ Listing.visited drive homePolicy driveProject {} none, place.Plain) →
        listed.Pairwise (· < ·)) := by
  have hroot : driveProject.root.Proper := by simp [driveProject, Place.Proper]
  exact ⟨regular_drive, hroot, rfl, rfl, list_reads_back regular_drive hroot rfl rfl⟩

/-- The places of the files in the order of the tree. -/
def driveFiles : List Place := [["large.py"], ["c\\d.py"], [nameless]]

theorem visited_drive :
    Listing.visited drive homePolicy driveProject {} none = driveFiles := by
  have hlevel : Ignore.Level.of drive [] = { base := [], rules := [[], [], []] } := by
    simp [Ignore.Level.of, Ignore.Level.fileNames, FileSystem.readPath, FileSystem.locate_pathTo,
      FileSystem.follow, FileSystem.entry?, FileSystem.entryBelow?, drive, driveItems,
      List.lookup_cons, bind, Except.bind]
    decide +kernel
  have hwalk : Listing.filesBelow drive homePolicy none [] = driveFiles := by
    have hitems : drive.items = driveItems := rfl
    simp [Listing.filesBelow, FileSystem.locate_pathTo, FileSystem.follow, Listing.walk,
      Listing.walkItems, Listing.deeper?, FileSystem.entry?, FileSystem.entryBelow?, hlevel, hitems,
      driveItems]
    decide +kernel
  have hwants : ∀ place ∈ driveFiles, Listing.wants homePolicy {} none place = true := by
    decide +kernel
  rw [Listing.visited]
  change (Listing.filesBelow drive homePolicy none []).filter _ = _
  rw [hwalk]
  exact List.filter_eq_self.mpr hwants

/-- What would have to be below a name that is not in the root directory is not found. -/
theorem resolve_drive_missing {path : String} {first : RawText} {rest : Place}
    (haccept : homePolicy.accept driveProject path = .ok (first :: rest))
    (hpath : Place.relative (first :: rest) = path) (hmissing : driveItems.lookup first = none) :
    homePolicy.resolve drive driveProject path = .error (.fileNotFound path) := by
  have hentry : drive.entry? ([] ++ [first]) = none := hmissing
  have hfollow : drive.follow FileSystem.linkLimit [] ((first :: rest).map .name) =
      .error .notFound := by
    rw [List.map_cons, FileSystem.follow, hentry]
  simp only [resolve, haccept, FileSystem.locate_pathTo, bind, Except.bind]
  simp only [driveProject, List.nil_append, hfollow, hpath]
  rfl

/-- The file with the backslash is listed as if it were in a directory, where there is none, and the
one whose name is no text under a name that no file has.  Under its own name the first can be
read. -/
theorem list_unfaithful :
    homePolicy.list drive driveProject {} = .ok ["c/d.py", "large.py", "\uFFFD.py"] ∧
    homePolicy.resolve drive driveProject "c/d.py" = .error (.fileNotFound "c/d.py") ∧
    homePolicy.resolve drive driveProject "\uFFFD.py" = .error (.fileNotFound "\uFFFD.py") ∧
    ¬ homePolicy.ReadsBack drive driveProject ["c\\d.py"] "c/d.py" ∧
    ¬ homePolicy.ReadsBack drive driveProject [nameless] "\uFFFD.py" ∧
    homePolicy.resolve drive driveProject "c\\d.py" = .ok {
      project := "drive", relative := ["c\\d.py"], absolute := ["c\\d.py"]
      size := 1, modified := some 7 } := by
  have hlist : homePolicy.list drive driveProject {} =
      .ok ["c/d.py", "large.py", "\uFFFD.py"] := by
    have hshown : driveFiles.map Place.slashed = ["large.py", "c/d.py", "\uFFFD.py"] := by
      decide +kernel
    have horder : ¬ ("large.py" ≤ "c/d.py") := by decide +kernel
    have horder' : "large.py" ≤ "\uFFFD.py" := by decide +kernel
    have horder'' : "c/d.py" ≤ "\uFFFD.py" := by decide +kernel
    have hglob : Listing.globOf ({} : Listing.Options).pattern = .ok none := rfl
    rw [list_eq hglob, visited_drive, hshown]
    simp [List.mergeSort, List.MergeSort.Internal.splitInTwo, horder, horder', horder'']
  have hslash : homePolicy.resolve drive driveProject "c/d.py" =
      .error (.fileNotFound "c/d.py") := by
    have haccept : homePolicy.accept driveProject "c/d.py" =
        .ok (["c", "d.py"] : Place) := by
      decide +kernel
    exact resolve_drive_missing haccept (by decide +kernel) (by decide +kernel)
  have hmark : homePolicy.resolve drive driveProject "\uFFFD.py" =
      .error (.fileNotFound "\uFFFD.py") := by
    have haccept : homePolicy.accept driveProject "\uFFFD.py" = .ok (["\uFFFD.py"] : Place) := by
      decide +kernel
    exact resolve_drive_missing haccept (by decide +kernel) (by decide +kernel)
  refine ⟨hlist, hslash, hmark, ?_, ?_, ?_⟩
  · rintro (⟨h, -, -⟩ | ⟨-, -, h⟩) <;> · rw [hslash] at h; cases h
  · rintro (⟨h, -, -⟩ | ⟨-, -, h⟩) <;> · rw [hmark] at h; cases h
  · have hpermits : homePolicy.Permits ["c\\d.py"] := permits_iff.mpr (by decide +kernel)
    have hroot : driveProject.root.Proper := by simp [driveProject, Place.Proper]
    have hfile : drive.file? (driveProject.root ++ (["c\\d.py"] : Place)) = some ([120], 7) := by
      decide +kernel
    exact resolve_name hroot (by decide +kernel) hpermits hfile (by decide)

end Policy

end CodeAtlas
