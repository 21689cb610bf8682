import CodeAtlas.Proofs.Cache.Steps
import CodeAtlas.Proofs.Files.Place
import Mathlib.Data.Set.Function

/-!
# A kept document is the one that would be read

A slot may have been filled long before it answers: for an earlier state of the file, in another
language, or for a project of the same name at another root.  This file shows that none of this is
seen.  The invariant says of each slot that its document is what the parser makes of a file with
the slot's key, and a slot only answers for the same fingerprint and language.  A fingerprint
stands for the content itself as long as no two contents in play have the same digest.

The digest cannot be injective on all contents, so the contents in play are a parameter, and
injectivity is only asked for on them.
-/

namespace CodeAtlas.Cache

variable {parser : Syntax.Parser Language} {known : Set (List UInt8)} {c d : Cache}

/-- The document is what the parser makes of a file with this key and a known content. -/
def Genuine (parser : Syntax.Parser Language) (known : Set (List UInt8)) (key : Key)
    (doc : Document) : Prop :=
  ∃ (file : FileRef) (source : List UInt8) (language : Language), source ∈ known ∧
    file.relative.Proper ∧ Key.of file.project file.relative = key ∧
    read parser file source language = .ok doc

def Faithful (parser : Syntax.Parser Language) (known : Set (List UInt8)) (c : Cache) : Prop :=
  ∀ e ∈ c.slots, Genuine parser known e.1 e.2.document

/-- A document tells all that its reading depended on, except for the tree. -/
theorem eq_of_read {file : FileRef} {source : List UInt8} {language : Language} {doc : Document}
    (h : read parser file source language = .ok doc) :
    ∃ tree, parser language source = some tree ∧ doc = {
      project := file.project, path := file.relative
      fingerprint := .of file.modified source, language, source, tree } := by
  unfold read at h
  split at h
  · cases h
  · rename_i tree htree
    cases h
    exact ⟨tree, htree, rfl⟩

/-- Among proper ways, the key tells the project and the way. -/
theorem eq_of_keyOf_eq {project project' : String} {path path' : Place} (hpath : path.Proper)
    (hpath' : path'.Proper) (h : Key.of project path = Key.of project' path') :
    project = project' ∧ path = path' := by
  rw [Key.of, Key.of, Place.tidy_eq_self hpath, Place.tidy_eq_self hpath'] at h
  cases h
  exact ⟨rfl, rfl⟩

/-- A genuine document with the right fingerprint and language is the one that reading the file
now would give. -/
theorem Genuine.read_eq {file : FileRef} {source : List UInt8} {language : Language}
    {doc : Document} (hdigest : Set.InjOn Text.Digest.sha256 known)
    (h : Genuine parser known (.of file.project file.relative) doc) (hsource : source ∈ known)
    (hfile : file.relative.Proper) (hfingerprint : doc.fingerprint = .of file.modified source)
    (hlanguage : doc.language = language) : read parser file source language = .ok doc := by
  obtain ⟨file', source', language', hsource', hfile', hkey, hread⟩ := h
  obtain ⟨tree, htree, rfl⟩ := eq_of_read hread
  obtain ⟨hproject, hrelative⟩ := eq_of_keyOf_eq hfile' hfile hkey
  obtain ⟨-, hmodified, hsum⟩ := Fingerprint.mk.inj hfingerprint
  obtain rfl : source' = source := hdigest hsource' hsource hsum
  obtain rfl : language' = language := hlanguage
  simp [read, htree, hproject, hrelative, hmodified]

/-! ## The invariant through the steps -/

theorem faithful_new (settings : Settings) : (new settings).Faithful parser known :=
  fun _ he => absurd he List.not_mem_nil

theorem Faithful.of_subset (h : c.Faithful parser known) (hs : d.slots ⊆ c.slots) :
    d.Faithful parser known :=
  fun e he => h e (hs he)

theorem Faithful.dropped (h : c.Faithful parser known) (hd : Dropped c d) :
    d.Faithful parser known :=
  h.of_subset hd.slots.subset

theorem Faithful.hit (h : c.Faithful parser known) (key : Key) :
    (c.hit key).Faithful parser known := by
  intro e he
  rw [hit_slots] at he
  obtain ⟨e', he', rfl⟩ := List.mem_map.mp he
  rw [useAt_fst, useAt_document]
  exact h e' he'

theorem Faithful.stored (h : c.Faithful parser known) (now : Nat) {key : Key} {doc : Document}
    (hdoc : Genuine parser known key doc) : (c.stored now key doc).Faithful parser known := by
  refine Faithful.dropped (c := (c.missed key).put now key doc) ?_ (.evict _ now key)
  intro e he
  rcases List.mem_cons.mp he with rfl | he
  · exact hdoc
  · exact h e (List.mem_filter.mp he).1

/-- **A cache shows in nothing that is asked of it.**  Whatever it holds and whether or not it is
enabled, the answer is the document that reading the source anew gives, and so it stays. -/
theorem Faithful.get (h : c.Faithful parser known) (hdigest : Set.InjOn Text.Digest.sha256 known)
    (now : Nat) {file : FileRef} {source : List UInt8} (language : Language)
    (hfile : file.relative.Proper) (hsource : source ∈ known) :
    (c.get parser now file source language).1 = read parser file source language ∧
      (c.get parser now file source language).2.Faithful parser known := by
  rcases hget : c.get parser now file source language with ⟨answer, d⟩
  cases gets hget with
  | off hoff => exact ⟨rfl, h⟩
  | @hit slot hon ha =>
    obtain ⟨hfind, hanswers⟩ := Option.filter_eq_some_iff.mp ha
    have hmem : (Key.of file.project file.relative, slot) ∈ c.slots := mem_of_lookup_eq_some hfind
    simp only [Slot.answers, Bool.and_eq_true, decide_eq_true_eq] at hanswers
    refine ⟨?_, h.hit _⟩
    exact ((h _ hmem).read_eq hdigest hsource hfile hanswers.1.1 hanswers.1.2).symm
  | unread hon ha hr => exact ⟨hr.symm, h⟩
  | refused hon ha hr hp => exact ⟨hr.symm, h⟩
  | stored hon ha hr hp =>
    exact ⟨hr.symm, h.stored now ⟨file, source, language, hsource, hfile, rfl, hr⟩⟩

theorem Faithful.invalidateProject (h : c.Faithful parser known) (project : String) :
    (c.invalidateProject project).2.Faithful parser known :=
  Faithful.dropped (c := c.bump project) h (.invalidateProject c project)

theorem Faithful.retire (h : c.Faithful parser known) (project : String) :
    (c.retire project).2.Faithful parser known :=
  Faithful.invalidateProject
    (c := { c with retired := project :: c.retired.filter (· ≠ project) }) h project

theorem Faithful.activate (h : c.Faithful parser known) (project : String) :
    (c.activate project).Faithful parser known := h

theorem faithful_clear (c : Cache) : c.clear.2.Faithful parser known :=
  fun _ he => absurd he List.not_mem_nil

end CodeAtlas.Cache
