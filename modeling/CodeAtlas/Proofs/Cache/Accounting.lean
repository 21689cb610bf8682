import CodeAtlas.Proofs.Cache.Steps

/-!
# The accounts of a cache

A cache keeps a footprint, a tick and a list of retired projects beside its slots.  `Consistent` says
that they are what the slots make them, and `Settled` adds what holds between two operations: the
slots fit, and nothing is being read.

`Consistent` is kept by every single change, also in the middle of an operation, which is why no
footprint that is taken off is ever larger than what it is taken from.  The slots do not fit in the
middle of an operation, so `Settled` is an invariant of whole operations only.
-/

namespace CodeAtlas

/-- A document belongs under the key of its own project and path, and its fingerprint is the one of
its source. -/
def Document.BelongsTo (d : Document) (key : Cache.Key) : Prop :=
  Cache.Key.of d.project d.path = key ∧ ∃ modified, d.fingerprint = .of modified d.source

namespace Cache

variable {c d : Cache}

/-- What a cache keeps of its slots is true of them. -/
structure Consistent (c : Cache) : Prop where
  footprint_eq : c.footprint = room c.slots
  keys_nodup : (keysOf c.slots).Nodup
  uses_nodup : (usesOf c.slots).Nodup
  uses_le : ∀ e ∈ c.slots, e.2.lastAccess ≤ c.tick
  belongs : ∀ e ∈ c.slots, e.2.document.BelongsTo e.1
  active : ∀ e ∈ c.slots, e.1.project ∉ c.retired

/-- A cache as it is between two operations. -/
structure Settled (c : Cache) : Prop extends Consistent c where
  fits : c.footprint ≤ c.settings.maxBytes ∨ c.size = 1
  idle : c.pending = []

theorem settled_new (settings : Settings) : (new settings).Settled where
  footprint_eq := rfl
  keys_nodup := .nil
  uses_nodup := .nil
  uses_le _ he := nomatch he
  belongs _ he := nomatch he
  active _ he := nomatch he
  fits := .inl (Nat.zero_le _)
  idle := rfl

/-! ## Single changes -/

theorem Consistent.dropped (h : c.Consistent) (hd : Dropped c d) : d.Consistent where
  footprint_eq := hd.footprint h.footprint_eq
  keys_nodup := (hd.slots.map _).nodup h.keys_nodup
  uses_nodup := (hd.slots.map _).nodup h.uses_nodup
  uses_le e he := hd.tick ▸ h.uses_le e (hd.slots.mem he)
  belongs e he := h.belongs e (hd.slots.mem he)
  active e he := hd.retired ▸ h.active e (hd.slots.mem he)

/-- Time may pass, and what is counted and what is being read does not matter. -/
theorem Consistent.of_slots_eq (h : c.Consistent) (hs : d.slots = c.slots)
    (hf : d.footprint = c.footprint) (hr : d.retired = c.retired) (ht : c.tick ≤ d.tick) :
    d.Consistent where
  footprint_eq := by rw [hf, hs, h.footprint_eq]
  keys_nodup := hs ▸ h.keys_nodup
  uses_nodup := hs ▸ h.uses_nodup
  uses_le e he := Nat.le_trans (h.uses_le e (hs ▸ he)) ht
  belongs e he := h.belongs e (hs ▸ he)
  active e he := hr ▸ h.active e (hs ▸ he)

theorem Consistent.missed (h : c.Consistent) (key : Key) : (c.missed key).Consistent :=
  h.of_slots_eq rfl rfl rfl (Nat.le_add_right _ _)

/-- The slot under a key is given a tick that no slot had before. -/
theorem Consistent.hit (h : c.Consistent) (key : Key) : (c.hit key).Consistent where
  footprint_eq := by
    rw [hit_slots, room_map_useAt]
    exact h.footprint_eq
  keys_nodup := by
    rw [hit_slots, keysOf_map_useAt]
    exact h.keys_nodup
  uses_nodup := by
    rw [hit_slots]
    exact usesOf_map_useAt_nodup h.keys_nodup h.uses_nodup fun e he =>
      Nat.lt_succ_of_le (h.uses_le e he)
  uses_le e he := by
    obtain ⟨f, hf, rfl⟩ := List.mem_map.mp he
    change (useAt key (c.tick + 1) f).2.lastAccess ≤ c.tick + 1
    rw [useAt]
    split
    · exact Nat.le_refl _
    · exact Nat.le_succ_of_le (h.uses_le f hf)
  belongs e he := by
    obtain ⟨f, hf, rfl⟩ := List.mem_map.mp he
    change (useAt key (c.tick + 1) f).2.document.BelongsTo (useAt key (c.tick + 1) f).1
    rw [useAt_document, useAt_fst]
    exact h.belongs f hf
  active e he := by
    obtain ⟨f, hf, rfl⟩ := List.mem_map.mp he
    change (useAt key (c.tick + 1) f).1.project ∉ c.retired
    rw [useAt_fst]
    exact h.active f hf

/-- A document that takes the place of what its key had is used later than all others. -/
theorem Consistent.uses_nodup_put (h : c.Consistent) (now : Nat) (key : Key) (doc : Document) :
    (usesOf (c.put now key doc).slots).Nodup := by
  have hd : (c.dropWhere fun k _ => k = key).2.Consistent := h.dropped (.dropWhere c _)
  refine List.nodup_cons.mpr ⟨fun hu => ?_, hd.uses_nodup⟩
  obtain ⟨e, he, hu⟩ := List.mem_map.mp hu
  have hle : e.2.lastAccess ≤ c.tick := hd.uses_le e he
  simp only at hu
  omega

theorem Consistent.put (h : c.Consistent) {key : Key} {doc : Document} (now : Nat)
    (hb : doc.BelongsTo key) (ha : key.project ∉ c.retired) : (c.put now key doc).Consistent := by
  have hd : (c.dropWhere fun k _ => k = key).2.Consistent := h.dropped (.dropWhere c _)
  exact {
    footprint_eq := by
      have hf : c.footprint - room (c.slots.filter fun e => decide (e.1 = key)) =
          room (c.slots.filter fun e => !decide (e.1 = key)) := hd.footprint_eq
      rw [put_slots, room_cons, Nat.add_comm, ← hf]
      rfl
    keys_nodup := by
      refine List.nodup_cons.mpr ⟨fun hk => ?_, hd.keys_nodup⟩
      obtain ⟨e, he, rfl⟩ := List.mem_map.mp hk
      simp at he
    uses_nodup := h.uses_nodup_put now key doc
    uses_le := by
      rw [put_slots, List.forall_mem_cons]
      exact ⟨Nat.le_refl _, fun e he => Nat.le_succ_of_le (hd.uses_le e he)⟩
    belongs := by
      rw [put_slots, List.forall_mem_cons]
      exact ⟨hb, hd.belongs⟩
    active := by
      rw [put_slots, List.forall_mem_cons]
      exact ⟨ha, hd.active⟩ }

/-! ## Whole operations -/

theorem Settled.dropped (h : c.Settled) (hd : Dropped c d) : d.Settled where
  toConsistent := h.toConsistent.dropped hd
  fits := by
    rw [hd.settings]
    rcases h.fits with hfits | hsize
    · exact .inl (Nat.le_trans (hd.footprint_le h.footprint_eq) hfits)
    · rcases Nat.lt_or_ge d.size 1 with hlt | hge
      · refine .inl ?_
        have hnil : d.slots = [] := List.eq_nil_of_length_eq_zero (Nat.lt_one_iff.mp hlt)
        rw [hd.footprint h.footprint_eq, hnil]
        exact Nat.zero_le _
      · exact .inr (Nat.le_antisymm (hsize ▸ hd.size_le) hge)
  idle := hd.pending.trans h.idle

/-- An operation that drops nothing and stores nothing. -/
theorem Settled.of_size_eq (h : c.Settled) (hd : d.Consistent) (hset : d.settings = c.settings)
    (hf : d.footprint = c.footprint) (hs : d.size = c.size) (hp : d.pending = []) :
    d.Settled where
  toConsistent := hd
  fits := by rw [hset, hf, hs]; exact h.fits
  idle := hp

theorem Settled.missed (h : c.Settled) (key : Key) : (c.missed key).Settled :=
  h.of_size_eq (h.toConsistent.missed key) rfl rfl rfl (by simp [Cache.missed, h.idle])

theorem Settled.hit (h : c.Settled) (key : Key) : (c.hit key).Settled :=
  h.of_size_eq (h.toConsistent.hit key) rfl rfl (by simp [size, hit_slots]) h.idle

/-- Making room for a slot leaves a cache that fits, or that slot alone. -/
theorem fits_evict (h : c.Consistent) {key : Key} (hk : key ∈ keysOf c.slots) (now : Nat) :
    (c.evict now key).footprint ≤ c.settings.maxBytes ∨ (c.evict now key).size = 1 := by
  have hshrunk := Dropped.shrink key c.slots.length c
  have hswept := Dropped.expire (shrink key c.slots.length c) now key
  rcases roomMade_shrink key c.slots.length (Nat.le_refl _) with hfits | hnone
  · rw [hshrunk.settings] at hfits
    exact .inl (Nat.le_trans (hswept.footprint_le (hshrunk.footprint h.footprint_eq)) hfits)
  · refine .inr (Nat.le_antisymm ?_ ?_)
    · -- All slots that are left are under one key.
      have hall := oldest?_eq_none_iff.mp hnone
      have hnodup := (h.dropped (hshrunk.trans hswept)).keys_nodup
      have hrep : keysOf (c.evict now key).slots =
          List.replicate (c.evict now key).size key := by
        refine List.eq_replicate_iff.mpr ⟨by simp [size], fun k hm => ?_⟩
        obtain ⟨e, he, rfl⟩ := List.mem_map.mp hm
        exact hall e (hswept.slots.mem he)
      change (keysOf (c.evict now key).slots).Nodup at hnodup
      rw [hrep] at hnodup
      exact List.nodup_replicate.mp hnodup
    · obtain ⟨e, he, hek⟩ := List.mem_map.mp hk
      exact List.length_pos_of_mem (mem_evict he hek)

theorem Settled.stored (h : c.Settled) {key : Key} {doc : Document} (now : Nat)
    (hb : doc.BelongsTo key) (ha : key.project ∉ c.retired) :
    (c.stored now key doc).Settled := by
  have hput : ((c.missed key).put now key doc).Consistent :=
    (h.toConsistent.missed key).put now hb ha
  have hevict := Dropped.evict ((c.missed key).put now key doc) now key
  exact {
    toConsistent := hput.dropped hevict
    fits := by
      rw [Cache.stored, hevict.settings]
      exact fits_evict hput (by simp [keysOf, put_slots]) now
    idle := hevict.pending.trans (h.missed key).idle }

/-- What is read of a file belongs under the key of that file. -/
theorem read_belongsTo {parser : Syntax.Parser Language} {file : FileRef} {source : List UInt8}
    {language : Language} {doc : Document} (h : read parser file source language = .ok doc) :
    doc.BelongsTo (.of file.project file.relative) := by
  rw [read] at h
  split at h
  · cases h
  · cases h
    exact ⟨rfl, file.modified, rfl⟩

theorem Settled.get (h : c.Settled) (parser : Syntax.Parser Language) (now : Nat)
    (file : FileRef) (source : List UInt8) (language : Language) :
    (c.get parser now file source language).2.Settled := by
  rcases hget : c.get parser now file source language with ⟨answer, d⟩
  cases gets hget with
  | off hoff =>
    exact h.of_size_eq (h.toConsistent.of_slots_eq rfl rfl rfl (Nat.le_refl _)) rfl rfl rfl h.idle
  | hit hon ha => exact h.hit _
  | unread hon ha hr => exact h.missed _
  | refused hon ha hr hp => exact h.missed _
  | stored hon ha hr hp => exact h.stored now (read_belongsTo hr) hp

theorem Settled.bump (h : c.Settled) (project : String) : (c.bump project).Settled :=
  h.of_size_eq (h.toConsistent.of_slots_eq rfl rfl rfl (Nat.le_refl _)) rfl rfl rfl h.idle

theorem Settled.invalidateProject (h : c.Settled) (project : String) :
    (c.invalidateProject project).2.Settled :=
  (h.bump project).dropped (.invalidateProject c project)

/-- The documents of a project are dropped before the next look at the retired ones. -/
theorem Settled.retire (h : c.Settled) (project : String) : (c.retire project).2.Settled := by
  have hi : (c.invalidateProject project).2.Settled := h.invalidateProject project
  exact { hi with
    active := fun e he => by
      have hne : e.1.project ≠ project := project_ne_of_mem_invalidateProject he
      have hold : e.1.project ∉ c.retired := hi.active e he
      change e.1.project ∉ project :: c.retired.filter (· ≠ project)
      simp [hne, hold] }

theorem Settled.activate (h : c.Settled) (project : String) : (c.activate project).Settled :=
  { h.bump project with
    active := fun e he hr => h.active e he (List.mem_filter.mp hr).1 }

theorem Settled.clear (h : c.Settled) : c.clear.2.Settled where
  footprint_eq := rfl
  keys_nodup := .nil
  uses_nodup := .nil
  uses_le _ he := nomatch he
  belongs _ he := nomatch he
  active _ he := nomatch he
  fits := .inl (Nat.zero_le _)
  idle := h.idle

/-- Each operation of a cache keeps its accounts. -/
theorem Settled.apply (h : c.Settled) (o : Operation) : (o.apply c).Settled := by
  cases o with
  | get parser now file source language => exact h.get parser now file source language
  | invalidate key => exact h.dropped (.invalidate c key)
  | invalidateProject project => exact h.invalidateProject project
  | retire project => exact h.retire project
  | activate project => exact h.activate project
  | clear => exact h.clear

theorem Settled.run (h : c.Settled) (operations : List Operation) :
    (c.run operations).Settled := by
  induction operations generalizing c with
  | nil => exact h
  | cons o rest ih => exact ih (h.apply o)

/-! ## Settings -/

theorem apply_settings (c : Cache) (o : Operation) : (o.apply c).settings = c.settings := by
  cases o with
  | get parser now file source language =>
    change (c.get parser now file source language).2.settings = c.settings
    rcases hget : c.get parser now file source language with ⟨answer, d⟩
    cases gets hget with
    | stored hon ha hr hp =>
      exact (Dropped.evict _ now _).settings
    | _ => rfl
  | _ => rfl

theorem run_settings (c : Cache) (operations : List Operation) :
    (c.run operations).settings = c.settings := by
  induction operations generalizing c with
  | nil => rfl
  | cons o rest ih => exact (ih _).trans (apply_settings c o)

/-- **The accounts of a cache are true after every run.**  Whatever the settings, and whatever was
asked for, invalidated, retired, activated and cleared in whatever order, the footprint is the room
of the slots that are kept, each under a key of its own to which its document belongs, no two of
them used at the same tick; they fit, or there is but one; none is of a retired project; and nothing
is left being read.  In particular no footprint that could be taken off is too large. -/
theorem settled_run_new (settings : Settings) (operations : List Operation) :
    ((new settings).run operations).Settled ∧
      ((new settings).run operations).settings = settings ∧
      ∀ p, room (((new settings).run operations).slots.filter p) ≤
        ((new settings).run operations).footprint := by
  have h := (settled_new settings).run operations
  refine ⟨h, run_settings (new settings) operations, fun p => ?_⟩
  rw [h.footprint_eq]
  exact room_filter_le p _

end Cache

end CodeAtlas
