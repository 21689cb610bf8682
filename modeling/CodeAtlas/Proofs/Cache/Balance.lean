import CodeAtlas.Proofs.Cache.Accounting

/-!
# The counters of a cache balance

Counting is done apart from the change that is counted: a miss when something is read, an eviction
when room is made, an invalidation when slots are dropped by name.  This file holds the counters
against what can be seen from outside, the operations and the keys that were there before each of
them (`Tally`).

Every document that was read and stored is still there, or was evicted, or was invalidated, or had
its place taken by a later one.  `Balanced` says this as one equation, and each operation keeps it:
`Gets` gives the cases of asking for a document, and whatever drops slots drops as many as it counts.
-/

namespace CodeAtlas.Cache

variable {c d : Cache} {key : Key}

/-! ## How many slots there are -/

theorem size_dropWhere (c : Cache) (p : Key → Slot → Bool) :
    (c.dropWhere p).1 + (c.dropWhere p).2.size = c.size :=
  (List.length_eq_length_filter_add (l := c.slots) fun e => p e.1 e.2).symm

/-- Where keys occur once, a key picks out one slot or none. -/
theorem Consistent.length_filter_key (h : c.Consistent) (key : Key) :
    (c.slots.filter fun e => decide (e.1 = key)).length = (c.contains key).toNat := by
  have hsize := size_dropWhere c fun k _ => k = key
  change (c.slots.filter fun e => decide (e.1 = key)).length + _ = c.slots.length at hsize
  rw [contains, find?]
  cases hfind : c.slots.lookup key with
  | none =>
    have hkey := lookup_eq_none_iff_notMem.mp hfind
    have hnone : c.slots.filter (fun e => decide (e.1 = key)) = [] :=
      List.filter_eq_nil_iff.mpr fun e he hek =>
        hkey (List.mem_map.mpr ⟨e, he, of_decide_eq_true hek⟩)
    rw [hnone]
    rfl
  | some slot =>
    have hperm := perm_cons_filter_key h.keys_nodup (mem_of_lookup_eq_some hfind)
    have hrest : (c.dropWhere fun k _ => k = key).2.size + 1 = c.slots.length :=
      hperm.length_eq.symm
    simp only [Option.isSome_some, Bool.toNat_true]
    omega

/-- A document that is stored makes one slot more, unless it takes the place of another. -/
theorem Consistent.size_put (h : c.Consistent) (now : Nat) (key : Key) (doc : Document) :
    (c.put now key doc).size + (c.contains key).toNat = c.size + 1 := by
  have hsize := size_dropWhere c fun k _ => k = key
  change (c.slots.filter fun e => decide (e.1 = key)).length + _ = c.size at hsize
  rw [h.length_filter_key] at hsize
  change (c.dropWhere fun k _ => k = key).2.size + 1 + _ = _
  omega

/-! ## What making room counts -/

theorem counts_evictWhere (c : Cache) (p : Key → Slot → Bool) :
    (c.evictWhere p).counts =
      { c.counts with evictions := c.counts.evictions + (c.dropWhere p).1 } := rfl

theorem exists_counts_shrink (keep : Key) (fuel : Nat) (c : Cache) :
    ∃ n, (shrink keep fuel c).counts =
      { c.counts with evictions := c.counts.evictions + n } := by
  induction fuel generalizing c with
  | zero => exact ⟨0, rfl⟩
  | succ fuel ih =>
    rw [shrink_succ]
    split
    · exact ⟨0, rfl⟩
    · split
      · rename_i key slot _
        obtain ⟨n, hn⟩ := ih (c.evictWhere fun k _ => k = key)
        refine ⟨(c.dropWhere fun k _ => k = key).1 + n, ?_⟩
        rw [hn, counts_evictWhere, Nat.add_assoc]
      · exact ⟨0, rfl⟩

/-- Making room counts nothing but evictions. -/
theorem exists_counts_evict (c : Cache) (now : Nat) (keep : Key) :
    ∃ n, (c.evict now keep).counts =
      { c.counts with evictions := c.counts.evictions + n } := by
  obtain ⟨n, hn⟩ := exists_counts_shrink keep c.slots.length c
  rw [evict, expire_eq, counts_evictWhere, hn]
  exact ⟨_, congrArg (Counts.mk _ _ · _ _) (Nat.add_assoc _ _ _)⟩

/-! ## What can be seen from outside -/

/-- What a run of operations comes to, without a look at the counters. -/
structure Tally where
  /-- Documents that were asked for. -/
  asked : Nat := 0
  /-- Documents that took the place of what their key had. -/
  replaced : Nat := 0
  /-- Documents that were read for a retired project. -/
  refused : Nat := 0
  /-- Sources that could not be read. -/
  unread : Nat := 0
  /-- Slots that the invalidating operations said they dropped. -/
  reported : Nat := 0
deriving DecidableEq, Repr

def Tally.add (t u : Tally) : Tally where
  asked := t.asked + u.asked
  replaced := t.replaced + u.replaced
  refused := t.refused + u.refused
  unread := t.unread + u.unread
  reported := t.reported + u.reported

/-- What one operation adds, given the cache before it. -/
def Operation.tally (c : Cache) : Operation → Tally
  | get parser now file source language =>
    let key := Key.of file.project file.relative
    match c.answering? now key (.of file.modified source) language,
      read parser file source language with
    | some _, _ => { asked := 1 }
    | none, .error _ => { asked := 1, unread := 1 }
    | none, .ok _ =>
      if file.project ∈ c.retired then { asked := 1, refused := 1 }
      else { asked := 1, replaced := (c.contains key).toNat }
  | invalidate key => { reported := (c.invalidate key).1.toNat }
  | invalidateProject project => { reported := (c.invalidateProject project).1 }
  | retire project => { reported := (c.retire project).1 }
  | activate _ => {}
  | clear => { reported := c.clear.1 }

def tally (c : Cache) : List Operation → Tally
  | [] => {}
  | o :: rest => (o.tally c).add (tally (o.apply c) rest)

/-- The source that is asked for, if one is, can be read. -/
def Operation.Readable : Operation → Prop
  | get parser _ _ source language => (parser language source).isSome
  | _ => True

theorem Operation.unread_tally {o : Operation} (h : o.Readable) (c : Cache) :
    (o.tally c).unread = 0 := by
  cases o with
  | get parser now file source language =>
    obtain ⟨tree, htree⟩ := Option.isSome_iff_exists.mp h
    have hread : ∃ doc, read parser file source language = .ok doc := by simp [read, htree]
    obtain ⟨doc, hdoc⟩ := hread
    simp only [tally, hdoc]
    split
    · rfl
    · rename_i heq
      cases heq
    · split <;> rfl
  | _ => rfl

theorem unread_tally {operations : List Operation} (h : ∀ o ∈ operations, o.Readable)
    (c : Cache) : (c.tally operations).unread = 0 := by
  induction operations generalizing c with
  | nil => rfl
  | cons o rest ih =>
    obtain ⟨ho, hrest⟩ := List.forall_mem_cons.mp h
    change (o.tally c).unread + (tally (o.apply c) rest).unread = 0
    rw [o.unread_tally ho, ih hrest]

/-! ## Balance -/

/-- The counters of a cache that is in use agree with a tally. -/
structure Balanced (c : Cache) (t : Tally) : Prop where
  on : c.settings.enabled = true
  settled : c.Settled
  answered : c.counts.hits + c.counts.misses = t.asked
  parses : c.counts.parses = c.counts.misses
  kept : c.counts.misses = c.size + c.counts.evictions + c.counts.invalidations + t.replaced +
    t.refused + t.unread
  reported : t.reported = c.counts.invalidations

theorem balanced_new {settings : Settings} (hon : settings.enabled = true) :
    (new settings).Balanced {} where
  on := hon
  settled := settled_new settings
  answered := rfl
  parses := rfl
  kept := rfl
  reported := rfl

namespace Balanced

variable {t : Tally}

theorem stored (h : c.Balanced t) {doc : Document} (now : Nat) (hb : doc.BelongsTo key)
    (ha : key.project ∉ c.retired) :
    (c.stored now key doc).Balanced
      (t.add { asked := 1, replaced := (c.contains key).toNat }) := by
  have hsize : ((c.missed key).put now key doc).size + (c.contains key).toNat = c.size + 1 :=
    (h.settled.toConsistent.missed key).size_put now key doc
  have hroom := evictions_add_size_evict ((c.missed key).put now key doc) now key
  obtain ⟨n, hn⟩ := exists_counts_evict ((c.missed key).put now key doc) now key
  have hanswered := h.answered
  have hparses := h.parses
  have hkept := h.kept
  -- Between the miss and the eviction the counters are those of the miss.
  change (Cache.stored c now key doc).counts = _ at hn
  change (Cache.stored c now key doc).counts.evictions + (Cache.stored c now key doc).size =
    c.counts.evictions + _ at hroom
  exact {
    on := by
      rw [Cache.stored, (Dropped.evict ((c.missed key).put now key doc) now key).settings]
      exact h.on
    settled := h.settled.stored now hb ha
    answered := by
      rw [hn]
      change c.counts.hits + (c.counts.misses + 1) = t.asked + 1
      omega
    parses := by
      rw [hn]
      exact congrArg (· + 1) hparses
    kept := by
      rw [hn] at hroom ⊢
      change c.counts.evictions + n + _ = _ at hroom
      change c.counts.misses + 1 = _ + (c.counts.evictions + n) + c.counts.invalidations +
        (t.replaced + (c.contains key).toNat) + t.refused + t.unread
      omega
    reported := by
      rw [hn]
      exact h.reported }

theorem get (h : c.Balanced t) (parser : Syntax.Parser Language) (now : Nat) (file : FileRef)
    (source : List UInt8) (language : Language) :
    (c.get parser now file source language).2.Balanced
      (t.add ((Operation.get parser now file source language).tally c)) := by
  have hanswered := h.answered
  have hparses := h.parses
  have hkept := h.kept
  rcases hget : c.get parser now file source language with ⟨answer, d⟩
  cases gets hget with
  | off hoff => exact absurd h.on (by simp [hoff])
  | hit hon ha =>
    simp only [Operation.tally, ha]
    exact { h with
      settled := h.settled.hit _
      answered := by
        change c.counts.hits + 1 + c.counts.misses = t.asked + 1
        omega
      kept := by
        have hsize : (c.hit (.of file.project file.relative)).size = c.size := by
          simp [size, hit_slots]
        rw [hsize]
        exact hkept }
  | unread hon ha hr =>
    simp only [Operation.tally, ha, hr]
    exact {
      on := h.on
      settled := h.settled.missed _
      answered := congrArg (· + 1) hanswered
      parses := congrArg (· + 1) hparses
      kept := congrArg (· + 1) hkept
      reported := h.reported }
  | refused hon ha hr hp =>
    simp only [Operation.tally, ha, hr, if_pos hp]
    exact {
      on := h.on
      settled := h.settled.missed _
      answered := congrArg (· + 1) hanswered
      parses := congrArg (· + 1) hparses
      kept := by
        change c.counts.misses + 1 = c.size + c.counts.evictions + c.counts.invalidations +
          t.replaced + (t.refused + 1) + t.unread
        omega
      reported := h.reported }
  | stored hon ha hr hp =>
    simp only [Operation.tally, ha, hr, if_neg hp]
    exact h.stored now (read_belongsTo hr) hp

/-- Slots are dropped and counted as invalidated. -/
theorem invalidated (h : c.Balanced t) {n : Nat} (hd : d.Settled) (hset : d.settings = c.settings)
    (hsize : n + d.size = c.size)
    (hcounts : d.counts = { c.counts with invalidations := c.counts.invalidations + n }) :
    d.Balanced (t.add { reported := n }) where
  on := hset ▸ h.on
  settled := hd
  answered := by
    rw [hcounts]
    exact h.answered
  parses := by
    rw [hcounts]
    exact h.parses
  kept := by
    have hkept := h.kept
    rw [hcounts]
    change c.counts.misses = d.size + c.counts.evictions + (c.counts.invalidations + n) +
      t.replaced + t.refused + t.unread
    omega
  reported := by
    rw [hcounts]
    exact congrArg (· + n) h.reported

/-- One operation. -/
theorem apply (h : c.Balanced t) (o : Operation) : (o.apply c).Balanced (t.add (o.tally c)) := by
  have hsettled := h.settled.apply o
  cases o with
  | get parser now file source language => exact h.get parser now file source language
  | invalidate key =>
    have hlength := h.settled.toConsistent.length_filter_key key
    have htold : (c.invalidate key).1.toNat =
        (c.slots.filter fun e => decide (e.1 = key)).length := by
      change (decide ((c.slots.filter fun e => decide (e.1 = key)).length > 0)).toNat = _
      rw [hlength]
      cases c.contains key <;> rfl
    simp only [Operation.tally, htold]
    exact h.invalidated hsettled rfl (size_dropWhere c fun k _ => k = key) rfl
  | invalidateProject project =>
    exact h.invalidated hsettled rfl (size_dropWhere c fun k _ => k.project = project) rfl
  | retire project =>
    exact h.invalidated hsettled rfl (size_dropWhere c fun k _ => k.project = project) rfl
  | activate project =>
    exact { h with settled := hsettled }
  | clear => exact h.invalidated hsettled rfl rfl rfl

/-- A whole run. -/
theorem run (h : c.Balanced t) (operations : List Operation) :
    (c.run operations).Balanced (t.add (c.tally operations)) := by
  induction operations generalizing c t with
  | nil => exact h
  | cons o rest ih =>
    have hadd : t.add (c.tally (o :: rest)) =
        (t.add (o.tally c)).add (tally (o.apply c) rest) := by
      simp only [tally, Tally.add, Nat.add_assoc]
    rw [hadd]
    exact ih (h.apply o)

end Balanced

/-! ## A cache that is switched off -/

/-- Nothing is kept, and nothing is counted but what was read. -/
structure Unused (c : Cache) (asked : Nat) : Prop where
  off : c.settings.enabled = false
  slots : c.slots = []
  footprint : c.footprint = 0
  counts : c.counts = { parses := asked }

theorem Unused.apply {n : Nat} (h : c.Unused n) (o : Operation) :
    (o.apply c).Unused (n + (o.tally c).asked) := by
  obtain ⟨hoff, hslots, hfootprint, hcounts⟩ := h
  cases o with
  | get parser now file source language =>
    have hasked : ((Operation.get parser now file source language).tally c).asked = 1 := by
      simp only [Operation.tally]
      split
      · rfl
      · rfl
      · split <;> rfl
    rw [hasked]
    change (c.get parser now file source language).2.Unused (n + 1)
    rw [get_of_off hoff]
    exact ⟨hoff, hslots, hfootprint, by rw [countParse, hcounts]⟩
  | activate project => exact ⟨hoff, hslots, hfootprint, hcounts⟩
  | clear => exact ⟨hoff, rfl, rfl, by simp [Operation.apply, clear, countInvalidations, size,
      hslots, hcounts, Operation.tally]⟩
  | _ =>
    refine ⟨hoff, ?_, ?_, ?_⟩ <;>
      simp [Operation.apply, Operation.tally, Cache.invalidate, Cache.invalidateProject,
        Cache.retire, dropWhere, bump, countInvalidations, hslots, hfootprint, hcounts]

theorem Unused.run {n : Nat} (h : c.Unused n) (operations : List Operation) :
    (c.run operations).Unused (n + (c.tally operations).asked) := by
  induction operations generalizing c n with
  | nil => exact h
  | cons o rest ih =>
    have hrest := ih (h.apply o)
    rw [Nat.add_assoc] at hrest
    exact hrest

/-- **The counters of a cache balance.**  Whatever the settings and the times, after any operations
in which each source that is asked for can be read, a cache that is in use has counted a hit or a
miss for each document asked for and has read one for each miss; each of those is still kept, was
evicted, was invalidated, had its place taken by a later one of its key, or was read for a retired
project; and the invalidations are what the invalidating operations said they dropped.  A cache that
is switched off counts what it reads, one for each document asked for, and nothing else, and keeps
nothing. -/
theorem counters_balance (settings : Settings) (operations : List Operation) :
    let stats := ((new settings).run operations).stats
    let tally := (new settings).tally operations
    (settings.enabled = true → (∀ o ∈ operations, o.Readable) →
      stats.counts.hits + stats.counts.misses = tally.asked ∧
      stats.counts.parses = stats.counts.misses ∧
      stats.counts.misses = stats.entries + stats.counts.evictions + stats.counts.invalidations +
        tally.replaced + tally.refused ∧
      tally.reported = stats.counts.invalidations) ∧
    (settings.enabled = false →
      stats.counts = { parses := tally.asked } ∧ stats.entries = 0 ∧ stats.footprint = 0) := by
  intro stats tally
  refine ⟨fun hon hreadable => ?_, fun hoff => ?_⟩
  · have h := (balanced_new hon).run operations
    have hzero (t : Tally) : ({} : Tally).add t = t := by simp [Tally.add]
    rw [hzero] at h
    have hkept := h.kept
    rw [unread_tally hreadable] at hkept
    exact ⟨h.answered, h.parses, hkept, h.reported⟩
  · have h : (new settings).Unused 0 := ⟨hoff, rfl, rfl, rfl⟩
    have hrun := h.run operations
    rw [Nat.zero_add] at hrun
    exact ⟨hrun.counts, congrArg List.length hrun.slots, hrun.footprint⟩

/-- A parser that makes the same small tree of every source. -/
def leafParser : Syntax.Parser Language := fun _ _ => some (.ofRoot default false)

/-- A request at some time for an empty file, last changed at another. -/
def ask (name : String) (modified now : Nat) : Operation :=
  .get leafParser now ⟨"p", [name], ["w", "p", name], 0, some modified⟩ [] .python

/-- A file is asked for twice, changes, and gives way to another, for which there is no room beside
it; that one is dropped by name, and then the project is gone. -/
def busyRun : List Operation :=
  [ask "a.py" 1 0, ask "a.py" 1 1, ask "a.py" 2 2, ask "b.py" 1 3,
    .invalidate (.of "p" ["b.py"]), .retire "p", ask "a.py" 2 4, .clear]

/-- In this run a document ends in each of the ways there are, but for being kept. -/
theorem counters_balance_busyRun :
    let stats := ((new { maxBytes := 400 }).run busyRun).stats
    let tally := (new { maxBytes := 400 }).tally busyRun
    (∀ o ∈ busyRun, o.Readable) ∧ stats.counts = ⟨1, 4, 1, 1, 4⟩ ∧ tally = ⟨5, 1, 1, 0, 1⟩ ∧
      stats.counts.hits + stats.counts.misses = tally.asked ∧
      stats.counts.parses = stats.counts.misses ∧
      stats.counts.misses = stats.entries + stats.counts.evictions + stats.counts.invalidations +
        tally.replaced + tally.refused ∧
      tally.reported = stats.counts.invalidations := by
  have hreadable : ∀ o ∈ busyRun, o.Readable := by
    simp only [busyRun, List.forall_mem_cons]
    exact ⟨rfl, rfl, rfl, rfl, trivial, trivial, rfl, trivial, fun _ h => nomatch h⟩
  have hseen : ((new { maxBytes := 400 }).run busyRun).stats.counts = ⟨1, 4, 1, 1, 4⟩ ∧
      (new { maxBytes := 400 }).tally busyRun = ⟨5, 1, 1, 0, 1⟩ := by decide +kernel
  exact ⟨hreadable, hseen.1, hseen.2,
    (counters_balance { maxBytes := 400 } busyRun).1 rfl hreadable⟩

end CodeAtlas.Cache
