import CodeAtlas.Proofs.Cache.Slots

/-!
# The steps of a cache

What each operation of a cache does to it, said once.  Everything that makes room comes down to
`Dropped`, and everything that asks for a document to one of the five cases of `Gets`.  No proof
about a cache needs to open `get`, `shrink` or `expire` again.

Two readers are told apart by their tickets only while both are at work.  Here one operation ends
before the next one starts, so a ticket is always good unless the project is retired.
-/

namespace CodeAtlas.Cache

variable {c d : Cache} {key keep : Key} {now : Nat}

@[simp] theorem put_slots (c : Cache) (now : Nat) (key : Key) (d : Document) :
    (c.put now key d).slots =
      (key, ⟨d, c.tick + 1, now⟩) :: c.slots.filter fun e => !decide (e.1 = key) := rfl

/-! ## Dropping -/

/-- `d` is `c` after some slots were dropped.  Nothing else has changed, apart from what has been
counted. -/
structure Dropped (c d : Cache) : Prop where
  slots : d.slots.Sublist c.slots
  footprint : c.footprint = room c.slots → d.footprint = room d.slots
  settings : d.settings = c.settings
  pending : d.pending = c.pending
  generations : d.generations = c.generations
  retired : d.retired = c.retired
  tick : d.tick = c.tick
  hits : d.counts.hits = c.counts.hits
  misses : d.counts.misses = c.counts.misses

namespace Dropped

theorem refl (c : Cache) : Dropped c c :=
  ⟨.refl _, id, rfl, rfl, rfl, rfl, rfl, rfl, rfl⟩

theorem trans {a b c : Cache} (h : Dropped a b) (h' : Dropped b c) : Dropped a c where
  slots := h'.slots.trans h.slots
  footprint := h'.footprint ∘ h.footprint
  settings := h'.settings.trans h.settings
  pending := h'.pending.trans h.pending
  generations := h'.generations.trans h.generations
  retired := h'.retired.trans h.retired
  tick := h'.tick.trans h.tick
  hits := h'.hits.trans h.hits
  misses := h'.misses.trans h.misses

theorem dropWhere (c : Cache) (p : Key → Slot → Bool) : Dropped c (c.dropWhere p).2 where
  slots := List.filter_sublist
  footprint h := by
    have hr := room_filter_add_room_filter_not (fun e => p e.1 e.2) c.slots
    change c.footprint - room (c.slots.filter fun e => p e.1 e.2) =
      room (c.slots.filter fun e => !p e.1 e.2)
    omega
  settings := rfl
  pending := rfl
  generations := rfl
  retired := rfl
  tick := rfl
  hits := rfl
  misses := rfl

theorem countEvictions (h : Dropped c d) (n : Nat) : Dropped c (d.countEvictions n) :=
  { h with }

theorem countInvalidations (h : Dropped c d) (n : Nat) : Dropped c (d.countInvalidations n) :=
  { h with }

theorem size_le (h : Dropped c d) : d.size ≤ c.size := h.slots.length_le

theorem footprint_le (h : Dropped c d) (hc : c.footprint = room c.slots) :
    d.footprint ≤ c.footprint := by
  rw [h.footprint hc, hc]
  exact room_le_of_sublist h.slots

end Dropped

/-! ## Making room -/

/-- Evict the slots that a condition picks out. -/
def evictWhere (c : Cache) (p : Key → Slot → Bool) : Cache :=
  (c.dropWhere p).2.countEvictions (c.dropWhere p).1

@[simp] theorem evictWhere_slots (c : Cache) (p : Key → Slot → Bool) :
    (c.evictWhere p).slots = c.slots.filter fun e => !p e.1 e.2 := rfl

theorem Dropped.evictWhere (c : Cache) (p : Key → Slot → Bool) : Dropped c (c.evictWhere p) :=
  (Dropped.dropWhere c p).countEvictions _

/-- One turn of the loop that makes room. -/
theorem shrink_succ (keep : Key) (fuel : Nat) (c : Cache) :
    shrink keep (fuel + 1) c =
      if c.footprint ≤ c.settings.maxBytes then c
      else match oldest? keep c.slots with
        | some (key, _) => shrink keep fuel (c.evictWhere fun k _ => k = key)
        | none => c := rfl

theorem expire_eq (c : Cache) (now : Nat) (keep : Key) :
    c.expire now keep =
      c.evictWhere fun key slot => key ≠ keep && c.settings.expired now slot.parsedAt := rfl

theorem Dropped.shrink (keep : Key) (fuel : Nat) (c : Cache) :
    Dropped c (Cache.shrink keep fuel c) := by
  induction fuel generalizing c with
  | zero => exact .refl c
  | succ fuel ih =>
    rw [shrink_succ]
    split
    · exact .refl c
    · split
      · exact .trans (.evictWhere c _) (ih _)
      · exact .refl c

theorem Dropped.expire (c : Cache) (now : Nat) (keep : Key) : Dropped c (c.expire now keep) := by
  rw [expire_eq]
  exact .evictWhere c _

theorem Dropped.evict (c : Cache) (now : Nat) (keep : Key) : Dropped c (c.evict now keep) :=
  .trans (.shrink keep _ c) (.expire _ now keep)

/-- The slot to be kept is never dropped to make room. -/
theorem mem_shrink {e : Key × Slot} (fuel : Nat) (he : e ∈ c.slots) (hk : e.1 = keep) :
    e ∈ (shrink keep fuel c).slots := by
  induction fuel generalizing c with
  | zero => exact he
  | succ fuel ih =>
    rw [shrink_succ]
    split
    · exact he
    · split
      · rename_i key slot ho
        have hne : key ≠ keep := (oldest?_spec ho).2.1
        refine ih ?_
        simpa [he, hk] using fun h => hne h.symm
      · exact he

theorem mem_evict {e : Key × Slot} (he : e ∈ c.slots) (hk : e.1 = keep) :
    e ∈ (c.evict now keep).slots := by
  have hs := mem_shrink c.slots.length he hk
  change e ∈ ((shrink keep c.slots.length c).slots.filter _)
  simp [hs, hk]

/-- Whatever is evicted is counted. -/
theorem evictions_add_size_evictWhere (c : Cache) (p : Key → Slot → Bool) :
    (c.evictWhere p).counts.evictions + (c.evictWhere p).size = c.counts.evictions + c.size := by
  have hlength := List.length_eq_length_filter_add (l := c.slots) fun e => p e.1 e.2
  change c.counts.evictions + (c.slots.filter fun e => p e.1 e.2).length +
    (c.slots.filter fun e => !p e.1 e.2).length = c.counts.evictions + c.slots.length
  omega

theorem evictions_add_size_shrink (keep : Key) (fuel : Nat) (c : Cache) :
    (shrink keep fuel c).counts.evictions + (shrink keep fuel c).size =
      c.counts.evictions + c.size := by
  induction fuel generalizing c with
  | zero => rfl
  | succ fuel ih =>
    rw [shrink_succ]
    split
    · rfl
    · split
      · exact (ih _).trans (evictions_add_size_evictWhere c _)
      · rfl

theorem evictions_add_size_evict (c : Cache) (now : Nat) (keep : Key) :
    (c.evict now keep).counts.evictions + (c.evict now keep).size =
      c.counts.evictions + c.size := by
  rw [evict, expire_eq, evictions_add_size_evictWhere, evictions_add_size_shrink]

/-- The loop that makes room is at its end: what is left fits, or there is nothing to drop. -/
def RoomMade (keep : Key) (c : Cache) : Prop :=
  c.footprint ≤ c.settings.maxBytes ∨ oldest? keep c.slots = none

theorem shrink_of_roomMade (h : RoomMade keep c) (fuel : Nat) : shrink keep fuel c = c := by
  cases fuel with
  | zero => rfl
  | succ fuel =>
    rw [shrink_succ]
    rcases h with h | h
    · rw [if_pos h]
    · rw [h, ite_self]

/-- The loop that makes room ends, since each turn drops a slot: as many turns as there are slots
are always enough. -/
theorem roomMade_shrink (keep : Key) (fuel : Nat) (h : c.slots.length ≤ fuel) :
    RoomMade keep (shrink keep fuel c) := by
  induction fuel generalizing c with
  | zero =>
    refine .inr (oldest?_eq_none_iff.mpr fun e he => ?_)
    simp [shrink, List.eq_nil_of_length_eq_zero (Nat.le_zero.mp h)] at he
  | succ fuel ih =>
    rw [shrink_succ]
    split
    · exact .inl ‹_›
    · split
      · rename_i key slot ho
        refine ih ?_
        have hm : (key, slot) ∈ c.slots := (oldest?_spec ho).1
        have hlt : (c.slots.filter fun e => !decide (e.1 = key)).length < c.slots.length :=
          List.length_filter_lt_length_iff_exists.mpr ⟨_, hm, by simp⟩
        rw [evictWhere_slots]
        omega
      · exact .inr ‹_›

/-! ## Getting a document -/

/-- The slot that answers a request, if there is one. -/
def answering? (c : Cache) (now : Nat) (key : Key) (fingerprint : Fingerprint)
    (language : Language) : Option Slot :=
  (c.find? key).filter fun slot => slot.answers c.settings now fingerprint language

/-- The cache after a slot has answered. -/
def hit (c : Cache) (key : Key) : Cache :=
  { ({ c with tick := c.tick + 1 } : Cache).touch key with counts.hits := c.counts.hits + 1 }

theorem hit_slots (c : Cache) (key : Key) :
    (c.hit key).slots = c.slots.map (useAt key (c.tick + 1)) := rfl

/-- The cache after no slot has answered, when nothing is stored.  It was looked through twice. -/
def missed (c : Cache) (key : Key) : Cache :=
  { c with
    tick := c.tick + 2
    pending := c.pending.filter fun k => k ≠ key
    counts.misses := c.counts.misses + 1
    counts.parses := c.counts.parses + 1 }

/-- The cache after a document that was read is stored. -/
def stored (c : Cache) (now : Nat) (key : Key) (d : Document) : Cache :=
  ((c.missed key).put now key d).evict now key

theorem lookup_of_answering {fingerprint : Fingerprint} {language : Language} {slot : Slot}
    (h : c.answering? now key fingerprint language = some slot) :
    c.lookup now key fingerprint language = (some slot.document, c.hit key) := by
  obtain ⟨hf, ha⟩ := Option.filter_eq_some_iff.mp h
  have hf' : find? { c with tick := c.tick + 1 } key = some slot := hf
  simp only [lookup, hf', ha, if_true]
  rfl

theorem lookup_of_not_answering {fingerprint : Fingerprint} {language : Language}
    (h : c.answering? now key fingerprint language = none) :
    c.lookup now key fingerprint language = (none, { c with tick := c.tick + 1 }) := by
  rw [lookup]
  split
  · rename_i slot hf
    exact if_neg (Option.filter_eq_none_iff.mp h slot hf)
  · rfl

/-- All that can happen when a document is asked for, with the answer and the cache after it. -/
inductive Gets (c : Cache) (parser : Syntax.Parser Language) (now : Nat) (file : FileRef)
    (source : List UInt8) (language : Language) : Except Error Document → Cache → Prop
  | off (hoff : c.settings.enabled = false) :
    Gets c parser now file source language (read parser file source language) c.countParse
  | hit {slot : Slot} (hon : c.settings.enabled = true)
    (h : c.answering? now (.of file.project file.relative) (.of file.modified source) language =
      some slot) :
    Gets c parser now file source language (.ok slot.document)
      (c.hit (.of file.project file.relative))
  | unread {e : Error} (hon : c.settings.enabled = true)
    (h : c.answering? now (.of file.project file.relative) (.of file.modified source) language =
      none)
    (hr : read parser file source language = .error e) :
    Gets c parser now file source language (.error e) (c.missed (.of file.project file.relative))
  | refused {d : Document} (hon : c.settings.enabled = true)
    (h : c.answering? now (.of file.project file.relative) (.of file.modified source) language =
      none)
    (hr : read parser file source language = .ok d) (hp : file.project ∈ c.retired) :
    Gets c parser now file source language (.ok d) (c.missed (.of file.project file.relative))
  | stored {d : Document} (hon : c.settings.enabled = true)
    (h : c.answering? now (.of file.project file.relative) (.of file.modified source) language =
      none)
    (hr : read parser file source language = .ok d) (hp : file.project ∉ c.retired) :
    Gets c parser now file source language (.ok d)
      (c.stored now (.of file.project file.relative) d)

theorem get_of_off {parser : Syntax.Parser Language} {file : FileRef} {source : List UInt8}
    {language : Language} (hoff : c.settings.enabled = false) :
    c.get parser now file source language =
      (read parser file source language, c.countParse) := by
  simp [get, hoff]

theorem get_of_answering {parser : Syntax.Parser Language} {file : FileRef}
    {source : List UInt8} {language : Language} {slot : Slot}
    (hon : c.settings.enabled = true)
    (h : c.answering? now (.of file.project file.relative) (.of file.modified source) language =
      some slot) :
    c.get parser now file source language =
      (.ok slot.document, c.hit (.of file.project file.relative)) := by
  simp [get, hon, lookup_of_answering h]

/-- Giving a ticket back leaves no trace of it. -/
theorem filter_pending (pending : List Key) (key : Key) :
    (if pending.contains key then pending else key :: pending).filter (fun k => k ≠ key) =
      pending.filter fun k => k ≠ key := by
  split
  · rfl
  · rw [List.filter_cons_of_neg (by simp)]

/-- What comes of a request that no slot answers.  The ticket that is taken in between is still
good when it is presented. -/
theorem get_of_not_answering {parser : Syntax.Parser Language} {file : FileRef}
    {source : List UInt8} {language : Language} (hon : c.settings.enabled = true)
    (h : c.answering? now (.of file.project file.relative) (.of file.modified source) language =
      none) :
    c.get parser now file source language =
      match read parser file source language with
      | .error e => (.error e, c.missed (.of file.project file.relative))
      | .ok d => (.ok d,
        if file.project ∈ c.retired then c.missed (.of file.project file.relative)
        else c.stored now (.of file.project file.relative) d) := by
  generalize hk : Key.of file.project file.relative = key at h ⊢
  generalize hf : Fingerprint.of file.modified source = fingerprint at h
  have hproject : key.project = file.project := by rw [← hk]; rfl
  have hagain (p : List Key) :
      ({ c with tick := c.tick + 1, pending := p } : Cache).lookup now key fingerprint language =
        (none, { c with tick := c.tick + 2, pending := p }) := lookup_of_not_answering h
  have hmissed (n : Nat) :
      ({ c with
          tick := c.tick + 2
          pending := if c.pending.contains key then c.pending else key :: c.pending
          counts.misses := c.counts.misses + 1 } : Cache).countParse.release ⟨key, n⟩ =
        c.missed key := by
    simp only [countParse, release, filter_pending, missed]
  simp only [get, hon, hk, hf, lookup_of_not_answering h, takeTicket, hagain, readWith]
  cases read parser file source language with
  | error e => exact congrArg (Prod.mk _) (hmissed _)
  | ok d =>
    refine congrArg (Prod.mk _) ?_
    rw [present, hmissed, hproject]
    by_cases hp : file.project ∈ c.retired
    · simp [missed, hp]
    · simp [missed, hp, generation, stored]

/-- Asking for a document is one of the five cases. -/
theorem gets {parser : Syntax.Parser Language} {file : FileRef} {source : List UInt8}
    {language : Language} {answer : Except Error Document}
    (hget : c.get parser now file source language = (answer, d)) :
    c.Gets parser now file source language answer d := by
  cases hon : c.settings.enabled with
  | false =>
    rw [get_of_off hon] at hget
    cases hget
    exact .off hon
  | true =>
    cases h : c.answering? now (.of file.project file.relative) (.of file.modified source)
        language with
    | some slot =>
      rw [get_of_answering hon h] at hget
      cases hget
      exact .hit hon h
    | none =>
      rw [get_of_not_answering hon h] at hget
      cases hr : read parser file source language with
      | error e =>
        rw [hr] at hget
        cases hget
        exact .unread hon h hr
      | ok doc =>
        rw [hr] at hget
        cases hget
        by_cases hp : file.project ∈ c.retired
        · rw [if_pos hp]
          exact .refused hon h hr hp
        · rw [if_neg hp]
          exact .stored hon h hr hp

/-! ## Invalidation -/

theorem Dropped.invalidate (c : Cache) (key : Key) : Dropped c (c.invalidate key).2 :=
  (Dropped.dropWhere c fun k _ => k = key).countInvalidations _

theorem Dropped.invalidateProject (c : Cache) (project : String) :
    Dropped (c.bump project) (c.invalidateProject project).2 :=
  (Dropped.dropWhere (c.bump project) fun key _ => key.project = project).countInvalidations _

/-- No document of a project that was invalidated is left. -/
theorem project_ne_of_mem_invalidateProject {project : String} {e : Key × Slot}
    (he : e ∈ (c.invalidateProject project).2.slots) : e.1.project ≠ project := by
  change e ∈ c.slots.filter fun e => !decide (e.1.project = project) at he
  simpa using (List.mem_filter.mp he).2

/-! ## Runs -/

/-- The operations of a cache, with what they are given from outside. -/
inductive Operation where
  | get (parser : Syntax.Parser Language) (now : Nat) (file : FileRef) (source : List UInt8)
    (language : Language)
  | invalidate (key : Key)
  | invalidateProject (project : String)
  | retire (project : String)
  | activate (project : String)
  | clear

/-- The cache after an operation. -/
def Operation.apply (c : Cache) : Operation → Cache
  | get parser now file source language => (c.get parser now file source language).2
  | invalidate key => (c.invalidate key).2
  | invalidateProject project => (c.invalidateProject project).2
  | retire project => (c.retire project).2
  | activate project => c.activate project
  | clear => c.clear.2

/-- The cache after some operations. -/
def run (c : Cache) (operations : List Operation) : Cache :=
  operations.foldl Operation.apply c

end CodeAtlas.Cache
