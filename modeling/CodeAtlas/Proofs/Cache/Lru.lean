import CodeAtlas.Proofs.Cache.Accounting
import Mathlib.Data.List.Induction

/-!
# The cache as a list by recency

Where documents never grow too old, a cache is a list of documents with the one used last in front:
a use moves to the front, and room is made at the back.  `Lru` is that list.  It has no ticks, and
looks for nothing: its victim is its last entry.

The slots of a cache stand in no particular order, so `Refines` relates a cache to the list that
comes of sorting its slots by their ticks.  That there is only one way to sort them is
`Consistent.uses_nodup`, and that the victim of an eviction is the last one is `oldest?_eq_last`.

## What is not covered

With an age limit a slot may be dropped out of turn, and no list by recency says which.
-/

namespace CodeAtlas

/-- Documents under their keys, the one used last in front, and what has been counted. -/
structure Lru where
  entries : List (Cache.Key × Document) := []
  retired : List String := []
  hits : Nat := 0
  misses : Nat := 0
  evictions : Nat := 0

namespace Lru

open Cache (Key Operation read)

/-- The room that some entries take together. -/
def total (entries : List (Key × Document)) : Nat :=
  entries.foldr (fun e n => e.2.footprint + n) 0

/-- Drop entries at the back, one at a time, until the rest fits or only the front is left. -/
def trim (maxBytes : Nat) (entries : List (Key × Document)) : List (Key × Document) :=
  if total entries ≤ maxBytes ∨ entries.length ≤ 1 then entries else trim maxBytes entries.dropLast
termination_by entries.length
decreasing_by rw [List.length_dropLast]; omega

/-- The document that answers a request, if there is one. -/
def answering? (l : Lru) (key : Key) (fingerprint : Fingerprint) (language : Language) :
    Option Document :=
  (l.entries.lookup key).filter fun d => d.fingerprint = fingerprint ∧ d.language = language

/-- The entries under other keys. -/
def without (l : Lru) (key : Key) : List (Key × Document) :=
  l.entries.filter fun e => e.1 ≠ key

/-- Put an entry in front of those under other keys, and make room at the back. -/
def store (l : Lru) (maxBytes : Nat) (key : Key) (d : Document) : Lru :=
  let entries := (key, d) :: l.without key
  { l with
    entries := trim maxBytes entries
    evictions := l.evictions + (entries.length - (trim maxBytes entries).length) }

/-- Ask for the document of a file.  For a retired project, and for a source that cannot be read,
there is nothing to put in front. -/
def get (l : Lru) (maxBytes : Nat) (parser : Syntax.Parser Language) (file : FileRef)
    (source : List UInt8) (language : Language) : Lru :=
  let key := Key.of file.project file.relative
  match l.answering? key (.of file.modified source) language with
  | some d => { l with entries := (key, d) :: l.without key, hits := l.hits + 1 }
  | none =>
    match read parser file source language with
    | .error _ => { l with misses := l.misses + 1 }
    | .ok d =>
      if file.project ∈ l.retired then { l with misses := l.misses + 1 }
      else { l with misses := l.misses + 1 }.store maxBytes key d

def apply (maxBytes : Nat) (l : Lru) : Operation → Lru
  | .get parser _ file source language => l.get maxBytes parser file source language
  | .invalidate key => { l with entries := l.without key }
  | .invalidateProject project =>
    { l with entries := l.entries.filter fun e => e.1.project ≠ project }
  | .retire project =>
    { l with
      entries := l.entries.filter fun e => e.1.project ≠ project
      retired := project :: l.retired }
  | .activate project => { l with retired := l.retired.filter (· ≠ project) }
  | .clear => { l with entries := [] }

/-- The list after some operations. -/
def run (maxBytes : Nat) (l : Lru) (operations : List Operation) : Lru :=
  operations.foldl (apply maxBytes) l

end Lru

namespace Cache

variable {c d : Cache} {l : Lru} {slots : List (Key × Slot)} {key keep : Key} {now maxBytes : Nat}

/-! ## The slots by recency -/

/-- What the list keeps of a slot. -/
def entryOf (e : Key × Slot) : Key × Document := (e.1, e.2.document)

/-- Some slots are those of a cache, the one used last in front. -/
structure ByRecency (c : Cache) (slots : List (Key × Slot)) : Prop where
  perm : slots.Perm c.slots
  sorted : slots.Pairwise fun a b => b.2.lastAccess < a.2.lastAccess

theorem total_map_entryOf (slots : List (Key × Slot)) :
    Lru.total (slots.map entryOf) = room slots := by
  simp [Lru.total, room, entryOf, List.foldr_map]

/-- Where slots stand by recency, dropping some keeps them so. -/
theorem ByRecency.filter (h : c.ByRecency slots) {p : Key × Slot → Bool}
    (hd : d.slots = c.slots.filter p) : d.ByRecency (slots.filter p) where
  perm := hd ▸ h.perm.filter p
  sorted := h.sorted.filter p

/-- A slot used later than all others goes in front of those under other keys. -/
theorem ByRecency.front (h : c.ByRecency slots) (hc : c.Consistent) {e : Key × Slot}
    (hd : d.slots.Perm (e :: c.slots.filter fun f => !decide (f.1 = e.1)))
    (hlt : c.tick < e.2.lastAccess) :
    d.ByRecency (e :: slots.filter fun f => !decide (f.1 = e.1)) where
  perm := ((h.perm.filter _).cons e).trans hd.symm
  sorted := by
    refine List.pairwise_cons.mpr ⟨fun f hf => ?_, h.sorted.filter _⟩
    have hmem : f ∈ c.slots := h.perm.mem_iff.mp (List.mem_filter.mp hf).1
    exact Nat.lt_of_le_of_lt (hc.uses_le f hmem) hlt

/-- The slot used longest ago is the last one, unless it is the one to be kept. -/
theorem ByRecency.oldest?_eq_last (hc : c.Consistent) {front : List (Key × Slot)}
    {e : Key × Slot} (h : c.ByRecency (front ++ [e])) (hne : e.1 ≠ keep) :
    oldest? keep c.slots = some e := by
  refine oldest?_eq_some hc.uses_nodup (h.perm.mem_iff.mp (by simp)) hne fun f hf _ => ?_
  rcases List.mem_append.mp (h.perm.mem_iff.mpr hf) with hi | hl
  · exact Nat.le_of_lt ((List.pairwise_append.mp h.sorted).2.2 f hi e (by simp))
  · obtain rfl := List.mem_singleton.mp hl
    exact Nat.le_refl _

/-- Dropping what is under the key of the last slot leaves the others. -/
theorem filter_key_ne_last {e : Key × Slot} (hk : (keysOf (slots ++ [e])).Nodup) :
    (slots ++ [e]).filter (fun f => !decide (f.1 = e.1)) = slots := by
  have hne : ∀ f ∈ slots, f.1 ≠ e.1 := by
    rw [keysOf, List.map_append] at hk
    exact fun f hf => (List.nodup_append.mp hk).2.2 f.1 (List.mem_map_of_mem hf) e.1 (by simp)
  rw [List.filter_append, List.filter_eq_self.mpr (by simpa using hne)]
  simp

/-! ## Making room -/

theorem Lru.trim_of_fits {entries : List (Key × Document)}
    (h : Lru.total entries ≤ maxBytes ∨ entries.length ≤ 1) :
    Lru.trim maxBytes entries = entries := by
  rw [Lru.trim, if_pos h]

/-- Making room for the slot in front drops the same slots that are cut off at the back.  The
induction is on the slots behind the front, from the last one on. -/
theorem ByRecency.shrink {front : Key × Slot} {rest : List (Key × Slot)} (hc : c.Consistent)
    (h : c.ByRecency (front :: rest)) {fuel : Nat} (hfuel : rest.length ≤ fuel) :
    ∃ kept, (Cache.shrink front.1 fuel c).ByRecency kept ∧
      kept.map entryOf = Lru.trim c.settings.maxBytes ((front :: rest).map entryOf) := by
  induction rest using List.reverseRecOn generalizing c fuel with
  | nil =>
    have hroom : RoomMade front.1 c := by
      refine .inr (oldest?_eq_none_iff.mpr fun e he => ?_)
      rw [List.mem_singleton.mp (h.perm.mem_iff.mpr he)]
    rw [shrink_of_roomMade hroom]
    exact ⟨[front], h, (Lru.trim_of_fits (.inr (Nat.le_refl _))).symm⟩
  | append_singleton init last ih =>
    have hroom : Lru.total ((front :: (init ++ [last])).map entryOf) = c.footprint := by
      rw [total_map_entryOf, hc.footprint_eq, room_eq_of_perm h.perm]
    by_cases hfits : c.footprint ≤ c.settings.maxBytes
    · rw [shrink_of_roomMade (.inl hfits)]
      exact ⟨_, h, (Lru.trim_of_fits (.inl (hroom ▸ hfits))).symm⟩
    · obtain ⟨fuel, rfl⟩ : ∃ n, fuel = n + 1 :=
        Nat.exists_eq_add_one.mpr (Nat.lt_of_lt_of_le (by simp) hfuel)
      have hkeys : (keysOf (front :: init ++ [last])).Nodup :=
        (h.perm.symm.map Prod.fst).nodup hc.keys_nodup
      have hne : last.1 ≠ front.1 := fun he =>
        (List.nodup_cons.mp hkeys).1 (List.mem_map.mpr ⟨last, by simp, he⟩)
      have hsplit : c.ByRecency (front :: init ++ [last]) := h
      rw [shrink_succ, if_neg hfits, hsplit.oldest?_eq_last hc hne]
      have hinit : (c.evictWhere fun k _ => k = last.1).ByRecency (front :: init) := by
        have hfilter := hsplit.filter (evictWhere_slots c fun k _ => k = last.1)
        rwa [filter_key_ne_last hkeys] at hfilter
      obtain ⟨kept, hkept, htrim⟩ :=
        ih (hc.dropped (.evictWhere c _)) hinit (Nat.le_of_succ_le_succ (by simpa using hfuel))
      refine ⟨kept, hkept, htrim.trans ?_⟩
      rw [Lru.trim.eq_def _ ((front :: (init ++ [last])).map entryOf), hroom,
        if_neg (by simp [hfits])]
      congr 1
      simp [List.dropLast]

/-- Nothing grows too old without an age limit. -/
theorem expire_of_ttl_eq_none (h : c.settings.ttl = none) (now : Nat) (keep : Key) :
    c.expire now keep = c := by
  have hexpired (parsedAt : Nat) : c.settings.expired now parsedAt = false := by
    simp [Settings.expired, h]
  simp [expire, hexpired, dropWhere, countEvictions, room]

/-! ## Reading the list off the slots -/

theorem lookup_map_entryOf (slots : List (Key × Slot)) (key : Key) :
    (slots.map entryOf).lookup key = (slots.lookup key).map Slot.document := by
  induction slots with
  | nil => rfl
  | cons e rest ih =>
    rw [List.map_cons, entryOf, List.lookup_cons, List.lookup_cons, ih]
    split <;> rfl

theorem filter_map_entryOf (p : Key → Bool) (slots : List (Key × Slot)) :
    (slots.map entryOf).filter (fun e => p e.1) =
      (slots.filter fun e => p e.1).map entryOf :=
  List.filter_map

theorem without_eq_map_entryOf (h : l.entries = slots.map entryOf) (key : Key) :
    l.without key = (slots.filter fun e => !decide (e.1 = key)).map entryOf := by
  simp only [Lru.without, ne_eq, decide_not, h]
  exact filter_map_entryOf (fun k => !decide (k = key)) slots

theorem ByRecency.lookup_eq (h : c.ByRecency slots) (hc : c.Consistent) (key : Key) :
    slots.lookup key = c.find? key :=
  lookup_eq_of_perm h.perm ((h.perm.symm.map _).nodup hc.keys_nodup) key

/-! ## The relation -/

/-- A list holds what a cache holds, and both have counted the same. -/
structure Refines (c : Cache) (l : Lru) : Prop where
  settled : c.Settled
  entries : ∃ slots, c.ByRecency slots ∧ l.entries = slots.map entryOf
  retired : ∀ project, project ∈ l.retired ↔ project ∈ c.retired
  hits : c.counts.hits = l.hits
  misses : c.counts.misses = l.misses
  evictions : c.counts.evictions = l.evictions

theorem refines_new (settings : Settings) : (new settings).Refines {} where
  settled := settled_new settings
  entries := ⟨[], ⟨.refl _, .nil⟩, rfl⟩
  retired _ := Iff.rfl
  hits := rfl
  misses := rfl
  evictions := rfl

namespace Refines

theorem mem_keys_iff (h : c.Refines l) (key : Key) :
    key ∈ l.entries.map Prod.fst ↔ c.contains key = true := by
  obtain ⟨slots, hslots, hentries⟩ := h.entries
  have hkeys : l.entries.map Prod.fst = keysOf slots := by
    rw [hentries, List.map_map]
    rfl
  rw [hkeys, (hslots.perm.map Prod.fst).mem_iff, contains, Option.isSome_iff_ne_none, find?, ne_eq,
    lookup_eq_none_iff_notMem, not_not]

/-- A request is answered by the same document on both sides, if at all. -/
theorem answering?_eq (h : c.Refines l) (httl : c.settings.ttl = none) (now : Nat) (key : Key)
    (fingerprint : Fingerprint) (language : Language) :
    l.answering? key fingerprint language =
      (c.answering? now key fingerprint language).map Slot.document := by
  obtain ⟨slots, hslots, hentries⟩ := h.entries
  rw [Lru.answering?, answering?, hentries, lookup_map_entryOf,
    hslots.lookup_eq h.settled.toConsistent]
  cases c.find? key with
  | none => rfl
  | some slot =>
    have hanswers : slot.answers c.settings now fingerprint language =
        decide (slot.document.fingerprint = fingerprint ∧ slot.document.language = language) := by
      simp [Slot.answers, Settings.expired, httl]
    simp only [Option.map_some, Option.filter_some, hanswers]
    split <;> rfl

/-- Dropping by key drops the same on both sides. -/
theorem filter (h : c.Refines l) (p : Key → Bool) (hd : d.Settled)
    (hslots : d.slots = c.slots.filter fun e => p e.1) (hretired : d.retired = c.retired)
    (hhits : d.counts.hits = c.counts.hits) (hmisses : d.counts.misses = c.counts.misses)
    (hevictions : d.counts.evictions = c.counts.evictions) :
    d.Refines { l with entries := l.entries.filter fun e => p e.1 } where
  settled := hd
  entries := by
    obtain ⟨slots, hrecency, hentries⟩ := h.entries
    refine ⟨slots.filter fun e => p e.1, hrecency.filter hslots, ?_⟩
    rw [hentries, filter_map_entryOf]
  retired := hretired ▸ h.retired
  hits := hhits.trans h.hits
  misses := hmisses.trans h.misses
  evictions := hevictions.trans h.evictions

theorem hit (h : c.Refines l) {slot : Slot} (hslot : c.find? key = some slot) :
    (c.hit key).Refines
      { l with entries := (key, slot.document) :: l.without key, hits := l.hits + 1 } where
  settled := h.settled.hit key
  entries := by
    obtain ⟨slots, hrecency, hentries⟩ := h.entries
    have hmem : (key, slot) ∈ c.slots :=
      (lookup_eq_some_iff_mem h.settled.keys_nodup).mp hslot
    have hused : useAt key (c.tick + 1) (key, slot) =
        (key, { slot with lastAccess := c.tick + 1 }) := if_pos rfl
    -- The others stay as they are.
    have hothers : (c.slots.filter fun f => !decide (f.1 = key)).map (useAt key (c.tick + 1)) =
        c.slots.filter fun f => !decide (f.1 = key) :=
      (List.map_congr_left fun f hf => if_neg (by simpa using (List.mem_filter.mp hf).2)).trans
        (List.map_id _)
    have hperm := (perm_cons_filter_key h.settled.keys_nodup hmem).map (useAt key (c.tick + 1))
    rw [List.map_cons, hused, hothers] at hperm
    refine ⟨_, hrecency.front h.settled.toConsistent hperm (Nat.lt_succ_self _), ?_⟩
    rw [without_eq_map_entryOf hentries]
    rfl
  retired := h.retired
  hits := congrArg (· + 1) h.hits
  misses := h.misses
  evictions := h.evictions

theorem missed (h : c.Refines l) (key : Key) :
    (c.missed key).Refines { l with misses := l.misses + 1 } where
  settled := h.settled.missed key
  entries := by
    obtain ⟨slots, hrecency, hentries⟩ := h.entries
    exact ⟨slots, ⟨hrecency.perm, hrecency.sorted⟩, hentries⟩
  retired := h.retired
  hits := h.hits
  misses := congrArg (· + 1) h.misses
  evictions := h.evictions

theorem store (h : c.Refines l) (httl : c.settings.ttl = none) {doc : Document}
    (hb : doc.BelongsTo key) (ha : key.project ∉ c.retired) (now : Nat)
    (hd : ((c.put now key doc).evict now key).Settled) :
    ((c.put now key doc).evict now key).Refines (l.store c.settings.maxBytes key doc) := by
  obtain ⟨slots, hrecency, hentries⟩ := h.entries
  have hconsistent := h.settled.toConsistent
  have hput := hrecency.front hconsistent (d := c.put now key doc)
    (e := (key, ⟨doc, c.tick + 1, now⟩)) (.refl _) (Nat.lt_succ_self _)
  have hlength : (c.put now key doc).slots.length = _ := hput.perm.length_eq.symm
  obtain ⟨kept, hkept, htrim⟩ := hput.shrink (hconsistent.put now hb ha)
    (Nat.le_of_succ_le (Nat.le_of_eq hlength.symm))
  have hshrunk := Dropped.shrink key (c.put now key doc).slots.length (c.put now key doc)
  have hevict : (c.put now key doc).evict now key =
      Cache.shrink key (c.put now key doc).slots.length (c.put now key doc) :=
    expire_of_ttl_eq_none (hshrunk.settings ▸ httl) now key
  have hfront : (key, doc) :: l.without key =
      ((key, ⟨doc, c.tick + 1, now⟩) :: slots.filter fun f => !decide (f.1 = key)).map
        entryOf := by
    rw [List.map_cons, without_eq_map_entryOf hentries]
    rfl
  have hentriesKept : (l.store c.settings.maxBytes key doc).entries = kept.map entryOf := by
    rw [Lru.store, hfront]
    exact htrim.symm
  have hall := Dropped.evict (c.put now key doc) now key
  have hsize : ((c.put now key doc).evict now key).size =
      (l.store c.settings.maxBytes key doc).entries.length := by
    rw [hentriesKept, List.length_map, hkept.perm.length_eq, hevict]
    rfl
  have hbefore : (c.put now key doc).size = ((key, doc) :: l.without key).length := by
    rw [hfront, List.length_map]
    exact hlength
  exact {
    settled := hd
    entries := ⟨kept, hevict ▸ hkept, hentriesKept⟩
    retired := hall.retired ▸ h.retired
    hits := hall.hits.trans h.hits
    misses := hall.misses.trans h.misses
    evictions := by
      have hcount := evictions_add_size_evict (c.put now key doc) now key
      have hold : (c.put now key doc).counts.evictions = l.evictions := h.evictions
      have hle := hall.size_le
      rw [hsize, hbefore] at hle
      rw [hsize, hbefore, hold] at hcount
      change _ = l.evictions + (((key, doc) :: l.without key).length -
        (l.store c.settings.maxBytes key doc).entries.length)
      omega }

theorem invalidateProject (h : c.Refines l) (project : String) :
    (c.invalidateProject project).2.Refines
      { l with entries := l.entries.filter fun e => e.1.project ≠ project } := by
  refine h.filter (fun k => k.project ≠ project) (h.settled.invalidateProject project) ?_
    rfl rfl rfl rfl
  simp only [ne_eq, decide_not]
  rfl

/-- Each operation keeps a cache and its list together. -/
theorem apply (h : c.Refines l) (hon : c.settings.enabled = true) (httl : c.settings.ttl = none)
    (o : Operation) : (o.apply c).Refines (l.apply c.settings.maxBytes o) := by
  have hsettled := h.settled.apply o
  cases o with
  | get parser now file source language =>
    change (c.get parser now file source language).2.Refines
      (l.get c.settings.maxBytes parser file source language)
    have hanswer := h.answering?_eq httl now (.of file.project file.relative)
      (.of file.modified source) language
    rcases hget : c.get parser now file source language with ⟨answer, d⟩
    cases gets hget with
    | off hoff => simp [hoff] at hon
    | hit _ ha =>
      rw [ha] at hanswer
      rw [Lru.get, hanswer]
      exact h.hit (Option.filter_eq_some_iff.mp ha).1
    | unread _ ha hr =>
      rw [ha] at hanswer
      rw [Lru.get, hanswer, hr]
      exact h.missed _
    | refused _ ha hr hp =>
      rw [ha] at hanswer
      rw [Lru.get, hanswer, hr]
      simp only [Option.map_none, (h.retired _).mpr hp, if_true]
      exact h.missed _
    | stored _ ha hr hp =>
      rw [ha] at hanswer
      rw [Lru.get, hanswer, hr]
      simp only [Option.map_none, mt (h.retired _).mp hp, if_false]
      exact (h.missed _).store httl (read_belongsTo hr) hp now
        (h.settled.stored now (read_belongsTo hr) hp)
  | invalidate key =>
    refine h.filter (fun k => k ≠ key) hsettled ?_ rfl rfl rfl rfl
    simp only [ne_eq, decide_not]
    rfl
  | invalidateProject project => exact h.invalidateProject project
  | retire project =>
    have hdropped := h.invalidateProject project
    exact { hdropped with
      settled := hsettled
      entries := by
        obtain ⟨slots, hrecency, hentries⟩ := hdropped.entries
        exact ⟨slots, ⟨hrecency.perm, hrecency.sorted⟩, hentries⟩
      retired := fun q => by
        change q ∈ project :: l.retired ↔ q ∈ project :: c.retired.filter (· ≠ project)
        have hold := h.retired q
        by_cases hq : q = project
        · simp [hq]
        · simp [hq, hold] }
  | activate project =>
    exact { h with
      settled := hsettled
      entries := by
        obtain ⟨slots, hrecency, hentries⟩ := h.entries
        exact ⟨slots, ⟨hrecency.perm, hrecency.sorted⟩, hentries⟩
      retired := fun q => by
        change q ∈ l.retired.filter (· ≠ project) ↔ q ∈ c.retired.filter (· ≠ project)
        rw [List.mem_filter, List.mem_filter, h.retired q] }
  | clear =>
    exact { h with
      settled := hsettled
      entries := ⟨[], ⟨.refl _, .nil⟩, rfl⟩ }

end Refines

/-! ## Slots in any order -/

/-- A way to put slots into another order.  A table that is walked through in an order of its own
is a list that was shuffled before. -/
structure Shuffle where
  shuffle : List (Key × Slot) → List (Key × Slot)
  perm (slots : List (Key × Slot)) : (shuffle slots).Perm slots

def shuffle (σ : Shuffle) (c : Cache) : Cache :=
  { c with slots := σ.shuffle c.slots }

/-- The loop that makes room, with the slots walked through in another order at each turn. -/
def shrinkShuffled (order : Nat → Shuffle) (keep : Key) : Nat → Cache → Cache
  | 0, c => c
  | fuel + 1, c =>
    if c.footprint ≤ c.settings.maxBytes then c
    else
      match oldest? keep ((order fuel).shuffle c.slots) with
      | some (key, _) => shrinkShuffled order keep fuel (c.evictWhere fun k _ => k = key)
      | none => c

/-- As no two slots were used at the same tick, each turn has the same victim in any order. -/
theorem shrinkShuffled_eq_shrink (order : Nat → Shuffle) (keep : Key) (fuel : Nat)
    (h : (usesOf c.slots).Nodup) : shrinkShuffled order keep fuel c = shrink keep fuel c := by
  induction fuel generalizing c with
  | zero => rfl
  | succ fuel ih =>
    rw [shrinkShuffled, shrink_succ, ← oldest?_eq_of_perm ((order fuel).perm _).symm h keep]
    split
    · rfl
    · cases oldest? keep c.slots with
      | none => rfl
      | some e => exact ih (((Dropped.evictWhere c _).slots.map _).nodup h)

/-- The cache after some operations, before each of which the slots were shuffled. -/
def runShuffled (c : Cache) (turns : List (Shuffle × Operation)) : Cache :=
  turns.foldl (fun c turn => turn.2.apply (c.shuffle turn.1)) c

theorem Settled.shuffle (h : c.Settled) (σ : Shuffle) : (c.shuffle σ).Settled where
  footprint_eq := h.footprint_eq.trans (room_eq_of_perm (σ.perm _).symm)
  keys_nodup := ((σ.perm _).symm.map _).nodup h.keys_nodup
  uses_nodup := ((σ.perm _).symm.map _).nodup h.uses_nodup
  uses_le e he := h.uses_le e ((σ.perm _).mem_iff.mp he)
  belongs e he := h.belongs e ((σ.perm _).mem_iff.mp he)
  active e he := h.active e ((σ.perm _).mem_iff.mp he)
  fits := by
    rw [size, Cache.shuffle, (σ.perm _).length_eq]
    exact h.fits
  idle := h.idle

theorem Refines.shuffle (h : c.Refines l) (σ : Shuffle) : (c.shuffle σ).Refines l :=
  { h with
    settled := h.settled.shuffle σ
    entries := by
      obtain ⟨slots, hrecency, hentries⟩ := h.entries
      exact ⟨slots, ⟨hrecency.perm.trans (σ.perm _).symm, hrecency.sorted⟩, hentries⟩ }

theorem Refines.runShuffled (h : c.Refines l) (hon : c.settings.enabled = true)
    (httl : c.settings.ttl = none) (turns : List (Shuffle × Operation)) :
    (c.runShuffled turns).Refines (l.run c.settings.maxBytes (turns.map Prod.snd)) ∧
      (c.runShuffled turns).settings = c.settings := by
  induction turns generalizing c l with
  | nil => exact ⟨h, rfl⟩
  | cons turn rest ih =>
    have hset : (turn.2.apply (c.shuffle turn.1)).settings = c.settings :=
      apply_settings (c.shuffle turn.1) turn.2
    obtain ⟨hrefines, hrest⟩ := ih ((h.shuffle turn.1).apply hon httl turn.2)
      (hset ▸ hon) (hset ▸ httl)
    rw [hset] at hrefines hrest
    exact ⟨hrefines, hrest⟩

/-- **Without an age limit a cache is a list by recency.**  Whatever the room there is, after any
operations, and however the slots are shuffled in between, a cache holds the same keys as the list,
it would answer the same requests with the same documents, and it has counted the same hits, misses
and evictions.  As the operations are any, this is so after each of them.  When a document has been
put in, the loop that makes room drops the same slots in whatever order it walks through them at
each turn, and it ends in every cache. -/
theorem runShuffled_refines_lru (maxBytes : Nat) (turns : List (Shuffle × Operation)) :
    let c := (new { enabled := true, maxBytes, ttl := none }).runShuffled turns
    let l := ({} : Lru).run maxBytes (turns.map Prod.snd)
    (∀ key, c.contains key = true ↔ key ∈ l.entries.map Prod.fst) ∧
      (∀ now key fingerprint language,
        (c.answering? now key fingerprint language).map Slot.document =
          l.answering? key fingerprint language) ∧
      c.counts.hits = l.hits ∧ c.counts.misses = l.misses ∧ c.counts.evictions = l.evictions ∧
      (∀ (order : Nat → Shuffle) (fuel now : Nat) (key : Key) (d : Document),
        shrinkShuffled order key fuel ((c.missed key).put now key d) =
          shrink key fuel ((c.missed key).put now key d)) ∧
      ∀ (d : Cache) (keep : Key), RoomMade keep (shrink keep d.slots.length d) := by
  intro c l
  obtain ⟨h, hset⟩ := (refines_new { enabled := true, maxBytes, ttl := none }).runShuffled rfl rfl
    turns
  refine ⟨fun key => (h.mem_keys_iff key).symm, fun now key fingerprint language => ?_, h.hits,
    h.misses, h.evictions, fun order fuel now key d => ?_,
    fun d keep => roomMade_shrink keep _ (Nat.le_refl _)⟩
  · exact (h.answering?_eq (congrArg Settings.ttl hset) now key fingerprint language).symm
  · refine shrinkShuffled_eq_shrink order key fuel ?_
    exact (h.settled.toConsistent.missed key).uses_nodup_put now key d

end Cache

end CodeAtlas
