import CodeAtlas.Cache
import Mathlib.Data.List.Nodup

/-!
# Lists of slots

The facts about the slots of a cache that do not depend on the rest of it: the room they take, the
slot under a key, and the slot that was used longest ago.

The order of a list of slots carries no meaning.  `oldest?_eq_of_perm` is where this could fail,
since the victim of an eviction is found by walking through the list; it holds because no two slots
were used at the same tick.
-/

namespace CodeAtlas.Cache

variable {slots slots' : List (Key × Slot)} {e e' : Key × Slot} {key keep : Key}

/-- The keys of some slots. -/
abbrev keysOf (slots : List (Key × Slot)) : List Key := slots.map Prod.fst

/-- The ticks at which some slots were last used. -/
abbrev usesOf (slots : List (Key × Slot)) : List Nat := slots.map fun e => e.2.lastAccess

/-! ## Room -/

@[simp] theorem room_nil : room [] = 0 := rfl

@[simp] theorem room_cons (e : Key × Slot) (slots : List (Key × Slot)) :
    room (e :: slots) = e.2.document.footprint + room slots := rfl

theorem room_eq_of_perm (h : slots.Perm slots') : room slots = room slots' := by
  induction h with
  | nil => rfl
  | cons e _ ih => rw [room_cons, room_cons, ih]
  | swap e f slots => exact Nat.add_left_comm _ _ _
  | trans _ _ ih ih' => exact ih.trans ih'

/-- What is picked out of some slots and what is left take the room of all of them. -/
theorem room_filter_add_room_filter_not (p : Key × Slot → Bool) (slots : List (Key × Slot)) :
    room (slots.filter p) + room (slots.filter fun e => !p e) = room slots := by
  induction slots with
  | nil => rfl
  | cons e rest ih =>
    by_cases h : p e
    · simp [h]; omega
    · simp [h]; omega

theorem room_filter_le (p : Key × Slot → Bool) (slots : List (Key × Slot)) :
    room (slots.filter p) ≤ room slots := by
  have h := room_filter_add_room_filter_not p slots
  omega

theorem room_le_of_sublist (h : slots.Sublist slots') : room slots ≤ room slots' := by
  induction h with
  | slnil => exact Nat.le_refl _
  | cons e _ ih => rw [room_cons]; omega
  | cons_cons e _ ih => rw [room_cons, room_cons]; omega

/-! ## The slot under a key -/

theorem mem_of_lookup_eq_some {slot : Slot} (h : slots.lookup key = some slot) :
    (key, slot) ∈ slots := by
  obtain ⟨before, after, rfl, -⟩ := List.lookup_eq_some_iff.mp h
  simp

/-- Where keys occur once, looking a key up finds every slot that there is. -/
theorem lookup_eq_some_iff_mem (h : (keysOf slots).Nodup) {slot : Slot} :
    slots.lookup key = some slot ↔ (key, slot) ∈ slots := by
  constructor
  · exact mem_of_lookup_eq_some
  · intro hm
    obtain ⟨before, after, rfl⟩ := List.append_of_mem hm
    refine List.lookup_eq_some_iff.mpr ⟨before, after, rfl, fun e he => ?_⟩
    have hd : key ∉ keysOf before := by
      simp only [keysOf, List.map_append, List.map_cons] at h
      exact fun hk => (List.nodup_append.mp h).2.2 key hk key (by simp) rfl
    simpa using fun hk => hd (List.mem_map.mpr ⟨e, he, hk.symm⟩)

theorem lookup_eq_none_iff_notMem : slots.lookup key = none ↔ key ∉ keysOf slots := by
  simp [List.lookup_eq_none_iff]
  grind

/-- The slot found under a key depends on the order of the slots as little as the keys repeat. -/
theorem lookup_eq_of_perm (h : slots.Perm slots') (hk : (keysOf slots).Nodup) (key : Key) :
    slots.lookup key = slots'.lookup key := by
  have hk' : (keysOf slots').Nodup := (h.map _).nodup hk
  refine Option.ext fun slot => ?_
  rw [lookup_eq_some_iff_mem hk, lookup_eq_some_iff_mem hk', h.mem_iff]

/-- Where keys occur once, a slot is parted from the others by its key. -/
theorem perm_cons_filter_key (h : (keysOf slots).Nodup) (he : e ∈ slots) :
    slots.Perm (e :: slots.filter fun f => !decide (f.1 = e.1)) := by
  obtain ⟨before, after, rfl⟩ := List.append_of_mem he
  have hk : (keysOf (e :: (before ++ after))).Nodup :=
    (List.perm_middle.map Prod.fst).nodup h
  have hrest : (before ++ after).filter (fun f => !decide (f.1 = e.1)) = before ++ after :=
    List.filter_eq_self.mpr fun f hf => by
      simpa using fun hfe => (List.nodup_cons.mp hk).1 (List.mem_map.mpr ⟨f, hf, hfe⟩)
  refine List.perm_middle.trans (List.Perm.cons e ?_)
  rw [List.filter_append, List.filter_cons_of_neg (by simp), ← List.filter_append, hrest]

/-- Two slots used at one tick are one slot. -/
theorem eq_of_lastAccess_eq (h : (usesOf slots).Nodup) (he : e ∈ slots) (he' : e' ∈ slots)
    (hu : e.2.lastAccess = e'.2.lastAccess) : e = e' :=
  List.inj_on_of_nodup_map h he he' hu

/-! ## Using a slot -/

/-- An entry after the slot under a key was used. -/
def useAt (key : Key) (tick : Nat) (e : Key × Slot) : Key × Slot :=
  if e.1 = key then (e.1, { e.2 with lastAccess := tick }) else e

@[simp] theorem useAt_fst (key : Key) (tick : Nat) (e : Key × Slot) :
    (useAt key tick e).1 = e.1 := by
  rw [useAt]; split <;> rfl

@[simp] theorem useAt_document (key : Key) (tick : Nat) (e : Key × Slot) :
    (useAt key tick e).2.document = e.2.document := by
  rw [useAt]; split <;> rfl

theorem keysOf_map_useAt (key : Key) (tick : Nat) (slots : List (Key × Slot)) :
    keysOf (slots.map (useAt key tick)) = keysOf slots := by
  simp [keysOf, Function.comp_def]

theorem room_map_useAt (key : Key) (tick : Nat) (slots : List (Key × Slot)) :
    room (slots.map (useAt key tick)) = room slots := by
  simp [room, List.foldr_map]

/-- A slot that is used at a new tick still shares its tick with no other. -/
theorem usesOf_map_useAt_nodup {tick : Nat} (hk : (keysOf slots).Nodup)
    (hu : (usesOf slots).Nodup) (hle : ∀ e ∈ slots, e.2.lastAccess < tick) :
    (usesOf (slots.map (useAt key tick))).Nodup := by
  rw [usesOf, List.map_map]
  refine List.pairwise_map.mpr ?_
  have hpairs := (List.pairwise_map.mp hk).and (List.pairwise_map.mp hu)
  refine hpairs.imp_of_mem fun {a b} ha hb hne => ?_
  have hla := hle a ha
  have hlb := hle b hb
  simp only [Function.comp_apply, useAt]
  split
  · split
    · rename_i hak hbk
      exact absurd (hak.trans hbk.symm) hne.1
    · simp only
      omega
  · split
    · simp only
      omega
    · exact hne.2

/-! ## The slot used longest ago -/

theorem oldest?_eq_none_iff : oldest? keep slots = none ↔ ∀ e ∈ slots, e.1 = keep := by
  induction slots with
  | nil => simp [oldest?]
  | cons e rest ih =>
    rw [oldest?]
    by_cases hk : e.1 = keep
    · simp [hk, ih]
    · rw [if_neg hk]
      refine iff_of_false ?_ fun h => hk (h e List.mem_cons_self)
      cases oldest? keep rest with
      | none => simp
      | some f => by_cases hlt : f.2.lastAccess < e.2.lastAccess <;> simp [hlt]

/-- What an eviction picks is there, is not the slot to be kept, and was used no later than any
other such slot. -/
theorem oldest?_spec (h : oldest? keep slots = some e) :
    e ∈ slots ∧ e.1 ≠ keep ∧
      ∀ e' ∈ slots, e'.1 ≠ keep → e.2.lastAccess ≤ e'.2.lastAccess := by
  induction slots generalizing e with
  | nil => simp [oldest?] at h
  | cons f rest ih =>
    rw [oldest?] at h
    by_cases hk : f.1 = keep
    · rw [if_pos hk] at h
      obtain ⟨hm, hne, hle⟩ := ih h
      refine ⟨List.mem_cons_of_mem _ hm, hne, fun e' he' hne' => ?_⟩
      rcases List.mem_cons.mp he' with rfl | he'
      · exact absurd hk hne'
      · exact hle e' he' hne'
    · rw [if_neg hk] at h
      cases hr : oldest? keep rest with
      | none =>
        simp only [hr, Option.some.injEq] at h
        subst h
        refine ⟨List.mem_cons_self, hk, fun e' he' hne' => ?_⟩
        rcases List.mem_cons.mp he' with rfl | he'
        · exact Nat.le_refl _
        · exact absurd (oldest?_eq_none_iff.mp hr e' he') hne'
      | some g =>
        obtain ⟨hm, hne, hle⟩ := ih hr
        simp only [hr] at h
        split at h
        · rename_i hlt
          cases h
          refine ⟨List.mem_cons_of_mem _ hm, hne, fun e' he' hne' => ?_⟩
          rcases List.mem_cons.mp he' with rfl | he'
          · exact Nat.le_of_lt hlt
          · exact hle e' he' hne'
        · rename_i hge
          cases h
          refine ⟨List.mem_cons_self, hk, fun e' he' hne' => ?_⟩
          rcases List.mem_cons.mp he' with rfl | he'
          · exact Nat.le_refl _
          · exact Nat.le_trans (Nat.not_lt.mp hge) (hle e' he' hne')

/-- The victim of an eviction is determined by what `oldest?_spec` says of it. -/
theorem oldest?_eq_some (hu : (usesOf slots).Nodup) (he : e ∈ slots) (hne : e.1 ≠ keep)
    (hle : ∀ e' ∈ slots, e'.1 ≠ keep → e.2.lastAccess ≤ e'.2.lastAccess) :
    oldest? keep slots = some e := by
  cases h : oldest? keep slots with
  | none => exact absurd (oldest?_eq_none_iff.mp h e he) hne
  | some f =>
    obtain ⟨hf, hfne, hfle⟩ := oldest?_spec h
    have hle' := hle f hf hfne
    have hge := hfle e he hne
    rw [eq_of_lastAccess_eq hu hf he (by omega)]

/-- Whatever the order in which slots are walked through, the same one is evicted. -/
theorem oldest?_eq_of_perm (h : slots.Perm slots') (hu : (usesOf slots).Nodup) (keep : Key) :
    oldest? keep slots = oldest? keep slots' := by
  cases ho : oldest? keep slots' with
  | none =>
    exact oldest?_eq_none_iff.mpr fun e he => oldest?_eq_none_iff.mp ho e (h.mem_iff.mp he)
  | some e =>
    obtain ⟨he, hne, hle⟩ := oldest?_spec ho
    exact oldest?_eq_some hu (h.mem_iff.mpr he) hne fun e' he' => hle e' (h.mem_iff.mp he')

end CodeAtlas.Cache
