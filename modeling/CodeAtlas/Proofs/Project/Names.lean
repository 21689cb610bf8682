import CodeAtlas.Project
import Mathlib.Data.List.Nodup
import Mathlib.Data.List.Perm.Subperm
import Mathlib.Data.Nat.Find
import Mathlib.Order.Basic
import Mathlib.Tactic.SplitIfs

/-!
# The names of projects

The registry keeps its projects in the order of their names, and this file shows that no two of
them ever share one: `Projects.Ordered` is kept by whatever registers or removes a project.

A directory that comes without a name is given the first free one of its base, its base with a two,
with a three, and so on.  Nothing bounds this search but the registry itself.  The names that are
tried are distinct, so there are more of them than projects to take them, whatever names were given
or freed before.
-/

namespace CodeAtlas

/-! ## Numbered names -/

namespace Project

theorem toList_numbered (base : String) (n : Nat) :
    (numbered base n).toList = base.toList ++ '-' :: Nat.toDigits 10 n := by
  simp [numbered, toString, Nat.repr]

theorem numbered_injective {base : String} {m n : Nat} (h : numbered base m = numbered base n) :
    m = n := by
  have hlist := congrArg String.toList h
  rw [toList_numbered, toList_numbered] at hlist
  have hdigits := (List.cons.inj (List.append_cancel_left hlist)).2
  calc
    m = Nat.ofDigitChars 10 (Nat.toDigits 10 m) 0 := Nat.ofDigitChars_ten_toDigits.symm
    _ = Nat.ofDigitChars 10 (Nat.toDigits 10 n) 0 := by rw [hdigits]
    _ = n := Nat.ofDigitChars_ten_toDigits

theorem numbered_ne (base : String) (n : Nat) : numbered base n ≠ base := by
  intro h
  have hlength := congrArg (fun s => s.toList.length) h
  simp [toList_numbered] at hlength

end Project

namespace Projects

variable {ps qs : Projects} {p q : Project} {name other base : String}

/-! ## Registered names -/

theorem contains_iff : ps.contains name = true ↔ ∃ p ∈ ps.items, p.name = name := by
  simp [contains, get?, List.find?_isSome]

theorem exists_mem_insertInto_iff (p : Project) (items : List Project) (name : String) :
    (∃ q ∈ insertInto p items, q.name = name) ↔ p.name = name ∨ ∃ q ∈ items, q.name = name := by
  induction items with
  | nil => simp [insertInto]
  | cons first rest ih =>
    rw [insertInto]
    split
    · simp
    · split
      · rename_i heq
        simp [heq]
      · simp only [List.exists_mem_cons_iff, ih]
        exact or_left_comm

theorem contains_insert_iff :
    (ps.insert p).contains name = true ↔ p.name = name ∨ ps.contains name = true := by
  rw [contains_iff, contains_iff]
  exact exists_mem_insertInto_iff p ps.items name

theorem contains_remove_iff :
    (ps.remove name).2.contains other = true ↔ other ≠ name ∧ ps.contains other = true := by
  rw [contains_iff, contains_iff]
  constructor
  · rintro ⟨p, hp, rfl⟩
    obtain ⟨hmem, hne⟩ := List.mem_filter.mp hp
    exact ⟨by simpa using hne, p, hmem, rfl⟩
  · rintro ⟨hne, p, hmem, rfl⟩
    exact ⟨p, List.mem_filter.mpr ⟨hmem, by simpa using hne⟩, rfl⟩

/-- The new project is found by its name, and all others as before. -/
theorem get?_insert (ps : Projects) (p : Project) (name : String) :
    (ps.insert p).get? name = if p.name = name then some p else ps.get? name := by
  have hitems (items : List Project) :
      (insertInto p items).find? (fun q => q.name = name) =
        if p.name = name then some p else items.find? (fun q => q.name = name) := by
    induction items with
    | nil => by_cases h : p.name = name <;> simp [insertInto, h]
    | cons q rest ih =>
      rw [insertInto]
      by_cases hname : p.name = name
      · split_ifs with hlt heq
        · simp [hname]
        · simp [hname]
        · have hq : q.name ≠ name := fun hq => heq (hname.trans hq.symm)
          rw [List.find?_cons_of_neg (by simpa using hq), ih, if_pos hname]
      · rw [if_neg hname] at ih ⊢
        split_ifs with hlt heq
        · simp [hname]
        · simp [hname, heq ▸ hname]
        · rw [List.find?_cons, List.find?_cons, ih]
  exact hitems ps.items

/-- Under a name that is free, a project is added and none is lost. -/
theorem perm_insert (h : ps.contains p.name = false) : (ps.insert p).items.Perm (p :: ps.items) := by
  have hitems (items : List Project) (hfree : ∀ q ∈ items, q.name ≠ p.name) :
      (insertInto p items).Perm (p :: items) := by
    induction items with
    | nil => exact .refl _
    | cons q rest ih =>
      rw [insertInto]
      split_ifs with hlt heq
      · exact .refl _
      · exact absurd heq.symm (hfree q List.mem_cons_self)
      · exact ((ih fun r hr => hfree r (List.mem_cons_of_mem q hr)).cons q).trans (.swap p q rest)
  refine hitems ps.items fun q hq heq => ?_
  rw [contains_iff.mpr ⟨q, hq, heq⟩] at h
  cases h

/-! ## Order -/

/-- The projects are in the order of their names, so no two have the same one. -/
def Ordered (ps : Projects) : Prop :=
  ps.items.Pairwise fun p q => p.name < q.name

namespace Ordered

theorem empty : Projects.empty.Ordered := .nil

theorem insert (h : ps.Ordered) (p : Project) : (ps.insert p).Ordered := by
  have hitems (items : List Project) (h : items.Pairwise fun p q => p.name < q.name) :
      (insertInto p items).Pairwise fun p q => p.name < q.name := by
    induction items with
    | nil => exact List.pairwise_singleton _ _
    | cons q rest ih =>
      obtain ⟨hfirst, hrest⟩ := List.pairwise_cons.mp h
      rw [insertInto]
      split_ifs with hlt heq
      · refine List.pairwise_cons.mpr ⟨fun r hr => ?_, h⟩
        rcases List.mem_cons.mp hr with rfl | hr
        · exact hlt
        · exact String.lt_trans hlt (hfirst r hr)
      · exact List.pairwise_cons.mpr ⟨fun r hr => heq ▸ hfirst r hr, hrest⟩
      · refine List.pairwise_cons.mpr ⟨fun r hr => ?_, ih hrest⟩
        have hq : q.name < p.name := String.not_le.mp fun hle => heq <|
          String.le_antisymm hle (String.not_lt.mp hlt)
        rcases (exists_mem_insertInto_iff p rest r.name).mp ⟨r, hr, rfl⟩ with hname | ⟨s, hs, hname⟩
        · exact hname ▸ hq
        · exact hname ▸ hfirst s hs
  exact hitems ps.items h

theorem remove (h : ps.Ordered) (name : String) : (ps.remove name).2.Ordered :=
  List.Pairwise.filter _ h

/-- Two projects of one name are the same. -/
theorem eq_of_name_eq (h : ps.Ordered) (hp : p ∈ ps.items) (hq : q ∈ ps.items)
    (hname : p.name = q.name) : p = q := by
  have hnames : (ps.items.map Project.name).Nodup := by
    refine List.pairwise_map.mpr (List.Pairwise.imp ?_ h)
    intro p q hlt heq
    exact String.lt_irrefl q.name (heq ▸ hlt)
  exact List.inj_on_of_nodup_map hnames hp hq hname

/-- A project is stored under its own name. -/
theorem get?_eq_some_iff (h : ps.Ordered) :
    ps.get? name = some p ↔ p ∈ ps.items ∧ p.name = name := by
  constructor
  · intro hget
    exact ⟨List.mem_of_find?_eq_some hget, by simpa using List.find?_some hget⟩
  · rintro ⟨hmem, rfl⟩
    obtain ⟨q, hq⟩ : ∃ q, ps.get? p.name = some q :=
      Option.isSome_iff_exists.mp (contains_iff.mpr ⟨p, hmem, rfl⟩)
    have hname : q.name = p.name := by simpa using List.find?_some hq
    rw [hq, h.eq_of_name_eq (List.mem_of_find?_eq_some hq) hmem hname]

end Ordered

/-! ## The first free name -/

/-- The names that a base stands for, in the order in which they are tried. -/
def candidate (base : String) : Nat → String
  | 0 => base
  | k + 1 => Project.numbered base (k + 2)

theorem candidate_injective (base : String) : Function.Injective (candidate base) := by
  intro j k h
  cases j with
  | zero =>
    cases k with
    | zero => rfl
    | succ k => exact absurd h.symm (Project.numbered_ne base _)
  | succ j =>
    cases k with
    | zero => exact absurd h (Project.numbered_ne base _)
    | succ k => simpa using Project.numbered_injective h

/-- Among the candidates there is one more than there are projects, so they are not all taken. -/
theorem exists_free (ps : Projects) (base : String) :
    ∃ k ≤ ps.items.length, ps.contains (candidate base k) = false := by
  by_contra hall
  simp only [not_exists, not_and, Bool.not_eq_false] at hall
  have hsub : (List.range (ps.items.length + 1)).map (candidate base) ⊆
      ps.items.map Project.name := by
    intro name hname
    obtain ⟨k, hk, rfl⟩ := List.mem_map.mp hname
    obtain ⟨p, hp, hpk⟩ := contains_iff.mp (hall k (Nat.le_of_lt_succ (List.mem_range.mp hk)))
    exact List.mem_map.mpr ⟨p, hp, hpk⟩
  have hdistinct : ((List.range (ps.items.length + 1)).map (candidate base)).Nodup :=
    List.nodup_range.map (candidate_injective base)
  have hlength := (hdistinct.subperm hsub).length_le
  rw [List.length_map, List.length_map, List.length_range] at hlength
  exact Nat.not_succ_le_self _ hlength

/-- A candidate that is free while all before it are taken. -/
structure FirstFree (ps : Projects) (base : String) (k : Nat) : Prop where
  free : ps.contains (candidate base k) = false
  taken : ∀ j < k, ps.contains (candidate base j) = true
  /-- No more names are tried than there are projects. -/
  bounded : k ≤ ps.items.length

theorem exists_firstFree (ps : Projects) (base : String) : ∃ k, FirstFree ps base k := by
  classical
  obtain ⟨n, hn, hfree⟩ := exists_free ps base
  have hsome : ∃ k, ps.contains (candidate base k) = false := ⟨n, hfree⟩
  refine ⟨Nat.find hsome, Nat.find_spec hsome, fun j hj => ?_, ?_⟩
  · simpa using Nat.find_min hsome hj
  · exact Nat.le_trans (Nat.find_min' hsome hfree) hn

/-- The search stops at the first free candidate: the number of steps that it is given is no
limit. -/
theorem FirstFree.freeName_eq {k : Nat} (h : FirstFree ps base k) :
    ps.freeName base = candidate base k := by
  have hfrom (fuel : Nat) : ∀ j, k = j + 1 + fuel → ∀ more,
      ps.firstFree base (fuel + more) (j + 2) = candidate base k := by
    induction fuel with
    | zero =>
      rintro j rfl more
      cases more with
      | zero => rfl
      | succ more =>
        have hfree : ps.contains (Project.numbered base (j + 2)) = false := h.free
        simp [firstFree, hfree, candidate]
    | succ fuel ih =>
      intro j hk more
      have htaken : ps.contains (Project.numbered base (j + 2)) = true := h.taken (j + 1) (by omega)
      rw [Nat.add_right_comm, firstFree, if_pos htaken]
      exact ih (j + 1) (by omega) more
  rw [freeName]
  cases k with
  | zero =>
    have hfree : ps.contains base = false := h.free
    rw [hfree]
    rfl
  | succ k =>
    have htaken : ps.contains base = true := h.taken 0 (Nat.succ_pos k)
    have hbound := h.bounded
    rw [if_pos htaken]
    have hsearch := hfrom k 0 (by omega) (ps.items.length - k)
    rwa [Nat.add_sub_cancel' (by omega)] at hsearch

/-- The search for a free name with no bound on its steps: a name that is taken leads to the base
with the next number. -/
inductive Searches (ps : Projects) (base : String) : String → Nat → String → Prop
  | free {name : String} (n : Nat) (h : ps.contains name = false) : Searches ps base name n name
  | taken {name found : String} {n : Nat} (h : ps.contains name = true)
    (rest : Searches ps base (Project.numbered base n) (n + 1) found) : Searches ps base name n found

theorem FirstFree.searches {k : Nat} (h : FirstFree ps base k) :
    Searches ps base base 2 (candidate base k) := by
  have hfrom (i : Nat) : ∀ j, k = j + i →
      Searches ps base (candidate base j) (j + 2) (candidate base k) := by
    induction i with
    | zero =>
      rintro j rfl
      exact .free _ h.free
    | succ i ih => exact fun j hk => .taken (h.taken j (by omega)) (ih (j + 1) (by omega))
  exact hfrom k 0 (Nat.zero_add k).symm

end Projects

end CodeAtlas
