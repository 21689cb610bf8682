import CodeAtlas.Json.Value
import CodeAtlas.Number.Unsigned
import Mathlib.Tactic.SplitIfs

/-!
# What is kept of a value when it is read

A text may give the members of an object in any order, and one name more than once.  A reader puts
them in the order of their names and lets the last of equal names win, at every level.  This file
says what becomes of a value in this way, and gives the two measures that decide whether a value
comes back from its text at all: how deep it is nested, and whether its numbers fit in words.
-/

namespace CodeAtlas.Json

/-! ## Members in order -/

/-- Every name comes once, and in order. -/
def Increasing (members : List (String × Value)) : Prop :=
  members.Pairwise fun m n => m.1 < n.1

variable {name : String} {v : Value} {m : String × Value} {members : List (String × Value)}

theorem mem_of_mem_insertMember (h : m ∈ Value.insertMember name v members) :
    m = (name, v) ∨ m ∈ members := by
  induction members with
  | nil => exact .inl (List.mem_singleton.mp h)
  | cons n rest ih =>
    rw [Value.insertMember] at h
    split_ifs at h with hlt heq
    · exact List.mem_cons.mp h
    · rcases List.mem_cons.mp h with h | h
      · exact .inl h
      · exact .inr (List.mem_cons_of_mem n h)
    · rcases List.mem_cons.mp h with h | h
      · exact .inr (h ▸ List.mem_cons_self)
      · exact (ih h).imp_right (List.mem_cons_of_mem n)

theorem Increasing.insertMember (h : Increasing members) :
    Increasing (Value.insertMember name v members) := by
  induction members with
  | nil => exact List.pairwise_singleton _ _
  | cons n rest ih =>
    obtain ⟨hfirst, hrest⟩ := List.pairwise_cons.mp h
    rw [Value.insertMember]
    split_ifs with hlt heq
    · refine List.pairwise_cons.mpr ⟨fun m hm => ?_, h⟩
      rcases List.mem_cons.mp hm with rfl | hm
      · exact hlt
      · exact String.lt_trans hlt (hfirst m hm)
    · subst heq
      exact List.pairwise_cons.mpr ⟨hfirst, hrest⟩
    · refine List.pairwise_cons.mpr ⟨fun m hm => ?_, ih hrest⟩
      rcases mem_of_mem_insertMember hm with rfl | hm
      · refine String.not_le.mp fun hle => heq ?_
        exact String.le_antisymm hle (String.not_lt.mp hlt)
      · exact hfirst m hm

theorem insertMember_of_forall_lt (h : ∀ m ∈ members, m.1 < name) :
    Value.insertMember name v members = members ++ [(name, v)] := by
  induction members with
  | nil => rfl
  | cons n rest ih =>
    have hn := h n List.mem_cons_self
    have hne : name ≠ n.1 := by
      rintro rfl
      exact String.lt_irrefl _ hn
    rw [Value.insertMember, if_neg (String.lt_asymm hn), if_neg hne,
      ih fun m hm => h m (List.mem_cons_of_mem n hm), List.cons_append]

/-- Members that are in order already are kept as they are. -/
theorem ofMembers_of_increasing (h : Increasing members) :
    Value.ofMembers members = .object members := by
  have hfold (done rest : List (String × Value)) (h : Increasing (done ++ rest)) :
      rest.foldl (fun acc m => Value.insertMember m.1 m.2 acc) done = done ++ rest := by
    induction rest generalizing done with
    | nil => exact (List.append_nil done).symm
    | cons m rest ih =>
      have hlast : ∀ n ∈ done, n.1 < m.1 := fun n hn =>
        (List.pairwise_append.mp h).2.2 n hn m List.mem_cons_self
      rw [List.foldl_cons, insertMember_of_forall_lt hlast, ih _ (by simpa using h),
        List.append_assoc, List.singleton_append]
  exact congrArg Value.object (hfold [] members h)

/-- An object as it is read has its members in order, each of which was given. -/
theorem exists_ofMembers (members : List (String × Value)) :
    ∃ kept, Value.ofMembers members = .object kept ∧ Increasing kept ∧ ∀ m ∈ kept, m ∈ members := by
  have hfold (done rest : List (String × Value)) (h : Increasing done) :
      Increasing (rest.foldl (fun acc m => Value.insertMember m.1 m.2 acc) done) ∧
      ∀ n ∈ rest.foldl (fun acc m => Value.insertMember m.1 m.2 acc) done, n ∈ done ∨ n ∈ rest := by
    induction rest generalizing done with
    | nil => exact ⟨h, fun n hn => .inl hn⟩
    | cons m rest ih =>
      obtain ⟨hincreasing, hmem⟩ := ih (Value.insertMember m.1 m.2 done) h.insertMember
      refine ⟨hincreasing, fun n hn => ?_⟩
      rcases hmem n hn with hn | hn
      · rcases mem_of_mem_insertMember hn with rfl | hn
        · exact .inr List.mem_cons_self
        · exact .inl hn
      · exact .inr (List.mem_cons_of_mem m hn)
  obtain ⟨hincreasing, hmem⟩ := hfold [] members .nil
  exact ⟨_, rfl, hincreasing, fun n hn => (hmem n hn).resolve_left List.not_mem_nil⟩

/-! ## Values -/

mutual

/-- The value with the members of every object put in order. -/
def Value.ordered : Value → Value
  | .array items => .array (orderedItems items)
  | .object members => .ofMembers (orderedMembers members)
  | v => v

def orderedItems : List Value → List Value
  | [] => []
  | v :: rest => v.ordered :: orderedItems rest

def orderedMembers : List (String × Value) → List (String × Value)
  | [] => []
  | (name, v) :: rest => (name, v.ordered) :: orderedMembers rest

end

mutual

/-- How deep arrays and objects are nested. -/
def Value.depth : Value → Nat
  | .array items => depthOfItems items + 1
  | .object members => depthOfMembers members + 1
  | _ => 0

def depthOfItems : List Value → Nat
  | [] => 0
  | v :: rest => max v.depth (depthOfItems rest)

def depthOfMembers : List (String × Value) → Nat
  | [] => 0
  | (_, v) :: rest => max v.depth (depthOfMembers rest)

end

/-- A whole number of a machine word. -/
def Number.isWord : Number → Bool
  | nat n => n ≤ Number.maxWord
  | negative n => n < Nat.pow 2 63
  | real _ => false

mutual

/-- All numbers in the value are whole numbers of a machine word. -/
def Value.inWords : Value → Bool
  | .number n => n.isWord
  | .array items => itemsInWords items
  | .object members => membersInWords members
  | _ => true

def itemsInWords : List Value → Bool
  | [] => true
  | v :: rest => v.inWords && itemsInWords rest

def membersInWords : List (String × Value) → Bool
  | [] => true
  | (_, v) :: rest => v.inWords && membersInWords rest

end

theorem orderedItems_eq_self {items : List Value} :
    orderedItems items = items ↔ ∀ v ∈ items, v.ordered = v := by
  induction items with
  | nil => simp [orderedItems]
  | cons v rest ih => rw [orderedItems, List.cons.injEq, ih, List.forall_mem_cons]

theorem orderedMembers_of_forall (h : ∀ m ∈ members, m.2.ordered = m.2) :
    orderedMembers members = members := by
  induction members with
  | nil => rfl
  | cons m rest ih =>
    rw [orderedMembers, h m List.mem_cons_self, ih fun n hn => h n (List.mem_cons_of_mem m hn)]

theorem depthOfItems_le {items : List Value} {k : Nat} :
    depthOfItems items ≤ k ↔ ∀ v ∈ items, v.depth ≤ k := by
  induction items with
  | nil => simp [depthOfItems]
  | cons v rest ih => rw [depthOfItems, Nat.max_le, ih, List.forall_mem_cons]

theorem depthOfMembers_le {k : Nat} :
    depthOfMembers members ≤ k ↔ ∀ m ∈ members, m.2.depth ≤ k := by
  induction members with
  | nil => simp [depthOfMembers]
  | cons m rest ih => rw [depthOfMembers, Nat.max_le, ih, List.forall_mem_cons]

/-- A value as it is read: every object in order, and at most so many levels. -/
structure Value.Tidy (levels : Nat) (v : Value) : Prop where
  ordered : v.ordered = v
  depth : v.depth ≤ levels

theorem Value.tidy_array {levels : Nat} {items : List Value} :
    (Value.array items).Tidy (levels + 1) ↔ ∀ v ∈ items, v.Tidy levels := by
  have hordered : (Value.array items).ordered = .array items ↔ ∀ v ∈ items, v.ordered = v := by
    rw [Value.ordered, Value.array.injEq, orderedItems_eq_self]
  have hdepth : (Value.array items).depth ≤ levels + 1 ↔ ∀ v ∈ items, v.depth ≤ levels := by
    rw [Value.depth, Nat.add_le_add_iff_right, depthOfItems_le]
  constructor
  · intro h v hv
    exact ⟨hordered.mp h.ordered v hv, hdepth.mp h.depth v hv⟩
  · intro h
    exact ⟨hordered.mpr fun v hv => (h v hv).ordered, hdepth.mpr fun v hv => (h v hv).depth⟩

theorem Value.Tidy.object {levels : Nat} (hmembers : Increasing members)
    (h : ∀ m ∈ members, m.2.Tidy levels) : (Value.object members).Tidy (levels + 1) where
  ordered := by
    rw [Value.ordered, orderedMembers_of_forall fun m hm => (h m hm).ordered,
      ofMembers_of_increasing hmembers]
  depth := Nat.succ_le_succ (depthOfMembers_le.mpr fun m hm => (h m hm).depth)

theorem Value.Tidy.ofMembers {levels : Nat} (h : ∀ m ∈ members, m.2.Tidy levels) :
    (Value.ofMembers members).Tidy (levels + 1) := by
  obtain ⟨kept, hkept, hincreasing, hmem⟩ := exists_ofMembers members
  rw [hkept]
  exact .object hincreasing fun m hm => h m (hmem m hm)

/-! ### Values that come back -/

theorem itemsInWords_iff {items : List Value} : itemsInWords items ↔ ∀ v ∈ items, v.inWords := by
  induction items with
  | nil => simp [itemsInWords]
  | cons v rest ih => rw [itemsInWords, Bool.and_eq_true, ih, List.forall_mem_cons]

theorem membersInWords_iff : membersInWords members ↔ ∀ m ∈ members, m.2.inWords := by
  induction members with
  | nil => simp [membersInWords]
  | cons m rest ih => rw [membersInWords, Bool.and_eq_true, ih, List.forall_mem_cons]

/-- A value that comes back from its text as it is, and has at most so many levels. -/
structure Value.Returns (levels : Nat) (v : Value) : Prop extends v.Tidy levels where
  inWords : v.inWords

namespace Value.Returns

variable {levels : Nat}

theorem text (s : String) : (Value.text s).Returns levels :=
  ⟨⟨rfl, Nat.zero_le _⟩, rfl⟩

theorem array {items : List Value} (h : ∀ v ∈ items, v.Returns levels) :
    (Value.array items).Returns (levels + 1) :=
  ⟨tidy_array.mpr fun v hv => (h v hv).toTidy, itemsInWords_iff.mpr fun v hv => (h v hv).inWords⟩

theorem texts (items : List String) : (Value.texts items).Returns (levels + 1) := by
  refine array fun v hv => ?_
  obtain ⟨s, -, rfl⟩ := List.mem_map.mp hv
  exact text s

theorem object (hmembers : Increasing members) (h : ∀ m ∈ members, m.2.Returns levels) :
    (Value.object members).Returns (levels + 1) :=
  ⟨.object hmembers fun m hm => (h m hm).toTidy,
    membersInWords_iff.mpr fun m hm => (h m hm).inWords⟩

theorem single (name : String) (h : v.Returns levels) :
    (Value.object [(name, v)]).Returns (levels + 1) :=
  object (List.pairwise_singleton _ _) (List.forall_mem_singleton.mpr h)

theorem pair {name' : String} {v' : Value} (hname : name < name') (h : v.Returns levels)
    (h' : v'.Returns levels) : (Value.object [(name, v), (name', v')]).Returns (levels + 1) :=
  object (List.pairwise_pair.mpr hname)
    (List.forall_mem_cons.mpr ⟨h, List.forall_mem_singleton.mpr h'⟩)

theorem ofMembers (h : ∀ m ∈ members, m.2.Returns levels) :
    (Value.ofMembers members).Returns (levels + 1) := by
  obtain ⟨kept, hkept, hincreasing, hmem⟩ := exists_ofMembers members
  rw [hkept]
  exact object hincreasing fun m hm => h m (hmem m hm)

end Value.Returns

end CodeAtlas.Json
