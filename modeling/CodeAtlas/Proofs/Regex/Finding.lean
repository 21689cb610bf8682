import CodeAtlas.Regex.Basic
import Mathlib.Order.Bounds.Basic

/-!
# Where a match is found

An expression is searched for from the left, one start after the other, so what is found is the
least position at which a match can start (`find?_eq_some_iff`).  Two expressions that lead from the
same positions to the same positions are found in the same places (`find?_congr`).
-/

namespace CodeAtlas.Regex

/-- The positions of a text at which a match can start. -/
def starts (r : Regex) (text : Array Char) : Set Nat :=
  {i | r.ends text [i] ≠ []}

variable {r r' : Regex}

theorem mem_starts_iff {text : Array Char} {i : Nat} :
    i ∈ r.starts text ↔ r.ends text [i] ≠ [] := Iff.rfl

/-- The induction is on the fuel, and the start moves on with each step. -/
theorem findFrom_eq_some_iff (r : Regex) (text : Array Char) (fuel i k : Nat) :
    findFrom r text fuel i = some k ↔
      (i ≤ k ∧ k < i + fuel) ∧ k ∈ r.starts text ∧ ∀ j ∈ r.starts text, i ≤ j → k ≤ j := by
  induction fuel generalizing i with
  | zero =>
    rw [findFrom]
    constructor
    · nofun
    · rintro ⟨⟨hik, hk⟩, -⟩
      omega
  | succ fuel ih =>
    rw [findFrom]
    by_cases hempty : r.ends text [i] = []
    · rw [if_pos (List.isEmpty_iff.mpr hempty), ih]
      have hne (j : Nat) (hj : j ∈ r.starts text) : i ≠ j := by
        rintro rfl
        exact hj hempty
      constructor
      · rintro ⟨⟨hik, hk⟩, hstart, hleast⟩
        refine ⟨⟨by omega, by omega⟩, hstart, fun j hj hij => hleast j hj ?_⟩
        exact Nat.lt_of_le_of_ne hij (hne j hj)
      · rintro ⟨⟨hik, hk⟩, hstart, hleast⟩
        have hlt := Nat.lt_of_le_of_ne hik (hne k hstart)
        exact ⟨⟨hlt, by omega⟩, hstart, fun j hj hij => hleast j hj (by omega)⟩
    · rw [if_neg (mt List.isEmpty_iff.mp hempty), Option.some_inj]
      constructor
      · rintro rfl
        exact ⟨⟨Nat.le_refl _, by omega⟩, hempty, fun j _ hij => hij⟩
      · rintro ⟨⟨hik, -⟩, -, hleast⟩
        exact Nat.le_antisymm hik (hleast i hempty (Nat.le_refl i))

theorem find?_eq_some_iff {text : List Char} {k : Nat} :
    r.find? text = some k ↔ k ≤ text.length ∧ IsLeast (r.starts text.toArray) k := by
  rw [find?, findFrom_eq_some_iff]
  constructor
  · rintro ⟨⟨-, hk⟩, hstart, hleast⟩
    exact ⟨by omega, hstart, fun j hj => hleast j hj (Nat.zero_le j)⟩
  · rintro ⟨hk, hstart, hleast⟩
    exact ⟨⟨Nat.zero_le k, by omega⟩, hstart, fun j hj _ => hleast hj⟩

/-- What is found is the least member of the set of places at which a match can start. -/
theorem find?_eq_some_iff_of_starts {text : List Char} {S : Set Nat}
    (hle : ∀ k ∈ S, k ≤ text.length)
    (h : ∀ k ≤ text.length, k ∈ r.starts text.toArray ↔ k ∈ S) {k : Nat} :
    r.find? text = some k ↔ IsLeast S k := by
  rw [find?_eq_some_iff]
  constructor
  · rintro ⟨hk, hstart, hleast⟩
    refine ⟨(h k hk).mp hstart, fun j hj => ?_⟩
    exact hleast ((h j (hle j hj)).mpr hj)
  · rintro ⟨hplace, hleast⟩
    have hk := hle k hplace
    refine ⟨hk, (h k hk).mpr hplace, fun j hj => ?_⟩
    by_cases hjk : j ≤ k
    · exact hleast ((h j (hjk.trans hk)).mp hj)
    · omega

theorem find?_congr (h : ∀ text s, r.ends text s = r'.ends text s) (text : List Char) :
    r.find? text = r'.find? text := by
  have hstarts : r.starts text.toArray = r'.starts text.toArray := by
    ext i
    rw [mem_starts_iff, mem_starts_iff, h]
  refine Option.ext fun k => ?_
  rw [find?_eq_some_iff, find?_eq_some_iff, hstarts]

/-! ## Where a match ends -/

theorem iterate_nil (step : List Nat → List Nat) (n : Nat) : iterate step n [] = [] := by
  cases n <;> simp [iterate]

theorem closure_nil {step : List Nat → List Nat} (h : step [] = []) (n : Nat) :
    closure step n [] [] = [] := by
  cases n <;> simp [closure, h, without]

/-- From nowhere nothing is reached. -/
theorem ends_nil (text : Array Char) (r : Regex) : r.ends text [] = [] := by
  induction r with
  | empty => rfl
  | one set => rfl
  | look l kind => rfl
  | seq a b iha ihb => rw [ends, iha, ihb]
  | alt a b iha ihb => rw [ends, iha, ihb, merge]
  | rep a min max ih =>
    simp only [ends, iterate_nil]
    exact closure_nil ih _

variable (text : Array Char) (i : Nat)

theorem ends_look (l : Look) (kind : Property) :
    (look l kind).ends text [i] = if l.holds text kind i then [i] else [] := by
  rw [ends, List.filter_cons, List.filter_nil]

theorem ends_single (c : Char) :
    (one (.single c)).ends text [i] = if text[i]? = some c then [i + 1] else [] := by
  rw [ends, List.filterMap_cons, List.filterMap_nil]
  cases text[i]? with
  | none => rfl
  | some d =>
    have hcontains : (CharSet.single c).contains d = decide (d = c) := by
      rw [CharSet.single, CharSet.contains, Bool.eq_iff_iff, Bool.and_eq_true, decide_eq_true_eq,
        decide_eq_true_eq, decide_eq_true_eq]
      exact ⟨fun h => Char.le_antisymm h.2 h.1, fun h => h ▸ ⟨Char.le_refl _, Char.le_refl _⟩⟩
    simp only [hcontains, Option.some_inj]
    by_cases hd : d = c <;> simp [hd]

end CodeAtlas.Regex
