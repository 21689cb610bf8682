import CodeAtlas.Json.Value
import Mathlib.Data.Rat.Defs
import Mathlib.Algebra.Field.Rat

/-!
# What a JSON text says

The grammar of JSON as a relation between values and texts.  `Spells v cs rest` says that `cs` is a
text of `v` followed by `rest`, and `IsText v cs` that `cs` is one from end to end, with blanks
around it.

Neither the printer nor the reader is mentioned here, so that what one writes and what the other
takes in can be held against the same relation.

A number is spelled exactly.  A whole number is spelled by its digits alone.  A fraction is spelled
with a point or an exponent, by digits that come to its value.
-/

namespace CodeAtlas

/-- The value without its sign. -/
def Number.Decimal.magnitude (d : Number.Decimal) : ℚ :=
  d.digits * 10 ^ d.exponent

namespace Json

/-! ## Blanks -/

def isBlank (c : Char) : Bool :=
  c = ' ' || c = '\n' || c = '\t' || c = '\r'

inductive Blanks : List Char → List Char → Prop
  | none (rest : List Char) : Blanks rest rest
  | more {c : Char} {cs rest : List Char} (hc : isBlank c) (h : Blanks cs rest) :
    Blanks (c :: cs) rest

/-! ## Strings -/

/-- The letters that stand for characters after a backslash. -/
def shortEscapes : List (Char × Char) := [
  ('"', '"'), ('\\', '\\'), ('/', '/'), ('b', '\x08'), ('f', '\x0c'), ('n', '\n'), ('r', '\r'),
  ('t', '\t')]

def hexDigits : List (Char × Nat) := [
  ('0', 0), ('1', 1), ('2', 2), ('3', 3), ('4', 4), ('5', 5), ('6', 6), ('7', 7), ('8', 8),
  ('9', 9), ('a', 10), ('b', 11), ('c', 12), ('d', 13), ('e', 14), ('f', 15), ('A', 10),
  ('B', 11), ('C', 12), ('D', 13), ('E', 14), ('F', 15)]

/-- Four digits that come to a number below two to the sixteenth. -/
inductive FourHex : Nat → List Char → List Char → Prop
  | mk {a b c d : Char} {k l m n : Nat} {rest : List Char} (ha : (a, k) ∈ hexDigits)
    (hb : (b, l) ∈ hexDigits) (hc : (c, m) ∈ hexDigits) (hd : (d, n) ∈ hexDigits) :
    FourHex (k * 4096 + l * 256 + m * 16 + n) (a :: b :: c :: d :: rest) rest

/-- One character of a string. -/
inductive SpellsChar : Char → List Char → List Char → Prop
  | plain {c : Char} {rest : List Char} (hc : 0x20 ≤ c.toNat) (hquote : c ≠ '"')
    (hslash : c ≠ '\\') : SpellsChar c (c :: rest) rest
  | short {c letter : Char} {rest : List Char} (h : (letter, c) ∈ shortEscapes) :
    SpellsChar c ('\\' :: letter :: rest) rest
  | unit {n : Nat} {cs rest : List Char} (h : FourHex n cs rest)
    (hn : n < 0xD800 ∨ 0xE000 ≤ n) : SpellsChar (Char.ofNat n) ('\\' :: 'u' :: cs) rest
  | pair {m n : Nat} {cs cs' rest : List Char} (h : FourHex m cs ('\\' :: 'u' :: cs'))
    (hm : 0xD800 ≤ m ∧ m < 0xDC00) (h' : FourHex n cs' rest) (hn : 0xDC00 ≤ n ∧ n < 0xE000) :
    SpellsChar (Char.ofNat (0x10000 + (m - 0xD800) * 0x400 + (n - 0xDC00))) ('\\' :: 'u' :: cs) rest

/-- The characters of a string up to its closing quote. -/
inductive SpellsChars : List Char → List Char → List Char → Prop
  | close (rest : List Char) : SpellsChars [] ('"' :: rest) rest
  | more {c : Char} {text cs mid rest : List Char} (hc : SpellsChar c cs mid)
    (h : SpellsChars text mid rest) : SpellsChars (c :: text) cs rest

inductive SpellsString : String → List Char → List Char → Prop
  | mk {s : String} {cs rest : List Char} (h : SpellsChars s.toList cs rest) :
    SpellsString s ('"' :: cs) rest

/-! ## Numbers -/

def Digits (ds : List Char) : Prop :=
  ds ≠ [] ∧ ∀ c ∈ ds, c.isDigit

/-- Digits before the point have no zero in front of another digit. -/
def Whole (ds : List Char) : Prop :=
  Digits ds ∧ (ds.head? = some '0' → ds = ['0'])

/-- What digits come to. -/
def valueOf (ds : List Char) : Nat :=
  Nat.ofDigitChars 10 ds 0

inductive Sign : Bool → List Char → List Char → Prop
  | plus (rest : List Char) : Sign false rest rest
  | minus (rest : List Char) : Sign true ('-' :: rest) rest

/-- The digits after the point, if there are any. -/
inductive Fraction : List Char → List Char → List Char → Prop
  | none (rest : List Char) : Fraction [] rest rest
  | some {ds rest : List Char} (h : Digits ds) : Fraction ds ('.' :: (ds ++ rest)) rest

inductive Exponent : Int → List Char → List Char → Prop
  | none (rest : List Char) : Exponent 0 rest rest
  | plain {e : Char} {ds rest : List Char} (he : e = 'e' ∨ e = 'E') (h : Digits ds) :
    Exponent (valueOf ds) (e :: (ds ++ rest)) rest
  | plus {e : Char} {ds rest : List Char} (he : e = 'e' ∨ e = 'E') (h : Digits ds) :
    Exponent (valueOf ds) (e :: '+' :: (ds ++ rest)) rest
  | minus {e : Char} {ds rest : List Char} (he : e = 'e' ∨ e = 'E') (h : Digits ds) :
    Exponent (-valueOf ds) (e :: '-' :: (ds ++ rest)) rest

inductive SpellsNumber : Number → List Char → List Char → Prop
  | nat {ds rest : List Char} (h : Whole ds) : SpellsNumber (.nat (valueOf ds)) (ds ++ rest) rest
  | negative {n : Nat} {ds rest : List Char} (h : Whole ds) (hn : valueOf ds = n + 1) :
    SpellsNumber (.negative n) ('-' :: (ds ++ rest)) rest
  /-- A fraction shows a point or an exponent, so something follows the whole digits. -/
  | real {d : Number.Decimal} {whole fraction cs a b rest : List Char} {exponent : Int}
    (hsign : Sign d.negative cs (whole ++ a)) (hwhole : Whole whole)
    (hfraction : Fraction fraction a b) (hexponent : Exponent exponent b rest) (hshown : a ≠ rest)
    (hvalue : d.magnitude = valueOf (whole ++ fraction) * 10 ^ (exponent - fraction.length)) :
    SpellsNumber (.real d) cs rest

/-! ## Values -/

mutual

inductive Spells : Value → List Char → List Char → Prop
  | null (rest : List Char) : Spells .null ('n' :: 'u' :: 'l' :: 'l' :: rest) rest
  | true (rest : List Char) : Spells (.bool true) ('t' :: 'r' :: 'u' :: 'e' :: rest) rest
  | false (rest : List Char) : Spells (.bool false) ('f' :: 'a' :: 'l' :: 's' :: 'e' :: rest) rest
  | number {n : Number} {cs rest : List Char} (h : SpellsNumber n cs rest) :
    Spells (.number n) cs rest
  | text {s : String} {cs rest : List Char} (h : SpellsString s cs rest) : Spells (.text s) cs rest
  | noItems {cs rest : List Char} (h : Blanks cs (']' :: rest)) :
    Spells (.array []) ('[' :: cs) rest
  | items {items : List Value} {cs rest : List Char} (h : SpellsItems items cs rest) :
    Spells (.array items) ('[' :: cs) rest
  | noMembers {cs rest : List Char} (h : Blanks cs ('\x7d' :: rest)) :
    Spells (.object []) ('\x7b' :: cs) rest
  | members {members : List (String × Value)} {cs rest : List Char}
    (h : SpellsMembers members cs rest) : Spells (.object members) ('\x7b' :: cs) rest

/-- A value with blanks around it. -/
inductive SpellsItem : Value → List Char → List Char → Prop
  | mk {v : Value} {cs a b rest : List Char} (hcs : Blanks cs a) (hv : Spells v a b)
    (hb : Blanks b rest) : SpellsItem v cs rest

/-- The items of an array up to its closing bracket. -/
inductive SpellsItems : List Value → List Char → List Char → Prop
  | last {v : Value} {cs rest : List Char} (hv : SpellsItem v cs (']' :: rest)) :
    SpellsItems [v] cs rest
  | more {v : Value} {items : List Value} {cs a rest : List Char} (hv : SpellsItem v cs (',' :: a))
    (h : SpellsItems items a rest) : SpellsItems (v :: items) cs rest

inductive SpellsMember : String × Value → List Char → List Char → Prop
  | mk {name : String} {v : Value} {cs a b c rest : List Char} (hcs : Blanks cs a)
    (hname : SpellsString name a b) (hb : Blanks b (':' :: c)) (hv : SpellsItem v c rest) :
    SpellsMember (name, v) cs rest

/-- The members of an object up to its closing bracket. -/
inductive SpellsMembers : List (String × Value) → List Char → List Char → Prop
  | last {m : String × Value} {cs rest : List Char} (hm : SpellsMember m cs ('\x7d' :: rest)) :
    SpellsMembers [m] cs rest
  | more {m : String × Value} {members : List (String × Value)} {cs a rest : List Char}
    (hm : SpellsMember m cs (',' :: a)) (h : SpellsMembers members a rest) :
    SpellsMembers (m :: members) cs rest

end

/-- The characters are a text of the value from end to end. -/
def IsText (v : Value) (cs : List Char) : Prop :=
  SpellsItem v cs []

variable {cs rest : List Char}

/-! ## Where a text starts -/

theorem not_isBlank {c : Char} (hc : c.isDigit ∨ c = '-') : ¬ isBlank c := by
  intro hblank
  simp only [isBlank, Bool.or_eq_true, decide_eq_true_eq] at hblank
  rcases hblank with ((rfl | rfl) | rfl) | rfl <;> exact absurd hc (by decide)

theorem SpellsString.first {s : String} (h : SpellsString s cs rest) :
    ∃ after, cs = '"' :: after := by
  cases h with
  | mk => exact ⟨_, rfl⟩

/-- A number starts with a digit or a sign. -/
theorem SpellsNumber.first {n : Number} (h : SpellsNumber n cs rest) :
    ∃ c after, cs = c :: after ∧ (c.isDigit ∨ c = '-') := by
  have hwhole {ds after : List Char} (hds : Whole ds) :
      ∃ c rest, ds ++ after = c :: rest ∧ (c.isDigit ∨ c = '-') := by
    obtain ⟨d, ds, rfl⟩ := List.exists_cons_of_ne_nil hds.1.1
    exact ⟨d, _, rfl, .inl (hds.1.2 d List.mem_cons_self)⟩
  cases h with
  | nat h => exact hwhole h
  | negative => exact ⟨'-', _, rfl, .inr rfl⟩
  | @real d _ _ _ _ _ _ _ hsign h =>
    generalize d.negative = negative at hsign
    cases hsign with
    | plus => exact hwhole h
    | minus => exact ⟨'-', _, rfl, .inr rfl⟩

/-- The first character of a value is no blank, and it closes nothing. -/
theorem Spells.first {v : Value} (h : Spells v cs rest) :
    ∃ c after, cs = c :: after ∧ ¬ isBlank c ∧ c ≠ ']' := by
  cases h with
  | number h =>
    obtain ⟨c, after, rfl, hc⟩ := h.first
    refine ⟨c, after, rfl, not_isBlank hc, ?_⟩
    rintro rfl
    exact absurd hc (by decide)
  | text h =>
    obtain ⟨after, rfl⟩ := h.first
    exact ⟨'"', after, rfl, by decide⟩
  | _ => exact ⟨_, _, rfl, by decide⟩

/-! ## How long a text is -/

theorem Blanks.length_le (h : Blanks cs rest) : rest.length ≤ cs.length := by
  induction h with
  | none => exact Nat.le_refl _
  | more _ _ ih => exact Nat.le_succ_of_le ih

theorem FourHex.length_eq {n : Nat} (h : FourHex n cs rest) : cs.length = rest.length + 4 := by
  cases h
  rfl

theorem SpellsChar.length_lt {c : Char} (h : SpellsChar c cs rest) : rest.length < cs.length := by
  cases h with
  | plain => exact Nat.lt_succ_self _
  | short =>
    simp only [List.length_cons]
    omega
  | unit h =>
    have := h.length_eq
    simp only [List.length_cons]
    omega
  | pair h _ h' =>
    have := h.length_eq
    have := h'.length_eq
    simp only [List.length_cons] at *
    omega

theorem SpellsChars.length_lt {text cs rest : List Char} (h : SpellsChars text cs rest) :
    rest.length < cs.length := by
  induction h with
  | close => exact Nat.lt_succ_self _
  | more hc _ ih => exact ih.trans hc.length_lt

theorem SpellsString.length_lt {s : String} (h : SpellsString s cs rest) :
    rest.length < cs.length := by
  cases h with
  | mk h => exact h.length_lt.trans (Nat.lt_succ_self _)

theorem Sign.length_le {negative : Bool} (h : Sign negative cs rest) : rest.length ≤ cs.length := by
  cases h <;> simp

theorem Fraction.length_le {ds cs rest : List Char} (h : Fraction ds cs rest) :
    rest.length ≤ cs.length := by
  cases h with
  | none => exact Nat.le_refl _
  | some h =>
    simp only [List.length_cons, List.length_append]
    omega

theorem Exponent.length_le {k : Int} (h : Exponent k cs rest) : rest.length ≤ cs.length := by
  cases h with
  | none => exact Nat.le_refl _
  | plain | plus | minus =>
    simp only [List.length_cons, List.length_append]
    omega

theorem Digits.length_pos {ds : List Char} (h : Digits ds) : 0 < ds.length :=
  List.length_pos_iff.mpr h.1

theorem SpellsNumber.length_lt {n : Number} (h : SpellsNumber n cs rest) :
    rest.length < cs.length := by
  cases h with
  | nat h =>
    have := h.1.length_pos
    simp only [List.length_append]
    omega
  | negative h =>
    have := h.1.length_pos
    simp only [List.length_cons, List.length_append]
    omega
  | real hsign hwhole hfraction hexponent =>
    have := hwhole.1.length_pos
    have := hsign.length_le
    have := hfraction.length_le
    have := hexponent.length_le
    simp only [List.length_append] at *
    omega

mutual

theorem Spells.length_lt {cs rest : List Char} {v : Value} (h : Spells v cs rest) :
    rest.length < cs.length := by
  match h with
  | .null _ =>
    simp only [List.length_cons]
    omega
  | .true _ =>
    simp only [List.length_cons]
    omega
  | .false _ =>
    simp only [List.length_cons]
    omega
  | .number h => exact h.length_lt
  | .text h => exact h.length_lt
  | .noItems h =>
    have := h.length_le
    simp only [List.length_cons] at *
    omega
  | .items h => exact h.length_lt.trans (Nat.lt_succ_self _)
  | .noMembers h =>
    have := h.length_le
    simp only [List.length_cons] at *
    omega
  | .members h => exact h.length_lt.trans (Nat.lt_succ_self _)

theorem SpellsItem.length_lt {cs rest : List Char} {v : Value} (h : SpellsItem v cs rest) :
    rest.length < cs.length := by
  match h with
  | .mk hcs hv hb => exact (hb.length_le.trans_lt hv.length_lt).trans_le hcs.length_le

theorem SpellsItems.length_lt {cs rest : List Char} {items : List Value}
    (h : SpellsItems items cs rest) : rest.length < cs.length := by
  match h with
  | .last hv => exact (Nat.lt_succ_self _).trans hv.length_lt
  | .more hv h => exact h.length_lt.trans ((Nat.lt_succ_self _).trans hv.length_lt)

theorem SpellsMember.length_lt {cs rest : List Char} {m : String × Value}
    (h : SpellsMember m cs rest) : rest.length < cs.length := by
  match h with
  | .mk hcs hname hb hv =>
    have := hcs.length_le
    have := hname.length_lt
    have := hb.length_le
    have := hv.length_lt
    simp only [List.length_cons] at *
    omega

theorem SpellsMembers.length_lt {cs rest : List Char} {members : List (String × Value)}
    (h : SpellsMembers members cs rest) : rest.length < cs.length := by
  match h with
  | .last hm => exact (Nat.lt_succ_self _).trans hm.length_lt
  | .more hm h => exact h.length_lt.trans ((Nat.lt_succ_self _).trans hm.length_lt)

end

end Json

end CodeAtlas
