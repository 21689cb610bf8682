import CodeAtlas.Json.Reader
import CodeAtlas.Proofs.Json.Grammar
import CodeAtlas.Proofs.Json.Ordered
import Mathlib.Data.List.TakeDrop

/-!
# Texts are read back

The reader takes in every text of a value, and gives the value with its objects in order.  Its fuel
is held against the length of the text.  What is asked of the value is that it is not nested too
deep and that its numbers are whole and fit in a word.

Fractions are left out.  The reader rounds the digits and the power of ten on their own before it
multiplies, so what it makes of a fraction need not be the one that the text spells.

In the other direction, whatever is read is in order, so that nothing changes if it is written and
read again.
-/

namespace CodeAtlas.Json

variable {cs rest : List Char}

/-! ## Blanks -/

theorem skipBlanks_of_blanks (h : Blanks cs rest) : skipBlanks cs = skipBlanks rest := by
  induction h with
  | none => rfl
  | more hc _ ih =>
    rw [← ih]
    exact List.dropWhile_cons_of_pos hc

theorem skipBlanks_cons {c : Char} (hc : ¬ isBlank c) (cs : List Char) :
    skipBlanks (c :: cs) = c :: cs :=
  List.dropWhile_cons_of_neg hc

/-! ## Strings -/

theorem hexValue?_of_mem {a : Char} {k : Nat} (h : (a, k) ∈ hexDigits) : hexValue? a = some k := by
  have hall : ∀ p ∈ hexDigits, hexValue? p.1 = some p.2 := by decide
  exact hall (a, k) h

theorem fourHex_of_spelled {n : Nat} (h : FourHex n cs rest) : fourHex cs = some (n, rest) := by
  cases h with
  | mk ha hb hc hd =>
    simp [fourHex, hexValue?_of_mem ha, hexValue?_of_mem hb, hexValue?_of_mem hc,
      hexValue?_of_mem hd]

theorem escape_of_mem {letter c : Char} (h : (letter, c) ∈ shortEscapes) (rest : List Char) :
    escape false (letter :: rest) = some (c, rest) := by
  simp only [shortEscapes, List.mem_cons, Prod.mk.injEq, List.not_mem_nil, or_false] at h
  rcases h with ⟨rfl, rfl⟩ | ⟨rfl, rfl⟩ | ⟨rfl, rfl⟩ | ⟨rfl, rfl⟩ | ⟨rfl, rfl⟩ | ⟨rfl, rfl⟩ |
    ⟨rfl, rfl⟩ | ⟨rfl, rfl⟩ <;> rfl

theorem escape_unit {n : Nat} (h : FourHex n cs rest)
    (hn : n < 0xD800 ∨ 0xE000 ≤ n) : escape false ('u' :: cs) = some (Char.ofNat n, rest) := by
  have htrailing : isTrailing n = false := by simp [isTrailing]; omega
  have hleading : isLeading n = false := by simp [isLeading]; omega
  simp [escape, fourHex_of_spelled h, htrailing, hleading]

theorem escape_pair {m n : Nat} {cs cs' rest : List Char} (h : FourHex m cs ('\\' :: 'u' :: cs'))
    (hm : 0xD800 ≤ m ∧ m < 0xDC00) (h' : FourHex n cs' rest) (hn : 0xDC00 ≤ n ∧ n < 0xE000) :
    escape false ('u' :: cs) =
      some (Char.ofNat (0x10000 + (m - 0xD800) * 0x400 + (n - 0xDC00)), rest) := by
  have hfirst : isTrailing m = false := by simp [isTrailing]; omega
  have hleading : isLeading m = true := by simp [isLeading]; omega
  have htrailing : isTrailing n = true := by simp [isTrailing]; omega
  simp [escape, fourHex_of_spelled h, fourHex_of_spelled h', hfirst, hleading, htrailing]

theorem stringOnto_char {c : Char} (h : SpellsChar c cs rest) (fuel : Nat)
    (done : List Char) :
    stringOnto false (fuel + 1) done cs = stringOnto false fuel (c :: done) rest := by
  have hescape {cs : List Char} (h : escape false cs = some (c, rest)) :
      stringOnto false (fuel + 1) done ('\\' :: cs) = stringOnto false fuel (c :: done) rest := by
    rw [stringOnto, h]
  cases h with
  | plain hc hquote hslash =>
    rw [stringOnto.eq_5 _ _ _ _ _ hquote hslash, if_neg (by omega)]
  | short h => exact hescape (escape_of_mem h rest)
  | unit h hn => exact hescape (escape_unit h hn)
  | pair h hm h' hn => exact hescape (escape_pair h hm h' hn)

theorem stringOnto_chars {text cs rest : List Char} (h : SpellsChars text cs rest) {fuel : Nat}
    (hfuel : cs.length ≤ fuel) (done : List Char) :
    stringOnto false fuel done cs = some (String.ofList (done.reverse ++ text), rest) := by
  induction h generalizing fuel done with
  | close rest =>
    obtain ⟨fuel, rfl⟩ := Nat.exists_eq_add_one_of_ne_zero (Nat.ne_zero_of_lt hfuel)
    rw [stringOnto, List.append_nil]
  | more hc _ ih =>
    have hlt := hc.length_lt
    obtain ⟨fuel, rfl⟩ := Nat.exists_eq_add_one_of_ne_zero (show fuel ≠ 0 by omega)
    rw [stringOnto_char hc, ih (by omega), List.reverse_cons, List.append_assoc]
    rfl

theorem stringOnto_string {s : String} (h : SpellsString s ('"' :: cs) rest)
    {fuel : Nat} (hfuel : cs.length ≤ fuel) : stringOnto false fuel [] cs = some (s, rest) := by
  cases h with
  | mk h =>
    rw [stringOnto_chars h hfuel, List.reverse_nil, List.nil_append, String.ofList_toList]

/-! ## Numbers -/

/-- Nothing with which a number could go on. -/
def Stops (rest : List Char) : Prop :=
  ∀ c ∈ rest.head?, c.isDigit = false ∧ c ≠ '.' ∧ c ≠ 'e' ∧ c ≠ 'E'

theorem Stops.nil : Stops [] :=
  fun _ hc => absurd hc (Option.not_mem_none _)

theorem Stops.cons {c : Char} (hc : c.isDigit = false ∧ c ≠ '.' ∧ c ≠ 'e' ∧ c ≠ 'E')
    (rest : List Char) : Stops (c :: rest) := by
  rintro _ ⟨⟩
  exact hc

theorem Stops.of_blanks (h : Blanks cs rest) (hrest : Stops rest) : Stops cs := by
  cases h with
  | none => exact hrest
  | more hc _ =>
    rintro _ ⟨⟩
    simp only [isBlank, Bool.or_eq_true, decide_eq_true_eq] at hc
    rcases hc with ((rfl | rfl) | rfl) | rfl <;> decide

theorem spanDigits_append {ds rest : List Char} (h : ∀ c ∈ ds, c.isDigit) (hrest : Stops rest) :
    spanDigits (ds ++ rest) = (ds, rest) := by
  have hdigit (c : Char) : Text.Unicode.asciiDigit c = c.isDigit := rfl
  have hds : ∀ c ∈ ds, Text.Unicode.asciiDigit c := h
  rw [spanDigits, List.span_eq_takeWhile_dropWhile, List.takeWhile_append_of_pos hds,
    List.dropWhile_append_of_pos hds]
  cases rest with
  | nil => simp
  | cons c rest =>
    have hc : Text.Unicode.asciiDigit c = false := (hrest c rfl).1
    simp [hc]

theorem readExponent_of_stops {rest : List Char} (h : Stops rest) :
    readExponent rest = some (none, rest) := by
  cases rest with
  | nil => rfl
  | cons c rest =>
    obtain ⟨-, -, hlower, hupper⟩ := h c rfl
    simp [readExponent, hlower, hupper]

theorem numberText_of_whole {negative : Bool} {ds cs rest : List Char}
    (hsign : Sign negative cs (ds ++ rest)) (h : Whole ds) (hrest : Stops rest) :
    numberText cs = some (⟨negative, ds, none, none⟩, rest) := by
  have hspan := spanDigits_append h.1.2 hrest
  have hexponent := readExponent_of_stops hrest
  have hshape : (ds.isEmpty || (ds.head? = some '0' && ds.length > 1)) = false := by
    have hne : ds.isEmpty = false := by simpa using h.1.1
    by_cases hzero : ds.head? = some '0'
    · rw [h.2 hzero]
      rfl
    · simp [hne, hzero]
  -- What follows the digits, and what they start with, decide the matches of the reader.
  have hpoint : ∀ after, rest = '.' :: after → False := by
    rintro after rfl
    exact (hrest '.' rfl).2.1 rfl
  cases hsign with
  | plus =>
    have hminus : ∀ after, ds ++ rest = '-' :: after → False := by
      intro after heq
      obtain ⟨d, ds, rfl⟩ := List.exists_cons_of_ne_nil h.1.1
      cases heq
      exact absurd (h.1.2 '-' List.mem_cons_self) (by decide)
    simp [numberText, hspan, hexponent, hshape]
  | minus => simp [numberText, hspan, hexponent, hshape]

theorem le_valueOf (ds : List Char) (n : Nat) : n ≤ Nat.ofDigitChars 10 ds n := by
  rw [Nat.ofDigitChars_eq_ofDigitChars_zero]
  exact Nat.le_add_right_of_le (Nat.le_mul_of_pos_left n (Nat.pow_pos (by decide)))

/-- A fold that takes in a digit as long as the number stays in a word takes in all of them, if the
number that they come to is in a word. -/
theorem foldl_digits {step : Nat × Int → Char → Nat × Int}
    (hstep : ∀ n c, 10 * n + (c.toNat - 48) ≤ Number.maxWord →
      step (n, 0) c = (10 * n + (c.toNat - 48), 0))
    (ds : List Char) (n : Nat) (h : Nat.ofDigitChars 10 ds n ≤ Number.maxWord) :
    ds.foldl step (n, 0) = (Nat.ofDigitChars 10 ds n, 0) := by
  induction ds generalizing n with
  | nil => rfl
  | cons c ds ih =>
    rw [List.foldl_cons, hstep n c ((le_valueOf ds _).trans h)]
    exact ih _ h

theorem significand_of_le {ds : List Char} (h : valueOf ds ≤ Number.maxWord) (negative : Bool)
    (exponent : Option Int) : significand ⟨negative, ds, none, exponent⟩ = (valueOf ds, 0) := by
  simp only [significand]
  rw [foldl_digits (fun n c hc => if_pos (by simpa using hc)) ds 0 h]
  rfl

theorem value?_nat {ds : List Char} (h : valueOf ds ≤ Number.maxWord) :
    NumberText.value? ⟨false, ds, none, none⟩ = some (.nat (valueOf ds)) := by
  simp [NumberText.value?, significand_of_le h]

theorem value?_negative {n : Nat} {ds : List Char} (hds : valueOf ds = n + 1)
    (hn : n < Nat.pow 2 63) : NumberText.value? ⟨true, ds, none, none⟩ = some (.negative n) := by
  have hword : valueOf ds ≤ Number.maxWord := by
    rw [hds]
    exact (Nat.succ_le_of_lt hn).trans (by decide)
  have hrange : 0 < n + 1 ∧ n + 1 ≤ Nat.pow 2 63 := ⟨n.succ_pos, hn⟩
  simp [NumberText.value?, significand_of_le hword, hds, hrange]

theorem numberText_of_spells {n : Number} (h : SpellsNumber n cs rest)
    (hn : n.isWord) (hrest : Stops rest) :
    ∃ t, numberText cs = some (t, rest) ∧ t.value? = some n := by
  cases h with
  | nat h => exact ⟨_, numberText_of_whole (.plus _) h hrest, value?_nat (of_decide_eq_true hn)⟩
  | negative h hvalue =>
    exact ⟨_, numberText_of_whole (.minus _) h hrest,
      value?_negative hvalue (of_decide_eq_true hn)⟩
  | real => cases hn

/-! ## Values -/

/-! ### Scalars -/

/-- Scalars are read where they stand. -/
theorem value_scalar {c : Char} {cs : List Char} (hc : ¬ isBlank c) (harray : c ≠ '[')
    (hobject : c ≠ '\x7b') (fuel depth : Nat) :
    value (fuel + 1) depth (c :: cs) = scalar (fuel + 1) (c :: cs) := by
  rw [value, skipBlanks_cons hc]
  split
  · next heq => cases heq; exact absurd rfl harray
  · next heq => cases heq; exact absurd rfl hobject
  · rfl

theorem value_text {s : String} (h : SpellsString s cs rest)
    {fuel : Nat} (hfuel : cs.length ≤ fuel + 1) (depth : Nat) :
    value (fuel + 1) depth cs = some (.text s, rest) := by
  obtain ⟨after, rfl⟩ := h.first
  rw [value_scalar (by decide) (by decide) (by decide), scalar,
    stringOnto_string h (Nat.le_of_succ_le hfuel)]
  rfl

theorem value_number {n : Number} (h : SpellsNumber n cs rest)
    (hn : n.isWord) (hrest : Stops rest) (fuel depth : Nat) :
    value (fuel + 1) depth cs = some (.number n, rest) := by
  obtain ⟨t, htext, hvalue⟩ := numberText_of_spells h hn hrest
  obtain ⟨c, after, rfl, hc⟩ := h.first
  have hother {d : Char} (hd : ¬ d.isDigit ∧ d ≠ '-') : c ≠ d := by
    rintro rfl
    exact hc.elim hd.1 hd.2
  rw [value_scalar (not_isBlank hc) (hother (by decide)) (hother (by decide)), scalar.eq_5]
  · simp [htext, hvalue]
  all_goals
    rintro _ ⟨⟩
    exact hother (by decide) rfl

/-! ### Punctuation -/

theorem symbol_of_blanks {c : Char} (h : Blanks cs (c :: rest))
    (hc : ¬ isBlank c) : symbol c cs = some rest := by
  rw [symbol, skipBlanks_of_blanks h, skipBlanks_cons hc]
  exact if_pos rfl

theorem symbol_of_ne {c d : Char} (h : Blanks cs (d :: rest))
    (hd : ¬ isBlank d) (hne : d ≠ c) : symbol c cs = none := by
  rw [symbol, skipBlanks_of_blanks h, skipBlanks_cons hd]
  exact if_neg hne

theorem next_more {closing : Char} (h : Blanks cs (',' :: rest)) :
    next closing cs = .more rest := by
  rw [next, skipBlanks_of_blanks h, skipBlanks_cons (by decide)]
  rfl

theorem next_done {closing : Char} (h : Blanks cs (closing :: rest))
    (hc : ¬ isBlank closing) (hcomma : closing ≠ ',') : next closing cs = .done rest := by
  rw [next, skipBlanks_of_blanks h, skipBlanks_cons hc]
  split
  · next heq => cases heq; exact absurd rfl hcomma
  · next heq => cases heq; exact if_pos rfl
  · next heq => cases heq

/-! ### Nested values -/

theorem value_of_blanks (h : Blanks cs rest) (fuel depth : Nat) :
    value fuel depth cs = value fuel depth rest := by
  cases fuel with
  | zero => rw [value, value]
  | succ fuel => rw [value, value, skipBlanks_of_blanks h]

/-- An array that does not close at once holds items. -/
theorem value_items {cs : List Char} (hcs : symbol ']' cs = none) {depth : Nat}
    (hdepth : 1 < depth) (fuel : Nat) :
    value (fuel + 1) depth ('[' :: cs) = items fuel (depth - 1) [] cs := by
  rw [value, skipBlanks_cons (by decide)]
  simp only [if_neg (Nat.not_le.mpr hdepth), hcs]

theorem value_members {cs : List Char} (hcs : symbol '\x7d' cs = none) {depth : Nat}
    (hdepth : 1 < depth) (fuel : Nat) :
    value (fuel + 1) depth ('\x7b' :: cs) = members fuel (depth - 1) [] cs := by
  rw [value, skipBlanks_cons (by decide)]
  simp only [if_neg (Nat.not_le.mpr hdepth), hcs]

theorem symbol_item {v : Value} (h : SpellsItem v cs rest) : symbol ']' cs = none := by
  cases h with
  | mk hcs hv hb =>
    obtain ⟨c, after, rfl, hc, hne⟩ := hv.first
    exact symbol_of_ne hcs hc hne

theorem symbol_items {vs : List Value} (h : SpellsItems vs cs rest) : symbol ']' cs = none := by
  cases h with
  | last hv => exact symbol_item hv
  | more hv => exact symbol_item hv

theorem symbol_member {m : String × Value} (h : SpellsMember m cs rest) :
    symbol '\x7d' cs = none := by
  cases h with
  | mk hcs hname hb hv =>
    cases hname with
    | mk => exact symbol_of_ne hcs (by decide) (by decide)

theorem symbol_members {ms : List (String × Value)}
    (h : SpellsMembers ms cs rest) : symbol '\x7d' cs = none := by
  cases h with
  | last hm => exact symbol_member hm
  | more hm => exact symbol_member hm

mutual

/-- A value is read from its text, in order, as long as its numbers are whole and it is not nested
too deep. -/
theorem value_of_spells {cs rest : List Char} {v : Value} (h : Spells v cs rest)
    (hv : v.inWords) (hrest : Stops rest) {fuel depth : Nat} (hdepth : v.depth < depth)
    (hfuel : 2 * cs.length ≤ fuel) : value fuel depth cs = some (v.ordered, rest) := by
  have hlt := h.length_lt
  obtain ⟨fuel, rfl⟩ := Nat.exists_eq_add_one_of_ne_zero (show fuel ≠ 0 by omega)
  match h with
  | .null rest =>
    rw [value_scalar (by decide) (by decide) (by decide)]
    rfl
  | .true rest =>
    rw [value_scalar (by decide) (by decide) (by decide)]
    rfl
  | .false rest =>
    rw [value_scalar (by decide) (by decide) (by decide)]
    rfl
  | .number h =>
    rw [value_number h hv hrest]
    rfl
  | .text h =>
    rw [value_text h (by omega)]
    rfl
  | .noItems h =>
    have hdepth : ¬ depth ≤ 1 := Nat.not_le.mpr hdepth
    rw [value, skipBlanks_cons (by decide)]
    simp only [if_neg hdepth, symbol_of_blanks h (by decide)]
    rfl
  | .items h =>
    rw [Value.depth] at hdepth
    rw [value_items (symbol_items h) (by omega), items_of_spells h hv (by omega)]
    · rfl
    · rw [List.length_cons] at hfuel
      omega
  | .noMembers h =>
    have hdepth : ¬ depth ≤ 1 := Nat.not_le.mpr hdepth
    rw [value, skipBlanks_cons (by decide)]
    simp only [if_neg hdepth, symbol_of_blanks h (by decide)]
    rfl
  | .members h =>
    rw [Value.depth] at hdepth
    rw [value_members (symbol_members h) (by omega), members_of_spells h hv (by omega)]
    · rfl
    · rw [List.length_cons] at hfuel
      omega

/-- The blanks after a value are left. -/
theorem value_of_spellsItem {cs rest : List Char} {v : Value} (h : SpellsItem v cs rest)
    (hv : v.inWords) (hrest : Stops rest) {fuel depth : Nat} (hdepth : v.depth < depth)
    (hfuel : 2 * cs.length ≤ fuel) :
    ∃ left, value fuel depth cs = some (v.ordered, left) ∧ Blanks left rest := by
  match h with
  | .mk hcs h hb =>
    have hle := hcs.length_le
    refine ⟨_, ?_, hb⟩
    rw [value_of_blanks hcs]
    exact value_of_spells h hv (.of_blanks hb hrest) hdepth (by omega)

theorem items_of_spells {cs rest : List Char} {vs : List Value} (h : SpellsItems vs cs rest)
    (hvs : itemsInWords vs) {fuel depth : Nat} (hdepth : depthOfItems vs < depth)
    (hfuel : 2 * cs.length + 1 ≤ fuel) (done : List Value) :
    items fuel depth done cs = some (.array (done.reverse ++ orderedItems vs), rest) := by
  obtain ⟨fuel, rfl⟩ := Nat.exists_eq_add_one_of_ne_zero (Nat.ne_zero_of_lt hfuel)
  have hfuel := Nat.le_of_succ_le_succ hfuel
  match h with
  | .last hv =>
    simp only [itemsInWords, Bool.and_true] at hvs
    simp only [depthOfItems, Nat.max_zero] at hdepth
    obtain ⟨left, hvalue, hleft⟩ := value_of_spellsItem hv hvs (.cons (by decide) rest) hdepth hfuel
    rw [items, hvalue]
    simp only [next_done hleft (by decide) (by decide), orderedItems, List.reverse_cons]
  | .more hv h =>
    simp only [itemsInWords, Bool.and_eq_true] at hvs
    simp only [depthOfItems, Nat.max_lt] at hdepth
    obtain ⟨left, hvalue, hleft⟩ :=
      value_of_spellsItem hv hvs.1 (.cons (by decide) _) hdepth.1 hfuel
    have hlt := hv.length_lt
    rw [List.length_cons] at hlt
    rw [items, hvalue]
    simp [next_more hleft, orderedItems,
      items_of_spells h hvs.2 hdepth.2 (show _ ≤ fuel by omega)]

/-- The parts of a member are read in turn. -/
theorem member_of_spells {cs rest : List Char} {m : String × Value} (h : SpellsMember m cs rest)
    (hm : m.2.inWords) (hrest : Stops rest) {fuel depth : Nat} (hdepth : m.2.depth < depth)
    (hfuel : 2 * cs.length ≤ fuel) :
    ∃ a b c left, symbol '"' cs = some a ∧ stringOnto false (fuel + 1) [] a = some (m.1, b) ∧
      symbol ':' b = some c ∧ value fuel depth c = some (m.2.ordered, left) ∧
      Blanks left rest := by
  match h with
  | .mk hcs hname hb hv =>
    obtain ⟨a, rfl⟩ := hname.first
    have hle := hcs.length_le
    have hlt := hname.length_lt
    have hle' := hb.length_le
    simp only [List.length_cons] at hle hle' hlt
    obtain ⟨left, hvalue, hleft⟩ := value_of_spellsItem hv hm hrest hdepth (show _ ≤ fuel by omega)
    exact ⟨_, _, _, left, symbol_of_blanks hcs (by decide),
      stringOnto_string hname (by omega), symbol_of_blanks hb (by decide), hvalue, hleft⟩

theorem members_of_spells {cs rest : List Char} {ms : List (String × Value)}
    (h : SpellsMembers ms cs rest) (hms : membersInWords ms) {fuel depth : Nat}
    (hdepth : depthOfMembers ms < depth) (hfuel : 2 * cs.length + 1 ≤ fuel)
    (done : List (String × Value)) :
    members fuel depth done cs = some (.ofMembers (done.reverse ++ orderedMembers ms), rest) := by
  obtain ⟨fuel, rfl⟩ := Nat.exists_eq_add_one_of_ne_zero (Nat.ne_zero_of_lt hfuel)
  have hfuel := Nat.le_of_succ_le_succ hfuel
  match h with
  | .last hm =>
    simp only [membersInWords, Bool.and_true] at hms
    simp only [depthOfMembers, Nat.max_zero] at hdepth
    obtain ⟨a, b, c, left, ha, hb, hc, hvalue, hleft⟩ :=
      member_of_spells hm hms (.cons (by decide) rest) hdepth hfuel
    rw [members, ha]
    simp [hb, hc, hvalue, next_done hleft (by decide) (by decide), orderedMembers]
  | .more hm h =>
    simp only [membersInWords, Bool.and_eq_true] at hms
    simp only [depthOfMembers, Nat.max_lt] at hdepth
    obtain ⟨a, b, c, left, ha, hb, hc, hvalue, hleft⟩ :=
      member_of_spells hm hms.1 (.cons (by decide) _) hdepth.1 hfuel
    have hlt := hm.length_lt
    rw [List.length_cons] at hlt
    rw [members, ha]
    simp [hb, hc, hvalue, next_more hleft, orderedMembers,
      members_of_spells h hms.2 hdepth.2 (show _ ≤ fuel by omega)]

end

/-- **Texts are read back.**  A text of a value is read, and what is read is the value with the
members of its objects in order, if its numbers are whole numbers of a word and it is not nested too
deep.  What the text does with blanks and escapes, and in which order it has the members, does not
matter. -/
theorem read_of_isText {v : Value} {cs : List Char} (h : IsText v cs) (hv : v.inWords)
    (hdepth : v.depth < maxDepth) : read cs = some v.ordered := by
  obtain ⟨left, hvalue, hleft⟩ :=
    value_of_spellsItem h hv .nil hdepth (show _ ≤ fuelFor cs from Nat.le_add_right _ _)
  rw [read, hvalue]
  simp only [skipBlanks_of_blanks hleft]
  rfl

/-! ## What is read is in order -/

theorem Value.Tidy.of_scalar {fuel levels : Nat} {v : Value}
    (h : scalar fuel cs = some (v, rest)) : v.Tidy levels := by
  unfold scalar at h
  split at h
  · obtain ⟨_, -, hv⟩ := Option.map_eq_some_iff.mp h
    cases hv
    exact ⟨rfl, Nat.zero_le _⟩
  · obtain ⟨_, -, hv⟩ := Option.map_eq_some_iff.mp h
    cases hv
    exact ⟨rfl, Nat.zero_le _⟩
  · obtain ⟨_, -, hv⟩ := Option.map_eq_some_iff.mp h
    cases hv
    exact ⟨rfl, Nat.zero_le _⟩
  · obtain ⟨_, -, hv⟩ := Option.map_eq_some_iff.mp h
    cases hv
    exact ⟨rfl, Nat.zero_le _⟩
  · obtain ⟨_, -, h⟩ := Option.bind_eq_some_iff.mp h
    obtain ⟨_, -, hv⟩ := Option.bind_eq_some_iff.mp h
    cases hv
    exact ⟨rfl, Nat.zero_le _⟩

mutual

/-- The recursion is that of the reader. -/
theorem tidy_of_value {cs rest : List Char} {fuel depth : Nat} {v : Value}
    (h : value fuel depth cs = some (v, rest)) : v.Tidy (depth - 1) := by
  match fuel with
  | 0 =>
    rw [value] at h
    cases h
  | fuel + 1 =>
    rw [value] at h
    split at h
    · split_ifs at h with hdepth
      obtain ⟨levels, rfl⟩ := Nat.exists_eq_add_of_le' (Nat.lt_of_not_le hdepth)
      split at h
      · cases h
        exact Value.tidy_array.mpr (List.forall_mem_nil _)
      · exact tidy_of_items h (List.forall_mem_nil _)
    · split_ifs at h with hdepth
      obtain ⟨levels, rfl⟩ := Nat.exists_eq_add_of_le' (Nat.lt_of_not_le hdepth)
      split at h
      · cases h
        exact .object .nil (List.forall_mem_nil _)
      · exact tidy_of_members h (List.forall_mem_nil _)
    · exact .of_scalar h

theorem tidy_of_items {cs rest : List Char} {fuel depth : Nat} {done : List Value} {v : Value}
    (h : items fuel depth done cs = some (v, rest)) (hdone : ∀ w ∈ done, w.Tidy (depth - 1)) :
    v.Tidy (depth - 1 + 1) := by
  match fuel with
  | 0 =>
    rw [items] at h
    cases h
  | fuel + 1 =>
    rw [items] at h
    split at h
    · cases h
    · next hvalue =>
      have hdone := List.forall_mem_cons.mpr ⟨tidy_of_value hvalue, hdone⟩
      split at h
      · exact tidy_of_items h hdone
      · cases h
        exact Value.tidy_array.mpr fun w hw => hdone w (List.mem_reverse.mp hw)
      · cases h

theorem tidy_of_members {cs rest : List Char} {fuel depth : Nat} {done : List (String × Value)}
    {v : Value} (h : members fuel depth done cs = some (v, rest))
    (hdone : ∀ m ∈ done, m.2.Tidy (depth - 1)) : v.Tidy (depth - 1 + 1) := by
  match fuel with
  | 0 =>
    rw [members] at h
    cases h
  | fuel + 1 =>
    rw [members] at h
    split at h
    · cases h
    split at h
    · cases h
    split at h
    · cases h
    split at h
    · cases h
    · next hvalue =>
      split at h
      · exact tidy_of_members h (List.forall_mem_cons.mpr ⟨tidy_of_value hvalue, hdone⟩)
      · cases h
        refine .ofMembers fun m hm => ?_
        rcases List.mem_cons.mp (List.mem_reverse.mp hm) with rfl | hm
        · exact tidy_of_value hvalue
        · exact hdone m hm
      · cases h

end

theorem tidy_of_read {cs : List Char} {v : Value} (h : read cs = some v) :
    v.Tidy (maxDepth - 1) := by
  unfold read at h
  split at h
  · next hvalue =>
    split_ifs at h
    cases h
    exact tidy_of_value hvalue
  · cases h

theorem tidy_of_knownMembers {names : List String} {fuel : Nat}
    {done members : List (String × Value)}
    (h : knownMembers names fuel done cs = some (members, rest))
    (hdone : ∀ m ∈ done, m.2.Tidy (maxDepth - 2)) : ∀ m ∈ members, m.2.Tidy (maxDepth - 2) := by
  induction fuel generalizing done cs with
  | zero => cases h
  | succ fuel ih =>
    rw [knownMembers] at h
    split at h
    · cases h
    dsimp only at h
    split at h
    · cases h
    · next done' _ hread =>
      have hdone : ∀ m ∈ done', m.2.Tidy (maxDepth - 2) := by
        split_ifs at hread
        · obtain ⟨_, -, hread⟩ := Option.bind_eq_some_iff.mp hread
          obtain ⟨_, -, hread⟩ := Option.map_eq_some_iff.mp hread
          cases hread
          exact hdone
        · obtain ⟨_, -, hread⟩ := Option.bind_eq_some_iff.mp hread
          obtain ⟨_, hvalue, hread⟩ := Option.map_eq_some_iff.mp hread
          cases hread
          exact List.forall_mem_cons.mpr ⟨tidy_of_value hvalue, hdone⟩
      split at h
      · exact ih h hdone
      · cases h
        exact hdone
      · cases h

/-- The fields of a record are in order, and two levels below the deepest. -/
theorem tidy_of_readRecord {names : List String} {cs : List Char}
    {members : List (String × Value)} (h : readRecord names cs = some members) :
    ∀ m ∈ members, m.2.Tidy (maxDepth - 2) := by
  unfold readRecord at h
  split at h
  · split at h <;> dsimp only at h
    · split_ifs at h
      cases h
      exact List.forall_mem_nil _
    · split at h
      · next hmembers =>
        split_ifs at h
        cases h
        exact tidy_of_knownMembers hmembers (List.forall_mem_nil _)
      · cases h
  · split at h
    · next items hread =>
      split_ifs at h
      cases h
      intro m hm
      exact Value.tidy_array.mp (tidy_of_read hread) m.2 (List.of_mem_zip hm).2
    · cases h

end CodeAtlas.Json
