import CodeAtlas.Json.Printer
import CodeAtlas.Proofs.Json.Grammar
import Mathlib.Tactic.FieldSimp
import Mathlib.Tactic.Ring

/-!
# What is printed is a text of the value

Both forms, the compact one and the indented one, spell the value that is printed, character by
character and for every value.  The lemmas are stated with what follows the text, as the grammar is,
and the recursion over values is that of the printer.

The work is in the numbers.  A decimal fraction is written in one of three positional forms or with
an exponent, and in each the digits have to come to the value.

The compact form has no control character, since strings hide theirs in escapes.  So it is one line.
-/

namespace CodeAtlas.Json

/-! ## Strings -/

theorem hexDigit_mem {n : Nat} (h : n < 16) : (hexDigit n, n) ∈ hexDigits := by
  have hall : ∀ k ∈ List.range 16, (hexDigit k, k) ∈ hexDigits := by decide
  exact hall n (List.mem_range.mpr h)

theorem spellsChar_escapeChar (c : Char) (rest : List Char) :
    SpellsChar c (escapeChar c ++ rest) rest := by
  unfold escapeChar
  split_ifs with hquote hslash _ _ _ _ _ hlow
  any_goals subst c; exact .short (by decide)
  · have hzero : ('0', 0) ∈ hexDigits := by decide
    have hhex : FourHex (0 * 4096 + 0 * 256 + c.toNat / 16 * 16 + c.toNat % 16)
        ('0' :: '0' :: hexDigit (c.toNat / 16) :: hexDigit (c.toNat % 16) :: rest) rest :=
      .mk hzero hzero (hexDigit_mem (by omega)) (hexDigit_mem (by omega))
    have hsum : 0 * 4096 + 0 * 256 + c.toNat / 16 * 16 + c.toNat % 16 = c.toNat := by omega
    rw [hsum] at hhex
    have hunit := SpellsChar.unit hhex (.inl (by omega))
    rwa [Char.ofNat_toNat] at hunit
  · exact .plain (by omega) hquote hslash

theorem spellsChars_flatMap (text rest : List Char) :
    SpellsChars text (text.flatMap escapeChar ++ '"' :: rest) rest := by
  induction text with
  | nil => exact .close rest
  | cons c text ih =>
    rw [List.flatMap_cons, List.append_assoc]
    exact .more (spellsChar_escapeChar c _) ih

theorem spellsString_quote (s : String) (rest : List Char) :
    SpellsString s ((quote s).toList ++ rest) rest := by
  have hquote : (quote s).toList ++ rest = '"' :: (s.toList.flatMap escapeChar ++ '"' :: rest) := by
    simp [quote]
  rw [hquote]
  exact .mk (spellsChars_flatMap s.toList rest)

/-! ## Numbers -/

theorem digits_toDigits (n : Nat) : Digits (Nat.toDigits 10 n) :=
  ⟨Nat.toDigits_ne_nil, fun _ hc => Nat.isDigit_of_mem_toDigits (by decide) (by decide) hc⟩

theorem valueOf_toDigits (n : Nat) : valueOf (Nat.toDigits 10 n) = n :=
  Nat.ofDigitChars_toDigits (by decide) (by decide)

/-- The first digit of a number is no zero unless the number is. -/
theorem head?_toDigits_ne {n : Nat} (h : 0 < n) : (Nat.toDigits 10 n).head? ≠ some '0' := by
  induction n using Nat.strongRecOn with
  | ind n ih =>
    rw [Nat.toDigits_eq_if (by decide)]
    split_ifs with hsmall
    · have hall : ∀ k ∈ List.range 10, 0 < k → k.digitChar ≠ '0' := by decide
      simpa using hall n (List.mem_range.mpr hsmall) h
    · rw [List.head?_append_of_ne_nil _ Nat.toDigits_ne_nil]
      exact ih (n / 10) (by omega) (by omega)

theorem whole_toDigits (n : Nat) : Whole (Nat.toDigits 10 n) := by
  refine ⟨digits_toDigits n, fun hhead => ?_⟩
  rcases Nat.eq_zero_or_pos n with rfl | h
  · rfl
  · exact absurd hhead (head?_toDigits_ne h)

theorem toList_toString (n : Nat) : (toString n).toList = Nat.toDigits 10 n := by
  rw [Nat.toString_eq_ofList_toDigits, String.toList_ofList]

theorem valueOf_append (ds es : List Char) :
    valueOf (ds ++ es) = valueOf ds * 10 ^ es.length + valueOf es := by
  rw [valueOf, Nat.ofDigitChars_append, Nat.ofDigitChars_eq_ofDigitChars_zero, Nat.mul_comm]
  rfl

theorem valueOf_zeros (n : Nat) : valueOf (List.replicate n '0') = 0 := by
  rw [valueOf, Nat.ofDigitChars_replicate_zero, Nat.mul_zero]

theorem isDigit_of_mem_zeros {c : Char} {n : Nat} (h : c ∈ List.replicate n '0') : c.isDigit := by
  rw [List.eq_of_mem_replicate h]
  rfl

theorem Digits.zeros_append {ds : List Char} (h : Digits ds) (n : Nat) :
    Digits (List.replicate n '0' ++ ds) := by
  refine ⟨by simp [h.1], fun c hc => ?_⟩
  rcases List.mem_append.mp hc with hc | hc
  · exact isDigit_of_mem_zeros hc
  · exact h.2 c hc

theorem exponent_toString (k : Int) (rest : List Char) :
    Exponent k ('e' :: ((toString k).toList ++ rest)) rest := by
  cases k with
  | ofNat n =>
    have htext : (toString (Int.ofNat n)).toList = Nat.toDigits 10 n := toList_toString n
    have hvalue : Int.ofNat n = valueOf (Nat.toDigits 10 n) := by
      rw [valueOf_toDigits]
      rfl
    rw [htext, hvalue]
    exact .plain (.inl rfl) (digits_toDigits n)
  | negSucc n =>
    have htext : (toString (Int.negSucc n)).toList = '-' :: Nat.toDigits 10 (n + 1) := by
      change ("-" ++ toString (n + 1)).toList = _
      rw [String.toList_append, toList_toString]
      rfl
    have hvalue : Int.negSucc n = -valueOf (Nat.toDigits 10 (n + 1)) := by
      rw [valueOf_toDigits]
      rfl
    rw [htext, hvalue]
    exact .minus (.inl rfl) (digits_toDigits (n + 1))

theorem sign_sign (d : Number.Decimal) (rest : List Char) :
    Sign d.negative (d.sign.toList ++ rest) rest := by
  unfold Number.Decimal.sign
  cases d.negative with
  | true => exact .minus rest
  | false => exact .plus rest

/-! ### Fractions -/

section

variable {d : Number.Decimal}

/-- Digits with a point among them, an exponent after them, or both. -/
theorem spellsNumber_real {whole fraction a b rest : List Char} {exponent : Int}
    (htext : d.render.toList ++ rest = d.sign.toList ++ (whole ++ a)) (hwhole : Whole whole)
    (hfraction : Fraction fraction a b) (hexponent : Exponent exponent b rest)
    (hshown : rest.length < a.length)
    (hvalue : d.magnitude = valueOf (whole ++ fraction) * 10 ^ (exponent - fraction.length)) :
    SpellsNumber (.real d) (d.render.toList ++ rest) rest := by
  rw [htext]
  exact .real (sign_sign d _) hwhole hfraction hexponent (fun heq => by simp [heq] at hshown) hvalue

theorem length_lt_point (ds rest : List Char) : rest.length < ('.' :: (ds ++ rest)).length := by
  simp only [List.length_cons, List.length_append]
  omega

theorem digits_zero : Digits ['0'] := ⟨by simp, by simp⟩

theorem whole_zero : Whole ['0'] := ⟨digits_zero, fun _ => rfl⟩

/-- The first digits of a number. -/
theorem whole_of_prefix {n : Nat} (h : 0 < n) {ds : List Char} (hne : ds ≠ [])
    (hfront : ds <+: Nat.toDigits 10 n) : Whole ds := by
  refine ⟨⟨hne, fun c hc => (digits_toDigits n).2 c (hfront.subset hc)⟩, fun hzero => ?_⟩
  obtain ⟨after, hafter⟩ := hfront
  have hfirst := head?_toDigits_ne h
  rw [← hafter, List.head?_append_of_ne_nil _ hne] at hfirst
  exact absurd hzero hfirst

theorem Whole.append_zeros {ds : List Char} (h : Whole ds) (hhead : ds.head? ≠ some '0') (k : Nat) :
    Whole (ds ++ List.replicate k '0') := by
  refine ⟨⟨by simp [h.1.1], fun c hc => ?_⟩, fun hzero => absurd ?_ hhead⟩
  · rcases List.mem_append.mp hc with hc | hc
    · exact h.1.2 c hc
    · exact isDigit_of_mem_zeros hc
  · rwa [List.head?_append_of_ne_nil _ h.1.1] at hzero

theorem spells_zero (h : d.digits = 0) (rest : List Char) :
    SpellsNumber (.real d) (d.render.toList ++ rest) rest := by
  have htext : d.render.toList ++ rest = d.sign.toList ++ (['0'] ++ '.' :: (['0'] ++ rest)) := by
    simp [Number.Decimal.render, h]
  have hvalue : valueOf ['0', '0'] = 0 := by decide
  refine spellsNumber_real htext whole_zero (.some digits_zero) (.none rest)
    (length_lt_point _ rest) ?_
  simp [Number.Decimal.magnitude, h, hvalue]

/-- The point after all digits. -/
theorem toList_placePoint_after {digits : List Char} (h : digits ≠ []) (k : Nat) :
    (Number.Decimal.placePoint digits (digits.length + k)).toList =
      digits ++ List.replicate k '0' := by
  have hpos := List.length_pos_iff.mpr h
  rw [Number.Decimal.placePoint, if_neg (by omega), if_neg (by omega)]
  simp [Number.Decimal.zeros]

/-- The point before all digits. -/
theorem toList_placePoint_before (digits : List Char) (k : Nat) :
    (Number.Decimal.placePoint digits (-k)).toList =
      '0' :: '.' :: (List.replicate k '0' ++ digits) := by
  rw [Number.Decimal.placePoint, if_pos (by omega)]
  simp [Number.Decimal.zeros]

/-- The point among the digits. -/
theorem toList_placePoint_among {digits : List Char} {k : Nat} (h : 0 < k)
    (hk : k < digits.length) : (Number.Decimal.placePoint digits k).toList =
      digits.take k ++ '.' :: digits.drop k := by
  rw [Number.Decimal.placePoint, if_neg (by omega), if_pos (by omega)]
  simp

/-- A whole number with a point and a zero. -/
theorem spells_wholeForm (h : 0 < d.digits) (hexponent : 0 ≤ d.exponent)
    (hbefore : (Nat.toDigits 10 d.digits).length + d.exponent ≤ 16) (rest : List Char) :
    SpellsNumber (.real d) (d.render.toList ++ rest) rest := by
  obtain ⟨k, hk⟩ := Int.eq_ofNat_of_zero_le hexponent
  have htext : d.render.toList ++ rest = d.sign.toList ++
      ((Nat.toDigits 10 d.digits ++ List.replicate k '0') ++ '.' :: (['0'] ++ rest)) := by
    rw [Number.Decimal.render, if_neg (by omega), if_pos ⟨hexponent, hbefore⟩, hk]
    simp [toList_placePoint_after Nat.toDigits_ne_nil]
  have hwhole : Whole (Nat.toDigits 10 d.digits ++ List.replicate k '0') :=
    (whole_toDigits d.digits).append_zeros (head?_toDigits_ne h) k
  have hzero : valueOf ['0'] = 0 := by decide
  refine spellsNumber_real htext hwhole (.some digits_zero) (.none rest)
    (length_lt_point _ rest) ?_
  rw [valueOf_append, valueOf_append, valueOf_zeros, valueOf_toDigits]
  simp [Number.Decimal.magnitude, hk, hzero]

/-- A fraction below one, with zeros between the point and its digits. -/
theorem spells_smallForm (h : 0 < d.digits) {k : Nat} (hk : k < 5)
    (hbefore : (Nat.toDigits 10 d.digits).length + d.exponent = -(k : Int)) (rest : List Char) :
    SpellsNumber (.real d) (d.render.toList ++ rest) rest := by
  have hpos : 0 < (Nat.toDigits 10 d.digits).length := Nat.length_toDigits_pos
  have htext : d.render.toList ++ rest = d.sign.toList ++
      (['0'] ++ '.' :: ((List.replicate k '0' ++ Nat.toDigits 10 d.digits) ++ rest)) := by
    rw [Number.Decimal.render, if_neg (by omega), if_neg (by omega), if_pos (by omega), hbefore]
    simp [toList_placePoint_before]
  have hfraction : Digits (List.replicate k '0' ++ Nat.toDigits 10 d.digits) :=
    (digits_toDigits d.digits).zeros_append k
  refine spellsNumber_real htext whole_zero (.some hfraction) (.none rest)
    (length_lt_point _ rest) ?_
  have hzero : valueOf ['0'] = 0 := by decide
  have hexponent : d.exponent =
      0 - ((List.replicate k '0' ++ Nat.toDigits 10 d.digits).length : Int) := by
    simp only [List.length_append, List.length_replicate]
    omega
  rw [valueOf_append, valueOf_append, valueOf_zeros, valueOf_toDigits, hzero, ← hexponent]
  simp [Number.Decimal.magnitude]

/-- A fraction with the point among its digits. -/
theorem spells_middleForm (h : 0 < d.digits) {k : Nat} (hpos : 0 < k) (hk : k ≤ 16)
    (hexponent : d.exponent < 0)
    (hbefore : (Nat.toDigits 10 d.digits).length + d.exponent = k) (rest : List Char) :
    SpellsNumber (.real d) (d.render.toList ++ rest) rest := by
  have hlength : k < (Nat.toDigits 10 d.digits).length := by omega
  have htext : d.render.toList ++ rest = d.sign.toList ++ ((Nat.toDigits 10 d.digits).take k ++
      '.' :: ((Nat.toDigits 10 d.digits).drop k ++ rest)) := by
    rw [Number.Decimal.render, if_neg (by omega), if_neg (by omega), if_pos (by omega), hbefore]
    simp [toList_placePoint_among hpos hlength]
  have hwhole : Whole ((Nat.toDigits 10 d.digits).take k) := by
    have hne : (Nat.toDigits 10 d.digits).take k ≠ [] := by
      simp [Nat.ne_of_gt hpos, Nat.toDigits_ne_nil]
    exact whole_of_prefix h hne (List.take_prefix k _)
  have hfraction : Digits ((Nat.toDigits 10 d.digits).drop k) := by
    refine ⟨by simp [hlength], fun c hc => ?_⟩
    exact (digits_toDigits d.digits).2 c (List.mem_of_mem_drop hc)
  refine spellsNumber_real htext hwhole (.some hfraction) (.none rest)
    (length_lt_point _ rest) ?_
  have hexp : d.exponent = 0 - (((Nat.toDigits 10 d.digits).drop k).length : Int) := by
    simp only [List.length_drop]
    omega
  rw [List.take_append_drop, valueOf_toDigits, ← hexp, Number.Decimal.magnitude]

/-- A fraction with one digit before the point and an exponent. -/
theorem spells_exponentForm (h : 0 < d.digits)
    (hwhole : ¬ (d.exponent ≥ 0 ∧ (Nat.toDigits 10 d.digits).length + d.exponent ≤ 16))
    (hpoint : ¬ (-5 < (Nat.toDigits 10 d.digits).length + d.exponent ∧
      (Nat.toDigits 10 d.digits).length + d.exponent ≤ 16)) (rest : List Char) :
    SpellsNumber (.real d) (d.render.toList ++ rest) rest := by
  obtain ⟨c, tail, hdigits⟩ : ∃ c tail, Nat.toDigits 10 d.digits = c :: tail :=
    List.exists_cons_of_ne_nil Nat.toDigits_ne_nil
  have hvalue : valueOf (c :: tail) = d.digits := by rw [← hdigits, valueOf_toDigits]
  have hlength : (Nat.toDigits 10 d.digits).length = tail.length + 1 := by rw [hdigits]; rfl
  have hfirst : Whole [c] := whole_of_prefix h (List.cons_ne_nil c []) (by simp [hdigits])
  have hexp := exponent_toString (tail.length + d.exponent) rest
  obtain ⟨a, htext, hfraction⟩ : ∃ a, d.render.toList ++ rest = d.sign.toList ++ ([c] ++ a) ∧
      Fraction tail a ('e' :: ((toString (tail.length + d.exponent)).toList ++ rest)) := by
    have hbefore : (tail.length + 1 : Nat) + d.exponent - 1 = tail.length + d.exponent := by omega
    rw [Number.Decimal.render, if_neg (by omega), if_neg hwhole, if_neg hpoint, hdigits,
      List.length_cons, hbefore]
    cases tail with
    | nil => exact ⟨_, by simp, .none _⟩
    | cons next tail =>
      have htail : Digits (next :: tail) := by
        refine ⟨List.cons_ne_nil next tail, fun e he => (digits_toDigits d.digits).2 e ?_⟩
        rw [hdigits]
        exact List.mem_cons_of_mem c he
      exact ⟨_, by simp, .some htail⟩
  have hshown : rest.length < a.length := by
    have hle := hfraction.length_le
    simp only [List.length_cons, List.length_append] at hle
    omega
  refine spellsNumber_real htext hfirst hfraction hexp hshown ?_
  rw [List.singleton_append, hvalue, add_sub_cancel_left, Number.Decimal.magnitude]

theorem spellsNumber_render_real (d : Number.Decimal) (rest : List Char) :
    SpellsNumber (.real d) (d.render.toList ++ rest) rest := by
  rcases Nat.eq_zero_or_pos d.digits with h | h
  · exact spells_zero h rest
  by_cases hwhole : d.exponent ≥ 0 ∧ (Nat.toDigits 10 d.digits).length + d.exponent ≤ 16
  · exact spells_wholeForm h hwhole.1 hwhole.2 rest
  by_cases hpoint : -5 < (Nat.toDigits 10 d.digits).length + d.exponent ∧
      (Nat.toDigits 10 d.digits).length + d.exponent ≤ 16
  · obtain ⟨k, hk | hk⟩ := Int.eq_nat_or_neg ((Nat.toDigits 10 d.digits).length + d.exponent)
    · rcases Nat.eq_zero_or_pos k with rfl | hpos
      · exact spells_smallForm h (k := 0) (by omega) (by simpa using hk) rest
      · exact spells_middleForm h hpos (by omega) (by omega) hk rest
    · exact spells_smallForm h (by omega) hk rest
  · exact spells_exponentForm h hwhole hpoint rest

end

theorem spellsNumber_render (n : Number) (rest : List Char) :
    SpellsNumber n (n.render.toList ++ rest) rest := by
  cases n with
  | nat n =>
    have hnat : SpellsNumber (.nat (valueOf (Nat.toDigits 10 n))) (Nat.toDigits 10 n ++ rest)
      rest := .nat (whole_toDigits n)
    rwa [valueOf_toDigits, ← toList_toString] at hnat
  | negative n =>
    have htext : (Number.negative n).render.toList ++ rest =
        '-' :: (Nat.toDigits 10 (n + 1) ++ rest) := by
      simp [Number.render]
    rw [htext]
    exact .negative (whole_toDigits (n + 1)) (valueOf_toDigits (n + 1))
  | real d => exact spellsNumber_render_real d rest

/-! ## Values -/

mutual

/-- The recursion is that of the printer. -/
theorem spells_render (v : Value) (rest : List Char) : Spells v (v.render.toList ++ rest) rest := by
  match v with
  | .null => exact .null rest
  | .bool true => exact .true rest
  | .bool false => exact .false rest
  | .number n => exact .number (spellsNumber_render n rest)
  | .text s => exact .text (spellsString_quote s rest)
  | .array [] => exact .noItems (.none _)
  | .array (v :: items) =>
    have h := spellsItems_render (v :: items) (List.cons_ne_nil v items) rest
    have htext : (Value.array (v :: items)).render.toList ++ rest =
        '[' :: ((renderItems (v :: items)).toList ++ ']' :: rest) := by
      simp [Value.render]
    rw [htext]
    exact .items h
  | .object [] => exact .noMembers (.none _)
  | .object (m :: members) =>
    have h := spellsMembers_render (m :: members) (List.cons_ne_nil m members) rest
    have htext : (Value.object (m :: members)).render.toList ++ rest =
        '\x7b' :: ((renderMembers (m :: members)).toList ++ '\x7d' :: rest) := by
      simp [Value.render]
    rw [htext]
    exact .members h

theorem spellsItems_render (items : List Value) (hitems : items ≠ []) (rest : List Char) :
    SpellsItems items ((renderItems items).toList ++ ']' :: rest) rest := by
  match items with
  | [] => exact absurd rfl hitems
  | [v] => exact .last (.mk (.none _) (spells_render v _) (.none _))
  | v :: w :: items =>
    have h := spellsItems_render (w :: items) (List.cons_ne_nil w items) rest
    have htext : (renderItems (v :: w :: items)).toList ++ ']' :: rest =
        v.render.toList ++ ',' :: ((renderItems (w :: items)).toList ++ ']' :: rest) := by
      simp [renderItems]
    rw [htext]
    exact .more (.mk (.none _) (spells_render v _) (.none _)) h

theorem spellsMembers_render (members : List (String × Value)) (hmembers : members ≠ [])
    (rest : List Char) :
    SpellsMembers members ((renderMembers members).toList ++ '\x7d' :: rest) rest := by
  match members with
  | [] => exact absurd rfl hmembers
  | [(name, v)] =>
    have htext : (renderMembers [(name, v)]).toList ++ '\x7d' :: rest =
        (quote name).toList ++ ':' :: (v.render.toList ++ '\x7d' :: rest) := by
      simp [renderMembers]
    rw [htext]
    exact .last (.mk (.none _) (spellsString_quote name _) (.none _)
      (.mk (.none _) (spells_render v _) (.none _)))
  | (name, v) :: m :: members =>
    have h := spellsMembers_render (m :: members) (List.cons_ne_nil m members) rest
    have htext : (renderMembers ((name, v) :: m :: members)).toList ++ '\x7d' :: rest =
        (quote name).toList ++ ':' :: (v.render.toList ++
          ',' :: ((renderMembers (m :: members)).toList ++ '\x7d' :: rest)) := by
      simp [renderMembers]
    rw [htext]
    exact .more (.mk (.none _) (spellsString_quote name _) (.none _)
      (.mk (.none _) (spells_render v _) (.none _))) h

end

theorem isText_render (v : Value) : IsText v v.render.toList := by
  have h := spells_render v []
  rw [List.append_nil] at h
  exact .mk (.none _) h (.none _)

/-! ### The indented form -/

theorem blanks_replicate (n : Nat) (cs : List Char) : Blanks (List.replicate n ' ' ++ cs) cs := by
  induction n with
  | zero => exact .none cs
  | succ n ih => exact .more rfl ih

theorem blanks_newline (level : Nat) (cs : List Char) :
    Blanks ((newline level).toList ++ cs) cs := by
  have htext : (newline level).toList ++ cs = '\n' :: (List.replicate (2 * level) ' ' ++ cs) := by
    simp [newline]
  rw [htext]
  exact .more rfl (blanks_replicate _ cs)

mutual

theorem spells_pretty (level : Nat) (v : Value) (rest : List Char) :
    Spells v ((v.pretty level).toList ++ rest) rest := by
  match v with
  | .null =>
    rw [Value.pretty]
    exact .null rest
  | .bool true =>
    rw [Value.pretty]
    exact .true rest
  | .bool false =>
    rw [Value.pretty]
    exact .false rest
  | .number n => exact .number (spellsNumber_render n rest)
  | .text s => exact .text (spellsString_quote s rest)
  | .array [] =>
    rw [Value.pretty]
    exact .noItems (.none _)
  | .array (v :: items) =>
    have h := spellsItems_pretty (level + 1) (v :: items) (List.cons_ne_nil v items)
      (blanks_newline level (']' :: rest))
    have htext : ((Value.array (v :: items)).pretty level).toList ++ rest =
        '[' :: ((prettyItems (level + 1) (v :: items)).toList ++
          ((newline level).toList ++ ']' :: rest)) := by
      simp [Value.pretty]
    rw [htext]
    exact .items h
  | .object [] =>
    rw [Value.pretty]
    exact .noMembers (.none _)
  | .object (m :: members) =>
    have h := spellsMembers_pretty (level + 1) (m :: members) (List.cons_ne_nil m members)
      (blanks_newline level ('\x7d' :: rest))
    have htext : ((Value.object (m :: members)).pretty level).toList ++ rest =
        '\x7b' :: ((prettyMembers (level + 1) (m :: members)).toList ++
          ((newline level).toList ++ '\x7d' :: rest)) := by
      simp [Value.pretty]
    rw [htext]
    exact .members h

theorem spellsItems_pretty (level : Nat) (items : List Value) (hitems : items ≠ [])
    {tail rest : List Char} (htail : Blanks tail (']' :: rest)) :
    SpellsItems items ((prettyItems level items).toList ++ tail) rest := by
  match items with
  | [] => exact absurd rfl hitems
  | [v] =>
    have htext : (prettyItems level [v]).toList ++ tail =
        (newline level).toList ++ ((v.pretty level).toList ++ tail) := by
      simp [prettyItems]
    rw [htext]
    exact .last (.mk (blanks_newline level _) (spells_pretty level v _) htail)
  | v :: w :: items =>
    have h := spellsItems_pretty level (w :: items) (List.cons_ne_nil w items) htail
    have htext : (prettyItems level (v :: w :: items)).toList ++ tail =
        (newline level).toList ++ ((v.pretty level).toList ++
          ',' :: ((prettyItems level (w :: items)).toList ++ tail)) := by
      simp [prettyItems]
    rw [htext]
    exact .more (.mk (blanks_newline level _) (spells_pretty level v _) (.none _)) h

theorem spellsMembers_pretty (level : Nat) (members : List (String × Value))
    (hmembers : members ≠ []) {tail rest : List Char} (htail : Blanks tail ('\x7d' :: rest)) :
    SpellsMembers members ((prettyMembers level members).toList ++ tail) rest := by
  match members with
  | [] => exact absurd rfl hmembers
  | [(name, v)] =>
    have htext : (prettyMembers level [(name, v)]).toList ++ tail =
        (newline level).toList ++ ((quote name).toList ++
          ':' :: ' ' :: ((v.pretty level).toList ++ tail)) := by
      simp [prettyMembers]
    rw [htext]
    exact .last (.mk (blanks_newline level _) (spellsString_quote name _) (.none _)
      (.mk (.more rfl (.none _)) (spells_pretty level v _) htail))
  | (name, v) :: m :: members =>
    have h := spellsMembers_pretty level (m :: members) (List.cons_ne_nil m members) htail
    have htext : (prettyMembers level ((name, v) :: m :: members)).toList ++ tail =
        (newline level).toList ++ ((quote name).toList ++ ':' :: ' ' :: ((v.pretty level).toList ++
          ',' :: ((prettyMembers level (m :: members)).toList ++ tail))) := by
      simp [prettyMembers]
    rw [htext]
    exact .more (.mk (blanks_newline level _) (spellsString_quote name _) (.none _)
      (.mk (.more rfl (.none _)) (spells_pretty level v _) (.none _))) h

end

theorem isText_pretty (v : Value) (level : Nat) : IsText v (v.pretty level).toList := by
  have h := spells_pretty level v []
  rw [List.append_nil] at h
  exact .mk (.none _) h (.none _)

/-! ## The compact form is one line -/

/-- No character is a control character. -/
def Printable (cs : List Char) : Prop :=
  ∀ c ∈ cs, 0x20 ≤ c.toNat

instance : DecidablePred Printable :=
  List.decidableBAll fun c : Char => 0x20 ≤ c.toNat

@[simp]
theorem printable_nil : Printable [] :=
  fun _ hc => absurd hc List.not_mem_nil

@[simp]
theorem printable_append {cs ds : List Char} : Printable (cs ++ ds) ↔ Printable cs ∧ Printable ds :=
  List.forall_mem_append

@[simp]
theorem printable_cons {c : Char} {cs : List Char} :
    Printable (c :: cs) ↔ 0x20 ≤ c.toNat ∧ Printable cs :=
  List.forall_mem_cons

theorem Digits.printable {ds : List Char} (h : Digits ds) : Printable ds := by
  intro c hc
  have hdigit := h.2 c hc
  simp only [Char.isDigit, Bool.and_eq_true, decide_eq_true_eq, ge_iff_le, UInt32.le_iff_toNat_le]
    at hdigit
  have hlow : 48 ≤ c.toNat := hdigit.1
  omega

theorem Sign.printable {negative : Bool} {cs rest : List Char} (h : Sign negative cs rest)
    (hrest : Printable rest) : Printable cs := by
  cases h with
  | plus => exact hrest
  | minus => exact printable_cons.mpr ⟨by decide, hrest⟩

theorem Fraction.printable {ds cs rest : List Char} (h : Fraction ds cs rest)
    (hrest : Printable rest) : Printable cs := by
  cases h with
  | none => exact hrest
  | some h => exact printable_cons.mpr ⟨by decide, printable_append.mpr ⟨h.printable, hrest⟩⟩

theorem Exponent.printable {k : Int} {cs rest : List Char} (h : Exponent k cs rest)
    (hrest : Printable rest) : Printable cs := by
  have hletter {e : Char} (he : e = 'e' ∨ e = 'E') : 0x20 ≤ e.toNat := by
    rcases he with rfl | rfl <;> decide
  cases h with
  | none => exact hrest
  | plain he h =>
    exact printable_cons.mpr ⟨hletter he, printable_append.mpr ⟨h.printable, hrest⟩⟩
  | plus he h =>
    refine printable_cons.mpr ⟨hletter he, printable_cons.mpr ⟨by decide, ?_⟩⟩
    exact printable_append.mpr ⟨h.printable, hrest⟩
  | minus he h =>
    refine printable_cons.mpr ⟨hletter he, printable_cons.mpr ⟨by decide, ?_⟩⟩
    exact printable_append.mpr ⟨h.printable, hrest⟩

theorem SpellsNumber.printable {n : Number} {cs rest : List Char} (h : SpellsNumber n cs rest)
    (hrest : Printable rest) : Printable cs := by
  cases h with
  | nat h => exact printable_append.mpr ⟨h.1.printable, hrest⟩
  | negative h hn =>
    exact printable_cons.mpr ⟨by decide, printable_append.mpr ⟨h.1.printable, hrest⟩⟩
  | real hsign hwhole hfraction hexponent _ _ =>
    refine hsign.printable (printable_append.mpr ⟨hwhole.1.printable, ?_⟩)
    exact hfraction.printable (hexponent.printable hrest)

theorem printable_number (n : Number) : Printable n.render.toList := by
  have h := spellsNumber_render n []
  rw [List.append_nil] at h
  exact h.printable printable_nil

theorem printable_escapeChar (c : Char) : Printable (escapeChar c) := by
  have hhex {n : Nat} (h : n < 16) : 0x20 ≤ (hexDigit n).toNat := by
    have hall : ∀ k ∈ List.range 16, 0x20 ≤ (hexDigit k).toNat := by decide
    exact hall n (List.mem_range.mpr h)
  unfold escapeChar
  split_ifs with _ _ _ _ _ _ _ hlow
  any_goals simp [Printable]
  · exact ⟨hhex (by omega), hhex (by omega)⟩
  · omega

theorem printable_quote (s : String) : Printable (quote s).toList := by
  have hquote : (quote s).toList = '"' :: (s.toList.flatMap escapeChar ++ ['"']) := by
    simp [quote]
  have hbody : Printable (s.toList.flatMap escapeChar) := by
    intro c hc
    obtain ⟨d, -, hc⟩ := List.mem_flatMap.mp hc
    exact printable_escapeChar d c hc
  rw [hquote, printable_cons, printable_append]
  exact ⟨by decide, hbody, by simp [Printable]⟩

mutual

theorem printable_render (v : Value) : Printable v.render.toList := by
  match v with
  | .null => decide
  | .bool true => decide
  | .bool false => decide
  | .number n => exact printable_number n
  | .text s => exact printable_quote s
  | .array items =>
    have h := printable_renderItems items
    simp [Value.render, h]
  | .object members =>
    have h := printable_renderMembers members
    simp [Value.render, h]

theorem printable_renderItems (items : List Value) : Printable (renderItems items).toList := by
  match items with
  | [] => decide
  | [v] => exact printable_render v
  | v :: w :: items =>
    have h := printable_renderItems (w :: items)
    have hv := printable_render v
    simp [renderItems, h, hv]

theorem printable_renderMembers (members : List (String × Value)) :
    Printable (renderMembers members).toList := by
  match members with
  | [] => decide
  | [(name, v)] =>
    have hv := printable_render v
    simp [renderMembers, hv, printable_quote]
  | (name, v) :: m :: members =>
    have h := printable_renderMembers (m :: members)
    have hv := printable_render v
    simp [renderMembers, h, hv, printable_quote]

end

end CodeAtlas.Json
