import CodeAtlas.Text.Line
import CodeAtlas.Proofs.Syntax.Rows
import CodeAtlas.Proofs.Text.Utf8
import Mathlib.Tactic.SplitIfs

/-!
# The lines of a decoded source are its rows

Rows are counted in octets and lines in characters, after a decoding that may change the octets.
They agree all the same, since a newline is never part of anything longer: the decoder stops before
it (`next_append_newline`), and no other octets are decoded to it (`next_fst_ne_newline`).

So a source can be decoded row by row (`decodeLossy_append_newline`), and line `r` of its text is row
`r` decoded, without the carriage return that a newline takes along (`getElem?_lines`).
-/

namespace CodeAtlas.Text

/-! ## Decoding up to a newline -/

namespace Utf8

variable {octets rest : List UInt8}

/-- What comes before a newline is decoded as if it came last. -/
theorem next_append_newline (a : UInt8) (octets rest : List UInt8) :
    next a (octets ++ 10 :: rest) =
      ((next a octets).1, (next a octets).2 ++ 10 :: rest) := by
  have hcontinuation : isContinuation 10 = false := rfl
  have hthree : secondOfThree a 10 = false := by
    rw [secondOfThree]
    split_ifs <;> rfl
  have hfour : secondOfFour a 10 = false := by
    rw [secondOfFour]
    split_ifs <;> rfl
  -- At most three octets are looked at beside the first one.
  rcases octets with _ | ⟨b, _ | ⟨c, _ | ⟨d, octets⟩⟩⟩ <;>
    simp only [next, List.nil_append, List.cons_append, hcontinuation, hthree, hfour,
      Bool.false_eq_true, if_false] <;>
    split_ifs <;> rfl

theorem next_snd_suffix (a : UInt8) (octets : List UInt8) : (next a octets).2 <:+ octets := by
  rcases octets with _ | ⟨b, _ | ⟨c, _ | ⟨d, octets⟩⟩⟩ <;>
    simp only [next] <;> split_ifs <;> simp [List.suffix_cons_iff]

theorem ofNat_ne_newline {n : Nat} (h : n ≠ 10) : Char.ofNat n ≠ '\n' := by
  intro heq
  have hnat := congrArg Char.toNat heq
  by_cases hvalid : n.isValidChar
  · rw [Char.ofNat, dif_pos hvalid] at hnat
    exact h hnat
  · rw [Char.ofNat, dif_neg hvalid] at hnat
    cases hnat

theorem two_ne_newline {a : UInt8} (ha : (0xC2 ≤ a && a ≤ 0xDF) = true) (b : UInt8) :
    lowBits a 5 * 64 + lowBits b 6 ≠ 10 := by
  simp only [Bool.and_eq_true, decide_eq_true_eq, UInt8.le_iff_toNat_le, UInt8.reduceToNat] at ha
  have hbits : lowBits a 5 = a.toNat % 32 := rfl
  omega

theorem three_ne_newline {a b : UInt8} (ha : (0xE0 ≤ a && a ≤ 0xEF) = true)
    (hb : secondOfThree a b = true) (c : UInt8) :
    lowBits a 4 * 4096 + lowBits b 6 * 64 + lowBits c 6 ≠ 10 := by
  simp only [Bool.and_eq_true, decide_eq_true_eq, UInt8.le_iff_toNat_le, UInt8.reduceToNat] at ha
  have hbits : lowBits a 4 = a.toNat % 16 := rfl
  have hbits' : lowBits b 6 = b.toNat % 64 := rfl
  rw [secondOfThree] at hb
  split_ifs at hb with hfirst
  · simp only [Bool.and_eq_true, decide_eq_true_eq, UInt8.le_iff_toNat_le,
      UInt8.reduceToNat] at hb
    omega
  all_goals
    have hne : a.toNat ≠ 224 := fun heq => hfirst (UInt8.toNat_inj.mp heq)
    omega

theorem four_ne_newline {a b : UInt8} (ha : (0xF0 ≤ a && a ≤ 0xF4) = true)
    (hb : secondOfFour a b = true) (c d : UInt8) :
    lowBits a 3 * 262144 + lowBits b 6 * 4096 + lowBits c 6 * 64 + lowBits d 6 ≠ 10 := by
  simp only [Bool.and_eq_true, decide_eq_true_eq, UInt8.le_iff_toNat_le, UInt8.reduceToNat] at ha
  have hbits : lowBits a 3 = a.toNat % 8 := rfl
  have hbits' : lowBits b 6 = b.toNat % 64 := rfl
  rw [secondOfFour] at hb
  split_ifs at hb with hfirst
  · simp only [Bool.and_eq_true, decide_eq_true_eq, UInt8.le_iff_toNat_le,
      UInt8.reduceToNat] at hb
    omega
  all_goals
    have hne : a.toNat ≠ 240 := fun heq => hfirst (UInt8.toNat_inj.mp heq)
    omega

/-- Only a newline is decoded to a newline: the second octet rules out that a number is written in
more octets than it needs. -/
theorem next_fst_ne_newline {a : UInt8} (h : a ≠ 10) (octets : List UInt8) :
    (next a octets).1 ≠ some '\n' := by
  have hne (n : Nat) (hn : n ≠ 10) : some (Char.ofNat n) ≠ some '\n' :=
    fun heq => ofNat_ne_newline hn (Option.some.inj heq)
  have ha : a.toNat ≠ 10 := fun heq => h (UInt8.toNat_inj.mp heq)
  have hbad : (none : Option Char) ≠ some '\n' := nofun
  unfold next
  split_ifs with hone htwo hthree hfour
  · exact hne _ ha
  · split
    · split_ifs
      · exact hne _ (two_ne_newline htwo _)
      · exact hbad
    · exact hbad
  · split
    · split_ifs with hsecond
      · split
        · split_ifs
          · exact hne _ (three_ne_newline hthree hsecond _)
          · exact hbad
        · exact hbad
      · exact hbad
    · exact hbad
  · split
    · split_ifs with hsecond
      · split
        · split_ifs
          · split
            · split_ifs
              · exact hne _ (four_ne_newline hfour hsecond _ _)
              · exact hbad
            · exact hbad
          · exact hbad
        · exact hbad
      · exact hbad
    · exact hbad
  · exact hbad

/-- A newline parts what is decoded before it from what is decoded after it. -/
theorem decode_append_newline (octets rest : List UInt8) :
    decode (octets ++ 10 :: rest) = decode octets ++ some '\n' :: decode rest :=
  match octets with
  | [] => by
    rw [List.nil_append, decode_cons, decode_nil]
    rfl
  | a :: octets => by
    have hlength := length_next_le a octets
    rw [List.cons_append, decode_cons, next_append_newline, decode_cons,
      decode_append_newline (next a octets).2 rest]
    rfl
termination_by octets.length

theorem newline_notMem_decode (octets : List UInt8) (h : 10 ∉ octets) :
    some '\n' ∉ decode octets :=
  match octets with
  | [] => by simp
  | a :: octets => by
    have hlength := length_next_le a octets
    obtain ⟨ha, hrest⟩ := not_or.mp (mt List.mem_cons.mpr h)
    have hnext : 10 ∉ (next a octets).2 := fun hm => hrest ((next_snd_suffix a octets).mem hm)
    rw [decode_cons, List.mem_cons, not_or]
    exact ⟨(next_fst_ne_newline (Ne.symm ha) octets).symm,
      newline_notMem_decode (next a octets).2 hnext⟩
termination_by octets.length

theorem decodeLossy_append_newline (octets rest : List UInt8) :
    decodeLossy (octets ++ 10 :: rest) = decodeLossy octets ++ '\n' :: decodeLossy rest := by
  rw [decodeLossy, decode_append_newline, List.map_append, List.map_cons]
  rfl

theorem newline_notMem_decodeLossy {octets : List UInt8} (h : 10 ∉ octets) :
    '\n' ∉ decodeLossy octets := by
  intro hm
  obtain ⟨c, hc, hnewline⟩ := List.mem_map.mp hm
  cases c with
  | none => exact absurd hnewline (by decide)
  | some c =>
    obtain rfl : c = '\n' := hnewline
    exact newline_notMem_decode octets h hc

theorem decodeLossy_eq_nil_iff {octets : List UInt8} : decodeLossy octets = [] ↔ octets = [] := by
  cases octets with
  | nil => simp [decodeLossy]
  | cons a rest => simp [decodeLossy, decode_cons]

end Utf8

/-! ## Lines -/

theorem linesOnto_eq (done : List (List Char)) (current cs : List Char) :
    linesOnto done current cs = done.reverse ++ linesOnto [] current cs := by
  induction cs generalizing done current with
  | nil =>
    rw [linesOnto, linesOnto]
    split <;> simp
  | cons c rest ih =>
    rw [linesOnto, linesOnto]
    split
    · rw [ih, ih [endLine current]]
      simp
    · exact ih done (c :: current)

theorem linesOnto_append_newline {cs : List Char} (h : '\n' ∉ cs) (current rest : List Char) :
    linesOnto [] current (cs ++ '\n' :: rest) =
      endLine (cs.reverse ++ current) :: lines rest := by
  induction cs generalizing current with
  | nil =>
    rw [List.nil_append, linesOnto, if_pos rfl, linesOnto_eq]
    rfl
  | cons c cs ih =>
    obtain ⟨hc, hcs⟩ := not_or.mp (mt List.mem_cons.mpr h)
    rw [List.cons_append, linesOnto, if_neg (Ne.symm hc), ih hcs]
    simp

theorem linesOnto_of_notMem {cs : List Char} (h : '\n' ∉ cs) (current : List Char) :
    linesOnto [] current cs =
      if current.reverse ++ cs = [] then [] else [current.reverse ++ cs] := by
  induction cs generalizing current with
  | nil =>
    rw [linesOnto]
    cases current <;> simp
  | cons c cs ih =>
    obtain ⟨hc, hcs⟩ := not_or.mp (mt List.mem_cons.mpr h)
    rw [linesOnto, if_neg (Ne.symm hc), ih hcs]
    simp

/-- A line without the carriage return that belongs to its newline. -/
def chomp (cs : List Char) : List Char := endLine cs.reverse

theorem lines_append_newline {cs : List Char} (h : '\n' ∉ cs) (rest : List Char) :
    lines (cs ++ '\n' :: rest) = chomp cs :: lines rest := by
  rw [lines, linesOnto_append_newline h, List.append_nil]
  rfl

theorem lines_of_notMem {cs : List Char} (h : '\n' ∉ cs) :
    lines cs = if cs = [] then [] else [cs] :=
  linesOnto_of_notMem h []

theorem mem_of_mem_endLine {c : Char} {cs : List Char} (h : c ∈ endLine cs) : c ∈ cs := by
  unfold endLine at h
  split at h
  · exact List.mem_cons_of_mem _ (List.mem_reverse.mp h)
  · exact List.mem_reverse.mp h

theorem newline_notMem_of_mem_linesOnto {done : List (List Char)} {current cs : List Char}
    (hdone : ∀ line ∈ done, '\n' ∉ line) (hcurrent : '\n' ∉ current) :
    ∀ line ∈ linesOnto done current cs, '\n' ∉ line := by
  induction cs generalizing done current with
  | nil =>
    rw [linesOnto]
    simp only [List.mem_reverse]
    split
    · exact hdone
    · simpa using ⟨hcurrent, hdone⟩
  | cons c cs ih =>
    rw [linesOnto]
    split
    next =>
      have hended : '\n' ∉ endLine current := mt mem_of_mem_endLine hcurrent
      exact ih (List.forall_mem_cons.mpr ⟨hended, hdone⟩) List.not_mem_nil
    next hc => exact ih hdone (List.not_mem_cons_of_ne_of_not_mem (Ne.symm hc) hcurrent)

theorem newline_notMem_of_mem_lines {text line : List Char} (h : line ∈ lines text) :
    '\n' ∉ line :=
  newline_notMem_of_mem_linesOnto (List.forall_mem_nil _) List.not_mem_nil line h

theorem allBlank_chomp (cs : List Char) : allBlank (chomp cs) = allBlank cs := by
  rcases List.eq_nil_or_concat cs with rfl | ⟨cs, c, rfl⟩
  · rfl
  · rw [chomp, List.concat_eq_append, List.reverse_append, List.reverse_singleton,
      List.singleton_append]
    by_cases hc : c = '\r'
    · subst hc
      rw [endLine, List.reverse_reverse, allBlank, allBlank, List.all_append]
      have hblank : [Char.ofNat 13].all Unicode.isBlank = true := by decide +kernel
      exact (Bool.and_true _).symm.trans (congrArg _ hblank.symm)
    · rw [endLine]
      · simp
      · simpa using hc

/-! ## Rows as lines -/

open Syntax (rowStart rowStart_zero rowStart_append_newline rowStart_of_count_lt)

/-- The octets of a row, without the newline that ends it. -/
def rowOctets (source : List UInt8) (r : Nat) : List UInt8 :=
  (source.drop (rowStart source r)).takeWhile (· ≠ 10)

section

variable {row : List UInt8}

theorem takeWhile_append_of_notMem (h : 10 ∉ row) (rest : List UInt8) :
    (row ++ rest).takeWhile (· ≠ 10) = row ++ rest.takeWhile (· ≠ 10) :=
  List.takeWhile_append_of_pos fun _ ho => decide_eq_true fun heq => h (heq ▸ ho)

theorem rowOctets_of_notMem (h : 10 ∉ row) : rowOctets row 0 = row := by
  have hall := takeWhile_append_of_notMem h []
  rw [List.append_nil, List.takeWhile_nil, List.append_nil] at hall
  rw [rowOctets, rowStart_zero, List.drop_zero, hall]

theorem rowOctets_append_newline_zero (h : 10 ∉ row) (rest : List UInt8) :
    rowOctets (row ++ 10 :: rest) 0 = row := by
  rw [rowOctets, rowStart_zero, List.drop_zero, takeWhile_append_of_notMem h,
    List.takeWhile_cons_of_neg (by simp), List.append_nil]

theorem rowOctets_append_newline_succ (h : 10 ∉ row) (rest : List UInt8) (r : Nat) :
    rowOctets (row ++ 10 :: rest) (r + 1) = rowOctets rest r := by
  rw [rowOctets, rowStart_append_newline h, List.drop_length_add_append, List.drop_succ_cons]
  rfl

end

/-- There is nothing on a row after the last one. -/
theorem rowOctets_of_count_lt {source : List UInt8} {r : Nat} (h : source.count 10 < r) :
    rowOctets source r = [] := by
  rw [rowOctets, rowStart_of_count_lt h, List.drop_length, List.takeWhile_nil]

open Utf8 (decodeLossy)

/-- Line `r` of a decoded source is its row `r` decoded.  The last row is a line only if there is
something on it; it keeps a carriage return, which no newline takes along. -/
theorem getElem?_lines (source : List UInt8) (r : Nat) :
    (lines (decodeLossy source))[r]? =
      if r < source.count 10 then some (chomp (decodeLossy (rowOctets source r)))
      else if rowOctets source r = [] then none
      else some (decodeLossy (rowOctets source r)) := by
  induction hn : source.count 10 generalizing source r with
  | zero =>
    have h : 10 ∉ source := List.count_eq_zero.mp hn
    rw [lines_of_notMem (Utf8.newline_notMem_decodeLossy h), if_neg (Nat.not_lt_zero r)]
    simp only [Utf8.decodeLossy_eq_nil_iff]
    cases r with
    | zero =>
      rw [rowOctets_of_notMem h]
      split <;> rfl
    | succ r =>
      rw [if_pos (rowOctets_of_count_lt (by omega))]
      split <;> rfl
  | succ n ih =>
    have h : 10 ∈ source := List.count_pos_iff.mp (by omega)
    obtain ⟨row, rest, rfl, hrow⟩ := List.eq_append_cons_of_mem h
    have hrest : rest.count 10 = n := by
      rw [List.count_append, List.count_eq_zero.mpr hrow, List.count_cons_self] at hn
      omega
    rw [Utf8.decodeLossy_append_newline,
      lines_append_newline (Utf8.newline_notMem_decodeLossy hrow)]
    cases r with
    | zero =>
      rw [rowOctets_append_newline_zero hrow, if_pos (Nat.succ_pos n)]
      rfl
    | succ r =>
      rw [rowOctets_append_newline_succ hrow, List.getElem?_cons_succ, ih rest r hrest]
      simp only [Nat.add_lt_add_iff_right]

theorem length_lines_le (source : List UInt8) :
    (lines (decodeLossy source)).length ≤ source.count 10 + 1 := by
  rw [← List.getElem?_eq_none_iff, getElem?_lines, if_neg (by omega),
    if_pos (rowOctets_of_count_lt (Nat.lt_succ_self _))]

/-- The line there is at a row, if any, is blank or not as the row is. -/
theorem any_getElem?_lines (source : List UInt8) (r : Nat) :
    (lines (decodeLossy source))[r]?.any (!allBlank ·) =
      !allBlank (decodeLossy (rowOctets source r)) := by
  rw [getElem?_lines]
  split
  · rw [Option.any_some, allBlank_chomp]
  · split
    next h =>
      rw [h, Utf8.decodeLossy_eq_nil_iff.mpr rfl]
      rfl
    · rfl

end CodeAtlas.Text
