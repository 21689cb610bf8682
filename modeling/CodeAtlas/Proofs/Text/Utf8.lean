import CodeAtlas.Text.Raw
import Mathlib.Data.List.Basic

/-!
# Encoding and decoding

The encoding of a text is read back as this text, by the strict reading and by the lossy one, and
the strict reading takes nothing but encodings (`decodeStrict?_eq_some_iff`).  Both follow from the
same two facts about the first character: its octets are split off (`next_encodeChar`), and what is
split off as a character are its octets (`eq_encodeChar_of_next`).

So raw text is either that of one text or no text at all (`RawText.text?_eq_some_iff`).
-/

namespace CodeAtlas

namespace Text.Utf8

variable {a b c d : UInt8} {rest : List UInt8}

/-! ## Octets as numbers -/

theorem isContinuation_iff : isContinuation b = true ↔ 128 ≤ b.toNat ∧ b.toNat ≤ 191 := by
  simp [isContinuation, UInt8.le_iff_toNat_le]

/-- After two of the first octets less is left for the second one. -/
theorem second_iff {low high first last : UInt8} (hlow : 128 ≤ low.toNat)
    (hhigh : high.toNat ≤ 191) (hne : first ≠ last) :
    (if a = first then low ≤ b && b ≤ 0xBF else if a = last then 0x80 ≤ b && b ≤ high
      else isContinuation b) = true ↔ 128 ≤ b.toNat ∧ b.toNat ≤ 191 ∧
        (a.toNat = first.toNat → low.toNat ≤ b.toNat) ∧
        (a.toNat = last.toNat → b.toNat ≤ high.toNat) := by
  simp only [UInt8.toNat_inj]
  split
  · rename_i hfirst
    subst hfirst
    simp [UInt8.le_iff_toNat_le, hne]
    omega
  · rename_i hfirst
    split
    · rename_i hlast
      simp [UInt8.le_iff_toNat_le, hlast, hne.symm]
      omega
    · rename_i hlast
      simp [isContinuation_iff, hfirst, hlast]

theorem secondOfThree_iff : secondOfThree a b = true ↔ 128 ≤ b.toNat ∧ b.toNat ≤ 191 ∧
    (a.toNat = 224 → 160 ≤ b.toNat) ∧ (a.toNat = 237 → b.toNat ≤ 159) :=
  second_iff (by decide) (by decide) (by decide)

theorem secondOfFour_iff : secondOfFour a b = true ↔ 128 ≤ b.toNat ∧ b.toNat ≤ 191 ∧
    (a.toNat = 240 → 144 ≤ b.toNat) ∧ (a.toNat = 244 → b.toNat ≤ 143) :=
  second_iff (by decide) (by decide) (by decide)

/-! ## One character -/

theorem next_one (ha : a.toNat < 128) : next a rest = (some (Char.ofNat a.toNat), rest) := by
  have h : a < 0x80 := UInt8.lt_iff_toNat_lt.mpr ha
  unfold next
  rw [if_pos h]

theorem next_two (ha : 194 ≤ a.toNat) (ha' : a.toNat ≤ 223) (hb : isContinuation b = true) :
    next a (b :: rest) = (some (Char.ofNat (lowBits a 5 * 64 + lowBits b 6)), rest) := by
  have hone : ¬ a < 0x80 := by simp [UInt8.lt_iff_toNat_lt]; omega
  have htwo : (0xC2 ≤ a && a ≤ 0xDF) = true := by simp [UInt8.le_iff_toNat_le]; omega
  unfold next
  rw [if_neg hone, if_pos htwo]
  simp [hb]

theorem next_three (ha : 224 ≤ a.toNat) (ha' : a.toNat ≤ 239) (hb : secondOfThree a b = true)
    (hc : isContinuation c = true) :
    next a (b :: c :: rest) =
      (some (Char.ofNat (lowBits a 4 * 4096 + lowBits b 6 * 64 + lowBits c 6)), rest) := by
  have hone : ¬ a < 0x80 := by simp [UInt8.lt_iff_toNat_lt]; omega
  have htwo : ¬ (0xC2 ≤ a && a ≤ 0xDF) = true := by simp [UInt8.le_iff_toNat_le]; omega
  have hthree : (0xE0 ≤ a && a ≤ 0xEF) = true := by simp [UInt8.le_iff_toNat_le]; omega
  unfold next
  rw [if_neg hone, if_neg htwo, if_pos hthree]
  simp [hb, hc]

theorem next_four (ha : 240 ≤ a.toNat) (ha' : a.toNat ≤ 244) (hb : secondOfFour a b = true)
    (hc : isContinuation c = true) (hd : isContinuation d = true) :
    next a (b :: c :: d :: rest) =
      (some (Char.ofNat (lowBits a 3 * 262144 + lowBits b 6 * 4096 + lowBits c 6 * 64 +
        lowBits d 6)), rest) := by
  have hone : ¬ a < 0x80 := by simp [UInt8.lt_iff_toNat_lt]; omega
  have htwo : ¬ (0xC2 ≤ a && a ≤ 0xDF) = true := by simp [UInt8.le_iff_toNat_le]; omega
  have hthree : ¬ (0xE0 ≤ a && a ≤ 0xEF) = true := by simp [UInt8.le_iff_toNat_le]; omega
  have hfour : (0xF0 ≤ a && a ≤ 0xF4) = true := by simp [UInt8.le_iff_toNat_le]; omega
  unfold next
  rw [if_neg hone, if_neg htwo, if_neg hthree, if_pos hfour]
  simp [hb, hc, hd]

theorem lowBits_three (a : UInt8) : lowBits a 3 = a.toNat % 8 := rfl

theorem lowBits_four (a : UInt8) : lowBits a 4 = a.toNat % 16 := rfl

theorem lowBits_five (a : UInt8) : lowBits a 5 = a.toNat % 32 := rfl

theorem lowBits_six (a : UInt8) : lowBits a 6 = a.toNat % 64 := rfl

/-- The last octets of a character hold six bits each. -/
theorem toNat_ofNat_continuation (v : Nat) : (UInt8.ofNat (v % 64 + 128)).toNat = v % 64 + 128 := by
  simp
  omega

theorem isContinuation_ofNat (v : Nat) : isContinuation (UInt8.ofNat (v % 64 + 128)) = true := by
  rw [isContinuation_iff, toNat_ofNat_continuation]
  omega

theorem lowBits_continuation (v : Nat) : lowBits (UInt8.ofNat (v % 64 + 128)) 6 = v % 64 := by
  rw [lowBits_six, toNat_ofNat_continuation]
  omega

variable {v : Nat}

theorem next_ofNat_one (h : v < 128) :
    next (UInt8.ofNat v) rest = (some (Char.ofNat v), rest) := by
  have ha : (UInt8.ofNat v).toNat = v := by simp; omega
  rw [next_one (by omega), ha]

theorem next_ofNat_two (h : 128 ≤ v) (h' : v < 2048) :
    next (UInt8.ofNat (v / 64 % 32 + 192)) (UInt8.ofNat (v % 64 + 128) :: rest) =
      (some (Char.ofNat v), rest) := by
  have ha : (UInt8.ofNat (v / 64 % 32 + 192)).toNat = v / 64 % 32 + 192 := by simp; omega
  have hv : (v / 64 % 32 + 192) % 32 * 64 + v % 64 = v := by omega
  rw [next_two (by omega) (by omega) (isContinuation_ofNat _), lowBits_five, ha,
    lowBits_continuation, hv]

theorem next_ofNat_three (h : 2048 ≤ v) (h' : v < 65536) (hv : v < 55296 ∨ 57343 < v) :
    next (UInt8.ofNat (v / 4096 % 16 + 224)) (UInt8.ofNat (v / 64 % 64 + 128) ::
      UInt8.ofNat (v % 64 + 128) :: rest) = (some (Char.ofNat v), rest) := by
  have ha : (UInt8.ofNat (v / 4096 % 16 + 224)).toNat = v / 4096 % 16 + 224 := by simp; omega
  have hb := toNat_ofNat_continuation (v / 64)
  have hsum : (v / 4096 % 16 + 224) % 16 * 4096 + v / 64 % 64 * 64 + v % 64 = v := by omega
  rw [next_three (by omega) (by omega) (secondOfThree_iff.mpr (by omega)) (isContinuation_ofNat _),
    lowBits_four, ha, lowBits_continuation, lowBits_continuation, hsum]

theorem next_ofNat_four (h : 65536 ≤ v) (h' : v < 1114112) :
    next (UInt8.ofNat (v / 262144 % 8 + 240)) (UInt8.ofNat (v / 4096 % 64 + 128) ::
      UInt8.ofNat (v / 64 % 64 + 128) :: UInt8.ofNat (v % 64 + 128) :: rest) =
        (some (Char.ofNat v), rest) := by
  have ha : (UInt8.ofNat (v / 262144 % 8 + 240)).toNat = v / 262144 % 8 + 240 := by simp; omega
  have hb := toNat_ofNat_continuation (v / 4096)
  have hsum : (v / 262144 % 8 + 240) % 8 * 262144 + v / 4096 % 64 * 4096 + v / 64 % 64 * 64 +
      v % 64 = v := by omega
  rw [next_four (by omega) (by omega) (secondOfFour_iff.mpr (by omega)) (isContinuation_ofNat _)
      (isContinuation_ofNat _),
    lowBits_three, ha, lowBits_continuation, lowBits_continuation, lowBits_continuation, hsum]

/-- The code of a character is none of a surrogate. -/
theorem toNat_val_cases (c : Char) :
    c.val.toNat < 55296 ∨ 57343 < c.val.toNat ∧ c.val.toNat < 1114112 :=
  c.valid

/-- The octets of a character are split off as this character. -/
theorem next_encodeChar (c : Char) (rest : List UInt8) : ∃ a tail,
    String.utf8EncodeChar c = a :: tail ∧ next a (tail ++ rest) = (some c, rest) := by
  have hvalid := toNat_val_cases c
  have hc : Char.ofNat c.val.toNat = c := Char.ofNat_toNat c
  unfold String.utf8EncodeChar
  generalize c.val.toNat = v at hvalid hc ⊢
  subst hc
  dsimp only
  split
  · exact ⟨_, _, rfl, next_ofNat_one (by omega)⟩
  split
  · exact ⟨_, _, rfl, next_ofNat_two (by omega) (by omega)⟩
  split
  · exact ⟨_, _, rfl, next_ofNat_three (by omega) (by omega) (by omega)⟩
  · exact ⟨_, _, rfl, next_ofNat_four (by omega) (by omega)⟩

theorem val_toNat_ofNat (hv : v < 55296 ∨ 57343 < v ∧ v < 1114112) :
    (Char.ofNat v).val.toNat = v := by
  rw [Char.ofNat, dif_pos hv]
  rfl

theorem ofNat_eq (h : v = a.toNat) : UInt8.ofNat v = a := by
  rw [h, UInt8.ofNat_toNat]

theorem encodeChar_one (ha : a.toNat < 128) :
    String.utf8EncodeChar (Char.ofNat a.toNat) = [a] := by
  unfold String.utf8EncodeChar
  rw [val_toNat_ofNat (.inl (by omega)), if_pos (by omega), UInt8.ofNat_toNat]

theorem encodeChar_two (ha : 194 ≤ a.toNat) (ha' : a.toNat ≤ 223)
    (hb : isContinuation b = true) :
    String.utf8EncodeChar (Char.ofNat (lowBits a 5 * 64 + lowBits b 6)) = [a, b] := by
  rw [isContinuation_iff] at hb
  rw [lowBits_five, lowBits_six]
  unfold String.utf8EncodeChar
  rw [val_toNat_ofNat (.inl (by omega)), if_neg (by omega), if_pos (by omega),
    ofNat_eq (a := a) (by omega), ofNat_eq (a := b) (by omega)]

/-- The bounds on the second octet keep out surrogates and what fewer octets can say. -/
theorem encodeChar_three (ha : 224 ≤ a.toNat) (ha' : a.toNat ≤ 239)
    (hb : secondOfThree a b = true) (hc : isContinuation c = true) :
    String.utf8EncodeChar (Char.ofNat (lowBits a 4 * 4096 + lowBits b 6 * 64 + lowBits c 6)) =
      [a, b, c] := by
  rw [secondOfThree_iff] at hb
  rw [isContinuation_iff] at hc
  rw [lowBits_four, lowBits_six, lowBits_six]
  unfold String.utf8EncodeChar
  rw [val_toNat_ofNat (by omega), if_neg (by omega), if_neg (by omega), if_pos (by omega),
    ofNat_eq (a := a) (by omega), ofNat_eq (a := b) (by omega), ofNat_eq (a := c) (by omega)]

theorem encodeChar_four (ha : 240 ≤ a.toNat) (ha' : a.toNat ≤ 244)
    (hb : secondOfFour a b = true) (hc : isContinuation c = true)
    (hd : isContinuation d = true) :
    String.utf8EncodeChar (Char.ofNat (lowBits a 3 * 262144 + lowBits b 6 * 4096 +
      lowBits c 6 * 64 + lowBits d 6)) = [a, b, c, d] := by
  rw [secondOfFour_iff] at hb
  rw [isContinuation_iff] at hc hd
  rw [lowBits_three, lowBits_six, lowBits_six, lowBits_six]
  unfold String.utf8EncodeChar
  rw [val_toNat_ofNat (by omega), if_neg (by omega), if_neg (by omega), if_neg (by omega),
    ofNat_eq (a := a) (by omega), ofNat_eq (a := b) (by omega), ofNat_eq (a := c) (by omega),
    ofNat_eq (a := d) (by omega)]

theorem of_and_eq_true {low high : UInt8} (h : (low ≤ a && a ≤ high) = true) :
    low.toNat ≤ a.toNat ∧ a.toNat ≤ high.toNat := by
  simpa [UInt8.le_iff_toNat_le] using h

/-- What is split off as a character are the octets of this character. -/
theorem eq_encodeChar_of_next {ch : Char} {left : List UInt8}
    (h : next a rest = (some ch, left)) : a :: rest = String.utf8EncodeChar ch ++ left := by
  unfold next at h
  split at h
  · rename_i ha
    cases h
    rw [encodeChar_one (UInt8.lt_iff_toNat_lt.mp ha)]
    rfl
  split at h
  · rename_i ha
    obtain ⟨hlow, hhigh⟩ := of_and_eq_true ha
    repeat' split at h
    all_goals cases h
    rw [encodeChar_two hlow hhigh ‹_›]
    rfl
  split at h
  · rename_i ha
    obtain ⟨hlow, hhigh⟩ := of_and_eq_true ha
    repeat' split at h
    all_goals cases h
    rw [encodeChar_three hlow hhigh ‹_› ‹_›]
    rfl
  split at h
  · rename_i ha
    obtain ⟨hlow, hhigh⟩ := of_and_eq_true ha
    repeat' split at h
    all_goals cases h
    rw [encodeChar_four hlow hhigh ‹_› ‹_› ‹_›]
    rfl
  · cases h

/-! ## Texts -/

theorem decodeOnto_eq (done : List (Option Char)) (octets : List UInt8) :
    decodeOnto done octets = done.reverse ++ decode octets := by
  refine decodeOnto.induct
    (motive := fun _ octets => ∀ done, decodeOnto done octets = done.reverse ++ decode octets)
    (fun _ done => ?_) (fun _ a rest ih done => ?_) [] octets done
  · simp [decode, decodeOnto]
  · rw [decode, decodeOnto.eq_2, decodeOnto.eq_2, ih, ih]
    simp

@[simp]
theorem decode_nil : decode [] = [] := by
  rw [decode, decodeOnto]
  rfl

theorem decode_cons (a : UInt8) (rest : List UInt8) :
    decode (a :: rest) = (next a rest).1 :: decode (next a rest).2 := by
  rw [decode, decodeOnto.eq_2, decodeOnto_eq]
  rfl

theorem encode_cons (c : Char) (cs : List Char) :
    encode (c :: cs) = String.utf8EncodeChar c ++ encode cs := rfl

theorem encode_append (cs ds : List Char) : encode (cs ++ ds) = encode cs ++ encode ds :=
  List.flatMap_append

theorem decode_encode (cs : List Char) : decode (encode cs) = cs.map some := by
  induction cs with
  | nil => exact decode_nil
  | cons c cs ih =>
    obtain ⟨a, tail, hc, hnext⟩ := next_encodeChar c (encode cs)
    rw [encode_cons, hc, List.cons_append, decode_cons, hnext, ih, List.map_cons]

/-- The octets that are characters throughout are those of these characters. -/
theorem eq_encode_of_decode {cs : List Char} {octets : List UInt8}
    (h : decode octets = cs.map some) : octets = encode cs := by
  induction cs generalizing octets with
  | nil =>
    cases octets with
    | nil => rfl
    | cons a rest => rw [decode_cons] at h; cases h
  | cons c cs ih =>
    cases octets with
    | nil => rw [decode_nil] at h; cases h
    | cons a rest =>
      rw [decode_cons, List.map_cons, List.cons.injEq] at h
      have hnext : next a rest = (some c, encode cs) := Prod.ext h.1 (ih h.2)
      rw [eq_encodeChar_of_next hnext, encode_cons]

theorem decodeLossy_encode (cs : List Char) : decodeLossy (encode cs) = cs := by
  rw [decodeLossy, decode_encode, List.map_map]
  exact List.map_id cs

theorem filterMap_id_eq_iff {parts : List (Option Char)} {cs : List Char} :
    (parts.all Option.isSome = true ∧ parts.filterMap id = cs) ↔ parts = cs.map some := by
  induction parts generalizing cs with
  | nil => cases cs <;> simp
  | cons p parts ih =>
    cases p with
    | none => cases cs <;> simp
    | some c =>
      cases cs with
      | nil => simp
      | cons d cs => simp [← ih, and_left_comm]

/-- The strict reading takes the encodings of texts and nothing else. -/
theorem decodeStrict?_eq_some_iff {octets : List UInt8} {cs : List Char} :
    decodeStrict? octets = some cs ↔ octets = encode cs := by
  have hparts : decodeStrict? octets = some cs ↔ decode octets = cs.map some := by
    rw [← filterMap_id_eq_iff, decodeStrict?]
    split <;> simp [*]
  rw [hparts]
  exact ⟨eq_encode_of_decode, fun h => h ▸ decode_encode cs⟩

end Text.Utf8

namespace RawText

variable {r : RawText} {s t : String}

theorem text?_eq_some_iff : r.text? = some s ↔ r = ofString s := by
  rw [text?, Option.map_eq_some_iff]
  constructor
  · rintro ⟨cs, hcs, rfl⟩
    rw [Text.Utf8.decodeStrict?_eq_some_iff] at hcs
    rw [ofString, String.toList_ofList, ← hcs]
  · rintro rfl
    exact ⟨s.toList, Text.Utf8.decodeStrict?_eq_some_iff.mpr rfl, String.ofList_toList⟩

@[simp]
theorem text?_ofString (s : String) : (ofString s).text? = some s :=
  text?_eq_some_iff.mpr rfl

@[simp]
theorem shown_ofString (s : String) : (ofString s).shown = s := by
  rw [shown, ofString, Text.Utf8.decodeLossy_encode, String.ofList_toList]

@[simp]
theorem ofString_inj : ofString s = ofString t ↔ s = t := by
  refine ⟨fun h => ?_, congrArg ofString⟩
  rw [← shown_ofString s, h, shown_ofString]

@[simp]
theorem ofString_beq : (ofString s == ofString t) = (s == t) := by
  rw [Bool.eq_iff_iff, beq_iff_eq, beq_iff_eq, ofString_inj]

end RawText

end CodeAtlas
