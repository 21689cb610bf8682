import CodeAtlas.Proofs.Regex.Quoting
import CodeAtlas.Proofs.Search.Windows
import CodeAtlas.Proofs.Text.Lines
import Mathlib.Data.Nat.Find

/-!
# Texts that are searched for as they are

A search that does not read its pattern as an expression finds the pattern itself: in every line
that has it, at the first place where it stands (`find?_literal_iff`); and if only whole words are
wanted, at the first place where no word character stands right before or after it, provided that
the pattern is made of word characters (`find?_asWord_iff`).

There is such a search unless it would take too much memory, which is thirty-two octets for each
octet of the pattern and a few more (`weight_literal`).  So a pattern may be too long to be searched
for, even in a text that is the pattern itself (`long_pattern_refused`).
-/

namespace CodeAtlas.Search

open Regex (letters starts)

/-! ## Places of a pattern -/

/-- How many characters of a line may come before the pattern. -/
def places (pattern line : List Char) : Set Nat :=
  {k | ∃ before after, line = before ++ pattern ++ after ∧ before.length = k}

/-- How many characters of a line may come before the pattern where it stands as a word, which is
with no word character right before or after it. -/
def wordPlaces (pattern line : List Char) : Set Nat :=
  {k | ∃ before after, line = before ++ pattern ++ after ∧ before.length = k ∧
    (∀ c ∈ before.getLast?, Text.Unicode.isWord c = false) ∧
    ∀ c ∈ after.head?, Text.Unicode.isWord c = false}

theorem mem_places_iff {pattern line : List Char} {k : Nat} (hk : k ≤ line.length) :
    k ∈ places pattern line ↔ pattern <+: line.drop k := by
  constructor
  · rintro ⟨before, after, rfl, rfl⟩
    rw [List.append_assoc, List.drop_left]
    exact List.prefix_append pattern after
  · rintro ⟨after, hafter⟩
    refine ⟨line.take k, after, ?_, List.length_take_of_le hk⟩
    rw [List.append_assoc, hafter, List.take_append_drop]

theorem le_of_mem_places {pattern line : List Char} {k : Nat} (h : k ∈ places pattern line) :
    k ≤ line.length := by
  obtain ⟨before, after, rfl, rfl⟩ := h
  rw [List.length_append, List.length_append]
  omega

theorem wordPlaces_subset (pattern line : List Char) :
    wordPlaces pattern line ⊆ places pattern line := by
  rintro k ⟨before, after, hline, hlength, -, -⟩
  exact ⟨before, after, hline, hlength⟩

/-! ## Where the expressions match -/

theorem ends_literal (text : Array Char) (cs : List Char) (i : Nat) :
    (literal false cs).ends text [i] =
      if cs <+: text.toList.drop i then [i + cs.length] else [] := by
  induction cs generalizing i with
  | nil => simp [literal, Regex.ends]
  | cons c cs ih =>
    have hseq : (literal false (c :: cs)).ends text [i] =
        (literal false cs).ends text ((Regex.one (.single c)).ends text [i]) := rfl
    rw [hseq, Regex.ends_single]
    by_cases hc : text[i]? = some c
    · obtain ⟨hi, hget⟩ := Array.getElem?_eq_some_iff.mp hc
      have hdrop : text.toList.drop i = c :: text.toList.drop (i + 1) := by
        rw [List.drop_eq_getElem_cons hi, Array.getElem_toList, hget]
      rw [if_pos hc, ih, List.length_cons, Nat.add_assoc, Nat.add_comm 1]
      simp only [hdrop, List.cons_prefix_cons, true_and]
    · rw [if_neg hc, Regex.ends_nil, if_neg]
      rintro ⟨after, hafter⟩
      refine hc ?_
      rw [← Array.getElem?_toList, ← List.head?_drop, ← hafter]
      rfl

theorem starts_literal {pattern line : List Char} {k : Nat} (hk : k ≤ line.length) :
    k ∈ (literal false pattern).starts line.toArray ↔ k ∈ places pattern line := by
  rw [Regex.mem_starts_iff, ends_literal, mem_places_iff hk]
  split <;> simp_all

theorem find?_literal_iff {pattern line : List Char} {k : Nat} :
    (literal false pattern).find? line = some k ↔ IsLeast (places pattern line) k :=
  Regex.find?_eq_some_iff_of_starts (fun _ => le_of_mem_places) fun _ => starts_literal

/-! ### Whole words -/

section Boundaries

variable (before rest : List Char)

theorem wordBefore_append :
    Regex.wordBefore (before ++ rest).toArray .word before.length =
      before.getLast?.any Text.Unicode.isWord := by
  rcases List.eq_nil_or_concat before with rfl | ⟨before, c, rfl⟩
  · rfl
  · simp [Regex.wordBefore, Regex.wordAt, Regex.Property.holds]

theorem wordAt_append :
    Regex.wordAt (before ++ rest).toArray .word before.length =
      rest.head?.any Text.Unicode.isWord := by
  cases rest <;> simp [Regex.wordAt, Regex.Property.holds]

end Boundaries

/-- Whether a word begins or ends at a position. -/
def boundaryAt (text : Array Char) (i : Nat) : Bool :=
  Regex.wordBefore text .word i ≠ Regex.wordAt text .word i

theorem ends_wordBoundary (text : Array Char) (i : Nat) :
    wordBoundary.ends text [i] = if boundaryAt text i then [i] else [] :=
  Regex.ends_look text i _ _

theorem ends_asWord (text : Array Char) (cs : List Char) (i : Nat) :
    (asWord (literal false cs)).ends text [i] =
      if boundaryAt text i ∧ cs <+: text.toList.drop i ∧ boundaryAt text (i + cs.length)
      then [i + cs.length] else [] := by
  have hseq : (asWord (literal false cs)).ends text [i] =
      wordBoundary.ends text ((literal false cs).ends text (wordBoundary.ends text [i])) := rfl
  rw [hseq, ends_wordBoundary]
  by_cases hstart : boundaryAt text i = true
  · rw [if_pos hstart, ends_literal]
    by_cases hprefix : cs <+: text.toList.drop i
    · rw [if_pos hprefix, ends_wordBoundary]
      simp only [hstart, hprefix, true_and]
    · rw [if_neg hprefix, Regex.ends_nil, if_neg fun h => hprefix h.2.1]
  · rw [if_neg hstart, Regex.ends_nil, Regex.ends_nil, if_neg fun h => hstart h.1]

theorem any_eq_false_iff {c? : Option Char} :
    c?.any Text.Unicode.isWord = false ↔ ∀ c ∈ c?, Text.Unicode.isWord c = false := by
  cases c? <;> simp

theorem boundaryAt_append (before rest : List Char) :
    boundaryAt (before ++ rest).toArray before.length = true ↔
      before.getLast?.any Text.Unicode.isWord ≠ rest.head?.any Text.Unicode.isWord := by
  rw [boundaryAt, wordBefore_append, wordAt_append, decide_eq_true_iff]

section

variable {pattern : List Char} (hpattern : pattern ≠ [])
  (hword : ∀ c ∈ pattern, Text.Unicode.isWord c = true)

include hpattern hword

/-- At both ends of a pattern made of word characters a word ends or begins exactly if no word
character goes on there. -/
theorem boundaries_iff (before after : List Char) :
    (boundaryAt (before ++ pattern ++ after).toArray before.length = true ∧
        boundaryAt (before ++ pattern ++ after).toArray (before.length + pattern.length) = true) ↔
      (∀ c ∈ before.getLast?, Text.Unicode.isWord c = false) ∧
        ∀ c ∈ after.head?, Text.Unicode.isWord c = false := by
  have hhead : (pattern ++ after).head?.any Text.Unicode.isWord = true := by
    rw [List.head?_append_of_ne_nil _ hpattern, List.head?_eq_some_head hpattern]
    exact hword _ (List.head_mem hpattern)
  have hlast : (before ++ pattern).getLast?.any Text.Unicode.isWord = true := by
    rw [List.getLast?_append_of_ne_nil _ hpattern, List.getLast?_eq_some_getLast hpattern]
    exact hword _ (List.getLast_mem hpattern)
  have hstart := boundaryAt_append before (pattern ++ after)
  have hend := boundaryAt_append (before ++ pattern) after
  rw [← List.append_assoc, hhead, ne_eq, Bool.not_eq_true, any_eq_false_iff] at hstart
  rw [hlast, List.length_append, ne_comm, ne_eq, Bool.not_eq_true, any_eq_false_iff] at hend
  rw [hstart, hend]

theorem starts_asWord {line : List Char} {k : Nat} (hk : k ≤ line.length) :
    k ∈ (asWord (literal false pattern)).starts line.toArray ↔ k ∈ wordPlaces pattern line := by
  rw [Regex.mem_starts_iff, ends_asWord]
  constructor
  · intro h
    obtain ⟨hstart, hprefix, hend⟩ := Decidable.byContradiction fun hnot => h (if_neg hnot)
    obtain ⟨before, after, rfl, rfl⟩ := (mem_places_iff hk).mpr hprefix
    have hfree := (boundaries_iff hpattern hword before after).mp ⟨hstart, hend⟩
    exact ⟨before, after, rfl, rfl, hfree⟩
  · intro h
    have hprefix := (mem_places_iff hk).mp (wordPlaces_subset pattern line h)
    obtain ⟨before, after, rfl, rfl, hfree⟩ := h
    obtain ⟨hstart, hend⟩ := (boundaries_iff hpattern hword before after).mpr hfree
    rw [if_pos ⟨hstart, hprefix, hend⟩]
    exact List.cons_ne_nil _ _

theorem find?_asWord_iff {line : List Char} {k : Nat} :
    (asWord (literal false pattern)).find? line = some k ↔ IsLeast (wordPlaces pattern line) k :=
  Regex.find?_eq_some_iff_of_starts
    (fun _ hk => le_of_mem_places (wordPlaces_subset pattern line hk))
    fun _ => starts_asWord hpattern hword

end

/-! ## What a search takes -/

theorem weight_letter (c : Char) :
    ((Regex.Flags.plain false).literal c).weight = 32 * c.utf8Size := by
  show (if c.toNat < 128 then (if c = c then 32 else 72) else 32 * c.utf8Size) = _
  rw [if_pos rfl]
  split
  next h =>
    have hval : c.val ≤ 127 := UInt32.le_iff_toNat_le.mpr (Nat.le_of_lt_succ h)
    rw [Char.utf8Size_eq_one_iff.mpr hval]
  next => rfl

theorem size_cons (c : Char) (cs : List Char) :
    Text.Utf8.size (c :: cs) = c.utf8Size + Text.Utf8.size cs := by
  have hfold (n : Nat) (cs : List Char) :
      cs.foldl (fun n c => n + c.utf8Size) n = n + Text.Utf8.size cs := by
    induction cs generalizing n with
    | nil => rfl
    | cons d cs ih =>
      rw [Text.Utf8.size, List.foldl_cons, List.foldl_cons, ih, ih]
      omega
  rw [Text.Utf8.size, List.foldl_cons, hfold, Nat.zero_add]

theorem weight_literal (cs : List Char) :
    (literal false cs).weight = 32 * Text.Utf8.size cs := by
  induction cs with
  | nil => rfl
  | cons c cs ih =>
    have hseq : (literal false (c :: cs)).weight =
        ((Regex.Flags.plain false).literal c).weight + (literal false cs).weight := rfl
    rw [hseq, weight_letter, ih, size_cons]
    omega

/-- What a search for a pattern as it is goes by. -/
def literalRegex (options : Options) : Regex :=
  if options.wholeWord then asWord (literal false options.pattern.toList)
  else literal false options.pattern.toList

/-- The octets of memory that such a search takes. -/
def literalWeight (options : Options) : Nat :=
  32 * (Text.Utf8.size options.pattern.toList + if options.wholeWord then 2 else 0) +
    Regex.frameWeight

theorem weight_literalRegex (options : Options) :
    (literalRegex options).weight + Regex.frameWeight = literalWeight options := by
  rw [literalRegex, literalWeight]
  refine congrArg (· + Regex.frameWeight) ?_
  cases options.wholeWord with
  | false => exact weight_literal _
  | true =>
    show 32 + ((literal false options.pattern.toList).weight + 32) = _
    rw [weight_literal, if_pos rfl]
    omega

/-! ## Lines that are found -/

/-- The matches that are told are one for each line with a place, in the order of the lines, and
each tells the number of its line and of the first place in it, counted from one. -/
structure Finds (places : List Char → Set Nat) (lines : List (List Char)) (found : List Match) :
    Prop where
  increasing : found.Pairwise fun a b => a.line < b.line
  sound : ∀ m ∈ found, ∃ row line k, lines[row]? = some line ∧ IsLeast (places line) k ∧
    m.line = row + 1 ∧ m.column = k + 1
  complete : ∀ row line, lines[row]? = some line → (places line).Nonempty →
    ∃ m ∈ found, m.line = row + 1

theorem finds_of_find? {search : Search} {path : String} {text : List Char} {found : List Match}
    {places : List Char → Set Nat}
    (h : ∀ line k, search.regex.find? line = some k ↔ IsLeast (places line) k)
    (hfound : search.inText? path text = some found) : Finds places (Text.lines text) found where
  increasing := pairwise_line_of_inText? hfound
  sound := by
    intro m hm
    rw [eq_of_inText? hfound] at hm
    obtain ⟨place, hplace, hm⟩ := List.mem_filterMap.mp hm
    obtain ⟨-, hline, k, hk, hcolumn⟩ := matchAt_eq_some hm
    have hrow := List.mem_zipIdx_iff_getElem?.mp hplace
    exact ⟨place.2, place.1, k, hrow, (h _ _).mp hk, hline, hcolumn⟩
  complete := by
    classical
    intro row line hline hplace
    have hfirst := (h line _).mpr ⟨Nat.find_spec hplace, fun k hk => Nat.find_min' hplace hk⟩
    obtain ⟨m, hm⟩ : ∃ m, search.matchAt path (Text.lines text) (line, row) = some m := by
      rw [matchAt, hfirst]
      exact ⟨_, rfl⟩
    rw [eq_of_inText? hfound]
    have hrow : (line, row) ∈ (Text.lines text).zipIdx := List.mem_zipIdx_iff_getElem?.mpr hline
    exact ⟨m, List.mem_filterMap.mpr ⟨_, hrow, hm⟩, (matchAt_eq_some hm).2.1⟩

/-! ## Searches for a pattern as it is -/

section

variable {options : Options} (hliteral : options.useRegex = false)
  (hcase : options.caseSensitive = true)

include hliteral hcase

theorem expression_eq : expression options = Regex.bounded (literalRegex options) := by
  rw [expression, hliteral, hcase]
  rfl

theorem of_eq (hpattern : options.pattern ≠ "") :
    Search.of options =
      if literalWeight options ≤ Regex.maxWeight then
        .ok { regex := literalRegex options, contextLines := options.contextLines }
      else .error (.invalidPattern Regex.Error.tooLarge.message) := by
  have hempty : options.pattern.isEmpty = false := by
    simpa using hpattern
  rw [Search.of, hempty, if_neg Bool.false_ne_true, expression_eq hliteral hcase, Regex.bounded,
    weight_literalRegex]
  by_cases hsmall : literalWeight options ≤ Regex.maxWeight
  · rw [if_pos hsmall, if_pos hsmall]
  · rw [if_neg hsmall, if_neg hsmall]

end

/-- **A search for a text as it is finds the lines that have the text.**  There is such a search
exactly if it does not take too much memory.  It finds what the quoted pattern finds that is read as
an expression; it goes through wherever the lines of a text and those asked for add up to a word;
and then it tells each line that has the pattern, once and in order, with the first place of the
pattern in it.  If whole words are wanted and the pattern is made of word characters, it tells each
line in which the pattern stands as a word, with the first place where it does. -/
theorem literal_finds (options : Options) (hliteral : options.useRegex = false)
    (hcase : options.caseSensitive = true) (hpattern : options.pattern ≠ "") :
    (Regex.maxWeight < literalWeight options →
      Search.of options = .error (.invalidPattern Regex.Error.tooLarge.message)) ∧
    (literalWeight options ≤ Regex.maxWeight →
      ∃ search, Search.of options = .ok search ∧
        (∃ r, Regex.read false (Regex.quotedPattern options) = .ok r ∧
          ∀ line, r.find? line = search.regex.find? line) ∧
        ∀ path text,
          ((Text.lines text).length + options.contextLines ≤ Number.maxWord →
            (search.inText? path text).isSome = true) ∧
          ∀ found, search.inText? path text = some found →
            (options.wholeWord = false →
              Finds (places options.pattern.toList) (Text.lines text) found) ∧
            (options.wholeWord = true →
              (∀ c ∈ options.pattern.toList, Text.Unicode.isWord c = true) →
              Finds (wordPlaces options.pattern.toList) (Text.lines text) found)) := by
  have hof := of_eq hliteral hcase hpattern
  refine ⟨fun hlarge => ?_, fun hsmall => ?_⟩
  · rw [hof, if_neg (Nat.not_le.mpr hlarge)]
  · rw [if_pos hsmall] at hof
    have hexpression : expression options = .ok (literalRegex options) := by
      rw [expression_eq hliteral hcase]
      exact Regex.bounded_eq_ok_iff.mpr ⟨(weight_literalRegex options).trans_le hsmall, rfl⟩
    have hread := Regex.exists_read_quotedPattern hliteral hexpression
    rw [hcase] at hread
    refine ⟨_, hof, hread, fun path text =>
      ⟨fun hle => isSome_inText?_of_le hle, fun found hfound => ⟨?_, ?_⟩⟩⟩
    · intro hline
      refine finds_of_find? (fun line k => ?_) hfound
      rw [literalRegex, hline]
      exact find?_literal_iff
    · intro hline hword
      have hne : options.pattern.toList ≠ [] := by
        simpa using hpattern
      refine finds_of_find? (fun line k => ?_) hfound
      rw [literalRegex, hline]
      exact find?_asWord_iff hne hword

/-- A pattern with marks in it, found where it stands on the second of two lines. -/
theorem literal_finds_bracket :
    ({ pattern := "a.b(" } : Options).useRegex = false ∧
    ({ pattern := "a.b(" } : Options).caseSensitive = true ∧
    ({ pattern := "a.b(" } : Options).pattern ≠ "" ∧
    literalWeight { pattern := "a.b(" } ≤ Regex.maxWeight ∧
    ∃ search, Search.of { pattern := "a.b(" } = .ok search ∧
      ∃ found, search.inText? "f" "axb(\na.b(c)\n".toList = some found ∧
        Finds (places "a.b(".toList) (Text.lines "axb(\na.b(c)\n".toList) found := by
  have hsmall : literalWeight { pattern := "a.b(" } ≤ Regex.maxWeight := by decide
  refine ⟨rfl, rfl, by decide, hsmall, ?_⟩
  obtain ⟨search, hsearch, -, hfinds⟩ :=
    (literal_finds { pattern := "a.b(" } rfl rfl (by decide)).2 hsmall
  obtain ⟨hsome, hfound⟩ := hfinds "f" "axb(\na.b(c)\n".toList
  obtain ⟨found, heq⟩ := Option.isSome_iff_exists.mp (hsome (by decide))
  exact ⟨search, hsearch, found, heq, (hfound found heq).1 rfl⟩

theorem size_replicate (n : Nat) : Text.Utf8.size (List.replicate n 'x') = n := by
  induction n with
  | zero => rfl
  | succ n ih =>
    rw [List.replicate_succ, size_cons, ih]
    exact Nat.add_comm 1 n

theorem replicate_refused {n : Nat} (hlarge : Regex.maxWeight < 32 * n + Regex.frameWeight) :
    let pattern := List.replicate n 'x'
    pattern ≠ [] ∧ Text.lines pattern = [pattern] ∧ 0 ∈ places pattern pattern ∧
      Search.of { pattern := String.ofList pattern } =
        .error (.invalidPattern Regex.Error.tooLarge.message) := by
  intro pattern
  have hpattern : pattern ≠ [] := by
    cases n with
    | zero => exact absurd hlarge (by decide)
    | succ n => exact List.cons_ne_nil _ _
  have hline : Text.lines pattern = [pattern] := by
    have hnewline : '\n' ∉ pattern := fun hm => absurd (List.eq_of_mem_replicate hm) (by decide)
    rw [Text.lines_of_notMem hnewline, if_neg hpattern]
  have hlist : (String.ofList pattern).toList = pattern := String.toList_ofList
  have hne : String.ofList pattern ≠ "" := fun heq => hpattern (hlist ▸ congrArg String.toList heq)
  refine ⟨hpattern, hline, ⟨[], [], (List.append_nil _).symm, rfl⟩, ?_⟩
  rw [of_eq rfl rfl hne, if_neg]
  rw [literalWeight, hlist, size_replicate]
  exact Nat.not_le.mpr hlarge

/-- A pattern may be too long to be searched for, even in a text that is the pattern itself. -/
theorem long_pattern_refused :
    let pattern := List.replicate 500000 'x'
    pattern ≠ [] ∧ Text.lines pattern = [pattern] ∧ 0 ∈ places pattern pattern ∧
      Search.of { pattern := String.ofList pattern } =
        .error (.invalidPattern Regex.Error.tooLarge.message) :=
  replicate_refused (by decide)

end CodeAtlas.Search
