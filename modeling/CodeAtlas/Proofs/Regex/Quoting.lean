import CodeAtlas.Proofs.Regex.Finding
import CodeAtlas.Search.Basic
import Mathlib.Tactic.FinCases

/-!
# Quoted texts as expressions

A text is quoted by a backslash before every character with a meaning of its own.  The reader then
takes each of its characters for itself (`readBranches_quote`), by itself (`read_quote`) and between
the marks for word boundaries (`read_word`).

The reader joins the items of a branch without an empty expression at the end, so what it gives is
not the expression that a search for a text as it is has, but one that leads to the same places and
is no larger (`ends_close`, `weight_close_le`).  So a text that can be searched for as it is can be
searched for quoted, and is found in the same places (`exists_read_quotedPattern`).
-/

namespace CodeAtlas.Regex

/-! ## The items of a branch -/

/-- Some expressions one after the other. -/
def inSequence (items : List Regex) : Regex :=
  items.foldr .seq .empty

/-- What is read of a branch that has these items. -/
def branch (items : List Regex) : Branches :=
  ⟨[], (items.map some).reverse⟩

theorem add_branch (items : List Regex) (a : Regex) :
    (branch items).add a = branch (items ++ [a]) := by
  simp [branch, Branches.add]

/-- Put an item before what follows it, unless nothing does. -/
def before (a : Regex) : Regex → Regex
  | .empty => a
  | r => .seq a r

theorem close_branch (items : List Regex) :
    (branch items).close = items.foldr before .empty := by
  rw [branch, Branches.close, List.foldl_reverse, List.foldl_nil, List.foldr_map]
  rfl

theorem ends_before (text : Array Char) (a r : Regex) (s : List Nat) :
    (before a r).ends text s = r.ends text (a.ends text s) := by
  cases r <;> rfl

theorem weight_before_le (a r : Regex) : (before a r).weight ≤ a.weight + r.weight := by
  cases r with
  | empty => exact Nat.le_add_right _ _
  | _ => exact Nat.le_refl _

theorem ends_close (text : Array Char) (items : List Regex) (s : List Nat) :
    (branch items).close.ends text s = (inSequence items).ends text s := by
  rw [close_branch]
  induction items generalizing s with
  | nil => rfl
  | cons a items ih =>
    rw [List.foldr_cons, ends_before, ih]
    rfl

theorem weight_close_le (items : List Regex) :
    (branch items).close.weight ≤ (inSequence items).weight := by
  rw [close_branch]
  induction items with
  | nil => exact Nat.le_refl _
  | cons a items ih => exact (weight_before_le a _).trans (Nat.add_le_add_left ih _)

/-! ## Reading a quoted text -/

theorem Flags.space_of_plain {f : Flags} (h : f.verbose = false) (cs : List Char) :
    f.space cs = cs := by
  rw [Flags.space, h]
  rfl

section Steps

variable {f : Flags} (hplain : f.verbose = false) (fuel : Nat) (inGroup : Bool)
  (names : List (List Char)) (b : Branches) (rest : List Char) {c : Char}

theorem readEscape_meta (h : isMeta c = true) :
    readEscape f (c :: rest) = some (.literal c, rest) := by
  have hmem : c ∈ ['\\', '.', '+', '*', '?', '(', ')', '|', '[', ']', '\x7b', '\x7d', '^', '$', '#',
      '&', '-', '~'] := List.contains_iff_mem.mp h
  fin_cases hmem <;> rfl

include hplain

theorem readBranches_escaped (h : isMeta c = true) :
    readBranches (fuel + 1) inGroup f names b ('\\' :: c :: rest) =
      readBranches fuel inGroup f names (b.add (f.literal c)) rest := by
  rw [readBranches]
  simp only [Flags.space_of_plain hplain, readEscape_meta rest h]
  rfl

theorem readBranches_unescaped (h : isMeta c = false) :
    readBranches (fuel + 1) inGroup f names b (c :: rest) =
      readBranches fuel inGroup f names (b.add (f.literal c)) rest := by
  have hne (d : Char) (hd : isMeta d = true) (rest' : List Char) : c :: rest ≠ d :: rest' := by
    intro heq
    rw [(List.cons.inj heq).1, hd] at h
    cases h
  rw [readBranches]
  simp only [Flags.space_of_plain hplain]
  -- Every character that the reader has a case of its own for has a meaning of its own.
  split
  case h_1 heq => cases heq
  case h_14 heq =>
    obtain ⟨rfl, rfl⟩ := List.cons.inj heq
    rfl
  all_goals
    next heq => exact absurd heq (hne _ rfl _)

/-- Each character of a quoted text is taken for itself. -/
theorem readBranches_quote (items : List Regex) (cs : List Char) :
    readBranches (cs.length + fuel) inGroup f names (branch items) (quote cs ++ rest) =
      readBranches fuel inGroup f names (branch (items ++ cs.map f.literal)) rest := by
  induction cs generalizing items with
  | nil => simp [quote]
  | cons c cs ih =>
    have hrest := ih (items ++ [f.literal c])
    rw [List.append_assoc, List.singleton_append, ← List.map_cons] at hrest
    rw [← hrest, ← add_branch, List.length_cons, Nat.add_right_comm, quote, List.flatMap_cons,
      List.append_assoc]
    cases hmeta : isMeta c with
    | true => exact readBranches_escaped hplain _ _ _ _ _ hmeta
    | false => exact readBranches_unescaped hplain _ _ _ _ _ hmeta

end Steps

theorem length_le_length_quote (cs : List Char) : cs.length ≤ (quote cs).length := by
  induction cs with
  | nil => exact Nat.le_refl _
  | cons c cs ih =>
    rw [quote, List.flatMap_cons, List.length_append, List.length_cons]
    have hpos : 1 ≤ (if isMeta c then ['\\', c] else [c]).length := by
      split <;> simp
    have hrest : cs.length ≤ (cs.flatMap fun c => if isMeta c then ['\\', c] else [c]).length := ih
    omega

/-- The reader takes one step for each character of the text, and the text is no longer when it is
quoted. -/
theorem exists_fuel (cs : List Char) (more : Nat) :
    ∃ fuel, (quote cs).length + more = cs.length + (fuel + more) :=
  ⟨(quote cs).length - cs.length, by have := length_le_length_quote cs; omega⟩

variable (ignoreCase : Bool) (cs : List Char)

/-- The characters of a text, each for itself. -/
def letters : List Regex :=
  cs.map (Flags.plain ignoreCase).literal

theorem readBranches_nil (fuel : Nat) (names : List (List Char)) (b : Branches) (f : Flags) :
    readBranches (fuel + 1) false f names b [] = some (b.close, names, []) := by
  rw [readBranches]
  cases hverbose : f.verbose <;> simp [Flags.space, hverbose, skipVerbose]

theorem read_quote :
    read ignoreCase (quote cs) = bounded (branch (letters ignoreCase cs)).close := by
  obtain ⟨fuel, hfuel⟩ := exists_fuel cs 1
  have hread : readBranches (cs.length + (fuel + 1)) false (.plain ignoreCase) [] ⟨[], []⟩
      (quote cs) = some ((branch (letters ignoreCase cs)).close, [], []) := by
    have hquote := readBranches_quote (f := .plain ignoreCase) rfl (fuel + 1) false [] [] [] cs
    rwa [List.append_nil, List.nil_append, readBranches_nil] at hquote
  rw [read, hfuel, hread]

/-- The group that a quoted text is in ends at the bracket after it. -/
theorem readBranches_group (fuel : Nat) (rest : List Char) :
    readBranches (cs.length + (fuel + 1)) true (.plain ignoreCase) [] ⟨[], []⟩
        (quote cs ++ ')' :: rest) =
      some ((branch (letters ignoreCase cs)).close, [], rest) := by
  have hquote := readBranches_quote (f := .plain ignoreCase) rfl (fuel + 1) true [] (')' :: rest)
    [] cs
  rw [List.nil_append] at hquote
  refine hquote.trans ?_
  rw [readBranches]
  rfl

section Marks

variable (fuel : Nat) (b : Branches)

theorem readBranches_mark (rest : List Char) :
    readBranches (fuel + 1) false (.plain ignoreCase) [] b ('\\' :: 'b' :: '(' :: rest) =
      readBranches fuel false (.plain ignoreCase) [] (b.add Search.wordBoundary) ('(' :: rest) := by
  rw [readBranches]
  rfl

theorem readBranches_lastMark :
    readBranches (fuel + 2) false (.plain ignoreCase) [] b ['\\', 'b'] =
      some ((b.add Search.wordBoundary).close, [], []) := by
  rw [readBranches, ← readBranches_nil fuel [] _ (.plain ignoreCase)]
  rfl

theorem readBranches_open {inner : List Char} {r : Regex} {rest : List Char}
    (h : readBranches fuel true (.plain ignoreCase) [] ⟨[], []⟩ inner = some (r, [], rest)) :
    readBranches (fuel + 1) false (.plain ignoreCase) [] b ('(' :: '?' :: ':' :: inner) =
      readBranches fuel false (.plain ignoreCase) [] (b.add r) rest := by
  have hplain (cs : List Char) : (Flags.plain ignoreCase).space cs = cs :=
    Flags.space_of_plain rfl cs
  have hflags : readFlags (.plain ignoreCase) [] true (':' :: inner) =
      some (.plain ignoreCase, true, ':', inner) := rfl
  rw [readBranches]
  simp [hplain, hflags, h]

end Marks

theorem read_word :
    read ignoreCase ("\\b(?:".toList ++ quote cs ++ ")\\b".toList) =
      bounded (Search.asWord (branch (letters ignoreCase cs)).close) := by
  obtain ⟨fuel, hfuel⟩ := exists_fuel cs 7
  have hlength : ("\\b(?:".toList ++ quote cs ++ ")\\b".toList).length + 1 =
      cs.length + (fuel + 7) + 2 := by
    rw [List.length_append, List.length_append, ← hfuel]
    show 5 + _ + 3 + 1 = _
    omega
  have htext : "\\b(?:".toList ++ quote cs ++ ")\\b".toList =
      '\\' :: 'b' :: '(' :: '?' :: ':' :: (quote cs ++ ')' :: ['\\', 'b']) :=
    List.append_assoc _ _ _
  have hgroup := readBranches_group ignoreCase cs (fuel + 6) ['\\', 'b']
  rw [read, hlength, htext, readBranches_mark, readBranches_open _ _ _ hgroup]
  have hlast : cs.length + (fuel + 7) = cs.length + fuel + 5 + 2 := by omega
  rw [hlast, readBranches_lastMark]
  rfl

/-! ## The expression of a search -/

theorem bounded_eq_ok_iff {r r' : Regex} :
    bounded r = .ok r' ↔ r.weight + frameWeight ≤ maxWeight ∧ r' = r := by
  rw [bounded]
  split
  next h => exact ⟨fun heq => ⟨h, (Except.ok.inj heq).symm⟩, fun heq => heq.2 ▸ rfl⟩
  next h => exact ⟨nofun, fun heq => absurd heq.1 h⟩

theorem literal_eq : Search.literal ignoreCase cs = inSequence (letters ignoreCase cs) := by
  rw [letters, inSequence, List.foldr_map]
  rfl

/-- The expression that stands for a pattern as it is, in writing. -/
def quotedPattern (options : Search.Options) : List Char :=
  let body := quote options.pattern.toList
  if options.wholeWord then "\\b(?:".toList ++ body ++ ")\\b".toList else body

/-- What a search for a pattern as it is goes by finds what the quoted pattern finds that is read as
an expression. -/
theorem exists_read_quotedPattern {options : Search.Options} (hliteral : options.useRegex = false)
    {r : Regex} (hr : Search.expression options = .ok r) :
    ∃ r', read (!options.caseSensitive) (quotedPattern options) = .ok r' ∧
      ∀ line, r'.find? line = r.find? line := by
  rw [Search.expression, hliteral] at hr
  obtain ⟨hweight, rfl⟩ := bounded_eq_ok_iff.mp hr
  have hends (text : Array Char) (s : List Nat) :=
    ends_close text (letters (!options.caseSensitive) options.pattern.toList) s
  have hle := weight_close_le (letters (!options.caseSensitive) options.pattern.toList)
  rw [← literal_eq] at hends hle
  cases hword : options.wholeWord with
  | false =>
    rw [hword] at hweight
    have hquoted : quotedPattern options = quote options.pattern.toList := by
      rw [quotedPattern, hword]
      rfl
    rw [hquoted, read_quote]
    exact ⟨_, bounded_eq_ok_iff.mpr ⟨(Nat.add_le_add_right hle _).trans hweight, rfl⟩,
      find?_congr hends⟩
  | true =>
    rw [hword] at hweight
    have hquoted : quotedPattern options =
        "\\b(?:".toList ++ quote options.pattern.toList ++ ")\\b".toList := by
      rw [quotedPattern, hword]
      rfl
    rw [hquoted, read_word]
    refine ⟨_, bounded_eq_ok_iff.mpr ⟨(Nat.add_le_add_right ?_ _).trans hweight, rfl⟩,
      find?_congr fun text s => ?_⟩
    · exact Nat.add_le_add_left (Nat.add_le_add_right hle _) _
    · exact congrArg _ (hends text _)

end CodeAtlas.Regex
