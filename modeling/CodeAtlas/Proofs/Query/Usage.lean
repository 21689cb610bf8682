import CodeAtlas.Query.Usage
import Mathlib.Data.List.Basic

/-!
# The query for the uses of a name

The query for the uses of a name is written out as text and read again like any other query.  This
file follows the reader over that text, whatever the name is.  A name has neither quotes, backslashes
nor newlines, so it comes back from its quotes as it is, and each kind in round brackets is read as
the test for that kind.  So the query is always read, and what is read looks for the nodes of these
kinds with the name as their text.
-/

namespace CodeAtlas.Query

/-! ## Words, blanks and strings -/

/-- The text is a word from end to end. -/
def isWord (text : List Char) : Bool :=
  match text with
  | [] => false
  | c :: rest => isWordStart c && rest.all isWordChar

/-- A word ends before the first character that cannot be in one. -/
theorem word?_append {text : List Char} (h : isWord text = true) {c : Char}
    (hc : isWordChar c = false) (rest : List Char) :
    word? (text ++ c :: rest) = some (String.ofList text, c :: rest) := by
  cases text with
  | nil => cases h
  | cons d text =>
    obtain ⟨hd, htext⟩ := Bool.and_eq_true_iff.mp h
    have hall : ∀ e ∈ text, isWordChar e = true := List.all_eq_true.mp htext
    rw [List.cons_append, word?, if_pos hd, List.takeWhile_append_of_pos hall,
      List.dropWhile_append_of_pos hall, List.takeWhile_cons_of_neg (by simp [hc]),
      List.dropWhile_cons_of_neg (by simp [hc]), List.append_nil]

theorem exists_cons_of_isWord {text : List Char} (h : isWord text = true) :
    ∃ c rest, text = c :: rest ∧ isWordStart c = true := by
  cases text with
  | nil => cases h
  | cons c rest => exact ⟨c, rest, rfl, (Bool.and_eq_true_iff.mp h).1⟩

theorem isSpace_eq_false_of_isWordStart {c : Char} (h : isWordStart c = true) :
    isSpace c = false := by
  refine eq_false_of_ne_true fun hspace => ?_
  simp [isSpace, isWordStart, Text.Unicode.asciiAlphanumeric, Text.Unicode.asciiLetter,
    Text.Unicode.asciiDigit, Char.le_def, UInt32.le_iff_toNat_le, Char.ext_iff,
    ← UInt32.toNat_inj] at h hspace
  omega

theorem skipBlanks_cons {c : Char} (h : isSpace c = false) (hc : c ≠ ';') (rest : List Char) :
    skipBlanks (c :: rest) = c :: rest := by
  simp [skipBlanks, skipFrom, h, hc]

theorem skipBlanks_space (rest : List Char) : skipBlanks (' ' :: rest) = skipBlanks rest := by
  simp [skipBlanks, skipFrom, isSpace]

theorem skipBlanks_word {c : Char} (h : isWordStart c = true) (rest : List Char) :
    skipBlanks (c :: rest) = c :: rest :=
  skipBlanks_cons (isSpace_eq_false_of_isWordStart h)
    (fun hc => absurd (hc ▸ h) (by decide)) rest

/-- A text that needs no escapes is read back as it is. -/
theorem stringOnto_append (before : List Char) {text : List Char}
    (h : ∀ c ∈ text, c ≠ '"' ∧ c ≠ '\n' ∧ c ≠ '\\') (rest : List Char) :
    stringOnto before (text ++ '"' :: rest) =
      some (String.ofList (before.reverse ++ text), rest) := by
  induction text generalizing before with
  | nil => simp [stringOnto]
  | cons c text ih =>
    obtain ⟨hquote, hline, hslash⟩ := h c List.mem_cons_self
    rw [List.cons_append, stringOnto.eq_5 before c _ hquote hline fun d _ hd _ => hslash hd,
      ih (c :: before) fun d hd => h d (List.mem_cons_of_mem c hd)]
    simp

/-! ## Kinds -/

variable {language : Language} {kind : String} {names : List String} {calls : List Call}

/-- Written after an opening round bracket, the name stands for the kind of that name. -/
structure IsKind (language : Language) (kind : String) : Prop where
  word : isWord kind.toList = true
  notAny : kind ≠ "_"
  notMissing : namesMissing kind = false
  test : namedTest? language kind = some (.kind kind true)

/-- The pattern for the nodes of a kind. -/
def ofKind (kind : String) : Pattern :=
  .node { test := .kind kind true } [] false

def kindText (kind : String) : List Char :=
  '(' :: kind.toList ++ [')']

theorem readTest_kind (h : IsKind language kind) (rest : List Char) :
    readTest language (kind.toList ++ ')' :: rest) = .ok (.kind kind true, ')' :: rest) := by
  have hword : word? (kind.toList ++ ')' :: rest) = some (kind, ')' :: rest) := by
    rw [word?_append h.word (by decide), String.ofList_toList]
  simp [readTest, hword, h.notAny, h.notMissing, h.test, readMember]

/-- What can stand after a pattern without being about it. -/
def Unsuffixed (rest : List Char) : Prop :=
  ∀ c ∈ rest.head?, c ≠ '+' ∧ c ≠ '*' ∧ c ≠ '?' ∧ c ≠ '@'

theorem readSuffixes_of_unsuffixed {rest : List Char} (h : Unsuffixed rest) (fuel : Nat)
    (pattern : Pattern) :
    readSuffixes fuel pattern ⟨rest, names, calls⟩ = .ok (pattern, ⟨rest, names, calls⟩) := by
  cases fuel with
  | zero => rfl
  | succ fuel =>
    rw [readSuffixes]
    split
    · rename_i hrest
      exact absurd rfl (h '+' (by simp_all)).1
    · rename_i hrest
      exact absurd rfl (h '*' (by simp_all)).2.1
    · rename_i hrest
      exact absurd rfl (h '?' (by simp_all)).2.2.1
    · rename_i hrest
      exact absurd rfl (h '@' (by simp_all)).2.2.2
    · rfl

theorem withSuffixes_of_unsuffixed {rest : List Char} (h : Unsuffixed (skipBlanks rest))
    (pattern : Pattern) :
    withSuffixes pattern ⟨rest, names, calls⟩ =
      .ok (some pattern, ⟨skipBlanks rest, names, calls⟩) := by
  simp only [withSuffixes, Progress.skip, readSuffixes_of_unsuffixed h]
  rfl

/-- A pattern with one name and nothing more about it. -/
theorem withSuffixes_capture {name : String} {rest rest' rest'' : List Char}
    (hname : skipBlanks rest = '@' :: rest') (hword : word? rest' = some (name, rest''))
    (h : Unsuffixed (skipBlanks rest'')) (pattern : Pattern) :
    withSuffixes pattern ⟨rest, [], calls⟩ =
      .ok (some (pattern.mapFirst (Head.capture name)), ⟨skipBlanks rest'', [name], calls⟩) := by
  have hread (fuel : Nat) : readSuffixes (fuel + 1) pattern ⟨'@' :: rest', [], calls⟩ =
      .ok (pattern.mapFirst (Head.capture name), ⟨skipBlanks rest'', [name], calls⟩) := by
    rw [readSuffixes]
    simp only [hword]
    exact readSuffixes_of_unsuffixed h fuel _
  simp only [withSuffixes, Progress.skip, hname, hread]
  rfl

theorem readItems_close (fuel : Nat) (head : Head) (rest : List Char) :
    readItems language (fuel + 1) head [] ⟨')' :: rest, names, calls⟩ =
      .ok (.node head [] false, ⟨rest, names, calls⟩) := rfl

theorem readPattern_kind (h : IsKind language kind) (fuel : Nat) (rest : List Char)
    (hrest : Unsuffixed (skipBlanks rest)) :
    readPattern language (fuel + 2) ⟨'(' :: (kind.toList ++ ')' :: rest), names, calls⟩ =
      .ok (some (ofKind kind), ⟨skipBlanks rest, names, calls⟩) := by
  have htest := readTest_kind h rest
  obtain ⟨c, cs, hkind, hc⟩ := exists_cons_of_isWord h.word
  rw [hkind, List.cons_append] at htest ⊢
  have hclose : skipBlanks (')' :: rest) = ')' :: rest := skipBlanks_cons (by decide) (by decide) _
  rw [readPattern]
  simp only [Progress.to, skipBlanks_word hc]
  split
  case h_6 =>
    simp only [htest, hclose, readItems_close, withSuffixes_of_unsuffixed hrest, bind, Except.bind]
    rfl
  all_goals
    rename_i heq
    obtain ⟨rfl, -⟩ := List.cons.inj heq
    exact absurd hc (by decide)

/-- The kinds of a choice, each with a blank before it. -/
def kindTexts (kinds : List String) : List Char :=
  kinds.flatMap fun kind => ' ' :: kindText kind

theorem skipBlanks_kindTexts_cons (kind : String) (kinds : List String) (rest : List Char) :
    skipBlanks (kindTexts (kind :: kinds) ++ rest) =
      '(' :: (kind.toList ++ ')' :: (kindTexts kinds ++ rest)) := by
  have htext : kindTexts (kind :: kinds) ++ rest =
      ' ' :: '(' :: (kind.toList ++ ')' :: (kindTexts kinds ++ rest)) := by
    simp [kindTexts, kindText]
  rw [htext, skipBlanks_space, skipBlanks_cons (by decide) (by decide)]

/-- The kinds of a choice, with a blank between two of them. -/
def choiceText (kinds : List String) : List Char :=
  [' '].intercalate (kinds.map kindText)

theorem choiceText_cons (kind : String) (kinds : List String) :
    choiceText (kind :: kinds) = kindText kind ++ kindTexts kinds := by
  induction kinds generalizing kind with
  | nil => simp [choiceText, kindTexts]
  | cons other kinds ih =>
    have hmore : choiceText (kind :: other :: kinds) =
        kindText kind ++ ' ' :: choiceText (other :: kinds) := by
      simp [choiceText]
    rw [hmore, ih, kindTexts, kindTexts, List.flatMap_cons, List.cons_append]

theorem skipBlanks_choiceText (kinds : List String) (rest : List Char) :
    skipBlanks (choiceText kinds ++ rest) = skipBlanks (kindTexts kinds ++ rest) := by
  cases kinds with
  | nil => rfl
  | cons kind kinds =>
    have htext : choiceText (kind :: kinds) ++ rest =
        '(' :: (kind.toList ++ ')' :: (kindTexts kinds ++ rest)) := by
      simp [choiceText_cons, kindText]
    rw [htext, skipBlanks_kindTexts_cons, skipBlanks_cons (by decide) (by decide)]

theorem length_le_length_choiceText (kinds : List String) :
    kinds.length ≤ (choiceText kinds).length := by
  cases kinds with
  | nil => exact Nat.le_refl _
  | cons kind kinds =>
    have hkinds : kinds.length ≤ (kindTexts kinds).length := by
      induction kinds with
      | nil => exact Nat.le_refl _
      | cons kind kinds ih =>
        simp only [kindTexts, List.flatMap_cons, List.length_append, List.length_cons] at ih ⊢
        omega
    simp only [choiceText_cons, kindText, List.length_append, List.length_cons]
    omega

theorem unsuffixed_kindTexts (kinds : List String) (rest : List Char) :
    Unsuffixed (skipBlanks (kindTexts kinds ++ ']' :: rest)) := by
  intro c hc
  cases kinds with
  | nil =>
    obtain rfl : ']' = c := by simpa [kindTexts, skipBlanks_cons, isSpace] using hc
    decide
  | cons kind kinds =>
    rw [skipBlanks_kindTexts_cons] at hc
    obtain rfl : '(' = c := by simpa using hc
    decide

theorem readChoices_kinds {kinds : List String} (h : ∀ kind ∈ kinds, IsKind language kind)
    (fuel : Nat) (before : List Pattern) (some? : Bool) (hsome : some? = true ∨ kinds ≠ [])
    (rest : List Char) :
    readChoices language (fuel + kinds.length + 2) before some?
      ⟨skipBlanks (kindTexts kinds ++ ']' :: rest), names, calls⟩ =
      .ok (before.reverse ++ kinds.map ofKind, ⟨rest, names, calls⟩) := by
  induction kinds generalizing before some? with
  | nil =>
    have hclose : skipBlanks (']' :: rest) = ']' :: rest :=
      skipBlanks_cons (by decide) (by decide) _
    have hyes : some? = true := by simpa using hsome
    simp [kindTexts, hclose, readChoices, hyes, Progress.to]
  | cons kind kinds ih =>
    have hread :
        readPattern language (fuel + kinds.length + 2)
          ⟨'(' :: (kind.toList ++ ')' :: (kindTexts kinds ++ ']' :: rest)), names, calls⟩ =
          .ok (some (ofKind kind), ⟨skipBlanks (kindTexts kinds ++ ']' :: rest), names, calls⟩) :=
      readPattern_kind (h kind List.mem_cons_self) _ _ (unsuffixed_kindTexts kinds rest)
    have hmore := ih (fun k hk => h k (List.mem_cons_of_mem kind hk)) (ofKind kind :: before) true
      (.inl rfl)
    have hfuel : fuel + (kinds.length + 1) + 2 = fuel + kinds.length + 2 + 1 := by omega
    rw [skipBlanks_kindTexts_cons, List.length_cons, hfuel, readChoices]
    simp only [hread, bind, Except.bind]
    simpa using hmore

/-! ## Groups -/

theorem readGroup_cons {fuel : Nat} {items : List (Bool × Pattern)} {c : Char} {rest : List Char}
    {pattern : Option Pattern} {p : Progress} (hanchor : c ≠ '.') (hclose : c ≠ ')')
    (h : readPattern language fuel ⟨c :: rest, names, calls⟩ = .ok (pattern, p)) :
    readGroup language (fuel + 1) items ⟨c :: rest, names, calls⟩ =
      readGroup language fuel ((pattern.toList.map fun q => (false, q)) ++ items) p := by
  simp [readGroup, hanchor, hclose, h, bind, Except.bind]

theorem readGroup_close (fuel : Nat) (items : List (Bool × Pattern)) (rest : List Char) :
    readGroup language (fuel + 1) items ⟨')' :: rest, names, calls⟩ =
      .ok (items.reverse, ⟨rest, names, calls⟩) := rfl

/-! ## Calls -/

section

variable {arguments : List Argument} {fuel : Nat} {name text : String} {rest rest' : List Char}

theorem readArguments_capture (h : word? rest = some (name, rest')) (hname : name ∈ names) :
    readArguments names arguments (fuel + 1) ('@' :: rest) =
      readArguments names (.capture name :: arguments) fuel (skipBlanks rest') := by
  simp [readArguments, h, hname]

theorem readArguments_literal (h : stringOnto [] rest = some (text, rest')) :
    readArguments names arguments (fuel + 1) ('"' :: rest) =
      readArguments names (.literal text :: arguments) fuel (skipBlanks rest') := by
  simp [readArguments, readString, h, bind, Except.bind]

theorem readArguments_close :
    readArguments names arguments (fuel + 1) (')' :: rest) =
      .ok (arguments.reverse, skipBlanks rest) := rfl

end

/-! ## The whole query -/

namespace Usage

variable {symbol : String}

/-- No character of the text ends a string or is read as another one in it. -/
def Quotable (symbol : String) : Prop :=
  ∀ c ∈ symbol.toList, c ≠ '"' ∧ c ≠ '\n' ∧ c ≠ '\\'

theorem word?_usage (rest : List Char) :
    word? ('u' :: 's' :: 'a' :: 'g' :: 'e' :: ' ' :: rest) = some ("usage", ' ' :: rest) :=
  word?_append (show isWord ['u', 's', 'a', 'g', 'e'] = true by decide) (by decide) rest

/-- The condition that the text of a use is the name, after its number sign. -/
def condition (symbol : String) : List Char :=
  'e' :: 'q' :: '?' :: ' ' :: '@' :: 'u' :: 's' :: 'a' :: 'g' :: 'e' :: ' ' :: '"' ::
    (symbol.toList ++ ['"', ')', ')'])

/-- What the condition is read as. -/
def call (symbol : String) : Call :=
  ⟨"eq?", [.capture "usage", .literal symbol]⟩

theorem readCall_condition (h : Quotable symbol) :
    readCall ⟨condition symbol, ["usage"], calls⟩ =
      .ok ⟨[')'], ["usage"], calls ++ [call symbol]⟩ := by
  let rest := 'u' :: 's' :: 'a' :: 'g' :: 'e' :: ' ' :: '"' :: (symbol.toList ++ ['"', ')', ')'])
  have hword : word? (condition symbol) = some ("eq?", ' ' :: '@' :: rest) :=
    word?_append (show isWord ['e', 'q', '?'] = true by decide) (by decide) ('@' :: rest)
  have hfuel : (' ' :: '@' :: rest).length + 1 = symbol.toList.length + 10 + 3 := by
    simp [rest]
  have hmark : skipBlanks (' ' :: '@' :: rest) = '@' :: rest := by
    rw [skipBlanks_space, skipBlanks_cons (by decide) (by decide)]
  have hquote (rest : List Char) : skipBlanks (' ' :: '"' :: rest) = '"' :: rest := by
    rw [skipBlanks_space, skipBlanks_cons (by decide) (by decide)]
  have hclose (rest : List Char) : skipBlanks (')' :: rest) = ')' :: rest :=
    skipBlanks_cons (by decide) (by decide) rest
  have hstring : stringOnto [] (symbol.toList ++ ['"', ')', ')']) = some (symbol, [')', ')']) := by
    rw [stringOnto_append [] h]
    simp
  have harguments : readArguments ["usage"] [] (symbol.toList.length + 10 + 3) ('@' :: rest) =
      .ok ((call symbol).arguments, [')']) := by
    rw [readArguments_capture (word?_usage _) (by simp), hquote, readArguments_literal hstring,
      hclose, readArguments_close, hclose]
    rfl
  rw [readCall, hword]
  simp only [hfuel, hmark, harguments, bind, Except.bind]
  rfl

/-- The query between its brackets, from the end of its choice of kinds on. -/
def afterChoice (symbol : String) : List Char :=
  ' ' :: '@' :: 'u' :: 's' :: 'a' :: 'g' :: 'e' :: ' ' :: '(' :: '#' :: condition symbol

/-- The choice of kinds, with the name that its nodes are given. -/
def choice (kinds : List String) : Pattern :=
  .choice (kinds.map fun kind => .node { test := .kind kind true, captures := ["usage"] } [] false)

theorem mapFirst_choice (kinds : List String) :
    (Pattern.choice (kinds.map ofKind)).mapFirst (Head.capture "usage") = choice kinds := by
  have heach : Pattern.mapFirstEach (Head.capture "usage") (kinds.map ofKind) =
      kinds.map fun kind => .node { test := .kind kind true, captures := ["usage"] } [] false := by
    induction kinds with
    | nil => rfl
    | cons kind kinds ih => rw [List.map_cons, Pattern.mapFirstEach, ih]; rfl
  rw [Pattern.mapFirst, heach, choice]

theorem readPattern_choice {kinds : List String} (h : ∀ kind ∈ kinds, IsKind language kind)
    (hne : kinds ≠ []) (fuel : Nat) :
    readPattern language (fuel + kinds.length + 3)
      ⟨'[' :: (choiceText kinds ++ ']' :: afterChoice symbol), [], calls⟩ =
      .ok (some (choice kinds), ⟨'(' :: '#' :: condition symbol, ["usage"], calls⟩) := by
  have hname : skipBlanks (afterChoice symbol) =
      '@' :: 'u' :: 's' :: 'a' :: 'g' :: 'e' :: ' ' :: '(' :: '#' :: condition symbol := by
    rw [afterChoice, skipBlanks_space, skipBlanks_cons (by decide) (by decide)]
  have hopen : skipBlanks (' ' :: '(' :: '#' :: condition symbol) =
      '(' :: '#' :: condition symbol := by
    rw [skipBlanks_space, skipBlanks_cons (by decide) (by decide)]
  have hunsuffixed : Unsuffixed ('(' :: '#' :: condition symbol) := by
    intro c hc
    obtain rfl : '(' = c := by simpa using hc
    decide
  have hnamed : withSuffixes (.choice (kinds.map ofKind)) ⟨afterChoice symbol, [], calls⟩ =
      .ok (some (choice kinds), ⟨'(' :: '#' :: condition symbol, ["usage"], calls⟩) := by
    have hend : Unsuffixed (skipBlanks (' ' :: '(' :: '#' :: condition symbol)) := by
      rw [hopen]
      exact hunsuffixed
    rw [withSuffixes_capture hname (word?_usage _) hend, hopen, mapFirst_choice]
  have hkinds : readChoices language (fuel + kinds.length + 2) [] false
      ⟨skipBlanks (kindTexts kinds ++ ']' :: afterChoice symbol), [], calls⟩ =
      .ok (kinds.map ofKind, ⟨afterChoice symbol, [], calls⟩) :=
    readChoices_kinds h fuel [] false (.inr hne) (afterChoice symbol)
  rw [readPattern]
  simp only [Progress.to, skipBlanks_choiceText, hkinds, bind, Except.bind]
  exact hnamed

theorem readPattern_condition (h : Quotable symbol) (fuel : Nat) :
    readPattern language (fuel + 1) ⟨'(' :: '#' :: condition symbol, ["usage"], calls⟩ =
      .ok (none, ⟨[')'], ["usage"], calls ++ [call symbol]⟩) := by
  have hmark : skipBlanks ('#' :: condition symbol) = '#' :: condition symbol :=
    skipBlanks_cons (by decide) (by decide) _
  rw [readPattern]
  simp only [Progress.to, hmark, readCall_condition h, bind, Except.bind]
  rfl

/-- The text of the query for the uses of a name. -/
def text (kinds : List String) (symbol : String) : List Char :=
  '(' :: '[' :: (choiceText kinds ++ ']' :: afterChoice symbol)

theorem readPattern_text {kinds : List String} (h : ∀ kind ∈ kinds, IsKind language kind)
    (hne : kinds ≠ []) (hsymbol : Quotable symbol) (fuel : Nat) :
    readPattern language (fuel + kinds.length + 5) ⟨text kinds symbol, [], []⟩ =
      .ok (some (.group [(false, choice kinds)]), ⟨[], ["usage"], [call symbol]⟩) := by
  have hgroup : readGroup language (fuel + kinds.length + 4) []
      ⟨'[' :: (choiceText kinds ++ ']' :: afterChoice symbol), [], []⟩ =
      .ok ([(false, choice kinds)], ⟨[], ["usage"], [call symbol]⟩) := by
    rw [readGroup_cons (by decide) (by decide) (readPattern_choice h hne fuel),
      readGroup_cons (by decide) (by decide) (readPattern_condition hsymbol _), readGroup_close]
    rfl
  have hopen : skipBlanks ('[' :: (choiceText kinds ++ ']' :: afterChoice symbol)) =
      '[' :: (choiceText kinds ++ ']' :: afterChoice symbol) :=
    skipBlanks_cons (by decide) (by decide) _
  rw [text, readPattern]
  simp only [Progress.to, hopen, hgroup, bind, Except.bind]
  rfl

/-- What the query for the uses of a name is read as. -/
def query (kinds : List String) (symbol : String) : Query where
  clauses := [{
    pattern := some (.group [(false, choice kinds)])
    predicates := [.hasText ⟨true, true⟩ "usage" symbol] }]
  captures := ["usage"]

theorem readDrafts_text {kinds : List String} (h : ∀ kind ∈ kinds, IsKind language kind)
    (hne : kinds ≠ []) (hsymbol : Quotable symbol) :
    readDrafts language ((text kinds symbol).length + 1) [] ⟨text kinds symbol, [], []⟩ =
      .ok ([⟨text kinds symbol, some (.group [(false, choice kinds)]), [call symbol]⟩],
        ["usage"]) := by
  obtain ⟨fuel, hfuel⟩ : ∃ fuel,
      2 * (text kinds symbol).length + 2 = fuel + kinds.length + 5 := by
    have hkinds := length_le_length_choiceText kinds
    refine ⟨2 * (text kinds symbol).length - kinds.length - 3, ?_⟩
    simp only [text, List.length_cons, List.length_append]
    omega
  rw [readDrafts]
  simp only [hfuel, readPattern_text h hne hsymbol, bind, Except.bind]
  rfl

theorem compile_text {kinds : List String} (h : ∀ kind ∈ kinds, IsKind language kind)
    (hne : kinds ≠ []) (hsymbol : Quotable symbol) {source : String}
    (hsource : source.toList = text kinds symbol) :
    Query.compile language source = .ok (query kinds symbol) := by
  have hopen : skipBlanks (text kinds symbol) = text kinds symbol :=
    skipBlanks_cons (by decide) (by decide) _
  rw [Query.compile, hsource, hopen, readDrafts_text h hne hsymbol]
  rfl

/-! ## Names -/

theorem quotable_of_isName (h : isName symbol = true) : Quotable symbol := by
  intro c hc
  have hname : isNameChar c = true :=
    List.all_eq_true.mp (Bool.and_eq_true_iff.mp h).2 c hc
  refine ⟨?_, ?_, ?_⟩ <;> rintro rfl <;> revert hname <;> decide +kernel

theorem isKind_of_mem_kindsOf : ∀ kind ∈ kindsOf language, IsKind language kind := by
  have hall : ∀ kind ∈ kindsOf language, isWord kind.toList = true ∧ kind ≠ "_" ∧
      namesMissing kind = false ∧ namedTest? language kind = some (.kind kind true) := by
    cases language <;> decide +kernel
  intro kind hkind
  obtain ⟨hword, hany, hmissing, htest⟩ := hall kind hkind
  exact ⟨hword, hany, hmissing, htest⟩

theorem kindsOf_ne_nil : kindsOf language ≠ [] := by
  cases language <;> decide +kernel

theorem toList_choices (kinds : List String) :
    (" ".intercalate (kinds.map fun kind => "(" ++ kind ++ ")")).toList = choiceText kinds := by
  have hkind (kind : String) : ("(" ++ kind ++ ")").toList = kindText kind := by
    simp [kindText]
  rw [String.toList_intercalate, List.map_map, choiceText]
  exact congrArg _ (List.map_congr_left fun kind _ => hkind kind)

/-- **The query for the uses of a name can always be read.**  It is the one that looks for the
nodes of the kinds of the language with the name as their text. -/
theorem compile_source (language : Language) (h : isName symbol = true) :
    ∃ source, Usage.source language symbol = .ok source ∧
      Query.compile language source = .ok (query (kindsOf language) symbol) := by
  refine ⟨_, if_pos h, compile_text isKind_of_mem_kindsOf kindsOf_ne_nil (quotable_of_isName h) ?_⟩
  simp only [toString, String.toList_append, toList_choices, text, afterChoice, condition]
  simp

end Usage

end CodeAtlas.Query
