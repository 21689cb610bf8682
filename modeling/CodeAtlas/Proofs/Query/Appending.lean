import CodeAtlas.Proofs.Query.Usage

/-!
# Reading a query that goes on

The reader looks ahead: it passes over blanks and comments, a word goes on as long as it can, and
what stands after a pattern may still be about it.  So a text is read as it is read alone only if
what follows it starts on a line of its own and not with a suffix (`Follows`).

This file carries each function of the reader over to the longer text.  Of the two readings the
second has more text to come, no less fuel and no fewer names (`Ahead`, `Ready`), and `Carries` says
that it then gives what the first one gives.
-/

namespace CodeAtlas.Query

/-! ## What follows a text -/

/-- The text starts with a newline, if it is not empty, and what comes first in it is not about a
pattern before it. -/
structure Follows (x : List Char) : Prop where
  newline : ∀ c ∈ x.head?, c = '\n'
  unsuffixed : Unsuffixed (skipBlanks x)

variable {x : List Char}

theorem skipFrom_append_of_cons {inComment : Bool} {cs rest : List Char} {c : Char}
    (h : skipFrom inComment cs = c :: rest) (x : List Char) :
    skipFrom inComment (cs ++ x) = c :: (rest ++ x) := by
  induction cs generalizing inComment with
  | nil => cases h
  | cons d cs ih =>
    rw [List.cons_append]
    rw [skipFrom] at h ⊢
    split_ifs at h ⊢
    · exact congrArg (· ++ x) h
    · exact ih h
    · exact ih h
    · exact ih h
    · exact congrArg (· ++ x) h

theorem skipFrom_append_of_nil {inComment : Bool} {cs : List Char} (hx : Follows x)
    (h : skipFrom inComment cs = []) : skipFrom inComment (cs ++ x) = skipBlanks x := by
  induction cs generalizing inComment with
  | nil =>
    cases x with
    | nil => cases inComment <;> rfl
    | cons c x =>
      obtain rfl := hx.newline c rfl
      cases inComment <;> rfl
  | cons d cs ih =>
    rw [List.cons_append]
    rw [skipFrom] at h ⊢
    split_ifs at h ⊢ <;> exact ih h

/-- Where blanks have been passed over there are none to pass over. -/
theorem skipBlanks_skipBlanks (cs : List Char) : skipBlanks (skipBlanks cs) = skipBlanks cs := by
  have hagain (inComment : Bool) : skipBlanks (skipFrom inComment cs) = skipFrom inComment cs := by
    induction cs generalizing inComment with
    | nil => rfl
    | cons d cs ih =>
      rw [skipFrom]
      split_ifs with hcomment hnul hsemicolon hspace
      · rw [hnul]
        rfl
      · exact ih _
      · exact ih _
      · exact ih _
      · exact skipBlanks_cons (by simpa using hspace) hsemicolon cs
  exact hagain false

theorem skipBlanks_append_of_cons {cs rest : List Char} {c : Char} (h : skipBlanks cs = c :: rest)
    (x : List Char) : skipBlanks (cs ++ x) = c :: (rest ++ x) :=
  skipFrom_append_of_cons h x

theorem skipBlanks_append (hx : Follows x) (cs : List Char) :
    skipBlanks (cs ++ x) = skipBlanks (skipBlanks cs ++ x) := by
  cases h : skipBlanks cs with
  | nil => exact skipFrom_append_of_nil hx h
  | cons c rest =>
    have hstart : skipBlanks (c :: rest) = c :: rest := h ▸ skipBlanks_skipBlanks cs
    rw [skipBlanks_append_of_cons h, skipBlanks_append_of_cons hstart]

theorem length_skipBlanks_le (cs : List Char) : (skipBlanks cs).length ≤ cs.length := by
  have hle (inComment : Bool) : (skipFrom inComment cs).length ≤ cs.length := by
    induction cs generalizing inComment with
    | nil => exact Nat.le_refl 0
    | cons d cs ih =>
      rw [skipFrom]
      split_ifs
      · exact Nat.le_refl _
      · exact Nat.le_succ_of_le (ih _)
      · exact Nat.le_succ_of_le (ih _)
      · exact Nat.le_succ_of_le (ih _)
      · exact Nat.le_refl _
  exact hle false

/-- A word ends before what follows. -/
theorem word?_append_of_follows (hx : Follows x) {cs rest : List Char} {name : String}
    (h : word? cs = some (name, rest)) : word? (cs ++ x) = some (name, rest ++ x) := by
  cases cs with
  | nil => cases h
  | cons c cs =>
    have hstop : x.takeWhile isWordChar = [] ∧ x.dropWhile isWordChar = x := by
      cases x with
      | nil => exact ⟨rfl, rfl⟩
      | cons d x =>
        obtain rfl := hx.newline d rfl
        exact ⟨rfl, rfl⟩
    rw [word?] at h
    split at h
    · rename_i hstart
      obtain ⟨rfl, rfl⟩ := Prod.mk.inj (Option.some.inj h)
      have htake : (cs ++ x).takeWhile isWordChar = cs.takeWhile isWordChar := by
        rw [List.takeWhile_append, hstop.1, List.append_nil]
        split
        · rename_i hall
          exact ((List.takeWhile_prefix isWordChar).eq_of_length hall).symm
        · rfl
      have hdrop : (cs ++ x).dropWhile isWordChar = cs.dropWhile isWordChar ++ x := by
        rw [List.dropWhile_append, hstop.2]
        split
        · rename_i hnone
          rw [List.isEmpty_iff.mp hnone, List.nil_append]
        · rfl
      rw [List.cons_append, word?, if_pos hstart, htake, hdrop]
    · cases h

theorem stringOnto_append_of_some {text cs rest : List Char} {s : String}
    (h : stringOnto text cs = some (s, rest)) (x : List Char) :
    stringOnto text (cs ++ x) = some (s, rest ++ x) := by
  fun_induction stringOnto text cs with
  | case1 => cases h
  | case2 text cs =>
    obtain ⟨rfl, rfl⟩ := Prod.mk.inj (Option.some.inj h)
    rfl
  | case3 => cases h
  | case4 text c cs ih => exact ih h
  | case5 text c cs hquote hline hslash ih =>
    -- A backslash at the end of a text is in no string.
    have hc : c ≠ '\\' := by
      rintro rfl
      cases cs with
      | nil => cases h
      | cons d cs => exact hslash d cs rfl rfl
    rw [List.cons_append, stringOnto.eq_5 text c _ hquote hline fun d _ hd _ => hc hd]
    exact ih h

/-! ## Two readings -/

/-- What one step of the first reading gives, the second gives too, as far as they may differ. -/
def Carries {α β : Type} (R : α → β → Prop) (e : Except Stop α) (e' : Except Stop β) : Prop :=
  ∀ a, e = .ok a → ∃ b, e' = .ok b ∧ R a b

/-- The first parts are the same. -/
def Beside {α β γ : Type} (R : β → γ → Prop) (a : α × β) (b : α × γ) : Prop :=
  a.1 = b.1 ∧ R a.2 b.2

namespace Carries

variable {α β γ δ : Type} {R : α → β → Prop} {S : γ → δ → Prop}
  {e : Except Stop α} {e' : Except Stop β}

theorem ok {a : α} {b : β} (h : R a b) : Carries R (.ok a) (.ok b) := by
  rintro _ ⟨⟩
  exact ⟨b, rfl, h⟩

theorem fails (stop : Stop) : Carries R (.error stop) e' :=
  fun _ h => nomatch h

theorem bind {f : α → Except Stop γ} {f' : β → Except Stop δ} (h : Carries R e e')
    (hnext : ∀ a b, R a b → Carries S (f a) (f' b)) : Carries S (e >>= f) (e' >>= f') := by
  intro r hr
  cases he : e with
  | error stop =>
    rw [he] at hr
    cases hr
  | ok a =>
    obtain ⟨b, he', hR⟩ := h a he
    rw [he] at hr
    rw [he']
    exact hnext a b hR r hr

theorem bindBeside {ε : Type} {f : ε × α → Except Stop γ} {f' : ε × β → Except Stop δ}
    {e : Except Stop (ε × α)} {e' : Except Stop (ε × β)} (h : Carries (Beside R) e e')
    (hnext : ∀ a b b', R b b' → Carries S (f (a, b)) (f' (a, b'))) :
    Carries S (e >>= f) (e' >>= f') :=
  h.bind fun (a, b) (a', b') hR => by
    obtain ⟨ha, hb⟩ := hR
    obtain rfl : a = a' := ha
    exact hnext a b b' hb

end Carries

/-! ## Places in two readings -/

/-- More text comes. -/
def Longer (x cs cs' : List Char) : Prop := cs' = cs ++ x

/-- More text comes, and both readings have passed over blanks. -/
structure Skipped (x cs cs' : List Char) : Prop where
  skipped : skipBlanks cs = cs
  longer : cs' = skipBlanks (cs ++ x)

theorem Skipped.skipBlanks (hx : Follows x) (cs : List Char) :
    Skipped x (skipBlanks cs) (skipBlanks (cs ++ x)) :=
  ⟨skipBlanks_skipBlanks cs, skipBlanks_append hx cs⟩

/-- As long as there is text left, both readings are at the same character. -/
theorem Skipped.of_cons {c : Char} {cs cs' : List Char} (h : Skipped x (c :: cs) cs') :
    cs' = c :: (cs ++ x) :=
  h.longer.trans (skipBlanks_append_of_cons h.skipped x)

theorem Skipped.word? {cs cs' rest : List Char} (h : Skipped x cs cs') (hx : Follows x)
    {name : String} (hword : Query.word? cs = some (name, rest)) :
    Query.word? cs' = some (name, rest ++ x) := by
  cases cs with
  | nil => cases hword
  | cons c cs => rw [h.of_cons, ← List.cons_append, word?_append_of_follows hx hword]

/-- The second reading has no fewer names and the same calls. -/
structure Knows (p p' : Progress) : Prop where
  calls : p'.calls = p.calls
  names : p.names ⊆ p'.names

structure Ahead (x : List Char) (p p' : Progress) : Prop extends Knows p p' where
  rest : Longer x p.rest p'.rest

structure Ready (x : List Char) (p p' : Progress) : Prop extends Knows p p' where
  rest : Skipped x p.rest p'.rest

variable {p p' : Progress} {c : Char} {cs : List Char}

theorem Knows.ahead (h : Knows p p') (cs : List Char) : Ahead x (p.to cs) (p'.to (cs ++ x)) :=
  ⟨⟨h.calls, h.names⟩, rfl⟩

theorem Knows.ready (h : Knows p p') (hx : Follows x) (cs : List Char) :
    Ready x (p.to (skipBlanks cs)) (p'.to (skipBlanks (cs ++ x))) :=
  ⟨⟨h.calls, h.names⟩, .skipBlanks hx cs⟩

theorem Ahead.skip (h : Ahead x p p') (hx : Follows x) : Ready x p.skip p'.skip := by
  have hready := h.toKnows.ready hx p.rest
  rwa [← show p'.rest = p.rest ++ x from h.rest] at hready

theorem Ready.skip (h : Ready x p p') : Ready x p.skip p'.skip :=
  ⟨⟨h.calls, h.names⟩, skipBlanks_skipBlanks p.rest,
    (congrArg skipBlanks h.rest.longer).trans <| (skipBlanks_skipBlanks _).trans <|
      congrArg (fun cs => skipBlanks (cs ++ x)) h.rest.skipped.symm⟩

/-- Either the first reading is at its end, or both are at the same character. -/
theorem Ready.nil_or_cons (h : Ready x p p') :
    (∃ names calls, p = ⟨[], names, calls⟩) ∨ ∃ c cs names names' calls,
      p = ⟨c :: cs, names, calls⟩ ∧ p' = ⟨c :: (cs ++ x), names', calls⟩ := by
  obtain ⟨rest, names, calls⟩ := p
  obtain ⟨rest', names', calls'⟩ := p'
  have hrest := h.rest
  obtain rfl : calls' = calls := h.calls
  cases rest with
  | nil => exact .inl ⟨names, calls', rfl⟩
  | cons c cs =>
    obtain rfl := hrest.of_cons
    exact .inr ⟨c, cs, names, names', calls', rfl, rfl⟩

/-! ## Words, strings and calls -/

theorem carries_readString {whole whole' : List Char} (rest : List Char) :
    Carries (Beside (Longer x)) (readString whole rest) (readString whole' (rest ++ x)) := by
  unfold readString
  cases h : stringOnto [] rest with
  | none => exact .fails _
  | some found =>
    rw [stringOnto_append_of_some h x]
    exact .ok ⟨rfl, rfl⟩

theorem readArguments_word {c : Char} (hclose : c ≠ ')') (hcapture : c ≠ '@') (hquote : c ≠ '"')
    (names : List String) (arguments : List Argument) (fuel : Nat) (cs : List Char) :
    readArguments names arguments (fuel + 1) (c :: cs) =
      match word? (c :: cs) with
      | some (text, rest) =>
        readArguments names (.literal text :: arguments) fuel (skipBlanks rest)
      | none => formFault (c :: cs) :=
  readArguments.eq_5 names arguments (c :: cs) fuel (fun _ h => hclose (List.cons.inj h).1)
    (fun _ h => hcapture (List.cons.inj h).1) fun _ h => hquote (List.cons.inj h).1

theorem carries_readArguments (hx : Follows x) {names names' : List String}
    (hnames : names ⊆ names') {fuel fuel' : Nat} (hfuel : fuel ≤ fuel') {cs cs' : List Char}
    (h : Skipped x cs cs') (arguments : List Argument) :
    Carries (Beside (Skipped x)) (readArguments names arguments fuel cs)
      (readArguments names' arguments fuel' cs') := by
  induction fuel generalizing fuel' cs cs' arguments with
  | zero => exact .fails _
  | succ fuel ih =>
    obtain ⟨fuel', rfl⟩ := Nat.exists_eq_add_one_of_ne_zero (by omega : fuel' ≠ 0)
    have hfuel : fuel ≤ fuel' := Nat.le_of_succ_le_succ hfuel
    cases cs with
    | nil => exact .fails _
    | cons c cs =>
      rw [h.of_cons]
      by_cases hclose : c = ')'
      · subst hclose
        exact .ok ⟨rfl, .skipBlanks hx cs⟩
      by_cases hcapture : c = '@'
      · subst hcapture
        simp only [readArguments]
        cases hword : word? cs with
        | none => exact .fails _
        | some found =>
          simp only [word?_append_of_follows hx hword]
          split_ifs with hknown hmore
          · exact ih hfuel (.skipBlanks hx _) _
          · exact absurd (by simpa using hnames (by simpa using hknown)) hmore
          · exact .fails _
          · exact .fails _
      by_cases hquote : c = '"'
      · subst hquote
        simp only [readArguments]
        refine .bindBeside (carries_readString cs) fun text rest rest' hrest => ?_
        obtain rfl : rest' = rest ++ x := hrest
        exact ih hfuel (.skipBlanks hx rest) _
      · rw [readArguments_word hclose hcapture hquote, readArguments_word hclose hcapture hquote]
        cases hword : word? (c :: cs) with
        | none => exact .fails _
        | some found =>
          rw [← List.cons_append, word?_append_of_follows hx hword]
          exact ih hfuel (.skipBlanks hx _) _

theorem carries_readCall (hx : Follows x) (h : Ahead x p p') :
    Carries (Ready x) (readCall p) (readCall p') := by
  unfold readCall
  rw [show p'.rest = p.rest ++ x from h.rest]
  cases hword : word? p.rest with
  | none => exact .fails _
  | some found =>
    obtain ⟨name, rest⟩ := found
    rw [word?_append_of_follows hx hword]
    have hfuel : rest.length + 1 ≤ (rest ++ x).length + 1 := by
      rw [List.length_append]
      omega
    refine .bindBeside (carries_readArguments hx h.names hfuel (.skipBlanks hx rest) [])
      fun arguments rest rest' hrest => .ok ?_
    exact ⟨⟨congrArg (· ++ [⟨name, arguments⟩]) h.calls, h.names⟩, hrest⟩

/-! ## Tests -/

theorem readMember_of_ne {language : Language} {start cs : List Char} {test : Test}
    (h : ∀ c ∈ cs.head?, c ≠ '/') : readMember language start test cs = .ok (test, cs) := by
  unfold readMember
  split
  · exact absurd rfl (h '/' rfl)
  · rfl

theorem carries_readMember (hx : Follows x) (language : Language) {start start' : List Char}
    (test : Test) (cs : List Char) :
    Carries (Beside (Longer x)) (readMember language start test cs)
      (readMember language start' test (cs ++ x)) := by
  by_cases hslash : cs.head? = some '/'
  · obtain ⟨cs, rfl⟩ := List.head?_eq_some_iff.mp hslash
    cases test with
    | family name =>
      simp only [readMember, List.cons_append]
      cases hword : word? cs with
      | none => exact .fails _
      | some found =>
        simp only [word?_append_of_follows hx hword]
        split_ifs
        · exact .ok ⟨rfl, rfl⟩
        · exact .fails _
    | any | anyNamed | kind | missing => exact .fails _
  · have hhead : ∀ c ∈ cs.head?, c ≠ '/' := by
      rintro c hc rfl
      exact hslash hc
    have hhead' : ∀ c ∈ (cs ++ x).head?, c ≠ '/' := by
      cases cs with
      | nil =>
        rintro c hc rfl
        exact absurd (hx.newline '/' hc) (by decide)
      | cons c cs => exact hhead
    rw [readMember_of_ne hhead, readMember_of_ne hhead']
    exact .ok ⟨rfl, rfl⟩

theorem readMissing_word {c : Char} (hclose : c ≠ ')') (hquote : c ≠ '"') (language : Language)
    (cs : List Char) :
    readMissing language (c :: cs) =
      match word? (c :: cs) with
      | some (kind, rest) =>
        match namedTest? language kind with
        | some (.kind kind _) => .ok (.missing (some (kind, true)), rest)
        | some test => .ok (test, rest)
        | none => nameFault (c :: cs)
      | none => formFault (c :: cs) :=
  readMissing.eq_3 language (c :: cs) (fun _ h => hclose (List.cons.inj h).1)
    fun _ h => hquote (List.cons.inj h).1

theorem carries_readMissing (hx : Follows x) (language : Language) {cs cs' : List Char}
    (h : Skipped x cs cs') :
    Carries (Beside (Longer x)) (readMissing language cs) (readMissing language cs') := by
  cases cs with
  | nil => exact .fails _
  | cons c cs =>
    rw [h.of_cons]
    by_cases hclose : c = ')'
    · subst hclose
      exact .ok ⟨rfl, rfl⟩
    by_cases hquote : c = '"'
    · subst hquote
      refine .bindBeside (carries_readString cs) fun kind rest rest' hrest => ?_
      dsimp only
      split_ifs
      · exact .ok ⟨rfl, hrest⟩
      · exact .fails _
    · rw [readMissing_word hclose hquote, readMissing_word hclose hquote]
      cases hword : word? (c :: cs) with
      | none => exact .fails _
      | some found =>
        rw [← List.cons_append, word?_append_of_follows hx hword]
        dsimp only
        split
        · exact .ok ⟨rfl, rfl⟩
        · exact .ok ⟨rfl, rfl⟩
        · exact .fails _

theorem carries_readTest (hx : Follows x) (language : Language) (cs : List Char) :
    Carries (Beside (Longer x)) (readTest language cs) (readTest language (cs ++ x)) := by
  unfold readTest
  cases hword : word? cs with
  | none => exact .fails _
  | some found =>
    obtain ⟨name, rest⟩ := found
    rw [word?_append_of_follows hx hword]
    dsimp only
    split_ifs
    · exact carries_readMember hx language _ _
    · refine .bindBeside (carries_readMissing hx language (.skipBlanks hx rest))
        fun test rest rest' hrest => ?_
      obtain rfl : rest' = rest ++ x := hrest
      exact carries_readMember hx language _ _
    · split
      · exact carries_readMember hx language _ _
      · exact .fails _

/-! ## Suffixes -/

theorem length_lt_of_word? {cs rest : List Char} {name : String}
    (h : word? cs = some (name, rest)) : rest.length < cs.length := by
  cases cs with
  | nil => cases h
  | cons c cs =>
    rw [word?] at h
    split at h
    · obtain ⟨-, rfl⟩ := Prod.mk.inj (Option.some.inj h)
      exact Nat.lt_succ_of_le (List.dropWhile_sublist isWordChar).length_le
    · cases h

/-- The names that are known once there is one more. -/
def insertName (names : List String) (name : String) : List String :=
  if names.contains name then names else names ++ [name]

theorem mem_insertName_iff {names : List String} {name other : String} :
    other ∈ insertName names name ↔ other ∈ names ∨ other = name := by
  unfold insertName
  split
  · rename_i hknown
    exact (or_iff_left_of_imp fun h => h ▸ List.contains_iff_mem.mp hknown).symm
  · rw [List.mem_append, List.mem_singleton]

theorem insertName_subset {names names' : List String} (h : names ⊆ names') (name : String) :
    insertName names name ⊆ insertName names' name := by
  intro other hother
  rw [mem_insertName_iff] at hother ⊢
  exact hother.imp_left fun hmem => h hmem

theorem readSuffixes_capture {cs rest : List Char} {name : String}
    (h : word? cs = some (name, rest)) (fuel : Nat) (pattern : Pattern) (names : List String)
    (calls : List Call) :
    readSuffixes (fuel + 1) pattern ⟨'@' :: cs, names, calls⟩ =
      readSuffixes fuel (pattern.mapFirst (Head.capture name))
        ⟨skipBlanks rest, insertName names name, calls⟩ := by
  rw [readSuffixes]
  simp only [h]
  rfl

theorem carries_readSuffixes (hx : Follows x) {fuel fuel' : Nat} (hfuel : p.rest.length < fuel)
    (hfuel' : p'.rest.length < fuel') (h : Ready x p p') (pattern : Pattern) :
    Carries (Beside (Ready x)) (readSuffixes fuel pattern p) (readSuffixes fuel' pattern p') := by
  induction fuel generalizing fuel' p p' pattern with
  | zero => omega
  | succ fuel ih =>
    obtain ⟨fuel', rfl⟩ := Nat.exists_eq_add_one_of_ne_zero (by omega : fuel' ≠ 0)
    obtain ⟨names, calls, rfl⟩ | ⟨c, cs, names, names', calls, rfl, rfl⟩ := h.nil_or_cons
    · have hend : Unsuffixed p'.rest := by
        rw [h.rest.longer]
        exact hx.unsuffixed
      rw [readSuffixes_of_unsuffixed hend]
      exact .ok ⟨rfl, h⟩
    · have hgo {rest : List Char} (hle : rest.length ≤ cs.length) {names names' : List String}
          (hnames : names ⊆ names') (pattern : Pattern) :
          Carries (Beside (Ready x)) (readSuffixes fuel pattern ⟨skipBlanks rest, names, calls⟩)
            (readSuffixes fuel' pattern ⟨skipBlanks (rest ++ x), names', calls⟩) := by
        have hshort := length_skipBlanks_le rest
        have hshort' := length_skipBlanks_le (rest ++ x)
        simp only [List.length_cons, List.length_append] at hfuel hfuel' hshort'
        have hlt : (skipBlanks rest).length < fuel := by omega
        have hlt' : (skipBlanks (rest ++ x)).length < fuel' := by omega
        have hready : Ready x ⟨skipBlanks rest, names, calls⟩
            ⟨skipBlanks (rest ++ x), names', calls⟩ :=
          ⟨⟨rfl, hnames⟩, .skipBlanks hx rest⟩
        exact ih hlt hlt' hready pattern
      by_cases hplus : c = '+'
      · subst hplus
        exact hgo (Nat.le_refl _) h.names _
      by_cases hstar : c = '*'
      · subst hstar
        exact hgo (Nat.le_refl _) h.names _
      by_cases hoptional : c = '?'
      · subst hoptional
        exact hgo (Nat.le_refl _) h.names _
      by_cases hcapture : c = '@'
      · subst hcapture
        cases hword : word? cs with
        | none =>
          simp only [readSuffixes, hword]
          exact .fails _
        | some found =>
          obtain ⟨name, rest⟩ := found
          rw [readSuffixes_capture hword, readSuffixes_capture (word?_append_of_follows hx hword)]
          have hlt := length_lt_of_word? hword
          exact hgo (Nat.le_of_lt hlt) (insertName_subset h.names name) _
      · have hhere (cs : List Char) : Unsuffixed (c :: cs) := by
          rintro _ ⟨⟩
          exact ⟨hplus, hstar, hoptional, hcapture⟩
        rw [readSuffixes_of_unsuffixed (hhere cs), readSuffixes_of_unsuffixed (hhere (cs ++ x))]
        exact .ok ⟨rfl, h⟩

theorem carries_withSuffixes (hx : Follows x) (h : Ready x p.skip p'.skip) (pattern : Pattern) :
    Carries (Beside (Ready x)) (withSuffixes pattern p) (withSuffixes pattern p') :=
  .bindBeside (carries_readSuffixes hx (Nat.lt_succ_self _) (Nat.lt_succ_self _) h pattern)
    fun _ _ _ hq => .ok ⟨rfl, hq⟩

/-! ## Patterns -/

/-- With this fuel, whatever is read of a text is read of it too if more text follows. -/
structure ReadsOn (language : Language) (x : List Char) (fuel : Nat) : Prop where
  pattern {fuel' : Nat} {p p' : Progress} : fuel ≤ fuel' → Ready x p p' →
    Carries (Beside (Ready x)) (readPattern language fuel p) (readPattern language fuel' p')
  choices {fuel' : Nat} {p p' : Progress} (patterns : List Pattern) (some? : Bool) :
    fuel ≤ fuel' → Ready x p p' →
    Carries (Beside (Ahead x)) (readChoices language fuel patterns some? p)
      (readChoices language fuel' patterns some? p')
  group {fuel' : Nat} {p p' : Progress} (items : List (Bool × Pattern)) :
    fuel ≤ fuel' → Ready x p p' →
    Carries (Beside (Ahead x)) (readGroup language fuel items p) (readGroup language fuel' items p')
  items {fuel' : Nat} {p p' : Progress} (head : Head) (items : List (Bool × Pattern)) :
    fuel ≤ fuel' → Ready x p p' →
    Carries (Beside (Ahead x)) (readItems language fuel head items p)
      (readItems language fuel' head items p')

/-- What comes after the name of a field. -/
def readField (language : Language) (fuel : Nat) (p : Progress) :
    Except Stop (Option Pattern × Progress) :=
  match word? p.rest with
  | some (field, rest) =>
    match skipBlanks rest with
    | ':' :: rest => do
      let (pattern, p') ← readPattern language fuel (p.to (skipBlanks rest))
      if language.hasField field then
        match pattern with
        | some pattern => withSuffixes (pattern.mapFirst (Head.inField field)) p'
        | none => return (none, p')
      else nameFault p.rest
    | _ => formFault p.rest
  | none => formFault p.rest

/-- What comes after an opening round bracket. -/
def readBracket (language : Language) (fuel : Nat) (p : Progress) :
    Except Stop (Option Pattern × Progress) :=
  match p.rest with
  | '(' :: _ | '"' :: _ | '[' :: _ => do
    let (items, p) ← readGroup language fuel [] p
    withSuffixes (.group items) p
  | '.' :: rest | '#' :: rest => do
    let p ← readCall (p.to rest)
    return (none, p)
  | _ => do
    let (test, rest) ← readTest language p.rest
    let (pattern, p) ← readItems language fuel { test } [] (p.to (skipBlanks rest))
    withSuffixes pattern p

/-- The mark that no named sibling may stand between. -/
def readAnchor (p : Progress) : Bool × Progress :=
  match p.rest with
  | '.' :: rest => (true, p.to (skipBlanks rest))
  | _ => (false, p)

section

variable {language : Language} {fuel : Nat} {names : List String} {calls : List Call}

theorem readPattern_field {c : Char} (hchoice : c ≠ '[') (hbracket : c ≠ '(') (hany : c ≠ '_')
    (hquote : c ≠ '"') (cs : List Char) :
    readPattern language (fuel + 1) ⟨c :: cs, names, calls⟩ =
      readField language fuel ⟨c :: cs, names, calls⟩ := by
  simp [readPattern, hchoice, hbracket, hany, hquote]
  rfl

theorem readPattern_nil : readPattern language fuel ⟨[], names, calls⟩ = formFault [] := by
  cases fuel <;> rfl

theorem readBracket_test {c : Char} (hbracket : c ≠ '(') (hquote : c ≠ '"') (hchoice : c ≠ '[')
    (hdot : c ≠ '.') (hsign : c ≠ '#') (cs : List Char) :
    readBracket language fuel ⟨c :: cs, names, calls⟩ = (do
      let (test, rest) ← readTest language (c :: cs)
      let (pattern, p) ← readItems language fuel { test } [] ⟨skipBlanks rest, names, calls⟩
      withSuffixes pattern p) := by
  simp [readBracket, hbracket, hquote, hchoice, hdot, hsign]
  rfl

theorem readChoices_item {cs : List Char} (h : ∀ c ∈ cs.head?, c ≠ ']') (patterns : List Pattern)
    (some? : Bool) :
    readChoices language (fuel + 1) patterns some? ⟨cs, names, calls⟩ = (do
      let (pattern, p) ← readPattern language fuel ⟨cs, names, calls⟩
      readChoices language fuel (pattern.toList ++ patterns) true p) := by
  rw [readChoices]
  split
  · rename_i heq
    dsimp only at heq
    exact absurd rfl (h ']' (by rw [heq]; rfl))
  · rfl

theorem readAnchor_of_ne {p : Progress} (h : ∀ c ∈ p.rest.head?, c ≠ '.') :
    readAnchor p = (false, p) := by
  unfold readAnchor
  split
  · rename_i heq
    exact absurd rfl (h '.' (by rw [heq]; rfl))
  · rfl

/-- One way on where a round bracket closes, and else another one after a pattern. -/
def untilClose {α : Type} (language : Language) (fuel : Nat)
    (close : Bool → Progress → List Char → Except Stop α)
    (next : Bool → Option Pattern → Progress → Except Stop α) (p : Progress) : Except Stop α :=
  match (readAnchor p).2.rest with
  | ')' :: rest => close (readAnchor p).1 (readAnchor p).2 rest
  | _ => do
    let (pattern, q) ← readPattern language fuel (readAnchor p).2
    next (readAnchor p).1 pattern q

theorem readGroup_eq (items : List (Bool × Pattern)) (p : Progress) :
    readGroup language (fuel + 1) items p =
      untilClose language fuel (fun _ q rest => .ok (items.reverse, q.to rest))
        (fun anchored pattern q =>
          readGroup language fuel ((pattern.toList.map fun r => (anchored, r)) ++ items) q) p := rfl

/-- One more thing that is asked of the children. -/
def readItem (language : Language) (fuel : Nat) (head : Head) (items : List (Bool × Pattern)) :
    Progress → Except Stop (Pattern × Progress) :=
  untilClose language fuel
    (fun anchored q rest =>
      if anchored && items.isEmpty then formFault q.rest
      else .ok (.node head items.reverse anchored, q.to rest))
    (fun anchored pattern q =>
      readItems language fuel head ((pattern.toList.map fun r => (anchored, r)) ++ items) q)

/-- One more field that the node must lack. -/
def Head.lacking (field : String) (head : Head) : Head :=
  { head with
    absent := if head.absent.length < absentLimit then head.absent ++ [field] else head.absent }

/-- The name of a field that the node must lack. -/
def readAbsent (language : Language) (fuel : Nat) (head : Head) (items : List (Bool × Pattern))
    (p : Progress) : Except Stop (Pattern × Progress) :=
  match word? p.rest with
  | some (field, rest) =>
    if language.hasField field then
      readItems language fuel (head.lacking field) items (p.to (skipBlanks rest))
    else nameFault p.rest
  | none => formFault p.rest

theorem readItems_absent (head : Head) (items : List (Bool × Pattern)) (cs : List Char) :
    readItems language (fuel + 1) head items ⟨'!' :: cs, names, calls⟩ =
      readAbsent language fuel head items ⟨skipBlanks cs, names, calls⟩ := rfl

theorem readItems_item {cs : List Char} (h : ∀ c ∈ cs.head?, c ≠ '!') (head : Head)
    (items : List (Bool × Pattern)) :
    readItems language (fuel + 1) head items ⟨cs, names, calls⟩ =
      readItem language fuel head items ⟨cs, names, calls⟩ := by
  rw [readItems]
  split
  · rename_i heq
    dsimp only at heq
    exact absurd rfl (h '!' (by rw [heq]; rfl))
  · rfl

end

section

variable {language : Language} {fuel fuel' : Nat}

theorem carries_readField (hx : Follows x) (hon : ReadsOn language x fuel) (hfuel : fuel ≤ fuel')
    (h : Ahead x p p') :
    Carries (Beside (Ready x)) (readField language fuel p) (readField language fuel' p') := by
  unfold readField
  rw [show p'.rest = p.rest ++ x from h.rest]
  cases hword : word? p.rest with
  | none => exact .fails _
  | some found =>
    obtain ⟨field, rest⟩ := found
    rw [word?_append_of_follows hx hword]
    dsimp only
    cases hcolon : skipBlanks rest with
    | nil => exact .fails _
    | cons c cs =>
      rw [skipBlanks_append_of_cons hcolon]
      by_cases hc : c = ':'
      · subst hc
        refine .bindBeside (hon.pattern hfuel (h.toKnows.ready hx cs)) fun pattern q q' hq => ?_
        dsimp only
        split_ifs
        · cases pattern with
          | none => exact .ok ⟨rfl, hq⟩
          | some pattern => exact carries_withSuffixes hx hq.skip _
        · exact .fails _
      · intro r hr
        split at hr
        · rename_i heq
          exact absurd (List.cons.inj heq).1 hc
        · cases hr

theorem carries_readBracket (hx : Follows x) (hon : ReadsOn language x fuel) (hfuel : fuel ≤ fuel')
    (h : Ready x p p') :
    Carries (Beside (Ready x)) (readBracket language fuel p) (readBracket language fuel' p') := by
  obtain ⟨names, calls, rfl⟩ | ⟨c, cs, names, names', calls, rfl, rfl⟩ := h.nil_or_cons
  · exact .fails _
  · have hgroup : Carries (Beside (Ready x))
        (do
          let (items, q) ← readGroup language fuel [] ⟨c :: cs, names, calls⟩
          withSuffixes (.group items) q)
        (do
          let (items, q) ← readGroup language fuel' [] ⟨c :: (cs ++ x), names', calls⟩
          withSuffixes (.group items) q) :=
      .bindBeside (hon.group [] hfuel h) fun items q q' hq => carries_withSuffixes hx (hq.skip hx) _
    have hcall : Carries (Beside (Ready x))
        (do let p ← readCall ⟨cs, names, calls⟩; return ((none : Option Pattern), p))
        (do let p ← readCall ⟨cs ++ x, names', calls⟩; return ((none : Option Pattern), p)) :=
      .bind (carries_readCall hx (h.toKnows.ahead cs)) fun q q' hq => .ok ⟨rfl, hq⟩
    by_cases hbracket : c = '('
    · subst hbracket
      exact hgroup
    by_cases hquote : c = '"'
    · subst hquote
      exact hgroup
    by_cases hchoice : c = '['
    · subst hchoice
      exact hgroup
    by_cases hdot : c = '.'
    · subst hdot
      exact hcall
    by_cases hsign : c = '#'
    · subst hsign
      exact hcall
    · rw [readBracket_test hbracket hquote hchoice hdot hsign,
        readBracket_test hbracket hquote hchoice hdot hsign]
      refine .bindBeside (carries_readTest hx language (c :: cs)) fun test rest rest' hrest => ?_
      obtain rfl : rest' = rest ++ x := hrest
      exact .bindBeside (hon.items { test } [] hfuel (h.toKnows.ready hx rest))
        fun pattern q q' hq => carries_withSuffixes hx (hq.skip hx) pattern

theorem carries_readPattern (hx : Follows x) (hon : ReadsOn language x fuel) (hfuel : fuel ≤ fuel')
    (h : Ready x p p') :
    Carries (Beside (Ready x)) (readPattern language (fuel + 1) p)
      (readPattern language (fuel' + 1) p') := by
  obtain ⟨names, calls, rfl⟩ | ⟨c, cs, names, names', calls, rfl, rfl⟩ := h.nil_or_cons
  · exact .fails _
  · by_cases hchoice : c = '['
    · subst hchoice
      exact .bindBeside (hon.choices [] false hfuel (h.toKnows.ready hx cs))
        fun patterns q q' hq => carries_withSuffixes hx (hq.skip hx) _
    by_cases hbracket : c = '('
    · subst hbracket
      exact carries_readBracket hx hon hfuel (h.toKnows.ready hx cs)
    by_cases hany : c = '_'
    · subst hany
      exact carries_withSuffixes hx ((h.toKnows.ahead cs).skip hx) _
    by_cases hquote : c = '"'
    · subst hquote
      refine .bindBeside (carries_readString cs) fun kind rest rest' hrest => ?_
      obtain rfl : rest' = rest ++ x := hrest
      dsimp only
      split_ifs
      · exact carries_withSuffixes hx ((h.toKnows.ahead rest).skip hx) _
      · exact .fails _
    · rw [readPattern_field hchoice hbracket hany hquote,
        readPattern_field hchoice hbracket hany hquote]
      exact carries_readField hx hon hfuel ⟨h.toKnows, rfl⟩

theorem carries_readChoices (hon : ReadsOn language x fuel) (hfuel : fuel ≤ fuel')
    (h : Ready x p p') (patterns : List Pattern) (some? : Bool) :
    Carries (Beside (Ahead x)) (readChoices language (fuel + 1) patterns some? p)
      (readChoices language (fuel' + 1) patterns some? p') := by
  obtain ⟨names, calls, rfl⟩ | ⟨c, cs, names, names', calls, rfl, rfl⟩ := h.nil_or_cons
  · rw [readChoices_item (by simp), readPattern_nil]
    exact .fails _
  · by_cases hclose : c = ']'
    · subst hclose
      cases some? with
      | false => exact .fails _
      | true => exact .ok ⟨rfl, h.toKnows.ahead cs⟩
    · rw [readChoices_item (by simpa using hclose), readChoices_item (by simpa using hclose)]
      exact .bindBeside (hon.pattern hfuel h) fun pattern q q' hq => hon.choices _ true hfuel hq

theorem carries_readAbsent (hx : Follows x) (hon : ReadsOn language x fuel) (hfuel : fuel ≤ fuel')
    (h : Ready x p p') (head : Head) (items : List (Bool × Pattern)) :
    Carries (Beside (Ahead x)) (readAbsent language fuel head items p)
      (readAbsent language fuel' head items p') := by
  unfold readAbsent
  cases hword : word? p.rest with
  | none => exact .fails _
  | some found =>
    obtain ⟨field, rest⟩ := found
    rw [h.rest.word? hx hword]
    dsimp only
    split_ifs
    · exact hon.items _ items hfuel (h.toKnows.ready hx rest)
    · exact .fails _

theorem carries_readAnchor (hx : Follows x) (h : Ready x p p') (hsome : p.rest ≠ []) :
    Beside (Ready x) (readAnchor p) (readAnchor p') := by
  obtain ⟨names, calls, rfl⟩ | ⟨c, cs, names, names', calls, rfl, rfl⟩ := h.nil_or_cons
  · exact absurd rfl hsome
  · by_cases hdot : c = '.'
    · subst hdot
      exact ⟨rfl, h.toKnows.ready hx cs⟩
    · rw [readAnchor_of_ne (by simpa using hdot), readAnchor_of_ne (by simpa using hdot)]
      exact ⟨rfl, h⟩

theorem carries_untilClose {α β : Type} {S : α → β → Prop} (hx : Follows x)
    (hon : ReadsOn language x fuel) (hfuel : fuel ≤ fuel') (h : Ready x p p')
    {close : Bool → Progress → List Char → Except Stop α}
    {close' : Bool → Progress → List Char → Except Stop β}
    {next : Bool → Option Pattern → Progress → Except Stop α}
    {next' : Bool → Option Pattern → Progress → Except Stop β}
    (hclose : ∀ anchored q q' cs, Knows q q' →
      Carries S (close anchored q cs) (close' anchored q' (cs ++ x)))
    (hnext : ∀ anchored pattern q q', Ready x q q' →
      Carries S (next anchored pattern q) (next' anchored pattern q')) :
    Carries S (untilClose language fuel close next p)
      (untilClose language fuel' close' next' p') := by
  unfold untilClose
  by_cases hnil : p.rest = []
  · rw [readAnchor_of_ne (by simp [hnil])]
    obtain ⟨rest, names, calls⟩ := p
    obtain rfl : rest = [] := hnil
    dsimp only
    rw [readPattern_nil]
    exact .fails _
  obtain ⟨hanchored, hq⟩ := carries_readAnchor hx h hnil
  rw [← hanchored]
  revert hq
  generalize (readAnchor p).1 = anchored, (readAnchor p).2 = q, (readAnchor p').2 = q'
  intro hq
  obtain ⟨names, calls, rfl⟩ | ⟨c, cs, names, names', calls, rfl, rfl⟩ := hq.nil_or_cons
  · dsimp only
    rw [readPattern_nil]
    exact .fails _
  · by_cases hc : c = ')'
    · subst hc
      exact hclose anchored _ _ cs hq.toKnows
    · have hread : Carries S
          (do
            let (pattern, q) ← readPattern language fuel ⟨c :: cs, names, calls⟩
            next anchored pattern q)
          (do
            let (pattern, q) ← readPattern language fuel' ⟨c :: (cs ++ x), names', calls⟩
            next' anchored pattern q) :=
        (hon.pattern hfuel hq).bindBeside (hnext anchored)
      split
      · rename_i heq
        exact absurd (List.cons.inj heq).1 hc
      split
      · rename_i heq
        exact absurd (List.cons.inj heq).1 hc
      exact hread

theorem carries_readGroup (hx : Follows x) (hon : ReadsOn language x fuel) (hfuel : fuel ≤ fuel')
    (h : Ready x p p') (items : List (Bool × Pattern)) :
    Carries (Beside (Ahead x)) (readGroup language (fuel + 1) items p)
      (readGroup language (fuel' + 1) items p') := by
  rw [readGroup_eq, readGroup_eq]
  exact carries_untilClose hx hon hfuel h (fun _ _ _ cs hq => .ok ⟨rfl, hq.ahead cs⟩)
    fun _ _ _ _ hq => hon.group _ hfuel hq

theorem carries_readItems (hx : Follows x) (hon : ReadsOn language x fuel) (hfuel : fuel ≤ fuel')
    (h : Ready x p p') (head : Head) (items : List (Bool × Pattern)) :
    Carries (Beside (Ahead x)) (readItems language (fuel + 1) head items p)
      (readItems language (fuel' + 1) head items p') := by
  have hitem : Carries (Beside (Ahead x)) (readItem language fuel head items p)
      (readItem language fuel' head items p') := by
    refine carries_untilClose hx hon hfuel h (fun anchored q q' cs hq => ?_)
      fun _ _ _ _ hq => hon.items head _ hfuel hq
    split_ifs
    · exact .fails _
    · exact .ok ⟨rfl, hq.ahead cs⟩
  obtain ⟨names, calls, rfl⟩ | ⟨c, cs, names, names', calls, rfl, rfl⟩ := h.nil_or_cons
  · rw [readItems_item (by simp), readItem, untilClose, readAnchor_of_ne (by simp)]
    dsimp only
    rw [readPattern_nil]
    exact .fails _
  · by_cases habsent : c = '!'
    · subst habsent
      rw [readItems_absent, readItems_absent]
      exact carries_readAbsent hx hon hfuel (h.toKnows.ready hx cs) head items
    · rw [readItems_item (by simpa using habsent), readItems_item (by simpa using habsent)]
      exact hitem

/-- **A text is read in the same way whatever follows it.** -/
theorem readsOn (hx : Follows x) (language : Language) (fuel : Nat) : ReadsOn language x fuel := by
  induction fuel with
  | zero =>
    exact ⟨fun _ _ => .fails _, fun _ _ _ _ => .fails _, fun _ _ _ => .fails _,
      fun _ _ _ _ => .fails _⟩
  | succ fuel ih =>
    have hpred {fuel' : Nat} (h : fuel + 1 ≤ fuel') : ∃ n, fuel' = n + 1 ∧ fuel ≤ n :=
      ⟨fuel' - 1, by omega, by omega⟩
    constructor
    · intro fuel' p p' hfuel h
      obtain ⟨n, rfl, hn⟩ := hpred hfuel
      exact carries_readPattern hx ih hn h
    · intro fuel' p p' patterns some? hfuel h
      obtain ⟨n, rfl, hn⟩ := hpred hfuel
      exact carries_readChoices ih hn h patterns some?
    · intro fuel' p p' items hfuel h
      obtain ⟨n, rfl, hn⟩ := hpred hfuel
      exact carries_readGroup hx ih hn h items
    · intro fuel' p p' head items hfuel h
      obtain ⟨n, rfl, hn⟩ := hpred hfuel
      exact carries_readItems hx ih hn h head items

end

end CodeAtlas.Query
