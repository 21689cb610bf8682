import CodeAtlas.Proofs.Query.Names
import Mathlib.Data.List.TakeWhile
import Mathlib.Data.Nat.Init

/-!
# Queries as tokens

A query is read as marks, comments and names.  Every query can be read (`exists_reads`), the names
are told by where they stand (`Reads.split_iff`), and to replace names by other names does not
change the rest (`Reads.rename`).

The scanner sees a comment as marks, and a name that a comment hides as well.  Without its comments
a query has all of its names in view.  Both are equations about tokens, `Reads.pieces_eq` and
`Reads.pieces_bare`.
-/

namespace CodeAtlas.Query

open Text.Unicode (isBlank)

/-! ## Tokens -/

inductive Token where
  | mark (c : Char)
  /-- A comment, without its semicolon and the end of its line. -/
  | comment (cs : List Char)
  | name (hidden : Bool) (cs : List Char)
deriving DecidableEq, Repr

namespace Token

def text : Token → List Char
  | mark c => [c]
  | comment cs => ';' :: cs
  | name _ cs => cs

/-- What the scanner makes of a token. -/
def seen : Token → List Piece
  | mark c => [.mark c]
  | comment cs => (';' :: cs).map .mark
  | name false cs => [.name cs]
  | name true cs => cs.map .mark

/-- What the scanner makes of a token where a blank stands for each comment. -/
def bare : Token → List Piece
  | mark c => [.mark c]
  | comment _ => [.mark ' ']
  | name _ cs => [.name cs]

/-- Replace a name. -/
def rename (f : Bool → List Char → List Char) : Token → Token
  | name hidden cs => name hidden (f hidden cs)
  | t => t

end Token

def textOf (ts : List Token) : List Char := ts.flatMap Token.text

def Piece.text : Piece → List Char
  | mark c => [c]
  | name cs => cs

/-! ## Reading -/

namespace Standing

/-- The characters that stand for themselves. -/
def Marks : Standing → Char → Prop
  | code, c => c ≠ ';'
  | string, _ | escape, _ => True
  | comment _, c => c = '\n'
  | opened _, c => c ≠ ';' ∧ isKindChar c = false

/-- Where the scanner stands. -/
def seen : Standing → Scan
  | code | opened true => .code
  | string => .string
  | escape => .escape
  | comment _ => .comment
  | opened false => .opened

/-- Where the scanner stands if blanks stand for the comments. -/
def bare : Standing → Scan
  | code | comment false => .code
  | string => .string
  | escape => .escape
  | comment true | opened _ => .opened

end Standing

/-- The tokens can follow what is before them. -/
inductive Reads : Standing → List Token → Prop
  | nil {s} : Reads s []
  | mark {s c ts} : s.Marks c → Reads (s.next c) ts → Reads s (.mark c :: ts)
  | comment {s cs ts} : s.context = .code → '\n' ∉ cs → Reads (s.next ';') ts →
      Reads s (.comment cs :: ts)
  | name {hidden cs ts} : IsKindWord cs → (∀ c, ts.head? = some (.mark c) → isKindChar c = false) →
      Reads .code ts → Reads (.opened hidden) (.name hidden cs :: ts)

theorem Standing.context_next_of_marks {s : Standing} {c : Char} (h : s.Marks c) :
    (s.next c).context ≠ .comment := by
  rw [context_next]
  cases s with
  | code | opened =>
    have hc : c ≠ ';' := by simp_all [Marks]
    simp only [context, Context.next, if_neg hc]
    split_ifs <;> simp
  | string =>
    simp only [context, Context.next]
    split_ifs <;> simp
  | escape => simp [context, Context.next]
  | comment =>
    obtain rfl : c = '\n' := h
    simp [context, Context.next]

theorem Standing.next_comment {s : Standing} (h : s.context = .code) :
    ∃ within, s.next ';' = comment within := by
  cases s with
  | code => exact ⟨false, rfl⟩
  | opened hidden => exact ⟨true, by cases hidden <;> rfl⟩
  | string | escape | comment => cases h

/-- A list starts with a stretch of what passes a test, which may be empty. -/
theorem exists_stretch {α : Type} (p : α → Bool) (l : List α) :
    ∃ front back, l = front ++ back ∧ (∀ x ∈ front, p x = true) ∧
      ∀ x ∈ back.head?, p x = false := by
  refine ⟨l.takeWhile p, l.dropWhile p, List.takeWhile_append_dropWhile.symm,
    fun x hx => List.mem_takeWhile_imp hx, fun x hx => ?_⟩
  have hnot := List.head?_dropWhile_not p l
  rw [Option.mem_def.mp hx] at hnot
  exact Bool.eq_false_iff.mpr (by simpa using hnot)

/-- **Every query can be read.** -/
theorem exists_reads (s : Standing) (hs : s.context ≠ .comment) (cs : List Char) :
    ∃ ts, Reads s ts ∧ textOf ts = cs := by
  induction hn : cs.length using Nat.strong_induction_on generalizing s cs with
  | _ n ih =>
    cases cs with
    | nil => exact ⟨[], .nil, rfl⟩
    | cons c rest =>
      rw [List.length_cons] at hn
      by_cases hcomment : s.context = .code ∧ c = ';'
      · obtain ⟨hcode, rfl⟩ := hcomment
        obtain ⟨line, more, rfl, hline, hmore⟩ := exists_stretch (· ≠ '\n') rest
        have hnewline : '\n' ∉ line := fun h => by simpa using hline _ h
        obtain ⟨within, hnext⟩ := Standing.next_comment hcode
        cases more with
        | nil => exact ⟨[.comment line], .comment hcode hnewline .nil, by simp [textOf, Token.text]⟩
        | cons d more =>
          obtain rfl : d = '\n' := by simpa using hmore d rfl
          obtain ⟨ts, hts, htext⟩ := ih more.length (by simp at hn; omega)
            ((s.next ';').next '\n') (Standing.context_next_of_marks (by rw [hnext]; rfl)) more rfl
          refine ⟨.comment line :: .mark '\n' :: ts, .comment hcode hnewline (.mark ?_ hts), ?_⟩
          · rw [hnext]
            rfl
          · simp [textOf, Token.text, ← htext]
      · by_cases hname : isKindChar c = true ∧ ∃ hidden, s = .opened hidden
        · obtain ⟨hc, hidden, rfl⟩ := hname
          obtain ⟨word, more, rfl, hword, hmore⟩ := exists_stretch isKindChar rest
          obtain ⟨ts, hts, htext⟩ :=
            ih more.length (by simp at hn; omega) .code (by decide) more rfl
          refine ⟨.name hidden (c :: word) :: ts, .name ⟨by simp, ?_⟩ (fun d hd => ?_) hts, ?_⟩
          · simpa [hc] using hword
          · obtain ⟨ts, rfl⟩ := List.head?_eq_some_iff.mp hd
            exact hmore d (by simp [← htext, textOf, Token.text])
          · simp [textOf, Token.text, ← htext]
        · have hmark : s.Marks c := by
            cases s <;> simp_all [Standing.Marks, Standing.context]
          obtain ⟨ts, hts, htext⟩ := ih rest.length (by omega) (s.next c)
            (Standing.context_next_of_marks hmark) rest rfl
          exact ⟨.mark c :: ts, .mark hmark hts, by simp [textOf, Token.text, ← htext]⟩

/-! ## What the scanner makes of tokens -/

theorem piecesFrom_naming {cs rest : List Char} (h : ∀ c ∈ cs, isKindChar c = true)
    (hrest : ∀ c ∈ rest.head?, isKindChar c = false) (before : List Char) :
    piecesFrom (.naming before) (cs ++ rest) =
      .name (before.reverse ++ cs) :: piecesFrom .code rest := by
  induction cs generalizing before with
  | nil =>
    cases rest with
    | nil => simp [piecesFrom]
    | cons c rest => simp [piecesFrom, hrest c rfl]
  | cons c cs ih =>
    rw [List.cons_append, piecesFrom, if_pos (h c List.mem_cons_self),
      ih fun d hd => h d (List.mem_cons_of_mem c hd)]
    simp

/-- After an opening bracket the scanner finds the name. -/
theorem piecesFrom_opened {cs rest : List Char} (h : IsKindWord cs)
    (hrest : ∀ c ∈ rest.head?, isKindChar c = false) :
    piecesFrom .opened (cs ++ rest) = .name cs :: piecesFrom .code rest := by
  obtain ⟨c, cs, rfl⟩ := List.exists_cons_of_ne_nil h.ne_nil
  have hc := h.chars c List.mem_cons_self
  rw [List.cons_append, piecesFrom, isBlank_eq_false_of_isKindChar hc, if_neg Bool.false_ne_true,
    if_pos hc, piecesFrom_naming (fun d hd => h.chars d (List.mem_cons_of_mem c hd)) hrest]
  rfl

/-- In the middle of code a name is nothing to the scanner. -/
theorem piecesFrom_code {cs : List Char} (h : ∀ c ∈ cs, isKindChar c = true) (rest : List Char) :
    piecesFrom .code (cs ++ rest) = cs.map .mark ++ piecesFrom .code rest := by
  induction cs with
  | nil => rfl
  | cons c cs ih =>
    obtain ⟨hquote, hcomment, hopen⟩ := ne_of_isKindChar (h c List.mem_cons_self)
    rw [List.cons_append, piecesFrom, Scan.enter, if_neg hquote, if_neg hcomment, if_neg hopen,
      ih fun d hd => h d (List.mem_cons_of_mem c hd)]
    rfl

theorem piecesFrom_comment {cs : List Char} (h : '\n' ∉ cs) (rest : List Char) :
    piecesFrom .comment (cs ++ rest) = cs.map .mark ++ piecesFrom .comment rest := by
  induction cs with
  | nil => rfl
  | cons c cs ih =>
    obtain ⟨hc, hcs⟩ := not_or.mp (mt List.mem_cons.mpr h)
    rw [List.cons_append, piecesFrom, if_neg (Ne.symm hc), ih hcs]
    rfl

namespace Standing

theorem seen_enter (c : Char) : (enter c).seen = .enter c := by
  unfold enter Scan.enter
  split_ifs <;> rfl

theorem bare_enter {c : Char} (h : c ≠ ';') : (enter c).bare = .enter c := by
  rw [enter, Scan.enter, if_neg h, if_neg h]
  split_ifs <;> rfl

theorem piecesFrom_seen {s : Standing} {c : Char} (h : s.Marks c) (rest : List Char) :
    piecesFrom s.seen (c :: rest) = .mark c :: piecesFrom (s.next c).seen rest := by
  cases s with
  | code => rw [next, seen_enter]; rfl
  | string => simp only [seen, next, piecesFrom]; split_ifs <;> rfl
  | escape => rfl
  | comment within =>
    obtain rfl : c = '\n' := h
    cases within <;> rfl
  | opened hidden =>
    obtain ⟨hcomment, hkind⟩ := h
    by_cases hblank : isBlank c = true
    · obtain ⟨hquote, -, hopen⟩ := ne_of_isBlank hblank
      cases hidden <;>
        simp [seen, next, piecesFrom, Scan.enter, hblank, hquote, hcomment, hopen]
    · rw [next, if_neg hblank, if_neg hcomment, seen_enter]
      cases hidden
      · rw [seen, piecesFrom, if_neg hblank, if_neg (by simp [hkind])]
      · rfl

theorem piecesFrom_bare {s : Standing} {c : Char} (h : s.Marks c) (rest : List Char) :
    piecesFrom s.bare (c :: rest) = .mark c :: piecesFrom (s.next c).bare rest := by
  cases s with
  | code => rw [next, bare_enter h]; rfl
  | string => simp only [bare, next, piecesFrom]; split_ifs <;> rfl
  | escape => rfl
  | comment within =>
    obtain rfl : c = '\n' := h
    cases within <;> rfl
  | opened hidden =>
    obtain ⟨hcomment, hkind⟩ := h
    by_cases hblank : isBlank c = true
    · rw [bare, piecesFrom, if_pos hblank, next, if_pos hblank, bare]
    · rw [bare, piecesFrom, if_neg hblank, if_neg (by simp [hkind]), next, if_neg hblank,
        if_neg hcomment, bare_enter hcomment]

end Standing

namespace Reads

variable {s : Standing} {ts : List Token}

/-- After a name there is no further character of it, whatever stands for the tokens that follow. -/
theorem head_flatMap {g : Token → List Char} (h : Reads .code ts)
    (hhead : ∀ c, ts.head? = some (.mark c) → isKindChar c = false)
    (hmark : ∀ c, g (.mark c) = [c])
    (hcomment : ∀ cs, ∃ c rest, g (.comment cs) = c :: rest ∧ isKindChar c = false) :
    ∀ c ∈ (ts.flatMap g).head?, isKindChar c = false := by
  intro c hc
  cases h with
  | nil => cases hc
  | mark =>
    rw [List.flatMap_cons, hmark] at hc
    obtain rfl := Option.some.inj hc
    exact hhead _ rfl
  | @comment _ cs =>
    obtain ⟨d, rest, hd, hno⟩ := hcomment cs
    rw [List.flatMap_cons, hd] at hc
    obtain rfl := Option.some.inj hc
    exact hno

theorem head_text (h : Reads .code ts) (hhead : ∀ c, ts.head? = some (.mark c) →
    isKindChar c = false) : ∀ c ∈ (textOf ts).head?, isKindChar c = false :=
  h.head_flatMap hhead (fun _ => rfl) fun cs => ⟨';', cs, rfl, by decide⟩

theorem head_bare (h : Reads .code ts) (hhead : ∀ c, ts.head? = some (.mark c) →
    isKindChar c = false) :
    ∀ c ∈ ((ts.flatMap Token.bare).flatMap Piece.text).head?, isKindChar c = false := by
  rw [List.flatMap_assoc]
  exact h.head_flatMap hhead (fun _ => rfl) fun _ => ⟨' ', [], rfl, by decide⟩

/-- **What the scanner finds in a query**: the names that no comment hides. -/
theorem pieces_eq (h : Reads s ts) : piecesFrom s.seen (textOf ts) = ts.flatMap Token.seen := by
  induction h with
  | @nil s =>
    cases s with
    | opened hidden => cases hidden <;> rfl
    | code | string | escape | comment => rfl
  | @mark s c ts hmark _ ih =>
    exact (Standing.piecesFrom_seen hmark _).trans (congrArg _ ih)
  | @comment s cs ts hcode hcs _ ih =>
    obtain ⟨within, hnext⟩ := Standing.next_comment hcode
    have hstart (rest : List Char) :
        piecesFrom s.seen (';' :: rest) = .mark ';' :: piecesFrom .comment rest := by
      cases s with
      | code => rfl
      | opened hidden => cases hidden <;> rfl
      | string | escape | comment => cases hcode
    rw [hnext] at ih
    change piecesFrom s.seen (';' :: (cs ++ textOf ts)) = _
    rw [hstart, piecesFrom_comment hcs, show Scan.comment = (Standing.comment within).seen from rfl,
      ih]
    rfl
  | @name hidden cs ts hword hhead hts ih =>
    change piecesFrom (Standing.opened hidden).seen (cs ++ textOf ts) = _
    cases hidden with
    | false => exact (piecesFrom_opened hword (hts.head_text hhead)).trans (congrArg _ ih)
    | true => exact (piecesFrom_code hword.chars _).trans (congrArg _ ih)

/-- **What the scanner finds without the comments**: all names. -/
theorem pieces_bare (h : Reads s ts) :
    piecesFrom s.bare ((ts.flatMap Token.bare).flatMap Piece.text) = ts.flatMap Token.bare := by
  induction h with
  | @nil s =>
    cases s with
    | comment within => cases within <;> rfl
    | code | string | escape | opened => rfl
  | @mark s c ts hmark _ ih =>
    exact (Standing.piecesFrom_bare hmark _).trans (congrArg _ ih)
  | @comment s cs ts hcode _ _ ih =>
    have hstart (rest : List Char) :
        piecesFrom s.bare (' ' :: rest) = .mark ' ' :: piecesFrom (s.next ';').bare rest := by
      cases s with
      | code => rfl
      | opened hidden => cases hidden <;> rfl
      | string | escape | comment => cases hcode
    exact (hstart _).trans (congrArg _ ih)
  | @name hidden cs ts hword hhead hts ih =>
    exact (piecesFrom_opened hword (hts.head_bare hhead)).trans (congrArg _ ih)

/-- To replace names by names does not change how a query is read. -/
theorem rename {f : Bool → List Char → List Char} (hf : ∀ hidden cs, IsKindWord cs →
    IsKindWord (f hidden cs)) (h : Reads s ts) : Reads s (ts.map (Token.rename f)) := by
  induction h with
  | nil => exact .nil
  | mark hmark _ ih => exact .mark hmark ih
  | comment hcode hcs _ ih => exact .comment hcode hcs ih
  | @name hidden cs ts hword hhead hts ih =>
    refine .name (hf hidden cs hword) (fun c hc => ?_) ih
    cases hts with
    | nil => cases hc
    | mark =>
      obtain rfl := Token.mark.inj (Option.some.inj hc)
      exact hhead _ rfl
    | comment => cases hc

end Reads

/-! ## Where the names of a reading stand -/

/-- A stretch that is as long as it can be is told by what it is a part of. -/
theorem eq_of_stretch {α : Type} {p : α → Bool} {l l' r r' : List α} (h : l ++ r = l' ++ r')
    (hl : ∀ x ∈ l, p x = true) (hr : ∀ x ∈ r.head?, p x = false)
    (hl' : ∀ x ∈ l', p x = true) (hr' : ∀ x ∈ r'.head?, p x = false) : l = l' ∧ r = r' := by
  have hnil {m r : List α} (hm : ∀ x ∈ m, p x = true) (hr : ∀ x ∈ (m ++ r).head?, p x = false) :
      m = [] := by
    cases m with
    | nil => rfl
    | cons x m =>
      have hno := hr x rfl
      rw [hm x List.mem_cons_self] at hno
      cases hno
  rcases List.append_eq_append_iff.mp h with ⟨m, rfl, rfl⟩ | ⟨m, rfl, rfl⟩
  · obtain rfl := hnil (fun x hx => hl' x (List.mem_append_right l hx)) hr
    simp
  · obtain rfl := hnil (fun x hx => hl x (List.mem_append_right l' hx)) hr'
    simp

namespace Reads

variable {s : Standing} {ts : List Token} {front before name rest : List Char} {hidden : Bool}

/-- A name stands either at the start of a token, which then is the name, or after the token. -/
theorem split_cons_iff {t : Token}
    (hfirst : t = .name hidden name ∧ textOf ts = rest ↔
      textOf (t :: ts) = name ++ rest ∧ NameAt hidden front name rest)
    (hinside : ∀ more past, t.text = more ++ past → more ≠ [] → past ≠ [] →
      Standing.after (front ++ more) ≠ .opened hidden)
    (hafter : ∀ before,
      (∃ l r, ts = l ++ .name hidden name :: r ∧ textOf l = before ∧ textOf r = rest) ↔
        textOf ts = before ++ name ++ rest ∧ NameAt hidden (front ++ t.text ++ before) name rest) :
    (∃ l r, t :: ts = l ++ .name hidden name :: r ∧ textOf l = before ∧ textOf r = rest) ↔
      textOf (t :: ts) = before ++ name ++ rest ∧ NameAt hidden (front ++ before) name rest := by
  have htext (l : List Token) : textOf (t :: l) = t.text ++ textOf l := rfl
  constructor
  · rintro ⟨_ | ⟨t', l⟩, r, hsplit, rfl, hr⟩
    · obtain ⟨rfl, rfl⟩ := List.cons.inj hsplit
      simpa [textOf] using hfirst.mp ⟨rfl, hr⟩
    · obtain ⟨rfl, rfl⟩ := List.cons.inj hsplit
      obtain ⟨hts, hname⟩ := (hafter _).mp ⟨l, r, rfl, rfl, hr⟩
      exact ⟨by rw [htext, hts, htext]; simp, by rwa [htext, ← List.append_assoc]⟩
  · rintro ⟨hts, hname⟩
    rw [List.append_assoc] at hts
    by_cases hbefore : before = []
    · subst hbefore
      obtain ⟨rfl, hr⟩ := hfirst.mpr ⟨hts, by simpa using hname⟩
      exact ⟨[], ts, rfl, rfl, hr⟩
    · obtain ⟨more, rfl, hmore⟩ :
          ∃ more, before = t.text ++ more ∧ textOf ts = more ++ (name ++ rest) := by
        rcases List.append_eq_append_iff.mp ((htext ts).symm.trans hts) with h | ⟨past, hpast, hts⟩
        · exact h
        · by_cases hnone : past = []
          · exact ⟨[], by simp [hpast, hnone], by simp [hts, hnone]⟩
          · exact absurd (nameAt_iff.mp hname).1 (hinside before past hpast hbefore hnone)
      obtain ⟨l, r, rfl, rfl, hr⟩ :=
        (hafter more).mpr ⟨by rw [hmore, List.append_assoc], by rwa [List.append_assoc]⟩
      exact ⟨t :: l, r, rfl, rfl, hr⟩

/-- **The names of a query are told by where they stand.**  The induction is on the reading: what is
before a token decides where the scanner stands, and only there can a name begin. -/
theorem split_iff (h : Reads s ts) (hs : Standing.after front = s) :
    (∃ l r, ts = l ++ .name hidden name :: r ∧ textOf l = before ∧ textOf r = rest) ↔
      textOf ts = before ++ name ++ rest ∧ NameAt hidden (front ++ before) name rest := by
  induction h generalizing front before with
  | nil =>
    constructor
    · rintro ⟨l, r, hsplit, -⟩
      simp at hsplit
    · rintro ⟨htext, hname⟩
      exact absurd (by simp_all [textOf]) hname.word.ne_nil
  | @mark s c ts hmark _ ih =>
    have hnext : Standing.after (front ++ [c]) = s.next c := by
      rw [Standing.after_append, hs]
      rfl
    refine split_cons_iff ⟨fun h => (nomatch h.1), fun ⟨htext, hname⟩ => ?_⟩
      (fun more past htext hmore hpast => ?_) fun before => ih hnext
    · obtain ⟨hopened, hword, -⟩ := nameAt_iff.mp hname
      obtain ⟨d, cs, rfl⟩ := List.exists_cons_of_ne_nil hword.ne_nil
      obtain ⟨rfl, -⟩ := List.cons.inj htext
      obtain rfl := hs.symm.trans hopened
      have hno := hmark.2
      rw [hword.chars _ List.mem_cons_self] at hno
      cases hno
    · have hlength := congrArg List.length htext
      have h1 := List.length_pos_of_ne_nil hmore
      have h2 := List.length_pos_of_ne_nil hpast
      rw [List.length_append] at hlength
      simp only [Token.text, List.length_singleton] at hlength
      omega
  | @comment s cs ts hcode hcs _ ih =>
    obtain ⟨within, hwithin⟩ := Standing.next_comment hcode
    have hnext (more : List Char) (hmore : '\n' ∉ more) :
        Standing.after (front ++ ';' :: more) = s.next ';' := by
      rw [Standing.after_append, hs, List.foldl_cons, hwithin, Standing.foldl_next_comment hmore]
    refine split_cons_iff ⟨fun h => (nomatch h.1), fun ⟨htext, hname⟩ => ?_⟩
      (fun more past htext hmore _ => ?_) fun before => ih (hnext cs hcs)
    · obtain ⟨d, word, hd⟩ := List.exists_cons_of_ne_nil hname.word.ne_nil
      rw [hd] at htext
      obtain ⟨rfl, -⟩ := List.cons.inj htext
      exact absurd (hname.word.chars ';' (by simp [hd])) (by decide)
    · obtain ⟨d, more, rfl⟩ := List.exists_cons_of_ne_nil hmore
      obtain ⟨rfl, rfl⟩ := List.cons.inj htext
      rw [hnext more fun hc => hcs (List.mem_append_left past hc), hwithin]
      simp
  | @name hidden' cs ts hword hhead hts ih =>
    have hnext (more : List Char) (hmore : IsKindWord more) :
        Standing.after (front ++ more) = .code := by
      rw [Standing.after_append, hs, Standing.foldl_next_opened hmore]
    refine split_cons_iff ⟨?_, fun ⟨htext, hname⟩ => ?_⟩
      (fun more past htext hmore _ => ?_) fun before => ih (hnext cs hword)
    · rintro ⟨heq, rfl⟩
      obtain ⟨rfl, rfl⟩ := Token.name.inj heq
      exact ⟨rfl, nameAt_iff.mpr ⟨hs, hword, hts.head_text hhead⟩⟩
    · obtain ⟨hopened, hword', hmaximal⟩ := nameAt_iff.mp hname
      obtain rfl := Standing.opened.inj (hs.symm.trans hopened)
      obtain ⟨rfl, rfl⟩ :=
        eq_of_stretch htext hword.chars (hts.head_text hhead) hword'.chars hmaximal
      exact ⟨rfl, rfl⟩
    · have hpart : IsKindWord more :=
        ⟨hmore, fun c hc => hword.chars c (by rw [show cs = more ++ past from htext]; simp [hc])⟩
      rw [hnext more hpart]
      simp

theorem name_iff (h : Reads .code ts) :
    (∃ l r, ts = l ++ .name hidden name :: r ∧ textOf l = before ∧ textOf r = rest) ↔
      textOf ts = before ++ name ++ rest ∧ NameAt hidden before name rest := by
  have hstart : Standing.after [] = .code := rfl
  simpa using h.split_iff hstart

end Reads

end CodeAtlas.Query
