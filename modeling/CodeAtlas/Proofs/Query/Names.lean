import CodeAtlas.Query.Adapt
import Mathlib.Data.List.Basic
import Mathlib.Data.List.Induction

/-!
# The names in a query

A query is carried over by a scanner that looks at one character after the other.  This file says
what it finds without it: a name stands after an opening bracket of code and a gap of blanks, and is
as long as it can be (`NameAt`).

The scanner looks past blanks only, so a comment in the gap hides the name from it.  A query is
therefore read as tokens, in which hidden names are told from the others (`Reads`).  What the
scanner makes of a query, and of the query without its comments, are two ways of looking at these
tokens.
-/

namespace CodeAtlas.Query

open Text.Unicode (isBlank)

/-! ## Characters -/

theorem isBlank_eq_false_of_isKindChar {c : Char} (h : isKindChar c = true) :
    isBlank c = false := by
  refine eq_false_of_ne_true fun hblank => ?_
  simp [isKindChar, isBlank, Text.Unicode.inRanges, Text.Unicode.asciiAlphanumeric,
    Text.Unicode.asciiLetter, Text.Unicode.asciiDigit, Char.le_def, UInt32.le_iff_toNat_le,
    Char.ext_iff, ← UInt32.toNat_inj] at h hblank
  omega

/-- The characters that mean something of their own are neither in names nor blank. -/
theorem ne_of_isKindChar {c : Char} (h : isKindChar c = true) : c ≠ '"' ∧ c ≠ ';' ∧ c ≠ '(' := by
  refine ⟨?_, ?_, ?_⟩ <;> rintro rfl <;> revert h <;> decide

theorem ne_of_isBlank {c : Char} (h : isBlank c = true) : c ≠ '"' ∧ c ≠ ';' ∧ c ≠ '(' := by
  refine ⟨?_, ?_, ?_⟩ <;> rintro rfl <;> revert h <;> decide

/-! ## Where names stand -/

/-- What a character of a query is part of. -/
inductive Context where
  | code
  | string
  | escape
  | comment
deriving DecidableEq, Repr

namespace Context

/-- The context of the next character. -/
def next : Context → Char → Context
  | code, c => if c = '"' then string else if c = ';' then comment else code
  | string, c => if c = '\\' then escape else if c = '"' then code else string
  | escape, _ => string
  | comment, c => if c = '\n' then code else comment

/-- The context of what follows a text. -/
def after (before : List Char) : Context :=
  before.foldl next code

end Context

/-- What may stand between an opening bracket and a name: blanks, and comments if they hide it. -/
inductive Gap : Bool → List Char → Prop
  | nil : Gap false []
  | blank {hidden gap c} : Gap hidden gap → isBlank c = true → Gap hidden (gap ++ [c])
  | comment {hidden gap cs} : Gap hidden gap → '\n' ∉ cs → Gap true (gap ++ ';' :: cs ++ ['\n'])

/-- A text is a word if it could be a name. -/
structure IsKindWord (cs : List Char) : Prop where
  ne_nil : cs ≠ []
  chars : ∀ c ∈ cs, isKindChar c = true

/-- A name stands between two parts of a query: after an opening bracket of code and a gap, and as
long as it can be. -/
structure NameAt (hidden : Bool) (before name after : List Char) : Prop where
  opened : ∃ front gap, before = front ++ '(' :: gap ∧ Context.after front = .code ∧ Gap hidden gap
  word : IsKindWord name
  maximal : ∀ c ∈ after.head?, isKindChar c = false

/-! ## Where a scanner stands -/

/-- What is before the next character, as far as it matters for names. -/
inductive Standing where
  | code
  | string
  | escape
  /-- The comment may be part of a gap. -/
  | comment (opened : Bool)
  /-- After an opening bracket and a gap. -/
  | opened (hidden : Bool)
deriving DecidableEq, Repr

namespace Standing

/-- What a character of code leads to, if it is not about a gap. -/
def enter (c : Char) : Standing :=
  if c = '"' then string else if c = ';' then comment false
  else if c = '(' then opened false else code

def next : Standing → Char → Standing
  | code, c => enter c
  | string, c => if c = '\\' then escape else if c = '"' then code else string
  | escape, _ => string
  | comment within, c =>
    if c = '\n' then if within then opened true else code else comment within
  | opened hidden, c =>
    if isBlank c then opened hidden else if c = ';' then comment true else enter c

def after (before : List Char) : Standing :=
  before.foldl next code

def context : Standing → Context
  | code | opened _ => .code
  | string => .string
  | escape => .escape
  | comment _ => .comment

theorem context_enter (c : Char) : (enter c).context = Context.next .code c := by
  simp only [enter, Context.next]
  split_ifs <;> rfl

theorem context_next (s : Standing) (c : Char) : (s.next c).context = s.context.next c := by
  cases s with
  | code => exact context_enter c
  | string => simp only [next]; split_ifs <;> simp_all [context, Context.next]
  | escape => rfl
  | comment within =>
    cases within <;> simp only [next] <;> split_ifs <;> simp_all [context, Context.next]
  | opened hidden =>
    simp only [next]
    split_ifs with hblank hcomment
    · simp [context, Context.next, ne_of_isBlank hblank]
    · simp [context, Context.next, hcomment]
    · exact context_enter c

theorem context_after (before : List Char) : (after before).context = Context.after before := by
  induction before using List.reverseRecOn with
  | nil => rfl
  | append_singleton before c ih =>
    rw [after, List.foldl_concat, ← after, context_next, ih, Context.after, Context.after,
      List.foldl_concat]

theorem after_append (before more : List Char) :
    after (before ++ more) = more.foldl next (after before) :=
  List.foldl_append

theorem foldl_next_comment {cs : List Char} (h : '\n' ∉ cs) (within : Bool) :
    cs.foldl next (comment within) = comment within := by
  induction cs with
  | nil => rfl
  | cons c cs ih =>
    obtain ⟨hc, hcs⟩ := not_or.mp (mt List.mem_cons.mpr h)
    rw [List.foldl_cons, next, if_neg (Ne.symm hc), ih hcs]

theorem foldl_next_code {cs : List Char} (h : ∀ c ∈ cs, isKindChar c = true) :
    cs.foldl next code = code := by
  induction cs with
  | nil => rfl
  | cons c cs ih =>
    obtain ⟨hquote, hcomment, hopen⟩ := ne_of_isKindChar (h c List.mem_cons_self)
    rw [List.foldl_cons, next, enter, if_neg hquote, if_neg hcomment, if_neg hopen,
      ih fun d hd => h d (List.mem_cons_of_mem c hd)]

/-- A name ends a gap. -/
theorem foldl_next_opened {cs : List Char} (h : IsKindWord cs) (hidden : Bool) :
    cs.foldl next (opened hidden) = code := by
  obtain ⟨c, cs, rfl⟩ := List.exists_cons_of_ne_nil h.ne_nil
  have hc := h.chars c List.mem_cons_self
  obtain ⟨hquote, hcomment, hopen⟩ := ne_of_isKindChar hc
  rw [List.foldl_cons, next, isBlank_eq_false_of_isKindChar hc, if_neg Bool.false_ne_true,
    if_neg hcomment, enter, if_neg hquote, if_neg hcomment, if_neg hopen,
    foldl_next_code fun d hd => h.chars d (List.mem_cons_of_mem c hd)]

theorem next_bracket {s : Standing} (h : s.context = .code) : s.next '(' = opened false := by
  cases s with
  | code => rfl
  | opened hidden => cases hidden <;> rfl
  | string | escape | comment => cases h

theorem foldl_next_gap {hidden : Bool} {gap : List Char} (h : Gap hidden gap) :
    gap.foldl next (opened false) = opened hidden := by
  induction h with
  | nil => rfl
  | blank _ hc ih => rw [List.foldl_concat, ih, next, if_pos hc]
  | @comment hidden gap cs _ hcs ih =>
    have hstart : (opened hidden).next ';' = comment true := by cases hidden <;> rfl
    rw [List.foldl_concat, List.foldl_append, ih, List.foldl_cons, hstart, foldl_next_comment hcs]
    rfl

/-- A gap starts at a bracket of code, and goes on with blanks and at the end of a comment. -/
theorem next_eq_opened {s : Standing} {c : Char} {hidden : Bool} (h : s.next c = opened hidden) :
    (s.context = .code ∧ c = '(' ∧ hidden = false) ∨ (s = opened hidden ∧ isBlank c = true) ∨
      (s = comment true ∧ c = '\n' ∧ hidden = true) := by
  have henter (h : enter c = opened hidden) : c = '(' ∧ hidden = false := by
    unfold enter at h
    split_ifs at h with _ _ hc
    cases h
    exact ⟨hc, rfl⟩
  cases s with
  | code => exact .inl ⟨rfl, henter h⟩
  | string =>
    simp only [next] at h
    split_ifs at h
  | escape => cases h
  | comment within =>
    simp only [next] at h
    split_ifs at h with hc hwithin
    cases h
    exact .inr (.inr ⟨by rw [hwithin], hc, rfl⟩)
  | opened _ =>
    simp only [next] at h
    split_ifs at h with hblank
    · exact .inr (.inl ⟨h, hblank⟩)
    · exact .inl ⟨rfl, henter h⟩

theorem next_eq_comment {s : Standing} {c : Char} (h : s.next c = comment true) :
    (∃ hidden, s = opened hidden ∧ c = ';') ∨ (s = comment true ∧ c ≠ '\n') := by
  have henter : enter c ≠ comment true := by
    unfold enter
    split_ifs <;> simp
  cases s with
  | code => exact absurd h henter
  | string =>
    simp only [next] at h
    split_ifs at h
  | escape => cases h
  | comment within =>
    simp only [next] at h
    split_ifs at h with hc
    exact .inr ⟨h, hc⟩
  | opened hidden =>
    simp only [next] at h
    split_ifs at h with _ hc
    · exact .inl ⟨hidden, rfl, hc⟩
    · exact absurd h henter

/-- How an opening bracket, or a comment after one, comes to stand where it does. -/
theorem exists_gap_of_after {before : List Char} :
    (∀ hidden, after before = opened hidden → ∃ front gap, before = front ++ '(' :: gap ∧
      Context.after front = .code ∧ Gap hidden gap) ∧
    (after before = comment true → ∃ front gap hidden cs,
      before = front ++ '(' :: (gap ++ ';' :: cs) ∧ Context.after front = .code ∧
        Gap hidden gap ∧ '\n' ∉ cs) := by
  induction before using List.reverseRecOn with
  | nil => exact ⟨fun _ h => (nomatch h), fun h => (nomatch h)⟩
  | append_singleton before c ih =>
    obtain ⟨hopened, hcomment⟩ := ih
    have hstep : after (before ++ [c]) = (after before).next c := List.foldl_concat ..
    rw [hstep]
    constructor
    · intro hidden h
      rcases next_eq_opened h with ⟨hcode, rfl, rfl⟩ | ⟨hbefore, hblank⟩ | ⟨hbefore, rfl, rfl⟩
      · exact ⟨before, [], rfl, (context_after before).symm.trans hcode, .nil⟩
      · obtain ⟨front, gap, rfl, hfront, hgap⟩ := hopened hidden hbefore
        exact ⟨front, gap ++ [c], by simp, hfront, .blank hgap hblank⟩
      · obtain ⟨front, gap, hidden, cs, rfl, hfront, hgap, hcs⟩ := hcomment hbefore
        exact ⟨front, gap ++ ';' :: cs ++ ['\n'], by simp, hfront, .comment hgap hcs⟩
    · intro h
      rcases next_eq_comment h with ⟨hidden, hbefore, rfl⟩ | ⟨hbefore, hc⟩
      · obtain ⟨front, gap, rfl, hfront, hgap⟩ := hopened hidden hbefore
        exact ⟨front, gap, hidden, [], by simp, hfront, hgap, by simp⟩
      · obtain ⟨front, gap, hidden, cs, rfl, hfront, hgap, hcs⟩ := hcomment hbefore
        exact ⟨front, gap, hidden, cs ++ [c], by simp, hfront, hgap, by simp [hcs, Ne.symm hc]⟩

theorem after_eq_opened_iff {before : List Char} {hidden : Bool} :
    after before = opened hidden ↔ ∃ front gap, before = front ++ '(' :: gap ∧
      Context.after front = .code ∧ Gap hidden gap := by
  refine ⟨fun h => exists_gap_of_after.1 hidden h, ?_⟩
  rintro ⟨front, gap, rfl, hfront, hgap⟩
  rw [← context_after] at hfront
  rw [after_append, List.foldl_cons, next_bracket hfront, foldl_next_gap hgap]

end Standing

/-- Where a name stands is told by what is before it. -/
theorem nameAt_iff {hidden : Bool} {before name rest : List Char} :
    NameAt hidden before name rest ↔ Standing.after before = .opened hidden ∧ IsKindWord name ∧
      ∀ c ∈ rest.head?, isKindChar c = false := by
  rw [Standing.after_eq_opened_iff]
  exact ⟨fun h => ⟨h.opened, h.word, h.maximal⟩, fun h => ⟨h.1, h.2.1, h.2.2⟩⟩

end CodeAtlas.Query
