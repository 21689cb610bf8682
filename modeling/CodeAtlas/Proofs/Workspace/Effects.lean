import CodeAtlas.Proofs.Cache.Steps
import CodeAtlas.Proofs.Language.Registry
import CodeAtlas.Proofs.Workspace.Runs

/-!
# What a call may do to a workspace

A call that changes no project can do little to a workspace: it may load languages, and it may ask
the cache for documents.  Its *effect* says whether it may fail, whether it may ask the cache, and
whether it may fail when it has asked.  The effect of a call follows from those of its steps, by
one rule for each way in which calls are put together.

That a step does not fail is said of parsers that always find a tree, and of workspaces whose
languages are in order.  Whatever else is said here holds without that.
-/

namespace CodeAtlas

/-- The parser finds a tree in whatever it is given. -/
def Syntax.Parser.Total (parser : Syntax.Parser Language) : Prop :=
  ∀ l source, (parser l source).isSome

/-! ## Effects -/

/-- What the calls of a kind may do. -/
structure Effect where
  fails : Bool
  /-- The cache may be asked for documents. -/
  asks : Bool
  /-- There may be a failure after the cache was asked. -/
  late : Bool
deriving DecidableEq

namespace Effect

/-- Neither to fail nor to ask. -/
def still : Effect := ⟨false, false, false⟩

/-- To fail at most. -/
def quiet : Effect := ⟨true, false, false⟩

/-- To ask, and never to fail. -/
def sure : Effect := ⟨false, true, false⟩

/-- To ask when nothing can fail any more. -/
def early : Effect := ⟨true, true, false⟩

/-- To ask and to fail in any order. -/
def any : Effect := ⟨true, true, true⟩

/-- One after the other. -/
def seq (e f : Effect) : Effect where
  fails := e.fails || f.fails
  asks := e.asks || f.asks
  late := e.late || f.late || (e.asks && f.fails)

/-- One, and the other if the first fails. -/
def orElse (e f : Effect) : Effect where
  fails := f.fails
  asks := e.asks || f.asks
  late := f.late || (e.asks && f.fails)

/-- What either may do. -/
def join (e f : Effect) : Effect where
  fails := e.fails || f.fails
  asks := e.asks || f.asks
  late := e.late || f.late

/-- What the first may do the second may do. -/
def Within (e f : Effect) : Prop := e.join f = f

namespace Within

variable {e f : Effect}

theorem fails (h : e.Within f) (hf : f.fails = false) : e.fails = false := by
  simpa [join, hf] using congrArg Effect.fails h

theorem asks (h : e.Within f) (hf : f.asks = false) : e.asks = false := by
  simpa [join, hf] using congrArg Effect.asks h

theorem late (h : e.Within f) (hf : f.late = false) : e.late = false := by
  simpa [join, hf] using congrArg Effect.late h

end Within

theorem seq_still_within (e : Effect) : (e.seq still).Within e := by
  obtain ⟨_ | _, _ | _, _ | _⟩ := e <;> rfl

end Effect

/-! ## Steps of the workspace -/

namespace Cache.Operation

/-- The operation asks for a document of one of these projects. -/
def Asks (projects : Projects) : Operation → Prop
  | get _ _ file _ _ => projects.contains file.project = true
  | _ => False

end Cache.Operation

theorem Cache.run_append (c : Cache) (operations more : List Cache.Operation) :
    c.run (operations ++ more) = (c.run operations).run more :=
  List.foldl_append

namespace Workspace

/-- All that a call which changes no project does to a workspace. -/
structure Reads (w v : Workspace) : Prop where
  config : v.config = w.config
  projects : v.projects = w.projects
  languages : w.languages.Sound → v.languages.Sound
  cache : ∃ operations : List Cache.Operation, v.cache = w.cache.run operations ∧
    ∀ o ∈ operations, o.Asks w.projects

variable {u v w : Workspace}

namespace Reads

theorem refl (w : Workspace) : w.Reads w :=
  ⟨rfl, rfl, id, [], rfl, fun _ h => absurd h List.not_mem_nil⟩

theorem trans (h : u.Reads v) (h' : v.Reads w) : u.Reads w where
  config := h'.config.trans h.config
  projects := h'.projects.trans h.projects
  languages := h'.languages ∘ h.languages
  cache := by
    obtain ⟨operations, hcache, hasks⟩ := h.cache
    obtain ⟨more, hmore, hasks'⟩ := h'.cache
    refine ⟨operations ++ more, by rw [hmore, hcache, Cache.run_append], fun o ho => ?_⟩
    rcases List.mem_append.mp ho with ho | ho
    · exact hasks o ho
    · exact h.projects ▸ hasks' o ho

theorem withLanguages (w : Workspace) {languages : Language.Registry}
    (h : w.languages.Sound → languages.Sound) : w.Reads { w with languages } :=
  ⟨rfl, rfl, h, [], rfl, fun _ h => absurd h List.not_mem_nil⟩

theorem withGet (w : Workspace) (parser : Syntax.Parser Language) (now : Nat) {file : FileRef}
    (hfile : w.projects.contains file.project = true) (source : List UInt8) (l : Language) :
    w.Reads { w with cache := (w.cache.get parser now file source l).2 } := by
  refine ⟨rfl, rfl, id, [.get parser now file source l], rfl, fun o ho => ?_⟩
  obtain rfl := List.mem_singleton.mp ho
  exact hfile

end Reads

end Workspace

/-! ## Effects of calls -/

namespace Work

variable {α β : Type} {ps : Projects} {e f g : Effect} {Q : α → Prop} {R : β → Prop}

/-- What is true after a call with an effect, if its results are as said. -/
structure Ran (e : Effect) (Q : α → Prop) (around : Surroundings) (w : Workspace)
    (outcome : Except Error α) (v : Workspace) : Prop where
  reads : w.Reads v
  result : ∀ a, outcome = .ok a → Q a
  answers : e.fails = false → around.parser.Total → w.languages.Sound → ∃ a, outcome = .ok a
  untouched : e.asks = false → v.cache = w.cache
  early : e.late = false → around.parser.Total → w.languages.Sound →
    ∀ error, outcome = .error error → v.cache = w.cache

/-- With these projects the call has an effect of the kind, and its results are as said. -/
def Does (ps : Projects) (e : Effect) (x : Work α) (Q : α → Prop) : Prop :=
  ∀ (around : Surroundings) (w : Workspace), w.projects = ps →
    Ran e Q around w (x.run around w).1 (x.run around w).2

namespace Ran

variable {around : Surroundings} {u v w : Workspace} {outcome : Except Error α}

theorem ok (hreads : w.Reads v) {a : α} (h : Q a) (hcache : e.asks = false → v.cache = w.cache) :
    Ran e Q around w (.ok a) v where
  reads := hreads
  result := by rintro _ ⟨⟩; exact h
  answers _ _ _ := ⟨a, rfl⟩
  untouched := hcache
  early _ _ _ := by rintro _ ⟨⟩

theorem error (hreads : w.Reads v) (error : Error) (hfails : e.fails = true)
    (hcache : v.cache = w.cache) : Ran e Q around w (.error error) v where
  reads := hreads
  result := by rintro _ ⟨⟩
  answers h := by rw [hfails] at h; cases h
  untouched _ := hcache
  early _ _ _ _ _ := hcache

theorem within {P : α → Prop} (h : Ran e P around w outcome v) (hle : e.Within f)
    (hP : ∀ a, P a → Q a) : Ran f Q around w outcome v where
  reads := h.reads
  result a ha := hP a (h.result a ha)
  answers hf := h.answers (hle.fails hf)
  untouched hf := h.untouched (hle.asks hf)
  early hf := h.early (hle.late hf)

/-- A second call after a first one that has succeeded. -/
theorem afterOk {a : α} {P : α → Prop} (h : Ran e P around w (.ok a) v) {outcome : Except Error β}
    (h' : Ran f R around v outcome u) : Ran (e.seq f) R around w outcome u where
  reads := h.reads.trans h'.reads
  result := h'.result
  answers hfails htotal hsound := by
    have hf : f.fails = false := (Bool.or_eq_false_iff.mp hfails).2
    exact h'.answers hf htotal (h.reads.languages hsound)
  untouched hasks := by
    obtain ⟨he, hf⟩ := Bool.or_eq_false_iff.mp hasks
    rw [h'.untouched hf, h.untouched he]
  early hlate htotal hsound error herror := by
    have hsound' := h.reads.languages hsound
    obtain ⟨hboth, hthen⟩ := Bool.or_eq_false_iff.mp hlate
    obtain ⟨-, hf⟩ := Bool.or_eq_false_iff.mp hboth
    rcases Bool.and_eq_false_iff.mp hthen with hasks | hfails
    · rw [h'.early hf htotal hsound' error herror, h.untouched hasks]
    · obtain ⟨b, hb⟩ := h'.answers hfails htotal hsound'
      rw [hb] at herror
      cases herror

theorem afterError {error : Error} {P : α → Prop} (h : Ran e P around w (.error error) v) :
    Ran (e.seq f) R around w (.error error) v where
  reads := h.reads
  result := by rintro _ ⟨⟩
  answers hfails htotal hsound := by
    obtain ⟨a, ha⟩ := h.answers (Bool.or_eq_false_iff.mp hfails).1 htotal hsound
    cases ha
  untouched hasks := h.untouched (Bool.or_eq_false_iff.mp hasks).1
  early hlate htotal hsound _ _ :=
    h.early (Bool.or_eq_false_iff.mp (Bool.or_eq_false_iff.mp hlate).1).1 htotal hsound error rfl

/-- A second call in the place of a first one that has failed. -/
theorem inPlace {error : Error} (h : Ran e Q around w (.error error) v)
    (h' : Ran f Q around v outcome u) : Ran (e.orElse f) Q around w outcome u where
  reads := h.reads.trans h'.reads
  result := h'.result
  answers hfails htotal hsound := h'.answers hfails htotal (h.reads.languages hsound)
  untouched hasks := by
    obtain ⟨he, hf⟩ := Bool.or_eq_false_iff.mp hasks
    rw [h'.untouched hf, h.untouched he]
  early hlate htotal hsound error' herror := by
    have hsound' := h.reads.languages hsound
    obtain ⟨hf, hthen⟩ := Bool.or_eq_false_iff.mp hlate
    rcases Bool.and_eq_false_iff.mp hthen with hasks | hfails
    · rw [h'.early hf htotal hsound' error' herror, h.untouched hasks]
    · obtain ⟨b, hb⟩ := h'.answers hfails htotal hsound'
      rw [hb] at herror
      cases herror

end Ran

namespace Does

variable {x : Work α} {k : α → Work β}

theorem within {P : α → Prop} (h : Does ps e x P) (hle : e.Within f) (hP : ∀ a, P a → Q a) :
    Does ps f x Q :=
  fun around w hw => (h around w hw).within hle hP

theorem pure {a : α} (h : Q a) : Does ps e (pure a) Q :=
  fun _ w _ => .ok (.refl w) h fun _ => rfl

theorem throw (error : Error) : Does ps .quiet (throw error) Q :=
  fun _ w _ => .error (.refl w) error rfl rfl

theorem lift {outcome : Except Error α} (h : ∀ a, outcome = .ok a → Q a) :
    Does ps .quiet (liftM outcome) Q := by
  intro around w _
  cases outcome with
  | error error => exact .error (.refl w) error rfl rfl
  | ok a => exact .ok (.refl w) (h a rfl) fun _ => rfl

theorem lift_ok {outcome : Except Error α} (h : ∃ a, outcome = .ok a ∧ Q a) :
    Does ps .still (liftM outcome) Q := by
  obtain ⟨a, rfl, ha⟩ := h
  exact pure ha

theorem get : Does ps .still get fun w => w.projects = ps :=
  fun _ w hw => .ok (.refl w) hw fun _ => rfl

theorem read : Does ps .still read fun _ => True :=
  fun _ w _ => .ok (.refl w) trivial fun _ => rfl

/-- The effect `f` is the one of what comes after.  Where the effects are known, that both together
are within `g` is true by computation. -/
theorem bind (f : Effect) (hx : Does ps e x Q) (hle : (e.seq f).Within g)
    (hk : ∀ a, Q a → Does ps f (k a) R) : Does ps g (x >>= k) R := by
  intro around w hw
  have hran := hx around w hw
  rw [run_bind]
  generalize x.run around w = p at hran ⊢
  obtain ⟨outcome, v⟩ := p
  cases outcome with
  | error error => exact hran.afterError.within hle fun _ h => h
  | ok a =>
    have hv : v.projects = ps := hran.reads.projects.trans hw
    exact (hran.afterOk (hk a (hran.result a rfl) around v hv)).within hle fun _ h => h

theorem tryCatch (handle : Error → Work α) (f : Effect) (hx : Does ps e x Q)
    (hle : (e.orElse f).Within g) (hhandle : ∀ error, Does ps f (handle error) Q) :
    Does ps g (tryCatch x handle) Q := by
  intro around w hw
  have hran := hx around w hw
  rw [run_tryCatch]
  generalize x.run around w = p at hran ⊢
  obtain ⟨outcome, v⟩ := p
  cases outcome with
  | error error =>
    have hv : v.projects = ps := hran.reads.projects.trans hw
    exact (hran.inPlace (hhandle error around v hv)).within hle fun _ h => h
  | ok a =>
    refine .ok hran.reads (hran.result a rfl) fun hasks => hran.untouched ?_
    exact (Bool.or_eq_false_iff.mp (hle.asks hasks)).1

theorem map {h : α → β} (hx : Does ps e x Q) (hR : ∀ a, Q a → R (h a)) :
    Does ps e (h <$> x) R := by
  rw [map_eq_pure_bind]
  exact hx.bind .still e.seq_still_within fun a ha => .pure (hR a ha)

/-- A look at the workspace alone. -/
theorem look (f : Workspace → α) : Does ps .still (return f (← MonadState.get)) fun _ => True :=
  get.bind .still rfl fun _ _ => pure trivial

/-- A step that only has to do with languages. -/
theorem languages (f : Language.Registry → Except Error α × Language.Registry)
    (hrun : ∀ around w, x.run around w =
      ((f w.languages).1, { w with languages := (f w.languages).2 }))
    (hsound : ∀ registry : Language.Registry, registry.Sound → (f registry).2.Sound) :
    Does ps .quiet x fun _ => True := by
  intro around w _
  have hreads : w.Reads { w with languages := (f w.languages).2 } :=
    .withLanguages w (hsound w.languages)
  rw [hrun]
  cases (f w.languages).1 with
  | error error => exact .error hreads error rfl rfl
  | ok a => exact .ok hreads trivial fun _ => rfl

end Does

end Work

end CodeAtlas
