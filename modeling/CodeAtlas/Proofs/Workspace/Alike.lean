import CodeAtlas.Workspace.Basic
import CodeAtlas.Proofs.Cache.Transparency
import Mathlib.Data.List.Forall2

/-!
# Calls on two workspaces side by side

Two workspaces are *alike* if they differ at most in what no answer may depend on: the settings of
the cache, what it holds, and when projects were registered.  This file says when two calls carried
out on alike workspaces, in surroundings that differ only in the time, have related outcomes and
leave alike workspaces behind, and gives one rule for each way in which calls are put together.

The rules are the only place where the layers of `Work` are opened.  The calls themselves are
related by applying the rules, so a call that changes needs no new look at what a failure leaves
behind.
-/

namespace CodeAtlas

/-! ## What may differ -/

/-- What two runs have in common: the parser, and the contents that files have while they last.
No two of these contents have the same digest. -/
structure Common where
  parser : Syntax.Parser Language
  contents : Set (List UInt8)
  digest : Set.InjOn Text.Digest.sha256 contents

/-- The same project, but for the time of its registration. -/
def Project.Redated (p q : Project) : Prop :=
  ∃ date, q = { p with registeredAt := date }

variable {common : Common}

/-- Surroundings with the common parser and the same files, at any two times. -/
structure Surroundings.Alike (common : Common) (a b : Surroundings) : Prop where
  files : b.files = a.files
  parser : a.parser = common.parser
  parser' : b.parser = common.parser
  contents : ∀ place content modified,
    a.files.file? place = some (content, modified) → content ∈ common.contents

structure Workspace.Alike (common : Common) (w v : Workspace) : Prop where
  config : v.config = { w.config with cache := v.config.cache }
  projects : List.Forall₂ Project.Redated w.projects.items v.projects.items
  languages : v.languages = w.languages
  cache : w.cache.Faithful common.parser common.contents
  cache' : v.cache.Faithful common.parser common.contents

namespace Workspace.Alike

variable {w v : Workspace} {c d : Cache} {languages : Language.Registry} {projects ps : Projects}

theorem policy (h : Workspace.Alike common w v) : v.policy = w.policy := by
  rw [Workspace.policy, h.config]
  rfl

theorem limit (h : Workspace.Alike common w v) (asked : Option Nat) :
    v.limit asked = w.limit asked := by
  rw [Workspace.limit, h.config]
  rfl

theorem withLanguages (h : Workspace.Alike common w v) :
    Workspace.Alike common { w with languages } { v with languages } :=
  { h with languages := rfl }

theorem withCache (h : Workspace.Alike common w v)
    (hc : c.Faithful common.parser common.contents)
    (hd : d.Faithful common.parser common.contents) :
    Workspace.Alike common { w with cache := c } { v with cache := d } :=
  { h with cache := hc, cache' := hd }

theorem withProjects (h : Workspace.Alike common w v)
    (hp : List.Forall₂ Project.Redated projects.items ps.items) :
    Workspace.Alike common { w with projects } { v with projects := ps } :=
  { h with projects := hp }

end Workspace.Alike

/-! ## Outcomes -/

variable {α β γ δ : Type} {R : α → β → Prop} {Q : γ → δ → Prop}

/-- The same error, or related results. -/
inductive Outcomes (R : α → β → Prop) : Except Error α → Except Error β → Prop
  | ok {a : α} {b : β} (h : R a b) : Outcomes R (.ok a) (.ok b)
  | error (e : Error) : Outcomes R (.error e) (.error e)

theorem Outcomes.of_eq (outcome : Except Error α) : Outcomes Eq outcome outcome := by
  cases outcome with
  | ok a => exact .ok rfl
  | error e => exact .error e

theorem Outcomes.imp {P : α → β → Prop} {outcome : Except Error α} {outcome' : Except Error β}
    (h : Outcomes P outcome outcome') (hP : ∀ a b, P a b → R a b) : Outcomes R outcome outcome' := by
  cases h with
  | ok h => exact .ok (hP _ _ h)
  | error e => exact .error e

theorem Outcomes.bind {outcome : Except Error α} {outcome' : Except Error β}
    {f : α → Except Error γ} {g : β → Except Error δ} (h : Outcomes R outcome outcome')
    (hf : ∀ a b, R a b → Outcomes Q (f a) (g b)) : Outcomes Q (outcome >>= f) (outcome' >>= g) := by
  cases h with
  | ok h => exact hf _ _ h
  | error e => exact .error e

/-- Lists are gone through up to the first error, which is the same. -/
theorem Outcomes.mapM {f : α → Except Error γ} {g : β → Except Error δ} {as : List α}
    {bs : List β} (h : List.Forall₂ R as bs) (hf : ∀ a b, R a b → Outcomes Q (f a) (g b)) :
    Outcomes (List.Forall₂ Q) (as.mapM f) (bs.mapM g) := by
  induction h with
  | nil => exact .ok .nil
  | cons hab _ ih =>
    rw [List.mapM_cons, List.mapM_cons]
    exact (hf _ _ hab).bind fun _ _ hfirst => ih.bind fun _ _ hrest => .ok (.cons hfirst hrest)

/-- Either both calls break off or neither does. -/
theorem Work.breaksOff_eq {x : Work α} {y : Work β} {a b : Surroundings} {w v : Workspace}
    (h : Outcomes R (x.run a w).1 (y.run b v).1) : y.breaksOff b v = x.breaksOff a w := by
  unfold breaksOff
  generalize (x.run a w).1 = outcome at h ⊢
  generalize (y.run b v).1 = outcome' at h ⊢
  cases h with
  | ok _ => rfl
  | error e => cases e <;> rfl

theorem Outcomes.isOk_eq {outcome : Except Error α} {outcome' : Except Error β}
    (h : Outcomes R outcome outcome') : outcome'.isOk = outcome.isOk := by
  cases h <;> rfl

namespace Work

/-- The calls have related outcomes on alike workspaces, and leave alike workspaces behind. -/
def Alike (common : Common) (R : α → β → Prop) (x : Work α) (y : Work β) : Prop :=
  ∀ ⦃a b : Surroundings⦄ ⦃w v : Workspace⦄, Surroundings.Alike common a b →
    Workspace.Alike common w v →
    Outcomes R (x.run a w).1 (y.run b v).1 ∧ Workspace.Alike common (x.run a w).2 (y.run b v).2

/-! ## How a call is carried out -/

theorem run_bind (x : Work α) (f : α → Work γ) (around : Surroundings) (w : Workspace) :
    (x >>= f).run around w =
      match x.run around w with
      | (.ok a, w) => (f a).run around w
      | (.error e, w) => (.error e, w) := by
  have hbind : (x >>= f).run around w =
      ExceptT.bindCont (fun a => f a around) (x.run around w).1 (x.run around w).2 := rfl
  rw [hbind]
  rcases x.run around w with ⟨_ | _, _⟩ <;> rfl

theorem run_tryCatch (x : Work α) (f : Error → Work α) (around : Surroundings) (w : Workspace) :
    (tryCatch x f).run around w =
      match x.run around w with
      | (.ok a, w) => (.ok a, w)
      | (.error e, w) => (f e).run around w := by
  have hcatch : (tryCatch x f).run around w =
      ExceptT.tryCatch (m := StateM Workspace) (x.run around) (fun e => (f e).run around) w := rfl
  rw [hcatch]
  unfold ExceptT.tryCatch
  simp only [ExceptT.mk, bind, StateT.bind]
  rcases x.run around w with ⟨_ | _, _⟩ <;> rfl

/-! ## Rules -/

namespace Alike

theorem pure {a : α} {b : β} (h : R a b) : Alike common R (pure a) (pure b) :=
  fun _ _ _ _ _ hw => ⟨.ok h, hw⟩

theorem throw (e : Error) : Alike common R (throw e) (throw e) :=
  fun _ _ _ _ _ hw => ⟨.error e, hw⟩

theorem lift {outcome : Except Error α} {outcome' : Except Error β}
    (h : Outcomes R outcome outcome') :
    Alike common R (liftM outcome : Work α) (liftM outcome') :=
  fun _ _ _ _ _ hw => ⟨h, hw⟩

theorem lift_same (outcome : Except Error α) :
    Alike common Eq (liftM outcome : Work α) (liftM outcome) :=
  lift (.of_eq outcome)

theorem get : Alike common (Workspace.Alike common) get get :=
  fun _ _ _ _ _ hw => ⟨.ok hw, hw⟩

theorem read : Alike common (Surroundings.Alike common) read read :=
  fun _ _ _ _ ha hw => ⟨.ok ha, hw⟩

theorem set {w v : Workspace} (h : Workspace.Alike common w v) :
    Alike common Eq (set w : Work Unit) (set v) :=
  fun _ _ _ _ _ _ => ⟨.ok rfl, h⟩

theorem modify {f g : Workspace → Workspace}
    (h : ∀ w v, Workspace.Alike common w v → Workspace.Alike common (f w) (g v)) :
    Alike common Eq (modify f : Work Unit) (modify g) :=
  fun _ _ w v _ hw => ⟨.ok rfl, h w v hw⟩

/-- A failure of the first call is the outcome of both, with what it has done by then. -/
theorem bind {x : Work α} {y : Work β} {f : α → Work γ} {g : β → Work δ}
    (hx : Alike common R x y) (hf : ∀ a b, R a b → Alike common Q (f a) (g b)) :
    Alike common Q (x >>= f) (y >>= g) := by
  intro a b w v ha hw
  obtain ⟨houtcome, hleft⟩ := hx ha hw
  rw [run_bind, run_bind]
  generalize x.run a w = p at houtcome hleft ⊢
  generalize y.run b v = q at houtcome hleft ⊢
  obtain ⟨outcome, w⟩ := p
  obtain ⟨outcome', v⟩ := q
  cases houtcome with
  | ok h => exact hf _ _ h ha hleft
  | error e => exact ⟨.error e, hleft⟩

/-- What a failed call has done is kept when the failure is caught. -/
theorem tryCatch {x : Work α} {y : Work β} {f : Error → Work α} {g : Error → Work β}
    (hx : Alike common R x y) (hf : ∀ e, Alike common R (f e) (g e)) :
    Alike common R (tryCatch x f) (tryCatch y g) := by
  intro a b w v ha hw
  obtain ⟨houtcome, hleft⟩ := hx ha hw
  rw [run_tryCatch, run_tryCatch]
  generalize x.run a w = p at houtcome hleft ⊢
  generalize y.run b v = q at houtcome hleft ⊢
  obtain ⟨outcome, w⟩ := p
  obtain ⟨outcome', v⟩ := q
  cases houtcome with
  | ok h => exact ⟨.ok h, hleft⟩
  | error e => exact hf e ha hleft

theorem map {x : Work α} {y : Work β} {f : α → γ} {g : β → δ} (hx : Alike common R x y)
    (hf : ∀ a b, R a b → Q (f a) (g b)) : Alike common Q (f <$> x) (g <$> y) := by
  rw [map_eq_pure_bind, map_eq_pure_bind]
  exact hx.bind fun a b h => .pure (hf a b h)

end Alike

end Work

end CodeAtlas
