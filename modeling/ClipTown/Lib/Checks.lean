/-
  ClipTown.Lib.Checks — a small calculus for validators that run a list of
  checks in order and stop at the first one that fails.

  A validator is a value of `Except ε α`.  The lemmas below say when such a
  value is `.ok`, one connective at a time, so that a whole validator reads
  back as a conjunction and never has to be executed branch by branch:

    • `bind_eq_ok`, `rejectIf_eq_ok`, `okOr_eq_ok`, `mapError_eq_ok` — one
      connective each (all in the simp set),
    • `do_eq_error`, `rejectIf_eq_error`, `okOr_eq_error` — which error,
    • `forM_eq_ok`, `mapM_eq_ok`, `mapM_eq_some` — loops that check or translate
      a list,
    • `foldlM_eq_ok` — a fold whose step is a guard plus an update succeeds
      iff the guard holds at every intermediate accumulator, and then returns
      the plain fold of the updates,
    • `goodRun_fresh` — when the guard is "this key was not filed yet", the run
      is good iff the keys are pairwise distinct.

  Nothing here mentions any particular validator.
-/
import Mathlib.Data.Finset.Insert
import Mathlib.Data.List.Forall2
import Mathlib.Data.List.Nodup

namespace Checks

variable {ε ε' α β σ : Type*}

/-! ## §1. The connectives. -/

/-- Fail with `e` when the condition `p` holds. -/
def rejectIf (p : Prop) [Decidable p] (e : ε) : Except ε Unit :=
  if p then .error e else .ok ()

/-- The value of an option, or the error `e`. -/
def okOr : Option α → ε → Except ε α
  | some a, _ => .ok a
  | none, e => .error e

@[simp] theorem bind_eq_ok {β : Type _} {x : Except ε α} {f : α → Except ε β} {b : β} :
    (x.bind f) = .ok b ↔ ∃ a, x = .ok a ∧ f a = .ok b := by
  cases x <;> simp [Except.bind]

@[simp] theorem do_eq_ok {α β : Type _} {x : Except ε α} {f : α → Except ε β} {b : β} :
    (x >>= f) = .ok b ↔ ∃ a, x = .ok a ∧ f a = .ok b := by
  cases x <;> simp [bind, Except.bind]

@[simp] theorem pure_eq_ok {a b : α} : (pure a : Except ε α) = .ok b ↔ a = b := by
  simp [pure, Except.pure]

@[simp] theorem rejectIf_eq_ok {p : Prop} [Decidable p] {e : ε} {u : Unit} :
    rejectIf p e = .ok u ↔ ¬ p := by
  unfold rejectIf
  split <;> simp_all

@[simp] theorem okOr_eq_ok {o : Option α} {e : ε} {a : α} :
    okOr o e = .ok a ↔ o = some a := by
  cases o <;> simp [okOr]

theorem eq_ok_of_mem_toOption {x : Except ε α} {a : α} (h : a ∈ x.toOption) : x = .ok a := by
  cases x with
  | error e => cases h
  | ok b => rw [Option.some.inj h]

@[simp] theorem mapError_eq_ok {x : Except ε α} {f : ε → ε'} {a : α} :
    x.mapError f = .ok a ↔ x = .ok a := by
  cases x <;> simp [Except.mapError]

/-- A sequence of checks fails with the error of its first failing step. -/
theorem do_eq_error {α β : Type _} {x : Except ε α} {f : α → Except ε β} {e : ε} :
    (x >>= f) = .error e ↔ x = .error e ∨ ∃ a, x = .ok a ∧ f a = .error e := by
  cases x <;> simp [bind, Except.bind]

theorem rejectIf_eq_error {p : Prop} [Decidable p] {e e' : ε} :
    rejectIf p e = .error e' ↔ p ∧ e = e' := by
  unfold rejectIf
  split <;> simp_all

theorem okOr_eq_error {o : Option α} {e e' : ε} :
    okOr o e = .error e' ↔ o = none ∧ e = e' := by
  cases o <;> simp [okOr]

/-- What follows a step matters only where the step succeeds. -/
theorem do_congr {α β : Type _} {x : Except ε α} {f g : α → Except ε β}
    (h : ∀ a, x = .ok a → f a = g a) : (x >>= f) = (x >>= g) := by
  cases x with
  | error e => rfl
  | ok a => exact h a rfl

/-- A check returns no information. -/
@[simp] theorem exists_unit {p : Unit → Prop} : (∃ u, p u) ↔ p () :=
  ⟨fun ⟨(), h⟩ => h, fun h => ⟨(), h⟩⟩

/-- Checking every member of a list. -/
theorem forM_eq_ok {α : Type _} {f : α → Except ε PUnit} {u : PUnit} :
    ∀ (as : List α), as.forM f = .ok u ↔ ∀ a ∈ as, f a = .ok ⟨⟩
  | [] => by simp [List.forM, pure, Except.pure]
  | a :: as => by
      simp only [List.forM_eq_forM, List.forM_cons, do_eq_ok, List.forall_mem_cons]
      rw [← List.forM_eq_forM, forM_eq_ok as]
      constructor
      · intro ⟨u, ha, has⟩
        exact ⟨ha, has⟩
      · intro ⟨ha, has⟩
        exact ⟨⟨⟩, ha, has⟩

/-- A list is translated member by member. -/
theorem mapM_eq_ok {α β : Type _} {f : α → Except ε β} {as : List α} {bs : List β} :
    as.mapM f = .ok bs ↔ List.Forall₂ (fun a b => f a = .ok b) as bs := by
  induction as generalizing bs with
  | nil => rw [List.mapM_nil, pure_eq_ok, List.forall₂_nil_left_iff, eq_comm]
  | cons a as ih =>
      rw [List.mapM_cons, do_eq_ok, List.forall₂_cons_left_iff]
      simp only [do_eq_ok, pure_eq_ok, ih]
      constructor
      · intro hex
        obtain ⟨b, hb, bs', hbs', rfl⟩ := hex
        exact ⟨b, bs', hb, hbs', rfl⟩
      · intro hex
        obtain ⟨b, bs', hb, hbs', rfl⟩ := hex
        exact ⟨b, hb, bs', hbs', rfl⟩

/-- The same where the translation is optional. -/
theorem mapM_eq_some {α β : Type _} {f : α → Option β} {as : List α} {bs : List β} :
    as.mapM f = some bs ↔ List.Forall₂ (fun a b => f a = some b) as bs := by
  induction as generalizing bs with
  | nil =>
      rw [List.mapM_nil, List.forall₂_nil_left_iff, Option.pure_def, Option.some.injEq, eq_comm]
  | cons a as ih =>
      rw [List.mapM_cons, List.forall₂_cons_left_iff]
      simp only [Option.bind_eq_bind, Option.pure_def, Option.bind_eq_some_iff,
        Option.some.injEq, ih]
      constructor
      · intro hex
        obtain ⟨b, hb, bs', hbs', rfl⟩ := hex
        exact ⟨b, bs', hb, hbs', rfl⟩
      · intro hex
        obtain ⟨b, bs', hb, hbs', rfl⟩ := hex
        exact ⟨b, hb, bs', hbs', rfl⟩

/-- Lists that correspond one by one where two functions agree. -/
theorem forall₂_iff_map_eq {α β γ : Type _} {R : α → β → Prop} {f : α → γ} {g : β → γ}
    {as : List α} : ∀ {bs : List β}, (∀ a ∈ as, ∀ b ∈ bs, R a b ↔ f a = g b) →
      (List.Forall₂ R as bs ↔ as.map f = bs.map g) := by
  induction as with
  | nil =>
      intro bs _
      cases bs <;> simp
  | cons a as ih =>
      intro bs h
      cases bs with
      | nil => simp
      | cons b bs =>
          have hrest : List.Forall₂ R as bs ↔ as.map f = bs.map g := ih fun a' ha' b' hb' =>
            h a' (List.mem_cons_of_mem a ha') b' (List.mem_cons_of_mem b hb')
          rw [List.forall₂_cons, List.map_cons, List.map_cons, List.cons.injEq, hrest,
            h a List.mem_cons_self b List.mem_cons_self]

/-- Lists that are related member by member have related members. -/
theorem exists_of_forall₂ {α β : Type _} {R : α → β → Prop} {as : List α} {bs : List β}
    (h : List.Forall₂ R as bs) : (∀ a ∈ as, ∃ b ∈ bs, R a b) ∧ ∀ b ∈ bs, ∃ a ∈ as, R a b := by
  induction h with
  | nil => exact ⟨fun a ha => absurd ha List.not_mem_nil, fun b hb => absurd hb List.not_mem_nil⟩
  | cons hab _ ih =>
      constructor
      · intro a' ha'
        rcases List.mem_cons.mp ha' with rfl | ha'
        · exact ⟨_, List.mem_cons_self, hab⟩
        · obtain ⟨b, hb, hr⟩ := ih.1 a' ha'
          exact ⟨b, List.mem_cons_of_mem _ hb, hr⟩
      · intro b' hb'
        rcases List.mem_cons.mp hb' with rfl | hb'
        · exact ⟨_, List.mem_cons_self, hab⟩
        · obtain ⟨a, ha, hr⟩ := ih.2 b' hb'
          exact ⟨a, List.mem_cons_of_mem _ ha, hr⟩

/-- What a translated list holds was translated from a member. -/
theorem exists_of_mapM {α β : Type _} {f : α → Except ε β} {as : List α} {bs : List β}
    (h : as.mapM f = .ok bs) : ∀ b ∈ bs, ∃ a ∈ as, f a = .ok b :=
  (exists_of_forall₂ (mapM_eq_ok.mp h)).2

/-- Every member of a translated list is translated. -/
theorem exists_mapM {α β : Type _} {f : α → Except ε β} {as : List α} {bs : List β}
    (h : as.mapM f = .ok bs) : ∀ a ∈ as, ∃ b ∈ bs, f a = .ok b :=
  (exists_of_forall₂ (mapM_eq_ok.mp h)).1

theorem mapM_isSome {α β : Type _} {f : α → Option β} {as : List α}
    (h : ∀ a ∈ as, ∃ b, f a = some b) : ∃ bs, as.mapM f = some bs := by
  induction as with
  | nil => exact ⟨[], List.mapM_nil⟩
  | cons a as ih =>
      obtain ⟨b, hb⟩ := h a List.mem_cons_self
      obtain ⟨bs, hbs⟩ := ih fun a' ha' => h a' (List.mem_cons_of_mem a ha')
      refine ⟨b :: bs, ?_⟩
      rw [List.mapM_cons, hb, hbs]
      rfl

/-- A list is translated where every member is. -/
theorem mapM_isOk {α β : Type _} {f : α → Except ε β} {as : List α}
    (h : ∀ a ∈ as, ∃ b, f a = .ok b) : ∃ bs, as.mapM f = .ok bs := by
  induction as with
  | nil => exact ⟨[], List.mapM_nil⟩
  | cons a as ih =>
      obtain ⟨b, hb⟩ := h a List.mem_cons_self
      obtain ⟨bs, hbs⟩ := ih fun a' ha' => h a' (List.mem_cons_of_mem a ha')
      refine ⟨b :: bs, ?_⟩
      rw [List.mapM_cons, hb, hbs]
      rfl

/-- What is read off a translated list, read off the members instead. -/
theorem flatMap_of_mapM {α β γ : Type _} {f : α → Except ε β} {as : List α} {bs : List β}
    (h : as.mapM f = .ok bs) {read : β → List γ} {read' : α → List γ}
    (hread : ∀ a ∈ as, ∀ b, f a = .ok b → read b = read' a) :
    bs.flatMap read = as.flatMap read' := by
  rw [mapM_eq_ok] at h
  induction h with
  | nil => rfl
  | cons hab _ ih =>
      have hrest := ih fun a' ha' => hread a' (List.mem_cons_of_mem _ ha')
      rw [List.flatMap_cons, List.flatMap_cons, hrest, hread _ List.mem_cons_self _ hab]

/-! ## §2. Folds of guarded updates. -/

/-- The guard `good` holds at every accumulator the updates `next` go through. -/
def GoodRun (good : σ → α → Prop) (next : σ → α → σ) : σ → List α → Prop
  | _, [] => True
  | s, a :: as => good s a ∧ GoodRun good next (next s a) as

/-- **A fold of guarded updates succeeds iff every guard on its way holds**, and
then its value is the plain fold of the updates. -/
theorem foldlM_eq_ok {σ α : Type _} {step : σ → α → Except ε σ} {good : σ → α → Prop}
    {next : σ → α → σ}
    (hstep : ∀ s a s', step s a = .ok s' ↔ good s a ∧ s' = next s a) :
    ∀ (as : List α) (s s' : σ),
      as.foldlM step s = .ok s' ↔ GoodRun good next s as ∧ s' = as.foldl next s := by
  intro as
  induction as with
  | nil => intro s s'; simp [GoodRun, pure, Except.pure, eq_comm]
  | cons a as ih =>
      intro s s'
      rw [List.foldlM_cons, do_eq_ok]
      constructor
      · intro hall
        obtain ⟨s₁, h₁, h₂⟩ := hall
        obtain ⟨hg, rfl⟩ := (hstep s a s₁).mp h₁
        obtain ⟨hr, rfl⟩ := (ih _ _).mp h₂
        exact ⟨⟨hg, hr⟩, rfl⟩
      · intro hall
        obtain ⟨⟨hg, hr⟩, rfl⟩ := hall
        exact ⟨next s a, (hstep s a _).mpr ⟨hg, rfl⟩, (ih _ _).mpr ⟨hr, rfl⟩⟩

/-- Two guards hold along a run iff each does. -/
theorem goodRun_and {p q : σ → α → Prop} {next : σ → α → σ} :
    ∀ (as : List α) (s : σ),
      GoodRun (fun s a => p s a ∧ q s a) next s as ↔ GoodRun p next s as ∧ GoodRun q next s as
  | [], _ => by simp [GoodRun]
  | a :: as, s => by
      simp only [GoodRun, goodRun_and as (next s a)]
      tauto

/-- A guard that ignores the accumulator holds along a run iff it holds of every
member. -/
theorem goodRun_const {p : α → Prop} {next : σ → α → σ} :
    ∀ (as : List α) (s : σ), GoodRun (fun _ a => p a) next s as ↔ ∀ a ∈ as, p a
  | [], _ => by simp [GoodRun]
  | a :: as, s => by simp [GoodRun, goodRun_const as (next s a)]

/-- A run that files every member's key in a set and refuses a key already filed
is a run over pairwise distinct new keys. -/
theorem goodRun_fresh {κ : Type*} [DecidableEq κ] (next : σ → α → σ) (seen : σ → Finset κ)
    (key : α → κ) (hseen : ∀ s a, seen (next s a) = insert (key a) (seen s)) :
    ∀ (as : List α) (s : σ),
      GoodRun (fun s a => key a ∉ seen s) next s as
        ↔ (as.map key).Nodup ∧ ∀ a ∈ as, key a ∉ seen s := by
  intro as
  induction as with
  | nil => intro s; simp [GoodRun]
  | cons a as ih =>
      intro s
      simp only [GoodRun, ih, hseen, Finset.mem_insert, not_or, List.map_cons, List.nodup_cons,
        List.mem_map, not_exists, not_and, List.mem_cons, forall_eq_or_imp]
      constructor
      · intro hall
        obtain ⟨ha, hnodup, hrest⟩ := hall
        exact ⟨⟨fun b hb => (hrest b hb).1, hnodup⟩, ha, fun b hb => (hrest b hb).2⟩
      · intro hall
        obtain ⟨⟨hne, hnodup⟩, ha, hrest⟩ := hall
        exact ⟨ha, hnodup, fun b hb => ⟨hne b hb, hrest b hb⟩⟩

/-! ## §3. Looking up a key. -/

/-- Where keys are distinct, a member is found by its own. -/
theorem find?_of_nodup {κ : Type*} [DecidableEq κ] {key : α → κ} {l : List α} {a : α}
    (h : (l.map key).Nodup) (ha : a ∈ l) : l.find? (fun b => key b = key a) = some a := by
  induction l with
  | nil => cases ha
  | cons b l ih =>
      rw [List.map_cons, List.nodup_cons] at h
      rcases List.mem_cons.mp ha with rfl | ha
      · exact List.find?_cons_of_pos (decide_eq_true rfl)
      · have hne : key b ≠ key a := fun heq => h.1 (heq ▸ List.mem_map_of_mem ha)
        rw [List.find?_cons_of_neg (by simpa using hne), ih h.2 ha]

end Checks
