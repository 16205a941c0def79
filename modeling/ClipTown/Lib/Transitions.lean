/-
  ClipTown.Lib.Transitions — labelled transition systems and their invariants.

  A system has initial states and a partial step function on labels: the label
  settles every choice, and `none` means that the step is not enabled.  A RUN
  is a list of labels; `ReachableBy P` asks that every step of the run meets the
  condition `P` on its state and label, and `Reachable` asks nothing.

    • `ReachableBy.invariant` — what holds initially and is preserved by every
      conditioned step holds of every state so reached,
    • `ReachableBy.invariant_of` — the same above an invariant already proved,
    • `Reachable.of_run` — executing a run reaches its last state,
    • `guarded` / `ok_of_reachable` — a system whose steps are checked against
      a condition on the state after them keeps that condition,
    • `run_invariant` — what every step preserves, a run preserves,
    • `run_rank` — where steps of a kind lower a rank, a run has no more of them.

  Nothing here mentions any particular system.
-/
import Mathlib.Logic.Basic
import Mathlib.Data.Option.Basic

namespace Transitions

/-- Initial states, and a step on labels. -/
structure System (σ α : Type*) where
  init : σ → Prop
  step : σ → α → Option σ

namespace System

variable {σ α : Type*} (sys : System σ α)

/-! ## §1. Runs. -/

/-- Take the labels in order; `none` when one of them is not enabled. -/
def run : σ → List α → Option σ
  | s, [] => some s
  | s, a :: as => (sys.step s a).bind (fun s' => run s' as)

/-- Every step the run takes meets `P` where it starts. -/
def Along (P : σ → α → Prop) : σ → List α → Prop
  | _, [] => True
  | s, a :: as => P s a ∧ ∀ s', sys.step s a = some s' → Along P s' as

/-- Reached from an initial state by steps that all meet `P`. -/
inductive ReachableBy (P : σ → α → Prop) : σ → Prop
  | init {s : σ} (h : sys.init s) : ReachableBy P s
  | step {s s' : σ} {a : α} (h : ReachableBy P s) (hP : P s a) (hs : sys.step s a = some s') :
      ReachableBy P s'

/-- Reached from an initial state. -/
abbrev Reachable : σ → Prop := sys.ReachableBy (fun _ _ => True)

variable {sys}

theorem ReachableBy.mono {P Q : σ → α → Prop} (hPQ : ∀ s a, P s a → Q s a) {s : σ}
    (h : sys.ReachableBy P s) : sys.ReachableBy Q s := by
  induction h with
  | init h => exact .init h
  | step _ hP hs ih => exact .step ih (hPQ _ _ hP) hs

theorem ReachableBy.reachable {P : σ → α → Prop} {s : σ} (h : sys.ReachableBy P s) :
    sys.Reachable s :=
  h.mono (fun _ _ _ => trivial)

/-- Executing a run of conditioned steps reaches its last state. -/
theorem ReachableBy.of_run {P : σ → α → Prop} :
    ∀ {as : List α} {s s' : σ}, sys.ReachableBy P s → sys.Along P s as →
      sys.run s as = some s' → sys.ReachableBy P s' := by
  intro as
  induction as with
  | nil =>
      intro s s' h _ hrun
      rw [run, Option.some.injEq] at hrun
      rw [← hrun]
      exact h
  | cons a as ih =>
      intro s s' h halong hrun
      rw [run, Option.bind_eq_some_iff] at hrun
      obtain ⟨s₁, hs, hrun⟩ := hrun
      exact ih (.step h halong.1 hs) (halong.2 s₁ hs) hrun

theorem along_true : ∀ (as : List α) (s : σ), sys.Along (fun _ _ => True) s as
  | [], _ => trivial
  | _ :: as, _ => ⟨trivial, fun s' _ => along_true as s'⟩

/-- Executing a run from an initial state reaches its last state. -/
theorem Reachable.of_run {as : List α} {s s' : σ} (h : sys.init s)
    (hrun : sys.run s as = some s') : sys.Reachable s' :=
  ReachableBy.of_run (.init h) (along_true as s) hrun

/-! ## §2. Invariants. -/

/-- **The invariant rule.**  What holds initially and is preserved by every
step that meets `P` holds of every state reached by such steps. -/
theorem ReachableBy.invariant {P : σ → α → Prop} {I : σ → Prop}
    (hinit : ∀ s, sys.init s → I s)
    (hstep : ∀ s a s', I s → P s a → sys.step s a = some s' → I s') {s : σ}
    (h : sys.ReachableBy P s) : I s := by
  induction h with
  | init h => exact hinit _ h
  | step _ hP hs ih => exact hstep _ _ _ ih hP hs

/-- The invariant rule for all runs. -/
theorem Reachable.invariant {I : σ → Prop} (hinit : ∀ s, sys.init s → I s)
    (hstep : ∀ s a s', I s → sys.step s a = some s' → I s') {s : σ}
    (h : sys.Reachable s) : I s :=
  ReachableBy.invariant hinit (fun s a s' hI _ hs => hstep s a s' hI hs) h

/-- The invariant rule above an invariant `J` that all runs keep. -/
theorem ReachableBy.invariant_of {P : σ → α → Prop} {I J : σ → Prop}
    (hJ : ∀ {s}, sys.Reachable s → J s) (hinit : ∀ s, sys.init s → I s)
    (hstep : ∀ s a s', J s → I s → P s a → sys.step s a = some s' → I s') {s : σ}
    (h : sys.ReachableBy P s) : I s := by
  induction h with
  | init h => exact hinit _ h
  | step hr hP hs ih => exact hstep _ _ _ (hJ hr.reachable) ih hP hs

/-! ## §3. Guarded systems. -/

/-- A system that makes a change exactly when the state after it is `ok`. -/
def guarded (init : σ → Prop) (apply : σ → α → σ) (ok : σ → Prop) [DecidablePred ok] :
    System σ α where
  init := init
  step s a := if ok (apply s a) then some (apply s a) else none

variable {init : σ → Prop} {apply : σ → α → σ} {ok : σ → Prop} [DecidablePred ok]

theorem guarded_step_eq_some {s s' : σ} {a : α} :
    (guarded init apply ok).step s a = some s' ↔ ok (apply s a) ∧ s' = apply s a := by
  show (if ok (apply s a) then some (apply s a) else none) = some s' ↔ _
  by_cases h : ok (apply s a)
  · simp [h, eq_comm]
  · simp [h]

/-- The guard holds of every reachable state. -/
theorem ok_of_reachable (hinit : ∀ s, init s → ok s) {s : σ}
    (h : (guarded init apply ok).Reachable s) : ok s := by
  apply Reachable.invariant hinit _ h
  intro s a s' _ hs
  obtain ⟨hok, heq⟩ := guarded_step_eq_some.mp hs
  rw [heq]
  exact hok

/-- Every change of the list is accepted, and meets `P`, where it is made. -/
def AcceptedAlong (apply : σ → α → σ) (ok : σ → Prop) (P : σ → α → Prop) : σ → List α → Prop
  | _, [] => True
  | s, a :: as => P s a ∧ ok (apply s a) ∧ AcceptedAlong apply ok P (apply s a) as

instance decidableAcceptedAlong (P : σ → α → Prop) [∀ s a, Decidable (P s a)] :
    ∀ (s : σ) (as : List α), Decidable (AcceptedAlong apply ok P s as)
  | _, [] => inferInstanceAs (Decidable True)
  | s, a :: as =>
      have := decidableAcceptedAlong P (apply s a) as
      inferInstanceAs (Decidable (_ ∧ _ ∧ _))

/-- Accepted changes reach the state they lead to. -/
theorem AcceptedAlong.reachableBy {P : σ → α → Prop} {as : List α} {s : σ}
    (h : (guarded init apply ok).ReachableBy P s) (halong : AcceptedAlong apply ok P s as) :
    (guarded init apply ok).ReachableBy P (as.foldl apply s) := by
  induction as generalizing s with
  | nil => exact h
  | cons a as ih =>
      obtain ⟨hP, hok, hrest⟩ := halong
      exact ih (.step h hP (guarded_step_eq_some.mpr ⟨hok, rfl⟩)) hrest

/-! ## §4. From a state to the end of a run. -/

/-- What every step preserves, a run preserves. -/
theorem run_invariant {I : σ → Prop}
    (hstep : ∀ s a s', I s → sys.step s a = some s' → I s') :
    ∀ {as : List α} {s s' : σ}, I s → sys.run s as = some s' → I s' := by
  intro as
  induction as with
  | nil =>
      intro s s' hI hrun
      rw [run, Option.some.injEq] at hrun
      rw [← hrun]
      exact hI
  | cons a as ih =>
      intro s s' hI hrun
      rw [run, Option.bind_eq_some_iff] at hrun
      obtain ⟨s₁, hs, hrun⟩ := hrun
      exact ih (hstep s a s₁ hI hs) hrun

/-- A run has no more of the counted labels than the rank it starts from, where each of them
lowers it; `I` is an invariant. -/
theorem run_rank {I : σ → Prop} {rank : σ → Nat} {counted : α → Bool}
    (hstep : ∀ s a s', I s → sys.step s a = some s' →
      I s' ∧ rank s' + (if counted a then 1 else 0) ≤ rank s) :
    ∀ {as : List α} {s s' : σ}, I s → sys.run s as = some s' →
      as.countP counted + rank s' ≤ rank s := by
  intro as
  induction as with
  | nil =>
      intro s s' _ hrun
      rw [run, Option.some.injEq] at hrun
      rw [hrun, List.countP_nil]
      omega
  | cons a as ih =>
      intro s s' hI hrun
      rw [run, Option.bind_eq_some_iff] at hrun
      obtain ⟨s₁, hs, hrun⟩ := hrun
      obtain ⟨hI₁, hle⟩ := hstep s a s₁ hI hs
      have hrest := ih hI₁ hrun
      rw [List.countP_cons]
      omega

end System

end Transitions
