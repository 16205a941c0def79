/-
  ClipTown.Lib.Interaction — programs that call their environment.

  A program is a tree: it returns, or it makes a call and goes on with the
  answer.  A PROTOCOL is what a client of the environment must keep to: a view
  of its own past, the calls it may make in that view, and the view after an
  answer.  A program OBEYS it when every call it makes is allowed, whatever was
  answered before, and the result meets the postcondition.

    • `runs_bind_iff`, `runs_andThen_iff` — a run of a composition is a run of
      each part,
    • `obeys_bind`, `obeys_andThen` — the rules for composition,
    • `Network.invariant` — any number of programs that obey, interleaved over
      one shared world, keep what every allowed call keeps,
    • `Network.finishes` — where somebody can always go on, all of them can be
      brought to an end.

  Nothing here mentions any particular calls.
-/
import ClipTown.Lib.Transitions
import Mathlib.Data.Nat.Notation
import Mathlib.Logic.Function.Basic
import Mathlib.Algebra.BigOperators.Group.Finset.Piecewise

namespace Interaction

universe u v w

/-! ## §1. Programs. -/

/-- A program over calls `C`, where `R c` are the answers to the call `c`. -/
inductive Prog (C : Type u) (R : C → Type v) (α : Type w) where
  | ret (a : α)
  | call (c : C) (next : R c → Prog C R α)

namespace Prog

variable {C : Type u} {R : C → Type v} {α β ε : Type w}

def bind : Prog C R α → (α → Prog C R β) → Prog C R β
  | .ret a, f => f a
  | .call c next, f => .call c fun r => (next r).bind f

/-- Go on with the value of the first program, or fail as it does. -/
def andThen (p : Prog C R (Except ε α)) (f : α → Prog C R (Except ε β)) :
    Prog C R (Except ε β) :=
  p.bind fun
    | .ok a => f a
    | .error e => .ret (.error e)

@[simp] theorem ret_bind (a : α) (f : α → Prog C R β) : (Prog.ret a).bind f = f a := rfl

@[simp] theorem call_bind (c : C) (next : R c → Prog C R α) (f : α → Prog C R β) :
    (Prog.call c next).bind f = .call c fun r => (next r).bind f := rfl

end Prog

/-! ## §2. Runs. -/

/-- A call and its answer. -/
abbrev Event (C : Type u) (R : C → Type v) := (c : C) × R c

variable {C : Type u} {R : C → Type v} {α β ε : Type w}

/-- The program returns `a` after the events `tr`; the environment answers anything. -/
inductive Runs : Prog C R α → List (Event C R) → α → Prop
  | ret (a : α) : Runs (.ret a) [] a
  | call {c : C} {next : R c → Prog C R α} (r : R c) {tr : List (Event C R)} {a : α}
      (h : Runs (next r) tr a) : Runs (.call c next) (⟨c, r⟩ :: tr) a

@[simp] theorem runs_ret_iff {a b : α} {tr : List (Event C R)} :
    Runs (.ret a) tr b ↔ tr = [] ∧ b = a := by
  constructor
  · intro h
    cases h
    exact ⟨rfl, rfl⟩
  · rintro ⟨rfl, rfl⟩
    exact .ret b

@[simp] theorem runs_call_iff {c : C} {next : R c → Prog C R α} {tr : List (Event C R)} {a : α} :
    Runs (.call c next) tr a ↔ ∃ r rest, tr = ⟨c, r⟩ :: rest ∧ Runs (next r) rest a := by
  constructor
  · intro h
    cases h with
    | call r hrest => exact ⟨r, _, rfl, hrest⟩
  · rintro ⟨r, rest, rfl, hrest⟩
    exact .call r hrest

/-- A run of a composition is a run of each part. -/
theorem runs_bind_iff {f : α → Prog C R β} : ∀ {p : Prog C R α} {tr : List (Event C R)} {b : β},
    Runs (p.bind f) tr b
      ↔ ∃ first a rest, tr = first ++ rest ∧ Runs p first a ∧ Runs (f a) rest b := by
  intro p
  induction p with
  | ret a =>
      intro tr b
      constructor
      · intro h
        exact ⟨[], a, tr, rfl, .ret a, h⟩
      · rintro ⟨first, a', rest, rfl, hfirst, hrest⟩
        obtain ⟨rfl, rfl⟩ := runs_ret_iff.mp hfirst
        exact hrest
  | call c next ih =>
      intro tr b
      rw [Prog.call_bind, runs_call_iff]
      constructor
      · rintro ⟨r, tail, rfl, htail⟩
        obtain ⟨first, a, rest, rfl, hfirst, hrest⟩ := (ih r).mp htail
        exact ⟨⟨c, r⟩ :: first, a, rest, rfl, .call r hfirst, hrest⟩
      · rintro ⟨first, a, rest, rfl, hfirst, hrest⟩
        obtain ⟨r, tail, rfl, htail⟩ := runs_call_iff.mp hfirst
        exact ⟨r, tail ++ rest, rfl, (ih r).mpr ⟨tail, a, rest, rfl, htail, hrest⟩⟩

/-- The first part fails and that is all, or both are run. -/
theorem runs_andThen_iff {p : Prog C R (Except ε α)} {f : α → Prog C R (Except ε β)}
    {tr : List (Event C R)} {result : Except ε β} :
    Runs (p.andThen f) tr result
      ↔ (∃ e, Runs p tr (.error e) ∧ result = .error e) ∨
        ∃ first a rest, tr = first ++ rest ∧ Runs p first (.ok a) ∧ Runs (f a) rest result := by
  unfold Prog.andThen
  rw [runs_bind_iff]
  constructor
  · rintro ⟨first, outcome, rest, rfl, hfirst, hrest⟩
    cases outcome with
    | error e =>
        obtain ⟨rfl, rfl⟩ := runs_ret_iff.mp hrest
        rw [List.append_nil]
        exact .inl ⟨e, hfirst, rfl⟩
    | ok a => exact .inr ⟨first, a, rest, rfl, hfirst, hrest⟩
  · rintro (⟨e, hfirst, rfl⟩ | ⟨first, a, rest, rfl, hfirst, hrest⟩)
    · exact ⟨tr, .error e, [], (List.append_nil tr).symm, hfirst, .ret _⟩
    · exact ⟨first, .ok a, rest, rfl, hfirst, hrest⟩

/-! ## §3. Protocols. -/

/-- What a client must keep to.  `V` is its view of its own past; the time of
an answer is part of what the view may keep. -/
structure Protocol (C : Type u) (R : C → Type v) (V : Type*) where
  allowed : V → C → Prop
  after : ℕ → V → (c : C) → R c → V

variable {V : Type*} {P : Protocol C R V}

/-- Every call of the program is allowed, and its result meets `Q`. -/
def Obeys (P : Protocol C R V) (Q : V → α → Prop) : V → Prog C R α → Prop
  | v, .ret a => Q v a
  | v, .call c next => P.allowed v c ∧ ∀ t r, Obeys P Q (P.after t v c r) (next r)

@[simp] theorem obeys_ret {Q : V → α → Prop} {v : V} {a : α} :
    Obeys P Q v (.ret a) ↔ Q v a := Iff.rfl

@[simp] theorem obeys_call {Q : V → α → Prop} {v : V} {c : C} {next : R c → Prog C R α} :
    Obeys P Q v (.call c next)
      ↔ P.allowed v c ∧ ∀ t r, Obeys P Q (P.after t v c r) (next r) := Iff.rfl

/-- A weaker postcondition. -/
theorem Obeys.mono {Q Q' : V → α → Prop} {p : Prog C R α} :
    ∀ {v : V}, Obeys P Q v p → (∀ v a, Q v a → Q' v a) → Obeys P Q' v p := by
  induction p with
  | ret a =>
      intro v h hQ
      exact hQ v a h
  | call c next ih =>
      intro v h hQ
      exact ⟨h.1, fun t r => ih r (h.2 t r) hQ⟩

/-- Sequential composition. -/
theorem obeys_bind {Q : V → α → Prop} {Q' : V → β → Prop} {f : α → Prog C R β} :
    ∀ {p : Prog C R α} {v : V}, Obeys P Q v p → (∀ v a, Q v a → Obeys P Q' v (f a)) →
      Obeys P Q' v (p.bind f) := by
  intro p
  induction p with
  | ret a =>
      intro v h hf
      exact hf v a h
  | call c next ih =>
      intro v h hf
      exact ⟨h.1, fun t r => ih r (h.2 t r) hf⟩

/-- Composition where a failure ends the program. -/
theorem obeys_andThen {Q : V → Except ε α → Prop} {Q' : V → Except ε β → Prop}
    {p : Prog C R (Except ε α)} {f : α → Prog C R (Except ε β)} {v : V} (h : Obeys P Q v p)
    (hok : ∀ v a, Q v (.ok a) → Obeys P Q' v (f a))
    (herror : ∀ v e, Q v (.error e) → Q' v (.error e)) : Obeys P Q' v (p.andThen f) := by
  apply obeys_bind h
  intro v result hresult
  cases result with
  | ok a => exact hok v a hresult
  | error e => exact herror v e hresult

/-! ## §4. The length of a program. -/

/-- Whatever is answered, no more than so many calls are made. -/
def Prog.Within : ℕ → Prog C R α → Prop
  | _, .ret _ => True
  | 0, .call _ _ => False
  | n + 1, .call _ next => ∀ r, Within n (next r)

namespace Prog

theorem within_ret (n : ℕ) (a : α) : (ret a : Prog C R α).Within n := by
  cases n <;> exact trivial

theorem Within.succ {p : Prog C R α} : ∀ {n : ℕ}, p.Within n → p.Within (n + 1) := by
  induction p with
  | ret a =>
      intro n _
      exact within_ret _ a
  | call c next ih =>
      intro n h
      cases n with
      | zero => exact absurd h id
      | succ n => exact fun r => ih r (h r)

theorem Within.mono {p : Prog C R α} {n m : ℕ} (h : p.Within n) (hnm : n ≤ m) : p.Within m := by
  induction hnm with
  | refl => exact h
  | step _ ih => exact ih.succ

theorem within_bind {f : α → Prog C R β} {m : ℕ} (hf : ∀ a, (f a).Within m) {p : Prog C R α} :
    ∀ {n : ℕ}, p.Within n → (p.bind f).Within (n + m) := by
  induction p with
  | ret a =>
      intro n _
      exact (hf a).mono (by omega)
  | call c next ih =>
      intro n h
      cases n with
      | zero => exact absurd h id
      | succ n =>
          rw [Nat.succ_add]
          exact fun r => ih r (h r)

theorem within_andThen {f : α → Prog C R (Except ε β)} {m : ℕ} (hf : ∀ a, (f a).Within m)
    {p : Prog C R (Except ε α)} {n : ℕ} (h : p.Within n) : (p.andThen f).Within (n + m) := by
  refine within_bind (fun result => ?_) h
  cases result with
  | ok a => exact hf a
  | error e => exact within_ret _ _

end Prog

/-! ## §5. Programs over a shared world. -/

/-- A world that serves the calls of the clients `ι` and changes by itself.
The choice settles what the world is free to do. -/
structure Network (C : Type u) (R : C → Type v) (ι W Choice Noise : Type*) where
  serve : W → ι → (c : C) → Choice → Option (R c × W)
  drift : W → Noise → Option W

namespace Network

/-- The world, what is left of each program, and the view of each client. -/
structure State (C : Type u) (R : C → Type v) (α : Type w) (ι W V : Type*) where
  clock : ℕ
  world : W
  code : ι → Prog C R α
  view : ι → V

/-- A client's pending call is served, or the world changes by itself. -/
inductive Act (ι Choice Noise : Type*) where
  | go (i : ι) (choice : Choice)
  | drift (noise : Noise)

variable {ι W Choice Noise : Type*} [DecidableEq ι]

/-- One step of the whole system. -/
def step (net : Network C R ι W Choice Noise) (P : ι → Protocol C R V)
    (s : State C R α ι W V) : Act ι Choice Noise → Option (State C R α ι W V)
  | .go i choice =>
      match s.code i with
      | .ret _ => none
      | .call c next =>
          (net.serve s.world i c choice).map fun answered =>
            { clock := s.clock + 1
              world := answered.2
              code := Function.update s.code i (next answered.1)
              view := Function.update s.view i
                ((P i).after s.clock (s.view i) c answered.1) }
  | .drift noise =>
      (net.drift s.world noise).map fun w => { s with clock := s.clock + 1, world := w }

/-- The programs `code` started in the world `w₀` with the views `v₀`. -/
def system (net : Network C R ι W Choice Noise) (P : ι → Protocol C R V) (w₀ : W)
    (code : ι → Prog C R α) (v₀ : ι → V) :
    Transitions.System (State C R α ι W V) (Act ι Choice Noise) where
  init s := s = { clock := 0, world := w₀, code := code, view := v₀ }
  step := net.step P

variable {net : Network C R ι W Choice Noise} {P : ι → Protocol C R V}

/-- What a served call does. -/
theorem step_go {s s' : State C R α ι W V} {i : ι} {choice : Choice}
    (h : net.step P s (.go i choice) = some s') :
    ∃ c next r w, s.code i = .call c next ∧ net.serve s.world i c choice = some (r, w) ∧
      s' = { clock := s.clock + 1, world := w, code := Function.update s.code i (next r),
             view := Function.update s.view i ((P i).after s.clock (s.view i) c r) } := by
  cases hcode : s.code i with
  | ret a =>
      rw [step, hcode] at h
      exact absurd h (by simp)
  | call c next =>
      rw [step, hcode] at h
      obtain ⟨⟨r, w⟩, hserve, heq⟩ := Option.map_eq_some_iff.mp h
      exact ⟨c, next, r, w, rfl, hserve, heq.symm⟩

/-- A pending call that is served. -/
theorem go_step {s : State C R α ι W V} {i : ι} {choice : Choice} {c : C} {next : R c → Prog C R α}
    {r : R c} {w : W} (hcode : s.code i = .call c next)
    (hserve : net.serve s.world i c choice = some (r, w)) :
    net.step P s (.go i choice)
      = some { clock := s.clock + 1, world := w, code := Function.update s.code i (next r),
               view := Function.update s.view i ((P i).after s.clock (s.view i) c r) } := by
  rw [step]
  simp only [hcode, hserve]
  rfl

/-- **Interleaving.**  Clients that obey their protocols keep a fact about the
world and the views that every allowed call keeps, and go on obeying. -/
theorem invariant {w₀ : W} {code : ι → Prog C R α} {v₀ : ι → V}
    {cond : State C R α ι W V → Act ι Choice Noise → Prop} {J : ℕ → W → (ι → V) → Prop}
    {Q : ι → V → α → Prop} (hobeys : ∀ i, Obeys (P i) (Q i) (v₀ i) (code i))
    (hinit : J 0 w₀ v₀)
    (hserve : ∀ (s : State C R α ι W V) i choice c next r w, s.code i = .call c next →
      cond s (.go i choice) → J s.clock s.world s.view → (P i).allowed (s.view i) c →
      net.serve s.world i c choice = some (r, w) →
      J (s.clock + 1) w (Function.update s.view i ((P i).after s.clock (s.view i) c r)))
    (hdrift : ∀ (s : State C R α ι W V) noise w, cond s (.drift noise) →
      J s.clock s.world s.view → net.drift s.world noise = some w →
      J (s.clock + 1) w s.view)
    {s : State C R α ι W V} (h : (net.system P w₀ code v₀).ReachableBy cond s) :
    J s.clock s.world s.view ∧ ∀ i, Obeys (P i) (Q i) (s.view i) (s.code i) := by
  apply h.invariant
    (I := fun s => J s.clock s.world s.view ∧ ∀ i, Obeys (P i) (Q i) (s.view i) (s.code i))
  · intro s hs
    rw [hs]
    exact ⟨hinit, hobeys⟩
  · intro s a s' ⟨hJ, hcode⟩ hcond hstep
    cases a with
    | go i choice =>
        obtain ⟨c, next, r, w, hc, hserved, rfl⟩ := step_go hstep
        have hi := hcode i
        rw [hc, obeys_call] at hi
        refine ⟨hserve s i choice c next r w hc hcond hJ hi.1 hserved, fun j => ?_⟩
        by_cases hji : j = i
        · rw [hji]
          simp only [Function.update_self]
          exact hi.2 s.clock r
        · simp only [Function.update_of_ne hji]
          exact hcode j
    | drift noise =>
        obtain ⟨w, hw, rfl⟩ := Option.map_eq_some_iff.mp hstep
        exact ⟨hdrift s noise w hcond hJ hw, hcode⟩

/-- No program gets longer than it was. -/
theorem within {w₀ : W} {code : ι → Prog C R α} {v₀ : ι → V}
    {cond : State C R α ι W V → Act ι Choice Noise → Prop} {n : ι → ℕ}
    (hn : ∀ i, (code i).Within (n i)) {s : State C R α ι W V}
    (h : (net.system P w₀ code v₀).ReachableBy cond s) : ∀ i, (s.code i).Within (n i) := by
  apply h.invariant (I := fun s => ∀ i, (s.code i).Within (n i))
  · intro s hs
    rw [hs]
    exact hn
  · intro s a s' hI _ hstep
    cases a with
    | drift noise =>
        obtain ⟨w, hw, rfl⟩ := Option.map_eq_some_iff.mp hstep
        exact hI
    | go i choice =>
        obtain ⟨c, next, r, w, hc, -, rfl⟩ := step_go hstep
        intro j
        by_cases hji : j = i
        · have hi := hI i
          rw [hc] at hi
          rw [hji]
          simp only [Function.update_self]
          cases hn' : n i with
          | zero =>
              rw [hn'] at hi
              exact absurd hi id
          | succ m =>
              rw [hn'] at hi
              exact (hi r).succ
        · simp only [Function.update_of_ne hji]
          exact hI j

/-- Where somebody can always go on, all programs can be brought to an end. -/
theorem finishes [Fintype ι] {w₀ : W} {code : ι → Prog C R α} {v₀ : ι → V}
    {Good : State C R α ι W V → Prop} {cond : State C R α ι W V → Act ι Choice Noise → Prop}
    (hprogress : ∀ s, Good s → ∀ i c next, s.code i = .call c next → ∃ j choice s',
      cond s (.go j choice) ∧ net.step P s (.go j choice) = some s' ∧ Good s') :
    ∀ (m : ℕ) (n : ι → ℕ) (s : State C R α ι W V), ∑ i, n i = m → Good s →
      (∀ i, (s.code i).Within (n i)) → ∃ acts s', (net.system P w₀ code v₀).run s acts = some s' ∧
        (net.system P w₀ code v₀).Along cond s acts ∧ Good s' ∧
        (∀ i, ∃ a, s'.code i = .ret a) ∧ acts.length ≤ m := by
  intro m
  induction m with
  | zero =>
      intro n s hm hgood hwithin
      refine ⟨[], s, rfl, trivial, hgood, fun i => ?_, le_refl _⟩
      have hi := hwithin i
      -- no call is left to anybody, so every program has returned
      rw [Finset.sum_eq_zero_iff.mp hm i (Finset.mem_univ i)] at hi
      cases hcode : s.code i with
      | ret a => exact ⟨a, rfl⟩
      | call c next =>
          rw [hcode] at hi
          exact absurd hi id
  | succ m ih =>
      intro n s hm hgood hwithin
      by_cases hdone : ∀ i, ∃ a, s.code i = .ret a
      · exact ⟨[], s, rfl, trivial, hgood, hdone, Nat.zero_le _⟩
      · -- somebody is not done, so somebody goes on
        obtain ⟨i, hi⟩ := not_forall.mp hdone
        cases hcode : s.code i with
        | ret a => exact absurd ⟨a, hcode⟩ hi
        | call c next =>
            obtain ⟨j, choice, s₁, hcond, hstep, hgood₁⟩ := hprogress s hgood i c next hcode
            -- the one who goes on need not be the one who is not done
            obtain ⟨c', next', r, w, hc', -, heq⟩ := step_go hstep
            have hj := hwithin j
            rw [hc'] at hj
            cases hnj : n j with
            | zero =>
                rw [hnj] at hj
                exact absurd hj id
            | succ k =>
                rw [hnj] at hj
                -- one call less for `j`, and as many as before for the others
                have hsum : ∑ i, Function.update n j k i = m := by
                  have hsplit := Finset.add_sum_erase Finset.univ n (Finset.mem_univ j)
                  rw [Finset.sum_update_of_mem (Finset.mem_univ j), Finset.sdiff_singleton_eq_erase]
                  omega
                obtain ⟨acts, s', hrun, halong, hgood', hall, hlength⟩ :=
                  ih (Function.update n j k) s₁ hsum hgood₁ (by
                    intro l
                    rw [heq]
                    by_cases hlj : l = j
                    · rw [hlj]
                      simp only [Function.update_self]
                      exact hj r
                    · simp only [Function.update_of_ne hlj]
                      exact hwithin l)
                refine ⟨.go j choice :: acts, s', ?_, ⟨hcond, fun s₂ hs₂ => ?_⟩, hgood', hall, ?_⟩
                · show (net.step P s (.go j choice)).bind _ = some s'
                  rw [hstep]
                  exact hrun
                · have hsame : (net.system P w₀ code v₀).step s (.go j choice) = some s₁ := hstep
                  rw [hsame] at hs₂
                  cases hs₂
                  exact halong
                · simp only [List.length_cons]
                  omega

end Network

end Interaction
