/-
  ClipTown.Locks.Custody — what the authority and the database have, against
  what their clients believe.

  A client may believe to hold what is gone: its connection was lost, its lease
  lapsed.  HOLDING is what it truly has.  The two invariants below say that a
  key has one such holder at a time, and that of two clients that gave it back
  one had it before the other.

    • `LeaseInv`, with `lose`, `take` and `give` — the lease authority,
    • `PgInv`, with `failed`, `served`, `connected` and `givenBack` — the database.
-/
import ClipTown.Lib.Tenures
import ClipTown.Locks.Environment
import ClipTown.Locks.Protocol

namespace ClipTown.Locks

open Interaction Tenures

variable {ι : Type*}

/-- What is the same for the new value as for the old one is the same everywhere. -/
theorem update_same {α β : Type*} [DecidableEq ι] (f : α → β) {view : ι → α} {i : ι} {v : α}
    (hv : f v = f (view i)) (j : ι) : f (Function.update view i v j) = f (view j) := by
  by_cases hji : j = i
  · rw [hji, Function.update_self, hv]
  · rw [Function.update_of_ne hji]

/-! ## §1. The lease authority. -/

/-- Since when the grant of the view is the one the authority has. -/
def LeaseWorld.holding (w : LeaseWorld) (v : LeaseView) : Option ℕ :=
  match v.grant with
  | some (g, t) => if w.matched g then some t else none
  | none => none

theorem LeaseWorld.holding_eq_some {w : LeaseWorld} {v : LeaseView} {t : ℕ} :
    w.holding v = some t
      ↔ ∃ g, v.grant = some (g, t) ∧ w.current g.key = some (g.holder, g.fencingToken) := by
  unfold holding matched
  cases hgrant : v.grant with
  | none => simp
  | some granted =>
      obtain ⟨g, since⟩ := granted
      simp only [decide_eq_true_eq]
      constructor
      · intro h
        split at h
        · rename_i hmatched
          cases h
          exact ⟨g, rfl, hmatched⟩
        · cases h
      · rintro ⟨g', hg', hmatched⟩
        cases hg'
        rw [if_pos hmatched]

/-- No token is above the last one minted for its key, two clients of one key
have different ones, and one of them at most is current. -/
structure LeaseInv (key : ι → LockKey) (clock : ℕ) (w : LeaseWorld) (view : ι → LeaseView) :
    Prop where
  granted : ∀ {i g t}, (view i).grant = some (g, t) →
    g.key = key i ∧ g.fencingToken ≤ w.minted (key i)
  current : ∀ {k holder token}, w.current k = some (holder, token) → token ≤ w.minted k
  apart : ∀ {i j g g' t t'}, i ≠ j → key i = key j → (view i).grant = some (g, t) →
    (view j).grant = some (g', t') → g.fencingToken ≠ g'.fencingToken
  exclusive : Exclusive key clock (fun i => w.holding (view i)) fun i => (view i).tenure

namespace LeaseInv

variable {key : ι → LockKey} {clock : ℕ} {w w' : LeaseWorld} {view view' : ι → LeaseView}

theorem start (key : ι → LockKey) :
    LeaseInv key 0 World.start.lease fun _ => LeaseView.start where
  granted h := absurd h (by simp [LeaseView.start])
  current h := absurd h (by simp [World.start])
  apart _ _ h := absurd h (by simp [LeaseView.start])
  exclusive := Exclusive.start key

/-- Grants are forgotten, revoked or made for nobody. -/
theorem lose (h : LeaseInv key clock w view) (hminted : ∀ k, w.minted k ≤ w'.minted k)
    (hcurrent : ∀ k holder token, w'.current k = some (holder, token) →
      w.current k = some (holder, token) ∨ w.minted k < token ∧ token ≤ w'.minted k)
    (hview : ∀ i granted, (view' i).grant = some granted → (view i).grant = some granted)
    (htenure : ∀ i, (view' i).tenure = (view i).tenure) :
    LeaseInv key (clock + 1) w' view' where
  granted hi := by
    obtain ⟨hkey, hle⟩ := h.granted (hview _ _ hi)
    exact ⟨hkey, hle.trans (hminted _)⟩
  current hk := by
    rcases hcurrent _ _ _ hk with hold | ⟨-, hle⟩
    · exact (h.current hold).trans (hminted _)
    · exact hle
  apart hne hkey hi hj := h.apart hne hkey (hview _ _ hi) (hview _ _ hj)
  exclusive := by
    simp only [htenure]
    apply h.exclusive.lose
    intro i t ht
    obtain ⟨g, hg, hmatched⟩ := LeaseWorld.holding_eq_some.mp ht
    rcases hcurrent _ _ _ hmatched with hold | ⟨hlt, -⟩
    · exact LeaseWorld.holding_eq_some.mpr ⟨g, hview _ _ hg, hold⟩
    · -- a token minted after this grant is not its token
      obtain ⟨hkey, hle⟩ := h.granted (hview _ _ hg)
      rw [hkey] at hlt
      omega

theorem tick (h : LeaseInv key clock w view) : LeaseInv key (clock + 1) w view :=
  h.lose (fun _ => le_refl _) (fun _ _ _ hk => .inl hk) (fun _ _ hg => hg) fun _ => rfl

/-- A lease lapses. -/
theorem free (h : LeaseInv key clock w view) (k : LockKey)
    (hview : ∀ i granted, (view' i).grant = some granted → (view i).grant = some granted)
    (htenure : ∀ i, (view' i).tenure = (view i).tenure) :
    LeaseInv key (clock + 1) (w.free k) view' := by
  have hminted : ∀ k', w.minted k' ≤ (w.free k).minted k' := fun _ => le_refl _
  refine h.lose hminted (fun k' holder token hk => ?_) hview htenure
  unfold LeaseWorld.free at hk
  by_cases hkk : k' = k
  · simp only [hkk, Function.update_self] at hk
    cases hk
  · simp only [Function.update_of_ne hkk] at hk
    exact .inl hk

/-- The answer to a grant is lost: nobody believes in it. -/
theorem grantLost (h : LeaseInv key clock w view) {k : LockKey} {holder : String} {token : ℕ}
    (hw : w.grant k holder token = some w') : LeaseInv key (clock + 1) w' view := by
  unfold LeaseWorld.grant at hw
  split at hw
  · rename_i hfree
    cases hw
    refine h.lose (fun k' => ?_) (fun k' holder' token' hk => ?_) (fun _ _ hg => hg) fun _ => rfl
    · show w.minted k' ≤ Function.update w.minted k token k'
      by_cases hkk : k' = k
      · rw [hkk, Function.update_self]
        omega
      · rw [Function.update_of_ne hkk]
    · by_cases hkk : k' = k
      · simp only [hkk, Function.update_self] at hk ⊢
        cases hk
        exact .inr ⟨hfree.2, le_refl _⟩
      · simp only [Function.update_of_ne hkk] at hk
        exact .inl hk
  · cases hw

variable [DecidableEq ι]

/-- The client `i` is granted its lease. -/
theorem take (h : LeaseInv key clock w view) {i : ι} {g : LeaseGrant} (hkey : g.key = key i)
    (hw : w.grant (key i) g.holder g.fencingToken = some w') :
    LeaseInv key (clock + 1) w'
      (Function.update view i { (view i) with grant := some (g, clock) }) := by
  unfold LeaseWorld.grant at hw
  split at hw
  · rename_i hfree
    -- the key is free, and the new token is above every token minted for it
    obtain ⟨hnone, hlt⟩ := hfree
    cases hw
    have htoken : ∀ j, j ≠ i → key j = key i → ∀ g' t, (view j).grant = some (g', t) →
        g'.fencingToken < g.fencingToken := by
      intro j hj hkeys g' t hg'
      have hle := (h.granted hg').2
      rw [hkeys] at hle
      omega
    have hminted : ∀ k, w.minted k
        ≤ Function.update w.minted (key i) g.fencingToken k := by
      intro k
      by_cases hk : k = key i
      · rw [hk, Function.update_self]
        omega
      · rw [Function.update_of_ne hk]
    constructor
    · intro j g' t hj
      by_cases hji : j = i
      · rw [hji] at hj ⊢
        rw [Function.update_self] at hj
        cases hj
        refine ⟨hkey, ?_⟩
        simp only [Function.update_self]
        exact le_refl _
      · rw [Function.update_of_ne hji] at hj
        obtain ⟨hkey', hle⟩ := h.granted hj
        exact ⟨hkey', hle.trans (hminted _)⟩
    · intro k holder token hk
      show token ≤ Function.update w.minted (key i) g.fencingToken k
      by_cases hki : k = key i
      · simp only [hki, Function.update_self] at hk ⊢
        cases hk
        exact le_refl _
      · simp only [Function.update_of_ne hki] at hk ⊢
        exact h.current hk
    · intro j k g' g'' t t' hne hkeys hj hk
      by_cases hji : j = i
      · rw [hji] at hne hkeys hj
        rw [Function.update_self] at hj
        rw [Function.update_of_ne (Ne.symm hne)] at hk
        cases hj
        have hlt' := htoken k (Ne.symm hne) hkeys.symm _ _ hk
        omega
      · rw [Function.update_of_ne hji] at hj
        by_cases hki : k = i
        · rw [hki] at hkeys hk
          rw [Function.update_self] at hk
          cases hk
          have hlt' := htoken j hji hkeys _ _ hj
          omega
        · rw [Function.update_of_ne hki] at hk
          exact h.apart hne hkeys hj hk
    · have htenure : ∀ j, (Function.update view i
          { (view i) with grant := some (g, clock) } j).tenure = (view j).tenure :=
        update_same LeaseView.tenure rfl
      simp only [htenure]
      -- whoever holds the key now is `i`; before, nobody did
      apply h.exclusive.take (i := i)
      · intro j t hj
        obtain ⟨g', hg', hmatched⟩ := LeaseWorld.holding_eq_some.mp hj
        by_cases hji : j = i
        · rw [hji, Function.update_self] at hg'
          cases hg'
          exact .inl ⟨hji, rfl⟩
        · rw [Function.update_of_ne hji] at hg'
          refine .inr ⟨hji, LeaseWorld.holding_eq_some.mpr ⟨g', hg', ?_⟩⟩
          have hkey' := (h.granted hg').1
          by_cases hkeys : key j = key i
          · -- the current token of this key is the new one
            simp only [hkey', hkeys, Function.update_self, Option.some.injEq,
              Prod.mk.injEq] at hmatched
            have hlt' := htoken j hji hkeys _ _ hg'
            omega
          · rw [← hkey'] at hkeys
            simp only [Function.update_of_ne hkeys] at hmatched
            exact hmatched
      · intro j t hji hkeys hj
        obtain ⟨g', hg', hmatched⟩ := LeaseWorld.holding_eq_some.mp hj
        rw [(h.granted hg').1, hkeys, hnone] at hmatched
        cases hmatched
  · cases hw

/-- The client `i` gives back a grant that is current. -/
theorem give (h : LeaseInv key clock w view) {i : ι} {g : LeaseGrant} {since : ℕ}
    (hi : (view i).grant = some (g, since)) (hmatched : w.matched g = true) :
    LeaseInv key (clock + 1) (w.free g.key)
      (Function.update view i { grant := none, tenure := some (since, clock) }) := by
  have hview : ∀ j granted,
      (Function.update view i { grant := none, tenure := some (since, clock) } j).grant
        = some granted → j ≠ i ∧ (view j).grant = some granted := by
    intro j granted hj
    by_cases hji : j = i
    · rw [hji, Function.update_self] at hj
      cases hj
    · rw [Function.update_of_ne hji] at hj
      exact ⟨hji, hj⟩
  have hfree : ∀ k x, (w.free g.key).current k = some x → w.current k = some x := by
    intro k x hk
    unfold LeaseWorld.free at hk
    by_cases hkg : k = g.key
    · simp only [hkg, Function.update_self] at hk
      cases hk
    · simp only [Function.update_of_ne hkg] at hk
      exact hk
  -- nobody believes in more than before, and the authority has no more than before
  refine ⟨fun hj => h.granted (hview _ _ hj).2, fun hk => h.current (hfree _ _ hk),
    fun hne hkeys hj hk => h.apart hne hkeys (hview _ _ hj).2 (hview _ _ hk).2, ?_⟩
  have htenure : (fun j =>
      (Function.update view i { grant := none, tenure := some (since, clock) } j).tenure)
        = Function.update (fun j => (view j).tenure) i (some (since, clock)) :=
    funext (Function.apply_update (fun _ => LeaseView.tenure) view i _)
  rw [htenure]
  apply h.exclusive.give (i := i)
    (LeaseWorld.holding_eq_some.mpr ⟨g, hi, of_decide_eq_true hmatched⟩)
  intro j t hj
  obtain ⟨g', hg', hmatched'⟩ := LeaseWorld.holding_eq_some.mp hj
  obtain ⟨hji, hg'⟩ := hview _ _ hg'
  exact ⟨hji, LeaseWorld.holding_eq_some.mpr ⟨g', hg', hfree _ _ hmatched'⟩⟩

/-- The client `i` forgets its grant, and the authority may. -/
theorem forget (h : LeaseInv key clock w view) (i : ι) (g : LeaseGrant) (reached : Bool) :
    LeaseInv key (clock + 1) (if reached then (w.release g).2 else w)
      (Function.update view i { (view i) with grant := none }) := by
  have hview : ∀ j granted, (Function.update view i { (view i) with grant := none } j).grant
      = some granted → (view j).grant = some granted := by
    intro j granted hj
    by_cases hji : j = i
    · rw [hji, Function.update_self] at hj
      cases hj
    · rw [Function.update_of_ne hji] at hj
      exact hj
  have htenure : ∀ j, (Function.update view i { (view i) with grant := none } j).tenure
      = (view j).tenure := update_same LeaseView.tenure rfl
  have hsame : LeaseInv key (clock + 1) w
      (Function.update view i { (view i) with grant := none }) :=
    h.lose (fun _ => le_refl _) (fun _ _ _ hk => .inl hk) hview htenure
  cases reached with
  | false => exact hsame
  | true =>
      show LeaseInv key (clock + 1) (w.release g).2 _
      unfold LeaseWorld.release
      split
      · exact h.free g.key hview htenure
      · exact hsame

end LeaseInv

/-! ## §2. The database. -/

/-- Since when the session has the lock of the view; a closed session has none. -/
def Session.holding (s : Session) (v : PgView) : Option ℕ :=
  if s.alive then v.lock.map Prod.snd else none

theorem Session.holding_eq_some {s : Session} {v : PgView} {t : ℕ} :
    s.holding v = some t ↔ s.alive = true ∧ ∃ scope, v.lock = some (scope, t) := by
  unfold holding
  by_cases halive : s.alive = true
  · rw [if_pos halive, Option.map_eq_some_iff]
    constructor
    · rintro ⟨⟨scope, since⟩, hlock, rfl⟩
      exact ⟨halive, scope, hlock⟩
    · rintro ⟨-, scope, hlock⟩
      exact ⟨(scope, t), hlock, rfl⟩
  · rw [if_neg halive]
    constructor
    · intro h
      cases h
    · intro h
      exact absurd h.1 halive

/-- Since when the connection of the view truly has its lock. -/
def PgWorld.holding (w : PgWorld) (v : PgView) : Option ℕ :=
  v.client.bind fun client => (w.sessions client).holding v

theorem PgWorld.holding_eq {w : PgWorld} {v : PgView} {client : Client}
    (h : v.client = some client) : w.holding v = (w.sessions client).holding v := by
  unfold holding
  rw [h]
  rfl

theorem PgWorld.holding_eq_some {w : PgWorld} {v : PgView} {t : ℕ} :
    w.holding v = some t ↔ ∃ client scope, v.client = some client ∧ v.lock = some (scope, t) ∧
      (w.sessions client).alive = true := by
  unfold holding
  rw [Option.bind_eq_some_iff]
  constructor
  · rintro ⟨client, hclient, ht⟩
    obtain ⟨halive, scope, hlock⟩ := Session.holding_eq_some.mp ht
    exact ⟨client, scope, hclient, hlock, halive⟩
  · rintro ⟨client, scope, hclient, hlock, halive⟩
    exact ⟨client, hclient, Session.holding_eq_some.mpr ⟨halive, scope, hlock⟩⟩

/-- What the view says of its session is so. -/
structure PgView.Backed (v : PgView) (key : ℤ) (s : Session) : Prop where
  inTx : v.inTx = true → v.dirty = false → s.inTx = true
  xact : ∀ {t}, v.lock = some (.transaction, t) → key ∈ s.xact
  sess : ∀ {t}, v.lock = some (.session, t) → key ∈ s.sess

theorem PgView.Backed.mem_locks {v : PgView} {key : ℤ} {s : Session} {scope : PgScope} {t : ℕ}
    (h : v.Backed key s) (hlock : v.lock = some (scope, t)) : key ∈ s.locks := by
  unfold Session.locks
  cases scope with
  | transaction => exact List.mem_append_left _ (h.xact hlock)
  | session => exact List.mem_append_right _ (h.sess hlock)

/-- A connection is idle or with one client, what a view says of a living
session is so, and one of the clients of an advisory key holds it at most. -/
structure PgInv (key : ι → ℤ) (clock : ℕ) (w : PgWorld) (view : ι → PgView) : Prop where
  owned : ∀ {i c}, (view i).client = some c → c < w.opened ∧ c ∉ w.idle
  apart : ∀ {i j c}, (view i).client = some c → (view j).client = some c → i = j
  idle_lt : ∀ {c}, c ∈ w.idle → c < w.opened
  idle_nodup : w.idle.Nodup
  backed : ∀ {i c}, (view i).client = some c → (w.sessions c).alive = true →
    (view i).Backed (key i) (w.sessions c)
  exclusive : Exclusive key clock (fun i => w.holding (view i)) fun i => (view i).tenure

theorem PgInv.start (key : ι → ℤ) : PgInv key 0 World.start.pg fun _ => PgView.start where
  owned h := absurd h (by simp [PgView.start])
  apart h := absurd h (by simp [PgView.start])
  idle_lt h := absurd h (by simp [World.start])
  idle_nodup := List.nodup_nil
  backed h := absurd h (by simp [PgView.start])
  exclusive := Exclusive.start key

namespace PgInv

variable {key : ι → ℤ} {clock : ℕ} {w : PgWorld} {view : ι → PgView}

/-- A client that truly holds its key keeps every other session from it. -/
theorem heldElsewhere (h : PgInv key clock w view) {i : ι} {c : Client}
    (hi : (view i).client = some c) {j : ι} {t : ℕ} (hji : j ≠ i)
    (hj : w.holding (view j) = some t) : w.heldElsewhere c (key j) = true := by
  obtain ⟨other, scope, hother, hlock, halive⟩ := PgWorld.holding_eq_some.mp hj
  -- two clients never share a connection
  have hne : other ≠ c := by
    intro heq
    rw [heq] at hother
    exact hji (h.apart hother hi)
  unfold PgWorld.heldElsewhere
  rw [List.any_eq_true]
  refine ⟨other, List.mem_range.mpr (h.owned hother).1, ?_⟩
  simp only [Bool.and_eq_true, decide_eq_true_eq]
  exact ⟨hne, (h.backed hother halive).mem_locks hlock⟩

/-- Time passes, and connections may be lost. -/
theorem lose (h : PgInv key clock w view) {sessions : Client → Session}
    (hless : ∀ c, (sessions c).alive = true → sessions c = w.sessions c) :
    PgInv key (clock + 1) { w with sessions } view where
  owned := h.owned
  apart := h.apart
  idle_lt := h.idle_lt
  idle_nodup := h.idle_nodup
  backed hi halive := by
    simp only [hless _ halive] at halive ⊢
    exact h.backed hi halive
  exclusive := by
    apply h.exclusive.lose
    intro i t ht
    obtain ⟨c, scope, hclient, hlock, halive⟩ := PgWorld.holding_eq_some.mp ht
    refine PgWorld.holding_eq_some.mpr ⟨c, scope, hclient, hlock, ?_⟩
    rw [← hless c halive]
    exact halive

theorem tick (h : PgInv key clock w view) : PgInv key (clock + 1) w view := by
  have hsame := h.lose (w := w) fun _ _ => rfl
  exact hsame

variable [DecidableEq ι]

/-- The session of the client `i` changes, and its view with it. -/
theorem session (h : PgInv key clock w view) {i : ι} {c : Client} {v : PgView} {s : Session}
    (hi : (view i).client = some c) (hv : v.client = some c)
    (hbacked : s.alive = true → v.Backed (key i) s)
    (hexclusive : Exclusive key (clock + 1)
      (fun j => (w.set c s).holding (Function.update view i v j))
      fun j => (Function.update view i v j).tenure) :
    PgInv key (clock + 1) (w.set c s) (Function.update view i v) where
  owned := by
    intro j c' hj
    by_cases hji : j = i
    · rw [hji, Function.update_self, hv] at hj
      cases hj
      exact h.owned hi
    · rw [Function.update_of_ne hji] at hj
      exact h.owned hj
  apart := by
    intro j k c' hj hk
    have hold : ∀ l, (Function.update view i v l).client = (view l).client :=
      update_same PgView.client (hv.trans hi.symm)
    rw [hold] at hj hk
    exact h.apart hj hk
  idle_lt := h.idle_lt
  idle_nodup := h.idle_nodup
  backed := by
    intro j c' hj halive
    by_cases hji : j = i
    · rw [hji] at hj ⊢
      rw [Function.update_self] at hj ⊢
      rw [hv] at hj
      cases hj
      simp only [PgWorld.set, Function.update_self] at halive ⊢
      exact hbacked halive
    · rw [Function.update_of_ne hji] at hj ⊢
      -- the connection of another client is another connection
      have hne : c' ≠ c := by
        intro heq
        rw [heq] at hj
        exact hji (h.apart hj hi)
      simp only [PgWorld.set, Function.update_of_ne hne] at halive ⊢
      exact h.backed hj halive
  exclusive := hexclusive

/-- What the others hold while the session of `i` changes. -/
theorem holding_other (h : PgInv key clock w view) {i j : ι} {c : Client} (v : PgView) (s : Session)
    (hi : (view i).client = some c) (hji : j ≠ i) :
    (w.set c s).holding (Function.update view i v j) = w.holding (view j) := by
  rw [Function.update_of_ne hji]
  unfold PgWorld.holding PgWorld.set
  cases hj : (view j).client with
  | none => rfl
  | some other =>
      have hne : other ≠ c := by
        intro heq
        rw [heq] at hj
        exact hji (h.apart hj hi)
      simp only [Option.bind_some, Function.update_of_ne hne]

theorem holding_self {i : ι} {c : Client} {v : PgView} (s : Session)
    (hv : v.client = some c) :
    (w.set c s).holding (Function.update view i v i) = s.holding v := by
  rw [Function.update_self, PgWorld.holding_eq hv]
  show (Function.update w.sessions c s c).holding v = s.holding v
  rw [Function.update_self]

/-- A statement that takes no lock and gives none back. -/
theorem session_lose (h : PgInv key clock w view) {i : ι} {c : Client} {v : PgView} {s : Session}
    (hi : (view i).client = some c) (hv : v.client = some c)
    (hbacked : s.alive = true → v.Backed (key i) s) (htenure : v.tenure = (view i).tenure)
    (halive : s.alive = true → (w.sessions c).alive = true)
    (hlock : ∀ l, v.lock = some l → (view i).lock = some l) :
    PgInv key (clock + 1) (w.set c s) (Function.update view i v) := by
  apply h.session hi hv hbacked
  have hsame : ∀ j, (Function.update view i v j).tenure = (view j).tenure :=
    update_same PgView.tenure htenure
  simp only [hsame]
  apply h.exclusive.lose
  intro j t hj
  by_cases hji : j = i
  · rw [hji, holding_self s hv] at hj
    obtain ⟨hs, scope, hl⟩ := Session.holding_eq_some.mp hj
    rw [hji]
    exact PgWorld.holding_eq_some.mpr ⟨c, scope, hi, hlock _ hl, halive hs⟩
  · rw [h.holding_other v s hi hji] at hj
    exact hj

/-- A statement that takes the lock. -/
theorem session_take (h : PgInv key clock w view) {i : ι} {c : Client} {s : Session}
    {scope : PgScope} (hi : (view i).client = some c) (hfree : w.heldElsewhere c (key i) = false)
    (hbacked : s.alive = true →
      { (view i) with lock := some (scope, clock) : PgView }.Backed (key i) s) :
    PgInv key (clock + 1) (w.set c s)
      (Function.update view i { (view i) with lock := some (scope, clock) }) := by
  apply h.session hi (by exact hi) hbacked
  have hsame : ∀ j, (Function.update view i { (view i) with lock := some (scope, clock) } j).tenure
      = (view j).tenure := update_same PgView.tenure rfl
  simp only [hsame]
  apply h.exclusive.take (i := i)
  · intro j t hj
    by_cases hji : j = i
    · rw [hji, holding_self s (by exact hi)] at hj
      obtain ⟨-, scope', hl⟩ := Session.holding_eq_some.mp hj
      cases hl
      exact .inl ⟨hji, rfl⟩
    · rw [h.holding_other _ s hi hji] at hj
      exact .inr ⟨hji, hj⟩
  · intro j t hji hkeys hj
    -- a holder of the key would have made the statement wait
    have hheld := h.heldElsewhere hi hji hj
    rw [hkeys, hfree] at hheld
    cases hheld

/-- A statement that gives the lock back on a living session. -/
theorem session_give (h : PgInv key clock w view) {i : ι} {c : Client} {v : PgView} {s : Session}
    {scope : PgScope} {since : ℕ} (hi : (view i).client = some c) (hv : v.client = some c)
    (halive : (w.sessions c).alive = true) (hlock : (view i).lock = some (scope, since))
    (hbacked : s.alive = true → v.Backed (key i) s) (hnone : v.lock = none)
    (htenure : v.tenure = some (since, clock)) :
    PgInv key (clock + 1) (w.set c s) (Function.update view i v) := by
  apply h.session hi hv hbacked
  have hsame : (fun j => (Function.update view i v j).tenure)
      = Function.update (fun j => (view j).tenure) i (some (since, clock)) := by
    rw [← htenure]
    exact funext (Function.apply_update (fun _ => PgView.tenure) view i v)
  rw [hsame]
  apply h.exclusive.give (i := i)
    (PgWorld.holding_eq_some.mpr ⟨c, scope, hi, hlock, halive⟩)
  intro j t hj
  by_cases hji : j = i
  · rw [hji, holding_self s hv] at hj
    obtain ⟨-, scope', hl⟩ := Session.holding_eq_some.mp hj
    rw [hnone] at hl
    cases hl
  · rw [h.holding_other v s hi hji] at hj
    exact ⟨hji, hj⟩

end PgInv

/-! ## §3. Statements. -/

/-- After an error nothing is believed to be held. -/
theorem after_error {k : LockKey} {v : PgView} {statement : Statement} (t : ℕ) (err : Thrown)
    (h : statement.allowed k v) :
    (v.after t statement (.error err)).tenure = v.tenure ∧
      (v.after t statement (.error err)).lock = none ∧
      ((v.after t statement (.error err)).inTx = true →
        (v.after t statement (.error err)).dirty = true) := by
  cases statement with
  | begin =>
      obtain ⟨htx, hlock, -⟩ := h
      refine ⟨rfl, hlock, fun htx' => ?_⟩
      rw [show v.after t .begin (.error err) = v from rfl, htx] at htx'
      cases htx'
  | advisoryLock k' =>
      obtain ⟨-, htx, hlock, -⟩ := h
      refine ⟨rfl, hlock, fun htx' => ?_⟩
      rw [show v.after t (.advisoryLock k') (.error err) = v from rfl, htx] at htx'
      cases htx'
  | tryAdvisoryLock k' =>
      obtain ⟨-, htx, hlock, -⟩ := h
      refine ⟨rfl, hlock, fun htx' => ?_⟩
      rw [show v.after t (.tryAdvisoryLock k') (.error err) = v from rfl, htx] at htx'
      cases htx'
  | advisoryXactLock k' => exact ⟨rfl, rfl, fun _ => rfl⟩
  | tryAdvisoryXactLock k' => exact ⟨rfl, rfl, fun _ => rfl⟩
  | commit => exact ⟨rfl, rfl, fun _ => rfl⟩
  | rollback => exact ⟨rfl, rfl, fun _ => rfl⟩
  | advisoryUnlock k' => exact ⟨rfl, rfl, fun _ => rfl⟩

/-- Nothing believed is easily true. -/
theorem PgView.Backed.of_none {v : PgView} {key : ℤ} {s : Session} (hlock : v.lock = none)
    (htx : v.inTx = true → v.dirty = true) : v.Backed key s where
  inTx h hdirty := by
    rw [htx h] at hdirty
    cases hdirty
  xact h := by
    rw [hlock] at h
    cases h
  sess h := by
    rw [hlock] at h
    cases h

namespace PgInv

variable [DecidableEq ι] {key : ι → ℤ} {clock : ℕ} {w : PgWorld} {view : ι → PgView}

/-- A statement that failed, whatever it did to the session. -/
theorem failed (h : PgInv key clock w view) {i : ι} {c : Client} {k : LockKey}
    {statement : Statement} {s : Session} (err : Thrown) (hi : (view i).client = some c)
    (hallowed : statement.allowed k (view i))
    (halive : s.alive = true → (w.sessions c).alive = true) :
    PgInv key (clock + 1) (w.set c s)
      (Function.update view i ((view i).after clock statement (.error err))) := by
  -- after an error the client believes in nothing, so there is nothing to back
  obtain ⟨htenure, hlock, htx⟩ := after_error clock err hallowed
  apply h.session_lose hi ((after_client _ _ _ _).trans hi) (fun _ => .of_none hlock htx)
    htenure halive
  intro l hl
  rw [hlock] at hl
  cases hl

/-- A lock statement that got its lock. -/
theorem locked (h : PgInv key clock w view) {i : ι} {c : Client} (scope : PgScope)
    (hi : (view i).client = some c) (hfree : w.heldElsewhere c (key i) = false)
    (halive : (w.sessions c).alive = true)
    (hscope : match scope with
      | .transaction => (view i).inTx = true ∧ (view i).dirty = false
      | .session => (view i).inTx = false) :
    PgInv key (clock + 1)
      (w.set c (match scope with
        | .transaction => (w.sessions c).lockXact (key i)
        | .session => (w.sessions c).lockSession (key i)))
      (Function.update view i { (view i) with lock := some (scope, clock) }) := by
  have hbacked := h.backed hi halive
  apply h.session_take hi hfree
  intro _
  cases scope with
  | transaction =>
      -- outside a transaction the lock would end with the statement
      have htx := hbacked.inTx hscope.1 hscope.2
      show PgView.Backed _ _ ((w.sessions c).lockXact (key i))
      unfold Session.lockXact
      rw [if_pos htx]
      exact ⟨fun _ _ => htx, fun _ => List.mem_cons_self, by rintro t ⟨⟩⟩
  | session =>
      refine ⟨fun htx _ => ?_, by rintro t ⟨⟩, fun _ => List.mem_cons_self⟩
      rw [show (view i).inTx = true from htx] at hscope
      cases hscope

/-- A statement that was served. -/
theorem served (h : PgInv key clock w view) {i : ι} {c : Client} {k : LockKey}
    {statement : Statement} {rows : List Row} {s : Session} (hi : (view i).client = some c)
    (hkey : key i = k.advisory) (hallowed : statement.allowed k (view i))
    (halive : (w.sessions c).alive = true) (hexec : w.execute c statement = some (rows, s)) :
    PgInv key (clock + 1) (w.set c s)
      (Function.update view i ((view i).after clock statement (.ok rows))) := by
  have hbacked := h.backed hi halive
  -- a refused try changes nothing
  have hrefused : PgInv key (clock + 1) (w.set c (w.sessions c))
      (Function.update view i (view i)) :=
    h.session_lose hi hi (fun _ => hbacked) rfl id fun _ hl => hl
  cases statement with
  | begin =>
      cases hexec
      refine h.session_lose hi hi (fun _ => ⟨fun _ _ => rfl, ?_, ?_⟩) rfl id fun _ hl => hl
      · exact hbacked.xact
      · exact hbacked.sess
  | advisoryXactLock k' =>
      obtain ⟨hk', htx, -, hdirty, -⟩ := hallowed
      simp only [PgWorld.execute] at hexec
      rw [hk', ← hkey] at hexec
      split at hexec
      · cases hexec
      · rename_i hfree
        cases hexec
        exact h.locked .transaction hi (Bool.eq_false_iff.mpr hfree) halive ⟨htx, hdirty⟩
  | tryAdvisoryXactLock k' =>
      obtain ⟨hk', htx, -, hdirty, -⟩ := hallowed
      simp only [PgWorld.execute] at hexec
      rw [hk', ← hkey] at hexec
      split at hexec
      · cases hexec
        exact hrefused
      · rename_i hfree
        cases hexec
        exact h.locked .transaction hi (Bool.eq_false_iff.mpr hfree) halive ⟨htx, hdirty⟩
  | advisoryLock k' =>
      obtain ⟨hk', htx, -⟩ := hallowed
      simp only [PgWorld.execute] at hexec
      rw [hk', ← hkey] at hexec
      split at hexec
      · cases hexec
      · rename_i hfree
        cases hexec
        exact h.locked .session hi (Bool.eq_false_iff.mpr hfree) halive htx
  | tryAdvisoryLock k' =>
      obtain ⟨hk', htx, -⟩ := hallowed
      simp only [PgWorld.execute] at hexec
      rw [hk', ← hkey] at hexec
      split at hexec
      · cases hexec
        exact hrefused
      · rename_i hfree
        cases hexec
        exact h.locked .session hi (Bool.eq_false_iff.mpr hfree) halive htx
  | commit =>
      -- a commit ends the transaction, and the lock with it
      obtain ⟨-, -, since, hlock⟩ := hallowed
      cases hexec
      apply h.session_give hi (by exact hi) halive hlock
        (fun _ => .of_none rfl (by rintro ⟨⟩)) rfl
      show ((view i).lock.map fun l => (l.2, clock)) = some (since, clock)
      rw [hlock]
      rfl
  | rollback =>
      cases hexec
      exact h.session_lose hi (by exact hi) (fun _ => .of_none rfl (by rintro ⟨⟩)) rfl id
        (by rintro l ⟨⟩)
  | advisoryUnlock k' =>
      obtain ⟨-, hdirty, since, hlock⟩ := hallowed
      simp only [PgWorld.execute] at hexec
      split at hexec
      · cases hexec
        rw [after_unlock _ _ _ rfl]
        apply h.session_give hi (by exact hi) halive hlock _ rfl
        · show ((view i).lock.map fun l => (l.2, clock)) = some (since, clock)
          rw [hlock]
          rfl
        · intro _
          exact ⟨hbacked.inTx, by rintro t ⟨⟩, by rintro t ⟨⟩⟩
      · cases hexec
        -- the session did not have the lock, so nothing is given back
        rw [after_unlock_refused _ _ _ rfl]
        exact h.session_lose hi (by exact hi) (fun _ => .of_none rfl fun _ => rfl) rfl id
          (by rintro l ⟨⟩)

/-- A client that had none has a connection that nobody has. -/
theorem connected (h : PgInv key clock w view) {i : ι} {c : Client} {w' : PgWorld}
    (hi : view i = .start) (hfresh : ∀ j, (view j).client ≠ some c)
    (hc : c < w'.opened ∧ c ∉ w'.idle) (hopened : w.opened ≤ w'.opened)
    (hidle : ∀ c' ∈ w'.idle, c' ∈ w.idle) (hnodup : w'.idle.Nodup)
    (hsessions : ∀ {j c'}, (view j).client = some c' → w'.sessions c' = w.sessions c') :
    PgInv key (clock + 1) w' (Function.update view i (.connected c)) where
  owned := by
    intro j c' hj
    by_cases hji : j = i
    · rw [hji, Function.update_self] at hj
      cases hj
      exact hc
    · rw [Function.update_of_ne hji] at hj
      obtain ⟨hlt, hnot⟩ := h.owned hj
      exact ⟨hlt.trans_le hopened, fun hmem => hnot (hidle _ hmem)⟩
  apart := by
    intro j k c' hj hk
    by_cases hji : j = i <;> by_cases hki : k = i
    · rw [hji, hki]
    · rw [hji, Function.update_self] at hj
      rw [Function.update_of_ne hki] at hk
      cases hj
      exact absurd hk (hfresh k)
    · rw [Function.update_of_ne hji] at hj
      rw [hki, Function.update_self] at hk
      cases hk
      exact absurd hj (hfresh j)
    · rw [Function.update_of_ne hji] at hj
      rw [Function.update_of_ne hki] at hk
      exact h.apart hj hk
  idle_lt hmem := (h.idle_lt (hidle _ hmem)).trans_le hopened
  idle_nodup := hnodup
  backed := by
    intro j c' hj halive
    by_cases hji : j = i
    · rw [hji, Function.update_self]
      exact .of_none rfl (by rintro ⟨⟩)
    · rw [Function.update_of_ne hji] at hj ⊢
      rw [hsessions hj] at halive ⊢
      exact h.backed hj halive
  exclusive := by
    have hsame : ∀ j, (Function.update view i (.connected c) j).tenure = (view j).tenure :=
      update_same PgView.tenure (by rw [hi]; rfl)
    simp only [hsame]
    apply h.exclusive.lose
    intro j t hj
    obtain ⟨c', scope, hclient, hlock, halive⟩ := PgWorld.holding_eq_some.mp hj
    by_cases hji : j = i
    · rw [hji, Function.update_self] at hlock
      cases hlock
    · rw [Function.update_of_ne hji] at hclient hlock
      rw [hsessions hclient] at halive
      exact PgWorld.holding_eq_some.mpr ⟨c', scope, hclient, hlock, halive⟩

/-- A connection is given back. -/
theorem givenBack (h : PgInv key clock w view) {i : ι} {c : Client} (failed : Bool)
    (hi : (view i).client = some c) :
    PgInv key (clock + 1) (w.giveBack c failed)
      (Function.update view i { PgView.start with tenure := (view i).tenure }) := by
  have hview : ∀ j c',
      (Function.update view i { PgView.start with tenure := (view i).tenure } j).client
        = some c' → j ≠ i ∧ (view j).client = some c' := by
    intro j c' hj
    by_cases hji : j = i
    · rw [hji, Function.update_self] at hj
      cases hj
    · rw [Function.update_of_ne hji] at hj
      exact ⟨hji, hj⟩
  -- no other client has the connection
  have hother : ∀ {j c'}, j ≠ i → (view j).client = some c' → c' ≠ c := by
    intro j c' hji hj heq
    rw [heq] at hj
    exact hji (h.apart hj hi)
  have hsessions : ∀ {j c'}, j ≠ i → (view j).client = some c' →
      (w.giveBack c failed).sessions c' = w.sessions c' := by
    intro j c' hji hj
    unfold PgWorld.giveBack
    split
    · exact Function.update_of_ne (hother hji hj) _ _
    · rfl
  have hidle : ∀ c' ∈ (w.giveBack c failed).idle, c' = c ∨ c' ∈ w.idle := by
    intro c' hmem
    unfold PgWorld.giveBack at hmem
    split at hmem
    · exact .inr hmem
    · exact List.mem_cons.mp hmem
  have hopened : (w.giveBack c failed).opened = w.opened := by
    unfold PgWorld.giveBack
    split <;> rfl
  constructor
  · intro j c' hj
    obtain ⟨hji, hj⟩ := hview j c' hj
    obtain ⟨hlt, hnot⟩ := h.owned hj
    refine ⟨by rw [hopened]; exact hlt, fun hmem => ?_⟩
    rcases hidle c' hmem with heq | hmem
    · exact hother hji hj heq
    · exact hnot hmem
  · intro j k c' hj hk
    exact h.apart (hview j c' hj).2 (hview k c' hk).2
  · intro c' hmem
    rw [hopened]
    rcases hidle c' hmem with heq | hmem
    · rw [heq]
      exact (h.owned hi).1
    · exact h.idle_lt hmem
  · unfold PgWorld.giveBack
    split
    · exact h.idle_nodup
    · exact List.nodup_cons.mpr ⟨(h.owned hi).2, h.idle_nodup⟩
  · intro j c' hj halive
    obtain ⟨hji, hj⟩ := hview j c' hj
    rw [Function.update_of_ne hji]
    rw [hsessions hji hj] at halive ⊢
    exact h.backed hj halive
  · have hsame : ∀ j, (Function.update view i
        { PgView.start with tenure := (view i).tenure } j).tenure = (view j).tenure :=
      update_same PgView.tenure rfl
    simp only [hsame]
    apply h.exclusive.lose
    intro j t hj
    obtain ⟨c', scope, hclient, hlock, halive⟩ := PgWorld.holding_eq_some.mp hj
    obtain ⟨hji, hclient⟩ := hview j c' hclient
    rw [Function.update_of_ne hji] at hlock
    rw [hsessions hji hclient] at halive
    exact PgWorld.holding_eq_some.mpr ⟨c', scope, hclient, hlock, halive⟩

end PgInv

end ClipTown.Locks
