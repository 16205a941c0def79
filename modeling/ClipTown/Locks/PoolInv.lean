/-
  ClipTown.Locks.PoolInv — the connections that go back to the pool.

  A statement that begins a transaction or takes a lock at session level may
  fail after it was executed; the routine then gives its connection back as it
  is.  Where that does not happen, the view of a client is exact, and what the
  pool keeps is clean.

    • `PgView.Exact` — a session has what its view says, and no more,
    • `PoolInv` — every living session is a client's, exactly as in its view, or
      idle and clean,
    • `pool_invariant` — in every interleaving without such a failure.
-/
import ClipTown.Locks.Exclusion

namespace ClipTown.Locks

open Interaction

variable {T : Type} {ι : Type*}

/-! ## §1. Exact views. -/

/-- The keys that the view has at a level. -/
def PgView.keys (v : PgView) (key : ℤ) (scope : PgScope) : List ℤ :=
  match v.lock with
  | some (held, _) => if held = scope then [key] else []
  | none => []

/-- The session has what its view says.  A view that is not sure may still be
sure that nothing is locked at session level: it is inside a transaction. -/
structure PgView.Exact (v : PgView) (key : ℤ) (s : Session) : Prop where
  inTx : v.dirty = false → s.inTx = v.inTx
  xact : v.dirty = false → s.xact = v.keys key .transaction
  sess : v.dirty = false ∨ v.inTx = true → s.sess = v.keys key .session
  apart : v.inTx = true → ∀ t, v.lock ≠ some (.session, t)

theorem PgView.keys_none {v : PgView} (h : v.lock = none) (key : ℤ) (scope : PgScope) :
    v.keys key scope = [] := by
  unfold keys
  rw [h]

theorem PgView.keys_some {v : PgView} {held : PgScope} {t : ℕ} (h : v.lock = some (held, t))
    (key : ℤ) (scope : PgScope) : v.keys key scope = if held = scope then [key] else [] := by
  unfold keys
  rw [h]

/-- A view without a lock at session level has no key there. -/
theorem PgView.keys_session {v : PgView} (h : ∀ t, v.lock ≠ some (.session, t)) (key : ℤ) :
    v.keys key .session = [] := by
  cases hlock : v.lock with
  | none => exact keys_none hlock key .session
  | some held =>
      obtain ⟨scope, since⟩ := held
      rw [keys_some hlock key .session]
      cases scope with
      | transaction => rfl
      | session => exact absurd hlock (h since)

/-- A session that has nothing, and a view that says so. -/
theorem PgView.Exact.fresh {v : PgView} (hlock : v.lock = none) (htx : v.inTx = false) (key : ℤ) :
    v.Exact key .fresh where
  inTx _ := htx.symm
  xact _ := (keys_none hlock key _).symm
  sess _ := (keys_none hlock key _).symm
  apart h := by
    rw [htx] at h
    cases h

/-- A sure view that has nothing. -/
theorem PgView.Exact.eq_fresh {v : PgView} {key : ℤ} {s : Session} (h : v.Exact key s)
    (halive : s.alive = true) (hdirty : v.dirty = false) (hlock : v.lock = none)
    (htx : v.inTx = false) : s = .fresh := by
  obtain ⟨alive, inTx, xact, sess⟩ := s
  have hinTx : inTx = false := (h.inTx hdirty).trans htx
  have hxact : xact = [] := (h.xact hdirty).trans (keys_none hlock key _)
  have hsess : sess = [] := (h.sess (.inl hdirty)).trans (keys_none hlock key _)
  have hal : alive = true := halive
  rw [hinTx, hxact, hsess, hal]
  rfl

/-- The statements that leave something on the connection if their answer is lost. -/
def Statement.lingers : Statement → Bool
  -- what the others leave goes with the rollback, or with the connection
  | .begin | .advisoryLock _ | .tryAdvisoryLock _ => true
  | .advisoryXactLock _ | .tryAdvisoryXactLock _ | .commit | .rollback | .advisoryUnlock _ => false

section Statements

variable {k : LockKey} {v : PgView} {w : PgWorld} {c : Client} {statement : Statement}

/-- A statement without an effect whose failure is reported. -/
theorem PgView.Exact.failed {s : Session} (h : v.Exact k.advisory s) (t : ℕ) (err : Thrown)
    (hallowed : statement.allowed k v) :
    (v.after t statement (.error err)).Exact k.advisory s := by
  -- outside a transaction a view that is not sure says nothing
  have hunsure : (∀ u, v.lock ≠ some (.session, u)) ∨ v.inTx = false →
      v.unsure.Exact k.advisory s := by
    intro hv
    refine ⟨by rintro ⟨⟩, by rintro ⟨⟩, ?_, by rintro _ t ⟨⟩⟩
    rintro (⟨⟨⟩⟩ | htx)
    rcases hv with hv | hv
    · exact (h.sess (.inr htx)).trans (keys_session hv _)
    · rw [show v.inTx = true from htx] at hv
      cases hv
  cases statement with
  | begin => exact h
  | advisoryLock k' => exact h
  | tryAdvisoryLock k' => exact h
  | advisoryXactLock k' => exact hunsure (.inl (h.apart hallowed.2.1))
  | tryAdvisoryXactLock k' => exact hunsure (.inl (h.apart hallowed.2.1))
  | commit => exact hunsure (.inl (h.apart hallowed.1))
  | rollback => exact hunsure (.inl (h.apart hallowed))
  | advisoryUnlock k' =>
      obtain ⟨-, -, since, hlock⟩ := hallowed
      refine hunsure (.inr ?_)
      rw [Bool.eq_false_iff]
      intro htx
      exact h.apart htx since hlock

/-- A statement that was executed and whose answer was lost. -/
theorem PgView.Exact.lost {rows : List Row} {s : Session}
    (h : v.Exact k.advisory (w.sessions c)) (t : ℕ) (err : Thrown)
    (hallowed : statement.allowed k v) (hlingers : statement.lingers = false)
    (hexec : w.execute c statement = some (rows, s)) :
    (v.after t statement (.error err)).Exact k.advisory s := by
  have hfailed := h.failed t err hallowed
  -- what is sure after it: nothing is locked at session level in a transaction
  have hsess : s.sess = (w.sessions c).sess →
      v.after t statement (.error err) = v.unsure →
      (v.after t statement (.error err)).Exact k.advisory s := by
    intro hs hv
    rw [hv] at hfailed ⊢
    refine ⟨by rintro ⟨⟩, by rintro ⟨⟩, fun hsure => ?_, by rintro _ t ⟨⟩⟩
    rw [hs]
    exact hfailed.sess hsure
  cases statement with
  | begin => cases hlingers
  | advisoryLock k' => cases hlingers
  | tryAdvisoryLock k' => cases hlingers
  | advisoryXactLock k' =>
      simp only [PgWorld.execute] at hexec
      split at hexec
      · cases hexec
      · cases hexec
        refine hsess ?_ rfl
        unfold Session.lockXact
        split <;> rfl
  | tryAdvisoryXactLock k' =>
      simp only [PgWorld.execute] at hexec
      split at hexec
      · cases hexec
        exact hfailed
      · cases hexec
        refine hsess ?_ rfl
        unfold Session.lockXact
        split <;> rfl
  | commit =>
      cases hexec
      exact hsess rfl rfl
  | rollback =>
      cases hexec
      exact hsess rfl rfl
  | advisoryUnlock k' =>
      obtain ⟨-, -, since, hlock⟩ := hallowed
      refine ⟨by rintro ⟨⟩, by rintro ⟨⟩, ?_, by rintro _ t ⟨⟩⟩
      rintro (⟨⟨⟩⟩ | htx)
      exact absurd hlock (h.apart htx since)

/-- The lock is taken on a session that had none. -/
theorem PgView.Exact.locked (scope : PgScope) (h : v.Exact k.advisory (w.sessions c)) (t : ℕ)
    (hlock : v.lock = none) (hdirty : v.dirty = false)
    (htx : v.inTx = match scope with | .transaction => true | .session => false) :
    { v with lock := some (scope, t) : PgView }.Exact k.advisory
      (match scope with
        | .transaction => (w.sessions c).lockXact k.advisory
        | .session => (w.sessions c).lockSession k.advisory) := by
  have hinTx := h.inTx hdirty
  have hxact := (h.xact hdirty).trans (keys_none hlock _ _)
  have hsess := (h.sess (.inl hdirty)).trans (keys_none hlock _ _)
  cases scope with
  | transaction =>
      -- inside a transaction the lock lasts; outside it would be gone at once
      show PgView.Exact _ _ ((w.sessions c).lockXact k.advisory)
      unfold Session.lockXact
      rw [if_pos (hinTx.trans htx), hxact]
      exact ⟨fun _ => hinTx, fun _ => rfl, fun _ => hsess, by rintro _ t ⟨⟩⟩
  | session =>
      show PgView.Exact _ _ ((w.sessions c).lockSession k.advisory)
      unfold Session.lockSession
      rw [hsess]
      refine ⟨fun _ => hinTx, fun _ => hxact, fun _ => rfl, fun htx' => ?_⟩
      rw [show v.inTx = true from htx'] at htx
      cases htx

/-- A statement that was served. -/
theorem PgView.Exact.served {rows : List Row} {s : Session}
    (h : v.Exact k.advisory (w.sessions c)) (t : ℕ) (hallowed : statement.allowed k v)
    (hexec : w.execute c statement = some (rows, s)) :
    (v.after t statement (.ok rows)).Exact k.advisory s := by
  cases statement with
  | begin =>
      obtain ⟨-, hlock, hdirty⟩ := hallowed
      cases hexec
      refine ⟨fun _ => rfl, h.xact, fun _ => h.sess (.inl hdirty), fun _ u hu => ?_⟩
      rw [show v.lock = some (.session, u) from hu] at hlock
      cases hlock
  | advisoryXactLock k' =>
      obtain ⟨rfl, htx, hlock, hdirty, -⟩ := hallowed
      simp only [PgWorld.execute] at hexec
      split at hexec
      · cases hexec
      · cases hexec
        exact h.locked .transaction t hlock hdirty htx
  | tryAdvisoryXactLock k' =>
      obtain ⟨rfl, htx, hlock, hdirty, -⟩ := hallowed
      simp only [PgWorld.execute] at hexec
      split at hexec
      · cases hexec
        exact h
      · cases hexec
        exact h.locked .transaction t hlock hdirty htx
  | advisoryLock k' =>
      obtain ⟨rfl, htx, hlock, hdirty, -⟩ := hallowed
      simp only [PgWorld.execute] at hexec
      split at hexec
      · cases hexec
      · cases hexec
        exact h.locked .session t hlock hdirty htx
  | tryAdvisoryLock k' =>
      obtain ⟨rfl, htx, hlock, hdirty, -⟩ := hallowed
      simp only [PgWorld.execute] at hexec
      split at hexec
      · cases hexec
        exact h
      · cases hexec
        exact h.locked .session t hlock hdirty htx
  | commit =>
      obtain ⟨-, hdirty, since, hlock⟩ := hallowed
      cases hexec
      refine ⟨fun _ => rfl, fun _ => rfl, fun _ => ?_, by rintro ⟨⟩⟩
      show (w.sessions c).sess = []
      rw [h.sess (.inl hdirty), keys_some hlock]
      rfl
  | rollback =>
      cases hexec
      refine ⟨fun _ => rfl, fun _ => rfl, fun _ => ?_, by rintro ⟨⟩⟩
      show (w.sessions c).sess = []
      exact (h.sess (.inr hallowed)).trans (keys_session (h.apart hallowed) _)
  | advisoryUnlock k' =>
      obtain ⟨rfl, hdirty, since, hlock⟩ := hallowed
      have hsess : (w.sessions c).sess = [k.advisory] := by
        rw [h.sess (.inl hdirty), keys_some hlock]
        rfl
      simp only [PgWorld.execute] at hexec
      split at hexec
      · cases hexec
        rw [after_unlock _ _ _ rfl]
        refine ⟨h.inTx, fun hd => ?_, fun _ => ?_, by rintro _ t ⟨⟩⟩
        · show (w.sessions c).xact = []
          rw [h.xact hd, keys_some hlock]
          rfl
        · show (w.sessions c).sess.erase k.advisory = []
          -- the one lock there was is the one that is given back
          rw [hsess, List.erase_cons_head]
      · rename_i hnot
        rw [hsess] at hnot
        -- an unlock that finds nothing contradicts the view
        exact absurd List.mem_cons_self hnot

end Statements

/-! ## §2. The pool. -/

/-- Every living session is a client's, exactly as in its view, or idle and
clean; a closed one has nothing. -/
structure PoolInv (key : ι → ℤ) (w : PgWorld) (view : ι → PgView) : Prop where
  exact : ∀ {i c}, (view i).client = some c → (w.sessions c).alive = true →
    (view i).Exact (key i) (w.sessions c)
  idle : ∀ {c}, c ∈ w.idle → (w.sessions c).alive = true → w.sessions c = .fresh
  known : ∀ {c}, (w.sessions c).alive = true → c ∈ w.idle ∨ ∃ i, (view i).client = some c
  closed : ∀ {c}, (w.sessions c).alive = false → w.sessions c = .closed

namespace PoolInv

variable {key : ι → ℤ} {clock : ℕ} {w : PgWorld} {view : ι → PgView}

theorem start (key : ι → ℤ) : PoolInv key World.start.pg fun _ => PgView.start where
  exact h := absurd h (by simp [PgView.start])
  idle h := absurd h (by simp [World.start])
  known h := absurd h (by simp [World.start, Session.closed])
  closed _ := rfl

/-- A connection is lost. -/
theorem lose (h : PoolInv key w view) (client : Client) :
    PoolInv key (w.set client .closed) view := by
  -- what is still alive is not the connection that was lost
  have hsame : ∀ {c}, ((w.set client .closed).sessions c).alive = true →
      (w.set client .closed).sessions c = w.sessions c := by
    intro c halive
    by_cases hc : c = client
    · simp only [PgWorld.set, hc, Function.update_self] at halive
      cases halive
    · exact Function.update_of_ne hc _ _
  refine ⟨fun hi halive => ?_, fun hidle halive => ?_, fun halive => ?_, fun {c} hclosed => ?_⟩
  · rw [hsame halive]
    rw [hsame halive] at halive
    exact h.exact hi halive
  · rw [hsame halive]
    rw [hsame halive] at halive
    exact h.idle hidle halive
  · rw [hsame halive] at halive
    exact h.known halive
  · by_cases hc : c = client
    · simp only [PgWorld.set, hc, Function.update_self]
    · simp only [PgWorld.set, Function.update_of_ne hc] at hclosed ⊢
      exact h.closed hclosed

variable [DecidableEq ι]

/-- The session of a client changes, and its view with it. -/
theorem session (h : PoolInv key w view) (hpg : PgInv key clock w view) {i : ι} {c : Client}
    {v : PgView} {s : Session} (hi : (view i).client = some c) (hv : v.client = some c)
    (hexact : s.alive = true → v.Exact (key i) s) (hclosed : s.alive = false → s = .closed) :
    PoolInv key (w.set c s) (Function.update view i v) where
  exact := by
    intro j c' hj halive'
    by_cases hji : j = i
    · rw [hji] at hj ⊢
      rw [Function.update_self] at hj ⊢
      rw [hv] at hj
      cases hj
      simp only [PgWorld.set, Function.update_self] at halive' ⊢
      exact hexact halive'
    · rw [Function.update_of_ne hji] at hj ⊢
      have hne : c' ≠ c := by
        intro heq
        rw [heq] at hj
        -- two clients never share a connection
        exact hji (hpg.apart hj hi)
      simp only [PgWorld.set, Function.update_of_ne hne] at halive' ⊢
      exact h.exact hj halive'
  idle := by
    intro c' hidle halive'
    have hne : c' ≠ c := by
      intro heq
      rw [heq] at hidle
      -- a connection in use is not idle
      exact (hpg.owned hi).2 hidle
    simp only [PgWorld.set, Function.update_of_ne hne] at halive' ⊢
    exact h.idle hidle halive'
  known := by
    intro c' halive'
    by_cases hc : c' = c
    · exact .inr ⟨i, by rw [Function.update_self, hv, hc]⟩
    · simp only [PgWorld.set, Function.update_of_ne hc] at halive'
      rcases h.known halive' with hidle | ⟨j, hj⟩
      · exact .inl hidle
      · refine .inr ⟨j, ?_⟩
        by_cases hji : j = i
        · rw [hji, hi] at hj
          cases hj
          exact absurd rfl hc
        · rw [Function.update_of_ne hji]
          exact hj
  closed := by
    intro c' hdead
    by_cases hc : c' = c
    · simp only [PgWorld.set, hc, Function.update_self] at hdead ⊢
      exact hclosed hdead
    · simp only [PgWorld.set, Function.update_of_ne hc] at hdead ⊢
      exact h.closed hdead

/-- The pool hands out a connection. -/
theorem connected (h : PoolInv key w view) {i : ι} {c : Client} {w' : PgWorld}
    (hi : view i = .start) (hc : (w'.sessions c).alive = true → w'.sessions c = .fresh)
    (hclosed : (w'.sessions c).alive = false → w'.sessions c = .closed)
    (hsessions : ∀ c', c' ≠ c → w'.sessions c' = w.sessions c')
    (hfresh : ∀ j, (view j).client ≠ some c)
    (hidle : ∀ c', c' ∈ w'.idle ↔ c' ≠ c ∧ c' ∈ w.idle) :
    PoolInv key w' (Function.update view i (.connected c)) where
  exact := by
    intro j c' hj halive
    by_cases hji : j = i
    · rw [hji] at hj ⊢
      rw [Function.update_self] at hj ⊢
      cases hj
      rw [hc halive]
      exact .fresh rfl rfl _
    · rw [Function.update_of_ne hji] at hj ⊢
      have hne : c' ≠ c := by
        intro heq
        rw [heq] at hj
        exact hfresh j hj
      rw [hsessions c' hne] at halive ⊢
      exact h.exact hj halive
  idle := by
    intro c' hmem halive
    obtain ⟨hne, hmem⟩ := (hidle c').mp hmem
    rw [hsessions c' hne] at halive ⊢
    exact h.idle hmem halive
  known := by
    intro c' halive
    by_cases hne : c' = c
    · exact .inr ⟨i, by rw [Function.update_self, hne]; rfl⟩
    · rw [hsessions c' hne] at halive
      rcases h.known halive with hmem | ⟨j, hj⟩
      · exact .inl ((hidle c').mpr ⟨hne, hmem⟩)
      · refine .inr ⟨j, ?_⟩
        by_cases hji : j = i
        · rw [hji, hi] at hj
          cases hj
        · rw [Function.update_of_ne hji]
          exact hj
  closed := by
    intro c' hdead
    by_cases hne : c' = c
    · rw [hne] at hdead ⊢
      exact hclosed hdead
    · rw [hsessions c' hne] at hdead ⊢
      exact h.closed hdead

/-- A connection is given back: it is closed, or it is clean. -/
theorem givenBack (h : PoolInv key w view) {i : ι} {c : Client}
    {failed : Bool} (hi : (view i).client = some c)
    (hclean : failed = false → (view i).dirty = false ∧ (view i).lock = none ∧
      (view i).inTx = false) (v : PgView) (hv : v.client = none) :
    PoolInv key (w.giveBack c failed) (Function.update view i v) := by
  have hview : ∀ {j c'}, (Function.update view i v j).client = some c' →
      j ≠ i ∧ (view j).client = some c' := by
    intro j c' hj
    by_cases hji : j = i
    · rw [hji, Function.update_self, hv] at hj
      cases hj
    · rw [Function.update_of_ne hji] at hj
      exact ⟨hji, hj⟩
  have hkept : ∀ {c'}, c' ≠ c → (∃ j, (view j).client = some c') →
      ∃ j, (Function.update view i v j).client = some c' := by
    rintro c' hne ⟨j, hj⟩
    refine ⟨j, ?_⟩
    by_cases hji : j = i
    · rw [hji, hi] at hj
      cases hj
      exact absurd rfl hne
    · rw [Function.update_of_ne hji]
      exact hj
  unfold PgWorld.giveBack
  split
  · have hlost := h.lose c
    refine ⟨fun hj halive => ?_, hlost.idle, fun {c'} halive => ?_, hlost.closed⟩
    · obtain ⟨hji, hj⟩ := hview hj
      rw [Function.update_of_ne hji]
      exact hlost.exact hj halive
    · rcases hlost.known halive with hidle | hj
      · exact .inl hidle
      · refine .inr (hkept ?_ hj)
        intro heq
        simp only [PgWorld.set, heq, Function.update_self] at halive
        cases halive
  · rename_i hgiven
    rw [Bool.not_eq_true, Bool.or_eq_false_iff, Bool.not_eq_false'] at hgiven
    obtain ⟨hdirty, hlock, htx⟩ := hclean hgiven.1
    -- given back as sound and still alive, so the view is exact, and it has nothing
    have hfresh := (h.exact hi hgiven.2).eq_fresh hgiven.2 hdirty hlock htx
    refine ⟨fun hj halive => ?_, fun {c'} hidle halive => ?_, fun {c'} halive => ?_, h.closed⟩
    · obtain ⟨hji, hj⟩ := hview hj
      rw [Function.update_of_ne hji]
      exact h.exact hj halive
    · rcases List.mem_cons.mp hidle with heq | hidle
      · rw [heq]
        exact hfresh
      · exact h.idle hidle halive
    · by_cases hne : c' = c
      · exact .inl (List.mem_cons.mpr (.inl hne))
      · rcases h.known halive with hidle | hj
        · exact .inl (List.mem_cons_of_mem _ hidle)
        · exact .inr (hkept hne hj)

end PoolInv

/-! ## §3. Every interleaving. -/

/-- The call loses nothing: a statement that begins a transaction or locks at
session level does not fail after it was executed. -/
def keepsPool {V : Type*} (s : Network.State Call (Answer T) (Except Thrown T) ι World V) :
    Network.Act ι (Choice T) Noise → Prop
  | .go i (.loses _) =>
      match s.code i with
      | .call (.query _ statement) _ => statement.lingers = false
      | _ => True
  | _ => True

variable [DecidableEq ι] {jobs : ι → Job}
  {s : Network.State Call (Answer T) (Except Thrown T) ι World View}

/-- A served call that loses nothing keeps the pool. -/
theorem FleetInv.serve_pool {clock : ℕ} {w w' : World} {view : ι → View}
    (h : FleetInv jobs clock w view)
    (hpool : PoolInv (fun i => (jobs i).key.advisory) w.pg fun i => (view i).pg) {i : ι} {c : Call}
    {choice : Choice T} {answer : Answer T c}
    (hkeeps : ∀ client statement err, c = .query client statement → choice = .loses err →
      statement.lingers = false)
    (hallowed : (lockProtocol T (jobs i).key (jobs i).layers).allowed (view i) c)
    (hserve : Locks.serve w i c choice = some (answer, w')) :
    PoolInv (fun i => (jobs i).key.advisory) w'.pg
      (Function.update (fun j => (view j).pg) i
        ((lockProtocol T (jobs i).key (jobs i).layers).after clock (view i) c answer).pg) := by
  have hsame : PoolInv (fun i => (jobs i).key.advisory) w.pg
      (Function.update (fun j => (view j).pg) i (view i).pg) := by
    rw [Function.update_eq_self]
    exact hpool
  cases c with
  | acquire k opts wait =>
      rcases serve_acquire hserve with ⟨err, rfl, rfl⟩ | ⟨g, lease, -, -, rfl, rfl | ⟨err, rfl⟩⟩
      · exact hsame
      · exact hsame
      · exact hsame
  | release g =>
      rcases serve_release hserve with ⟨err, rfl, rfl⟩ | ⟨rfl, rfl | ⟨err, rfl⟩⟩
      · exact hsame
      · cases (w.lease.release g).1
        · exact hsame
        · exact hsame
      · exact hsame
  | connect =>
      obtain ⟨hpg, -⟩ := hallowed
      rcases serve_connect hserve with ⟨err, rfl, rfl⟩ | ⟨client, hidle, rfl, rfl⟩ | ⟨rfl, rfl⟩
      · exact hsame
      · exact hpool.connected hpg (hpool.idle hidle) hpool.closed (fun _ _ => rfl)
          (fun j hj => (h.pg.owned hj).2 hidle) fun c' => h.pg.idle_nodup.mem_erase_iff
      · refine hpool.connected hpg (fun _ => ?_) (fun hdead => ?_)
          (fun c' hne => Function.update_of_ne hne _ _)
          (fun j hj => absurd (h.pg.owned hj).1 (lt_irrefl _)) fun c' => ?_
        · exact Function.update_self _ _ _
        · simp only [PgWorld.openNew, Function.update_self] at hdead
          cases hdead
        · refine ⟨fun hidle => ⟨?_, hidle⟩, fun hidle => hidle.2⟩
          exact Nat.ne_of_lt (h.pg.idle_lt hidle)
  | query client statement =>
      obtain ⟨hclient, hstatement, -⟩ := hallowed
      rcases serve_query hserve with ⟨err, rfl, rfl⟩ | ⟨rows, session, halive, hexec, rfl, hanswer⟩
      · have hfailed := hpool.session h.pg hclient
          ((after_client _ clock statement _).trans hclient)
          (fun halive => (hpool.exact hclient halive).failed clock err hstatement) hpool.closed
        unfold PgWorld.set at hfailed
        rw [Function.update_eq_self] at hfailed
        exact hfailed
      · have hexact := hpool.exact hclient halive
        have hclosed : session.alive = false → session = .closed := by
          rw [PgWorld.execute_alive hexec, halive]
          rintro ⟨⟩
        refine hpool.session h.pg hclient ((after_client _ _ _ _).trans hclient)
          (fun _ => ?_) hclosed
        -- the answer came, or it was lost
        rcases hanswer with rfl | ⟨err, rfl, hlost⟩
        · exact hexact.served clock hstatement hexec
        · exact hexact.lost clock err hstatement (hkeeps _ _ _ rfl hlost) hexec
  | giveBack client failed =>
      rw [serve_giveBack hserve]
      exact hpool.givenBack hallowed.1 hallowed.2 _ rfl
  | work guarded =>
      rw [serve_work hserve]
      exact hsame

/-- In every interleaving without such a failure the pool is as it should be. -/
theorem pool_invariant (h : (fleet T jobs).ReachableBy keepsPool s) :
    PoolInv (fun i => (jobs i).key.advisory) s.world.pg fun i => (s.view i).pg := by
  have hboth := Network.invariant
    (J := fun clock w view => FleetInv jobs clock w view ∧
      PoolInv (fun i => (jobs i).key.advisory) w.pg fun i => (view i).pg)
    (fun i => withGuard_obeys (jobs i).scope (jobs i).key (jobs i).layers (jobs i).wait
      (jobs i).opts (jobs i).lease (jobs i).pool)
    ⟨FleetInv.start jobs, PoolInv.start _⟩ ?_ ?_ h
  · exact hboth.1.2
  · intro s i choice c next r w hcode hkeeps hJ hallowed hserve
    refine ⟨hJ.1.serve hallowed hserve, ?_⟩
    rw [FleetInv.pg_update]
    refine hJ.1.serve_pool hJ.2 ?_ hallowed hserve
    intro client statement err hc hchoice
    subst hc hchoice
    simpa only [keepsPool, hcode] using hkeeps
  · intro s noise w _ hJ hdrift
    refine ⟨hJ.1.drift hdrift, ?_⟩
    cases noise with
    | kill client =>
        cases hdrift
        exact hJ.2.lose client
    | lapse key =>
        cases hdrift
        exact hJ.2

end ClipTown.Locks
