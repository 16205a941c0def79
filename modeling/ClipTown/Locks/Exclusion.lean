/-
  ClipTown.Locks.Exclusion — any number of clients, any interleaving.

  The clients run the routines of either scope over one database and one lease
  authority.  Connections are lost, leases lapse, and answers get lost.

    • `FleetInv` — the authority, the database and the views agree,
    • `fleet_invariant` — and do so in every interleaving,
    • `working_alone` — two clients at work do not both hold what they share,
    • `tenures_disjoint` — two clients that returned a value held what they
      share one after the other, each for the whole of its work.
-/
import ClipTown.Locks.Custody

namespace ClipTown.Locks

open Interaction Tenures

variable {T : Type} {ι : Type*}

/-! ## §1. When the work was done. -/

/-- What is held was there before the work, and what was given back after it. -/
structure View.Timed (v : View) (clock : ℕ) : Prop where
  worked : ∀ {t}, v.worked = some t → t < clock
  granted : ∀ {g a}, v.lease.grant = some (g, a) → a < clock ∧ ∀ t, v.worked = some t → a < t
  locked : ∀ {scope a}, v.pg.lock = some (scope, a) →
    a < clock ∧ ∀ t, v.worked = some t → a < t
  lease_tenure : ∀ {a b t}, v.lease.tenure = some (a, b) → v.worked = some t → a < t ∧ t < b
  pg_tenure : ∀ {a b t}, v.pg.tenure = some (a, b) → v.worked = some t → a < t ∧ t < b

theorem View.Timed.start : View.start.Timed 0 where
  worked h := absurd h (by simp [View.start])
  granted h := absurd h (by simp [View.start, LeaseView.start])
  locked h := absurd h (by simp [View.start, PgView.start])
  lease_tenure h := absurd h (by simp [View.start, LeaseView.start])
  pg_tenure h := absurd h (by simp [View.start, PgView.start])

/-- What is forgotten, while time passes. -/
theorem View.Timed.lose {v v' : View} {clock : ℕ} (h : v.Timed clock)
    (hworked : v'.worked = v.worked)
    (hgrant : ∀ g, v'.lease.grant = some g → v.lease.grant = some g)
    (hlock : ∀ l, v'.pg.lock = some l → v.pg.lock = some l)
    (hlease : v'.lease.tenure = v.lease.tenure) (hpg : v'.pg.tenure = v.pg.tenure) :
    v'.Timed (clock + 1) where
  worked ht := by
    rw [hworked] at ht
    have hlt := h.worked ht
    omega
  granted hg := by
    obtain ⟨hlt, hbefore⟩ := h.granted (hgrant _ hg)
    rw [hworked]
    exact ⟨by omega, hbefore⟩
  locked hl := by
    obtain ⟨hlt, hbefore⟩ := h.locked (hlock _ hl)
    rw [hworked]
    exact ⟨by omega, hbefore⟩
  lease_tenure ht hw := by
    rw [hlease] at ht
    rw [hworked] at hw
    exact h.lease_tenure ht hw
  pg_tenure ht hw := by
    rw [hpg] at ht
    rw [hworked] at hw
    exact h.pg_tenure ht hw

/-- The lock of the view is taken now. -/
theorem View.Timed.lock {v : View} {clock : ℕ} (h : v.Timed clock) (hworked : v.worked = none)
    (scope : PgScope) :
    { v with pg := { v.pg with lock := some (scope, clock) } : View }.Timed (clock + 1) where
  worked ht := by
    have hlt := h.worked ht
    omega
  granted hg := by
    obtain ⟨hlt, hbefore⟩ := h.granted hg
    exact ⟨by omega, hbefore⟩
  locked hl := by
    cases hl
    refine ⟨by omega, fun t ht => ?_⟩
    rw [show v.worked = some t from ht] at hworked
    cases hworked
  lease_tenure := h.lease_tenure
  pg_tenure := h.pg_tenure

/-- The lock of the view is given back now. -/
theorem View.Timed.unlock {v : View} {clock : ℕ} (h : v.Timed clock) {scope : PgScope} {since : ℕ}
    (hlock : v.pg.lock = some (scope, since)) {pg : PgView} (hnone : pg.lock = none)
    (htenure : pg.tenure = some (since, clock)) : { v with pg : View }.Timed (clock + 1) where
  worked ht := by
    have hlt := h.worked ht
    omega
  granted hg := by
    obtain ⟨hlt, hbefore⟩ := h.granted hg
    exact ⟨by omega, hbefore⟩
  locked hl := by
    rw [show pg.lock = some _ from hl] at hnone
    cases hnone
  lease_tenure := h.lease_tenure
  pg_tenure ht hw := by
    rw [show pg.tenure = some _ from ht] at htenure
    cases htenure
    exact ⟨(h.locked hlock).2 _ hw, h.worked hw⟩

theorem View.Timed.query {v : View} {clock : ℕ} (h : v.Timed clock) {key : LockKey}
    {statement : Statement} (hallowed : statement.allowed key v.pg)
    (hworked : statement.locks = true → v.worked = none) (answer : Except Thrown (List Row)) :
    { v with pg := v.pg.after clock statement answer : View }.Timed (clock + 1) := by
  have hsame : { v with pg := v.pg : View }.Timed (clock + 1) :=
    h.lose rfl (fun _ hg => hg) (fun _ hl => hl) rfl rfl
  have htime : ∀ {scope since}, v.pg.lock = some (scope, since) →
      (v.pg.lock.map fun l => (l.2, clock)) = some (since, clock) := by
    intro scope since hlock
    rw [hlock]
    rfl
  cases answer with
  | error err =>
      -- after an error no lock is believed in, so none is taken or given back now
      obtain ⟨htenure, hlock, -⟩ := after_error clock err hallowed
      refine h.lose rfl (fun _ hg => hg) (fun l hl => ?_) rfl htenure
      rw [show (v.pg.after clock statement (.error err)).lock = some l from hl] at hlock
      cases hlock
  | ok rows =>
      cases statement with
      | begin => exact h.lose rfl (fun _ hg => hg) (fun _ hl => hl) rfl rfl
      | advisoryXactLock k => exact h.lock (hworked rfl) _
      | advisoryLock k => exact h.lock (hworked rfl) _
      | tryAdvisoryXactLock k =>
          cases hrows : firstBool rows with
          | true =>
              rw [after_tryXact _ _ _ hrows]
              exact h.lock (hworked rfl) _
          | false =>
              rw [after_tryXact_refused _ _ _ hrows]
              exact hsame
      | tryAdvisoryLock k =>
          cases hrows : firstBool rows with
          | true =>
              rw [after_trySession _ _ _ hrows]
              exact h.lock (hworked rfl) _
          | false =>
              rw [after_trySession_refused _ _ _ hrows]
              exact hsame
      | commit =>
          obtain ⟨-, -, since, hlock⟩ := hallowed
          exact h.unlock hlock rfl (htime hlock)
      | rollback =>
          refine h.lose rfl (fun _ hg => hg) ?_ rfl rfl
          rintro l ⟨⟩
      | advisoryUnlock k =>
          obtain ⟨-, -, since, hlock⟩ := hallowed
          cases hrows : firstBool rows with
          | true =>
              rw [after_unlock _ _ _ hrows]
              exact h.unlock hlock rfl (htime hlock)
          | false =>
              rw [after_unlock_refused _ _ _ hrows]
              refine h.lose rfl (fun _ hg => hg) ?_ rfl rfl
              rintro l ⟨⟩

theorem View.Timed.after {v : View} {clock : ℕ} (h : v.Timed clock) {key : LockKey}
    {layers : LockLayers} {c : Call} (hallowed : (lockProtocol T key layers).allowed v c)
    (answer : Answer T c) :
    ((lockProtocol T key layers).after clock v c answer).Timed (clock + 1) := by
  cases c with
  | acquire k opts wait =>
      cases answer with
      | error err => exact h.lose rfl (fun _ hg => hg) (fun _ hl => hl) rfl rfl
      | ok g =>
          obtain ⟨-, rfl⟩ := hallowed
          refine ⟨by rintro t ⟨⟩, ?_, by rintro scope a ⟨⟩, by rintro a b t ⟨⟩, by rintro a b t ⟨⟩⟩
          rintro g' a ⟨⟩
          exact ⟨by omega, by rintro t ⟨⟩⟩
  | release g =>
      cases answer with
      | error err => exact h.lose rfl (by rintro g ⟨⟩) (fun _ hl => hl) rfl rfl
      | ok released =>
          cases released with
          | false => exact h.lose rfl (by rintro g ⟨⟩) (fun _ hl => hl) rfl rfl
          | true =>
              obtain ⟨⟨since, hgrant⟩, -⟩ := hallowed
              refine ⟨fun ht => ?_, by rintro g a ⟨⟩, fun hl => ?_, fun ht hw => ?_, h.pg_tenure⟩
              · have hlt := h.worked ht
                omega
              · obtain ⟨hlt, hbefore⟩ := h.locked hl
                exact ⟨by omega, hbefore⟩
              · -- it was granted before the work, and is given back after it
                have htenure : (v.lease.grant.map fun g => (g.2, clock)) = some _ := ht
                rw [hgrant] at htenure
                cases htenure
                exact ⟨(h.granted hgrant).2 _ hw, h.worked hw⟩
  | connect =>
      cases answer with
      | error err => exact h.lose rfl (fun _ hg => hg) (fun _ hl => hl) rfl rfl
      | ok client =>
          obtain ⟨hpg, -⟩ := hallowed
          refine h.lose rfl (fun _ hg => hg) (by rintro l ⟨⟩) rfl ?_
          rw [hpg]
          rfl
  | query client statement =>
      obtain ⟨-, hstatement, hworked⟩ := hallowed
      exact h.query hstatement hworked answer
  | giveBack client failed => exact h.lose rfl (fun _ hg => hg) (by rintro l ⟨⟩) rfl rfl
  | work guarded =>
      -- the work is allowed once, while nothing has been given back
      obtain ⟨-, hlease, hpg, -⟩ := hallowed
      refine ⟨?_, fun hg => ?_, fun hl => ?_, fun ht => ?_, fun ht => ?_⟩
      · rintro t ⟨⟩
        omega
      · obtain ⟨hlt, -⟩ := h.granted hg
        refine ⟨by omega, ?_⟩
        rintro t ⟨⟩
        exact hlt
      · obtain ⟨hlt, -⟩ := h.locked hl
        refine ⟨by omega, ?_⟩
        rintro t ⟨⟩
        exact hlt
      · rw [show v.lease.tenure = some _ from ht] at hlease
        cases hlease
      · rw [show v.pg.tenure = some _ from ht] at hpg
        cases hpg

/-! ## §2. Every interleaving. -/

/-- What a client runs. -/
structure Job where
  scope : PgScope
  key : LockKey
  layers : LockLayers
  wait : Bool
  opts : AcquireOptions
  lease : Bool
  pool : Bool

def Job.code (T : Type) (job : Job) : Routine T T :=
  withGuard job.scope job.key job.layers job.wait job.opts job.lease job.pool

/-- Every client runs its job, against one environment. -/
def fleet (T : Type) (jobs : ι → Job) [DecidableEq ι] :
    Transitions.System (Network.State Call (Answer T) (Except Thrown T) ι World View)
      (Network.Act ι (Choice T) Noise) :=
  (environment T ι).system (fun i => lockProtocol T (jobs i).key (jobs i).layers) World.start
    (fun i => (jobs i).code T) fun _ => View.start

/-- The authority, the database and the views agree. -/
structure FleetInv (jobs : ι → Job) (clock : ℕ) (w : World) (view : ι → View) : Prop where
  lease : LeaseInv (fun i => (jobs i).key) clock w.lease fun i => (view i).lease
  pg : PgInv (fun i => (jobs i).key.advisory) clock w.pg fun i => (view i).pg
  timed : ∀ i, (view i).Timed clock

namespace FleetInv

variable {jobs : ι → Job} {clock : ℕ} {w w' : World} {view : ι → View}

theorem start (jobs : ι → Job) : FleetInv jobs 0 World.start fun _ => View.start :=
  ⟨LeaseInv.start _, PgInv.start _, fun _ => .start⟩

variable [DecidableEq ι]

theorem lease_update (view : ι → View) (i : ι) (v : View) :
    (fun j => (Function.update view i v j).lease)
      = Function.update (fun j => (view j).lease) i v.lease := by
  funext j
  exact Function.apply_update (fun _ => View.lease) view i v j

theorem pg_update (view : ι → View) (i : ι) (v : View) :
    (fun j => (Function.update view i v j).pg)
      = Function.update (fun j => (view j).pg) i v.pg := by
  funext j
  exact Function.apply_update (fun _ => View.pg) view i v j

/-- What a served call does to the authority. -/
theorem serve_lease (h : FleetInv jobs clock w view) {i : ι} {c : Call} {choice : Choice T}
    {answer : Answer T c}
    (hallowed : (lockProtocol T (jobs i).key (jobs i).layers).allowed (view i) c)
    (hserve : serve w i c choice = some (answer, w')) :
    LeaseInv (fun i => (jobs i).key) (clock + 1) w'.lease
      (Function.update (fun j => (view j).lease) i
        ((lockProtocol T (jobs i).key (jobs i).layers).after clock (view i) c answer).lease) := by
  have hsame : LeaseInv (fun i => (jobs i).key) (clock + 1) w.lease
      (Function.update (fun j => (view j).lease) i (view i).lease) := by
    rw [Function.update_eq_self]
    exact h.lease.tick
  cases c with
  | acquire k opts wait =>
      obtain ⟨rfl, -⟩ := hallowed
      rcases serve_acquire hserve with ⟨err, rfl, rfl⟩ |
        ⟨g, lease, hkey, hgrant, rfl, rfl | ⟨err, rfl⟩⟩
      · exact hsame
      · exact h.lease.take hkey hgrant
      · show LeaseInv _ _ lease (Function.update (fun j => (view j).lease) i (view i).lease)
        rw [Function.update_eq_self]
        exact h.lease.grantLost hgrant
  | release g =>
      obtain ⟨⟨since, hgrant⟩, -⟩ := hallowed
      -- it did not get through, was answered, or was made and its answer lost
      rcases serve_release hserve with ⟨err, rfl, rfl⟩ | ⟨rfl, rfl | ⟨err, rfl⟩⟩
      · exact h.lease.forget i g false
      · cases hmatched : w.lease.matched g with
        | true =>
            have hrelease : w.lease.release g = (true, w.lease.free g.key) := by
              unfold LeaseWorld.release
              rw [if_pos hmatched]
            have hgiven := h.lease.give hgrant hmatched
            rw [hrelease]
            show LeaseInv _ _ _ (Function.update _ i
              { grant := none, tenure := (view i).lease.grant.map fun g => (g.2, clock) })
            rw [hgrant]
            exact hgiven
        | false =>
            have hrelease : w.lease.release g = (false, w.lease) := by
              unfold LeaseWorld.release
              rw [hmatched]
              rfl
            rw [hrelease]
            exact h.lease.forget i g false
      · exact h.lease.forget i g true
  | connect =>
      rcases serve_connect hserve with ⟨err, rfl, rfl⟩ | ⟨client, -, rfl, rfl⟩ | ⟨rfl, rfl⟩
      · exact hsame
      · exact hsame
      · exact hsame
  | query client statement =>
      rcases serve_query hserve with ⟨err, rfl, rfl⟩ | ⟨rows, session, -, -, rfl, -⟩
      · exact hsame
      · exact hsame
  | giveBack client failed =>
      rw [serve_giveBack hserve]
      exact hsame
  | work guarded =>
      rw [serve_work hserve]
      exact hsame

/-- What a served call does to the database. -/
theorem serve_pg (h : FleetInv jobs clock w view) {i : ι} {c : Call} {choice : Choice T}
    {answer : Answer T c}
    (hallowed : (lockProtocol T (jobs i).key (jobs i).layers).allowed (view i) c)
    (hserve : serve w i c choice = some (answer, w')) :
    PgInv (fun i => (jobs i).key.advisory) (clock + 1) w'.pg
      (Function.update (fun j => (view j).pg) i
        ((lockProtocol T (jobs i).key (jobs i).layers).after clock (view i) c answer).pg) := by
  have hsame : PgInv (fun i => (jobs i).key.advisory) (clock + 1) w.pg
      (Function.update (fun j => (view j).pg) i (view i).pg) := by
    rw [Function.update_eq_self]
    exact h.pg.tick
  cases c with
  | acquire k opts wait =>
      rcases serve_acquire hserve with ⟨err, rfl, rfl⟩ | ⟨g, lease, -, -, rfl, rfl | ⟨err, rfl⟩⟩
      · exact hsame
      · exact hsame
      · exact hsame
  | release g =>
      rcases serve_release hserve with ⟨err, rfl, rfl⟩ | ⟨rfl, rfl | ⟨err, rfl⟩⟩
      · exact hsame
      · cases (w.lease.release g).1
        · exact hsame
        · exact hsame
      · exact hsame
  | connect =>
      obtain ⟨hpg, -⟩ := hallowed
      rcases serve_connect hserve with ⟨err, rfl, rfl⟩ | ⟨client, hidle, rfl, rfl⟩ | ⟨rfl, rfl⟩
      · exact hsame
      · -- an idle connection is with nobody, and is taken out of the idle ones
        refine h.pg.connected hpg (fun j hj => (h.pg.owned hj).2 hidle)
          ⟨h.pg.idle_lt hidle, ?_⟩ (le_refl _) (fun c' hc' => List.mem_of_mem_erase hc')
          (h.pg.idle_nodup.erase _) fun _ => rfl
        exact h.pg.idle_nodup.not_mem_erase
      · -- a new connection has a number that nobody knows yet
        refine h.pg.connected hpg (fun j hj => absurd (h.pg.owned hj).1 (lt_irrefl _))
          ⟨Nat.lt_succ_self _, fun hidle => absurd (h.pg.idle_lt hidle) (lt_irrefl _)⟩
          (Nat.le_succ _) (fun _ hc' => hc') h.pg.idle_nodup fun hj => ?_
        exact Function.update_of_ne (Nat.ne_of_lt (h.pg.owned hj).1) _ _
  | query client statement =>
      obtain ⟨hclient, hstatement, -⟩ := hallowed
      rcases serve_query hserve with ⟨err, rfl, rfl⟩ |
        ⟨rows, session, halive, hexec, rfl, rfl | ⟨err, rfl, -⟩⟩
      · -- the statement failed before it did anything: its session is as it was
        have hfailed := h.pg.failed (s := w'.pg.sessions client) err hclient hstatement id
        unfold PgWorld.set at hfailed
        rw [Function.update_eq_self] at hfailed
        exact hfailed
      · exact h.pg.served hclient rfl hstatement halive hexec
      · exact h.pg.failed err hclient hstatement fun _ => halive
  | giveBack client failed =>
      rw [serve_giveBack hserve]
      exact h.pg.givenBack failed hallowed.1
  | work guarded =>
      rw [serve_work hserve]
      exact hsame

/-- A served call keeps the invariant. -/
theorem serve (h : FleetInv jobs clock w view) {i : ι} {c : Call} {choice : Choice T}
    {answer : Answer T c}
    (hallowed : (lockProtocol T (jobs i).key (jobs i).layers).allowed (view i) c)
    (hserve : serve w i c choice = some (answer, w')) :
    FleetInv jobs (clock + 1) w' (Function.update view i
      ((lockProtocol T (jobs i).key (jobs i).layers).after clock (view i) c answer)) where
  lease := by
    rw [lease_update]
    exact h.serve_lease hallowed hserve
  pg := by
    rw [pg_update]
    exact h.serve_pg hallowed hserve
  timed j := by
    by_cases hji : j = i
    · rw [hji, Function.update_self]
      exact (h.timed i).after hallowed answer
    · rw [Function.update_of_ne hji]
      exact (h.timed j).lose rfl (fun _ hg => hg) (fun _ hl => hl) rfl rfl

omit [DecidableEq ι] in
/-- A lost connection or a lapsed lease keeps it. -/
theorem drift (h : FleetInv jobs clock w view) {noise : Noise}
    (hdrift : drift w noise = some w') : FleetInv jobs (clock + 1) w' view := by
  have htimed : ∀ i, (view i).Timed (clock + 1) := fun i =>
    (h.timed i).lose rfl (fun _ hg => hg) (fun _ hl => hl) rfl rfl
  cases noise with
  | kill client =>
      cases hdrift
      refine ⟨h.lease.tick, h.pg.lose fun c halive => ?_, htimed⟩
      by_cases hc : c = client
      · rw [hc, Function.update_self] at halive
        cases halive
      · exact Function.update_of_ne hc _ _
  | lapse key =>
      cases hdrift
      exact ⟨h.lease.free key (fun _ _ hg => hg) fun _ => rfl, h.pg.tick, htimed⟩

end FleetInv

variable [DecidableEq ι] {jobs : ι → Job}
  {s : Network.State Call (Answer T) (Except Thrown T) ι World View}

/-- The invariant of a fleet, and what is left of every client's protocol. -/
theorem fleet_invariant (h : (fleet T jobs).Reachable s) :
    FleetInv jobs s.clock s.world s.view ∧
      ∀ i, Obeys (lockProtocol T (jobs i).key (jobs i).layers) (View.final (jobs i).layers)
        (s.view i) (s.code i) := by
  apply Network.invariant (J := FleetInv jobs)
    (Q := fun i => View.final (T := T) (jobs i).layers) _ (FleetInv.start jobs) _ _ h
  · intro i
    exact withGuard_obeys _ _ _ _ _ _ _
  · intro s i choice c next r w _ _ hJ hallowed hserve
    exact hJ.serve hallowed hserve
  · intro s noise w _ hJ hdrift
    exact hJ.drift hdrift

/-! ## §3. Exclusion. -/

/-- Both jobs take the same advisory lock. -/
def Job.SharesLock (a b : Job) : Prop :=
  a.layers.pgAdvisory = true ∧ b.layers.pgAdvisory = true ∧ a.key.advisory = b.key.advisory

/-- Both jobs take the same lease. -/
def Job.SharesLease (a b : Job) : Prop :=
  a.layers.fiducia = true ∧ b.layers.fiducia = true ∧ a.key = b.key

/-- A client at work that shares the lock has a living session that holds it, or
its session is closed. -/
theorem holding_at_work (h : (fleet T jobs).Reachable s) {i : ι} {g : Guarded}
    {next : Except Thrown T → Routine T T} (hi : s.code i = .call (.work g) next)
    (hlayer : (jobs i).layers.pgAdvisory = true) :
    ∃ c, g.client = some c ∧ ((s.world.pg.sessions c).alive = true →
      ∃ t, s.world.pg.holding (s.view i).pg = some t) := by
  have hobeys := (fleet_invariant h).2 i
  rw [hi] at hobeys
  obtain ⟨hclient, hsome, hlock, -⟩ := hobeys.1.2.2.2.2 hlayer
  obtain ⟨c, hc⟩ := Option.isSome_iff_exists.mp hsome
  obtain ⟨⟨scope, t⟩, hl⟩ := Option.isSome_iff_exists.mp hlock
  exact ⟨c, hclient.trans hc, fun halive =>
    ⟨t, PgWorld.holding_eq_some.mpr ⟨c, scope, hc, hl, halive⟩⟩⟩

/-- A client at work that shares the lease has a grant, and holds it if the
authority still has it. -/
theorem leasing_at_work (h : (fleet T jobs).Reachable s) {i : ι} {g : Guarded}
    {next : Except Thrown T → Routine T T} (hi : s.code i = .call (.work g) next)
    (hlayer : (jobs i).layers.fiducia = true) :
    ∃ grant, g.grant = some grant ∧ (s.world.lease.matched grant = true →
      ∃ t, s.world.lease.holding (s.view i).lease = some t) := by
  have hobeys := (fleet_invariant h).2 i
  rw [hi] at hobeys
  obtain ⟨grant, t, hgrant, hview⟩ := hobeys.1.2.2.2.1 hlayer
  exact ⟨grant, hgrant, fun hmatched =>
    ⟨t, LeaseWorld.holding_eq_some.mpr ⟨grant, hview, of_decide_eq_true hmatched⟩⟩⟩

/-- **Nobody works alongside.**  Where two clients are at work at once and share
an advisory lock, the session of one of them is closed; where they share a
lease, the grant of one of them is not the one the authority has. -/
theorem working_alone (h : (fleet T jobs).Reachable s) {i j : ι} (hij : i ≠ j) {g g' : Guarded}
    {next next' : Except Thrown T → Routine T T} (hi : s.code i = .call (.work g) next)
    (hj : s.code j = .call (.work g') next') :
    ((jobs i).SharesLock (jobs j) → ∃ c c', g.client = some c ∧ g'.client = some c' ∧
      ((s.world.pg.sessions c).alive = false ∨ (s.world.pg.sessions c').alive = false)) ∧
    ((jobs i).SharesLease (jobs j) → ∃ a b, g.grant = some a ∧ g'.grant = some b ∧
      (s.world.lease.matched a = false ∨ s.world.lease.matched b = false)) := by
  have hinv := (fleet_invariant h).1
  constructor
  · rintro ⟨hpi, hpj, hkeys⟩
    obtain ⟨c, hc, hholds⟩ := holding_at_work h hi hpi
    obtain ⟨c', hc', hholds'⟩ := holding_at_work h hj hpj
    refine ⟨c, c', hc, hc', ?_⟩
    cases halive : (s.world.pg.sessions c).alive with
    | false => exact .inl rfl
    | true =>
        cases halive' : (s.world.pg.sessions c').alive with
        | false => exact .inr rfl
        | true =>
            obtain ⟨t, ht⟩ := hholds halive
            obtain ⟨u, hu⟩ := hholds' halive'
            exact absurd (hinv.pg.exclusive.one hkeys ht hu) hij
  · rintro ⟨hli, hlj, hkeys⟩
    obtain ⟨a, ha, hholds⟩ := leasing_at_work h hi hli
    obtain ⟨b, hb, hholds'⟩ := leasing_at_work h hj hlj
    refine ⟨a, b, ha, hb, ?_⟩
    cases hmatched : s.world.lease.matched a with
    | false => exact .inl rfl
    | true =>
        cases hmatched' : s.world.lease.matched b with
        | false => exact .inr rfl
        | true =>
            obtain ⟨t, ht⟩ := hholds hmatched
            obtain ⟨u, hu⟩ := hholds' hmatched'
            exact absurd (hinv.lease.exclusive.one hkeys ht hu) hij

/-- Two clients of one key under both layers, the second one at session level. -/
def pairJob (second : Bool) : Job where
  scope := if second then .session else .transaction
  key := unitKey
  layers := { fiducia := true, pgAdvisory := true }
  wait := true
  opts := defaultAcquireOptions
  lease := true
  pool := true

def pairStart : Network.State Call (Answer ℕ) (Except Thrown ℕ) Bool World View where
  clock := 0
  world := World.start
  code i := (pairJob i).code ℕ
  view _ := .start

/-- The first client loses its lease and its connection at work, and the second
one gets both layers. -/
def lostAtWork : List (Network.Act Bool (Choice ℕ) Noise) :=
  [.go false (.grants "svc-a" 1 none), .go false .opens, .go false .serves, .go false .serves,
    .drift (.lapse unitKey), .drift (.kill 0),
    .go true (.grants "svc-b" 2 none), .go true .opens, .go true .serves]

def bothAtWork : Network.State Call (Answer ℕ) (Except Thrown ℕ) Bool World View :=
  ((fleet ℕ pairJob).run pairStart lostAtWork).getD pairStart

theorem working_alone_lost :
    ((pairJob false).SharesLock (pairJob true) → ∃ c c', some 0 = some c ∧ some 1 = some c' ∧
      ((bothAtWork.world.pg.sessions c).alive = false ∨
        (bothAtWork.world.pg.sessions c').alive = false)) ∧
    ((pairJob false).SharesLease (pairJob true) → ∃ a b,
      some ({ unitGrant with holder := "svc-a" } : LeaseGrant) = some a ∧
        some ({ unitGrant with holder := "svc-b", fencingToken := 2 } : LeaseGrant) = some b ∧
        (bothAtWork.world.lease.matched a = false ∨ bothAtWork.world.lease.matched b = false)) :=
  working_alone (T := ℕ) (i := false) (j := true)
    (.of_run (s := pairStart) rfl
      (rfl : (fleet ℕ pairJob).run pairStart lostAtWork = some bothAtWork)) (by decide) rfl rfl

/-- Two tenures, each around its work, one after the other. -/
def OneAfterTheOther (first second : Option (ℕ × ℕ)) (t u : ℕ) : Prop :=
  ∃ a b c d, first = some (a, b) ∧ second = some (c, d) ∧ a < t ∧ t < b ∧ c < u ∧ u < d ∧
    (b < c ∨ d < a)

/-- **Exclusion.**  Where two clients returned a value and share a layer, one
gave its lock back before the other got it, and each had it from before to after
its work: whatever connections were lost, leases lapsed and answers never came. -/
theorem tenures_disjoint (h : (fleet T jobs).Reachable s) {i j : ι} (hij : i ≠ j) {x y : T}
    (hi : s.code i = .ret (.ok x)) (hj : s.code j = .ret (.ok y)) :
    ∃ t u, (s.view i).worked = some t ∧ (s.view j).worked = some u ∧
      ((jobs i).SharesLock (jobs j) →
        OneAfterTheOther (s.view i).pg.tenure (s.view j).pg.tenure t u) ∧
      ((jobs i).SharesLease (jobs j) →
        OneAfterTheOther (s.view i).lease.tenure (s.view j).lease.tenure t u) := by
  obtain ⟨hinv, hobeys⟩ := fleet_invariant h
  have hfinal : ∀ {k : ι} {z : T}, s.code k = .ret (.ok z) → (s.view k).worked.isSome = true ∧
      ((jobs k).layers.fiducia = true → (s.view k).lease.tenure.isSome = true) ∧
      ((jobs k).layers.pgAdvisory = true → (s.view k).pg.tenure.isSome = true) := by
    intro k z hk
    have hend := hobeys k
    rw [hk] at hend
    exact hend.2.2 z rfl
  obtain ⟨hwi, hlease, hpg⟩ := hfinal hi
  obtain ⟨hwj, hlease', hpg'⟩ := hfinal hj
  obtain ⟨t, ht⟩ := Option.isSome_iff_exists.mp hwi
  obtain ⟨u, hu⟩ := Option.isSome_iff_exists.mp hwj
  refine ⟨t, u, ht, hu, ?_, ?_⟩
  · rintro ⟨hpi, hpj, hkeys⟩
    obtain ⟨⟨a, b⟩, hab⟩ := Option.isSome_iff_exists.mp (hpg hpi)
    obtain ⟨⟨c, d⟩, hcd⟩ := Option.isSome_iff_exists.mp (hpg' hpj)
    obtain ⟨hat, htb⟩ := (hinv.timed i).pg_tenure hab ht
    obtain ⟨hcu, hud⟩ := (hinv.timed j).pg_tenure hcd hu
    exact ⟨a, b, c, d, hab, hcd, hat, htb, hcu, hud,
      hinv.pg.exclusive.disjoint hij hkeys hab hcd⟩
  · rintro ⟨hli, hlj, hkeys⟩
    obtain ⟨⟨a, b⟩, hab⟩ := Option.isSome_iff_exists.mp (hlease hli)
    obtain ⟨⟨c, d⟩, hcd⟩ := Option.isSome_iff_exists.mp (hlease' hlj)
    obtain ⟨hat, htb⟩ := (hinv.timed i).lease_tenure hab ht
    obtain ⟨hcu, hud⟩ := (hinv.timed j).lease_tenure hcd hu
    exact ⟨a, b, c, d, hab, hcd, hat, htb, hcu, hud,
      hinv.lease.exclusive.disjoint hij hkeys hab hcd⟩

/-- The first client is done before the second one begins. -/
def handover : List (Network.Act Bool (Choice ℕ) Noise) :=
  [.go false (.grants "svc-a" 1 none), .go false .opens, .go false .serves, .go false .serves,
    .go false (.works (.ok 7)), .go false .serves, .go false .serves, .go false .serves,
    .go true (.grants "svc-b" 2 none), .go true (.reuses 0), .go true .serves,
    .go true (.works (.ok 8)), .go true .serves, .go true .serves, .go true .serves]

def handedOver : Network.State Call (Answer ℕ) (Except Thrown ℕ) Bool World View :=
  ((fleet ℕ pairJob).run pairStart handover).getD pairStart

theorem tenures_disjoint_handover :
    ∃ t u, (handedOver.view false).worked = some t ∧ (handedOver.view true).worked = some u ∧
      ((pairJob false).SharesLock (pairJob true) →
        OneAfterTheOther (handedOver.view false).pg.tenure (handedOver.view true).pg.tenure t u) ∧
      ((pairJob false).SharesLease (pairJob true) →
        OneAfterTheOther (handedOver.view false).lease.tenure
          (handedOver.view true).lease.tenure t u) :=
  tenures_disjoint (T := ℕ) (i := false) (j := true) (x := 7) (y := 8)
    (.of_run (s := pairStart) rfl
      (rfl : (fleet ℕ pairJob).run pairStart handover = some handedOver)) (by decide) rfl rfl

end ClipTown.Locks
