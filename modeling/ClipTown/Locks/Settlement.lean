/-
  ClipTown.Locks.Settlement — every client comes to its end, and leaves nothing.

  The environment is HONEST where it answers as it can: a lock that somebody has
  is waited for, a lease that somebody has is refused, and only a closed
  connection fails.

    • `nothing_left_leased`, `nothing_left_locked` — what is left when all
      clients are done,
    • `never_stuck` — while one of them is not done, an honest step is possible,
    • `all_settle` — honest steps, nine for each client at most, bring all of
      them to their end.
-/
import ClipTown.Locks.PoolInv
import Mathlib.Data.Fintype.BigOperators

namespace ClipTown.Locks

open Interaction

variable {T : Type} {ι : Type*} [DecidableEq ι] {jobs : ι → Job}
  {s : Network.State Call (Answer T) (Except Thrown T) ι World View}

/-! ## §1. What is left of the leases. -/

/-- The call loses no lease: the answer of a grant comes, and a release gets there. -/
def keepsLease {V : Type*} (s : Network.State Call (Answer T) (Except Thrown T) ι World V) :
    Network.Act ι (Choice T) Noise → Prop
  | .go _ (.losesGrant _ _ _) => False
  | .go i (.fails _) =>
      match s.code i with
      | .call (.release _) _ => False
      | _ => True
  | _ => True

/-- Every current grant is a client's. -/
def LeaseKept (w : LeaseWorld) (view : ι → LeaseView) : Prop :=
  ∀ k holder token, w.current k = some (holder, token) → ∃ i g t, (view i).grant = some (g, t) ∧
    g.key = k ∧ g.holder = holder ∧ g.fencingToken = token

namespace LeaseKept

variable {w w' : LeaseWorld} {view : ι → LeaseView}

theorem take (h : LeaseKept w view) {i : ι} {g : LeaseGrant} {t : ℕ} (hi : (view i).grant = none)
    (hw : w.grant g.key g.holder g.fencingToken = some w') :
    LeaseKept w' (Function.update view i { (view i) with grant := some (g, t) }) := by
  unfold LeaseWorld.grant at hw
  split at hw
  · cases hw
    intro k holder token hk
    by_cases hkg : k = g.key
    · simp only [hkg, Function.update_self] at hk
      cases hk
      exact ⟨i, g, t, by rw [Function.update_self], hkg.symm, rfl, rfl⟩
    · simp only [Function.update_of_ne hkg] at hk
      obtain ⟨j, g', u, hj, hrest⟩ := h k holder token hk
      refine ⟨j, g', u, ?_, hrest⟩
      rw [Function.update_of_ne]
      · exact hj
      · intro hji
        rw [hji, hi] at hj
        cases hj
  · cases hw

omit [DecidableEq ι] in
theorem free (h : LeaseKept w view) (k : LockKey) : LeaseKept (w.free k) view := by
  intro k' holder token hk
  unfold LeaseWorld.free at hk
  by_cases hkk : k' = k
  · simp only [hkk, Function.update_self] at hk
    cases hk
  · simp only [Function.update_of_ne hkk] at hk
    exact h k' holder token hk

/-- A release that gets to the authority, whatever is answered. -/
theorem release (h : LeaseKept w view) {i : ι} {g : LeaseGrant} {t : ℕ}
    (hi : (view i).grant = some (g, t)) (v : LeaseView) :
    LeaseKept (w.release g).2 (Function.update view i v) := by
  unfold LeaseWorld.release
  split
  · intro k holder token hk
    by_cases hkg : k = g.key
    · simp only [LeaseWorld.free, hkg, Function.update_self] at hk
      cases hk
    · obtain ⟨j, g', u, hj, hkey, hrest⟩ := h.free g.key k holder token hk
      refine ⟨j, g', u, ?_, hkey, hrest⟩
      rw [Function.update_of_ne]
      · exact hj
      · intro hji
        rw [hji, hi] at hj
        cases hj
        exact hkg hkey.symm
  · rename_i hnot
    intro k holder token hk
    obtain ⟨j, g', u, hj, hkey, hholder, htoken⟩ := h k holder token hk
    refine ⟨j, g', u, ?_, hkey, hholder, htoken⟩
    rw [Function.update_of_ne]
    · exact hj
    · -- a grant that is not current is nobody's
      intro hji
      rw [hji, hi] at hj
      cases hj
      refine hnot (decide_eq_true ?_)
      rw [hkey, hk, hholder, htoken]

end LeaseKept

/-- In every interleaving that loses no lease the current grants are the clients'. -/
theorem lease_kept (h : (fleet T jobs).ReachableBy keepsLease s) :
    LeaseKept s.world.lease fun i => (s.view i).lease := by
  apply (Network.invariant
    (J := fun _ w view => LeaseKept w.lease fun i => (view i).lease)
    (fun i => withGuard_obeys (jobs i).scope (jobs i).key (jobs i).layers (jobs i).wait
      (jobs i).opts (jobs i).lease (jobs i).pool) ?_ ?_ ?_ h).1
  · rintro k holder token ⟨⟩
  · intro s i choice c next r w hcode hkeeps hJ hallowed hserved
    have hserve : serve s.world i c choice = some (r, w) := hserved
    rw [FleetInv.lease_update]
    have hsame : LeaseKept s.world.lease
        (Function.update (fun j => (s.view j).lease) i (s.view i).lease) := by
      rw [Function.update_eq_self]
      exact hJ
    cases c with
    | acquire k opts wait =>
        obtain ⟨rfl, hstart⟩ := hallowed
        cases choice with
        | grants generated token expires =>
            obtain ⟨lease, hlease, heq⟩ := Option.map_eq_some_iff.mp hserve
            cases heq
            have hnone : (s.view i).lease.grant = none := by
              rw [hstart]
              rfl
            exact hJ.take (i := i) (g := ⟨_, _, token, expires, opts.ttlMs⟩) hnone hlease
        | fails err =>
            cases hserve
            exact hsame
        -- the run has no grant whose answer is lost
        | losesGrant generated token err => exact absurd hkeeps id
        | serves => cases hserve
        | loses err => cases hserve
        | reuses client => cases hserve
        | opens => cases hserve
        | works result => cases hserve
    | release g =>
        obtain ⟨⟨since, hgrant⟩, -⟩ := hallowed
        cases choice with
        | serves =>
            cases hserve
            exact hJ.release hgrant _
        | loses err =>
            cases hserve
            exact hJ.release hgrant _
        | fails err =>
            -- nor a release that does not get through
            simp only [keepsLease, hcode] at hkeeps
        | grants generated token expires => cases hserve
        | losesGrant generated token err => cases hserve
        | reuses client => cases hserve
        | opens => cases hserve
        | works result => cases hserve
    | connect =>
        rcases serve_connect hserve with ⟨err, rfl, rfl⟩ | ⟨client, -, rfl, rfl⟩ | ⟨rfl, rfl⟩
        · exact hsame
        · exact hsame
        · exact hsame
    | query client statement =>
        rcases serve_query hserve with ⟨err, rfl, rfl⟩ | ⟨rows, session, -, -, rfl, -⟩
        · exact hsame
        · exact hsame
    | giveBack client failed =>
        rw [serve_giveBack hserve]
        exact hsame
    | work guarded =>
        rw [serve_work hserve]
        exact hsame
  · intro s noise w _ hJ hdrift
    cases noise with
    | kill client =>
        cases hdrift
        exact hJ
    | lapse key =>
        cases hdrift
        exact hJ.free key

/-- A client that is done has no grant and no connection. -/
theorem done_has_nothing (h : (fleet T jobs).Reachable s) {i : ι} {result : Except Thrown T}
    (hi : s.code i = .ret result) :
    (s.view i).lease.grant = none ∧ (s.view i).pg.client = none := by
  have hend := (fleet_invariant h).2 i
  rw [hi] at hend
  exact ⟨hend.1, hend.2.1⟩

/-- **No lease is left.**  When every client is done, and no grant's answer and
no release was lost, the authority has no grant: whatever else went wrong. -/
theorem nothing_left_leased (h : (fleet T jobs).ReachableBy keepsLease s)
    (hdone : ∀ i, ∃ result, s.code i = .ret result) (k : LockKey) :
    s.world.lease.current k = none := by
  cases hk : s.world.lease.current k with
  | none => rfl
  | some granted =>
      obtain ⟨holder, token⟩ := granted
      -- a grant that is left is some client's, and that client is done
      obtain ⟨i, g, t, hi, -⟩ := lease_kept h k holder token hk
      obtain ⟨result, hresult⟩ := hdone i
      rw [(done_has_nothing h.reachable hresult).1] at hi
      cases hi

theorem handedOver_keepsLease : (fleet ℕ pairJob).ReachableBy keepsLease handedOver := by
  refine .of_run (s := pairStart) (.init rfl) ?_
    (rfl : (fleet ℕ pairJob).run pairStart handover = some handedOver)
  repeat' first | exact trivial | refine ⟨trivial, fun _ _ => ?_⟩

/-- One client after the other. -/
theorem nothing_left_leased_handover : handedOver.world.lease.current unitKey = none :=
  nothing_left_leased handedOver_keepsLease
    (fun
      | false => ⟨.ok 7, rfl⟩
      | true => ⟨.ok 8, rfl⟩) unitKey

/-! ## §2. What is left of the locks. -/

theorem left_locked (h : (fleet T jobs).ReachableBy keepsPool s)
    (hdone : ∀ i, ∃ result, s.code i = .ret result) (c : Client) :
    s.world.pg.sessions c = .fresh ∧ c ∈ s.world.pg.idle ∨ s.world.pg.sessions c = .closed := by
  have hpool := pool_invariant h
  cases halive : (s.world.pg.sessions c).alive with
  | false => exact .inr (hpool.closed halive)
  | true =>
      -- a living session is idle, or with a client
      rcases hpool.known halive with hidle | ⟨i, hi⟩
      · exact .inl ⟨hpool.idle hidle halive, hidle⟩
      · obtain ⟨result, hresult⟩ := hdone i
        have hnone := (done_has_nothing h.reachable hresult).2
        rw [show (s.view i).pg.client = some c from hi] at hnone
        cases hnone

/-- **No lock is left.**  Unless a statement that begins a transaction or locks
at session level failed after it was executed, the pool keeps clean connections
only, and when every client is done, every session is closed or one of these. -/
theorem nothing_left_locked (h : (fleet T jobs).ReachableBy keepsPool s) :
    (∀ c ∈ s.world.pg.idle, (s.world.pg.sessions c).locks = [] ∧
      (s.world.pg.sessions c).inTx = false) ∧
    ((∀ i, ∃ result, s.code i = .ret result) → ∀ c,
      s.world.pg.sessions c = .fresh ∧ c ∈ s.world.pg.idle ∨ s.world.pg.sessions c = .closed) := by
  refine ⟨fun c hidle => ?_, left_locked h⟩
  have hpool := pool_invariant h
  cases halive : (s.world.pg.sessions c).alive with
  | true =>
      rw [hpool.idle hidle halive]
      exact ⟨rfl, rfl⟩
  | false =>
      rw [hpool.closed halive]
      exact ⟨rfl, rfl⟩

theorem handedOver_keepsPool : (fleet ℕ pairJob).ReachableBy keepsPool handedOver := by
  refine .of_run (s := pairStart) (.init rfl) ?_
    (rfl : (fleet ℕ pairJob).run pairStart handover = some handedOver)
  repeat' first | exact trivial | refine ⟨trivial, fun _ _ => ?_⟩

/-- One client after the other, on one connection. -/
theorem nothing_left_locked_handover :
    (∀ c ∈ handedOver.world.pg.idle, (handedOver.world.pg.sessions c).locks = [] ∧
      (handedOver.world.pg.sessions c).inTx = false) ∧
    ((∀ i, ∃ result, handedOver.code i = .ret result) → ∀ c,
      handedOver.world.pg.sessions c = .fresh ∧ c ∈ handedOver.world.pg.idle ∨
        handedOver.world.pg.sessions c = .closed) :=
  nothing_left_locked handedOver_keepsPool

/-! ## §3. Somebody can go on. -/

/-- What an environment without faults may choose for a call. -/
def Honest (w : World) : Call → Choice T → Prop
  | .acquire _ _ _, .grants _ _ _ => True
  | .acquire key _ _, .fails _ => w.lease.current key ≠ none
  | .release _, .serves => True
  | .connect, .reuses _ => True
  | .connect, .opens => True
  | .query _ _, .serves => True
  | .query client _, .fails _ => (w.pg.sessions client).alive = false
  | .giveBack _ _, .serves => True
  | .work _, .works _ => True
  | _, _ => False

omit [DecidableEq ι] in
/-- An honest answer to a call that does not wait for another session. -/
theorem honest_answer (w : World) (i : ι) (c : Call)
    (hfree : ∀ client statement, c = .query client statement →
      (w.pg.sessions client).alive = true → w.pg.execute client statement ≠ none) :
    ∃ (choice : Choice T) (answer : Answer T c) (w' : World),
      Honest w c choice ∧ serve w i c choice = some (answer, w') := by
  cases c with
  | acquire key opts wait =>
      cases hcurrent : w.lease.current key with
      | some granted =>
          refine ⟨.fails kaboom, .error kaboom, w, ?_, rfl⟩
          show w.lease.current key ≠ none
          rw [hcurrent]
          rintro ⟨⟩
      | none =>
          -- the next token is above all that were minted
          have hgrant : w.lease.grant key (opts.holder.getD "") (w.lease.minted key + 1) = some _ :=
            if_pos ⟨hcurrent, Nat.lt_succ_self _⟩
          have hserve : serve (T := T) w i (.acquire key opts wait)
              (.grants "" (w.lease.minted key + 1) none)
                = (w.lease.grant key (opts.holder.getD "") (w.lease.minted key + 1)).map _ := rfl
          rw [hgrant] at hserve
          exact ⟨.grants "" (w.lease.minted key + 1) none, _, _, trivial, hserve⟩
  | release g => exact ⟨.serves, _, _, trivial, rfl⟩
  -- the pool has no bound here: a connection can always be opened
  | connect => exact ⟨.opens, _, _, trivial, rfl⟩
  | giveBack client failed => exact ⟨.serves, (), _, trivial, rfl⟩
  | work guarded => exact ⟨.works (.error kaboom), _, _, trivial, rfl⟩
  | query client statement =>
      cases halive : (w.pg.sessions client).alive with
      | false => exact ⟨.fails kaboom, .error kaboom, w, halive, rfl⟩
      | true =>
          cases hexec : w.pg.execute client statement with
          | none => exact absurd hexec (hfree client statement rfl halive)
          | some done =>
              refine ⟨.serves, .ok done.1, { w with pg := w.pg.set client done.2 }, trivial, ?_⟩
              unfold serve
              simp only [halive, if_true, hexec]
              rfl

/-- A statement that waits finds its key on another session. -/
theorem execute_waits {w : PgWorld} {client : Client} {statement : Statement}
    (h : w.execute client statement = none) :
    statement.locks = true ∧
      ∃ other key, other ≠ client ∧ key ∈ (w.sessions other).locks := by
  have hother : ∀ {key}, w.heldElsewhere client key = true →
      ∃ other key, other ≠ client ∧ key ∈ (w.sessions other).locks := by
    intro key hheld
    unfold PgWorld.heldElsewhere at hheld
    rw [List.any_eq_true] at hheld
    obtain ⟨other, -, hmem⟩ := hheld
    simp only [Bool.and_eq_true, decide_eq_true_eq] at hmem
    exact ⟨other, key, hmem.1, hmem.2⟩
  cases statement with
  | advisoryXactLock key =>
      simp only [PgWorld.execute] at h
      split at h
      · rename_i hheld
        exact ⟨rfl, hother hheld⟩
      · cases h
  | advisoryLock key =>
      simp only [PgWorld.execute] at h
      split at h
      · rename_i hheld
        exact ⟨rfl, hother hheld⟩
      · cases h
  | tryAdvisoryXactLock key =>
      simp only [PgWorld.execute] at h
      split at h <;> cases h
  | tryAdvisoryLock key =>
      simp only [PgWorld.execute] at h
      split at h <;> cases h
  | advisoryUnlock key =>
      simp only [PgWorld.execute] at h
      split at h <;> cases h
  | begin => cases h
  | commit => cases h
  | rollback => cases h

omit [DecidableEq ι] in
/-- A client about to lock has nothing locked, so nobody waits for it. -/
theorem locks_nothing (hpool : PoolInv (fun i => (jobs i).key.advisory) s.world.pg
      fun i => (s.view i).pg) {i : ι} {client : Client} {statement : Statement}
    (hallowed : (lockProtocol T (jobs i).key (jobs i).layers).allowed (s.view i)
      (.query client statement))
    (hlocks : statement.locks = true) (halive : (s.world.pg.sessions client).alive = true) :
    (s.world.pg.sessions client).locks = [] := by
  obtain ⟨hclient, hstatement, -⟩ := hallowed
  have hexact := hpool.exact hclient halive
  have hview : (s.view i).pg.lock = none ∧ (s.view i).pg.dirty = false := by
    cases statement with
    | advisoryXactLock k => exact ⟨hstatement.2.2.1, hstatement.2.2.2.1⟩
    | tryAdvisoryXactLock k => exact ⟨hstatement.2.2.1, hstatement.2.2.2.1⟩
    | advisoryLock k => exact ⟨hstatement.2.2.1, hstatement.2.2.2.1⟩
    | tryAdvisoryLock k => exact ⟨hstatement.2.2.1, hstatement.2.2.2.1⟩
    | begin => cases hlocks
    | commit => cases hlocks
    | rollback => cases hlocks
    | advisoryUnlock k => cases hlocks
  unfold Session.locks
  rw [hexact.xact hview.2, hexact.sess (.inl hview.2), PgView.keys_none hview.1,
    PgView.keys_none hview.1]
  rfl

theorem goes_on (h : (fleet T jobs).ReachableBy keepsPool s) {i : ι} {c : Call}
    {next : Answer T c → Routine T T} (hi : s.code i = .call c next) :
    ∃ j c' choice s', (∃ next', s.code j = .call c' next') ∧ Honest s.world c' choice ∧
      (fleet T jobs).step s (.go j choice) = some s' := by
  have hpool := pool_invariant h
  have hobeys := (fleet_invariant h.reachable).2
  -- a pending call that does not wait is answered
  have hanswer : ∀ {j : ι} {c' : Call} {next' : Answer T c' → Routine T T},
      s.code j = .call c' next' →
      (∀ client statement, c' = .query client statement →
        (s.world.pg.sessions client).alive = true →
        s.world.pg.execute client statement ≠ none) →
      ∃ j c' choice s', (∃ next', s.code j = .call c' next') ∧ Honest s.world c' choice ∧
        (fleet T jobs).step s (.go j choice) = some s' := by
    intro j c' next' hj hfree
    obtain ⟨choice, answer, w', hhonest, hserve⟩ := honest_answer (T := T) s.world j c' hfree
    have hserved : (environment T ι).serve s.world j c' choice = some (answer, w') := hserve
    exact ⟨j, c', choice, _, ⟨next', hj⟩, hhonest, Network.go_step
      (P := fun i => lockProtocol T (jobs i).key (jobs i).layers) hj hserved⟩
  by_cases hwaits : ∃ client statement, c = .query client statement ∧
      (s.world.pg.sessions client).alive = true ∧ s.world.pg.execute client statement = none
  · -- the session it waits for is with a client that does not wait
    obtain ⟨client, statement, -, -, hexec⟩ := hwaits
    obtain ⟨-, other, key, -, hmem⟩ := execute_waits hexec
    have hsome : (s.world.pg.sessions other).locks ≠ [] := List.ne_nil_of_mem hmem
    have halive : (s.world.pg.sessions other).alive = true := by
      cases hdead : (s.world.pg.sessions other).alive with
      | true => rfl
      | false =>
          rw [hpool.closed hdead] at hsome
          exact absurd rfl hsome
    rcases hpool.known halive with hidle | ⟨j, hj⟩
    · rw [hpool.idle hidle halive] at hsome
      exact absurd rfl hsome
    · have hj' := hobeys j
      cases hcode : s.code j with
      | ret result =>
          have hnone := (done_has_nothing h.reachable hcode).2
          rw [show (s.view j).pg.client = some other from hj] at hnone
          cases hnone
      | call c' next' =>
          rw [hcode] at hj'
          refine hanswer hcode fun client' statement' hc' halive' hexec' => ?_
          subst hc'
          -- the client of that session asks on it, and a client that waits has nothing locked
          have hsame : client' = other :=
            Option.some.inj (hj'.1.1.symm.trans (show (s.view j).pg.client = some other from hj))
          rw [hsame] at hexec' hj'
          exact hsome (locks_nothing hpool hj'.1 (execute_waits hexec').1 halive)
  · refine hanswer hi fun client statement hc halive hexec => ?_
    exact hwaits ⟨client, statement, hc, halive, hexec⟩

/-- **No deadlock.**  While a client is not done, an honest environment can
answer some client: nobody waits for a lock that is with nobody, or for a client
that waits itself. -/
theorem never_stuck (h : (fleet T jobs).ReachableBy keepsPool s)
    (hundone : ∃ i, ∀ result, s.code i ≠ .ret result) :
    ∃ j c choice s', (∃ next, s.code j = .call c next) ∧ Honest s.world c choice ∧
      (fleet T jobs).step s (.go j choice) = some s' := by
  obtain ⟨i, hi⟩ := hundone
  cases hcode : s.code i with
  | ret result => exact absurd hcode (hi result)
  | call c next => exact goes_on h hcode

theorem bothAtWork_keepsPool : (fleet ℕ pairJob).ReachableBy keepsPool bothAtWork := by
  refine .of_run (s := pairStart) (.init rfl) ?_
    (rfl : (fleet ℕ pairJob).run pairStart lostAtWork = some bothAtWork)
  repeat' first | exact trivial | refine ⟨trivial, fun _ _ => ?_⟩

/-- The first client has lost its connection at work. -/
theorem never_stuck_lost :
    ∃ j c choice s', (∃ next, bothAtWork.code j = .call c next) ∧
      Honest bothAtWork.world c choice ∧
      (fleet ℕ pairJob).step bothAtWork (.go j choice) = some s' :=
  never_stuck bothAtWork_keepsPool ⟨false, fun _ h => by cases h⟩

/-! ## §4. All come to their end. -/

section Within

variable {key : LockKey} {wait : Bool} {grant : Option LeaseGrant}

theorem runWork_within (guarded : Guarded) : (runWork guarded : Routine T T).Within 1 := by
  intro answer
  cases answer <;> exact trivial

theorem exec_within (client : Client) (statement : Statement) (step : LockStep) :
    (exec client key statement step : Routine T Unit).Within 1 := by
  intro answer
  cases answer <;> exact trivial

theorem tryLock_within (client : Client) (statement : Statement) (step : LockStep) :
    (tryLock client key statement step : Routine T Unit).Within 1 := by
  intro answer
  cases answer with
  | ok rows =>
      show Prog.Within 0 (if firstBool rows then _ else _)
      split <;> exact trivial
  | error cause => exact trivial

theorem finallyGiveBack_within {α : Type} (client : Client) (failed : Bool)
    (result : Except Thrown α) :
    (finallyGiveBack client failed result : Routine T α).Within 1 :=
  fun _ => trivial

theorem insideXact_within (client : Client) :
    (insideXact client key wait grant : Routine T T).Within 3 := by
  refine Prog.within_andThen (n := 1) (m := 2) (fun _ => ?_) ?_
  · refine Prog.within_andThen (n := 1) (m := 1) (fun value => ?_) (runWork_within _)
    exact Prog.within_andThen (n := 1) (m := 0) (fun _ => Prog.within_ret _ _) (exec_within _ _ _)
  · cases wait with
    | true => exact exec_within _ _ _
    | false => exact tryLock_within _ _ _

theorem runXact_within : (runXact key wait grant : Routine T T).Within 7 := by
  intro answer
  cases answer with
  | error cause => exact trivial
  | ok client =>
      refine Prog.within_bind (n := 1) (m := 5) (fun began => ?_) (exec_within _ _ _)
      cases began with
      | error err => exact (finallyGiveBack_within _ _ _).mono (by omega)
      | ok _ =>
          refine Prog.within_bind (n := 3) (m := 2) (fun outcome => ?_) (insideXact_within _)
          cases outcome with
          | ok value => exact (finallyGiveBack_within _ _ _).mono (by omega)
          -- the rollback is one call more
          | error err => exact fun _ => finallyGiveBack_within _ _ _

theorem runSession_within : (runSession key wait grant : Routine T T).Within 7 := by
  intro answer
  cases answer with
  | error cause => exact trivial
  | ok client =>
      refine Prog.within_bind (n := 5) (m := 1) (fun outcome => ?_) ?_
      · obtain ⟨result, poisoned⟩ := outcome
        cases result <;> exact finallyGiveBack_within _ _ _
      · refine Prog.within_bind (n := 1) (m := 4) (fun locked => ?_) ?_
        · cases locked with
          | error err => exact trivial
          | ok _ =>
              refine Prog.within_bind (n := 1) (m := 3) (fun inner => ?_) (runWork_within _)
              intro unlocked
              cases unlocked with
              | error cause => cases inner <;> exact trivial
              | ok rows =>
                  show Prog.Within 2 (if !firstBool rows then _ else _)
                  split
                  · cases inner <;> exact trivial
                  · exact trivial
        · cases wait with
          | true => exact exec_within _ _ _
          | false => exact tryLock_within _ _ _

theorem settle_within (grant : LeaseGrant) (outcome : Except Thrown T) :
    (settle key grant outcome : Routine T T).Within 1 := by
  intro answer
  cases answer with
  | error err => cases outcome <;> exact trivial
  | ok released =>
      show Prog.Within 0 (if !released then _ else _)
      split
      · cases outcome <;> exact trivial
      · exact trivial

/-- A routine makes nine calls at most. -/
theorem withGuard_within (scope : PgScope) (key : LockKey) (layers : LockLayers) (wait : Bool)
    (opts : AcquireOptions) (lease pool : Bool) :
    (withGuard scope key layers wait opts lease pool : Routine T T).Within 9 := by
  have hinner : ∀ grant, (inner scope key layers.pgAdvisory wait grant : Routine T T).Within 7 := by
    intro grant
    unfold inner
    cases layers.pgAdvisory with
    | false => exact (runWork_within _).mono (by omega)
    | true =>
        cases scope with
        | transaction => exact runXact_within
        | session => exact runSession_within
  cases hmissing : missing layers lease pool with
  | true =>
      obtain ⟨message, hthrow⟩ := withGuard_missing (T := T) scope wait key layers opts hmissing
      rw [hthrow]
      exact trivial
  | false =>
      rw [withGuard_eq scope wait key layers opts hmissing]
      cases layers.fiducia with
      | false => exact (hinner none).mono (by omega)
      | true =>
          refine Prog.within_andThen (n := 1) (m := 8) (fun grant => ?_) ?_
          · exact Prog.within_bind (n := 7) (m := 1) (fun outcome => settle_within _ _) (hinner _)
          · intro answer
            cases answer <;> exact trivial

end Within

/-- The step is a client's, and honest. -/
def honestStep {V : Type*} (s : Network.State Call (Answer T) (Except Thrown T) ι World V) :
    Network.Act ι (Choice T) Noise → Prop
  | .go i choice => ∃ c next, s.code i = .call c next ∧ Honest s.world c choice
  | .drift _ => False

omit [DecidableEq ι] in
theorem honestStep_keepsPool {V : Type*}
    {s : Network.State Call (Answer T) (Except Thrown T) ι World V}
    {a : Network.Act ι (Choice T) Noise} (h : honestStep s a) : keepsPool s a := by
  cases a with
  | drift noise => exact absurd h id
  | go i choice =>
      obtain ⟨c, next, -, hhonest⟩ := h
      cases choice with
      | loses err => cases c <;> exact absurd hhonest id
      | serves => exact trivial
      | fails err => exact trivial
      | grants generated token expires => exact trivial
      | losesGrant generated token err => exact trivial
      | reuses client => exact trivial
      | opens => exact trivial
      | works result => exact trivial

/-- **All settle.**  Wherever the clients are, honest steps, nine for each client
at most, bring all of them to their end; then every session is closed, or clean
and in the pool. -/
theorem all_settle [Fintype ι] (h : (fleet T jobs).ReachableBy keepsPool s) :
    ∃ acts s', (fleet T jobs).run s acts = some s' ∧ (fleet T jobs).Along honestStep s acts ∧
      acts.length ≤ 9 * Fintype.card ι ∧ (∀ i, ∃ result, s'.code i = .ret result) ∧
      ∀ c, s'.world.pg.sessions c = .fresh ∧ c ∈ s'.world.pg.idle ∨
        s'.world.pg.sessions c = .closed := by
  have hwithin : ∀ i, (s.code i).Within 9 := Network.within
    (fun i => withGuard_within (jobs i).scope (jobs i).key (jobs i).layers (jobs i).wait
      (jobs i).opts (jobs i).lease (jobs i).pool) h
  have hprogress : ∀ s, (fleet T jobs).ReachableBy keepsPool s → ∀ i c next,
      s.code i = .call c next → ∃ j choice s', honestStep s (.go j choice) ∧
        (environment T ι).step (fun i => lockProtocol T (jobs i).key (jobs i).layers) s
          (.go j choice) = some s' ∧ (fleet T jobs).ReachableBy keepsPool s' := by
    intro s hs i c next hi
    obtain ⟨j, c', choice, s', ⟨next', hj⟩, hhonest, hstep⟩ := goes_on hs hi
    have hhonestStep : honestStep s (.go j choice) := ⟨c', next', hj, hhonest⟩
    exact ⟨j, choice, s', hhonestStep, hstep, .step hs (honestStep_keepsPool hhonestStep) hstep⟩
  have hsum : ∑ _i : ι, 9 = 9 * Fintype.card ι := by
    rw [Finset.sum_const, Finset.card_univ, Nat.nsmul_eq_mul, Nat.mul_comm]
  obtain ⟨acts, s', hrun, halong, hgood, hdone, hlength⟩ :=
    Network.finishes hprogress (9 * Fintype.card ι) (fun _ => 9) s hsum h hwithin
  exact ⟨acts, s', hrun, halong, hlength, hdone, left_locked hgood hdone⟩

/-- Both clients are at work, the first one without its connection and its lease. -/
theorem all_settle_lost :
    ∃ acts s', (fleet ℕ pairJob).run bothAtWork acts = some s' ∧
      (fleet ℕ pairJob).Along honestStep bothAtWork acts ∧ acts.length ≤ 9 * Fintype.card Bool ∧
      (∀ i, ∃ result, s'.code i = .ret result) ∧
      ∀ c, s'.world.pg.sessions c = .fresh ∧ c ∈ s'.world.pg.idle ∨
        s'.world.pg.sessions c = .closed :=
  all_settle bothAtWork_keepsPool

end ClipTown.Locks
