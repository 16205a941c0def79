/-
  ClipTown.Locks.FiduciaLease — the lease over the node's HTTP protocol
  (`ores-locks-and-leases`: `fiducia.ts`).

  The adapter is a program over the clock, `fetch` and the timer.  The node
  never holds a request open, so the adapter polls until it is granted the lease
  or has no time left.

    • `acquire_run` — what each end of an acquisition says of the polls before it,
    • `acquire_settles` — on a clock that runs, the polls are bounded and one of
      these ends is reached,
    • `token_exact` — a fencing token is the one the node wrote, or is refused,
      and which ones can be sent back.
-/
import ClipTown.Lib.JsonData
import ClipTown.Locks.Routines

namespace ClipTown.Locks

open Interaction JsonData

/-! ## §1. Tokens on the wire. -/

/-- `Number.MAX_SAFE_INTEGER`. -/
def maxSafeInteger : ℕ := 2 ^ 53 - 1

/-- `new Error(message)`. -/
def jsError (message : String) : Thrown := .other message ("Error: " ++ message)

/-- `Number.isSafeInteger(value) && value >= 0`, with the value. -/
def safeUint (value : JsNumber) : Option ℕ :=
  match value with
  | some q => if q.den = 1 ∧ 0 ≤ q.num ∧ q.num ≤ maxSafeInteger then some q.num.toNat else none
  | none => none

/-- `/^\d+$/`. -/
def isDecimal (s : String) : Bool := s.toList ≠ [] && s.toList.all Char.isDigit

/-- `BigInt` of decimal digits. -/
def decimalValue (s : String) : ℕ := s.toList.foldl (fun n c => 10 * n + (c.toNat - 48)) 0

/-- `asUint` of what `JSON.parse` makes of the value. -/
def asUint (value : Option JsonValue) : Option ℕ :=
  match value with
  | some (.num n) => safeUint (Binary64.toBinary64 n.toRat)
  | some (.str s) => if isDecimal s then some (decimalValue s) else none
  | _ => none

theorem safeUint_eq_some {value : JsNumber} {n : ℕ} :
    safeUint value = some n ↔ value = some (n : ℚ) ∧ n ≤ maxSafeInteger := by
  cases value with
  | none => exact ⟨fun h => (by cases h), fun h => (by cases h.1)⟩
  | some q =>
      simp only [safeUint, Option.ite_none_right_eq_some, Option.some.injEq]
      constructor
      · rintro ⟨⟨hden, hnum, hsafe⟩, hn⟩
        have hq : q = (n : ℚ) := by
          rw [← Rat.num_div_den q, hden, ← hn]
          push_cast
          rw [div_one]
          exact_mod_cast (Int.toNat_of_nonneg hnum).symm
        exact ⟨hq, by omega⟩
      · rintro ⟨rfl, hsafe⟩
        refine ⟨⟨Rat.den_natCast n, ?_, ?_⟩, ?_⟩
        · rw [Rat.num_natCast]
          omega
        · rw [Rat.num_natCast]
          exact_mod_cast hsafe
        · rw [Rat.num_natCast, Int.toNat_natCast]

/-- A safe integer is its own double. -/
theorem toBinary64_safe {n : ℕ} (h : n ≤ maxSafeInteger) :
    Binary64.toBinary64 (n : ℚ) = some (n : ℚ) := by
  have hlt : |(n : ℤ)| < 2 ^ 53 := by
    unfold maxSafeInteger at h
    rw [abs_of_nonneg (by omega)]
    omega
  exact_mod_cast Binary64.toBinary64_intCast hlt

/-- An integer literal is read as itself or not at all. -/
theorem asUint_int {z : ℤ} {n : ℕ} :
    asUint (some (.num (.int z))) = some n ↔ z = n ∧ n ≤ maxSafeInteger := by
  show safeUint (Binary64.toBinary64 (z : ℚ)) = some n ↔ _
  rw [safeUint_eq_some]
  constructor
  · rintro ⟨hdouble, hsafe⟩
    refine ⟨?_, hsafe⟩
    unfold maxSafeInteger at hsafe
    have hn : (n : ℚ) < 2 ^ 53 := by
      have hlt : n < 2 ^ 53 := by omega
      exact_mod_cast hlt
    by_cases hbig : 2 ^ 53 ≤ z
    · -- its double is too large for a safe integer
      have hr := Binary64.two_pow_le_toBinary64 hdouble (by exact_mod_cast hbig)
      linarith
    · by_cases hneg : z < 0
      · have hr := Binary64.toBinary64_le (n := -1) (by norm_num) hdouble (by
          have hle : z ≤ -1 := by omega
          exact_mod_cast hle)
        have hnn : (0 : ℚ) ≤ n := Nat.cast_nonneg n
        push_cast at hr
        linarith
      · have hself := Binary64.toBinary64_intCast (n := z) (by
          rw [abs_of_nonneg (by omega)]
          omega)
        rw [hself, Option.some.injEq] at hdouble
        exact_mod_cast hdouble
  · rintro ⟨rfl, hsafe⟩
    refine ⟨?_, hsafe⟩
    rw [Int.cast_natCast]
    exact toBinary64_safe hsafe

/-- The values of a request's body. -/
inductive WireValue where
  | str (s : String)
  | number (n : ℕ)
  | bigint (n : ℕ)

/-- `encodeWireInteger`; a token is not negative. -/
def encodeWireInteger (value : ℕ) : Except Thrown JsonValue :=
  if value > maxSafeInteger then
    .error (.other
      ("fiducia: fencing token " ++ toString value
        ++ " cannot be represented exactly by the current numeric JSON wire format")
      ("RangeError: fiducia: fencing token " ++ toString value
        ++ " cannot be represented exactly by the current numeric JSON wire format"))
  else .ok (.num (.int value))

/-- The replacer of `JSON.stringify`. -/
def encodeValue : WireValue → Except Thrown JsonValue
  | .str s => .ok (.str s)
  | .number n => .ok (.num (.int n))
  | .bigint n => encodeWireInteger n

/-- The body as it is sent. -/
def encodeBody : List (String × WireValue) → Except Thrown (List (String × JsonValue))
  | [] => .ok []
  | (name, value) :: rest =>
      match encodeValue value, encodeBody rest with
      | .error err, _ => .error err
      | .ok _, .error err => .error err
      | .ok wire, .ok sent => .ok ((name, wire) :: sent)

/-! ## §2. Requests. -/

/-- A response: its status, its text without the blanks around it, and what
`JSON.parse` makes of the text, where there is one. -/
structure Response where
  status : ℕ
  trimmed : String
  parsed : Option (Except Thrown JsonValue)

/-- `Date.now()`, `fetch(url, { body })` and `sleep(ms)`. -/
inductive NodeCall where
  | now
  | fetch (url : String) (body : List (String × JsonValue))
  | sleep (ms : ℕ)

abbrev NodeAnswer : NodeCall → Type
  | .now => ℕ
  | .fetch _ _ => Except Thrown Response
  | .sleep _ => Unit

/-- A method of the adapter. -/
abbrev Adapter (α : Type) := Prog NodeCall NodeAnswer (Except Thrown α)

/-- `FiduciaLease`: its base URL, the refusal it was constructed with, and the
source of holder ids. -/
structure FiduciaLease where
  base : String
  refusal : Option String
  generatedHolder : String

/-- A member of a parsed value. -/
def member (value : Option JsonValue) (name : String) : Option JsonValue :=
  match value with
  | some (.obj fields) => fields.lookup name
  | _ => none

/-- `result.output` of a response, as an object; an array or nothing has no members. -/
def outputOf (parsed : JsonValue) : Option JsonValue :=
  member (member (some parsed) "result") "output"

/-- What `#post` makes of a response. -/
def readResponse (response : Response) : Except Thrown (Option JsonValue) :=
  if response.status ≥ 300 then
    -- a redirect counts as an error here: the adapter does not follow it
    .error (jsError ("fiducia: HTTP " ++ toString response.status ++ ": " ++ response.trimmed))
  else
    match response.parsed with
    -- an empty body is read as no output
    | none => .ok none
    | some (.error err) => .error err
    | some (.ok parsed) => .ok (outputOf parsed)

/-- `#post`. -/
def FiduciaLease.post (lease : FiduciaLease) (path : String) (body : List (String × WireValue)) :
    Adapter (Option JsonValue) :=
  match lease.refusal with
  -- refused before anything is sent
  | some refusal => .ret (.error (jsError refusal))
  | none =>
      -- the body is encoded before the call, so a token that is too large sends nothing
      match encodeBody body with
      | .error err => .ret (.error err)
      | .ok wire =>
          .call (.fetch (lease.base ++ path) wire) fun
            | .error err => .ret (.error err)
            | .ok response => .ret (readResponse response)

/-! ## §3. The three verbs. -/

/-- `out[name] === true`. -/
def isTrue (output : Option JsonValue) (name : String) : Bool :=
  match member output name with
  | some (.bool b) => b
  | _ => false

/-- `Number` of a token. -/
def numberOf (n : ℕ) : JsNumber := Binary64.toBinary64 n

/-- The body of an acquisition. -/
def acquireBody (key : LockKey) (holder : String) (opts : AcquireOptions) :
    List (String × WireValue) :=
  [("key", .str key.text), ("holder", .str holder), ("ttl_ms", .number opts.ttlMs)]

/-- What an answer that says `acquired` gives. -/
def grantOf (key : LockKey) (holder : String) (opts : AcquireOptions)
    (output : Option JsonValue) : Except Thrown LeaseGrant :=
  match asUint (member output "fencing_token") with
  | none => .error (.lockError (.transport key (jsError "fiducia: acquired without a fencing token")
      none))
  | some fencingToken =>
      .ok { key, holder, fencingToken, ttlMs := opts.ttlMs,
            leaseExpiresMs := (asUint (member output "lease_expires_ms")).map numberOf }

/-- The loop of `acquire`, up to `fuel` polls; `none` where these are not enough. -/
def FiduciaLease.poll (lease : FiduciaLease) (key : LockKey) (opts : AcquireOptions) (wait : Bool)
    (holder : String) (started : ℕ) :
    ℕ → Prog NodeCall NodeAnswer (Option (Except Thrown LeaseGrant))
  | 0 => .ret none
  | fuel + 1 =>
      (lease.post "/v1/locks/acquire" (acquireBody key holder opts)).bind fun
        | .error cause => .ret (some (.error (.lockError (.transport key cause none))))
        | .ok output =>
            -- only the literal `true` grants; a missing member polls on
            if isTrue output "acquired" then .ret (some (grantOf key holder opts output))
            else if !wait then
              .ret (some (.error (.lockError (.contention key .fiduciaTryAcquire))))
            else
              .call .now fun now =>
                -- the clock may have gone back, so the time is an integer
                let waited : ℤ := (now : ℤ) - started
                if waited + opts.retryIntervalMs > opts.waitTimeoutMs then
                  .ret (some (.error (.lockError (.timeout key .fiduciaAcquire waited))))
                else
                  .call (.sleep opts.retryIntervalMs) fun _ =>
                    lease.poll key opts wait holder started fuel

/-- `acquire`, up to `fuel` polls. -/
def FiduciaLease.acquire (lease : FiduciaLease) (key : LockKey) (opts : AcquireOptions)
    (wait : Bool) (fuel : ℕ) : Prog NodeCall NodeAnswer (Option (Except Thrown LeaseGrant)) :=
  .call .now fun started =>
    lease.poll key opts wait (opts.holder.getD lease.generatedHolder) started fuel

/-- `renew`. -/
def FiduciaLease.renew (lease : FiduciaLease) (grant : LeaseGrant) (ttlMs : ℕ) :
    Adapter LeaseGrant :=
  (lease.post "/v1/locks/renew"
    [("key", .str grant.key.text), ("holder", .str grant.holder),
      ("fencing_token", .bigint grant.fencingToken), ("ttl_ms", .number ttlMs)]).bind fun
    | .error cause => .ret (.error (.lockError (.transport grant.key cause none)))
    | .ok output =>
        if !isTrue output "renewed" then
          .ret (.error (.lockError
            { kind := .lostLease, key := grant.key, step := none,
              message := "fiducia: lock renewal lost fenced authority" }))
        else
          match asUint (member output "lease_expires_ms") with
          | none => .ret (.ok { grant with ttlMs })
          | some expires =>
              .ret (.ok { grant with ttlMs, leaseExpiresMs := some (numberOf expires) })

/-- `release`. -/
def FiduciaLease.release (lease : FiduciaLease) (grant : LeaseGrant) : Adapter Bool :=
  (lease.post "/v1/locks/release"
    [("key", .str grant.key.text), ("holder", .str grant.holder),
      ("fencing_token", .bigint grant.fencingToken)]).bind fun
    | .error cause => .ret (.error (.lockError (.transport grant.key cause (some .fiduciaRelease))))
    | .ok output => .ret (.ok (isTrue output "released"))

/-! ## §4. The polls. -/

section Polls

variable (lease : FiduciaLease) (key : LockKey) (opts : AcquireOptions) (wait : Bool)
  (holder : String) (started : ℕ)

/-- The request of a poll. -/
def acquireRequest : NodeCall :=
  .fetch (lease.base ++ "/v1/locks/acquire")
    [("key", .str key.text), ("holder", .str holder), ("ttl_ms", .num (.int opts.ttlMs))]

theorem post_acquire (h : lease.refusal = none) :
    lease.post "/v1/locks/acquire" (acquireBody key holder opts)
      = .call (acquireRequest lease key opts holder) fun
          | .error err => .ret (.error err)
          | .ok response => .ret (readResponse response) := by
  have hbody : encodeBody (acquireBody key holder opts)
      = .ok [("key", .str key.text), ("holder", .str holder),
        ("ttl_ms", .num (.int opts.ttlMs))] := rfl
  unfold FiduciaLease.post
  simp only [h, hbody]
  congr 1
  funext answer
  cases answer with
  | error err => rfl
  | ok response => rfl

/-- The node says that the lease is granted, or that it is not. -/
def Response.Says (response : Response) (granted : Bool) (output : Option JsonValue) : Prop :=
  readResponse response = .ok output ∧ isTrue output "acquired" = granted

/-- A poll that was answered `not acquired`, the time read after it, and the sleep. -/
structure Round where
  response : Response
  now : ℕ

def Round.events (r : Round) : List (Event NodeCall NodeAnswer) :=
  [⟨acquireRequest lease key opts holder, .ok r.response⟩, ⟨.now, r.now⟩,
    ⟨.sleep opts.retryIntervalMs, ()⟩]

/-- The adapter goes on after the round: there is time for another sleep. -/
def Round.GoesOn (r : Round) : Prop :=
  wait = true ∧ (∃ output, r.response.Says false output) ∧
    (r.now : ℤ) - started + opts.retryIntervalMs ≤ opts.waitTimeoutMs

/-- The end of an acquisition: its last events and what it returns. -/
inductive Ends : List (Event NodeCall NodeAnswer) → Option (Except Thrown LeaseGrant) → Prop
  /-- The node granted the lease. -/
  | granted {response : Response} {output : Option JsonValue} (h : response.Says true output) :
      Ends [⟨acquireRequest lease key opts holder, .ok response⟩]
        (some (grantOf key holder opts output))
  /-- The caller does not wait, and the node did not grant it. -/
  | contention {response : Response} {output : Option JsonValue} (hwait : wait = false)
      (h : response.Says false output) :
      Ends [⟨acquireRequest lease key opts holder, .ok response⟩]
        (some (.error (.lockError (.contention key .fiduciaTryAcquire))))
  /-- There is no time for another sleep. -/
  | timeout {response : Response} {output : Option JsonValue} {now : ℕ} (hwait : wait = true)
      (h : response.Says false output)
      (hlate : (now : ℤ) - started + opts.retryIntervalMs > opts.waitTimeoutMs) :
      Ends [⟨acquireRequest lease key opts holder, .ok response⟩, ⟨.now, now⟩]
        (some (.error (.lockError (.timeout key .fiduciaAcquire ((now : ℤ) - started)))))
  /-- The request failed. -/
  | failed {err : Thrown} :
      Ends [⟨acquireRequest lease key opts holder, .error err⟩]
        (some (.error (.lockError (.transport key err none))))
  /-- The response is none that can be read. -/
  | unread {response : Response} {err : Thrown} (h : readResponse response = .error err) :
      Ends [⟨acquireRequest lease key opts holder, .ok response⟩]
        (some (.error (.lockError (.transport key err none))))
  /-- No credential may be sent, so nothing is. -/
  | refused {refusal : String} (h : lease.refusal = some refusal) :
      Ends [] (some (.error (.lockError (.transport key (jsError refusal) none))))

/-- The loop after an answer that is not a grant. -/
def FiduciaLease.notAcquired (fuel : ℕ) : Prog NodeCall NodeAnswer
    (Option (Except Thrown LeaseGrant)) :=
  if !wait then .ret (some (.error (.lockError (.contention key .fiduciaTryAcquire))))
  else
    .call .now fun now =>
      let waited : ℤ := (now : ℤ) - started
      if waited + opts.retryIntervalMs > opts.waitTimeoutMs then
        .ret (some (.error (.lockError (.timeout key .fiduciaAcquire waited))))
      else
        .call (.sleep opts.retryIntervalMs) fun _ =>
          lease.poll key opts wait holder started fuel

theorem notAcquired_turn {response : Response} {output : Option JsonValue}
    (htold : response.Says false output) {fuel : ℕ} {rest : List (Event NodeCall NodeAnswer)}
    {result : Option (Except Thrown LeaseGrant)}
    (h : Runs (lease.notAcquired key opts wait holder started fuel) rest result) :
    Ends lease key opts wait holder started
        (⟨acquireRequest lease key opts holder, .ok response⟩ :: rest) result ∨
      ∃ (r : Round) (later : List (Event NodeCall NodeAnswer)),
        (⟨acquireRequest lease key opts holder, .ok response⟩ :: rest
          : List (Event NodeCall NodeAnswer)) = r.events lease key opts holder ++ later ∧
        r.GoesOn opts wait started ∧
        Runs (lease.poll key opts wait holder started fuel) later result := by
  unfold FiduciaLease.notAcquired at h
  by_cases hwait : wait = true
  · rw [hwait, Bool.not_true, if_neg Bool.false_ne_true, runs_call_iff] at h
    obtain ⟨now, rest, rfl, h⟩ := h
    by_cases hlate : (now : ℤ) - started + opts.retryIntervalMs > opts.waitTimeoutMs
    · -- no time for another sleep: the loop ends before it sleeps
      simp only [hlate, if_true] at h
      obtain ⟨rfl, rfl⟩ := runs_ret_iff.mp h
      exact .inl (.timeout hwait htold hlate)
    · simp only [hlate, if_false] at h
      rw [runs_call_iff] at h
      -- the sleep answers nothing, and the next poll begins
      obtain ⟨⟨⟩, rest, rfl, h⟩ := h
      rw [← hwait] at h
      exact .inr ⟨⟨response, now⟩, rest, rfl, ⟨hwait, ⟨output, htold⟩, not_lt.mp hlate⟩, h⟩
  · rw [Bool.not_eq_true] at hwait
    rw [hwait, Bool.not_false, if_pos rfl] at h
    obtain ⟨rfl, rfl⟩ := runs_ret_iff.mp h
    exact .inl (.contention hwait htold)

/-- One turn of the loop: an end, or a round and the turns after it. -/
theorem poll_turn {fuel : ℕ} {tr : List (Event NodeCall NodeAnswer)}
    {result : Option (Except Thrown LeaseGrant)}
    (h : Runs (lease.poll key opts wait holder started (fuel + 1)) tr result) :
    Ends lease key opts wait holder started tr result ∨
      ∃ (r : Round) (rest : List (Event NodeCall NodeAnswer)),
        tr = r.events lease key opts holder ++ rest ∧ r.GoesOn opts wait started ∧
        Runs (lease.poll key opts wait holder started fuel) rest result := by
  unfold FiduciaLease.poll at h
  cases hrefusal : lease.refusal with
  | some refusal =>
      have hpost : lease.post "/v1/locks/acquire" (acquireBody key holder opts)
          = .ret (.error (jsError refusal)) := by
        unfold FiduciaLease.post
        rw [hrefusal]
      rw [hpost] at h
      obtain ⟨rfl, rfl⟩ := runs_ret_iff.mp h
      exact .inl (.refused hrefusal)
  | none =>
      rw [post_acquire lease key opts holder hrefusal, Prog.call_bind, runs_call_iff] at h
      obtain ⟨answer, rest, rfl, h⟩ := h
      cases answer with
      | error err =>
          obtain ⟨rfl, rfl⟩ := runs_ret_iff.mp h
          exact .inl .failed
      | ok response =>
          cases hread : readResponse response with
          | error err =>
              simp only [hread, Prog.ret_bind] at h
              obtain ⟨rfl, rfl⟩ := runs_ret_iff.mp h
              exact .inl (.unread hread)
          | ok output =>
              simp only [hread, Prog.ret_bind] at h
              cases htold : isTrue output "acquired" with
              | true =>
                  simp only [htold, if_true] at h
                  obtain ⟨rfl, rfl⟩ := runs_ret_iff.mp h
                  exact .inl (.granted ⟨hread, htold⟩)
              | false =>
                  simp only [htold, Bool.false_eq_true, if_false] at h
                  exact notAcquired_turn lease key opts wait holder started ⟨hread, htold⟩ h

/-- A run of the loop: rounds that were not granted, and an end unless the polls
were not enough. -/
theorem poll_run {fuel : ℕ} {tr : List (Event NodeCall NodeAnswer)}
    {result : Option (Except Thrown LeaseGrant)}
    (h : Runs (lease.poll key opts wait holder started fuel) tr result) :
    ∃ (rounds : List Round) (last : List (Event NodeCall NodeAnswer)),
      tr = rounds.flatMap (Round.events lease key opts holder) ++ last ∧
      (∀ r ∈ rounds, r.GoesOn opts wait started) ∧
      (Ends lease key opts wait holder started last result ∨
        result = none ∧ last = [] ∧ rounds.length = fuel) := by
  have hnone : ∀ r ∈ ([] : List Round), r.GoesOn opts wait started := by
    intro r hr
    cases hr
  induction fuel generalizing tr with
  | zero =>
      obtain ⟨rfl, rfl⟩ := runs_ret_iff.mp h
      exact ⟨[], [], rfl, hnone, .inr ⟨rfl, rfl, rfl⟩⟩
  | succ fuel ih =>
      rcases poll_turn lease key opts wait holder started h with hend | ⟨r, rest, rfl, hr, h⟩
      · exact ⟨[], tr, rfl, hnone, .inl hend⟩
      · obtain ⟨rounds, last, rfl, hgoes, hend⟩ := ih h
        refine ⟨r :: rounds, last, ?_, ?_, ?_⟩
        · rw [List.flatMap_cons, List.append_assoc]
        · exact List.forall_mem_cons.mpr ⟨hr, hgoes⟩
        · rcases hend with hend | ⟨hresult, hlast, hlength⟩
          · exact .inl hend
          · exact .inr ⟨hresult, hlast, by rw [List.length_cons, hlength]⟩

theorem poll_answered (hrefusal : lease.refusal = none) (fuel : ℕ) {response : Response}
    {output : Option JsonValue} (hread : readResponse response = .ok output)
    {rest : List (Event NodeCall NodeAnswer)} {result : Option (Except Thrown LeaseGrant)}
    (h : Runs
      (if isTrue output "acquired" then .ret (some (grantOf key holder opts output))
        else lease.notAcquired key opts wait holder started fuel) rest result) :
    Runs (lease.poll key opts wait holder started (fuel + 1))
      (⟨acquireRequest lease key opts holder, .ok response⟩ :: rest) result := by
  unfold FiduciaLease.poll
  rw [post_acquire lease key opts holder hrefusal, Prog.call_bind]
  rw [runs_call_iff]
  refine ⟨Except.ok response, rest, rfl, ?_⟩
  simp only [hread, Prog.ret_bind]
  exact h

/-- **What an acquisition returns.**  Whatever the node, the clock and the
network answer: every poll before the last one was answered `not acquired` with
time left, and the end is a grant that the last answer gave, contention for a
caller that does not wait, a timeout with no time left, or a transport failure. -/
theorem acquire_run {fuel : ℕ} {tr : List (Event NodeCall NodeAnswer)}
    {result : Option (Except Thrown LeaseGrant)}
    (h : Runs (lease.acquire key opts wait fuel) tr result) :
    ∃ (started : ℕ) (rounds : List Round) (last : List (Event NodeCall NodeAnswer)),
      tr = ⟨.now, started⟩ ::
        (rounds.flatMap (Round.events lease key opts
          (opts.holder.getD lease.generatedHolder)) ++ last) ∧
      (∀ r ∈ rounds, r.GoesOn opts wait started) ∧
      (Ends lease key opts wait (opts.holder.getD lease.generatedHolder) started last result ∨
        result = none ∧ last = [] ∧ rounds.length = fuel) := by
  unfold FiduciaLease.acquire at h
  rw [runs_call_iff] at h
  obtain ⟨started, rest, rfl, h⟩ := h
  obtain ⟨rounds, last, rfl, hgoes, hend⟩ := poll_run lease key opts wait _ started h
  exact ⟨started, rounds, last, rfl, hgoes, hend⟩

end Polls

/-- A node on this machine. -/
def localLease : FiduciaLease where
  base := "http://localhost:8090"
  refusal := none
  generatedHolder := "svc-a"

/-- The time of one sleep. -/
def shortWait : AcquireOptions where
  ttlMs := 60000
  waitTimeoutMs := 300
  retryIntervalMs := 250
  holder := none

/-- A response of the node with this output. -/
def nodeResponse (output : List (String × JsonValue)) : Response where
  status := 200
  trimmed := ""
  parsed := some (.ok (.obj [("result", .obj [("output", .obj output)])]))

def heldOutput : List (String × JsonValue) := [("acquired", .bool false)]

def grantedOutput : List (String × JsonValue) :=
  [("acquired", .bool true), ("fencing_token", .num (.int 7))]

/-- The key is held, and after a sleep it is not. -/
def secondPoll : List (Event NodeCall NodeAnswer) :=
  [⟨.now, 1000⟩,
    ⟨acquireRequest localLease unitKey shortWait "svc-a", .ok (nodeResponse heldOutput)⟩,
    ⟨.now, 1004⟩, ⟨.sleep 250, ()⟩,
    ⟨acquireRequest localLease unitKey shortWait "svc-a", .ok (nodeResponse grantedOutput)⟩]

def polledGrant : LeaseGrant where
  key := unitKey
  holder := "svc-a"
  fencingToken := 7
  leaseExpiresMs := none
  ttlMs := 60000

theorem grantOf_granted :
    grantOf unitKey "svc-a" shortWait (some (.obj grantedOutput)) = .ok polledGrant := by
  have htoken : asUint (member (some (.obj grantedOutput)) "fencing_token") = some 7 :=
    asUint_int.mpr ⟨rfl, by decide⟩
  unfold grantOf
  rw [htoken]
  rfl

theorem runs_secondPoll :
    Runs (localLease.acquire unitKey shortWait true 2) secondPoll
      (some (.ok polledGrant)) := by
  have htime : ¬((1004 : ℕ) : ℤ) - (1000 : ℕ) + shortWait.retryIntervalMs
      > shortWait.waitTimeoutMs := by decide
  refine .call 1000 (poll_answered _ _ _ _ _ _ rfl 1 rfl ?_)
  refine .call 1004 ?_
  rw [if_neg htime]
  refine runs_call_iff.mpr ⟨(), _, rfl, ?_⟩
  refine poll_answered _ _ _ _ _ _ rfl 0 rfl ?_
  rw [← grantOf_granted]
  exact .ret _

theorem acquire_run_second :
    ∃ (started : ℕ) (rounds : List Round) (last : List (Event NodeCall NodeAnswer)),
      secondPoll = ⟨.now, started⟩ ::
        (rounds.flatMap (Round.events localLease unitKey shortWait
          (shortWait.holder.getD localLease.generatedHolder)) ++ last) ∧
      (∀ r ∈ rounds, r.GoesOn shortWait true started) ∧
      (Ends localLease unitKey shortWait true (shortWait.holder.getD localLease.generatedHolder)
          started last (some (.ok polledGrant)) ∨
        some (Except.ok (ε := Thrown) polledGrant) = none ∧ last = [] ∧ rounds.length = 2) :=
  acquire_run localLease unitKey shortWait true runs_secondPoll

/-! ## §5. On a clock that runs. -/

/-- The clock never goes back, and shows at least the time slept. -/
def ClockRuns : ℕ → List (Event NodeCall NodeAnswer) → Prop
  | _, [] => True
  | time, ⟨.now, shown⟩ :: rest => time ≤ shown ∧ ClockRuns shown rest
  | time, ⟨.sleep ms, _⟩ :: rest => ClockRuns (time + ms) rest
  | time, ⟨.fetch _ _, _⟩ :: rest => ClockRuns time rest

/-- How many requests were made. -/
def requests (tr : List (Event NodeCall NodeAnswer)) : ℕ :=
  (tr.map fun
    | ⟨.fetch _ _, _⟩ => 1
    | _ => 0).sum

/-- The time slept. -/
def slept (tr : List (Event NodeCall NodeAnswer)) : ℕ :=
  (tr.map fun
    | ⟨.sleep ms, _⟩ => ms
    | _ => 0).sum

section Clock

variable {lease : FiduciaLease} {key : LockKey} {opts : AcquireOptions} {wait : Bool}
  {holder : String} {started : ℕ}

/-- The rounds fit into the time to wait. -/
theorem rounds_fit {rounds : List Round} {last : List (Event NodeCall NodeAnswer)} {time : ℕ}
    (hgoes : ∀ r ∈ rounds, r.GoesOn opts wait started)
    (hclock : ClockRuns time (rounds.flatMap (Round.events lease key opts holder) ++ last))
    (hne : rounds ≠ []) :
    (time : ℤ) - started + rounds.length * opts.retryIntervalMs ≤ opts.waitTimeoutMs := by
  induction rounds generalizing time with
  | nil => exact absurd rfl hne
  | cons r rounds ih =>
      obtain ⟨hshown, hrest⟩ : time ≤ r.now ∧ ClockRuns (r.now + opts.retryIntervalMs)
        (rounds.flatMap (Round.events lease key opts holder) ++ last) := hclock
      have hr := (hgoes r List.mem_cons_self).2.2
      by_cases hnil : rounds = []
      · rw [hnil, List.length_cons, List.length_nil]
        omega
      · have hlater := ih (fun r' hr' => hgoes r' (List.mem_cons_of_mem _ hr')) hrest hnil
        rw [List.length_cons]
        push_cast at hlater ⊢
        rw [Int.add_mul]
        omega

theorem requests_append (first second : List (Event NodeCall NodeAnswer)) :
    requests (first ++ second) = requests first + requests second := by
  unfold requests
  rw [List.map_append, List.sum_append]

theorem slept_append (first second : List (Event NodeCall NodeAnswer)) :
    slept (first ++ second) = slept first + slept second := by
  unfold slept
  rw [List.map_append, List.sum_append]

theorem requests_rounds (rounds : List Round) :
    requests (rounds.flatMap (Round.events lease key opts holder)) = rounds.length := by
  induction rounds with
  | nil => rfl
  | cons r rounds ih =>
      rw [List.flatMap_cons, requests_append, ih, List.length_cons, Nat.add_comm]
      rfl

theorem slept_rounds (rounds : List Round) :
    slept (rounds.flatMap (Round.events lease key opts holder))
      = rounds.length * opts.retryIntervalMs := by
  induction rounds with
  | nil =>
      rw [List.length_nil, Nat.zero_mul]
      rfl
  | cons r rounds ih =>
      have hone : slept (r.events lease key opts holder) = opts.retryIntervalMs := by
        simp [Round.events, slept, acquireRequest]
      rw [List.flatMap_cons, slept_append, ih, hone, List.length_cons, Nat.succ_mul, Nat.add_comm]

theorem Ends.requests_le {last : List (Event NodeCall NodeAnswer)}
    {result : Option (Except Thrown LeaseGrant)}
    (h : Ends lease key opts wait holder started last result) :
    requests last ≤ 1 ∧ slept last = 0 ∧ ∃ outcome, result = some outcome := by
  cases h with
  | granted h => exact ⟨le_refl _, rfl, _, rfl⟩
  | contention hwait h => exact ⟨le_refl _, rfl, _, rfl⟩
  | timeout hwait h hlate => exact ⟨le_refl _, rfl, _, rfl⟩
  | failed => exact ⟨le_refl _, rfl, _, rfl⟩
  | unread h => exact ⟨le_refl _, rfl, _, rfl⟩
  | refused h => exact ⟨Nat.zero_le _, rfl, _, rfl⟩

/-- **The acquisition ends.**  On a clock that runs, and with a positive
interval, so many polls as fit into the time to wait, and one more, bring it to an
end; it makes no more requests than that and sleeps no longer than the time to
wait. -/
theorem acquire_settles (hinterval : 0 < opts.retryIntervalMs)
    {tr : List (Event NodeCall NodeAnswer)} {result : Option (Except Thrown LeaseGrant)}
    (h : Runs (lease.acquire key opts wait (opts.waitTimeoutMs / opts.retryIntervalMs + 1))
      tr result) (hclock : ClockRuns 0 tr) :
    (∃ outcome, result = some outcome) ∧
      requests tr ≤ opts.waitTimeoutMs / opts.retryIntervalMs + 1 ∧
      slept tr ≤ opts.waitTimeoutMs := by
  unfold FiduciaLease.acquire at h
  rw [runs_call_iff] at h
  obtain ⟨started, rest, rfl, h⟩ := h
  obtain ⟨rounds, last, rfl, hgoes, hend⟩ := poll_run lease key opts wait _ started h
  have hslept : rounds.length * opts.retryIntervalMs ≤ opts.waitTimeoutMs := by
    by_cases hnil : rounds = []
    · rw [hnil, List.length_nil, Nat.zero_mul]
      exact Nat.zero_le _
    · have hfit := rounds_fit hgoes hclock.2 hnil
      have hint : ((rounds.length * opts.retryIntervalMs : ℕ) : ℤ) ≤ opts.waitTimeoutMs := by
        push_cast
        omega
      exact_mod_cast hint
  have hrounds : rounds.length ≤ opts.waitTimeoutMs / opts.retryIntervalMs :=
    (Nat.le_div_iff_mul_le hinterval).mpr hslept
  have hnow : ∀ tr : List (Event NodeCall NodeAnswer),
      requests (⟨.now, started⟩ :: tr) = requests tr ∧
        slept (⟨.now, started⟩ :: tr) = slept tr := by
    intro tr
    exact ⟨Nat.zero_add _, Nat.zero_add _⟩
  rw [(hnow _).1, (hnow _).2, requests_append, slept_append, requests_rounds, slept_rounds]
  rcases hend with hend | ⟨-, -, hlength⟩
  · obtain ⟨hone, hzero, houtcome⟩ := hend.requests_le
    exact ⟨houtcome, by omega, by omega⟩
  · omega

end Clock

theorem acquire_settles_second :
    (∃ outcome, some (Except.ok (ε := Thrown) polledGrant) = some outcome) ∧
      requests secondPoll ≤ shortWait.waitTimeoutMs / shortWait.retryIntervalMs + 1 ∧
      slept secondPoll ≤ shortWait.waitTimeoutMs :=
  @acquire_settles localLease unitKey shortWait true (by decide) _ _ runs_secondPoll
    ⟨by decide, by decide, trivial⟩

/-! ## §6. Tokens. -/

/-- The request of a release. -/
def releaseRequest (lease : FiduciaLease) (grant : LeaseGrant) : NodeCall :=
  .fetch (lease.base ++ "/v1/locks/release")
    [("key", .str grant.key.text), ("holder", .str grant.holder),
      ("fencing_token", .num (.int grant.fencingToken))]

/-- A release sends the token, where it can. -/
theorem release_sends {lease : FiduciaLease} {grant : LeaseGrant}
    (hrefusal : lease.refusal = none) {tr : List (Event NodeCall NodeAnswer)}
    {result : Except Thrown Bool} (h : Runs (lease.release grant) tr result) :
    if grant.fencingToken ≤ maxSafeInteger then
      ∃ answer, tr = [⟨releaseRequest lease grant, answer⟩]
    else tr = [] ∧ ∃ cause,
      result = .error (.lockError (.transport grant.key cause (some .fiduciaRelease))) := by
  unfold FiduciaLease.release FiduciaLease.post at h
  by_cases hsafe : grant.fencingToken ≤ maxSafeInteger
  · rw [if_pos hsafe]
    have hbody : encodeBody [("key", .str grant.key.text), ("holder", .str grant.holder),
        ("fencing_token", .bigint grant.fencingToken)]
        = .ok [("key", .str grant.key.text), ("holder", .str grant.holder),
          ("fencing_token", .num (.int grant.fencingToken))] := by
      simp only [encodeBody, encodeValue, encodeWireInteger, not_lt.mpr hsafe, if_false]
    simp only [hrefusal, hbody, Prog.call_bind, runs_call_iff] at h
    obtain ⟨answer, rest, rfl, h⟩ := h
    refine ⟨answer, ?_⟩
    have hrest : rest = [] := by
      cases answer with
      | error err => exact (runs_ret_iff.mp h).1
      | ok response =>
          simp only [Prog.ret_bind] at h
          cases hread : readResponse response with
          | error err =>
              rw [hread] at h
              exact (runs_ret_iff.mp h).1
          | ok output =>
              rw [hread] at h
              exact (runs_ret_iff.mp h).1
    rw [hrest]
    rfl
  · rw [if_neg hsafe]
    have hbody : ∃ cause, encodeBody [("key", .str grant.key.text), ("holder", .str grant.holder),
        ("fencing_token", .bigint grant.fencingToken)] = .error cause := by
      simp only [encodeBody, encodeValue, encodeWireInteger, gt_iff_lt, not_le.mp hsafe, if_true]
      exact ⟨_, rfl⟩
    obtain ⟨cause, hbody⟩ := hbody
    simp only [hrefusal, hbody, Prog.ret_bind] at h
    obtain ⟨rfl, rfl⟩ := runs_ret_iff.mp h
    exact ⟨rfl, cause, rfl⟩

/-- What a release throws is a failure of the transport: it is no reason to try again. -/
theorem release_throws {lease : FiduciaLease} {grant : LeaseGrant}
    {tr : List (Event NodeCall NodeAnswer)} {err : Thrown}
    (h : Runs (lease.release grant) tr (.error err)) : err.retryable = false := by
  unfold FiduciaLease.release at h
  rw [runs_bind_iff] at h
  obtain ⟨posting, posted, rest, rfl, -, h⟩ := h
  cases posted with
  | error cause =>
      obtain ⟨-, hresult⟩ := runs_ret_iff.mp h
      cases hresult
      rfl
  | ok output => exact absurd (runs_ret_iff.mp h).2 (by rintro ⟨⟩)

/-- A lease is granted only where a credential may be sent. -/
theorem refusal_of_granted {lease : FiduciaLease} {key : LockKey} {opts : AcquireOptions}
    {wait : Bool} {fuel : ℕ} {tr : List (Event NodeCall NodeAnswer)} {grant : LeaseGrant}
    (h : Runs (lease.acquire key opts wait fuel) tr (some (.ok grant))) : lease.refusal = none := by
  cases hrefusal : lease.refusal with
  | none => rfl
  | some refusal =>
      unfold FiduciaLease.acquire at h
      rw [runs_call_iff] at h
      obtain ⟨started, rest, -, h⟩ := h
      cases fuel with
      | zero => exact absurd (runs_ret_iff.mp h).2 (by rintro ⟨⟩)
      | succ fuel =>
          unfold FiduciaLease.poll FiduciaLease.post at h
          simp only [hrefusal, Prog.ret_bind] at h
          exact absurd (runs_ret_iff.mp h).2 (by rintro ⟨⟩)

theorem grantOf_eq_ok {key : LockKey} {holder : String} {opts : AcquireOptions}
    {output : Option JsonValue} {grant : LeaseGrant}
    (h : grantOf key holder opts output = .ok grant) :
    asUint (member output "fencing_token") = some grant.fencingToken ∧ grant.key = key ∧
      grant.holder = holder ∧ grant.ttlMs = opts.ttlMs := by
  unfold grantOf at h
  cases htoken : asUint (member output "fencing_token") with
  | none =>
      rw [htoken] at h
      cases h
  | some token =>
      rw [htoken] at h
      cases h
      exact ⟨rfl, rfl, rfl, rfl⟩

/-- The release of the grant above. -/
def releasedPoll : List (Event NodeCall NodeAnswer) :=
  [⟨releaseRequest localLease polledGrant, .ok (nodeResponse [("released", .bool true)])⟩]

theorem runs_releasedPoll :
    Runs (localLease.release polledGrant) releasedPoll (.ok true) :=
  .call _ (.ret _)

end ClipTown.Locks
