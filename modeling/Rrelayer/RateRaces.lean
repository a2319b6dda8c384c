import Rrelayer.Lib.Machine
import Rrelayer.RateWindows

/-! Concurrent `check_and_reserve` calls. Every access of a cache under its lock is a step of its
own; between a check and the reservation for it, other calls may check the same window. -/
namespace Rrelayer

/-- What a call does next. -/
inductive RateCallStage where
  | check (scope : LimitScope)
  | reserve (scope : LimitScope)
  | granted
  | refused
  | revert (scope : LimitScope)
  | reverted
  deriving DecidableEq, Repr

structure RateCall where
  reservation : RateLimitReservation
  stage : RateCallStage
  deriving DecidableEq, Repr

inductive RateRaceEvent where
  | call (headers : RateLimitHeader) (relayerAddress : EvmAddress) (operation : RateLimitOperation)
  /-- The next access of a call, with the clock reading it uses. -/
  | advance (call now : ℕ)
  | drop (call : ℕ)
  deriving DecidableEq, Repr

structure RateRace where
  limiter : RateLimiter
  calls : List RateCall

def RateCallStage.afterCheck : LimitScope → RateCallStage
  | .relayer => .check .global
  | .global => .check .user
  | .user => .reserve .user

def RateCallStage.afterReserve : LimitScope → RateCallStage
  | .user => .reserve .global
  | .global => .reserve .relayer
  | .relayer => .granted

def RateCallStage.afterRevert : LimitScope → RateCallStage
  | .user => .revert .global
  | .global => .revert .relayer
  | .relayer => .reverted

/-- One access: the caches and the call after it. -/
def RateLimiter.access (r : RateLimiter) (now : ℕ) (c : RateCall) : RateLimiter × RateCall :=
  match c.stage with
  | .check scope =>
      match r.checkOf c.reservation now scope with
      | .ok _ => (r, { c with stage := .afterCheck scope })
      | .error _ => (r, { c with stage := .refused })
  | .reserve scope =>
      (r.reserveOf c.reservation now scope, { c with stage := .afterReserve scope })
  | .revert scope => (r.revertOf c.reservation scope, { c with stage := .afterRevert scope })
  | _ => (r, c)

namespace RateRace

def step (s : RateRace) : RateRaceEvent → RateRace
  | .call headers relayerAddress operation =>
      match s.limiter.detect headers relayerAddress with
      | .ok userKey =>
          { s with calls := s.calls ++ [⟨⟨userKey, operation, relayerAddress⟩, .check .relayer⟩] }
      | .error _ => s
  | .advance i now =>
      match s.calls[i]? with
      | some c =>
          let (limiter, c) := s.limiter.access now c
          ⟨limiter, s.calls.set i c⟩
      | none => s
  | .drop i =>
      match s.calls[i]? with
      | some c =>
          if c.stage = .granted then
            { s with calls := s.calls.set i { c with stage := .revert .user } }
          else s
      | none => s

abbrev run (s : RateRace) (es : List RateRaceEvent) : RateRace := EventMachine.run step s es

end RateRace

/-- The call has passed the check of the key and has not reserved for it. -/
def RateCall.passed (key : LimitKey) (c : RateCall) : Bool :=
  c.reservation.counts key &&
    match key.scope, c.stage with
    | .user, .reserve .user => true
    | .global, .check .user | .global, .reserve .user | .global, .reserve .global => true
    | .relayer, .check .global | .relayer, .check .user => true
    | .relayer, .reserve _ => true
    | _, _ => false

section Access

variable {r : RateLimiter} {key : LimitKey} {limit now : ℕ} {c : RateCall}

theorem RateCall.counts_of_passed (h : c.passed key = true) : c.reservation.counts key = true := by
  unfold RateCall.passed at h
  exact ((Bool.and_eq_true _ _).mp h).1

/-- The check of another key's scope does not bring a call past this key's check. -/
theorem RateCall.passed_of_afterCheck {reservation : RateLimitReservation} {scope : LimitScope}
    (hother : ¬(key.scope = scope ∧ reservation.counts key = true))
    (h : RateCall.passed key ⟨reservation, .afterCheck scope⟩ = true) :
    RateCall.passed key ⟨reservation, .check scope⟩ = true := by
  have hcounts := RateCall.counts_of_passed h
  have hscope : key.scope ≠ scope := fun heq => hother ⟨heq, hcounts⟩
  cases hkey : key.scope <;> cases scope <;>
    simp_all [RateCall.passed, RateCallStage.afterCheck]

/-- Nor does the reservation of another scope. -/
theorem RateCall.passed_of_afterReserve {reservation : RateLimitReservation} {scope : LimitScope}
    (hother : ¬(key.scope = scope ∧ reservation.counts key = true))
    (h : RateCall.passed key ⟨reservation, .afterReserve scope⟩ = true) :
    RateCall.passed key ⟨reservation, .reserve scope⟩ = true := by
  have hcounts := RateCall.counts_of_passed h
  have hscope : key.scope ≠ scope := fun heq => hother ⟨heq, hcounts⟩
  cases hkey : key.scope <;> cases scope <;>
    simp_all [RateCall.passed, RateCallStage.afterReserve]

/-- Everything one access can do for a key: nothing, pass its check, reserve, or revert. -/
theorem RateLimiter.access_cases (hlimit : r.config.limitOf key = some limit) :
    ((r.access now c).1.usage key = r.usage key ∧
        ((r.access now c).2.passed key = true → c.passed key = true)) ∨
      (c.stage = .check key.scope ∧ c.reservation.counts key = true ∧ c.passed key = false ∧
        (r.access now c).1.usage key = r.usage key ∧
        currentUsage (r.usage key) now (r.config.windowOf key) ≤ limit) ∨
      (c.stage = .reserve key.scope ∧ c.reservation.counts key = true ∧ c.passed key = true ∧
        (r.access now c).2.passed key = false ∧ (r.access now c).1.usage key =
          some (reserveOperation (r.usage key) now (r.config.windowOf key))) ∨
      ((r.access now c).2.passed key = false ∧
        (r.access now c).1.usage key = revertOperation (r.usage key)) := by
  obtain ⟨reservation, stage⟩ := c
  cases stage with
  | check scope =>
    cases hchecked : r.checkOf reservation now scope with
    | error error =>
      left
      simp [access, hchecked, RateCall.passed]
    | ok =>
      by_cases hours : key.scope = scope ∧ reservation.counts key = true
      · obtain ⟨rfl, hcounts⟩ := hours
        right; left
        refine ⟨rfl, hcounts, ?_, ?_, r.checkOf_room hchecked hlimit hcounts⟩
        · cases key <;> simp [RateCall.passed, LimitKey.scope]
        · simp [access, hchecked]
      · left
        simp only [access, hchecked]
        exact ⟨trivial, RateCall.passed_of_afterCheck hours⟩
  | reserve scope =>
    by_cases hours : key.scope = scope ∧ reservation.counts key = true
    · obtain ⟨rfl, hcounts⟩ := hours
      right; right; left
      refine ⟨rfl, hcounts, ?_, ?_, ?_⟩
      · cases hscope : key.scope <;> simp [RateCall.passed, hcounts, hscope]
      · cases hscope : key.scope <;>
          simp [access, RateCall.passed, RateCallStage.afterReserve, hscope]
      · simp [access, usage_reserveOf hlimit, hcounts]
    · left
      simp only [access]
      rw [usage_reserveOf hlimit, if_neg hours]
      exact ⟨rfl, RateCall.passed_of_afterReserve hours⟩
  | revert scope =>
    have hunpassed : (r.access now ⟨reservation, .revert scope⟩).2.passed key = false := by
      cases scope <;> simp [access, RateCall.passed, RateCallStage.afterRevert]
    by_cases hours : key.scope = scope ∧ reservation.counts key = true
    · right; right; right
      refine ⟨hunpassed, ?_⟩
      simp only [access]
      rw [usage_revertOf hlimit, if_pos hours]
    · left
      refine ⟨?_, ?_⟩
      · simp only [access]
        rw [usage_revertOf hlimit, if_neg hours]
      · rw [hunpassed]
        intro hpassed
        cases hpassed
  | granted =>
    left
    exact ⟨rfl, id⟩
  | refused =>
    left
    exact ⟨rfl, id⟩
  | reverted =>
    left
    exact ⟨rfl, id⟩

theorem RateLimiter.access_config : (r.access now c).1.config = r.config := by
  unfold access
  repeat' split
  all_goals simp

end Access

namespace RateRace

variable {s : RateRace} {e : RateRaceEvent} {key : LimitKey} {limit window : ℕ}

/-- Calls that have passed the check of the key and have not reserved for it yet. -/
def passed (s : RateRace) (key : LimitKey) : ℕ := s.calls.countP (RateCall.passed key)

/-- The accesses for the key use readings of one aligned window, in which an older stored window
has expired. -/
def Within (key : LimitKey) (window : ℕ) (s : RateRace) : RateRaceEvent → Prop
  | .advance i now => ∀ c ∈ s.calls[i]?, c.reservation.counts key →
      (c.stage = .check key.scope ∨ c.stage = .reserve key.scope) →
        asSecs now / s.limiter.config.windowOf key = window ∧ ∀ u ∈ s.limiter.usage key,
          u.windowStart = fromSecs (window * s.limiter.config.windowOf key) ∨
            windowExpired now (s.limiter.config.windowOf key) u.windowStart
  | _ => True

/-- A check of the key that passes leaves room for the calls that have passed it before and have
not reserved yet. -/
def Roomy (key : LimitKey) (limit : ℕ) (s : RateRace) : RateRaceEvent → Prop
  | .advance i now => ∀ c ∈ s.calls[i]?, c.reservation.counts key → c.stage = .check key.scope →
      currentUsage (s.limiter.usage key) now (s.limiter.config.windowOf key) ≤ limit →
        currentUsage (s.limiter.usage key) now (s.limiter.config.windowOf key) + s.passed key ≤
          limit
  | _ => True

/-- What is recorded for the key, together with what is about to be, fits the limit. -/
structure Bounded (key : LimitKey) (limit window : ℕ) (s : RateRace) : Prop where
  recorded : ∀ u ∈ s.limiter.usage key, u.usageCount ≤ limit
  passed : s.passed key ≤ limit
  joint : ∀ u ∈ s.limiter.usage key,
    u.windowStart = fromSecs (window * s.limiter.config.windowOf key) →
      u.usageCount + s.passed key ≤ limit

instance (e : RateRaceEvent) : Decidable (s.Within key window e) :=
  match e with
  | .advance _ _ => inferInstanceAs (Decidable (∀ _ ∈ _, _ → _ → _ ∧ ∀ _ ∈ _, _))
  | .call _ _ _ => .isTrue trivial
  | .drop _ => .isTrue trivial

instance (e : RateRaceEvent) : Decidable (s.Roomy key limit e) :=
  match e with
  | .advance _ _ => inferInstanceAs (Decidable (∀ _ ∈ _, _ → _ → _ → _))
  | .call _ _ _ => .isTrue trivial
  | .drop _ => .isTrue trivial

/-- What a check and a reservation do with a reading of the window, or with an expired one. -/
theorem window_cases {stored : Option UsageWindow} {now windowSeconds : ℕ}
    (hpos : 0 < windowSeconds) (hnow : asSecs now / windowSeconds = window)
    (hstored : ∀ u ∈ stored, u.windowStart = fromSecs (window * windowSeconds) ∨
      windowExpired now windowSeconds u.windowStart) :
    (∃ u ∈ stored, u.windowStart = fromSecs (window * windowSeconds) ∧
      currentUsage stored now windowSeconds = u.usageCount + 1 ∧
      reserveOperation stored now windowSeconds =
        ⟨u.usageCount + 1, fromSecs (window * windowSeconds)⟩) ∨
    ((∀ u ∈ stored, u.windowStart ≠ fromSecs (window * windowSeconds)) ∧
      currentUsage stored now windowSeconds = 1 ∧
      reserveOperation stored now windowSeconds = ⟨1, fromSecs (window * windowSeconds)⟩) := by
  have hfresh : windowExpired now windowSeconds (fromSecs (window * windowSeconds)) = false := by
    have hcalculated := @fresh now windowSeconds hpos
    rw [calculateWindowStart, hnow] at hcalculated
    exact hcalculated
  cases stored with
  | none =>
    right
    refine ⟨by simp, ?_, ?_⟩
    · simp [currentUsage, currentWindow, fresh hpos]
    · simp [reserveOperation, currentWindow, calculateWindowStart, hnow, hfresh]
  | some u =>
    obtain hstart | hexpired := hstored u rfl
    · left
      refine ⟨u, rfl, hstart, ?_, ?_⟩
      · simp [currentUsage, currentWindow, hstart, hfresh]
      · simp [reserveOperation, currentWindow, hstart, hfresh]
    · right
      refine ⟨?_, ?_, ?_⟩
      · intro v hv hstart
        obtain rfl : u = v := Option.some.inj hv
        rw [hstart, hfresh] at hexpired
        cases hexpired
      · simp [currentUsage, currentWindow, hexpired]
      · simp [reserveOperation, currentWindow, hexpired, calculateWindowStart, hnow]

theorem passed_set {i : ℕ} {c : RateCall} (limiter : RateLimiter) (d : RateCall)
    (h : s.calls[i]? = some c) :
    (RateRace.mk limiter (s.calls.set i d)).passed key + (if c.passed key then 1 else 0) =
      s.passed key + if d.passed key then 1 else 0 := by
  obtain ⟨hi, hget⟩ := List.getElem?_eq_some_iff.mp h
  unfold passed
  rw [List.countP_set hi, hget]
  split
  · rename_i hpassed
    have hmem : c ∈ s.calls := List.mem_of_getElem? h
    have hsome := List.countP_pos_iff.mpr ⟨c, hmem, hpassed⟩
    omega
  · omega

theorem step_config : (s.step e).limiter.config = s.limiter.config := by
  unfold step
  cases e with
  | call headers relayerAddress operation =>
    dsimp only
    split <;> rfl
  | advance i now =>
    dsimp only
    split
    · exact RateLimiter.access_config
    · rfl
  | drop i =>
    dsimp only
    split
    · split <;> rfl
    · rfl

/-- A step that leaves what is recorded for the key as it is and lets no call pass its check. -/
theorem Bounded.quiet {s' : RateRace} (h : s.Bounded key limit window)
    (hconfig : s'.limiter.config = s.limiter.config)
    (husage : s'.limiter.usage key = s.limiter.usage key) (hpassed : s'.passed key ≤ s.passed key) :
    s'.Bounded key limit window := by
  refine ⟨?_, hpassed.trans h.passed, ?_⟩
  · rw [husage]
    exact h.recorded
  · rw [husage, hconfig]
    intro u hu hstart
    have hjoint := h.joint u hu hstart
    omega

/-- A check that passes, when the usage it has read leaves room for this call too. -/
theorem Bounded.checked {s' : RateRace} {now : ℕ} (h : s.Bounded key limit window)
    (hconfig : s'.limiter.config = s.limiter.config)
    (husage : s'.limiter.usage key = s.limiter.usage key)
    (hpassed : s'.passed key ≤ s.passed key + 1)
    (hnow : asSecs now / s.limiter.config.windowOf key = window)
    (hstored : ∀ u ∈ s.limiter.usage key,
      u.windowStart = fromSecs (window * s.limiter.config.windowOf key) ∨
        windowExpired now (s.limiter.config.windowOf key) u.windowStart)
    (hfits : currentUsage (s.limiter.usage key) now (s.limiter.config.windowOf key) +
      s.passed key ≤ limit) : s'.Bounded key limit window := by
  have hcases := window_cases (s.limiter.config.windowOf_pos key) hnow hstored
  refine ⟨?_, ?_, ?_⟩
  · rw [husage]
    exact h.recorded
  · obtain ⟨u, -, -, husageNow, -⟩ | ⟨-, husageNow, -⟩ := hcases
    · omega
    · omega
  · rw [husage, hconfig]
    intro u hu hstart
    obtain ⟨v, hv, -, husageNow, -⟩ | ⟨hnone, -, -⟩ := hcases
    · obtain rfl : u = v := Option.some.inj (hu.symm.trans hv)
      omega
    · exact absurd hstart (hnone u hu)

/-- A reservation takes the place that its check has left. -/
theorem Bounded.reserved {s' : RateRace} {now : ℕ} (h : s.Bounded key limit window)
    (husage : s'.limiter.usage key =
      some (reserveOperation (s.limiter.usage key) now (s.limiter.config.windowOf key)))
    (hpassed : s'.passed key + 1 = s.passed key)
    (hnow : asSecs now / s.limiter.config.windowOf key = window)
    (hstored : ∀ u ∈ s.limiter.usage key,
      u.windowStart = fromSecs (window * s.limiter.config.windowOf key) ∨
        windowExpired now (s.limiter.config.windowOf key) u.windowStart) :
    s'.Bounded key limit window := by
  have hbefore := h.passed
  have hcount : ∀ u ∈ s'.limiter.usage key, u.usageCount + s'.passed key ≤ limit := by
    intro u hu
    obtain ⟨v, hv, hstart, -, hreserved⟩ | ⟨-, -, hreserved⟩ :=
      window_cases (s.limiter.config.windowOf_pos key) hnow hstored
    · have hjoint := h.joint v hv hstart
      rw [husage, hreserved] at hu
      obtain rfl : _ = u := Option.some.inj hu
      dsimp only
      omega
    · rw [husage, hreserved] at hu
      obtain rfl : _ = u := Option.some.inj hu
      dsimp only
      omega
  refine ⟨?_, by omega, fun u hu _ => hcount u hu⟩
  intro u hu
  exact Nat.le_of_add_right_le (hcount u hu)

/-- A revert only gives back. -/
theorem Bounded.reverted {s' : RateRace} (h : s.Bounded key limit window)
    (hconfig : s'.limiter.config = s.limiter.config)
    (husage : s'.limiter.usage key = revertOperation (s.limiter.usage key))
    (hpassed : s'.passed key ≤ s.passed key) : s'.Bounded key limit window := by
  have hfrom : ∀ u ∈ s'.limiter.usage key, ∃ v ∈ s.limiter.usage key,
      u.windowStart = v.windowStart ∧ u.usageCount ≤ v.usageCount := by
    intro u hu
    rw [husage] at hu
    obtain ⟨v, hv, rfl⟩ := Option.map_eq_some_iff.mp hu
    refine ⟨v, hv, ?_, ?_⟩
    · split <;> rfl
    · split
      · exact Nat.sub_le _ _
      · exact le_rfl
  refine ⟨?_, hpassed.trans h.passed, ?_⟩
  · intro u hu
    obtain ⟨v, hv, -, hle⟩ := hfrom u hu
    exact hle.trans (h.recorded v hv)
  · intro u hu hstart
    obtain ⟨v, hv, hsame, hle⟩ := hfrom u hu
    have hjoint := h.joint v hv (by rw [← hsame, hstart, hconfig])
    omega

theorem Bounded.step (h : s.Bounded key limit window)
    (hlimit : s.limiter.config.limitOf key = some limit) (hwithin : s.Within key window e)
    (hroomy : s.Roomy key limit e) : (s.step e).Bounded key limit window := by
  cases e with
  | call headers relayerAddress operation =>
    apply h.quiet step_config
    · unfold RateRace.step
      dsimp only
      split <;> rfl
    · unfold RateRace.step
      dsimp only
      split
      · have hnew (userKey : String) : RateCall.passed key
            ⟨⟨userKey, operation, relayerAddress⟩, .check .relayer⟩ = false := by
          cases key <;> simp [RateCall.passed, LimitKey.scope]
        simp [RateRace.passed, hnew]
      · exact le_rfl
  | drop i =>
    unfold RateRace.step
    dsimp only
    split
    · rename_i c hc
      split
      · refine Bounded.quiet h ?_ ?_ ?_
        · rfl
        · rfl
        have hset := @passed_set s key i c s.limiter { c with stage := .revert .user } hc
        have hunpassed : RateCall.passed key { c with stage := .revert .user } = false := by
          cases key <;> simp [RateCall.passed, LimitKey.scope]
        rw [hunpassed] at hset
        simp only [Bool.false_eq_true, if_false] at hset
        omega
      · exact h
    · exact h
  | advance i now =>
    cases hc : s.calls[i]? with
    | none =>
      have hsame : s.step (.advance i now) = s := by simp [RateRace.step, hc]
      rw [hsame]
      exact h
    | some c =>
      have hstep : s.step (.advance i now) =
          ⟨(s.limiter.access now c).1, s.calls.set i (s.limiter.access now c).2⟩ := by
        simp [RateRace.step, hc]
      have hset := @passed_set s key i c (s.limiter.access now c).1 (s.limiter.access now c).2 hc
      rw [hstep]
      obtain ⟨husage, hpassed⟩ | ⟨hstage, hcounts, hold, husage, hroom⟩ |
        ⟨hstage, hcounts, hold, hnew, husage⟩ | ⟨hnew, husage⟩ :=
        @RateLimiter.access_cases s.limiter key limit now c hlimit
      · apply h.quiet RateLimiter.access_config husage
        split at hset
        · split at hset <;> omega
        · rename_i hno
          rw [if_neg (fun hyes => hno (hpassed hyes))] at hset
          omega
      · obtain ⟨hnow, hstored⟩ := hwithin c hc hcounts (.inl hstage)
        apply h.checked RateLimiter.access_config husage _ hnow hstored
        · exact hroomy c hc hcounts hstage hroom
        · rw [hold] at hset
          simp only [Bool.false_eq_true, if_false] at hset
          split at hset <;> omega
      · obtain ⟨hnow, hstored⟩ := hwithin c hc hcounts (.inr hstage)
        apply h.reserved husage _ hnow hstored
        rw [hold, hnew] at hset
        simpa using hset
      · apply h.reverted RateLimiter.access_config husage
        rw [hnew] at hset
        simp only [Bool.false_eq_true, if_false] at hset
        omega

theorem bounded_run {es : List RateRaceEvent} (h : s.Bounded key limit window)
    (hlimit : s.limiter.config.limitOf key = some limit)
    (hes : EventMachine.Along step (fun s e => s.Within key window e ∧ s.Roomy key limit e) s es) :
    (s.run es).Bounded key limit window := by
  have hkept : (s.run es).Bounded key limit window ∧
      (s.run es).limiter.config.limitOf key = some limit := by
    apply hes.invariant (P := fun s => s.Bounded key limit window ∧
      s.limiter.config.limitOf key = some limit)
    · rintro s e ⟨hwithin, hroomy⟩ ⟨hbounded, hlimit⟩
      exact ⟨hbounded.step hlimit hwithin hroomy, by rw [step_config]; exact hlimit⟩
    · exact ⟨h, hlimit⟩
  exact hkept.1

/-- In every interleaving of calls within one window in which each passing check leaves room for
the calls that are about to reserve, the recorded usage of a key stays within its limit. -/
theorem usage_within_limit {limiter : RateLimiter} {es : List RateRaceEvent}
    (hlimit : limiter.config.limitOf key = some limit)
    (hstart : ∀ u ∈ limiter.usage key, u.usageCount ≤ limit)
    (hes : EventMachine.Along step (fun s e => s.Within key window e ∧ s.Roomy key limit e)
      ⟨limiter, []⟩ es) :
    ∀ u ∈ ((RateRace.mk limiter []).run es).limiter.usage key, u.usageCount ≤ limit := by
  have hbounded : (RateRace.mk limiter []).Bounded key limit window := by
    refine ⟨hstart, Nat.zero_le limit, ?_⟩
    intro u hu _
    exact hstart u hu
  exact (bounded_run hbounded hlimit hes).recorded

/-- One transaction of a user a minute. -/
def oneInMinute : RateLimitConfig where
  userLimits := some ⟨some ⟨"minute", 1, 1⟩, none⟩
  relayerLimits := none
  fallbackToRelayer := false

def transactionCall : RateRaceEvent := .call (some "user") 1 .transaction

/-- The second call checks after the first has reserved, and is refused. -/
theorem usage_within_limit_refused :
    ∃ u ∈ ((RateRace.mk (.new oneInMinute) []).run [transactionCall, transactionCall,
      .advance 0 0, .advance 0 0, .advance 0 0, .advance 0 0, .advance 1 0, .advance 1 0,
      .advance 1 0, .advance 1 0]).limiter.usage (.user "user" 1 .transaction),
      u.usageCount ≤ 1 := by
  have hsome : (((RateRace.mk (.new oneInMinute) []).run [transactionCall, transactionCall,
      .advance 0 0, .advance 0 0, .advance 0 0, .advance 0 0, .advance 1 0, .advance 1 0,
      .advance 1 0, .advance 1 0]).limiter.usage (.user "user" 1 .transaction)).isSome = true := by
    decide +kernel
  obtain ⟨u, hu⟩ := Option.isSome_iff_exists.mp hsome
  refine ⟨u, hu, @usage_within_limit (.user "user" 1 .transaction) 1 0 (.new oneInMinute) _
    ?_ ?_ ?_ u hu⟩
  · decide
  · exact fun _ hu => nomatch hu
  · decide +kernel

/-- Both calls check before either has reserved. -/
theorem usage_within_limit_fails :
    ¬ ∀ (config : RateLimitConfig) (key : LimitKey) (limit window : ℕ) (es : List RateRaceEvent),
      config.limitOf key = some limit →
        EventMachine.Along step (Within key window) ⟨.new config, []⟩ es →
          ∀ u ∈ ((RateRace.mk (.new config) []).run es).limiter.usage key,
            u.usageCount ≤ limit := by
  intro hwithin
  have htwo := hwithin oneInMinute (.user "user" 1 .transaction) 1 0
    [transactionCall, transactionCall, .advance 0 0, .advance 0 0, .advance 0 0, .advance 1 0,
      .advance 1 0, .advance 1 0, .advance 0 0, .advance 1 0] (by decide) (by decide +kernel)
  revert htwo
  decide +kernel

end RateRace

end Rrelayer
