import Rrelayer.Lib.Machine
import Rrelayer.RateLimiter

/-! What the rate limiter has granted for a key over a run of requests and reverts, window by
window. -/
namespace Rrelayer

section Clock

variable {now seconds windowSeconds : ℕ}

theorem asSecs_sub : asSecs (now - fromSecs seconds) = asSecs now - seconds := by
  unfold asSecs fromSecs
  omega

theorem fromSecs_le : fromSecs seconds ≤ now ↔ seconds ≤ asSecs now := by
  unfold asSecs fromSecs
  omega

theorem start_le : calculateWindowStart now windowSeconds ≤ now := by
  rw [calculateWindowStart, fromSecs_le]
  exact Nat.div_mul_le_self _ _

/-- A window is not expired for the reading it was calculated from. -/
theorem fresh (hpos : 0 < windowSeconds) :
    windowExpired now windowSeconds (calculateWindowStart now windowSeconds) = false := by
  have hmod : asSecs now - asSecs now / windowSeconds * windowSeconds < windowSeconds := by
    have hdiv := Nat.div_add_mod' (asSecs now) windowSeconds
    have hlt := Nat.mod_lt (asSecs now) hpos
    omega
  rw [windowExpired, if_pos start_le, calculateWindowStart, asSecs_sub]
  exact decide_eq_false (by omega)

end Clock

/-- What a limit is kept for: a user on a relayer, all users, or a relayer. -/
inductive LimitKey where
  | user (userKey : String) (relayerAddress : EvmAddress) (operation : RateLimitOperation)
  | global (operation : RateLimitOperation)
  | relayer (relayerAddress : EvmAddress) (operation : RateLimitOperation)
  deriving DecidableEq, Repr

/-- The cache that a limit is counted in. -/
inductive LimitScope where
  | user | global | relayer
  deriving DecidableEq, Repr

def LimitKey.scope : LimitKey → LimitScope
  | .user _ _ _ => .user
  | .global _ => .global
  | .relayer _ _ => .relayer

namespace RateLimitConfig

variable (c : RateLimitConfig)

def limitOf : LimitKey → Option ℕ
  | .user _ _ operation =>
      if c.userLimit operation = u64Max then none else some (c.userLimit operation)
  | .global operation => c.globalLimits.map (·.limit operation)
  | .relayer _ operation => c.relayerLimits.map (·.limit operation)

def windowOf : LimitKey → ℕ
  | .user _ _ _ => c.getLimitsForUser.2.2
  | .global _ => (c.globalLimits.map (parseInterval ·.interval)).getD 60
  | .relayer _ _ => (c.relayerLimits.map (parseInterval ·.interval)).getD 60

theorem windowOf_pos (key : LimitKey) : 0 < c.windowOf key := by
  have hgetD (o : Option RateLimitWithInterval) :
      0 < (o.map (parseInterval ·.interval)).getD 60 := by
    cases o with
    | none => simp
    | some l => exact parseInterval_pos l.interval
  cases key with
  | user => exact c.userWindow_pos
  | global => exact hgetD _
  | relayer => exact hgetD _

end RateLimitConfig

namespace ClockReadings

variable (c : ClockReadings)

def checkOf : LimitKey → ℕ
  | .user _ _ _ => c.checkUser
  | .global _ => c.checkGlobal
  | .relayer _ _ => c.checkRelayer

def reserveOf : LimitKey → ℕ
  | .user _ _ _ => c.reserveUser
  | .global _ => c.reserveGlobal
  | .relayer _ _ => c.reserveRelayer

structure Sorted : Prop where
  relayer : c.checkRelayer ≤ c.checkGlobal
  global : c.checkGlobal ≤ c.checkUser
  user : c.checkUser ≤ c.reserveUser
  reserveUser : c.reserveUser ≤ c.reserveGlobal
  reserveGlobal : c.reserveGlobal ≤ c.reserveRelayer

instance : Decidable c.Sorted :=
  decidable_of_iff (c.checkRelayer ≤ c.checkGlobal ∧ c.checkGlobal ≤ c.checkUser ∧
    c.checkUser ≤ c.reserveUser ∧ c.reserveUser ≤ c.reserveGlobal ∧
    c.reserveGlobal ≤ c.reserveRelayer)
    ⟨fun ⟨h₁, h₂, h₃, h₄, h₅⟩ => ⟨h₁, h₂, h₃, h₄, h₅⟩,
      fun ⟨h₁, h₂, h₃, h₄, h₅⟩ => ⟨h₁, h₂, h₃, h₄, h₅⟩⟩

/-- A request handled in no time. -/
def constant (now : ℕ) : ClockReadings := ⟨now, now, now, now, now, now⟩

theorem Sorted.between {c : ClockReadings} (h : c.Sorted) (key : LimitKey) :
    c.checkRelayer ≤ c.checkOf key ∧ c.checkOf key ≤ c.reserveOf key ∧
      c.reserveOf key ≤ c.reserveRelayer := by
  obtain ⟨h₁, h₂, h₃, h₄, h₅⟩ := h
  cases key with
  | user =>
    simp only [checkOf, reserveOf]
    omega
  | global =>
    simp only [checkOf, reserveOf]
    omega
  | relayer =>
    simp only [checkOf, reserveOf]
    omega

end ClockReadings

def RateLimitReservation.counts (reservation : RateLimitReservation) : LimitKey → Bool
  | .user userKey relayerAddress operation =>
      (userKey, relayerAddress, operation) =
        (reservation.userKey, reservation.relayerAddress, reservation.operation)
  | .global operation => operation = reservation.operation
  | .relayer relayerAddress operation =>
      (relayerAddress, operation) = (reservation.relayerAddress, reservation.operation)

/-- An entry changed in place, read at any key. -/
theorem update_entry {α β : Type} [DecidableEq α] (f : α → β) (g : β → β) (entry key : α) :
    Function.update f entry (g (f entry)) key = if key = entry then g (f key) else f key := by
  rw [Function.update_apply]
  split
  · rename_i heq
    rw [heq]
  · rfl

namespace RateLimiter

def usage (r : RateLimiter) : LimitKey → Option UsageWindow
  | .user userKey relayerAddress operation => r.usageCache (userKey, relayerAddress, operation)
  | .global operation => r.globalUsageCache operation
  | .relayer relayerAddress operation => r.relayerUsageCache (relayerAddress, operation)

/-- The check of one limit, once the key is detected. -/
def checkOf (r : RateLimiter) (reservation : RateLimitReservation) (now : ℕ) :
    LimitScope → Except RateLimitError Unit
  | .relayer => checkConfigured r.config.relayerLimits
      (r.checkRelayerLimits reservation.relayerAddress reservation.operation now)
  | .global => checkConfigured r.config.globalLimits
      (r.checkGlobalUserLimits reservation.operation now)
  | .user =>
      let result := r.checkUserLimits reservation.relayerAddress reservation.operation now
        reservation.userKey
      if result.allowed then .ok ()
      else .error (.limitExceeded reservation.operation.asStr result.currentUsage result.limit
        result.windowSeconds)

def reserveOf (r : RateLimiter) (reservation : RateLimitReservation) (now : ℕ) :
    LimitScope → RateLimiter
  | .user => r.reserveUserOperation reservation.userKey reservation.relayerAddress
      reservation.operation now
  | .global => r.reserveGlobalUserOperation reservation.operation now
  | .relayer => r.reserveRelayerOperation reservation.relayerAddress reservation.operation now

def revertOf (r : RateLimiter) (reservation : RateLimitReservation) : LimitScope → RateLimiter
  | .user => r.revertUserOperation reservation.userKey reservation.relayerAddress
      reservation.operation
  | .global =>
      if r.config.globalLimits.isSome then r.revertGlobalUserOperation reservation.operation else r
  | .relayer =>
      if r.config.relayerLimits.isSome then
        r.revertRelayerOperation reservation.relayerAddress reservation.operation
      else r

variable {r : RateLimiter} {headers : RateLimitHeader} {relayerAddress : EvmAddress}
  {operation : RateLimitOperation} {clock : ClockReadings} {userKey : String} {key : LimitKey}
  {limit now : ℕ} {reservation : RateLimitReservation} {scope : LimitScope}

@[simp] theorem reserveOf_config : (r.reserveOf reservation now scope).config = r.config := by
  unfold reserveOf reserveGlobalUserOperation reserveRelayerOperation
  repeat' split
  all_goals rfl

@[simp] theorem revertOf_config : (r.revertOf reservation scope).config = r.config := by
  unfold revertOf
  repeat' split
  all_goals rfl

theorem reserve_eq : r.reserve userKey relayerAddress operation clock =
    ((r.reserveOf ⟨userKey, operation, relayerAddress⟩ clock.reserveUser .user).reserveOf
      ⟨userKey, operation, relayerAddress⟩ clock.reserveGlobal .global).reserveOf
        ⟨userKey, operation, relayerAddress⟩ clock.reserveRelayer .relayer := by
  unfold reserve reserveOf reserveUserOperation reserveGlobalUserOperation reserveRelayerOperation
  cases hglobal : r.config.globalLimits <;> cases hrelayer : r.config.relayerLimits <;>
    simp [hglobal, hrelayer]

theorem revert_eq : r.revert reservation =
    ((r.revertOf reservation .user).revertOf reservation .global).revertOf reservation .relayer :=
  rfl

theorem reserve_config : (r.reserve userKey relayerAddress operation clock).config = r.config := by
  simp [reserve_eq]

theorem revert_config : (r.revert reservation).config = r.config := by
  simp [revert_eq]

theorem globalLimits_of_limitOf (h : r.config.limitOf (.global operation) = some limit) :
    ∃ l, r.config.globalLimits = some l ∧ l.limit operation = limit := by
  simpa [RateLimitConfig.limitOf] using h

theorem relayerLimits_of_limitOf
    (h : r.config.limitOf (.relayer relayerAddress operation) = some limit) :
    ∃ l, r.config.relayerLimits = some l ∧ l.limit operation = limit := by
  simpa [RateLimitConfig.limitOf] using h

theorem userLimit_of_limitOf
    (h : r.config.limitOf (.user userKey relayerAddress operation) = some limit) :
    r.config.userLimit operation ≠ u64Max ∧ r.config.userLimit operation = limit := by
  simpa [RateLimitConfig.limitOf] using h

/-- A reservation in one cache leaves the usage in the others. -/
theorem usage_reserveOf_other (hother : key.scope ≠ scope) :
    (r.reserveOf reservation now scope).usage key = r.usage key := by
  cases scope with
  | user =>
    cases key with
    | user => exact absurd rfl hother
    | global | relayer => rfl
  | global =>
    cases key with
    | global => exact absurd rfl hother
    | user | relayer =>
      unfold reserveOf reserveGlobalUserOperation
      dsimp only
      split <;> rfl
  | relayer =>
    cases key with
    | relayer => exact absurd rfl hother
    | user | global =>
      unfold reserveOf reserveRelayerOperation
      dsimp only
      split <;> rfl

theorem usage_revertOf_other (hother : key.scope ≠ scope) :
    (r.revertOf reservation scope).usage key = r.usage key := by
  cases scope with
  | user =>
    cases key with
    | user => exact absurd rfl hother
    | global | relayer => rfl
  | global =>
    cases key with
    | global => exact absurd rfl hother
    | user | relayer =>
      unfold revertOf
      dsimp only
      split <;> rfl
  | relayer =>
    cases key with
    | relayer => exact absurd rfl hother
    | user | global =>
      unfold revertOf
      dsimp only
      split <;> rfl

/-- A reservation touches the keys that it counts for, in the cache it is made in. -/
theorem usage_reserveOf (hlimit : r.config.limitOf key = some limit) :
    (r.reserveOf reservation now scope).usage key =
      if key.scope = scope ∧ reservation.counts key then
        some (reserveOperation (r.usage key) now (r.config.windowOf key))
      else r.usage key := by
  by_cases hscope : key.scope = scope
  · subst hscope
    cases key with
    | user k a o =>
      have hentry := update_entry r.usageCache
        (fun w => some (reserveOperation w now r.config.getLimitsForUser.2.2))
        (reservation.userKey, reservation.relayerAddress, reservation.operation) (k, a, o)
      simp only [usage, reserveOf, reserveUserOperation, hentry, LimitKey.scope, true_and,
        RateLimitReservation.counts, decide_eq_true_eq, RateLimitConfig.windowOf]
    | global o =>
      obtain ⟨globalLimits, hglobal, -⟩ := globalLimits_of_limitOf hlimit
      have hentry := update_entry r.globalUsageCache
        (fun w => some (reserveOperation w now (parseInterval globalLimits.interval)))
        reservation.operation o
      simp only [usage, reserveOf, reserveGlobalUserOperation, hglobal, hentry, LimitKey.scope,
        true_and, RateLimitReservation.counts, decide_eq_true_eq, RateLimitConfig.windowOf,
        Option.map_some, Option.getD_some]
    | relayer a o =>
      obtain ⟨relayerLimits, hrelayer, -⟩ := relayerLimits_of_limitOf hlimit
      have hentry := update_entry r.relayerUsageCache
        (fun w => some (reserveOperation w now (parseInterval relayerLimits.interval)))
        (reservation.relayerAddress, reservation.operation) (a, o)
      simp only [usage, reserveOf, reserveRelayerOperation, hrelayer, hentry, LimitKey.scope,
        true_and, RateLimitReservation.counts, decide_eq_true_eq, RateLimitConfig.windowOf,
        Option.map_some, Option.getD_some]
  · rw [if_neg (fun h => hscope h.1)]
    exact usage_reserveOf_other hscope

theorem usage_revertOf (hlimit : r.config.limitOf key = some limit) :
    (r.revertOf reservation scope).usage key =
      if key.scope = scope ∧ reservation.counts key then revertOperation (r.usage key)
      else r.usage key := by
  by_cases hscope : key.scope = scope
  · subst hscope
    cases key with
    | user k a o =>
      simp only [usage, revertOf, revertUserOperation, update_entry, LimitKey.scope, true_and,
        RateLimitReservation.counts, decide_eq_true_eq]
    | global o =>
      obtain ⟨globalLimits, hglobal, -⟩ := globalLimits_of_limitOf hlimit
      simp only [usage, revertOf, revertGlobalUserOperation, hglobal, Option.isSome_some, if_true,
        update_entry, LimitKey.scope, true_and, RateLimitReservation.counts, decide_eq_true_eq]
    | relayer a o =>
      obtain ⟨relayerLimits, hrelayer, -⟩ := relayerLimits_of_limitOf hlimit
      simp only [usage, revertOf, revertRelayerOperation, hrelayer, Option.isSome_some, if_true,
        update_entry, LimitKey.scope, true_and, RateLimitReservation.counts, decide_eq_true_eq]
  · rw [if_neg (fun h => hscope h.1)]
    exact usage_revertOf_other hscope

/-- A passed check leaves room for one more under the limit of a key that the request counts
for. -/
theorem checkOf_room (hchecked : r.checkOf reservation now key.scope = .ok ())
    (hlimit : r.config.limitOf key = some limit) (hcounts : reservation.counts key = true) :
    currentUsage (r.usage key) now (r.config.windowOf key) ≤ limit := by
  cases key with
  | user k a o =>
    obtain ⟨rfl, rfl, rfl⟩ : k = reservation.userKey ∧ a = reservation.relayerAddress ∧
        o = reservation.operation := by
      simpa [RateLimitReservation.counts] using hcounts
    obtain ⟨hlimited, rfl⟩ := userLimit_of_limitOf hlimit
    simp only [checkOf, LimitKey.scope, checkUserLimits, if_neg hlimited] at hchecked
    split at hchecked
    · rename_i hallowed
      exact of_decide_eq_true hallowed
    · cases hchecked
  | global o =>
    obtain rfl : o = reservation.operation := by
      simpa [RateLimitReservation.counts] using hcounts
    obtain ⟨globalLimits, hlimits, rfl⟩ := globalLimits_of_limitOf hlimit
    simp only [checkOf, LimitKey.scope, checkConfigured, hlimits, checkGlobalUserLimits]
      at hchecked
    split at hchecked
    · cases hchecked
    · rename_i hwithin
      simpa [usage, RateLimitConfig.windowOf, hlimits] using hwithin
  | relayer a o =>
    obtain ⟨rfl, rfl⟩ : a = reservation.relayerAddress ∧ o = reservation.operation := by
      simpa [RateLimitReservation.counts] using hcounts
    obtain ⟨relayerLimits, hlimits, rfl⟩ := relayerLimits_of_limitOf hlimit
    simp only [checkOf, LimitKey.scope, checkConfigured, hlimits, checkRelayerLimits] at hchecked
    split at hchecked
    · cases hchecked
    · rename_i hwithin
      simpa [usage, RateLimitConfig.windowOf, hlimits] using hwithin

theorem usage_reserve (hlimit : r.config.limitOf key = some limit) :
    (r.reserve userKey relayerAddress operation clock).usage key =
      if RateLimitReservation.counts ⟨userKey, operation, relayerAddress⟩ key then
        some (reserveOperation (r.usage key) (clock.reserveOf key) (r.config.windowOf key))
      else r.usage key := by
  rw [reserve_eq, usage_reserveOf (by simpa using hlimit), usage_reserveOf (by simpa using hlimit),
    usage_reserveOf hlimit]
  cases key <;> simp [LimitKey.scope, ClockReadings.reserveOf]

theorem usage_revert (hlimit : r.config.limitOf key = some limit) :
    (r.revert reservation).usage key =
      if reservation.counts key then revertOperation (r.usage key) else r.usage key := by
  rw [revert_eq, usage_revertOf (by simpa using hlimit), usage_revertOf (by simpa using hlimit),
    usage_revertOf hlimit]
  cases key <;> simp [LimitKey.scope]

/-- The checks of a request are the checks of the single limits, one after the other. -/
theorem checkLimits_ok (hchecked : r.checkLimits headers relayerAddress operation clock =
    .ok userKey) :
    r.detect headers relayerAddress = .ok userKey ∧
      ∀ key : LimitKey, r.checkOf ⟨userKey, operation, relayerAddress⟩ (clock.checkOf key)
        key.scope = .ok () := by
  unfold checkLimits at hchecked
  obtain ⟨detected, hdetect, hchecked⟩ := Except.bind_eq_ok.mp hchecked
  obtain ⟨_, hrelayer, hchecked⟩ := Except.bind_eq_ok.mp hchecked
  obtain ⟨_, hglobal, hchecked⟩ := Except.bind_eq_ok.mp hchecked
  dsimp only at hchecked
  split at hchecked
  · rename_i hallowed
    obtain rfl : detected = userKey := Except.ok.inj hchecked
    refine ⟨hdetect, ?_⟩
    intro key
    cases key with
    | user => simp [checkOf, LimitKey.scope, ClockReadings.checkOf, hallowed]
    | global => exact hglobal
    | relayer => exact hrelayer
  · cases hchecked

theorem checkLimits_room (hchecked : r.checkLimits headers relayerAddress operation clock =
    .ok userKey) (hlimit : r.config.limitOf key = some limit)
    (hcounts : RateLimitReservation.counts ⟨userKey, operation, relayerAddress⟩ key = true) :
    currentUsage (r.usage key) (clock.checkOf key) (r.config.windowOf key) ≤ limit :=
  checkOf_room ((checkLimits_ok hchecked).2 key) hlimit hcounts

end RateLimiter

/-- A request that was let through. An unkeyed one has no reservation. -/
structure RateAdmission where
  relayerAddress : EvmAddress
  operation : RateLimitOperation
  reservation : Option RateLimitReservation
  readings : ClockReadings
  reverted : Bool
  deriving DecidableEq, Repr

inductive RateLimitEvent where
  | request (headers : RateLimitHeader) (relayerAddress : EvmAddress)
      (operation : RateLimitOperation) (readings : ClockReadings)
  | revert (admission : ℕ)
  deriving DecidableEq, Repr

/-- The limiter, the requests it has let through and the latest reading of the clock. -/
structure RateLedger where
  limiter : RateLimiter
  admissions : List RateAdmission
  clock : ℕ

namespace RateLedger

def new (config : RateLimitConfig) : RateLedger := ⟨.new config, [], 0⟩

def step (s : RateLedger) : RateLimitEvent → RateLedger
  | .request headers relayerAddress operation readings =>
      match s.limiter.checkAndReserveRateLimit headers relayerAddress operation readings with
      | (.ok reservation, limiter) =>
          ⟨limiter,
            s.admissions ++ [⟨relayerAddress, operation, reservation, readings, false⟩],
            readings.reserveRelayer⟩
      | (.error _, limiter) => ⟨limiter, s.admissions, readings.reserveRelayer⟩
  | .revert i =>
      match s.admissions[i]? with
      | some ⟨relayerAddress, operation, some reservation, readings, false⟩ =>
          { s with
            limiter := s.limiter.revert reservation
            admissions := s.admissions.set i
              ⟨relayerAddress, operation, some reservation, readings, true⟩ }
      | _ => s

abbrev run (s : RateLedger) (es : List RateLimitEvent) : RateLedger :=
  EventMachine.run step s es

end RateLedger

/-- The reservation counts for the key, was not reverted and was made in the given window. -/
def RateAdmission.reservedIn (key : LimitKey) (windowSeconds window : ℕ) (a : RateAdmission) :
    Bool :=
  !a.reverted && a.reservation.any (·.counts key) &&
    asSecs (a.readings.reserveOf key) / windowSeconds == window

/-- Reservations granted for the key and not reverted, in the `window`-th aligned window. -/
def RateLedger.reservations (s : RateLedger) (key : LimitKey) (window : ℕ) : ℕ :=
  s.admissions.countP (RateAdmission.reservedIn key (s.limiter.config.windowOf key) window)

end Rrelayer
