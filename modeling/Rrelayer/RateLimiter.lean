import Rrelayer.Transaction
import Rrelayer.AppState
import Mathlib.Logic.Function.Basic

/-! The rate limiter: three caches of usage windows, the checks of a request and what it reserves.
A reading of the clock is a number of nanoseconds since the epoch. -/
namespace Rrelayer

def asSecs (duration : ℕ) : ℕ := duration / 10 ^ 9

def fromSecs (seconds : ℕ) : ℕ := seconds * 10 ^ 9

def tooManyRequests : HttpError := ⟨429, "Too many requests"⟩

structure UsageWindow where
  usageCount : ℕ
  windowStart : ℕ
  deriving DecidableEq, Repr

structure RateLimitWithInterval where
  interval : String
  transactions : ℕ
  signingOperations : ℕ
  deriving DecidableEq, Repr

structure UserRateLimitConfig where
  perRelayer : Option RateLimitWithInterval
  global : Option RateLimitWithInterval
  deriving DecidableEq, Repr

structure RateLimitConfig where
  userLimits : Option UserRateLimitConfig
  relayerLimits : Option RateLimitWithInterval
  fallbackToRelayer : Bool
  deriving DecidableEq, Repr

inductive RateLimitOperation where
  | transaction | signing
  deriving DecidableEq, Repr

def RateLimitOperation.asStr : RateLimitOperation → String
  | .transaction => "transactions"
  | .signing => "signing"

inductive RateLimitError where
  | limitExceeded (operation : String) (current limit windowSeconds : ℕ)
  | database
  | configuration (message : String)
  | noRateLimitKey
  deriving DecidableEq, Repr

structure RateLimitResult where
  allowed : Bool
  currentUsage : ℕ
  limit : ℕ
  windowSeconds : ℕ
  resetTime : ℕ
  deriving DecidableEq, Repr

/-- The white space that `trim` removes. -/
def isWhitespace (c : Char) : Bool :=
  (9 ≤ c.toNat && c.toNat ≤ 13) || (0x2000 ≤ c.toNat && c.toNat ≤ 0x200A) ||
    [0x20, 0x85, 0xA0, 0x1680, 0x2028, 0x2029, 0x202F, 0x205F, 0x3000].contains c.toNat

def trim (s : List Char) : List Char :=
  ((s.dropWhile isWhitespace).reverse.dropWhile isWhitespace).reverse

def stripSuffix (s : List Char) (c : Char) : Option (List Char) :=
  if s.getLast? = some c then some s.dropLast else none

/-- Decimal digits with an optional plus sign, below `2 ^ 32`. -/
def parseU32 (s : List Char) : Option ℕ :=
  let digits := if s.head? = some '+' then s.tail else s
  if digits.isEmpty || digits.any (fun c => !c.isDigit) then none
  else
    let value := digits.foldl (fun n c => n * 10 + (c.toNat - '0'.toNat)) 0
    if value < 2 ^ 32 then some value else none

def parseInterval (interval : String) : ℕ :=
  let interval := trim interval.toList
  if interval = "second".toList ∨ interval = "seconds".toList then 1
  else if interval = "minute".toList ∨ interval = "minutes".toList then 60
  else
    match stripSuffix interval 's' with
    | some seconds => max ((parseU32 seconds).getD 60) 1
    | none =>
      match stripSuffix interval 'm' with
      -- The product is a `u32`.
      | some minutes => max (((parseU32 minutes).map (· * 60 % 2 ^ 32)).getD 60) 1
      | none => 60

theorem parseInterval_pos (interval : String) : 0 < parseInterval interval := by
  unfold parseInterval
  dsimp only
  split
  · omega
  · split
    · omega
    · split
      · omega
      · split
        · omega
        · omega

def u64Max : ℕ := 2 ^ 64 - 1

namespace RateLimitWithInterval

def limit (l : RateLimitWithInterval) : RateLimitOperation → ℕ
  | .transaction => l.transactions
  | .signing => l.signingOperations

end RateLimitWithInterval

namespace RateLimitConfig

variable (c : RateLimitConfig)

/-- The transaction limit, the signing limit and the seconds of a window. -/
def getLimitsForUser : ℕ × ℕ × ℕ :=
  match c.userLimits.bind (·.perRelayer) with
  | some perRelayer =>
      (perRelayer.transactions, perRelayer.signingOperations, parseInterval perRelayer.interval)
  | none =>
    match c.relayerLimits with
    | some relayerLimits =>
        (relayerLimits.transactions, relayerLimits.signingOperations,
          parseInterval relayerLimits.interval)
    | none => (100, 50, 60)

def userLimit : RateLimitOperation → ℕ
  | .transaction => c.getLimitsForUser.1
  | .signing => c.getLimitsForUser.2.1

def globalLimits : Option RateLimitWithInterval := c.userLimits.bind (·.global)

theorem userWindow_pos : 0 < c.getLimitsForUser.2.2 := by
  unfold getLimitsForUser
  split
  · exact parseInterval_pos _
  · split
    · exact parseInterval_pos _
    · decide

end RateLimitConfig

section Windows

variable (stored : Option UsageWindow) (now : ℕ) (windowSeconds : ℕ)

def calculateWindowStart : ℕ := fromSecs (asSecs now / windowSeconds * windowSeconds)

/-- The expiry test that the checks and the reservations share; a window that starts in the future
counts as expired. -/
def windowExpired (windowStart : ℕ) : Bool :=
  if windowStart ≤ now then windowSeconds < asSecs (now - windowStart) else true

def currentWindow : UsageWindow := stored.getD ⟨0, calculateWindowStart now windowSeconds⟩

def currentUsage : ℕ :=
  let usage := currentWindow stored now windowSeconds
  if windowExpired now windowSeconds usage.windowStart then 1 else usage.usageCount + 1

def reserveOperation : UsageWindow :=
  let usage := currentWindow stored now windowSeconds
  if windowExpired now windowSeconds usage.windowStart then
    ⟨1, calculateWindowStart now windowSeconds⟩
  else ⟨usage.usageCount + 1, usage.windowStart⟩

def revertOperation : Option UsageWindow :=
  stored.map fun usage =>
    if 0 < usage.usageCount then { usage with usageCount := usage.usageCount - 1 } else usage

end Windows

/-- Each cache maps the parts that its key string is put together from. -/
structure RateLimiter where
  config : RateLimitConfig
  usageCache : String × EvmAddress × RateLimitOperation → Option UsageWindow
  globalUsageCache : RateLimitOperation → Option UsageWindow
  relayerUsageCache : EvmAddress × RateLimitOperation → Option UsageWindow

/-- What a granted request holds until it is committed or reverted. -/
structure RateLimitReservation where
  userKey : String
  operation : RateLimitOperation
  relayerAddress : EvmAddress
  deriving DecidableEq, Repr

/-- The clock readings of one `check_and_reserve`, in the order in which they are made. -/
structure ClockReadings where
  checkRelayer : ℕ
  checkGlobal : ℕ
  checkUser : ℕ
  reserveUser : ℕ
  reserveGlobal : ℕ
  reserveRelayer : ℕ
  deriving DecidableEq, Repr

/-- The value of the rate limit header, when it is there and readable. -/
abbrev RateLimitHeader := Option String

namespace RateLimiter

def new (config : RateLimitConfig) : RateLimiter where
  config := config
  usageCache _ := none
  globalUsageCache _ := none
  relayerUsageCache _ := none

variable (r : RateLimiter)

def detect (headers : RateLimitHeader) (relayerAddress : EvmAddress) :
    Except RateLimitError String :=
  match headers with
  | some headerValue => .ok headerValue
  | none =>
      if r.config.fallbackToRelayer then .ok (EvmAddress.hex relayerAddress)
      else .error .noRateLimitKey

section Checks

variable (relayerAddress : EvmAddress) (operation : RateLimitOperation) (now : ℕ)

def checkRelayerLimits (relayerLimits : RateLimitWithInterval) : Except RateLimitError Unit :=
  let windowSeconds := parseInterval relayerLimits.interval
  let limit := relayerLimits.limit operation
  let currentUsage :=
    currentUsage (r.relayerUsageCache (relayerAddress, operation)) now windowSeconds
  if currentUsage > limit then
    .error (.limitExceeded ("relayer_" ++ operation.asStr) currentUsage limit windowSeconds)
  else .ok ()

def globalCacheKey : RateLimitOperation → String
  | .transaction => "global_user_tx"
  | .signing => "global_user_signing"

def checkGlobalUserLimits (globalLimits : RateLimitWithInterval) : Except RateLimitError Unit :=
  let windowSeconds := parseInterval globalLimits.interval
  let limit := globalLimits.limit operation
  let currentUsage := currentUsage (r.globalUsageCache operation) now windowSeconds
  if currentUsage > limit then
    .error (.limitExceeded (globalCacheKey operation) currentUsage limit windowSeconds)
  else .ok ()

/-- A limit of `u64::MAX` is no limit. -/
def checkUserLimits (userKey : String) : RateLimitResult :=
  let windowSeconds := r.config.getLimitsForUser.2.2
  let limit := r.config.userLimit operation
  if limit = u64Max then ⟨true, 0, u64Max, windowSeconds, now⟩
  else
    let currentUsage :=
      currentUsage (r.usageCache (userKey, relayerAddress, operation)) now windowSeconds
    ⟨currentUsage ≤ limit, currentUsage, limit, windowSeconds,
      calculateWindowStart now windowSeconds + fromSecs windowSeconds⟩

end Checks

section Reservations

variable (userKey : String) (relayerAddress : EvmAddress) (operation : RateLimitOperation)

def reserveUserOperation (now : ℕ) : RateLimiter :=
  let key := (userKey, relayerAddress, operation)
  { r with
    usageCache := Function.update r.usageCache key
      (some (reserveOperation (r.usageCache key) now r.config.getLimitsForUser.2.2)) }

def reserveGlobalUserOperation (now : ℕ) : RateLimiter :=
  match r.config.globalLimits with
  | some globalLimits =>
      { r with
        globalUsageCache := Function.update r.globalUsageCache operation
          (some (reserveOperation (r.globalUsageCache operation) now
            (parseInterval globalLimits.interval))) }
  | none => r

def reserveRelayerOperation (now : ℕ) : RateLimiter :=
  match r.config.relayerLimits with
  | some relayerLimits =>
      let key := (relayerAddress, operation)
      { r with
        relayerUsageCache := Function.update r.relayerUsageCache key
          (some (reserveOperation (r.relayerUsageCache key) now
            (parseInterval relayerLimits.interval))) }
  | none => r

def revertUserOperation : RateLimiter :=
  let key := (userKey, relayerAddress, operation)
  { r with
    usageCache := Function.update r.usageCache key (revertOperation (r.usageCache key)) }

def revertGlobalUserOperation : RateLimiter :=
  { r with
    globalUsageCache := Function.update r.globalUsageCache operation
      (revertOperation (r.globalUsageCache operation)) }

def revertRelayerOperation : RateLimiter :=
  let key := (relayerAddress, operation)
  { r with
    relayerUsageCache := Function.update r.relayerUsageCache key
      (revertOperation (r.relayerUsageCache key)) }

end Reservations

/-- `RateLimitReservation::revert`, also run when a reservation that was not committed is
dropped. -/
def revert (reservation : RateLimitReservation) : RateLimiter :=
  let r := r.revertUserOperation reservation.userKey reservation.relayerAddress
    reservation.operation
  let r := if r.config.globalLimits.isSome then
    r.revertGlobalUserOperation reservation.operation else r
  if r.config.relayerLimits.isSome then
    r.revertRelayerOperation reservation.relayerAddress reservation.operation else r

/-- The check of limits that the configuration may leave out. -/
def checkConfigured (limits : Option RateLimitWithInterval)
    (check : RateLimitWithInterval → Except RateLimitError Unit) : Except RateLimitError Unit :=
  match limits with
  | some limits => check limits
  | none => .ok ()

/-- The checks of `check_and_reserve`; the answer is the user key. -/
def checkLimits (headers : RateLimitHeader) (relayerAddress : EvmAddress)
    (operation : RateLimitOperation) (clock : ClockReadings) : Except RateLimitError String := do
  let userKey ← r.detect headers relayerAddress
  checkConfigured r.config.relayerLimits
    (r.checkRelayerLimits relayerAddress operation clock.checkRelayer)
  checkConfigured r.config.globalLimits (r.checkGlobalUserLimits operation clock.checkGlobal)
  let result := r.checkUserLimits relayerAddress operation clock.checkUser userKey
  if result.allowed then pure userKey
  else throw (.limitExceeded operation.asStr result.currentUsage result.limit result.windowSeconds)

def reserve (userKey : String) (relayerAddress : EvmAddress) (operation : RateLimitOperation)
    (clock : ClockReadings) : RateLimiter :=
  let r := r.reserveUserOperation userKey relayerAddress operation clock.reserveUser
  let r := if r.config.globalLimits.isSome then
    r.reserveGlobalUserOperation operation clock.reserveGlobal else r
  if r.config.relayerLimits.isSome then
    r.reserveRelayerOperation relayerAddress operation clock.reserveRelayer else r

def checkAndReserve (headers : RateLimitHeader) (relayerAddress : EvmAddress)
    (operation : RateLimitOperation) (clock : ClockReadings) :
    Except RateLimitError RateLimitReservation × RateLimiter :=
  match r.checkLimits headers relayerAddress operation clock with
  | .ok userKey =>
      (.ok ⟨userKey, operation, relayerAddress⟩,
        r.reserve userKey relayerAddress operation clock)
  | .error error => (.error error, r)

/-- How `check_and_reserve_rate_limit` answers for an existing relayer: a request without a key is
admitted without a reservation, as is one that meets any other error than an exceeded limit. -/
def checkAndReserveRateLimit (headers : RateLimitHeader) (relayerAddress : EvmAddress)
    (operation : RateLimitOperation) (clock : ClockReadings) :
    Except HttpError (Option RateLimitReservation) × RateLimiter :=
  match r.checkAndReserve headers relayerAddress operation clock with
  | (.ok reservation, r) => (.ok (some reservation), r)
  | (.error (.limitExceeded _ _ _ _), r) => (.error tooManyRequests, r)
  | (.error .noRateLimitKey, r) => (.ok none, r)
  | (.error _, r) => (.ok none, r)

end RateLimiter

end Rrelayer
