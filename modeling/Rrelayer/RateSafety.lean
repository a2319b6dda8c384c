import Rrelayer.RateWindows

/-! How far the rate limits hold over a run of requests. The stored window of a key counts the
reservations of one aligned window, as long as none is made in the second in which that window has
ended but does not count as expired, and none is reverted after a later window was stored. -/
namespace Rrelayer

/-- A stored window counts the reservations of the aligned window it starts, the latest one that
has any. -/
structure Covers (windowSeconds limit clock : ℕ) (stored : Option UsageWindow) (count : ℕ → ℕ) :
    Prop where
  bounded : ∀ k, count k ≤ limit
  empty : stored = none → ∀ k, count k = 0
  latest : ∀ u, stored = some u → ∃ j, u.windowStart = fromSecs (j * windowSeconds) ∧
    u.windowStart ≤ clock ∧ u.usageCount = count j ∧ ∀ k, j < k → count k = 0

namespace Covers

variable {windowSeconds limit clock : ℕ} {stored : Option UsageWindow} {count count' : ℕ → ℕ}

theorem later {clock' : ℕ} (h : Covers windowSeconds limit clock stored count)
    (hclock : clock ≤ clock') : Covers windowSeconds limit clock' stored count := by
  refine ⟨h.bounded, h.empty, ?_⟩
  intro u hu
  obtain ⟨j, hstart, hpast, hcount, hlater⟩ := h.latest u hu
  exact ⟨j, hstart, hpast.trans hclock, hcount, hlater⟩

theorem asSecs_mono {a b : ℕ} (h : a ≤ b) : asSecs a ≤ asSecs b :=
  Nat.div_le_div_right h

/-- The window of a reading that is neither before nor after the one that starts at `start`. -/
theorem window_eq {start seconds : ℕ} (hlow : start * windowSeconds ≤ seconds)
    (hhigh : seconds - start * windowSeconds < windowSeconds) : seconds / windowSeconds = start := by
  apply Nat.div_eq_of_lt_le
  · exact hlow
  · rw [Nat.add_mul, Nat.one_mul]
    omega

theorem window_after {start seconds : ℕ} (hpos : 0 < windowSeconds)
    (hhigh : windowSeconds < seconds - start * windowSeconds) : start < seconds / windowSeconds := by
  rw [Nat.lt_div_iff_mul_lt hpos]
  omega

/-- A new window is stored, and the window of the reading was empty. -/
theorem newWindow {now clock' : ℕ} (h : Covers windowSeconds limit clock stored count)
    (hone : 1 ≤ limit) (hlast : now ≤ clock')
    (hcount : ∀ k, count' k = count k + if asSecs now / windowSeconds = k then 1 else 0)
    (hempty : ∀ k, asSecs now / windowSeconds ≤ k → count k = 0) :
    Covers windowSeconds limit clock' (some ⟨1, calculateWindowStart now windowSeconds⟩)
      count' := by
  refine ⟨?_, by simp, ?_⟩
  · intro k
    have hold := h.bounded k
    rw [hcount]
    split
    · rename_i hk
      have hzero := hempty k hk.le
      omega
    · omega
  · rintro u hu
    obtain rfl : _ = u := Option.some.inj hu
    refine ⟨asSecs now / windowSeconds, rfl, start_le.trans hlast, ?_, ?_⟩
    · rw [hcount, hempty _ le_rfl]
      simp
    · intro k hk
      rw [hcount, hempty k hk.le, if_neg hk.ne]

/-- The stored window is the one of the reading, and has a place left. -/
theorem sameWindow {clock' j : ℕ} {u : UsageWindow}
    (h : Covers windowSeconds limit clock stored count)
    (hstart : u.windowStart = fromSecs (j * windowSeconds)) (hpast : u.windowStart ≤ clock')
    (hused : count j = u.usageCount) (hlater : ∀ k, j < k → count k = 0)
    (hfits : u.usageCount + 1 ≤ limit) (hcount : ∀ k, count' k = count k + if j = k then 1 else 0) :
    Covers windowSeconds limit clock' (some ⟨u.usageCount + 1, u.windowStart⟩) count' := by
  refine ⟨?_, by simp, ?_⟩
  · intro k
    have hold := h.bounded k
    rw [hcount]
    split
    · rename_i hk
      rw [← hk, hused]
      exact hfits
    · exact hold
  · intro v hv
    obtain rfl : _ = v := Option.some.inj hv
    refine ⟨j, hstart, hpast, ?_, ?_⟩
    · rw [hcount, if_pos rfl, hused]
    · intro k hk
      rw [hcount, if_neg hk.ne, hlater k hk]

/-- A granted request takes one place in the window of its reading. -/
theorem reserve {check now clock' : ℕ} (h : Covers windowSeconds limit clock stored count)
    (hpos : 0 < windowSeconds) (hcheck : clock ≤ check) (hnow : check ≤ now) (hlast : now ≤ clock')
    (hroom : currentUsage stored check windowSeconds ≤ limit)
    (hinside : ∀ u ∈ stored, asSecs (now - u.windowStart) ≠ windowSeconds)
    (hcount : ∀ k, count' k = count k + if asSecs now / windowSeconds = k then 1 else 0) :
    Covers windowSeconds limit clock' (some (reserveOperation stored now windowSeconds))
      count' := by
  have hone : 1 ≤ limit := by
    unfold currentUsage at hroom
    dsimp only at hroom
    split at hroom
    · exact hroom
    · omega
  cases hstored : stored with
  | none =>
    have hreserved : reserveOperation none now windowSeconds =
        ⟨1, calculateWindowStart now windowSeconds⟩ := by
      simp [reserveOperation, currentWindow, fresh hpos]
    rw [hreserved]
    exact h.newWindow hone hlast hcount fun k _ => h.empty hstored k
  | some u =>
    obtain ⟨j, hstart, hpast, hused, hlater⟩ := h.latest u hstored
    have hnowLe : u.windowStart ≤ now := by omega
    have hcheckLe : u.windowStart ≤ check := by omega
    have hnowSecs : j * windowSeconds ≤ asSecs now := by
      rw [hstart] at hnowLe
      exact fromSecs_le.mp hnowLe
    have helapsed : asSecs (now - u.windowStart) = asSecs now - j * windowSeconds := by
      rw [hstart, asSecs_sub]
    cases hexpired : windowExpired now windowSeconds u.windowStart with
    | true =>
      have hreserved : reserveOperation (some u) now windowSeconds =
          ⟨1, calculateWindowStart now windowSeconds⟩ := by
        simp [reserveOperation, currentWindow, hexpired]
      rw [hreserved]
      rw [windowExpired, if_pos hnowLe, helapsed, decide_eq_true_eq] at hexpired
      have hafter : j < asSecs now / windowSeconds := window_after hpos hexpired
      apply h.newWindow hone hlast hcount
      intro k hk
      exact hlater k (by omega)
    | false =>
      have hreserved : reserveOperation (some u) now windowSeconds =
          ⟨u.usageCount + 1, u.windowStart⟩ := by
        simp [reserveOperation, currentWindow, hexpired]
      rw [hreserved]
      rw [windowExpired, if_pos hnowLe, decide_eq_false_iff_not, not_lt] at hexpired
      have hwithin : asSecs (now - u.windowStart) < windowSeconds :=
        lt_of_le_of_ne hexpired (hinside u hstored)
      have hwindow : asSecs now / windowSeconds = j :=
        window_eq hnowSecs (by rw [← helapsed]; exact hwithin)
      -- The check, made earlier, saw the same window.
      have hcheckedWindow : windowExpired check windowSeconds u.windowStart = false := by
        have hmono : asSecs (check - u.windowStart) ≤ asSecs (now - u.windowStart) :=
          asSecs_mono (by omega)
        rw [windowExpired, if_pos hcheckLe]
        exact decide_eq_false (by omega)
      have hfits : u.usageCount + 1 ≤ limit := by
        simpa [currentUsage, currentWindow, hstored, hcheckedWindow] using hroom
      rw [hwindow] at hcount
      exact h.sameWindow hstart (hnowLe.trans hlast) hused.symm hlater hfits hcount

/-- A revert gives back a place in the stored window. -/
theorem revert {window : ℕ} (h : Covers windowSeconds limit clock stored count)
    (hpos : 0 < windowSeconds)
    (hsame : ∀ u ∈ stored, asSecs u.windowStart / windowSeconds = window)
    (hcount : ∀ k, count k = count' k + if window = k then 1 else 0) :
    Covers windowSeconds limit clock (revertOperation stored) count' := by
  have hless (k : ℕ) : count' k ≤ count k := by
    rw [hcount]
    omega
  refine ⟨fun k => (hless k).trans (h.bounded k), ?_, ?_⟩
  · intro hnone k
    have hstored : stored = none := by simpa [revertOperation] using hnone
    have hzero := h.empty hstored k
    have hle := hless k
    omega
  · intro v hv
    obtain ⟨u, hu, hv⟩ := Option.map_eq_some_iff.mp hv
    obtain ⟨j, hstart, hpast, hused, hlater⟩ := h.latest u hu
    have hj : window = j := by
      rw [← hsame u hu, hstart]
      unfold asSecs fromSecs
      rw [Nat.mul_div_cancel _ (by decide), Nat.mul_div_cancel _ hpos]
    have hplace : u.usageCount = count' j + 1 := by rw [hused, hcount, if_pos hj]
    obtain rfl : { u with usageCount := u.usageCount - 1 } = v := by
      rw [if_pos (by omega)] at hv
      exact hv
    refine ⟨j, hstart, hpast, ?_, ?_⟩
    · show u.usageCount - 1 = count' j
      omega
    · intro k hk
      have hzero := hlater k hk
      have hle := hless k
      omega

end Covers

namespace RateLedger

variable {s : RateLedger} {e : RateLimitEvent} {key : LimitKey} {limit : ℕ}

/-- Requests are handled one after the other, at times that do not decrease. -/
def Timely (s : RateLedger) : RateLimitEvent → Prop
  | .request _ _ _ readings => readings.Sorted ∧ s.clock ≤ readings.checkRelayer
  | .revert _ => True

/-- No request for the key would reserve in the second in which its stored window has ended but
does not count as expired, and no reservation is reverted once a later window is stored. -/
def OnTime (key : LimitKey) (s : RateLedger) : RateLimitEvent → Prop
  | .request headers relayerAddress operation readings =>
      ∀ userKey ∈ (s.limiter.detect headers relayerAddress).toOption,
        RateLimitReservation.counts ⟨userKey, operation, relayerAddress⟩ key →
        ∀ u ∈ s.limiter.usage key,
          asSecs (readings.reserveOf key - u.windowStart) ≠ s.limiter.config.windowOf key
  | .revert i =>
      ∀ a ∈ s.admissions[i]?, ∀ reservation ∈ a.reservation,
        RateLimitReservation.counts reservation key → ∀ u ∈ s.limiter.usage key,
          asSecs u.windowStart / s.limiter.config.windowOf key =
            asSecs (a.readings.reserveOf key) / s.limiter.config.windowOf key

instance (e : RateLimitEvent) : Decidable (s.Timely e) :=
  match e with
  | .request _ _ _ _ => inferInstanceAs (Decidable (_ ∧ _))
  | .revert _ => .isTrue trivial

instance (e : RateLimitEvent) : Decidable (s.OnTime key e) :=
  match e with
  | .request _ _ _ _ => inferInstanceAs (Decidable (∀ _ ∈ _, _ → ∀ _ ∈ _, _))
  | .revert _ => inferInstanceAs (Decidable (∀ _ ∈ _, ∀ _ ∈ _, _ → ∀ _ ∈ _, _))

theorem step_granted {headers : RateLimitHeader} {relayerAddress : EvmAddress}
    {operation : RateLimitOperation} {readings : ClockReadings} {userKey : String}
    (h : s.limiter.checkLimits headers relayerAddress operation readings = .ok userKey) :
    s.step (.request headers relayerAddress operation readings) =
      ⟨s.limiter.reserve userKey relayerAddress operation readings,
        s.admissions ++ [⟨relayerAddress, operation, some ⟨userKey, operation, relayerAddress⟩,
          readings, false⟩], readings.reserveRelayer⟩ := by
  simp [step, RateLimiter.checkAndReserveRateLimit, RateLimiter.checkAndReserve, h]

theorem step_ungranted {headers : RateLimitHeader} {relayerAddress : EvmAddress}
    {operation : RateLimitOperation} {readings : ClockReadings} {error : RateLimitError}
    (h : s.limiter.checkLimits headers relayerAddress operation readings = .error error) :
    s.step (.request headers relayerAddress operation readings) =
        ⟨s.limiter, s.admissions, readings.reserveRelayer⟩ ∨
      s.step (.request headers relayerAddress operation readings) =
        ⟨s.limiter, s.admissions ++ [⟨relayerAddress, operation, none, readings, false⟩],
          readings.reserveRelayer⟩ := by
  cases error with
  | limitExceeded operation current limit windowSeconds =>
    left
    simp [step, RateLimiter.checkAndReserveRateLimit, RateLimiter.checkAndReserve, h]
  | database =>
    right
    simp [step, RateLimiter.checkAndReserveRateLimit, RateLimiter.checkAndReserve, h]
  | configuration message =>
    right
    simp [step, RateLimiter.checkAndReserveRateLimit, RateLimiter.checkAndReserve, h]
  | noRateLimitKey =>
    right
    simp [step, RateLimiter.checkAndReserveRateLimit, RateLimiter.checkAndReserve, h]

theorem step_revert {i : ℕ} :
    s.step (.revert i) = s ∨ ∃ a reservation, s.admissions[i]? = some a ∧
      a.reservation = some reservation ∧ a.reverted = false ∧
      s.step (.revert i) = { s with
        limiter := s.limiter.revert reservation
        admissions := s.admissions.set i { a with reverted := true } } := by
  unfold step
  dsimp only
  split
  · rename_i relayerAddress operation reservation readings hi
    right
    exact ⟨_, reservation, hi, rfl, rfl, rfl⟩
  · left
    rfl

theorem step_config : (s.step e).limiter.config = s.limiter.config := by
  cases e with
  | request headers relayerAddress operation readings =>
    cases hchecked : s.limiter.checkLimits headers relayerAddress operation readings with
    | ok userKey =>
      rw [step_granted hchecked]
      exact RateLimiter.reserve_config
    | error error =>
      obtain hstep | hstep := step_ungranted hchecked
      · rw [hstep]
      · rw [hstep]
  | revert i =>
    obtain hstep | ⟨a, reservation, -, -, -, hstep⟩ := step_revert (s := s) (i := i)
    · rw [hstep]
    · rw [hstep]
      exact RateLimiter.revert_config

/-- The stored window of the key accounts for its reservations. -/
def Accounts (s : RateLedger) (key : LimitKey) (limit : ℕ) : Prop :=
  Covers (s.limiter.config.windowOf key) limit s.clock (s.limiter.usage key) (s.reservations key)

theorem countP_uncounted {a : RateAdmission} {admissions : List RateAdmission} {windowSeconds : ℕ}
    (h : a.reservation.any (·.counts key) = false) :
    (fun k => (admissions ++ [a]).countP (RateAdmission.reservedIn key windowSeconds k)) =
      fun k => admissions.countP (RateAdmission.reservedIn key windowSeconds k) := by
  funext k
  simp [List.countP_append, RateAdmission.reservedIn, h]

/-- A reverted admission is one reservation less where it counted. -/
theorem reservations_set {i : ℕ} {a : RateAdmission} (ha : s.admissions[i]? = some a) (k : ℕ) :
    s.reservations key k =
      (s.admissions.set i { a with reverted := true }).countP
        (RateAdmission.reservedIn key (s.limiter.config.windowOf key) k) +
      if RateAdmission.reservedIn key (s.limiter.config.windowOf key) k a then 1 else 0 := by
  obtain ⟨hi, hget⟩ := List.getElem?_eq_some_iff.mp ha
  have hgone : RateAdmission.reservedIn key (s.limiter.config.windowOf key) k
      { a with reverted := true } = false := by
    simp [RateAdmission.reservedIn]
  rw [List.countP_set hi, hget, hgone]
  unfold reservations
  split
  · rename_i hin
    have hmem : a ∈ s.admissions := by
      rw [← hget]
      exact List.getElem_mem hi
    have hsome := List.countP_pos_iff.mpr ⟨a, hmem, hin⟩
    simp only [Bool.false_eq_true, if_false]
    omega
  · simp

theorem Accounts.request {headers : RateLimitHeader} {relayerAddress : EvmAddress}
    {operation : RateLimitOperation} {readings : ClockReadings} (h : s.Accounts key limit)
    (hlimit : s.limiter.config.limitOf key = some limit)
    (htimely : s.Timely (.request headers relayerAddress operation readings))
    (hontime : s.OnTime key (.request headers relayerAddress operation readings)) :
    (s.step (.request headers relayerAddress operation readings)).Accounts key limit := by
  have hpos := s.limiter.config.windowOf_pos key
  obtain ⟨hsorted, hclock⟩ := htimely
  obtain ⟨hcheck, hreserve, hlast⟩ := hsorted.between key
  have hlater := h.later (hclock.trans (hcheck.trans (hreserve.trans hlast)))
  cases hchecked : s.limiter.checkLimits headers relayerAddress operation readings with
  | ok userKey =>
    rw [step_granted hchecked]
    unfold Accounts reservations
    simp only [RateLimiter.reserve_config, RateLimiter.usage_reserve hlimit]
    cases hcounts : RateLimitReservation.counts ⟨userKey, operation, relayerAddress⟩ key with
    | true =>
      rw [if_pos rfl]
      apply Covers.reserve h hpos (hclock.trans hcheck) hreserve hlast
      · exact RateLimiter.checkLimits_room hchecked hlimit hcounts
      · apply hontime userKey
        · rw [(RateLimiter.checkLimits_ok hchecked).1]
          rfl
        · exact hcounts
      · intro k
        rw [List.countP_append, List.countP_singleton]
        simp [reservations, RateAdmission.reservedIn, hcounts]
    | false =>
      rw [if_neg (by decide)]
      rw [countP_uncounted (by simpa using hcounts)]
      exact hlater
  | error error =>
    obtain hstep | hstep := step_ungranted hchecked
    · rw [hstep]
      exact hlater
    · rw [hstep]
      unfold Accounts reservations
      rw [countP_uncounted rfl]
      exact hlater

theorem Accounts.revert {i : ℕ} (h : s.Accounts key limit)
    (hlimit : s.limiter.config.limitOf key = some limit) (hontime : s.OnTime key (.revert i)) :
    (s.step (.revert i)).Accounts key limit := by
  have hpos := s.limiter.config.windowOf_pos key
  obtain hstep | ⟨a, reservation, ha, hreservation, hlive, hstep⟩ := step_revert (s := s) (i := i)
  · rw [hstep]
    exact h
  · rw [hstep]
    unfold Accounts
    unfold reservations
    simp only [RateLimiter.revert_config, RateLimiter.usage_revert hlimit]
    cases hcounts : reservation.counts key with
    | true =>
      rw [if_pos rfl]
      apply Covers.revert h hpos
      · exact hontime a ha reservation hreservation hcounts
      · intro k
        rw [reservations_set ha]
        simp [RateAdmission.reservedIn, hlive, hreservation, hcounts]
    | false =>
      rw [if_neg (by decide)]
      have hsame : s.reservations key = fun k =>
          (s.admissions.set i { a with reverted := true }).countP
            (RateAdmission.reservedIn key (s.limiter.config.windowOf key) k) := by
        funext k
        rw [reservations_set ha]
        simp [RateAdmission.reservedIn, hreservation, hcounts]
      rw [Accounts, hsame] at h
      exact h

theorem Accounts.step (h : s.Accounts key limit) (hlimit : s.limiter.config.limitOf key = some limit)
    (htimely : s.Timely e) (hontime : s.OnTime key e) : (s.step e).Accounts key limit := by
  cases e with
  | request headers relayerAddress operation readings => exact h.request hlimit htimely hontime
  | revert i => exact h.revert hlimit hontime

theorem accounts_new {config : RateLimitConfig} : (new config).Accounts key limit := by
  refine ⟨?_, ?_, ?_⟩
  · intro k
    exact Nat.zero_le limit
  · intro _ k
    rfl
  · intro u hu
    cases key <;> cases hu

/-- In every run whose requests and reverts are on time, the reservations of a key in an aligned
window stay within its limit. -/
theorem accounts_run {es : List RateLimitEvent} (h : s.Accounts key limit)
    (hlimit : s.limiter.config.limitOf key = some limit)
    (hes : EventMachine.Along step (fun s e => s.Timely e ∧ s.OnTime key e) s es) :
    (s.run es).Accounts key limit := by
  have hkept : (s.run es).Accounts key limit ∧
      (s.run es).limiter.config.limitOf key = some limit := by
    apply hes.invariant (P := fun s => s.Accounts key limit ∧
      s.limiter.config.limitOf key = some limit)
    · rintro s e ⟨htimely, honTime⟩ ⟨haccounts, hlimit⟩
      exact ⟨haccounts.step hlimit htimely honTime, by rw [step_config]; exact hlimit⟩
    · exact ⟨h, hlimit⟩
  exact hkept.1

theorem reservations_within_limit {config : RateLimitConfig} {es : List RateLimitEvent}
    (hlimit : config.limitOf key = some limit)
    (hes : EventMachine.Along step (fun s e => s.Timely e ∧ s.OnTime key e) (new config) es)
    (window : ℕ) : ((new config).run es).reservations key window ≤ limit :=
  (accounts_run accounts_new hlimit hes).bounded window

/-- Two transactions of a user in ten seconds. -/
def twoInTenSeconds : RateLimitConfig where
  userLimits := some ⟨some ⟨"10s", 2, 2⟩, none⟩
  relayerLimits := none
  fallbackToRelayer := false

/-- A transaction of one user, handled at once. -/
def transactionAt (seconds : ℕ) : RateLimitEvent :=
  .request (some "user") 1 .transaction (.constant (fromSecs seconds))

/-- The third request is refused, the fourth finds the place of a reverted one, and the last two
fall into a later window. -/
theorem reservations_within_limit_reverted :
    ((new twoInTenSeconds).run [transactionAt 5, transactionAt 6, transactionAt 7, .revert 0,
      transactionAt 8, transactionAt 21, transactionAt 22]).reservations
        (.user "user" 1 .transaction) 0 ≤ 2 :=
  reservations_within_limit (by decide) (by decide +kernel) 0

/-- The request ten seconds after the start of the stored window is counted for that window, and
two more are granted in its own. -/
theorem reservations_within_limit_fails :
    ¬ ∀ (config : RateLimitConfig) (key : LimitKey) (limit : ℕ) (es : List RateLimitEvent),
      config.limitOf key = some limit → EventMachine.Along step Timely (new config) es →
        ∀ window, ((new config).run es).reservations key window ≤ limit := by
  intro hwithin
  have hthree := hwithin twoInTenSeconds (.user "user" 1 .transaction) 2
    [transactionAt 5, transactionAt 10, transactionAt 11, transactionAt 12] (by decide)
    (by decide +kernel) 1
  revert hthree
  decide +kernel

end RateLedger

end Rrelayer
