import Rrelayer.RateSafety

/-! What a relayer is asked to do, with or without a rate limit key, against the limits of the
relayer. -/
namespace Rrelayer

/-- The operation was admitted on the relayer in the given window and not reverted. -/
def RateAdmission.admittedIn (relayerAddress : EvmAddress) (operation : RateLimitOperation)
    (windowSeconds window : ℕ) (a : RateAdmission) : Bool :=
  !a.reverted && decide (a.relayerAddress = relayerAddress ∧ a.operation = operation) &&
    asSecs a.readings.reserveRelayer / windowSeconds == window

namespace RateLedger

variable {s : RateLedger} {e : RateLimitEvent} {relayerAddress : EvmAddress}
  {operation : RateLimitOperation}

def admitted (s : RateLedger) (relayerAddress : EvmAddress) (operation : RateLimitOperation)
    (window : ℕ) : ℕ :=
  s.admissions.countP (RateAdmission.admittedIn relayerAddress operation
    (s.limiter.config.windowOf (.relayer relayerAddress operation)) window)

/-- A request for the operation on the relayer carries a key, or the relayer stands in for it. -/
def Keyed (relayerAddress : EvmAddress) (operation : RateLimitOperation) (s : RateLedger) :
    RateLimitEvent → Prop
  | .request headers address requested _ =>
      address = relayerAddress → requested = operation →
        (s.limiter.detect headers address).toOption.isSome
  | .revert _ => True

instance (e : RateLimitEvent) : Decidable (s.Keyed relayerAddress operation e) :=
  match e with
  | .request _ _ _ _ => inferInstanceAs (Decidable (_ → _ → _))
  | .revert _ => .isTrue trivial

/-- Every admission of the operation on the relayer has a reservation there. -/
def Reserved (relayerAddress : EvmAddress) (operation : RateLimitOperation) (s : RateLedger) :
    Prop :=
  ∀ a ∈ s.admissions, a.relayerAddress = relayerAddress → a.operation = operation →
    a.reservation.any (·.counts (.relayer relayerAddress operation)) = true

theorem Reserved.append {a : RateAdmission} {limiter : RateLimiter} {clock : ℕ}
    (h : s.Reserved relayerAddress operation)
    (ha : a.relayerAddress = relayerAddress → a.operation = operation →
      a.reservation.any (·.counts (.relayer relayerAddress operation)) = true) :
    Reserved relayerAddress operation ⟨limiter, s.admissions ++ [a], clock⟩ := by
  intro b hb
  obtain hb | hb := List.mem_append.mp hb
  · exact h b hb
  · rw [List.mem_singleton.mp hb]
    exact ha

/-- A check under limits that may be left out fails where they are configured. -/
theorem checkConfigured_error {limits : Option RateLimitWithInterval}
    {check : RateLimitWithInterval → Except RateLimitError Unit} {error : RateLimitError}
    (h : RateLimiter.checkConfigured limits check = .error error) :
    ∃ l, check l = .error error := by
  cases limits with
  | none => cases h
  | some l => exact ⟨l, h⟩

/-- Once a key is detected, the checks fail only because a limit is exceeded. -/
theorem exceeded_of_detected {r : RateLimiter} {headers : RateLimitHeader}
    {readings : ClockReadings} {error : RateLimitError}
    (h : r.checkLimits headers relayerAddress operation readings = .error error)
    (hkeyed : (r.detect headers relayerAddress).toOption.isSome) :
    ∃ exceeded current limit windowSeconds,
      error = .limitExceeded exceeded current limit windowSeconds := by
  unfold RateLimiter.checkLimits at h
  obtain hdetect | ⟨userKey, -, h⟩ := Except.bind_eq_error.mp h
  · rw [hdetect] at hkeyed
    cases hkeyed
  obtain hrelayer | ⟨_, -, h⟩ := Except.bind_eq_error.mp h
  · obtain ⟨l, hfailed⟩ := checkConfigured_error hrelayer
    unfold RateLimiter.checkRelayerLimits at hfailed
    dsimp only at hfailed
    split at hfailed
    · exact ⟨_, _, _, _, (Except.error.inj hfailed).symm⟩
    · cases hfailed
  obtain hglobal | ⟨_, -, h⟩ := Except.bind_eq_error.mp h
  · obtain ⟨l, hfailed⟩ := checkConfigured_error hglobal
    unfold RateLimiter.checkGlobalUserLimits at hfailed
    dsimp only at hfailed
    split at hfailed
    · exact ⟨_, _, _, _, (Except.error.inj hfailed).symm⟩
    · cases hfailed
  dsimp only at h
  split at h
  · cases h
  · exact ⟨_, _, _, _, (Except.error.inj h).symm⟩

theorem Reserved.step (h : s.Reserved relayerAddress operation)
    (hkeyed : s.Keyed relayerAddress operation e) :
    (s.step e).Reserved relayerAddress operation := by
  cases e with
  | request headers address requested readings =>
    cases hchecked : s.limiter.checkLimits headers address requested readings with
    | ok userKey =>
      rw [step_granted hchecked]
      apply h.append
      rintro rfl rfl
      simp [RateLimitReservation.counts]
    | error error =>
      by_cases hours : address = relayerAddress ∧ requested = operation
      · obtain ⟨rfl, rfl⟩ := hours
        obtain ⟨_, _, _, _, rfl⟩ := exceeded_of_detected hchecked (hkeyed rfl rfl)
        have hstep : s.step (.request headers address requested readings) =
            ⟨s.limiter, s.admissions, readings.reserveRelayer⟩ := by
          simp [RateLedger.step, RateLimiter.checkAndReserveRateLimit,
            RateLimiter.checkAndReserve, hchecked]
        rw [hstep]
        exact h
      · obtain hstep | hstep := step_ungranted hchecked
        · rw [hstep]
          exact h
        · rw [hstep]
          apply h.append
          intro haddress hrequested
          exact absurd ⟨haddress, hrequested⟩ hours
  | revert i =>
    obtain hstep | ⟨a, reservation, ha, hreservation, -, hstep⟩ :=
      step_revert (s := s) (i := i)
    · rw [hstep]
      exact h
    · rw [hstep]
      intro b hb
      obtain hb | rfl := List.mem_or_eq_of_mem_set hb
      · exact h b hb
      · exact h a (List.mem_of_getElem? ha)

theorem reserved_run {es : List RateLimitEvent} (h : s.Reserved relayerAddress operation)
    (hes : EventMachine.Along RateLedger.step (Keyed relayerAddress operation) s es) :
    (s.run es).Reserved relayerAddress operation :=
  hes.invariant (fun _ _ hkeyed h => h.step hkeyed) h

/-- With every request keyed, the operations admitted on a relayer in an aligned window stay within
the relayer's limit, whoever asked for them. -/
theorem admitted_within_relayer_limit {config : RateLimitConfig} {limits : RateLimitWithInterval}
    {es : List RateLimitEvent} (hlimits : config.relayerLimits = some limits)
    (hes : EventMachine.Along step (fun s e => s.Timely e ∧
      s.OnTime (.relayer relayerAddress operation) e ∧ s.Keyed relayerAddress operation e)
      (new config) es) (window : ℕ) :
    ((new config).run es).admitted relayerAddress operation window ≤ limits.limit operation := by
  have hlimit : config.limitOf (.relayer relayerAddress operation) =
      some (limits.limit operation) := by
    simp [RateLimitConfig.limitOf, hlimits]
  have hreserved : ((new config).run es).Reserved relayerAddress operation := by
    apply reserved_run
    · intro a ha
      cases ha
    · exact hes.mono (fun _ _ h => h.2.2)
  have haccounts := accounts_run accounts_new hlimit
    (hes.mono (fun _ _ h => ⟨h.1, h.2.1⟩))
  calc ((new config).run es).admitted relayerAddress operation window
      ≤ ((new config).run es).reservations (.relayer relayerAddress operation) window := by
        apply List.countP_mono_left
        intro a ha hin
        simp only [RateAdmission.admittedIn, Bool.and_eq_true, decide_eq_true_eq] at hin
        obtain ⟨⟨hlive, haddress, hoperation⟩, hwindow⟩ := hin
        simp only [RateAdmission.reservedIn, hlive, hreserved a ha haddress hoperation,
          Bool.true_and]
        exact hwindow
    _ ≤ limits.limit operation := haccounts.bounded window

/-- One transaction a minute on a relayer. -/
def oneInMinute : RateLimitConfig where
  userLimits := none
  relayerLimits := some ⟨"1m", 1, 1⟩
  fallbackToRelayer := false

/-- The second request is refused, whoever makes it. -/
theorem admitted_within_relayer_limit_refused :
    ((new oneInMinute).run [.request (some "a") 1 .transaction (.constant (fromSecs 5)),
      .request (some "b") 1 .transaction (.constant (fromSecs 6))]).admitted 1 .transaction 0 ≤ 1 :=
  by
  have hlimits : oneInMinute.relayerLimits = some ⟨"1m", 1, 1⟩ := rfl
  exact admitted_within_relayer_limit hlimits (by decide +kernel) 0

/-- Two requests without a key are both let through. -/
theorem admitted_within_relayer_limit_fails :
    ¬ ∀ (config : RateLimitConfig) (limits : RateLimitWithInterval) (es : List RateLimitEvent)
      (relayerAddress : EvmAddress) (operation : RateLimitOperation),
      config.relayerLimits = some limits → EventMachine.Along step Timely (new config) es →
        ∀ window, ((new config).run es).admitted relayerAddress operation window ≤
          limits.limit operation := by
  intro hwithin
  have htwo := hwithin oneInMinute ⟨"1m", 1, 1⟩
    [.request none 1 .transaction (.constant (fromSecs 5)),
      .request none 1 .transaction (.constant (fromSecs 6))] 1 .transaction (by decide)
    (by decide +kernel) 0
  revert htwo
  decide +kernel

end RateLedger

end Rrelayer
