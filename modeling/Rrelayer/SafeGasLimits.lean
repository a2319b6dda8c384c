import Rrelayer.HandedAttempts

/-! The gas limits of a transaction's Safe-wrapped attempts: the overhead of the wrapping is added
to the limit of the copy, which may carry it already. -/
namespace Rrelayer

/-- The limit a send estimates for a copy that has none, before the overhead. -/
def estimateForSend (config : SendConfig) (env : SendEnv) (t : Transaction) :
    SendResult GasLimit := do
  let gasPrice ← (computeGasPriceForTransaction config.maxGasPriceMultiplier env.gasOracle t.speed
    t.sentWithGas).mapError .sendTransactionGasPriceError
  let (_, working) ← routeThroughSafe config env t
  let (temp, _) ← buildRequest config env working gasPrice 10000000
  (estimateGas env temp working.isNoop).mapError .transactionEstimateGasError

/-- The payload is relayed through the relayer's Safe. -/
def isSafeRouted (config : SendConfig) (t : Transaction) : Bool :=
  !t.isNoop && (getSafeProxyForRelayer config.safeProxies config.relayer.address t.chainId).isSome

namespace Attempt

def isWrapped (a : Attempt) : Bool :=
  isSafeRouted a.config a.copy && !convertsToNoop a.env a.copy

/-- The limit without the overhead: the one kept so far, or that of a copy sent for the first time,
or a new estimate for a copy without a limit. -/
def baseFrom (kept : Option GasLimit) (a : Attempt) : Option GasLimit :=
  match a.copy.gasLimit with
  | none => (estimateForSend a.config a.env a.copy).toOption
  | some gasLimit => some (kept.getD gasLimit)

/-- The base limit of a transaction's latest wrapped attempt. -/
def baseLimit : List Attempt → TransactionId → Option GasLimit
  | [], _ => none
  | a :: older, x =>
      if a.copy.id = x ∧ a.isWrapped = true then a.baseFrom (baseLimit older x)
      else baseLimit older x

/-- A wrapped attempt is signed with the base limit and the overhead once. -/
def HasOverheadOnce (older : List Attempt) (a : Attempt) : Prop :=
  a.isWrapped = true → ∃ base ∈ a.baseFrom (baseLimit older a.copy.id),
    a.signed.transaction.gasLimit = Transaction.envelopeGasLimit (base + safeOverhead)

instance (older : List Attempt) (a : Attempt) : Decidable (HasOverheadOnce older a) := by
  unfold HasOverheadOnce
  infer_instance

end Attempt

section Prepare

variable {config : SendConfig} {env : SendEnv} {t t' : Transaction} {signed : SignedTransaction}
  {sent : TransactionSentWithRelayer}

theorem routeThroughSafe_routed {viaSafe : Bool} {working : Transaction}
    (h : routeThroughSafe config env t = .ok (viaSafe, working)) :
    viaSafe = isSafeRouted config t := by
  unfold routeThroughSafe at h
  unfold isSafeRouted
  by_cases hnoop : t.isNoop = true
  · rw [hnoop] at h
    cases h
    simp [hnoop]
  · simp only [hnoop] at h
    rcases hsafe : getSafeProxyForRelayer config.safeProxies config.relayer.address t.chainId with
      _ | address
    · rw [hsafe] at h
      cases h
      simp
    · rw [hsafe] at h
      obtain ⟨_, _, h⟩ := except_bind_ok h
      obtain ⟨_, _, h⟩ := except_bind_ok h
      cases h
      simp [hnoop]

/-- Where the limit of a send comes from. -/
theorem priceAndLimit_limit {gas : GasPriceResult} {working : Transaction} {gasLimit : GasLimit}
    (h : priceAndLimit config env t = .ok (gas, working, gasLimit)) :
    ∃ base, (t.gasLimit = some base ∨
      t.gasLimit = none ∧ estimateForSend config env t = .ok base) ∧
        gasLimit = if isSafeRouted config t then base + safeOverhead else base := by
  unfold priceAndLimit at h
  obtain ⟨price, hprice, h⟩ := except_bind_ok h
  split at h
  · cases h
  · obtain ⟨⟨viaSafe, routed⟩, hroute, h⟩ := except_bind_ok h
    obtain ⟨⟨temp, blobGas⟩, htemp, h⟩ := except_bind_ok h
    obtain ⟨base, hbase, h⟩ := except_bind_ok h
    cases h
    refine ⟨base, ?_, ?_⟩
    · rcases hlimit : t.gasLimit with _ | limit
      · rw [hlimit] at hbase
        have hestimate : estimateForSend config env t = .ok base := by
          unfold estimateForSend
          rw [hprice]
          dsimp only [bind, Except.bind]
          rw [hroute]
          dsimp only
          rw [htemp]
          exact hbase
        exact .inr ⟨rfl, hestimate⟩
      · rw [hlimit] at hbase
        cases hbase
        exact .inl rfl
    · rw [routeThroughSafe_routed hroute]

/-- An attempt that is not made a no-op is signed with the limit of its send. -/
theorem prepareSend_limit (h : prepareSend config env t = (t', .ok (signed, sent)))
    (hkept : convertsToNoop env t = false) :
    ∃ base, (t.gasLimit = some base ∨
      t.gasLimit = none ∧ estimateForSend config env t = .ok base) ∧
        signed.transaction.gasLimit = Transaction.envelopeGasLimit
          (if isSafeRouted config t then base + safeOverhead else base) := by
  obtain ⟨working, gasLimit, request, blobGas, hpriced, hbuilt, hsigned, -⟩ := prepareSend_exact h
  obtain ⟨base, hbase, hlimit⟩ := priceAndLimit_limit hpriced
  obtain ⟨henvelope, -⟩ := buildRequest_envelope hbuilt
  rw [hkept] at hsigned
  have hsame := congrArg TypedTransaction.gasLimit (hsigned.trans henvelope)
  refine ⟨base, hbase, ?_⟩
  rw [hsame, ← hlimit]
  rfl

end Prepare

namespace TransactionsQueues

variable {s : TransactionsQueues} {e : Event} {a : Attempt}

/-- A wrapped send starts from a copy without a limit, or with the limit of the attempts before it
without their overhead. -/
def KeepsBaseLimit (j : AttemptJournal) (e : Event) : Prop :=
  ∀ a ∈ j.state.hands e, a.isWrapped = true → ∀ gasLimit ∈ a.copy.gasLimit,
    ∀ base ∈ Attempt.baseLimit j.entries a.copy.id,
      Transaction.envelopeGasLimit gasLimit = Transaction.envelopeGasLimit base

theorem envelope_overhead_iff (gasLimit base : GasLimit) :
    Transaction.envelopeGasLimit (gasLimit + safeOverhead) =
        Transaction.envelopeGasLimit (base + safeOverhead) ↔
      Transaction.envelopeGasLimit gasLimit = Transaction.envelopeGasLimit base := by
  unfold Transaction.envelopeGasLimit safeOverhead
  omega

/-- One attempt carries the overhead once exactly when its copy does not carry it yet. -/
theorem overhead_once_iff {older : List Attempt} (h : s.hands e = some a) :
    a.HasOverheadOnce older ↔ (a.isWrapped = true → ∀ gasLimit ∈ a.copy.gasLimit,
      ∀ base ∈ Attempt.baseLimit older a.copy.id,
        Transaction.envelopeGasLimit gasLimit = Transaction.envelopeGasLimit base) := by
  obtain ⟨-, ⟨t', sent, hprepare⟩, -⟩ := hands_some h
  unfold Attempt.HasOverheadOnce
  by_cases hwrapped : a.isWrapped = true
  · simp only [hwrapped, forall_const]
    have hboth := hwrapped
    simp only [Attempt.isWrapped, Bool.and_eq_true, Bool.not_eq_true'] at hboth
    obtain ⟨hrouted, hkept⟩ := hboth
    obtain ⟨base, hbase, hsigned⟩ := prepareSend_limit hprepare hkept
    rw [if_pos hrouted] at hsigned
    unfold Attempt.baseFrom
    rw [hsigned]
    rcases hbase with hlimit | ⟨hnone, hestimate⟩
    · rw [hlimit]
      rcases Attempt.baseLimit older a.copy.id with _ | kept
      · simp
      · simp only [Option.getD_some, Option.mem_some_iff, exists_eq_left', forall_eq']
        exact envelope_overhead_iff base kept
    · rw [hnone, hestimate]
      simp [Except.toOption]
  · simp [hwrapped]

/-- In a run, every wrapped attempt of a transaction carries the overhead once over its base limit
exactly when every wrapped send starts from a copy that does not carry it yet. -/
theorem safe_overhead_once_iff (s : TransactionsQueues) (es : List Event) :
    EventMachine.Each (fun older a => a.HasOverheadOnce older) (s.attempts es) ↔
      EventMachine.Along noteStep KeepsBaseLimit ⟨s, []⟩ es := by
  unfold attempts
  rw [EventMachine.each_run_iff]
  simp only [EventMachine.Each, and_true]
  constructor
  · intro h
    apply h.mono
    intro j e hall a ha
    exact (overhead_once_iff ha).mp (hall a ha)
  · intro h
    apply h.mono
    intro j e hkeeps a ha
    exact (overhead_once_iff ha).mpr (hkeeps a ha)

/-- A relayer that relays through a Safe. -/
def safeRelayer : TransactionsQueues :=
  { freshRelayer with queue := some { freshQueue with safeProxies := [⟨99, [7], 1⟩] } }

theorem safe_overhead_once_fails : ¬ ∀ (s : TransactionsQueues) (es : List Event),
    EventMachine.Each (fun older a => a.HasOverheadOnce older) (s.attempts es) := by
  intro honce
  have hbumped := honce safeRelayer paymentBumped
  revert hbumped
  decide +kernel

example : (safeRelayer.attempts paymentBumped).map (·.signed.transaction.gasLimit) =
    [115200, 70200] := by decide +kernel

end TransactionsQueues
end Rrelayer
