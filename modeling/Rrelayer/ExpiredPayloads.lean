import Rrelayer.AttemptFees

/-! What a send signs once its transaction has expired: a no-op, unless the transaction is flagged
as one already or is a blob transaction that was sent before. -/
namespace Rrelayer

/-- A transfer of nothing from the account to itself. -/
def SignedTransaction.IsNoop (address : EvmAddress) (signed : SignedTransaction) : Prop :=
  signed.transaction.toAddress = address ∧ signed.transaction.value = 0 ∧
    signed.transaction.input = []

instance (address : EvmAddress) (signed : SignedTransaction) :
    Decidable (signed.IsNoop address) := by
  unfold SignedTransaction.IsNoop
  infer_instance

namespace Transaction

/-- The payload is a transfer of nothing to the account. -/
def CarriesNothing (address : EvmAddress) (t : Transaction) : Prop :=
  t.toAddress = address ∧ t.value = 0 ∧ t.data = []

instance (address : EvmAddress) (t : Transaction) : Decidable (t.CarriesNothing address) := by
  unfold CarriesNothing
  infer_instance

/-- Only another blob transaction replaces one that was sent. -/
def isSentBlob (t : Transaction) : Bool := t.sentWithGas.isSome && t.isBlobTransaction

/-- An expiry check makes a no-op of the transaction. -/
def isConvertible (t : Transaction) : Bool := !t.isNoop && !t.isSentBlob

end Transaction

/-- One of the two expiry checks of a send makes a no-op of the transaction. -/
def convertsToNoop (env : SendEnv) (t : Transaction) : Bool :=
  t.isConvertible && (hasExpired t env.nowBeforeSigning || hasExpired t env.nowAfterSigning)

section Prepare

variable {config : SendConfig} {env : SendEnv} {t t' : Transaction} {signed : SignedTransaction}
  {sent : TransactionSentWithRelayer}

/-- The two checks together: the second one finds nothing to convert after the first. -/
theorem expireToNoop_both (gas : GasPriceResult) (gasLimit : Option GasLimit)
    (request : TypedTransaction) (blobGas : Option BlobGasPriceResult) :
    expireToNoop config t.sentWithGas.isSome gas env.nowAfterSigning
        (expireToNoop config t.sentWithGas.isSome gas env.nowBeforeSigning
          ⟨{ t with gasLimit := gasLimit }, request, blobGas⟩) =
      if convertsToNoop env t then
        ⟨transactionToNoop config.relayer.address t,
          noopRequest config (transactionToNoop config.relayer.address t) gas, none⟩
      else ⟨{ t with gasLimit := gasLimit }, request, blobGas⟩ := by
  have hconverts : (!t.isNoop && (!t.sentWithGas.isSome || !t.isBlobTransaction)) =
      t.isConvertible := by
    simp [Transaction.isConvertible, Transaction.isSentBlob]
  have hcheck (now : DateTime) : expireToNoop config t.sentWithGas.isSome gas now
      ⟨{ t with gasLimit := gasLimit }, request, blobGas⟩ =
        if t.isConvertible && hasExpired t now then
          ⟨transactionToNoop config.relayer.address t,
            noopRequest config (transactionToNoop config.relayer.address t) gas, none⟩
        else ⟨{ t with gasLimit := gasLimit }, request, blobGas⟩ := by
    rw [← hconverts]
    rfl
  have hagain (now : DateTime) (p : Prepared) (hp : p.transaction.isNoop = true) :
      expireToNoop config t.sentWithGas.isSome gas now p = p := by
    unfold expireToNoop
    simp [hp]
  rw [hcheck]
  unfold convertsToNoop
  by_cases hconvertible : t.isConvertible = true
  · by_cases hbefore : hasExpired t env.nowBeforeSigning = true
    · rw [if_pos (by simp [hconvertible, hbefore]), if_pos (by simp [hconvertible, hbefore])]
      exact hagain _ _ rfl
    · rw [if_neg (by simp [hbefore]), hcheck]
      simp [hconvertible, hbefore]
  · rw [if_neg (by simp [hconvertible]), hcheck]
    simp [hconvertible]

/-- How a payload was prepared, with the condition for a no-op in its place. -/
theorem prepareSend_exact (h : prepareSend config env t = (t', .ok (signed, sent))) :
    ∃ working gasLimit request blobGas,
      priceAndLimit config env t = .ok (sent.sentWithGas, working, gasLimit) ∧
      buildRequest config env { working with gasLimit := some gasLimit } sent.sentWithGas
        gasLimit = .ok (request, blobGas) ∧
      signed.transaction = (if convertsToNoop env t then
        noopRequest config (transactionToNoop config.relayer.address t) sent.sentWithGas
        else request) ∧
      t' = (if convertsToNoop env t then transactionToNoop config.relayer.address t
        else { t with gasLimit := some gasLimit }) ∧
      sent.sentWithBlobGas = if convertsToNoop env t then none else blobGas := by
  unfold prepareSend at h
  split at h
  · cases h
  · rename_i gas working gasLimit hprice
    dsimp only at h
    split at h
    · cases h
    · rename_i request blobGas hbuild
      rw [expireToNoop_both] at h
      split at h
      · cases h
      · split at h
        · cases h
        · cases h
          refine ⟨working, gasLimit, request, blobGas, hprice, hbuild, ?_, ?_, ?_⟩
          · split
            · rfl
            · rfl
          · split
            · rfl
            · rfl
          · split
            · rfl
            · rfl

/-- Routing touches nothing but the payload. -/
theorem routeThroughSafe_keeps {r : Bool × Transaction}
    (h : routeThroughSafe config env t = .ok r) :
    r.2 = { t with toAddress := r.2.toAddress, data := r.2.data, value := r.2.value } := by
  unfold routeThroughSafe at h
  dsimp only at h
  split at h
  · cases h
    rfl
  · obtain ⟨_, _, h⟩ := except_bind_ok h
    obtain ⟨_, _, h⟩ := except_bind_ok h
    cases h
    rfl

/-- The type of an envelope is decided by the blobs, the relayer and the expiry checks. -/
theorem prepareSend_type (h : prepareSend config env t = (t', .ok (signed, sent))) :
    signed.transaction.fees.isBlob = (t.isBlobTransaction && !convertsToNoop env t) ∧
      signed.transaction.fees.isLegacy =
        (config.isLegacyTransactions && (!t.isBlobTransaction || convertsToNoop env t)) := by
  obtain ⟨working, gasLimit, request, blobGas, hpriced, hbuilt, hsigned, -⟩ := prepareSend_exact h
  by_cases hconverts : convertsToNoop env t = true
  · rw [if_pos hconverts] at hsigned
    rw [hsigned, hconverts]
    unfold noopRequest
    by_cases hlegacy : config.isLegacyTransactions = true
    · simp [hlegacy, Transaction.toEnvelope, TxFees.isBlob, TxFees.isLegacy]
    · simp [hlegacy, Transaction.toEnvelope, TxFees.isBlob, TxFees.isLegacy]
  · obtain ⟨viaSafe, hroute⟩ := priceAndLimit_route hpriced
    obtain ⟨-, hblob, hlegacy⟩ := buildRequest_envelope hbuilt
    have hsame : ({ working with gasLimit := some gasLimit } : Transaction).isBlobTransaction =
        t.isBlobTransaction := congrArg Option.isSome (routeThroughSafe_blobs hroute)
    rw [hsame] at hblob hlegacy
    rw [if_neg hconverts] at hsigned
    have hconverts : convertsToNoop env t = false := by simpa using hconverts
    rw [hsigned, hconverts, hblob, hlegacy]
    simp

/-- A transaction flagged as a no-op is not routed. -/
theorem routeThroughSafe_noop (hnoop : t.isNoop = true) :
    routeThroughSafe config env t = .ok (false, t) := by
  unfold routeThroughSafe
  rw [hnoop]
  rfl

/-- A payload that no expiry check converts is signed as it was routed. -/
theorem unconverted_noop_iff (h : prepareSend config env t = (t', .ok (signed, sent)))
    (hkept : t.isConvertible = false) :
    signed.IsNoop config.relayer.address ↔
      ∀ r, routeThroughSafe config env t = .ok r → r.2.CarriesNothing config.relayer.address := by
  obtain ⟨working, gasLimit, request, blobGas, hpriced, hbuilt, hsigned, -⟩ := prepareSend_exact h
  have hunconverted : convertsToNoop env t = false := by simp [convertsToNoop, hkept]
  rw [hunconverted] at hsigned
  obtain ⟨viaSafe, hroute⟩ := priceAndLimit_route hpriced
  obtain ⟨henvelope, -⟩ := buildRequest_envelope hbuilt
  have hpayload : signed.transaction =
      ({ working with gasLimit := some gasLimit } : Transaction).toEnvelope gasLimit request.fees :=
    hsigned.trans henvelope
  rw [hroute]
  unfold SignedTransaction.IsNoop Transaction.CarriesNothing
  rw [hpayload]
  constructor
  · rintro hnothing r hr
    cases hr
    exact hnothing
  · intro hnothing
    exact hnothing _ rfl

/-- An expired transaction is signed as a no-op exactly when one that is flagged as a no-op carries
nothing, and so does, once routed, a blob transaction that has a price already. -/
theorem expired_payload_noop_iff (h : prepareSend config env t = (t', .ok (signed, sent)))
    (hexpired : hasExpired t env.nowAfterSigning = true) :
    signed.IsNoop config.relayer.address ∧ signed.nonce = t.nonce ↔
      (t.isNoop = true → t.CarriesNothing config.relayer.address) ∧
        (t.isNoop = false → t.isSentBlob = true → ∀ r, routeThroughSafe config env t = .ok r →
          r.2.CarriesNothing config.relayer.address) := by
  have hspec := prepareSend_spec config env t
  rw [h] at hspec
  have hnonce : signed.nonce = t.nonce := (hspec.2 signed sent rfl).nonce
  rw [and_iff_left hnonce]
  by_cases hkept : t.isConvertible = true
  · obtain ⟨_, _, _, _, -, -, hsigned, -⟩ := prepareSend_exact h
    have hconverts : convertsToNoop env t = true := by simp [convertsToNoop, hkept, hexpired]
    rw [if_pos hconverts] at hsigned
    have hnothing : signed.IsNoop config.relayer.address := by
      unfold SignedTransaction.IsNoop
      rw [hsigned]
      exact ⟨rfl, rfl, rfl⟩
    simp only [Transaction.isConvertible, Bool.and_eq_true, Bool.not_eq_true'] at hkept
    simp [hnothing, hkept]
  · have hkept : t.isConvertible = false := by simpa using hkept
    rw [unconverted_noop_iff h hkept]
    by_cases hnoop : t.isNoop = true
    · rw [routeThroughSafe_noop hnoop]
      simp [hnoop]
    · have hblob : t.isSentBlob = true := by
        simpa [Transaction.isConvertible, hnoop] using hkept
      simp [hnoop, hblob]

/-- A payment that expired before its first send. -/
theorem expired_payload_noop_iff_payment :
    ∃ signed : SignedTransaction, signed.IsNoop 7 ∧ signed.nonce = 3 := by
  let t := Locked.admittedTransaction ⟨freshQueue, none, .empty, []⟩ (servedAdd 0) (payment 1 5) 3
  let env : SendEnv := { servedSend (.ok ()) with nowAfterSigning := 2000000 }
  have hserved : (prepareSend freshQueue.toSendConfig env t).2.toOption.isSome = true := by decide
  rcases h : prepareSend freshQueue.toSendConfig env t with ⟨t', e | ⟨signed, sent⟩⟩
  · rw [h] at hserved
    cases hserved
  · refine ⟨signed, (expired_payload_noop_iff h (by decide)).mpr ⟨?_, ?_⟩⟩
    · intro hflagged
      cases hflagged
    · intro _ hblob
      cases hblob

end Prepare

namespace TransactionsQueues

/-- A pass over the mempool whose clock has left every expiry behind. -/
def expiredBump : Event :=
  .processInmempool { servedInmempool [] (.ok ()) (servedClient [] 0) [] with
    send := { servedSend (.ok ()) with nowBeforeSigning := 2000000, nowAfterSigning := 2000000 } }

/-- A relayer pays itself; a restart reads the payment back before it expires unmined. -/
def selfPaymentReloaded : List Event :=
  [.add (servedAdd 0) ⟨0, 7, 5, [], .fast, none, none⟩,
    .processPending (servedPending (.ok ()) (servedClient [] 0) []),
    .restart (servedStartup (servedClient [] 0))]

theorem expired_payload_noop_fails : ¬ ∀ es e, ∀ l ∈ (freshRelayer.run es).lock,
    ∀ p ∈ l.sendsFrom e, ∀ r ∈ (prepareSend l.queue.toSendConfig p.1 p.2).2.toOption,
      hasExpired p.2 p.1.nowAfterSigning = true → p.2.isSentBlob = false →
        r.1.IsNoop l.queue.relayer.address ∧ r.1.nonce = p.2.nonce := by
  intro hnoop
  have hbumped := hnoop selfPaymentReloaded expiredBump
  revert hbumped
  decide +kernel

end TransactionsQueues
end Rrelayer
