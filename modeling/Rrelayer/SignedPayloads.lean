import Rrelayer.SendTransaction

/-! What a send signs: the payload its routing chose, or a no-op, at the price it records. -/
namespace Rrelayer

/-- The envelope carries the working transaction, or the no-op an expired payload became. -/
def SignedTransaction.Carries (signed : SignedTransaction) (working : Transaction) : Prop :=
  signed.transaction.toAddress = working.toAddress ∧ signed.transaction.input = working.data

section Prepare

variable {config : SendConfig} {env : SendEnv}

theorem buildRequest_payload {working : Transaction} {gasPrice : GasPriceResult}
    {gasLimit : GasLimit} {r : TypedTransaction × Option BlobGasPriceResult}
    (h : buildRequest config env working gasPrice gasLimit = .ok r) :
    r.1.toAddress = working.toAddress ∧ r.1.input = working.data := by
  cases buildRequest_builds h <;> exact ⟨rfl, rfl⟩

/-- An expiry check keeps what is prepared or makes it a no-op of the relayer to itself. -/
theorem expireToNoop_cases (config : SendConfig) (previouslySent : Bool) (gas : GasPriceResult)
    (now : DateTime) (p : Prepared) :
    expireToNoop config previouslySent gas now p = p ∨
      ∃ noop : Transaction, noop.toAddress = config.relayer.address ∧ noop.data = [] ∧
        expireToNoop config previouslySent gas now p =
          ⟨noop, noopRequest config noop gas, none⟩ := by
  unfold expireToNoop
  dsimp only
  split
  · exact .inr ⟨transactionToNoop config.relayer.address p.transaction, rfl, rfl, rfl⟩
  · exact .inl rfl

/-- How a payload was prepared: priced and routed, built, and kept or made a no-op. -/
structure PreparedAs (config : SendConfig) (env : SendEnv) (t : Transaction)
    (signed : SignedTransaction) (sent : TransactionSentWithRelayer) (working : Transaction)
    (gasLimit : GasLimit) (request : TypedTransaction) (blobGas : Option BlobGasPriceResult) :
    Prop where
  priced : priceAndLimit config env t = .ok (sent.sentWithGas, working, gasLimit)
  built : buildRequest config env { working with gasLimit := some gasLimit } sent.sentWithGas
    gasLimit = .ok (request, blobGas)
  signed : (signed.transaction = request ∧ sent.sentWithBlobGas = blobGas) ∨
    ∃ noop : Transaction, noop.toAddress = config.relayer.address ∧ noop.data = [] ∧
      signed.transaction = noopRequest config noop sent.sentWithGas ∧ sent.sentWithBlobGas = none

theorem prepareSend_ok {t t' : Transaction} {signed : SignedTransaction}
    {sent : TransactionSentWithRelayer}
    (h : prepareSend config env t = (t', .ok (signed, sent))) :
    ∃ working gasLimit request blobGas,
      PreparedAs config env t signed sent working gasLimit request blobGas := by
  unfold prepareSend at h
  split at h
  · cases h
  · rename_i gas working gasLimit hprice
    dsimp only at h
    split at h
    · cases h
    · rename_i request blobGas hbuild
      have hfirst := expireToNoop_cases config t.sentWithGas.isSome gas env.nowBeforeSigning
        ⟨{ t with gasLimit := some gasLimit }, request, blobGas⟩
      generalize expireToNoop config t.sentWithGas.isSome gas env.nowBeforeSigning
        ⟨{ t with gasLimit := some gasLimit }, request, blobGas⟩ = first at h hfirst
      have hlast := expireToNoop_cases config t.sentWithGas.isSome gas env.nowAfterSigning first
      generalize expireToNoop config t.sentWithGas.isSome gas env.nowAfterSigning first = last
        at h hlast
      split at h
      · cases h
      · split at h
        · cases h
        · cases h
          refine ⟨working, gasLimit, request, blobGas, hprice, hbuild, ?_⟩
          rcases hlast with rfl | ⟨noop, haddress, hdata, rfl⟩
          · rcases hfirst with rfl | ⟨noop, haddress, hdata, rfl⟩
            · exact .inl ⟨rfl, rfl⟩
            · exact .inr ⟨noop, haddress, hdata, rfl, rfl⟩
          · exact .inr ⟨noop, haddress, hdata, rfl, rfl⟩

theorem priceAndLimit_route {t working : Transaction} {gas : GasPriceResult} {gasLimit : GasLimit}
    (h : priceAndLimit config env t = .ok (gas, working, gasLimit)) :
    ∃ viaSafe, routeThroughSafe config env t = .ok (viaSafe, working) := by
  unfold priceAndLimit at h
  obtain ⟨_, _, h⟩ := except_bind_ok h
  split at h
  · cases h
  · obtain ⟨⟨viaSafe, routed⟩, hroute, h⟩ := except_bind_ok h
    obtain ⟨_, _, h⟩ := except_bind_ok h
    obtain ⟨_, _, h⟩ := except_bind_ok h
    cases h
    exact ⟨viaSafe, hroute⟩

/-- What a send signs: the payload routed through the Safe or not, or a no-op. -/
theorem PreparedAs.payload {t working : Transaction} {signed : SignedTransaction}
    {sent : TransactionSentWithRelayer} {gasLimit : GasLimit} {request : TypedTransaction}
    {blobGas : Option BlobGasPriceResult}
    (h : PreparedAs config env t signed sent working gasLimit request blobGas) :
    signed.Carries working ∨
      signed.transaction.toAddress = config.relayer.address ∧ signed.transaction.input = [] := by
  rcases h.signed with ⟨hrequest, -⟩ | ⟨noop, haddress, hdata, hrequest, -⟩
  · have hpayload := buildRequest_payload h.built
    unfold SignedTransaction.Carries
    rw [hrequest]
    exact .inl hpayload
  · rw [hrequest, ← haddress, ← hdata]
    exact .inr ⟨rfl, rfl⟩

/-- The envelope offers the recorded price. -/
def SignedTransaction.Pays (signed : SignedTransaction) (gas : GasPriceResult)
    (blobGas : Option BlobGasPriceResult) : Prop :=
  match signed.transaction.fees with
  | .legacy gasPrice => gasPrice = gas.legacyGasPrice ∧ blobGas = none
  | .eip1559 priority maxFee =>
      priority = gas.maxPriorityFee ∧ maxFee = gas.maxFee ∧ blobGas = none
  | .eip4844 priority maxFee blobFee _ =>
      priority = gas.maxPriorityFee ∧ maxFee = gas.maxFee ∧
        ∃ price, blobGas = some price ∧ blobFee = price.blobGasPrice

/-- Whatever is signed offers the price that is recorded with it. -/
theorem PreparedAs.pays {t working : Transaction} {signed : SignedTransaction}
    {sent : TransactionSentWithRelayer} {gasLimit : GasLimit} {request : TypedTransaction}
    {blobGas : Option BlobGasPriceResult}
    (h : PreparedAs config env t signed sent working gasLimit request blobGas) :
    signed.Pays sent.sentWithGas sent.sentWithBlobGas := by
  unfold SignedTransaction.Pays
  rcases h.signed with ⟨hrequest, hblob⟩ | ⟨noop, -, -, hrequest, hblob⟩
  · rw [hrequest, hblob]
    cases buildRequest_builds h.built with
    | eip4844 price hashes => exact ⟨rfl, rfl, price, rfl, rfl⟩
    | legacy => exact ⟨rfl, rfl⟩
    | eip1559 => exact ⟨rfl, rfl, rfl⟩
  · rw [hrequest, hblob]
    unfold noopRequest
    by_cases hlegacy : config.isLegacyTransactions = true
    · simp [hlegacy, Transaction.toEnvelope]
    · simp [hlegacy, Transaction.toEnvelope]

end Prepare

end Rrelayer
