import Rrelayer.System

/-! What the balance gate of an admission compares, against what the transaction can cost. -/
namespace Rrelayer

/-- What the blobs of a transaction cost at a blob gas price. -/
def blobCost (t : Transaction) (blobGasPrice : Option BlobGasPriceResult) : ℕ :=
  match t.blobs, blobGasPrice with
  | some blobs, some price => blobs.length * blobGasPerBlob * price.blobGasPrice
  | _, _ => 0

/-- The cost without any bound on its size. -/
def exactCost (t : Transaction) (gasLimit : GasLimit) (gasPrice : GasPriceResult)
    (blobGasPrice : Option BlobGasPriceResult) : ℕ :=
  t.value + gasLimit * gasPrice.legacyGasPrice + blobCost t blobGasPrice

namespace Locked

section Gate

variable (l : Locked) (env : AdmissionEnv) (t : Transaction) (gasPrice : GasPriceResult)
  (blobGasPrice : Option BlobGasPriceResult) (gasLimit : GasLimit)

/-- The calls before the balance is read are served, and the limit is what they estimate. -/
def Estimates : Prop :=
  ∃ nonce request, pendingNonceAcrossClients env.estimationClients = .ok nonce ∧
    l.createTypedTransaction env { t with nonce := nonce } gasPrice blobGasPrice 1 = .ok request ∧
    estimateGas env.send request t.isNoop = .ok gasLimit

/-- The gate lets the transaction through at the balance. -/
def Accepts (balance : ℕ) : Prop :=
  ∃ limit, l.estimateAndValidateGas { env with getBalance := .ok balance } t gasPrice blobGasPrice =
    .ok limit

variable {l env t gasPrice blobGasPrice gasLimit} {balance : ℕ}

/-- The gate compares the balance with the wrapped total, whatever the blobs cost. -/
theorem accepts_iff (h : l.Estimates env t gasPrice blobGasPrice gasLimit) :
    l.Accepts env t gasPrice blobGasPrice balance ↔ totalRequired t gasLimit gasPrice ≤ balance := by
  obtain ⟨nonce, request, hnonce, hrequest, hestimate⟩ := h
  -- Neither the conversion nor the simulation reads the balance.
  have hrequest' : l.createTypedTransaction { env with getBalance := .ok balance }
      { t with nonce := nonce } gasPrice blobGasPrice 1 = .ok request := hrequest
  unfold Accepts estimateAndValidateGas
  dsimp only
  rw [hnonce]
  simp only [Except.mapError, bind, Except.bind, hrequest', hestimate]
  by_cases hpoor : balance < totalRequired t gasLimit gasPrice
  · simp [hpoor, throw, throwThe, MonadExceptOf.throw]
  · simp [hpoor, pure, Except.pure]
    omega

/-- Wrapping around loses nothing exactly below the two widths. -/
theorem totalRequired_exact_iff :
    exactCost t gasLimit gasPrice blobGasPrice ≤ totalRequired t gasLimit gasPrice ↔
      gasLimit * gasPrice.legacyGasPrice < 2 ^ 128 ∧
        t.value + gasLimit * gasPrice.legacyGasPrice < 2 ^ 256 ∧ blobCost t blobGasPrice = 0 := by
  unfold exactCost totalRequired
  generalize gasLimit * gasPrice.legacyGasPrice = gasCost
  generalize blobCost t blobGasPrice = blobs
  have hgas := Nat.mod_le gasCost (2 ^ 128)
  have hsum := Nat.mod_le (t.value + gasCost % 2 ^ 128) (2 ^ 256)
  constructor
  · intro hle
    have hupper := hsum.trans (Nat.add_le_add_left hgas t.value)
    have hexact : t.value + gasCost + blobs ≤ t.value + gasCost := hle.trans hupper
    have hblobs : blobs = 0 := by omega
    have hsumExact : (t.value + gasCost % 2 ^ 128) % 2 ^ 256 = t.value + gasCost :=
      hupper.antisymm ((Nat.le_add_right _ blobs).trans hle)
    have hgasExact : gasCost % 2 ^ 128 = gasCost := by
      apply hgas.antisymm
      exact Nat.le_of_add_le_add_left (hsumExact.symm.le.trans hsum)
    refine ⟨?_, ?_, hblobs⟩
    · rw [← hgasExact]
      exact Nat.mod_lt _ (by decide)
    · rw [← hsumExact]
      exact Nat.mod_lt _ (by decide)
  · rintro ⟨hgasBound, hsumBound, rfl⟩
    rw [Nat.mod_eq_of_lt hgasBound, Nat.mod_eq_of_lt hsumBound]
    simp

/-- At one balance the gate is wrong exactly between the wrapped total and the cost. It is exact at
every balance exactly when neither the product nor the sum wraps and the blobs cost nothing. -/
theorem balance_gate_iff (l : Locked) (env : AdmissionEnv) (t : Transaction)
    (gasPrice : GasPriceResult) (blobGasPrice : Option BlobGasPriceResult) (gasLimit : GasLimit)
    (h : l.Estimates env t gasPrice blobGasPrice gasLimit) :
    (∀ balance, (l.Accepts env t gasPrice blobGasPrice balance →
        exactCost t gasLimit gasPrice blobGasPrice ≤ balance) ↔
      ¬ (totalRequired t gasLimit gasPrice ≤ balance ∧
        balance < exactCost t gasLimit gasPrice blobGasPrice)) ∧
    ((∀ balance < 2 ^ 256, l.Accepts env t gasPrice blobGasPrice balance →
        exactCost t gasLimit gasPrice blobGasPrice ≤ balance) ↔
      gasLimit * gasPrice.legacyGasPrice < 2 ^ 128 ∧
        t.value + gasLimit * gasPrice.legacyGasPrice < 2 ^ 256 ∧ blobCost t blobGasPrice = 0) := by
  constructor
  · intro balance
    rw [accepts_iff h, not_and, Nat.not_lt]
  rw [← totalRequired_exact_iff]
  constructor
  · intro hexact
    -- The balance that is just enough for the gate.
    apply hexact
    · exact Nat.mod_lt _ (by decide)
    · exact (accepts_iff h).mpr le_rfl
  · intro htotal balance _ haccepts
    exact htotal.trans ((accepts_iff h).mp haccepts)

end Gate

end Locked

namespace TransactionsQueues

def gateLocked : Locked := ⟨freshQueue, some 1000, .empty, []⟩

def gateGas : GasPriceResult := ⟨1, 10, none, none⟩
def gateBlobGas : BlobGasPriceResult := ⟨3, 3 * blobGasPerBlob⟩

/-- A payment with one blob of zeros. -/
def blobPayment : Transaction :=
  { gateLocked.admittedTransaction (servedAdd 0) (payment 1 5) 0 with
    blobs := some [List.replicate blobGasPerBlob 0] }

theorem blobPayment_estimates :
    gateLocked.Estimates (servedAdd 0) blobPayment gateGas (some gateBlobGas) 25200 :=
  ⟨0, _, rfl, rfl, rfl⟩

theorem balance_gate_blob : (∀ balance,
    (gateLocked.Accepts (servedAdd 0) blobPayment gateGas (some gateBlobGas) balance →
      exactCost blobPayment 25200 gateGas (some gateBlobGas) ≤ balance) ↔
      ¬ (Locked.totalRequired blobPayment 25200 gateGas ≤ balance ∧
        balance < exactCost blobPayment 25200 gateGas (some gateBlobGas))) ∧
    ((∀ balance < 2 ^ 256,
      gateLocked.Accepts (servedAdd 0) blobPayment gateGas (some gateBlobGas) balance →
        exactCost blobPayment 25200 gateGas (some gateBlobGas) ≤ balance) ↔
      25200 * gateGas.legacyGasPrice < 2 ^ 128 ∧
        blobPayment.value + 25200 * gateGas.legacyGasPrice < 2 ^ 256 ∧
          blobCost blobPayment (some gateBlobGas) = 0) :=
  Locked.balance_gate_iff gateLocked (servedAdd 0) blobPayment gateGas (some gateBlobGas) 25200
    blobPayment_estimates

/-- A balance that covers value and gas but no blob is let through. -/
theorem balance_gate_fails : ¬ ∀ (l : Locked) env t gasPrice blobGasPrice gasLimit balance,
    l.Estimates env t gasPrice blobGasPrice gasLimit →
      l.Accepts env t gasPrice blobGasPrice balance →
        exactCost t gasLimit gasPrice blobGasPrice ≤ balance := by
  intro hgate
  have hcost := hgate gateLocked (servedAdd 0) blobPayment gateGas (some gateBlobGas) 25200 252005
    blobPayment_estimates ((Locked.accepts_iff blobPayment_estimates).mpr (by decide +kernel))
  have hblobs : exactCost blobPayment 25200 gateGas (some gateBlobGas) = 645221 := rfl
  rw [hblobs] at hcost
  exact absurd hcost (by decide)

end TransactionsQueues
end Rrelayer
