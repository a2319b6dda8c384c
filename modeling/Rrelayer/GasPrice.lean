import Rrelayer.Transaction
import Rrelayer.SendError
import Mathlib.Order.Lattice

/-! Gas prices of a send: the oracle's price, its escalation over the previous attempt and the
cap at a multiple of the SUPER price. Prices are exact; the source's `u128` sums and products are
these as long as they stay below `2 ^ 128`. -/
namespace Rrelayer

abbrev GasOracle := TransactionSpeed → Option GasPriceResult
abbrev BlobGasOracle := TransactionSpeed → Option BlobGasPriceResult

def blobGasPerBlob : ℕ := 131072

def bumpByAtLeastOne (value : ℕ) : ℕ := value + max (value / 20) 1

/-- Prices not above the previous ones become the previous ones with a small bump. -/
def raiseAbove (sent gas : GasPriceResult) : GasPriceResult :=
  { gas with
    maxFee := if gas.maxFee ≤ sent.maxFee then bumpByAtLeastOne sent.maxFee else gas.maxFee
    maxPriorityFee :=
      if gas.maxPriorityFee ≤ sent.maxPriorityFee then bumpByAtLeastOne sent.maxPriorityFee
      else gas.maxPriorityFee }

/-- A zero cap is no cap. -/
def capAt (cap value : ℕ) : ℕ := if cap > 0 ∧ value > cap then cap else value

def capAtSuper (multiplier : ℕ) (oracle : GasOracle) (gas : GasPriceResult) : GasPriceResult :=
  match oracle .super with
  | none => gas
  | some superPrice =>
      { gas with
        maxFee := capAt (superPrice.maxFee * multiplier) gas.maxFee
        maxPriorityFee := capAt (superPrice.maxPriorityFee * multiplier) gas.maxPriorityFee }

/-- The oracle's price one speed up; at SUPER the small bump is made here already. -/
def escalate (oracle : GasOracle) (speed : TransactionSpeed) (sent gas : GasPriceResult) :
    GasPriceResult :=
  match speed.nextSpeed with
  | some next => (oracle next).getD gas
  | none => raiseAbove sent gas

def priorityWithinMax (gas : GasPriceResult) : GasPriceResult :=
  if gas.maxPriorityFee > gas.maxFee then { gas with maxPriorityFee := gas.maxFee } else gas

def computeGasPriceForTransaction (multiplier : ℕ) (oracle : GasOracle) (speed : TransactionSpeed)
    (sentLastWith : Option GasPriceResult) : Except SendTransactionGasPriceError GasPriceResult :=
  match oracle speed with
  | none => .error .gasCalculationError
  | some gas =>
      match sentLastWith with
      | none => .ok gas
      | some sent => .ok (priorityWithinMax
          (capAtSuper multiplier oracle (raiseAbove sent (escalate oracle speed sent gas))))

def blobPrice (price : ℕ) : BlobGasPriceResult := ⟨price, price * blobGasPerBlob⟩

/-- At SUPER the first bump is made only for a strictly lower price. -/
def escalateBlob (oracle : BlobGasOracle) (speed : TransactionSpeed)
    (sent blobGas : BlobGasPriceResult) : BlobGasPriceResult :=
  match speed.nextSpeed with
  | some next => (oracle next).getD blobGas
  | none =>
      if blobGas.blobGasPrice < sent.blobGasPrice then
        blobPrice (bumpByAtLeastOne sent.blobGasPrice)
      else blobGas

def raiseBlobAbove (sent blobGas : BlobGasPriceResult) : BlobGasPriceResult :=
  if blobGas.blobGasPrice ≤ sent.blobGasPrice then blobPrice (bumpByAtLeastOne sent.blobGasPrice)
  else blobGas

def capBlobAtSuper (multiplier : ℕ) (oracle : BlobGasOracle) (blobGas : BlobGasPriceResult) :
    BlobGasPriceResult :=
  match oracle .super with
  | none => blobGas
  | some superPrice =>
      let cap := superPrice.blobGasPrice * multiplier
      if cap > 0 ∧ blobGas.blobGasPrice > cap then blobPrice cap else blobGas

def computeBlobGasPriceForTransaction (multiplier : ℕ) (oracle : BlobGasOracle)
    (speed : TransactionSpeed) (sentLastWith : Option BlobGasPriceResult) :
    Except SendTransactionGasPriceError BlobGasPriceResult :=
  match oracle speed with
  | none => .error .blobGasCalculationError
  | some blobGas =>
      match sentLastWith with
      | none => .ok blobGas
      | some sent => .ok (capBlobAtSuper multiplier oracle
          (raiseBlobAbove sent (escalateBlob oracle speed sent blobGas)))

def isAtMaxGasPriceCap (multiplier : ℕ) (oracle : GasOracle) (sentGas : GasPriceResult) : Bool :=
  match oracle .super with
  | none => false
  | some superPrice =>
      let maxFeeCap := superPrice.maxFee * multiplier
      let priorityCap := superPrice.maxPriorityFee * multiplier
      (maxFeeCap > 0 && sentGas.maxFee ≥ maxFeeCap) ||
        (priorityCap > 0 && sentGas.maxPriorityFee ≥ priorityCap)

def isAtMaxBlobGasPriceCap (multiplier : ℕ) (oracle : BlobGasOracle)
    (sentBlobGas : BlobGasPriceResult) : Bool :=
  match oracle .super with
  | none => false
  | some superPrice =>
      let cap := superPrice.blobGasPrice * multiplier
      cap > 0 && sentBlobGas.blobGasPrice ≥ cap

/-- Both fee models compare the same number with the relayer's own maximum. -/
def withinGasPriceBounds (relayer : Relayer) (gas : GasPriceResult) : Bool :=
  match relayer.maxGasPrice with
  | none => true
  | some max => if relayer.eip1559Enabled then max ≥ gas.maxFee else max ≥ gas.legacyGasPrice

def sameNonceBumpDivisor : ℕ := 5
def minSameNonceGasBumpWei : ℕ := 1000000000
def maxU128 : ℕ := 2 ^ 128 - 1

/-- The saturating bump of a cancel or replace competitor. -/
def bumpForSameNonceCompetitor (value : ℕ) : ℕ :=
  min (value + max (value / sameNonceBumpDivisor) minSameNonceGasBumpWei) maxU128

end Rrelayer
