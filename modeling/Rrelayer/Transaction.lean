import Mathlib.Data.Nat.Notation
import Mathlib.Algebra.Order.Ring.Int

/-! The relayer's transaction record and the payloads signed from it. Quantities the source
keeps in `u64`, `u128` and `U256` are natural numbers; where it narrows one, the narrowing is
written out. Times are milliseconds. -/
namespace Rrelayer

abbrev TransactionId := ℕ
abbrev RelayerId := ℕ
abbrev ChainId := ℕ
abbrev EvmAddress := ℕ
abbrev TransactionValue := ℕ
abbrev TransactionData := List ℕ
abbrev TransactionBlob := List ℕ
abbrev TransactionNonce := ℕ
abbrev GasLimit := ℕ
abbrev DateTime := ℤ

/-- An address as `0x` and forty hexadecimal digits. -/
def EvmAddress.hex (address : EvmAddress) : String :=
  let digits := Nat.toDigits 16 address
  "0x" ++ String.ofList (List.replicate (40 - digits.length) '0' ++ digits)

inductive TransactionStatus where
  | pending | inmempool | mined | confirmed | failed | expired | cancelled | dropped | replaced
  deriving DecidableEq, Repr

inductive TransactionSpeed where
  | slow | medium | fast | super
  deriving DecidableEq, Repr

def TransactionSpeed.nextSpeed : TransactionSpeed → Option TransactionSpeed
  | .slow => some .medium
  | .medium => some .fast
  | .fast => some .super
  | .super => none

structure GasPriceResult where
  maxPriorityFee : ℕ
  maxFee : ℕ
  minWaitTimeEstimate : Option ℤ
  maxWaitTimeEstimate : Option ℤ
  deriving DecidableEq, Repr

def GasPriceResult.legacyGasPrice (g : GasPriceResult) : ℕ := g.maxFee

structure BlobGasPriceResult where
  blobGasPrice : ℕ
  totalFeeForBlob : ℕ
  deriving DecidableEq, Repr

/-- A JSON number holds at most 64 bits; a wider fee is written as `null`. -/
def fitsJson (n : ℕ) : Bool := n < 2 ^ 64

/-- What a price reads back as from the `sent_with_gas` column. -/
def GasPriceResult.stored (g : GasPriceResult) : Option GasPriceResult :=
  if fitsJson g.maxFee && fitsJson g.maxPriorityFee then some g else none

def BlobGasPriceResult.stored (g : BlobGasPriceResult) : Option BlobGasPriceResult :=
  if fitsJson g.blobGasPrice && fitsJson g.totalFeeForBlob then some g else none

/-- The fee fields of the three envelopes the relayer signs. -/
inductive TxFees where
  | legacy (gasPrice : ℕ)
  | eip1559 (maxPriorityFeePerGas maxFeePerGas : ℕ)
  | eip4844 (maxPriorityFeePerGas maxFeePerGas maxFeePerBlobGas : ℕ)
      (blobVersionedHashes : List ℕ)
  deriving DecidableEq, Repr

structure TypedTransaction where
  chainId : ChainId
  nonce : TransactionNonce
  gasLimit : ℕ
  toAddress : EvmAddress
  value : TransactionValue
  input : TransactionData
  fees : TxFees
  deriving DecidableEq, Repr

/-- The signed envelope. Its hash is only ever compared with other hashes, so the envelope
stands for its own hash. -/
structure SignedTransaction where
  transaction : TypedTransaction
  signature : ℕ
  deriving DecidableEq, Repr

abbrev TransactionHash := SignedTransaction

/-- The account nonce the hash commits to. -/
def SignedTransaction.nonce (s : SignedTransaction) : ℕ := s.transaction.nonce

structure Transaction where
  id : TransactionId
  relayerId : RelayerId
  toAddress : EvmAddress
  fromAddress : EvmAddress
  value : TransactionValue
  data : TransactionData
  nonce : TransactionNonce
  chainId : ChainId
  gasLimit : Option GasLimit
  status : TransactionStatus
  blobs : Option (List TransactionBlob)
  knownTransactionHash : Option TransactionHash
  queuedAt : DateTime
  expiresAt : DateTime
  sentAt : Option DateTime
  confirmedAt : Option DateTime
  sentWithGas : Option GasPriceResult
  sentWithBlobGas : Option BlobGasPriceResult
  minedAt : Option DateTime
  minedAtBlockNumber : Option ℕ
  speed : TransactionSpeed
  sentWithMaxPriorityFeePerGas : Option ℕ
  sentWithMaxFeePerGas : Option ℕ
  isNoop : Bool
  externalId : Option String
  cancelledByTransactionId : Option TransactionId
  failedReason : Option String
  deriving DecidableEq, Repr

namespace Transaction

def isBlobTransaction (t : Transaction) : Bool := t.blobs.isSome

/-- `TransactionConversionError`, by the text it displays. -/
def noGasPrice : String := "No gas price found in transaction"
def noBlobGasPrice : String := "No blob gas price found in transaction"
def noBlobs : String := "No blobs found in transaction"
def noGasLimit : String := "Gas limit not set"
def blobSidecarBuild (e : String) : String := "Failed to build blob sidecar: " ++ e

/-- Gas limits are cut to 64 bits in the envelope. -/
def envelopeGasLimit (g : GasLimit) : ℕ := g % 2 ^ 64

/-- The envelope with the transaction's own payload and the given limit and fees. -/
def toEnvelope (t : Transaction) (gasLimit : GasLimit) (fees : TxFees) : TypedTransaction where
  chainId := t.chainId
  nonce := t.nonce
  gasLimit := envelopeGasLimit gasLimit
  toAddress := t.toAddress
  value := t.value
  input := t.data
  fees := fees

@[simp] theorem toEnvelope_nonce (t : Transaction) (g : GasLimit) (f : TxFees) :
    (t.toEnvelope g f).nonce = t.nonce := rfl

def toEip1559TypedTransactionWithGasLimit (t : Transaction)
    (overrideGasPrice : Option GasPriceResult) (overrideGasLimit : Option GasLimit) :
    Except String TypedTransaction := do
  let gasPrice ← (overrideGasPrice.or t.sentWithGas).elim (.error noGasPrice) .ok
  let gasLimit ← (overrideGasLimit.or t.gasLimit).elim (.error noGasLimit) .ok
  return t.toEnvelope gasLimit (.eip1559 gasPrice.maxPriorityFee gasPrice.maxFee)

def toLegacyTypedTransactionWithGasLimit (t : Transaction)
    (overrideGasPrice : Option GasPriceResult) (overrideGasLimit : Option GasLimit) :
    Except String TypedTransaction := do
  let gasPrice ← (overrideGasPrice.or t.sentWithGas).elim (.error noGasPrice) .ok
  let gasLimit ← (overrideGasLimit.or t.gasLimit).elim (.error noGasLimit) .ok
  return t.toEnvelope gasLimit (.legacy gasPrice.legacyGasPrice)

/-- `buildSidecar` is the KZG sidecar builder, which returns the versioned hashes. -/
def toBlobTypedTransactionWithGasLimit (buildSidecar : List TransactionBlob → Except String (List ℕ))
    (t : Transaction) (overrideGasPrice : Option GasPriceResult)
    (overrideBlobGasPrice : Option BlobGasPriceResult) (overrideGasLimit : Option GasLimit) :
    Except String TypedTransaction := do
  let gasPrice ← (overrideGasPrice.or t.sentWithGas).elim (.error noGasPrice) .ok
  let blobGasPrice ← (overrideBlobGasPrice.or t.sentWithBlobGas).elim (.error noBlobGasPrice) .ok
  let blobs ← t.blobs.elim (.error noBlobs) .ok
  let hashes ← (buildSidecar blobs).mapError blobSidecarBuild
  let gasLimit ← (overrideGasLimit.or t.gasLimit).elim (.error noGasLimit) .ok
  return t.toEnvelope gasLimit
    (.eip4844 gasPrice.maxPriorityFee gasPrice.maxFee blobGasPrice.blobGasPrice hashes)

end Transaction

/-- The part of a relayer's record the queue reads. -/
structure Relayer where
  id : RelayerId
  chainId : ChainId
  address : EvmAddress
  maxGasPrice : Option ℕ
  paused : Bool
  eip1559Enabled : Bool
  deriving DecidableEq, Repr

/-- A receipt as the relayer reads it. -/
structure Receipt where
  status : Bool
  transactionHash : TransactionHash
  gasUsed : ℕ
  blockHash : Option ℕ
  blockNumber : Option ℕ
  deriving DecidableEq, Repr

end Rrelayer
