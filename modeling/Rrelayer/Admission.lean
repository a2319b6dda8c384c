import Rrelayer.TransactionsQueues

/-! Admission of a transaction: the idempotency lookup, a dry run of the payload, and the
reservation of the next nonce. -/
namespace Rrelayer

inductive AddTransactionError where
  | externalIdConflict (externalId : String)
  | couldNotSaveTransactionDb
  | relayerNotFound (relayerId : RelayerId)
  | relayerIsPaused (relayerId : RelayerId)
  | transactionGasPriceError (error : SendTransactionGasPriceError)
  | transactionEstimateGasError (relayerId : RelayerId) (error : String)
  | couldNotGetCurrentOnChainNonce (relayerId : RelayerId) (error : String)
  | transactionConversionError (error : String)
  | unsupportedTransactionType (message : String)
  deriving DecidableEq, Repr

def unsupportedBlobs : String :=
  "EIP-4844 blob transactions are not supported by this wallet manager"

def insufficientBalance : String := "Insufficient funds for gas * price + value"

def alwaysFailing (error : String) : String :=
  "Failed to send transaction as always failing on gas estimation: " ++ error

structure TransactionToSend where
  id : TransactionId
  toAddress : EvmAddress
  value : TransactionValue
  data : TransactionData
  speed : TransactionSpeed
  blobs : Option (List TransactionBlob)
  externalId : Option String
  deriving DecidableEq, Repr

/-- What an admission asks of the outside. `describe` displays an error, and `readAfterRace` is
whether the lookup that follows a refused insert is served. -/
structure AdmissionEnv where
  read : Bool
  now : DateTime
  expiresAt : DateTime
  clients : List RpcClient
  estimationClients : List RpcClient
  gasOracle : GasOracle
  blobOracle : BlobGasOracle
  send : SendEnv
  getBalance : Except String ℕ
  describe : AddTransactionError → String
  write : Bool
  readAfterRace : Bool
  nowFailed : DateTime

abbrev AddResult := Except AddTransactionError Transaction

/-- The row a caller's external id is already bound to. -/
def Db.findAdmittedTransaction (db : Db) (served : Bool) (relayerId : RelayerId)
    (externalId : Option String) (digest : RequestDigest) :
    Except AddTransactionError (Option Transaction) :=
  match externalId with
  | none => .ok none
  | some id =>
      if !served then .error .couldNotSaveTransactionDb
      else match db.rows.find? fun r => r.relayerId == relayerId && r.externalId == some id with
        | none => .ok none
        | some r =>
            if r.requestDigest == some digest then .ok (some r.toTransaction)
            else .error (.externalIdConflict id)

namespace Locked

section Admission

variable (l : Locked) (env : AdmissionEnv) (toSend : TransactionToSend)

def toSendDigest : RequestDigest :=
  requestDigest toSend.toAddress toSend.value toSend.data toSend.speed

/-- Only a violated external id index is looked into; every other error, a taken primary key
among them, is final. -/
def resolveAdmissionInsertError (t : Transaction) : AddResult :=
  let race := env.write && (l.db.row t.id).isNone &&
    l.db.externalIdTaken l.queue.relayer.id t.externalId
  if !race then .error .couldNotSaveTransactionDb
  else match l.db.findAdmittedTransaction env.readAfterRace l.queue.relayer.id t.externalId
      (requestDigest t.toAddress t.value t.data t.speed) with
    | .error e => .error e
    | .ok (some stored) => .ok stored
    | .ok none => .error .couldNotSaveTransactionDb

def admittedTransaction (onchainNonce : ℕ) : Transaction where
  id := toSend.id
  relayerId := l.queue.relayer.id
  toAddress := toSend.toAddress
  fromAddress := l.queue.relayer.address
  value := toSend.value
  data := toSend.data
  nonce := onchainNonce
  chainId := l.queue.relayer.chainId
  gasLimit := none
  status := .pending
  blobs := toSend.blobs
  knownTransactionHash := none
  queuedAt := env.now
  expiresAt := env.expiresAt
  sentAt := none
  confirmedAt := none
  sentWithGas := none
  sentWithBlobGas := none
  minedAt := none
  minedAtBlockNumber := none
  speed := toSend.speed
  sentWithMaxPriorityFeePerGas := none
  sentWithMaxFeePerGas := none
  isNoop := false
  externalId := toSend.externalId
  cancelledByTransactionId := none
  failedReason := none

def computeTransactionGasPrices (t : Transaction) :
    Except SendTransactionGasPriceError (GasPriceResult × Option BlobGasPriceResult) := do
  let multiplier := l.queue.maxGasPriceMultiplier
  let blobGasPrice ← if t.isBlobTransaction then
      (computeBlobGasPriceForTransaction multiplier env.blobOracle t.speed none).map some
    else pure none
  let gasPrice ← computeGasPriceForTransaction multiplier env.gasOracle t.speed none
  return (gasPrice, blobGasPrice)

def createTypedTransaction (t : Transaction) (gasPrice : GasPriceResult)
    (blobGasPrice : Option BlobGasPriceResult) (gasLimit : GasLimit) :
    Except String TypedTransaction :=
  if t.isBlobTransaction then
    t.toBlobTypedTransactionWithGasLimit env.send.buildSidecar (some gasPrice) blobGasPrice
      (some gasLimit)
  else if l.queue.isLegacyTransactions then
    t.toLegacyTypedTransactionWithGasLimit (some gasPrice) (some gasLimit)
  else t.toEip1559TypedTransactionWithGasLimit (some gasPrice) (some gasLimit)

/-- What the balance is compared with: the gas cost is a 128-bit product, the sum is one of 256
bits, and both wrap around. -/
def totalRequired (t : Transaction) (gasLimit : GasLimit) (gasPrice : GasPriceResult) : ℕ :=
  (t.value + gasLimit * gasPrice.legacyGasPrice % 2 ^ 128) % 2 ^ 256

/-- The payload is simulated at the node's nonce, so transactions queued before it do not make
the simulation fail. -/
def estimateAndValidateGas (t : Transaction) (gasPrice : GasPriceResult)
    (blobGasPrice : Option BlobGasPriceResult) : Except AddTransactionError GasLimit := do
  let onchainNonce ← (pendingNonceAcrossClients env.estimationClients).mapError
    (.couldNotGetCurrentOnChainNonce t.relayerId)
  let request ← (l.createTypedTransaction env { t with nonce := onchainNonce } gasPrice
    blobGasPrice 1).mapError .transactionConversionError
  let gasLimit ← (estimateGas env.send request t.isNoop).mapError
    (.transactionEstimateGasError t.relayerId)
  let balance ← env.getBalance.mapError (.transactionEstimateGasError t.relayerId)
  if balance < totalRequired t gasLimit gasPrice then
    throw (.transactionEstimateGasError t.relayerId insufficientBalance)
  return gasLimit

/-- A payload that cannot be estimated is only kept as a failed row. -/
def admissionFailed (t : Transaction) (error : AddTransactionError) : Locked × AddResult :=
  let saved := if env.write then l.db.transactionFailedOnSend l.queue.relayer.id
      { t with status := .failed } (alwaysFailing (env.describe error)) env.nowFailed else none
  match saved with
  | some db => ({ l with db := db }, .error error)
  | none => (l, l.resolveAdmissionInsertError env { t with status := .failed })

/-- The transaction at the next nonce, as it is saved. -/
def reserved (t : Transaction) (gasLimit : GasLimit) : Transaction :=
  { t with nonce := l.queue.nonceManager.getAndIncrement.1, gasLimit := some gasLimit }

def saveAdmitted (t : Transaction) : Option Db :=
  if env.write then l.db.saveTransaction l.queue.relayer.id t else none

/-- The reservation is released when the row is not the caller's new one. -/
def reserveAndSave (t : Transaction) (gasLimit : GasLimit) : Locked × AddResult :=
  let (assigned, manager) := l.queue.nonceManager.getAndIncrement
  let t := l.reserved t gasLimit
  match l.saveAdmitted env t with
  | some db =>
      ({ l with
        db := db
        queue := { l.queue with nonceManager := manager }.addPendingTransaction t }, .ok t)
  | none =>
      let released := { l with
        queue := { l.queue with nonceManager := manager.releaseUnbroadcastNonce assigned } }
      (released, l.resolveAdmissionInsertError env t)

/-- The admission of a payload that is not bound yet. -/
def admitNew (onchainNonce : ℕ) : Locked × AddResult :=
  let t := l.admittedTransaction env toSend onchainNonce
  match l.computeTransactionGasPrices env t with
  | .error e => (l, .error (.transactionGasPriceError e))
  | .ok (gasPrice, blobGasPrice) =>
      match l.estimateAndValidateGas env t gasPrice blobGasPrice with
      | .error e => l.admissionFailed env t e
      | .ok gasLimit => l.reserveAndSave env t gasLimit

end Admission

def addTransaction (l : Locked) (env : AdmissionEnv) (toSend : TransactionToSend) :
    Locked × AddResult :=
  match l.db.findAdmittedTransaction env.read l.queue.relayer.id toSend.externalId
      (toSendDigest toSend) with
  | .error e => (l, .error e)
  | .ok (some stored) => (l, .ok stored)
  | .ok none =>
      if l.queue.relayer.paused then (l, .error (.relayerIsPaused l.queue.relayer.id))
      else if toSend.blobs.isSome && !l.queue.supportsBlobs then
        (l, .error (.unsupportedTransactionType unsupportedBlobs))
      else match pendingNonceAcrossClients env.clients with
        | .error e => (l, .error (.couldNotGetCurrentOnChainNonce l.queue.relayer.id e))
        | .ok onchainNonce =>
            { l with
              queue := { l.queue with
                nonceManager := l.queue.nonceManager.syncWithOnchainNonce onchainNonce }
              }.admitNew env toSend onchainNonce

def withManager (l : Locked) (manager : NonceManager) : Locked :=
  { l with queue := { l.queue with nonceManager := manager } }

/-- What an admission leaves: nothing but a nonce manager, a failed row besides, or the transaction
in a row and in the queue. -/
inductive AdmissionLeaves (l : Locked) (id : TransactionId) : Locked → Prop where
  | kept (manager : NonceManager) : AdmissionLeaves l id (l.withManager manager)
  | rejected (manager : NonceManager) {t : Transaction} {reason : String} {now : DateTime}
      {db : Db} (hid : t.id = id) (hstatus : t.status = .failed)
      (h : l.db.transactionFailedOnSend l.queue.relayer.id t reason now = some db) :
      AdmissionLeaves l id { l.withManager manager with db := db }
  | saved (manager : NonceManager) {t : Transaction} {db : Db} (hid : t.id = id)
      (hrelayer : t.relayerId = l.queue.relayer.id) (hstatus : t.status = .pending)
      (hhash : t.knownTransactionHash = none) (hlink : t.cancelledByTransactionId = none)
      (h : l.db.saveTransaction l.queue.relayer.id t = some db) :
      AdmissionLeaves l id { l.withManager manager with
        db := db
        queue := (l.withManager manager).queue.addPendingTransaction t }

theorem admitNew_leaves (l : Locked) (env : AdmissionEnv) (toSend : TransactionToSend)
    (synced : NonceManager) (onchainNonce : ℕ) : l.AdmissionLeaves toSend.id
      ((l.withManager synced).admitNew env toSend onchainNonce).1 := by
  unfold admitNew
  dsimp only
  split
  · exact .kept synced
  · split
    · unfold admissionFailed
      dsimp only
      split
      · rename_i db hsaved
        split at hsaved
        · exact .rejected synced (t := { l.admittedTransaction env toSend onchainNonce with
            status := .failed }) rfl rfl hsaved
        · cases hsaved
      · exact .kept synced
    · rename_i gasLimit _
      unfold reserveAndSave
      dsimp only
      split
      · rename_i db hsave
        unfold saveAdmitted at hsave
        split at hsave
        · exact .saved _ (t := (l.withManager synced).reserved
            (l.admittedTransaction env toSend onchainNonce) gasLimit) rfl rfl rfl rfl rfl hsave
        · cases hsave
      · exact .kept _

theorem addTransaction_leaves (l : Locked) (env : AdmissionEnv) (toSend : TransactionToSend) :
    l.AdmissionLeaves toSend.id (l.addTransaction env toSend).1 := by
  unfold addTransaction
  split
  · exact .kept l.queue.nonceManager
  · exact .kept l.queue.nonceManager
  · split
    · exact .kept l.queue.nonceManager
    · split
      · exact .kept l.queue.nonceManager
      · split
        · exact .kept l.queue.nonceManager
        · exact l.admitNew_leaves env toSend _ _

end Locked
end Rrelayer
