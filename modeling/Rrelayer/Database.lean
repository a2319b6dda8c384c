import Rrelayer.Provider
import Mathlib.Data.List.Sort

/-! The rows of `relayer.transaction`, their audit log and the statements run on them. A row is
kept as the transaction the row view builds from it, with the further columns beside it: the
view derives `is_noop` and reads the price columns back from JSON. -/
namespace Rrelayer

/-- What the admission digest covers; the digest is taken to be collision free. -/
structure RequestDigest where
  toAddress : EvmAddress
  value : TransactionValue
  data : TransactionData
  speed : TransactionSpeed
  deriving DecidableEq, Repr

def requestDigest (toAddress : EvmAddress) (value : TransactionValue) (data : TransactionData)
    (speed : TransactionSpeed) : RequestDigest := ⟨toAddress, value, data, speed⟩

structure Row extends Transaction where
  failedAt : Option DateTime
  expiredAt : Option DateTime
  blockHash : Option ℕ
  gasPrice : Option ℕ
  requestDigest : Option RequestDigest
  deriving DecidableEq, Repr

def truncateReason (reason : String) : String := String.ofList (reason.toList.take 2000)

def optionIf {α : Type} (condition : Bool) (value : α) : Option α :=
  if condition then some value else none

/-- The columns an insert always names; the others start as `NULL`. -/
def Row.blank (t : Transaction) : Row where
  id := t.id
  relayerId := t.relayerId
  toAddress := t.toAddress
  fromAddress := t.fromAddress
  value := t.value
  data := t.data
  nonce := t.nonce
  chainId := t.chainId
  gasLimit := none
  status := t.status
  blobs := t.blobs
  knownTransactionHash := none
  queuedAt := t.queuedAt
  expiresAt := t.expiresAt
  sentAt := none
  confirmedAt := none
  sentWithGas := none
  sentWithBlobGas := none
  minedAt := none
  minedAtBlockNumber := none
  speed := t.speed
  sentWithMaxPriorityFeePerGas := none
  sentWithMaxFeePerGas := none
  isNoop := t.toAddress == t.fromAddress
  externalId := t.externalId
  cancelledByTransactionId := none
  failedReason := none
  failedAt := none
  expiredAt := none
  blockHash := none
  gasPrice := none
  requestDigest := none

/-- The price columns a send writes. -/
def Row.withGas (r : Row) (hash : TransactionHash) (gas : GasPriceResult)
    (blobGas : Option BlobGasPriceResult) (legacy : Bool) : Row :=
  { r with
    knownTransactionHash := some hash
    sentWithMaxPriorityFeePerGas := optionIf (!legacy) gas.maxPriorityFee
    sentWithMaxFeePerGas := optionIf (!legacy) gas.maxFee
    gasPrice := optionIf legacy gas.legacyGasPrice
    sentWithGas := gas.stored
    sentWithBlobGas := blobGas.bind BlobGasPriceResult.stored }

/-- The columns `transaction_broadcast_attempt` writes, over a new row or an old one. -/
def Row.withAttempt (r : Row) (relayerId : RelayerId) (t : Transaction) (hash : TransactionHash)
    (gas : GasPriceResult) (blobGas : Option BlobGasPriceResult) (legacy : Bool)
    (now : DateTime) : Row :=
  { r with
    relayerId := relayerId
    toAddress := t.toAddress
    fromAddress := t.fromAddress
    nonce := t.nonce
    chainId := t.chainId
    data := t.data
    value := t.value
    blobs := t.blobs
    gasLimit := t.gasLimit
    speed := t.speed
    status := t.status
    expiresAt := t.expiresAt
    queuedAt := t.queuedAt
    externalId := t.externalId
    cancelledByTransactionId := t.cancelledByTransactionId
    isNoop := t.toAddress == t.fromAddress
    sentAt := some now }.withGas hash gas blobGas legacy

/-- The audit columns the older statements leave out. -/
def Row.dropLinks (r : Row) : Row :=
  { r with cancelledByTransactionId := none, requestDigest := none }

def Row.dropPrices (r : Row) : Row :=
  { r with sentWithGas := none, sentWithBlobGas := none }

/-- The live table and the audit log, the log in the order of its sequence numbers. -/
structure Db where
  rows : List Row
  audit : List Row
  deriving DecidableEq, Repr

namespace Db

def empty : Db := ⟨[], []⟩

def row (db : Db) (id : TransactionId) : Option Row := db.rows.find? (·.id == id)

/-- `UPDATE … WHERE id = $1`. -/
def update (db : Db) (id : TransactionId) (f : Row → Row) : Db :=
  { db with rows := db.rows.map fun r => if r.id == id then f r else r }

/-- `INSERT INTO transaction_audit_log … SELECT … WHERE id = $1`, with the columns the
statement copies or overrides. -/
def log (db : Db) (id : TransactionId) (snapshot : Row → Row) : Db :=
  { db with audit := db.audit ++ (db.rows.filter (·.id == id)).map snapshot }

/-- The unique index on relayer and external id. -/
def externalIdTaken (db : Db) (relayerId : RelayerId) (externalId : Option String) : Bool :=
  externalId.isSome && db.rows.any fun r => r.relayerId == relayerId && r.externalId == externalId

/-- An insert, refused when the id or the external id is taken. -/
def insert (db : Db) (r : Row) : Option Db :=
  if (db.row r.id).isSome || db.externalIdTaken r.relayerId r.externalId then none
  else some { db with rows := db.rows ++ [r] }

def saveTransaction (db : Db) (relayerId : RelayerId) (t : Transaction) : Option Db :=
  let r : Row := { Row.blank t with
    relayerId := relayerId
    gasLimit := t.gasLimit
    knownTransactionHash := t.knownTransactionHash
    cancelledByTransactionId := t.cancelledByTransactionId
    requestDigest := some (Rrelayer.requestDigest t.toAddress t.value t.data t.speed) }
  (db.insert r).map fun db => { db with audit := db.audit ++ [r] }

/-- Persists the signed candidate before its bytes may be handed to an endpoint. -/
def transactionBroadcastAttempt (db : Db) (relayerId : RelayerId) (t : Transaction)
    (hash : TransactionHash) (gas : GasPriceResult) (blobGas : Option BlobGasPriceResult)
    (legacy : Bool) (now : DateTime) : Option Db :=
  let write (r : Row) : Row := r.withAttempt relayerId t hash gas blobGas legacy now
  match db.row t.id with
  | some _ => some ((db.update t.id write).log t.id fun r => { r with requestDigest := none })
  | none => (db.insert (write (Row.blank t))).map fun db =>
      db.log t.id fun r => { r with requestDigest := none }

def transactionSent (db : Db) (id : TransactionId) (hash : TransactionHash) (gas : GasPriceResult)
    (blobGas : Option BlobGasPriceResult) (legacy : Bool) (now : DateTime) : Db :=
  let write (r : Row) : Row :=
    { r with status := .inmempool, sentAt := some now }.withGas hash gas blobGas legacy
  (db.update id write).log id fun r =>
    { r.dropLinks with blockHash := none, minedAtBlockNumber := none, expiredAt := none }

/-- Advances a landed, recorded attempt; the guard is evaluated on the live row. -/
def recoverLandedTransactionAttempt (db : Db) (relayerId : RelayerId) (id : TransactionId)
    (hash : TransactionHash) (gas : GasPriceResult) (blobGas : Option BlobGasPriceResult)
    (legacy : Bool) (now : DateTime) : Bool × Db :=
  let recorded := db.audit.any fun a =>
    a.id == id && a.knownTransactionHash == some hash && a.sentAt.isSome
  let guard (r : Row) : Bool :=
    r.relayerId == relayerId && r.status == .pending && r.failedAt.isNone && recorded
  match db.row id with
  | some r =>
      if guard r then
        let write (r : Row) : Row :=
          { r with status := .inmempool, sentAt := r.sentAt.or (some now) }.withGas
            hash gas blobGas legacy
        (true, (db.update id write).log id fun r => { r with requestDigest := none })
      else (false, db)
  | none => (false, db)

/-- The rows the poisoned repair terminalises: failed, still pending, never sent. -/
def poisoned (relayerId : RelayerId) (r : Row) : Bool :=
  r.relayerId == relayerId && r.status == .pending && r.failedAt.isSome &&
    r.knownTransactionHash.isNone && r.sentAt.isNone

def poisonedReason : String := "startup repair: terminalized unsent failed pending transaction"

def repairPoisonedPendingTransactionsForRelayer (db : Db) (relayerId : RelayerId) : Db :=
  let write (r : Row) : Row :=
    { r with status := .failed, failedReason := r.failedReason.or (some poisonedReason) }
  { rows := db.rows.map fun r => if poisoned relayerId r then write r else r
    audit := db.audit ++ (db.rows.filter (poisoned relayerId)).map fun r =>
      { write r with requestDigest := none } }

/-- The guard of one absent repair, on the live row and the whole audit log. -/
def absentGuard (db : Db) (relayerId : RelayerId) (chainNonce : ℕ)
    (hashes : List TransactionHash) (r : Row) : Bool :=
  r.relayerId == relayerId && r.status == .pending && r.sentAt.isSome && r.failedAt.isNone &&
    r.knownTransactionHash.any (hashes.contains ·) &&
    db.audit.all (fun a => !(a.id == r.id && a.sentAt.isSome &&
      a.knownTransactionHash.any (!hashes.contains ·))) &&
    r.nonce != chainNonce

def repairAbsentOne (relayerId : RelayerId) (chainNonce : ℕ) (reason : String) (now : DateTime)
    (db : Db) (entry : TransactionId × List TransactionHash) : Db :=
  let write (r : Row) : Row :=
    { r with status := .failed, failedAt := some now, failedReason := r.failedReason.or (some reason) }
  match db.row entry.1 with
  | some r =>
      if absentGuard db relayerId chainNonce entry.2 r then
        (db.update entry.1 write).log entry.1 fun r => { r with requestDigest := none }
      else db
  | none => db

def repairAbsentPendingTransactionsForRelayer (db : Db) (relayerId : RelayerId) (chainNonce : ℕ)
    (absent : List (TransactionId × List TransactionHash)) (reason : String)
    (now : DateTime) : Db :=
  absent.foldl (repairAbsentOne relayerId chainNonce reason now) db

def transactionFailedOnSend (db : Db) (relayerId : RelayerId) (t : Transaction) (reason : String)
    (now : DateTime) : Option Db :=
  let r : Row := { Row.blank t with
    relayerId := relayerId
    failedAt := some now
    failedReason := some (truncateReason reason)
    requestDigest := some (Rrelayer.requestDigest t.toAddress t.value t.data t.speed) }
  (db.insert r).map fun db => { db with audit := db.audit ++ [r] }

def updateTransactionFailed (db : Db) (id : TransactionId) (reason : String) (now : DateTime) :
    Db :=
  let write (r : Row) : Row :=
    { r with status := .failed, failedAt := some now, failedReason := some (truncateReason reason) }
  (db.update id write).log id fun r =>
    { r.dropLinks.dropPrices with
      blockHash := none, minedAtBlockNumber := none, expiredAt := none }

def transactionMined (db : Db) (t : Transaction) (receipt : Receipt) (now : DateTime) : Db :=
  let write (r : Row) : Row :=
    { r with
      status := .mined
      toAddress := t.toAddress
      fromAddress := t.fromAddress
      value := t.value
      data := t.data
      nonce := t.nonce
      chainId := t.chainId
      gasLimit := some receipt.gasUsed
      blockHash := receipt.blockHash
      minedAtBlockNumber := receipt.blockNumber
      speed := t.speed
      knownTransactionHash := some receipt.transactionHash
      sentWithMaxFeePerGas := t.sentWithMaxFeePerGas
      sentWithMaxPriorityFeePerGas := t.sentWithMaxPriorityFeePerGas
      externalId := t.externalId
      isNoop := t.toAddress == t.fromAddress
      minedAt := some now }
  (db.update t.id write).log t.id fun r =>
    { r.dropLinks.dropPrices with
      knownTransactionHash := t.knownTransactionHash, expiredAt := none }

def transactionConfirmed (db : Db) (id : TransactionId) (now : DateTime) : Db :=
  (db.update id fun r => { r with status := .confirmed, confirmedAt := some now }).log id fun r =>
    { r.dropLinks.dropPrices with expiredAt := none }

def transactionUpdateNonce (db : Db) (id : TransactionId) (nonce : ℕ) : Db :=
  (db.update id fun r => { r with nonce := nonce }).log id fun r =>
    { r.dropLinks.dropPrices with expiredAt := none }

def transactionExpired (db : Db) (id : TransactionId) (now : DateTime) : Db :=
  (db.update id fun r => { r with status := .expired, expiredAt := some now }).log id fun r =>
    r.dropLinks.dropPrices

/-- Writes the whole transaction. A failure reason stamps the failure time. -/
def transactionUpdate (db : Db) (t : Transaction) (now : DateTime) : Db :=
  let reason := t.failedReason.map truncateReason
  let write (r : Row) : Row :=
    { r with
      relayerId := t.relayerId
      toAddress := t.toAddress
      fromAddress := t.fromAddress
      nonce := t.nonce
      chainId := t.chainId
      data := t.data
      value := t.value
      speed := t.speed
      status := t.status
      expiresAt := t.expiresAt
      queuedAt := t.queuedAt
      sentAt := t.sentAt
      minedAt := t.minedAt
      confirmedAt := t.confirmedAt
      gasLimit := t.gasLimit
      knownTransactionHash := t.knownTransactionHash
      sentWithMaxFeePerGas := t.sentWithMaxFeePerGas
      sentWithMaxPriorityFeePerGas := t.sentWithMaxPriorityFeePerGas
      sentWithGas := t.sentWithGas.bind GasPriceResult.stored
      sentWithBlobGas := t.sentWithBlobGas.bind BlobGasPriceResult.stored
      externalId := t.externalId
      cancelledByTransactionId := t.cancelledByTransactionId
      blobs := t.blobs
      isNoop := t.toAddress == t.fromAddress
      failedReason := reason
      failedAt := if reason.isNone then r.failedAt else some now }
  (db.update t.id write).log t.id Row.dropLinks

/-- The first recording of each hash, in the order of the log. -/
def keepFirst : List RecordedTransactionAttempt → List RecordedTransactionAttempt
  | [] => []
  | a :: as => a :: (keepFirst as).filter (·.hash != a.hash)

def attemptOf (r : Row) : Option RecordedTransactionAttempt :=
  match r.knownTransactionHash, r.sentAt with
  | some hash, some _ => some ⟨hash, r.sentWithGas, r.sentWithBlobGas⟩
  | _, _ => none

/-- Audit history supplies the sequence, the live row is the fallback. -/
def getRecordedTransactionAttempts (db : Db) (id : TransactionId) :
    List RecordedTransactionAttempt :=
  keepFirst (((db.audit.filter (·.id == id)) ++ (db.rows.filter (·.id == id))).filterMap attemptOf)

/-- `ORDER BY nonce ASC`. -/
def orderByNonce (rows : List Row) : List Row := rows.insertionSort fun a b => a.nonce ≤ b.nonce

def getTransactionsByStatusForRelayer (db : Db) (relayerId : RelayerId)
    (status : TransactionStatus) : List Transaction :=
  (orderByNonce (db.rows.filter fun r => r.relayerId == relayerId && r.status == status)).map
    Row.toTransaction

def hasAttemptEvidence (relayerId : RelayerId) (r : Row) : Bool :=
  r.relayerId == relayerId && r.status == .pending && r.sentAt.isSome && r.failedAt.isNone &&
    r.knownTransactionHash.isSome

def getPendingTransactionsWithAttemptEvidenceForRelayer (db : Db) (relayerId : RelayerId) :
    List Transaction :=
  (orderByNonce (db.rows.filter (hasAttemptEvidence relayerId))).map Row.toTransaction

end Db
end Rrelayer
