import Rrelayer.TransactionsQueues

/-! Cancelling and replacing: a pending transaction is edited in place, an in-mempool one gets a
competitor at its nonce. -/
namespace Rrelayer

inductive CancelTransactionError where
  | sendTransactionError (error : TransactionQueueSendTransactionError)
  | couldNotUpdateTransactionDb
  | relayerNotFound (relayerId : RelayerId)
  | relayerIsPaused (relayerId : RelayerId)
  | nonceSynchronizationRecovered
  deriving DecidableEq, Repr

/-- `invalidBlobs` is the panic of an `expect` on the blobs of a pending replacement. -/
inductive ReplaceTransactionError where
  | externalIdConflict
  | sendTransactionError (error : TransactionQueueSendTransactionError)
  | transactionNotFound (id : TransactionId)
  | relayerIsPaused (relayerId : RelayerId)
  | couldNotUpdateTransactionInDb
  | nonceSynchronizationRecovered
  | invalidBlobs
  deriving DecidableEq, Repr

structure CancelTransactionResult where
  success : Bool
  cancelTransactionId : Option TransactionId
  deriving DecidableEq, Repr

structure ReplaceTransactionResult where
  success : Bool
  replaceTransactionId : Option TransactionId
  replaceTransactionHash : Option TransactionHash
  deriving DecidableEq, Repr

/-- The fields of a relay request a replacement reads; blobs are still to be decoded. -/
structure RelayTransactionRequest where
  toAddress : EvmAddress
  value : TransactionValue
  data : TransactionData
  blobs : Option (Except String (List TransactionBlob))
  externalId : Option String
  deriving DecidableEq, Repr

/-- What a cancel or replace asks of the outside; `newId` is the competitor's fresh id. -/
structure CompeteEnv where
  guard : Bool
  newId : TransactionId
  now : DateTime
  expiresAt : DateTime
  send : SendEnv
  clients : List RpcClient
  write : Bool
  nowWrite : DateTime

def cancelExternalId (id : TransactionId) : String := "cancel_" ++ toString id
def replaceExternalId (id : TransactionId) : String := "replace_" ++ toString id

def noBlobHex (e : String) : String := "Failed to convert blob hex to TransactionBlob: " ++ e

namespace Locked

section Compete

variable (l : Locked) (env : CompeteEnv)

/-- The competitor's price over the original's last one. -/
def competitorGas (original : GasPriceResult) : GasPriceResult where
  maxPriorityFee := bumpForSameNonceCompetitor original.maxPriorityFee
  maxFee := bumpForSameNonceCompetitor original.maxFee
  minWaitTimeEstimate := none
  maxWaitTimeEstimate := none

/-- A new transaction of the relayer at the original's nonce. -/
def competitor (original : Transaction) : Transaction where
  id := env.newId
  relayerId := original.relayerId
  toAddress := l.queue.relayer.address
  fromAddress := l.queue.relayer.address
  value := 0
  data := []
  nonce := original.nonce
  chainId := l.queue.relayer.chainId
  gasLimit := some 21000
  status := .pending
  blobs := none
  knownTransactionHash := none
  queuedAt := env.now
  expiresAt := env.expiresAt
  sentAt := none
  confirmedAt := none
  sentWithGas := none
  sentWithBlobGas := none
  minedAt := none
  minedAtBlockNumber := none
  speed := .super
  sentWithMaxPriorityFeePerGas := none
  sentWithMaxFeePerGas := none
  isNoop := true
  externalId := some (cancelExternalId original.id)
  cancelledByTransactionId := none
  failedReason := none

/-- How a competitor's send ended. -/
inductive CompetitorOutcome where
  | attached (hash : TransactionHash)
  | sendFailed (error : TransactionQueueSendTransactionError)
  | synchronized
  | couldNotUpdateDb
  deriving DecidableEq, Repr

/-- Sends the competitor, links the original's row to it and attaches it to the front entry.
A nonce wording in the node's error only makes the relayer read the chain's nonce. -/
def sendCompetitor (original competitor : Transaction) (competitionType : CompetitionType) :
    Locked × CompetitorOutcome :=
  match l.send env.send competitor with
  | (_, l, .error (.transactionSendError e)) =>
      if isCompetitorNonceIssue e then
        match l.recoverNonceSynchronization env.clients with
        | .error _ => (l, .sendFailed (.transactionSendError e))
        | .ok _ => (l, .synchronized)
      else (l, .sendFailed (.transactionSendError e))
  | (_, l, .error e) => (l, .sendFailed e)
  | (sentCompetitor, l, .ok sent) =>
      let linked := { original with cancelledByTransactionId := some competitor.id }
      let tracked := { sentCompetitor with
        status := .inmempool
        knownTransactionHash := some sent.hash
        sentAt := some env.nowWrite }
      if !env.write then (l, .couldNotUpdateDb)
      else
        let l := { l with db := l.db.transactionUpdate linked env.nowWrite }
        match l.queue.addCompetitorToInmempoolTransaction original.id tracked competitionType with
        | .error e => (l, .sendFailed e)
        | .ok queue => ({ l with queue := queue }, .attached sent.hash)

/-- The pending transaction as a no-op that was never sent. -/
def cancelledPending (t : Transaction) : Transaction :=
  { transactionToNoop l.queue.relayer.address t with
    knownTransactionHash := none
    sentWithGas := none
    sentWithBlobGas := none
    sentWithMaxFeePerGas := none
    sentWithMaxPriorityFeePerGas := none
    sentAt := none
    status := .pending }

/-- A pending transaction as edited, in the row first. `none` is a write that failed. -/
def rewritePending (t : Transaction) : Option Locked :=
  if env.write then
    some { l with
      db := l.db.transactionUpdate t env.nowWrite
      queue := l.queue.updatePendingTransaction t }
  else none

abbrev CancelResult := Except CancelTransactionError CancelTransactionResult
abbrev ReplaceResult := Except ReplaceTransactionError ReplaceTransactionResult

def cancelResult (competitorId : TransactionId) : CompetitorOutcome → CancelResult
  | .attached _ => .ok ⟨true, some competitorId⟩
  | .sendFailed e => .error (.sendTransactionError e)
  | .synchronized => .error .nonceSynchronizationRecovered
  | .couldNotUpdateDb => .error .couldNotUpdateTransactionDb

def cancelInmempool (original : Transaction) : Locked × CancelResult :=
  match original.sentWithGas with
  | none => (l, .error (.sendTransactionError .gasCalculationError))
  | some gas =>
      let competitor := { l.competitor env original with sentWithGas := some (competitorGas gas) }
      let (l, outcome) := l.sendCompetitor env original competitor .cancel
      (l, cancelResult env.newId outcome)

def cancelTransaction (id : TransactionId) : Locked × CancelResult :=
  if l.queue.relayer.paused then (l, .error (.relayerIsPaused l.queue.relayer.id))
  else match l.queue.getEditableTransactionById id with
    | none => (l, .ok ⟨false, none⟩)
    | some editable =>
        if !env.guard then (l, .error (.relayerIsPaused l.queue.relayer.id))
        else match editable with
          | .pending t =>
              match l.rewritePending env (l.cancelledPending t) with
              | none => (l, .error .couldNotUpdateTransactionDb)
              | some l => (l, .ok ⟨true, none⟩)
          | .inmempool original => l.cancelInmempool env original

end Compete

section Replace

variable (l : Locked) (env : CompeteEnv) (request : RelayTransactionRequest)

/-- An external id may be repeated but not changed. -/
def replacementExternalId (original : Transaction) (requested : Option String)
    (inmempool : Bool) : Except ReplaceTransactionError (Option String) :=
  if requested.isSome && requested != original.externalId then .error .externalIdConflict
  else .ok (if inmempool then some (replaceExternalId original.id) else original.externalId)

/-- The pending transaction with the requested payload; `is_noop` is derived anew. -/
def transactionReplace (t : Transaction) (blobs : Option (List TransactionBlob)) : Transaction :=
  { t with
    toAddress := request.toAddress
    data := request.data
    value := request.value
    isNoop := t.fromAddress == request.toAddress
    blobs := blobs
    gasLimit := none }

def decodeBlobs : Except String (Option (List TransactionBlob)) :=
  match request.blobs with
  | none => .ok none
  | some decoded => decoded.map some

def replacePending (t : Transaction) : Locked × ReplaceResult :=
  match decodeBlobs request with
  | .error _ => (l, .error .invalidBlobs)
  | .ok blobs =>
      let replaced := transactionReplace request t blobs
      match l.rewritePending env replaced with
      | none => (l, .error .couldNotUpdateTransactionInDb)
      | some l => (l, .ok ⟨true, some replaced.id, replaced.knownTransactionHash⟩)

/-- The replacement before it is priced, with a fifth more gas than the original. -/
def replacement (original : Transaction) (externalId : Option String)
    (blobs : Option (List TransactionBlob)) (gasLimit : GasLimit) : Transaction :=
  { l.competitor env original with
    toAddress := request.toAddress
    value := request.value
    data := request.data
    gasLimit := some (gasLimit + gasLimit / 5)
    blobs := blobs
    isNoop := false
    externalId := externalId }

def replacementBlobGas (t : Transaction) : SendResult (Option BlobGasPriceResult) :=
  if t.isBlobTransaction then
    (computeBlobGasPriceForTransaction l.queue.maxGasPriceMultiplier env.send.blobOracle .super
      none).map some |>.mapError .sendTransactionGasPriceError
  else .ok none

def replaceResult (competitorId : TransactionId) : CompetitorOutcome → ReplaceResult
  | .attached hash => .ok ⟨true, some competitorId, some hash⟩
  | .sendFailed e => .error (.sendTransactionError e)
  | .synchronized => .error .nonceSynchronizationRecovered
  | .couldNotUpdateDb => .error .couldNotUpdateTransactionInDb

def replaceInmempool (original : Transaction) (externalId : Option String) :
    Locked × ReplaceResult :=
  match decodeBlobs request with
  | .error e => (l, .error (.sendTransactionError (.transactionConversionError (noBlobHex e))))
  | .ok blobs =>
      match original.sentWithGas, original.gasLimit with
      | some gas, some gasLimit =>
          let t := l.replacement env request original externalId blobs gasLimit
          match l.replacementBlobGas env t with
          | .error e => (l, .error (.sendTransactionError e))
          | .ok blobGas =>
              let competitor := { t with
                sentWithGas := some (competitorGas gas), sentWithBlobGas := blobGas }
              let (l, outcome) := l.sendCompetitor env original competitor .replace
              (l, replaceResult env.newId outcome)
      | _, _ => (l, .error (.sendTransactionError .gasCalculationError))

def replaceTransaction (id : TransactionId) : Locked × ReplaceResult :=
  if l.queue.relayer.paused then (l, .error (.relayerIsPaused l.queue.relayer.id))
  else match l.queue.getEditableTransactionById id with
    | none => (l, .ok ⟨false, none, none⟩)
    | some editable =>
        if !env.guard then (l, .error (.relayerIsPaused l.queue.relayer.id))
        else match editable with
          | .pending t =>
              match replacementExternalId t request.externalId false with
              | .error e => (l, .error e)
              | .ok _ => l.replacePending env request t
          | .inmempool original =>
              match replacementExternalId original request.externalId true with
              | .error e => (l, .error e)
              | .ok externalId => l.replaceInmempool env request original externalId

end Replace

end Locked
end Rrelayer
