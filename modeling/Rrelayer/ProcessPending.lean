import Rrelayer.TransactionsQueues

/-! One pass over the head of the pending queue. -/
namespace Rrelayer

inductive ProcessPendingStatus where
  | success | relayerPaused | noPendingTransactions | gasPriceTooHigh | gasCalculationUnavailable
  | nonceSynchronized | sendRetrying | closedOutWithNoop
  deriving DecidableEq, Repr

inductive ProcessPendingTransactionError where
  | relayerTransactionsQueueNotFound (relayerId : RelayerId)
  | sendTransactionError (relayerId : RelayerId) (relayerAddress : EvmAddress)
      (error : TransactionQueueSendTransactionError)
  | movePendingTransactionToInmempoolError (relayerId : RelayerId) (relayerAddress : EvmAddress)
      (error : MovePendingTransactionToInmempoolError)
  deriving DecidableEq, Repr

abbrev PendingResult :=
  Except ProcessPendingTransactionError (ProcessResult ProcessPendingStatus)

/-- What a pending pass asks of the outside. `write` is whether the database serves the write
that ends the pass; there is at most one. -/
structure PendingEnv where
  guard : Bool
  now : DateTime
  send : SendEnv
  loadAttempts : Bool
  clients : List RpcClient
  getReceipt : TransactionHash → Except String (Option Receipt)
  write : Bool
  nowWrite : DateTime
  nowMoved : DateTime

namespace Locked

section Pending

variable (l : Locked) (env : PendingEnv) (t : Transaction)

def pendingSendError (error : TransactionQueueSendTransactionError) : PendingResult :=
  .error (.sendTransactionError l.queue.relayer.id l.queue.relayer.address error)

/-- The head as moved to the in-mempool queue. -/
def moveSent (sent : TransactionSentWithRelayer) (result : ProcessResult ProcessPendingStatus) :
    Locked × PendingResult :=
  match l.queue.movePendingToInmempool t sent env.nowMoved with
  | .error e => (l, .error (.movePendingTransactionToInmempoolError l.queue.relayer.id
      l.queue.relayer.address e))
  | .ok queue => ({ l with queue := queue }, .ok result)

/-- The payload becomes a no-op at the same nonce. -/
def closedOut (reason : String) : Transaction :=
  { transactionToNoop l.queue.relayer.address t with
    knownTransactionHash := none
    sentWithGas := none
    sentWithMaxFeePerGas := none
    sentWithMaxPriorityFeePerGas := none
    sentAt := none
    status := .pending
    failedReason := some reason }

def closeOutPendingTransactionAsNoop (reason : String) : Locked × PendingResult :=
  let t := l.closedOut t reason
  if env.write then
    ({ l with
      db := l.db.transactionUpdate t env.nowWrite
      queue := l.queue.updatePendingTransaction t },
      .ok (.other .closedOutWithNoop (some 100)))
  else (l, .error (.sendTransactionError t.relayerId l.queue.relayer.address
      .couldNotUpdateTransactionDb))

def attemptSent (attempt : RecordedTransactionAttempt) (gas : GasPriceResult) :
    TransactionSentWithRelayer :=
  ⟨t.id, attempt.hash, gas, attempt.sentWithBlobGas⟩

/-- A recorded attempt has a receipt: it is handed to receipt resolution. -/
def resolvePendingTransactionMined (attempt : RecordedTransactionAttempt) (gas : GasPriceResult) :
    Locked × PendingResult :=
  if env.write then
    let db := l.db.transactionSent t.id attempt.hash gas attempt.sentWithBlobGas
      l.queue.isLegacyTransactions env.nowWrite
    { l with db := db }.moveSent env t (attemptSent t attempt gas)
      (.other .nonceSynchronized (some 100))
  else (l, l.pendingSendError .couldNotUpdateTransactionDb)

/-- A recorded attempt is known but has no receipt yet. -/
def recoverPendingLandedAttempt (attempt : RecordedTransactionAttempt) (gas : GasPriceResult) :
    Locked × PendingResult :=
  if env.write then
    match l.db.recoverLandedTransactionAttempt l.queue.relayer.id t.id attempt.hash gas
        attempt.sentWithBlobGas l.queue.isLegacyTransactions env.nowWrite with
    | (false, _) => (l, .ok (.other .sendRetrying (some 100)))
    | (true, db) => { l with db := db }.moveSent env t (attemptSent t attempt gas)
        (.other .nonceSynchronized (some 100))
  else (l, l.pendingSendError .couldNotUpdateTransactionDb)

def reassignPendingNonce (error : String) : Locked × PendingResult :=
  match l.recoverNonceSynchronization env.clients with
  | .error _ => (l, l.pendingSendError (.transactionSendError error))
  | .ok newNonce =>
      if env.write then
        let l := l.advanceTransactionNonce t.id newNonce
        ({ l with queue := l.queue.updatePendingTransactionNonce t.id newNonce },
          .ok (.other .nonceSynchronized (some 100)))
      else (l, l.pendingSendError .couldNotUpdateTransactionDb)

/-- Every durable attempt is looked up before the nonce is touched. -/
def pendingNonceConflict (error : String) : Locked × PendingResult :=
  let retry : Locked × PendingResult := (l, .ok (.other .sendRetrying (some 100)))
  if !env.loadAttempts then retry
  else
    let attempts := l.db.getRecordedTransactionAttempts t.id
    if attempts.isEmpty then retry
    else match findLandedAttempt env.clients attempts with
      | .error _ => retry
      | .ok none => l.reassignPendingNonce env t error
      | .ok (some attempt) =>
          match attempt.sentWithGas with
          | none => retry
          | some gas =>
              match env.getReceipt attempt.hash with
              | .error _ => retry
              | .ok (some _) => l.resolvePendingTransactionMined env t attempt gas
              | .ok none => l.recoverPendingLandedAttempt env t attempt gas

def pendingFailed : TransactionQueueSendTransactionError → Locked × PendingResult
  | .gasPriceTooHigh => (l, .ok (.other .gasPriceTooHigh l.blockTimeMs))
  | .gasCalculationError => (l, .ok (.other .gasCalculationUnavailable l.blockTimeMs))
  | .transactionEstimateGasError error =>
      match errorClass error with
      | .permanentRejection => l.closeOutPendingTransactionAsNoop env t error
      | _ => (l, .ok (.other .sendRetrying l.blockTimeMs))
  | .transactionSendError error =>
      match errorClass error with
      | .insufficientFunds => (l, .ok (.other .sendRetrying l.blockTimeMs))
      | .permanentRejection => l.closeOutPendingTransactionAsNoop env t error
      | .alreadyKnown => (l, .ok (.other .sendRetrying l.blockTimeMs))
      | .nonceConflict => l.pendingNonceConflict env t error
      | .underpriced | .transient => (l, l.pendingSendError (.transactionSendError error))
  | .couldNotUpdateTransactionDb => (l, l.pendingSendError .couldNotUpdateTransactionDb)
  | .sendTransactionGasPriceError _ => (l, .ok (.other .gasCalculationUnavailable l.blockTimeMs))
  | .transactionConversionError _ => (l, .ok (.other .sendRetrying l.blockTimeMs))
  | .safeProxyError _ => (l, .ok (.other .sendRetrying l.blockTimeMs))
  | .noTransactionInQueue => (l, l.pendingSendError .noTransactionInQueue)

end Pending

/-- The working copy a pending pass sends. -/
def pendingCopy (l : Locked) (env : PendingEnv) (t : Transaction) : Transaction :=
  if hasExpired t env.now then transactionToNoop l.queue.relayer.address t else t

def processSinglePending (l : Locked) (env : PendingEnv) : Locked × PendingResult :=
  if l.queue.relayer.paused then (l, .ok (.other .relayerPaused (some 30000)))
  else match l.queue.getNextPendingTransaction with
    | none => (l, .ok (.other .noPendingTransactions none))
    | some t =>
        if !env.guard then (l, .error (.relayerTransactionsQueueNotFound l.queue.relayer.id))
        else match l.send env.send (l.pendingCopy env t) with
          | (t, l, .ok sent) => l.moveSent env t sent ⟨.success, 10⟩
          | (t, l, .error e) => l.pendingFailed env t e

section Leaves

variable (l : Locked) (env : PendingEnv) (t : Transaction)

/-- What a failed send of the head's copy `t` leaves: the relayer as it was, the head closed out,
the head at another nonce, or the head moved on as the recorded attempt a provider knows. -/
inductive PendingLeaves : Locked → Prop where
  | kept : PendingLeaves l
  | closedOut (reason : String) : PendingLeaves { l with
      db := l.db.transactionUpdate (l.closedOut t reason) env.nowWrite
      queue := l.queue.updatePendingTransaction (l.closedOut t reason) }
  | reassigned (newNonce : ℕ) : PendingLeaves { l.advanceTransactionNonce t.id newNonce with
      queue := (l.advanceTransactionNonce t.id newNonce).queue.updatePendingTransactionNonce
        t.id newNonce }
  | mined {attempt : RecordedTransactionAttempt} {gas : GasPriceResult}
      (hfind : findLandedAttempt env.clients (l.db.getRecordedTransactionAttempts t.id) =
        .ok (some attempt))
      (hgas : attempt.sentWithGas = some gas) :
      PendingLeaves (({ l with
        db := l.db.transactionSent t.id attempt.hash gas attempt.sentWithBlobGas
          l.queue.isLegacyTransactions env.nowWrite } : Locked).moveSent env t
        (attemptSent t attempt gas) (.other .nonceSynchronized (some 100))).1
  | recovered {attempt : RecordedTransactionAttempt} {gas : GasPriceResult} {db : Db}
      (hfind : findLandedAttempt env.clients (l.db.getRecordedTransactionAttempts t.id) =
        .ok (some attempt))
      (hgas : attempt.sentWithGas = some gas)
      (hserved : l.db.recoverLandedTransactionAttempt l.queue.relayer.id t.id attempt.hash gas
        attempt.sentWithBlobGas l.queue.isLegacyTransactions env.nowWrite = (true, db)) :
      PendingLeaves (({ l with db := db } : Locked).moveSent env t (attemptSent t attempt gas)
        (.other .nonceSynchronized (some 100))).1

theorem closeOut_leaves (reason : String) :
    l.PendingLeaves env t (l.closeOutPendingTransactionAsNoop env t reason).1 := by
  unfold closeOutPendingTransactionAsNoop
  dsimp only
  split
  · exact .closedOut reason
  · exact .kept

theorem reassignPending_leaves (error : String) :
    l.PendingLeaves env t (l.reassignPendingNonce env t error).1 := by
  unfold reassignPendingNonce
  split
  · exact .kept
  · split
    · exact .reassigned _
    · exact .kept

theorem pendingNonceConflict_leaves (error : String) :
    l.PendingLeaves env t (l.pendingNonceConflict env t error).1 := by
  unfold pendingNonceConflict
  dsimp only
  split
  · exact .kept
  · split
    · exact .kept
    · split
      · exact .kept
      · exact l.reassignPending_leaves env t error
      · rename_i attempt hfind
        split
        · exact .kept
        · rename_i gas hgas
          split
          · exact .kept
          · unfold resolvePendingTransactionMined
            split
            · exact .mined hfind hgas
            · exact .kept
          · unfold recoverPendingLandedAttempt
            split
            · split
              · exact .kept
              · rename_i db hserved
                exact .recovered hfind hgas hserved
            · exact .kept

theorem pendingFailed_leaves (error : TransactionQueueSendTransactionError) :
    l.PendingLeaves env t (l.pendingFailed env t error).1 := by
  cases error with
  | transactionSendError e =>
    dsimp only [pendingFailed]
    split
    · exact .kept
    · exact l.closeOut_leaves env t e
    · exact .kept
    · exact l.pendingNonceConflict_leaves env t e
    · exact .kept
    · exact .kept
  | transactionEstimateGasError e =>
    dsimp only [pendingFailed]
    split
    · exact l.closeOut_leaves env t e
    · exact .kept
  | _ => exact .kept

end Leaves

end Locked
end Rrelayer
