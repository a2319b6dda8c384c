import Rrelayer.TransactionsQueues

/-! One pass over the front of the in-mempool queue: poll its active transaction's receipt, and
bump its gas when it waits too long. -/
namespace Rrelayer

inductive ProcessInmempoolStatus where
  | success | stillInmempool | noInmempoolTransactions | gasIncreased | nonceSynchronized
  deriving DecidableEq, Repr

inductive ProcessInmempoolTransactionError where
  | relayerTransactionsQueueNotFound (relayerId : RelayerId)
  | sendTransactionError (relayerId : RelayerId) (relayerAddress : EvmAddress)
      (error : TransactionQueueSendTransactionError)
  | couldNotUpdateTransactionStatusInTheDatabase (relayerId : RelayerId)
      (relayerAddress : EvmAddress) (transaction : Transaction) (status : TransactionStatus)
  | moveInmempoolTransactionToMinedError (relayerId : RelayerId) (relayerAddress : EvmAddress)
      (error : MoveInmempoolTransactionToMinedError)
  | couldNotGetTransactionReceipt (relayerId : RelayerId) (relayerAddress : EvmAddress)
      (transaction : Transaction) (error : String)
  | unknownTransactionHash (relayerId : RelayerId) (relayerAddress : EvmAddress)
      (transaction : Transaction)
  deriving DecidableEq, Repr

abbrev InmempoolResult :=
  Except ProcessInmempoolTransactionError (ProcessResult ProcessInmempoolStatus)

/-- What an in-mempool pass asks of the outside. `pollReceipt` answers before a bump,
`conflictReceipt` after the node refused it; each answer comes from any provider. -/
structure InmempoolEnv where
  guard : Bool
  pollReceipt : TransactionHash → Except String (Option Receipt)
  now : DateTime
  capOracle : GasOracle
  capBlobOracle : BlobGasOracle
  send : SendEnv
  conflictReceipt : TransactionHash → Except String (Option Receipt)
  clients : List RpcClient
  write : Bool
  writeLoser : Bool
  nowWrite : DateTime

namespace Locked

section Inmempool

variable (l : Locked) (env : InmempoolEnv) (t : Transaction)

def inmempoolSendError (error : TransactionQueueSendTransactionError) : InmempoolResult :=
  .error (.sendTransactionError l.queue.relayer.id l.queue.relayer.address error)

def failedOnchain : String := "Failed onchain"

def statusNotSaved (t : Transaction) (status : TransactionStatus) : InmempoolResult :=
  .error (.couldNotUpdateTransactionStatusInTheDatabase l.queue.relayer.id
    l.queue.relayer.address t status)

/-- The outcome of a race as it is written down; memory has already changed. -/
def saveResolution (receipt : Receipt) (r : CompetitionResolutionResult) :
    Locked × InmempoolResult :=
  match r.winnerStatus with
  | .mined =>
      if !env.write then (l, l.statusNotSaved r.winner .mined)
      else
        let mined := { l with db := l.db.transactionMined r.winner receipt env.nowWrite }
        match r.loser with
        | none => (mined, .ok ⟨.success, 10⟩)
        | some loser =>
            if !env.writeLoser then (mined, l.statusNotSaved loser loser.status)
            else ({ mined with db := mined.db.transactionUpdate loser env.nowWrite },
              .ok ⟨.success, 10⟩)
  | .expired =>
      if !env.write then (l, l.statusNotSaved r.winner .expired)
      else ({ l with db := l.db.transactionExpired r.winner.id env.nowWrite }, .ok ⟨.success, 10⟩)
  | .failed =>
      if !env.write then (l, l.statusNotSaved r.winner .failed)
      else
        let reason := r.winner.failedReason.getD failedOnchain
        ({ l with db := l.db.updateTransactionFailed r.winner.id reason env.nowWrite },
          .ok ⟨.success, 10⟩)
  | _ => (l, .ok ⟨.success, 10⟩)

def resolveInmempool (receipt : Receipt) : Locked × InmempoolResult :=
  match l.queue.moveInmempoolToMining t.id receipt env.now with
  | .error e => (l, .error (.moveInmempoolTransactionToMinedError l.queue.relayer.id
      l.queue.relayer.address e))
  | .ok (resolution, queue) => { l with queue := queue }.saveResolution env receipt resolution

def atMaxGasCap : Bool :=
  t.sentWithGas.any (isAtMaxGasPriceCap l.queue.maxGasPriceMultiplier env.capOracle) ||
    t.sentWithBlobGas.any
      (isAtMaxBlobGasPriceCap l.queue.maxGasPriceMultiplier env.capBlobOracle)

def stillInmempool : InmempoolResult :=
  .ok (.other .stillInmempool (l.blockTimeMs.map (· / 10)))

def reassignInmempoolNonce (error : String) : Locked × InmempoolResult :=
  match l.recoverNonceSynchronization env.clients with
  | .error _ => (l, l.inmempoolSendError (.transactionSendError error))
  | .ok newNonce =>
      if env.write then
        let l := l.advanceTransactionNonce t.id newNonce
        ({ l with queue := l.queue.updateInmempoolTransactionNonce t.id newNonce },
          .ok (.other .nonceSynchronized (some 100)))
      else (l, l.inmempoolSendError .couldNotUpdateTransactionDb)

/-- The hash looked up here is the working copy's, which a persisted bump has replaced. -/
def inmempoolNonceConflict (error : String) : Locked × InmempoolResult :=
  match t.knownTransactionHash with
  | none => l.reassignInmempoolNonce env t error
  | some hash =>
      match env.conflictReceipt hash with
      | .ok none => l.reassignInmempoolNonce env t error
      | .ok (some _) | .error _ => (l, .ok (.other .stillInmempool (some 100)))

def bumpFailed : TransactionQueueSendTransactionError → Locked × InmempoolResult
  | .transactionSendError error =>
      match errorClass error with
      | .alreadyKnown => (l, .ok (.other .stillInmempool l.blockTimeMs))
      | .nonceConflict => l.inmempoolNonceConflict env t error
      | _ => (l, l.inmempoolSendError (.transactionSendError error))
  | error => (l, l.inmempoolSendError error)

/-- A bump that was accepted; an entry that expired during it becomes the no-op it sent. -/
def bumpSent (wasNoop : Bool) (sent : TransactionSentWithRelayer) : Locked × InmempoolResult :=
  let queue := l.queue.updateInmempoolTransactionGas sent env.nowWrite
  let queue := if !wasNoop && t.isNoop then
    queue.updateInmempoolTransactionNoop t.id sent env.nowWrite else queue
  ({ l with queue := queue }, .ok (.other .gasIncreased none))

def bumpInmempool : Locked × InmempoolResult :=
  match l.send env.send t with
  | (bumped, l, .ok sent) => l.bumpSent env bumped t.isNoop sent
  | (bumped, l, .error e) => l.bumpFailed env bumped e

/-- Whether a transaction without receipt is bumped in this pass. -/
def bumpDue : Bool :=
  t.sentAt.any fun sentAt => !l.atMaxGasCap env t &&
    l.queue.shouldBumpGas (TransactionsQueue.asU64 (env.now - sentAt)) t.speed

end Inmempool

def processSingleInmempool (l : Locked) (env : InmempoolEnv) : Locked × InmempoolResult :=
  match l.queue.getNextInmempoolTransaction with
  | none => (l, .ok (.other .noInmempoolTransactions none))
  | some t =>
      if !env.guard then (l, .error (.relayerTransactionsQueueNotFound l.queue.relayer.id))
      else match t.knownTransactionHash with
        | none => (l, .error (.unknownTransactionHash l.queue.relayer.id
            l.queue.relayer.address t))
        | some hash =>
            match env.pollReceipt hash with
            | .error e => (l, .error (.couldNotGetTransactionReceipt l.queue.relayer.id
                l.queue.relayer.address t e))
            | .ok (some receipt) => l.resolveInmempool env t receipt
            | .ok none => if l.bumpDue env t then l.bumpInmempool env t else (l, l.stillInmempool)

section Leaves

variable (l : Locked) (env : InmempoolEnv) (t : Transaction)

/-- What a failed bump leaves: the relayer as it was, or the bumped copy `t` at another nonce in
its row and its entry. -/
inductive BumpLeaves : Locked → Prop where
  | kept : BumpLeaves l
  | reassigned (newNonce : ℕ) : BumpLeaves { l.advanceTransactionNonce t.id newNonce with
      queue := (l.advanceTransactionNonce t.id newNonce).queue.updateInmempoolTransactionNonce
        t.id newNonce }

theorem reassignInmempool_leaves (error : String) :
    l.BumpLeaves t (l.reassignInmempoolNonce env t error).1 := by
  unfold reassignInmempoolNonce
  split
  · exact .kept
  · split
    · exact .reassigned _
    · exact .kept

theorem bumpFailed_leaves (error : TransactionQueueSendTransactionError) :
    l.BumpLeaves t (l.bumpFailed env t error).1 := by
  cases error with
  | transactionSendError e =>
    dsimp only [bumpFailed]
    split
    · exact .kept
    · unfold inmempoolNonceConflict
      split
      · exact l.reassignInmempool_leaves env t e
      · split
        · exact l.reassignInmempool_leaves env t e
        · exact .kept
        · exact .kept
    · exact .kept
  | _ => exact .kept

end Leaves

end Locked
end Rrelayer
