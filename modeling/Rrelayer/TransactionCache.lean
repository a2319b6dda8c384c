import Rrelayer.System
import Rrelayer.Lib.ReadThrough

/-! The transaction cache beside the queue operations. An operation's statements and its
invalidations are listed in the order of the source, branch by branch; the readers of
`get_transaction_by_id` make their steps between any two of them. -/
namespace Rrelayer

open ReadThrough (State)

def Db.getTransaction (db : Db) (id : TransactionId) : Option Transaction :=
  (db.row id).map Row.toTransaction

abbrev CacheMove := ReadThrough.Move TransactionId Transaction

/-- A statement that leaves the database. -/
abbrev Db.stored (db : Db) : CacheMove := .store db.getTransaction

namespace Locked

/-- The statements of a send: the attempt, and its mark once the node accepted it. -/
def sendMoves (l : Locked) (env : SendEnv) (t : Transaction) : List CacheMove :=
  let config := l.queue.toSendConfig
  match prepareSend config env t with
  | (_, .error _) => []
  | (t, .ok (signed, sent)) =>
      match (if env.persistAttempt then l.db.transactionBroadcastAttempt config.relayer.id t
          sent.hash sent.sentWithGas sent.sentWithBlobGas config.isLegacyTransactions env.nowSent
          else none) with
      | none => []
      | some db => db.stored :: match env.broadcast signed with
          | .error _ => []
          | .ok () => if env.markSent then
              [(db.transactionSent sent.id sent.hash sent.sentWithGas sent.sentWithBlobGas
                config.isLegacyTransactions env.nowSent).stored] else []

section Pending

variable (l : Locked) (env : PendingEnv) (t : Transaction)

/-- A head that is moved to the in-mempool queue is invalidated. -/
def moveSentMoves (sent : TransactionSentWithRelayer) : List CacheMove :=
  match l.queue.movePendingToInmempool t sent env.nowMoved with
  | .error _ => []
  | .ok _ => [.invalidate t.id]

def closeOutMoves (reason : String) : List CacheMove :=
  if env.write then
    [(l.db.transactionUpdate (l.closedOut t reason) env.nowWrite).stored, .invalidate t.id]
  else []

def resolvePendingMoves (attempt : RecordedTransactionAttempt) (gas : GasPriceResult) :
    List CacheMove :=
  if env.write then
    let db := l.db.transactionSent t.id attempt.hash gas attempt.sentWithBlobGas
      l.queue.isLegacyTransactions env.nowWrite
    db.stored :: { l with db := db }.moveSentMoves env t (attemptSent t attempt gas)
  else []

def recoverPendingMoves (attempt : RecordedTransactionAttempt) (gas : GasPriceResult) :
    List CacheMove :=
  if env.write then
    match l.db.recoverLandedTransactionAttempt l.queue.relayer.id t.id attempt.hash gas
        attempt.sentWithBlobGas l.queue.isLegacyTransactions env.nowWrite with
    | (false, _) => []
    | (true, db) =>
        db.stored :: { l with db := db }.moveSentMoves env t (attemptSent t attempt gas)
  else []

/-- The new nonce is written and nothing is invalidated. -/
def reassignPendingMoves : List CacheMove :=
  match l.recoverNonceSynchronization env.clients with
  | .error _ => []
  | .ok newNonce =>
      if env.write then [(l.db.transactionUpdateNonce t.id newNonce).stored] else []

def pendingConflictMoves : List CacheMove :=
  if !env.loadAttempts then []
  else
    let attempts := l.db.getRecordedTransactionAttempts t.id
    if attempts.isEmpty then []
    else match findLandedAttempt env.clients attempts with
      | .error _ => []
      | .ok none => l.reassignPendingMoves env t
      | .ok (some attempt) =>
          match attempt.sentWithGas with
          | none => []
          | some gas =>
              match env.getReceipt attempt.hash with
              | .error _ => []
              | .ok (some _) => l.resolvePendingMoves env t attempt gas
              | .ok none => l.recoverPendingMoves env t attempt gas

/-- Of the failed sends only a close-out and a landed attempt end in an invalidation. -/
def pendingFailedMoves : TransactionQueueSendTransactionError → List CacheMove
  | .transactionEstimateGasError error =>
      match errorClass error with
      | .permanentRejection => l.closeOutMoves env t error
      | _ => []
  | .transactionSendError error =>
      match errorClass error with
      | .permanentRejection => l.closeOutMoves env t error
      | .nonceConflict => l.pendingConflictMoves env t
      | _ => []
  | _ => []

def pendingMoves (l : Locked) (env : PendingEnv) : List CacheMove :=
  if l.queue.relayer.paused then []
  else match l.queue.getNextPendingTransaction with
    | none => []
    | some t =>
        if !env.guard then []
        else l.sendMoves env.send (l.pendingCopy env t) ++
          match l.send env.send (l.pendingCopy env t) with
          | (t, l, .ok sent) => l.moveSentMoves env t sent
          | (t, l, .error e) => l.pendingFailedMoves env t e

end Pending

section Inmempool

variable (l : Locked) (env : InmempoolEnv) (t : Transaction)

/-- The winner and the loser of a race are each invalidated after their own statement. -/
def saveResolutionMoves (receipt : Receipt) (r : CompetitionResolutionResult) : List CacheMove :=
  match r.winnerStatus with
  | .mined =>
      if !env.write then []
      else
        let db := l.db.transactionMined r.winner receipt env.nowWrite
        db.stored :: .invalidate r.winner.id :: match r.loser with
          | none => []
          | some loser =>
              if !env.writeLoser then []
              else [(db.transactionUpdate loser env.nowWrite).stored, .invalidate loser.id]
  | .expired =>
      if !env.write then []
      else [(l.db.transactionExpired r.winner.id env.nowWrite).stored, .invalidate r.winner.id]
  | .failed =>
      if !env.write then []
      else [(l.db.updateTransactionFailed r.winner.id (r.winner.failedReason.getD failedOnchain)
        env.nowWrite).stored, .invalidate r.winner.id]
  | _ => []

def resolveInmempoolMoves (receipt : Receipt) : List CacheMove :=
  match l.queue.moveInmempoolToMining t.id receipt env.now with
  | .error _ => []
  | .ok (resolution, queue) => { l with queue := queue }.saveResolutionMoves env receipt resolution

/-- The new nonce is written and nothing is invalidated. -/
def reassignInmempoolMoves : List CacheMove :=
  match l.recoverNonceSynchronization env.clients with
  | .error _ => []
  | .ok newNonce =>
      if env.write then [(l.db.transactionUpdateNonce t.id newNonce).stored] else []

def inmempoolConflictMoves : List CacheMove :=
  match t.knownTransactionHash with
  | none => l.reassignInmempoolMoves env t
  | some hash =>
      match env.conflictReceipt hash with
      | .ok none => l.reassignInmempoolMoves env t
      | .ok (some _) | .error _ => []

def bumpFailedMoves : TransactionQueueSendTransactionError → List CacheMove
  | .transactionSendError error =>
      match errorClass error with
      | .nonceConflict => l.inmempoolConflictMoves env t
      | _ => []
  | _ => []

/-- Only an accepted bump is invalidated. -/
def bumpMoves : List CacheMove :=
  l.sendMoves env.send t ++ match l.send env.send t with
    | (bumped, _, .ok _) => [.invalidate bumped.id]
    | (bumped, l, .error e) => l.bumpFailedMoves env bumped e

def inmempoolMoves (l : Locked) (env : InmempoolEnv) : List CacheMove :=
  match l.queue.getNextInmempoolTransaction with
  | none => []
  | some t =>
      if !env.guard then []
      else match t.knownTransactionHash with
        | none => []
        | some hash =>
            match env.pollReceipt hash with
            | .error _ => []
            | .ok (some receipt) => l.resolveInmempoolMoves env t receipt
            | .ok none => if l.bumpDue env t then l.bumpMoves env t else []

end Inmempool

section Mined

def confirmMoves (l : Locked) (env : MinedEnv) (t : Transaction) : List CacheMove :=
  match t.knownTransactionHash with
  | none => []
  | some hash =>
      match env.getReceipt hash with
      | .error _ | .ok none => []
      | .ok (some _) =>
          if env.write then
            [(l.db.transactionConfirmed t.id env.nowWrite).stored, .invalidate t.id]
          else []

def minedMoves (l : Locked) (env : MinedEnv) : List CacheMove :=
  match l.queue.getNextMinedTransaction env.pick with
  | none => []
  | some t =>
      if !env.guard then []
      else match t.minedAt with
        | none => []
        | some minedAt =>
            if l.queue.inConfirmedRange (TransactionsQueue.asU64 (env.now - minedAt)) then
              l.confirmMoves env t
            else []

end Mined

section Compete

variable (l : Locked) (env : CompeteEnv) (id : TransactionId)

/-- The competitor's own row is written by its send; the original is invalidated at the end. -/
def sendCompetitorMoves (original competitor : Transaction) (competitionType : CompetitionType) :
    List CacheMove :=
  l.sendMoves env.send competitor ++ match l.send env.send competitor with
    | (_, _, .error _) => []
    | (sentCompetitor, l, .ok sent) =>
        let linked := { original with cancelledByTransactionId := some competitor.id }
        let tracked := { sentCompetitor with
          status := .inmempool
          knownTransactionHash := some sent.hash
          sentAt := some env.nowWrite }
        if !env.write then []
        else (l.db.transactionUpdate linked env.nowWrite).stored ::
          match l.queue.addCompetitorToInmempoolTransaction original.id tracked competitionType with
          | .error _ => []
          | .ok _ => [.invalidate id]

def rewriteMoves (t : Transaction) : List CacheMove :=
  if env.write then [(l.db.transactionUpdate t env.nowWrite).stored, .invalidate id] else []

def cancelInmempoolMoves (original : Transaction) : List CacheMove :=
  match original.sentWithGas with
  | none => []
  | some gas =>
      let competitor := { l.competitor env original with sentWithGas := some (competitorGas gas) }
      l.sendCompetitorMoves env id original competitor .cancel

def cancelMoves : List CacheMove :=
  if l.queue.relayer.paused then []
  else match l.queue.getEditableTransactionById id with
    | none => []
    | some editable =>
        if !env.guard then []
        else match editable with
          | .pending t => l.rewriteMoves env id (l.cancelledPending t)
          | .inmempool original => l.cancelInmempoolMoves env id original

variable (request : RelayTransactionRequest)

def replacePendingMoves (t : Transaction) : List CacheMove :=
  match decodeBlobs request with
  | .error _ => []
  | .ok blobs => l.rewriteMoves env id (transactionReplace request t blobs)

def replaceInmempoolMoves (original : Transaction) (externalId : Option String) :
    List CacheMove :=
  match decodeBlobs request with
  | .error _ => []
  | .ok blobs =>
      match original.sentWithGas, original.gasLimit with
      | some gas, some gasLimit =>
          let t := l.replacement env request original externalId blobs gasLimit
          match l.replacementBlobGas env t with
          | .error _ => []
          | .ok blobGas =>
              let competitor := { t with
                sentWithGas := some (competitorGas gas), sentWithBlobGas := blobGas }
              l.sendCompetitorMoves env id original competitor .replace
      | _, _ => []

def replaceMoves : List CacheMove :=
  if l.queue.relayer.paused then []
  else match l.queue.getEditableTransactionById id with
    | none => []
    | some editable =>
        if !env.guard then []
        else match editable with
          | .pending t =>
              match replacementExternalId t request.externalId false with
              | .error _ => []
              | .ok _ => l.replacePendingMoves env id request t
          | .inmempool original =>
              match replacementExternalId original request.externalId true with
              | .error _ => []
              | .ok externalId => l.replaceInmempoolMoves env id request original externalId

end Compete

section Admission

variable (l : Locked) (env : AdmissionEnv) (toSend : TransactionToSend)

/-- The one statement of an admission, and the invalidation after it. -/
def savedMoves (id : TransactionId) : Option Db → List CacheMove
  | some db => [db.stored, .invalidate id]
  | none => []

def admissionFailedMoves (t : Transaction) (error : AddTransactionError) : List CacheMove :=
  savedMoves t.id (if env.write then l.db.transactionFailedOnSend l.queue.relayer.id
    { t with status := .failed } (alwaysFailing (env.describe error)) env.nowFailed else none)

def reserveAndSaveMoves (t : Transaction) (gasLimit : GasLimit) : List CacheMove :=
  savedMoves t.id (l.saveAdmitted env (l.reserved t gasLimit))

def admitNewMoves (onchainNonce : ℕ) : List CacheMove :=
  let t := l.admittedTransaction env toSend onchainNonce
  match l.computeTransactionGasPrices env t with
  | .error _ => []
  | .ok (gasPrice, blobGasPrice) =>
      match l.estimateAndValidateGas env t gasPrice blobGasPrice with
      | .error e => l.admissionFailedMoves env t e
      | .ok gasLimit => l.reserveAndSaveMoves env t gasLimit

def addMoves : List CacheMove :=
  match l.db.findAdmittedTransaction env.read l.queue.relayer.id toSend.externalId
      (toSendDigest toSend) with
  | .error _ | .ok (some _) => []
  | .ok none =>
      if l.queue.relayer.paused then []
      else if toSend.blobs.isSome && !l.queue.supportsBlobs then []
      else match pendingNonceAcrossClients env.clients with
        | .error _ => []
        | .ok onchainNonce =>
            { l with
              queue := { l.queue with
                nonceManager := l.queue.nonceManager.syncWithOnchainNonce onchainNonce }
              }.admitNewMoves env toSend onchainNonce

end Admission

end Locked

/-- The steps lead from the rows of one database to those of another. -/
def Db.Through (db : Db) (moves : List CacheMove) (db' : Db) : Prop :=
  State.rowsAfter db.getTransaction moves = db'.getTransaction

theorem Db.Through.append {db db₁ db₂ : Db} {first rest : List CacheMove} (h : db.Through first db₁)
    (h' : db₁.Through rest db₂) : db.Through (first ++ rest) db₂ := by
  unfold Db.Through at h h' ⊢
  rw [ReadThrough.State.rowsAfter_append, h, h']

namespace Locked

section Rows

variable (l : Locked)

theorem sendMoves_through (env : SendEnv) (t : Transaction) :
    l.db.Through (l.sendMoves env t) (l.send env t).2.1.db := by
  unfold sendMoves send sendTransaction
  dsimp only
  rcases prepareSend l.queue.toSendConfig env t with ⟨t', e | ⟨signed, sent⟩⟩
  · rfl
  · dsimp only
    unfold persistAndBroadcast
    dsimp only
    rcases (if env.persistAttempt then l.db.transactionBroadcastAttempt
      l.queue.toSendConfig.relayer.id t' sent.hash sent.sentWithGas sent.sentWithBlobGas
      l.queue.toSendConfig.isLegacyTransactions env.nowSent else none) with _ | db
    · rfl
    · dsimp only
      rcases env.broadcast signed with e | _
      · rfl
      · dsimp only
        split
        · rfl
        · rfl

section Pending

variable (env : PendingEnv) (t : Transaction)

theorem moveSentMoves_through (sent : TransactionSentWithRelayer)
    (result : ProcessResult ProcessPendingStatus) :
    l.db.Through (l.moveSentMoves env t sent) (l.moveSent env t sent result).1.db := by
  unfold moveSentMoves moveSent
  rcases l.queue.movePendingToInmempool t sent env.nowMoved with e | queue
  · rfl
  · rfl

theorem closeOutMoves_through (reason : String) :
    l.db.Through (l.closeOutMoves env t reason)
      (l.closeOutPendingTransactionAsNoop env t reason).1.db := by
  unfold closeOutMoves closeOutPendingTransactionAsNoop
  split
  · rfl
  · rfl

theorem resolvePendingMoves_through (attempt : RecordedTransactionAttempt) (gas : GasPriceResult) :
    l.db.Through (l.resolvePendingMoves env t attempt gas)
      (l.resolvePendingTransactionMined env t attempt gas).1.db := by
  unfold resolvePendingMoves resolvePendingTransactionMined
  dsimp only
  split
  · exact moveSentMoves_through { l with db := _ } env t _ _
  · rfl

theorem recoverPendingMoves_through (attempt : RecordedTransactionAttempt) (gas : GasPriceResult) :
    l.db.Through (l.recoverPendingMoves env t attempt gas)
      (l.recoverPendingLandedAttempt env t attempt gas).1.db := by
  unfold recoverPendingMoves recoverPendingLandedAttempt
  split
  · rcases l.db.recoverLandedTransactionAttempt l.queue.relayer.id t.id attempt.hash gas
      attempt.sentWithBlobGas l.queue.isLegacyTransactions env.nowWrite with ⟨_ | _, db⟩
    · rfl
    · exact moveSentMoves_through { l with db := db } env t _ _
  · rfl

theorem reassignPendingMoves_through (error : String) :
    l.db.Through (l.reassignPendingMoves env t) (l.reassignPendingNonce env t error).1.db := by
  unfold reassignPendingMoves reassignPendingNonce
  rcases l.recoverNonceSynchronization env.clients with e | newNonce
  · rfl
  · dsimp only
    split
    · rfl
    · rfl

theorem pendingConflictMoves_through (error : String) :
    l.db.Through (l.pendingConflictMoves env t) (l.pendingNonceConflict env t error).1.db := by
  unfold pendingConflictMoves pendingNonceConflict
  dsimp only
  split
  · rfl
  · split
    · rfl
    · rcases findLandedAttempt env.clients (l.db.getRecordedTransactionAttempts t.id) with
        e | _ | attempt
      · rfl
      · exact l.reassignPendingMoves_through env t error
      · dsimp only
        rcases attempt.sentWithGas with _ | gas
        · rfl
        · dsimp only
          rcases env.getReceipt attempt.hash with e | _ | receipt
          · rfl
          · exact l.recoverPendingMoves_through env t attempt gas
          · exact l.resolvePendingMoves_through env t attempt gas

theorem pendingFailedMoves_through (error : TransactionQueueSendTransactionError) :
    l.db.Through (l.pendingFailedMoves env t error) (l.pendingFailed env t error).1.db := by
  cases error with
  | transactionEstimateGasError error =>
    dsimp only [pendingFailedMoves, pendingFailed]
    generalize errorClass error = kind
    cases kind with
    | permanentRejection => exact l.closeOutMoves_through env t error
    | _ => rfl
  | transactionSendError error =>
    dsimp only [pendingFailedMoves, pendingFailed]
    generalize errorClass error = kind
    cases kind with
    | permanentRejection => exact l.closeOutMoves_through env t error
    | nonceConflict => exact l.pendingConflictMoves_through env t error
    | _ => rfl
  | _ => rfl

theorem pendingMoves_through :
    l.db.Through (l.pendingMoves env) (l.processSinglePending env).1.db := by
  unfold pendingMoves processSinglePending
  split
  · rfl
  · rcases l.queue.getNextPendingTransaction with _ | t
    · rfl
    · dsimp only
      split
      · rfl
      · refine (l.sendMoves_through env.send (l.pendingCopy env t)).append ?_
        rcases l.send env.send (l.pendingCopy env t) with ⟨t, l, e | sent⟩
        · exact l.pendingFailedMoves_through env t e
        · exact l.moveSentMoves_through env t sent _

end Pending

section Inmempool

variable (env : InmempoolEnv) (t : Transaction)

theorem saveResolutionMoves_through (receipt : Receipt) (r : CompetitionResolutionResult) :
    l.db.Through (l.saveResolutionMoves env receipt r) (l.saveResolution env receipt r).1.db := by
  unfold saveResolutionMoves saveResolution
  cases r.winnerStatus with
  | mined =>
    dsimp only
    split
    · rfl
    · rcases r.loser with _ | loser
      · rfl
      · dsimp only
        split
        · rfl
        · rfl
  | expired =>
    dsimp only
    split
    · rfl
    · rfl
  | failed =>
    dsimp only
    split
    · rfl
    · rfl
  | _ => rfl

theorem resolveInmempoolMoves_through (receipt : Receipt) :
    l.db.Through (l.resolveInmempoolMoves env t receipt) (l.resolveInmempool env t receipt).1.db := by
  unfold resolveInmempoolMoves resolveInmempool
  rcases l.queue.moveInmempoolToMining t.id receipt env.now with e | ⟨resolution, queue⟩
  · rfl
  · exact saveResolutionMoves_through { l with queue := queue } env receipt resolution

theorem reassignInmempoolMoves_through (error : String) :
    l.db.Through (l.reassignInmempoolMoves env t) (l.reassignInmempoolNonce env t error).1.db := by
  unfold reassignInmempoolMoves reassignInmempoolNonce
  rcases l.recoverNonceSynchronization env.clients with e | newNonce
  · rfl
  · dsimp only
    split
    · rfl
    · rfl

theorem inmempoolConflictMoves_through (error : String) :
    l.db.Through (l.inmempoolConflictMoves env t) (l.inmempoolNonceConflict env t error).1.db := by
  unfold inmempoolConflictMoves inmempoolNonceConflict
  rcases t.knownTransactionHash with _ | hash
  · exact l.reassignInmempoolMoves_through env t error
  · dsimp only
    rcases env.conflictReceipt hash with e | _ | receipt
    · rfl
    · exact l.reassignInmempoolMoves_through env t error
    · rfl

theorem bumpFailedMoves_through (error : TransactionQueueSendTransactionError) :
    l.db.Through (l.bumpFailedMoves env t error) (l.bumpFailed env t error).1.db := by
  cases error with
  | transactionSendError error =>
    dsimp only [bumpFailedMoves, bumpFailed]
    generalize errorClass error = kind
    cases kind with
    | nonceConflict => exact l.inmempoolConflictMoves_through env t error
    | _ => rfl
  | _ => rfl

theorem bumpMoves_through : l.db.Through (l.bumpMoves env t) (l.bumpInmempool env t).1.db := by
  unfold bumpMoves bumpInmempool
  refine (l.sendMoves_through env.send t).append ?_
  rcases l.send env.send t with ⟨bumped, l, e | sent⟩
  · exact l.bumpFailedMoves_through env bumped e
  · rfl

theorem inmempoolMoves_through :
    l.db.Through (l.inmempoolMoves env) (l.processSingleInmempool env).1.db := by
  unfold inmempoolMoves processSingleInmempool
  rcases l.queue.getNextInmempoolTransaction with _ | t
  · rfl
  · dsimp only
    split
    · rfl
    · rcases t.knownTransactionHash with _ | hash
      · rfl
      · dsimp only
        rcases env.pollReceipt hash with e | _ | receipt
        · rfl
        · dsimp only
          split
          · exact l.bumpMoves_through env t
          · rfl
        · exact l.resolveInmempoolMoves_through env t receipt

end Inmempool

theorem confirmMoves_through (env : MinedEnv) (t : Transaction) :
    l.db.Through (l.confirmMoves env t) (l.confirmMined env t).1.db := by
  unfold confirmMoves confirmMined
  rcases t.knownTransactionHash with _ | hash
  · rfl
  · dsimp only
    rcases env.getReceipt hash with e | _ | receipt
    · rfl
    · rfl
    · dsimp only
      split
      · rfl
      · rfl

theorem minedMoves_through (env : MinedEnv) :
    l.db.Through (l.minedMoves env) (l.processSingleMined env).1.db := by
  unfold minedMoves processSingleMined
  rcases l.queue.getNextMinedTransaction env.pick with _ | t
  · rfl
  · dsimp only
    split
    · rfl
    · rcases t.minedAt with _ | minedAt
      · rfl
      · dsimp only
        split
        · exact l.confirmMoves_through env t
        · rfl

section Compete

variable (env : CompeteEnv) (id : TransactionId)

theorem sendCompetitorMoves_through (original competitor : Transaction)
    (competitionType : CompetitionType) :
    l.db.Through (l.sendCompetitorMoves env id original competitor competitionType)
      (l.sendCompetitor env original competitor competitionType).1.db := by
  unfold sendCompetitorMoves sendCompetitor
  refine (l.sendMoves_through env.send competitor).append ?_
  rcases l.send env.send competitor with ⟨sentCompetitor, l, e | sent⟩
  · cases e with
    | transactionSendError error =>
      dsimp only
      split
      · rcases l.recoverNonceSynchronization env.clients with e | m
        · rfl
        · rfl
      · rfl
    | _ => rfl
  · dsimp only
    split
    · rfl
    · rcases l.queue.addCompetitorToInmempoolTransaction original.id _ competitionType with e | q
      · rfl
      · rfl

theorem rewriteMoves_through (t : Transaction) :
    l.db.Through (l.rewriteMoves env id t) ((l.rewritePending env t).getD l).db := by
  unfold rewriteMoves rewritePending
  split
  · rfl
  · rfl

theorem cancelMoves_through :
    l.db.Through (l.cancelMoves env id) (l.cancelTransaction env id).1.db := by
  unfold cancelMoves cancelTransaction
  split
  · rfl
  · rcases l.queue.getEditableTransactionById id with _ | editable
    · rfl
    · dsimp only
      split
      · rfl
      · rcases editable with t | original
        · have hrewrite := l.rewriteMoves_through env id (l.cancelledPending t)
          dsimp only
          rcases hl : l.rewritePending env (l.cancelledPending t) with _ | l'
          · rwa [hl] at hrewrite
          · rwa [hl] at hrewrite
        · dsimp only [cancelInmempoolMoves, cancelInmempool]
          rcases original.sentWithGas with _ | gas
          · rfl
          · exact l.sendCompetitorMoves_through env id original _ .cancel

variable (request : RelayTransactionRequest)

theorem replacePendingMoves_through (t : Transaction) :
    l.db.Through (l.replacePendingMoves env id request t) (l.replacePending env request t).1.db := by
  unfold replacePendingMoves replacePending
  rcases decodeBlobs request with e | blobs
  · rfl
  · have hrewrite := l.rewriteMoves_through env id (transactionReplace request t blobs)
    dsimp only
    rcases hl : l.rewritePending env (transactionReplace request t blobs) with _ | l'
    · rwa [hl] at hrewrite
    · rwa [hl] at hrewrite

theorem replaceInmempoolMoves_through (original : Transaction) (externalId : Option String) :
    l.db.Through (l.replaceInmempoolMoves env id request original externalId)
      (l.replaceInmempool env request original externalId).1.db := by
  unfold replaceInmempoolMoves replaceInmempool
  rcases decodeBlobs request with e | blobs
  · rfl
  · dsimp only
    rcases original.sentWithGas with _ | gas
    · rfl
    · rcases original.gasLimit with _ | gasLimit
      · rfl
      · dsimp only
        rcases l.replacementBlobGas env (l.replacement env request original externalId blobs
          gasLimit) with e | blobGas
        · rfl
        · exact l.sendCompetitorMoves_through env id original _ .replace

theorem replaceMoves_through :
    l.db.Through (l.replaceMoves env id request) (l.replaceTransaction env request id).1.db := by
  unfold replaceMoves replaceTransaction
  split
  · rfl
  · rcases l.queue.getEditableTransactionById id with _ | editable
    · rfl
    · dsimp only
      split
      · rfl
      · rcases editable with t | original
        · dsimp only
          rcases replacementExternalId t request.externalId false with e | externalId
          · rfl
          · exact l.replacePendingMoves_through env id request t
        · dsimp only
          rcases replacementExternalId original request.externalId true with e | externalId
          · rfl
          · exact l.replaceInmempoolMoves_through env id request original externalId

end Compete

section Admission

variable (env : AdmissionEnv) (toSend : TransactionToSend)

theorem admissionFailedMoves_through (t : Transaction) (error : AddTransactionError) :
    l.db.Through (l.admissionFailedMoves env t error) (l.admissionFailed env t error).1.db := by
  unfold admissionFailedMoves admissionFailed
  dsimp only
  rcases (if env.write then l.db.transactionFailedOnSend l.queue.relayer.id
    { t with status := .failed } (alwaysFailing (env.describe error)) env.nowFailed else none) with
    _ | db
  · rfl
  · rfl

theorem reserveAndSaveMoves_through (t : Transaction) (gasLimit : GasLimit) :
    l.db.Through (l.reserveAndSaveMoves env t gasLimit) (l.reserveAndSave env t gasLimit).1.db := by
  unfold reserveAndSaveMoves reserveAndSave
  dsimp only
  rcases l.saveAdmitted env (l.reserved t gasLimit) with _ | db
  · rfl
  · rfl

theorem admitNewMoves_through (onchainNonce : ℕ) :
    l.db.Through (l.admitNewMoves env toSend onchainNonce)
      (l.admitNew env toSend onchainNonce).1.db := by
  unfold admitNewMoves admitNew
  dsimp only
  rcases l.computeTransactionGasPrices env (l.admittedTransaction env toSend onchainNonce) with
    e | ⟨gasPrice, blobGasPrice⟩
  · rfl
  · dsimp only
    rcases l.estimateAndValidateGas env (l.admittedTransaction env toSend onchainNonce) gasPrice
      blobGasPrice with e | gasLimit
    · exact l.admissionFailedMoves_through env _ e
    · exact l.reserveAndSaveMoves_through env _ gasLimit

theorem addMoves_through :
    l.db.Through (l.addMoves env toSend) (l.addTransaction env toSend).1.db := by
  unfold addMoves addTransaction
  rcases l.db.findAdmittedTransaction env.read l.queue.relayer.id toSend.externalId
    (toSendDigest toSend) with e | _ | stored
  · rfl
  · dsimp only
    split
    · rfl
    · split
      · rfl
      · rcases pendingNonceAcrossClients env.clients with e | onchainNonce
        · rfl
        · exact admitNewMoves_through { l with
            queue := { l.queue with
              nonceManager := l.queue.nonceManager.syncWithOnchainNonce onchainNonce } }
            env toSend onchainNonce
  · rfl

end Admission

end Rows

end Locked

end Rrelayer
