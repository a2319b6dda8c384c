import Rrelayer.TransactionsQueue

/-! What the operations of a relayer share: its locked queue with the database, results of a
processing pass, and the two steps of a nonce resynchronisation. -/
namespace Rrelayer

structure ProcessResult (σ : Type) where
  status : σ
  processAgainAfter : ℕ
  deriving DecidableEq, Repr

def ProcessResult.other {σ : Type} (status : σ) (processAgainAfter : Option ℕ) : ProcessResult σ :=
  ⟨status, processAgainAfter.getD 10⟩

/-- The relayer's queue while an operation holds its lock, with the database and the payloads
that have left the process. -/
structure Locked where
  queue : TransactionsQueue
  blockTimeMs : Option ℕ
  db : Db
  broadcasts : Broadcasts

namespace Locked

def send (l : Locked) (env : SendEnv) (t : Transaction) :
    Transaction × Locked × SendResult TransactionSentWithRelayer :=
  let o := sendTransaction l.queue.toSendConfig env l.db l.broadcasts t
  (o.transaction, { l with db := o.db, broadcasts := o.broadcasts }, o.result)

/-- How a send ends: before there is anything to hand out, before the attempt is durable, refused by
the network, accepted without being marked as sent, or marked. -/
inductive SendEnds (l : Locked) (env : SendEnv) (t : Transaction) :
    Transaction × Locked × SendResult TransactionSentWithRelayer → Prop where
  | unprepared {t' : Transaction} {e : TransactionQueueSendTransactionError}
      (hprepare : prepareSend l.queue.toSendConfig env t = (t', .error e)) :
      SendEnds l env t (t', l, .error e)
  | unrecorded {t' : Transaction} {signed : SignedTransaction} {sent : TransactionSentWithRelayer}
      (hprepare : prepareSend l.queue.toSendConfig env t = (t', .ok (signed, sent))) :
      SendEnds l env t (t', l, .error .couldNotUpdateTransactionDb)
  | refused {t' : Transaction} {signed : SignedTransaction} {sent : TransactionSentWithRelayer}
      {db : Db} {e : String}
      (hprepare : prepareSend l.queue.toSendConfig env t = (t', .ok (signed, sent)))
      (hattempt : l.db.transactionBroadcastAttempt l.queue.toSendConfig.relayer.id t' sent.hash
        sent.sentWithGas sent.sentWithBlobGas l.queue.toSendConfig.isLegacyTransactions
        env.nowSent = some db)
      (hbroadcast : env.broadcast signed = .error e) :
      SendEnds l env t (t'.exposeAttempt sent env.nowSent,
        { l with db := db, broadcasts := l.broadcasts ++ [(t'.id, signed)] },
        .error (.transactionSendError e))
  | unmarked {t' : Transaction} {signed : SignedTransaction} {sent : TransactionSentWithRelayer}
      {db : Db} (hprepare : prepareSend l.queue.toSendConfig env t = (t', .ok (signed, sent)))
      (hattempt : l.db.transactionBroadcastAttempt l.queue.toSendConfig.relayer.id t' sent.hash
        sent.sentWithGas sent.sentWithBlobGas l.queue.toSendConfig.isLegacyTransactions
        env.nowSent = some db)
      (hbroadcast : env.broadcast signed = .ok ()) (hmark : env.markSent = false) :
      SendEnds l env t (t'.exposeAttempt sent env.nowSent,
        { l with db := db, broadcasts := l.broadcasts ++ [(t'.id, signed)] },
        .error .couldNotUpdateTransactionDb)
  | marked {t' : Transaction} {signed : SignedTransaction} {sent : TransactionSentWithRelayer}
      {db : Db} (hprepare : prepareSend l.queue.toSendConfig env t = (t', .ok (signed, sent)))
      (hattempt : l.db.transactionBroadcastAttempt l.queue.toSendConfig.relayer.id t' sent.hash
        sent.sentWithGas sent.sentWithBlobGas l.queue.toSendConfig.isLegacyTransactions
        env.nowSent = some db)
      (hbroadcast : env.broadcast signed = .ok ()) (hmark : env.markSent = true) :
      SendEnds l env t ({ t'.exposeAttempt sent env.nowSent with status := .inmempool },
        { l with
          db := db.transactionSent sent.id sent.hash sent.sentWithGas sent.sentWithBlobGas
            l.queue.toSendConfig.isLegacyTransactions env.nowSent
          broadcasts := l.broadcasts ++ [(t'.id, signed)] }, .ok sent)

theorem send_ends (l : Locked) (env : SendEnv) (t : Transaction) :
    l.SendEnds env t (l.send env t) := by
  unfold send sendTransaction
  rcases hp : prepareSend l.queue.toSendConfig env t with ⟨t', e | ⟨signed, sent⟩⟩
  · exact .unprepared hp
  · dsimp only
    unfold persistAndBroadcast
    dsimp only
    split
    · exact .unrecorded hp
    · rename_i db hpersist
      split at hpersist
      · split
        · rename_i e hbroadcast
          exact .refused hp hpersist hbroadcast
        · rename_i hbroadcast
          by_cases hmark : env.markSent = true
          · rw [if_pos hmark]
            exact .marked hp hpersist hbroadcast hmark
          · rw [if_neg hmark]
            exact .unmarked hp hpersist hbroadcast (Bool.eq_false_of_not_eq_true hmark)
      · cases hpersist

/-- `recover_nonce_synchronization` only collects evidence; memory stays unchanged. -/
def recoverNonceSynchronization (l : Locked) (clients : List RpcClient) : Except String ℕ :=
  (pendingNonceAcrossClients clients).map fun onchain =>
    max onchain l.queue.nonceManager.getCurrentNonce

/-- `persist_then_advance_transaction_nonce` after its write has been served. -/
def advanceTransactionNonce (l : Locked) (id : TransactionId) (newNonce : ℕ) : Locked :=
  { l with
    db := l.db.transactionUpdateNonce id newNonce
    queue := { l.queue with
      nonceManager := l.queue.nonceManager.advanceAfterPersistedReservation newNonce } }

end Locked
end Rrelayer
