import Rrelayer.SystemEffect
import Rrelayer.TransactionCache

/-! Coherence of the transaction cache over runs of queue operations and reads, interleaved at every
statement and invalidation. -/
namespace Rrelayer

open ReadThrough (State)

/-- A statement within one transaction changes no other row. -/
theorem Db.Within.changes {db db' : Db} {id : TransactionId}
    (h : db.Within (fun x _ => x = id) db') {x : TransactionId}
    (hx : db'.getTransaction x ≠ db.getTransaction x) : x = id := by
  by_contra hne
  refine hx ?_
  unfold Db.getTransaction
  rw [h.row_eq fun _ => hne]

namespace Locked

variable (l : Locked)

/-- One statement for a transaction that is invalidated right after it. -/
theorem stored_refreshes {db db' : Db} {id : TransactionId}
    (h : db.Within (fun x _ => x = id) db') :
    State.Refreshes db.getTransaction [db'.stored, .invalidate id] :=
  ⟨fun x hx => by rw [h.changes hx]; simp, trivial⟩

theorem sendMoves_changes (env : SendEnv) (t : Transaction) :
    State.Changes (· = t.id) l.db.getTransaction (l.sendMoves env t) := by
  unfold sendMoves
  have hprepare := prepareSend_spec l.queue.toSendConfig env t
  dsimp only
  rcases hp : prepareSend l.queue.toSendConfig env t with ⟨t', e | ⟨signed, sent⟩⟩
  · trivial
  · rw [hp] at hprepare
    obtain ⟨hslot, hsigned⟩ := hprepare
    have hfor := hsigned signed sent rfl
    dsimp only
    split
    · trivial
    · rename_i db hpersist
      have hattempt : l.db.Within (fun x _ => x = t.id) db := by
        split at hpersist
        · exact Db.transactionBroadcastAttempt_within (t := t') hslot.id hpersist
        · cases hpersist
      refine ⟨fun x hx => hattempt.changes hx, ?_⟩
      split
      · trivial
      · split
        · refine ⟨fun x hx => ?_, trivial⟩
          exact (Db.transactionSent_within (n := t.nonce) hfor.id).changes hx
        · trivial

section Admission

variable (env : AdmissionEnv)

theorem admissionFailedMoves_refreshes (t : Transaction) (error : AddTransactionError) :
    State.Refreshes l.db.getTransaction (l.admissionFailedMoves env t error) := by
  unfold admissionFailedMoves savedMoves
  split
  · rename_i db hsaved
    split at hsaved
    · exact stored_refreshes (Db.transactionFailedOnSend_within (by exact rfl) hsaved)
    · cases hsaved
  · trivial

theorem reserveAndSaveMoves_refreshes (t : Transaction) (gasLimit : GasLimit) :
    State.Refreshes l.db.getTransaction (l.reserveAndSaveMoves env t gasLimit) := by
  unfold reserveAndSaveMoves savedMoves
  split
  · rename_i db hsaved
    unfold saveAdmitted at hsaved
    split at hsaved
    · exact stored_refreshes (Db.saveTransaction_within (by exact rfl) hsaved)
    · cases hsaved
  · trivial

theorem admitNewMoves_refreshes (toSend : TransactionToSend) (onchainNonce : ℕ) :
    State.Refreshes l.db.getTransaction (l.admitNewMoves env toSend onchainNonce) := by
  unfold admitNewMoves
  dsimp only
  split
  · trivial
  · split
    · exact l.admissionFailedMoves_refreshes env _ _
    · exact l.reserveAndSaveMoves_refreshes env _ _

/-- An admission invalidates the one row it may write. -/
theorem addMoves_refreshes (toSend : TransactionToSend) :
    State.Refreshes l.db.getTransaction (l.addMoves env toSend) := by
  unfold addMoves
  split
  · trivial
  · trivial
  · split
    · trivial
    · split
      · trivial
      · split
        · trivial
        · rename_i onchainNonce _
          exact admitNewMoves_refreshes { l with
            queue := { l.queue with
              nonceManager := l.queue.nonceManager.syncWithOnchainNonce onchainNonce } }
            env toSend onchainNonce

end Admission

/-- A send invalidates nothing. -/
theorem sendMoves_stored (env : SendEnv) (t : Transaction) (x : TransactionId) :
    ReadThrough.Move.invalidate x ∉ l.sendMoves env t := by
  unfold sendMoves
  dsimp only
  split
  · simp
  · split
    · simp
    · split
      · simp
      · split
        · simp
        · simp

/-- A confirmation invalidates the row it writes. -/
theorem minedMoves_refreshes (env : MinedEnv) :
    State.Refreshes l.db.getTransaction (l.minedMoves env) := by
  unfold minedMoves
  split
  · trivial
  · split
    · trivial
    · split
      · trivial
      · split
        · unfold confirmMoves
          split
          · trivial
          · split
            · trivial
            · trivial
            · split
              · exact stored_refreshes (Db.transactionConfirmed_within (n := 0) rfl)
              · trivial
        · trivial

/-- The rows of a resolved race are each invalidated. -/
theorem resolveInmempoolMoves_refreshes (env : InmempoolEnv) (t : Transaction) (receipt : Receipt) :
    State.Refreshes l.db.getTransaction (l.resolveInmempoolMoves env t receipt) := by
  unfold resolveInmempoolMoves
  split
  · trivial
  · rename_i r queue _
    unfold saveResolutionMoves
    dsimp only
    split
    · split
      · trivial
      · have hwinner := stored_refreshes (@Db.transactionMined_within (fun x _ => x = r.winner.id) l.db
          r.winner receipt env.nowWrite rfl)
        split
        · exact hwinner
        · rename_i loser _
          split
          · exact hwinner
          · exact hwinner.append (stored_refreshes (Db.transactionUpdate_within rfl))
    · split
      · trivial
      · exact stored_refreshes (Db.transactionExpired_within (n := 0) rfl)
    · split
      · trivial
      · exact stored_refreshes (Db.updateTransactionFailed_within (n := 0) rfl)
    · trivial

/-- An edit of a pending transaction invalidates the row it writes. -/
theorem rewriteMoves_refreshes (env : CompeteEnv) (t : Transaction) :
    State.Refreshes l.db.getTransaction (l.rewriteMoves env t.id t) := by
  unfold rewriteMoves
  split
  · exact stored_refreshes (Db.transactionUpdate_within rfl)
  · trivial

/-- So does a cancelled or replaced pending transaction. -/
theorem cancelMoves_refreshes (env : CompeteEnv) {id : TransactionId} {t : Transaction}
    (h : l.queue.getEditableTransactionById id = some (.pending t)) :
    State.Refreshes l.db.getTransaction (l.cancelMoves env id) := by
  obtain rfl := (TransactionsQueue.getEditable_pending h).2
  unfold cancelMoves
  rw [h]
  dsimp only
  split
  · trivial
  · split
    · trivial
    · exact l.rewriteMoves_refreshes env (l.cancelledPending t)

theorem replaceMoves_refreshes (env : CompeteEnv) (request : RelayTransactionRequest)
    {id : TransactionId} {t : Transaction}
    (h : l.queue.getEditableTransactionById id = some (.pending t)) :
    State.Refreshes l.db.getTransaction (l.replaceMoves env id request) := by
  obtain rfl := (TransactionsQueue.getEditable_pending h).2
  unfold replaceMoves
  rw [h]
  dsimp only
  split
  · trivial
  · split
    · trivial
    · split
      · trivial
      · unfold replacePendingMoves
        split
        · trivial
        · rename_i blobs _
          exact l.rewriteMoves_refreshes env (transactionReplace request t blobs)

/-- An accepted bump invalidates the row its send writes. -/
theorem bumpMoves_refreshes {env : InmempoolEnv} {t : Transaction}
    {sent : TransactionSentWithRelayer} (h : (l.send env.send t).2.2 = .ok sent) :
    State.Refreshes l.db.getTransaction (l.bumpMoves env t) := by
  have hid := (l.send_spec env.send t).id
  have hchanges := l.sendMoves_changes env.send t
  unfold bumpMoves
  rcases hsend : l.send env.send t with ⟨bumped, l', e | sent'⟩
  · rw [hsend] at h
    cases h
  · rw [hsend] at hid
    dsimp only at hid ⊢
    rw [hid]
    exact hchanges.refreshes

/-- A pass over the front of the in-mempool queue, unless its bump is refused. -/
theorem inmempoolMoves_refreshes {env : InmempoolEnv}
    (h : ∀ t ∈ l.queue.getNextInmempoolTransaction, ∀ hash ∈ t.knownTransactionHash,
      env.pollReceipt hash = .ok none → l.bumpDue env t = true →
        ∃ sent, (l.send env.send t).2.2 = .ok sent) :
    State.Refreshes l.db.getTransaction (l.inmempoolMoves env) := by
  unfold inmempoolMoves
  rcases hnext : l.queue.getNextInmempoolTransaction with _ | t
  · trivial
  · dsimp only
    split
    · trivial
    · rcases hhash : t.knownTransactionHash with _ | hash
      · trivial
      · dsimp only
        rcases hpoll : env.pollReceipt hash with e | _ | receipt
        · trivial
        · dsimp only
          split
          · rename_i hdue
            obtain ⟨sent, hsent⟩ := h t hnext hash hhash hpoll hdue
            exact l.bumpMoves_refreshes hsent
          · trivial
        · exact l.resolveInmempoolMoves_refreshes env t receipt

section Pending

variable (env : PendingEnv) (t : Transaction)

/-- The steps for one transaction invalidate it at the end, or nothing at all. -/
def EndsFresh (db : Db) (id : TransactionId) (moves : List CacheMove) : Prop :=
  (∀ x, ReadThrough.Move.invalidate x ∉ moves) ∨
    ∃ first, moves = first ++ [.invalidate id] ∧
      State.Changes (· = id) db.getTransaction first

theorem endsFresh_nil (db : Db) (id : TransactionId) : EndsFresh db id [] := .inl fun _ => by simp

theorem moveSentMoves_endsFresh (sent : TransactionSentWithRelayer) :
    EndsFresh l.db t.id (l.moveSentMoves env t sent) := by
  unfold moveSentMoves
  split
  · exact endsFresh_nil _ _
  · exact .inr ⟨[], rfl, trivial⟩

/-- A statement for the transaction before such steps. -/
theorem EndsFresh.cons {db db' : Db} {id : TransactionId} {moves : List CacheMove}
    (h : EndsFresh db' id moves) (hwithin : db.Within (fun x _ => x = id) db') :
    EndsFresh db id (db'.stored :: moves) := by
  rcases h with hnone | ⟨first, rfl, hfirst⟩
  · exact .inl fun x hx => hnone x ((List.mem_cons.mp hx).resolve_left (by simp))
  · exact .inr ⟨db'.stored :: first, rfl, fun x hx => hwithin.changes hx, hfirst⟩

theorem recoverPendingMoves_endsFresh (attempt : RecordedTransactionAttempt)
    (gas : GasPriceResult) : EndsFresh l.db t.id (l.recoverPendingMoves env t attempt gas) := by
  unfold recoverPendingMoves
  split
  · have hwithin := @Db.recoverLanded_within (fun x _ => x = t.id) l.db t.id 0 l.queue.relayer.id
      attempt.hash gas attempt.sentWithBlobGas l.queue.isLegacyTransactions env.nowWrite rfl
    rcases hrecovered : l.db.recoverLandedTransactionAttempt l.queue.relayer.id t.id attempt.hash
      gas attempt.sentWithBlobGas l.queue.isLegacyTransactions env.nowWrite with ⟨_ | _, db⟩
    · exact endsFresh_nil _ _
    · rw [hrecovered] at hwithin
      exact (moveSentMoves_endsFresh { l with db := db } env t _).cons hwithin
  · exact endsFresh_nil _ _

theorem pendingConflictMoves_endsFresh :
    EndsFresh l.db t.id (l.pendingConflictMoves env t) := by
  unfold pendingConflictMoves
  dsimp only
  split
  · exact endsFresh_nil _ _
  · split
    · exact endsFresh_nil _ _
    · split
      · exact endsFresh_nil _ _
      · unfold reassignPendingMoves
        split
        · exact endsFresh_nil _ _
        · split
          · exact (endsFresh_nil _ _).cons (Db.transactionUpdateNonce_within rfl)
          · exact endsFresh_nil _ _
      · split
        · exact endsFresh_nil _ _
        · split
          · exact endsFresh_nil _ _
          · unfold resolvePendingMoves
            split
            · exact (moveSentMoves_endsFresh { l with db := _ } env t _).cons
                (Db.transactionSent_within (n := 0) rfl)
            · exact endsFresh_nil _ _
          · exact l.recoverPendingMoves_endsFresh env t _ _

theorem pendingFailedMoves_endsFresh (error : TransactionQueueSendTransactionError) :
    EndsFresh l.db t.id (l.pendingFailedMoves env t error) := by
  have hcloseOut (reason : String) : EndsFresh l.db t.id (l.closeOutMoves env t reason) := by
    unfold closeOutMoves
    split
    · exact .inr ⟨[_], rfl, fun x hx => (Db.transactionUpdate_within rfl).changes hx, trivial⟩
    · exact endsFresh_nil _ _
  unfold pendingFailedMoves
  split
  · split
    · exact hcloseOut _
    · exact endsFresh_nil _ _
  · split
    · exact hcloseOut _
    · exact l.pendingConflictMoves_endsFresh env t
    · exact endsFresh_nil _ _
  · exact endsFresh_nil _ _

theorem EndsFresh.append {db db' : Db} {id : TransactionId} {first rest : List CacheMove}
    (h : EndsFresh db' id rest) (hrows : db.Through first db')
    (hchanges : State.Changes (· = id) db.getTransaction first)
    (hstored : ∀ x, ReadThrough.Move.invalidate x ∉ first) : EndsFresh db id (first ++ rest) := by
  rcases h with hnone | ⟨middle, rfl, hmiddle⟩
  · refine .inl fun x hx => ?_
    rcases List.mem_append.mp hx with hx | hx
    · exact hstored x hx
    · exact hnone x hx
  · rw [← hrows] at hmiddle
    exact .inr ⟨first ++ middle, (List.append_assoc ..).symm, hchanges.append hmiddle⟩

/-- Such steps refresh the cache as soon as they invalidate anything. -/
theorem EndsFresh.refreshes {db : Db} {id x : TransactionId} {moves : List CacheMove}
    (h : EndsFresh db id moves) (hx : ReadThrough.Move.invalidate x ∈ moves) :
    State.Refreshes db.getTransaction moves := by
  rcases h with hnone | ⟨first, rfl, hfirst⟩
  · exact absurd hx (hnone x)
  · exact hfirst.refreshes

/-- A pending pass that invalidates its head at all does so after its last statement. -/
theorem pendingMoves_endsFresh : ∃ id, EndsFresh l.db id (l.pendingMoves env) := by
  unfold pendingMoves
  split
  · exact ⟨0, endsFresh_nil _ _⟩
  · rcases l.queue.getNextPendingTransaction with _ | t
    · exact ⟨0, endsFresh_nil _ _⟩
    · dsimp only
      split
      · exact ⟨0, endsFresh_nil _ _⟩
      · have hid := (l.send_spec env.send (l.pendingCopy env t)).id
        refine ⟨(l.pendingCopy env t).id, EndsFresh.append ?_
          (l.sendMoves_through env.send (l.pendingCopy env t))
          (l.sendMoves_changes env.send (l.pendingCopy env t))
          (l.sendMoves_stored env.send (l.pendingCopy env t))⟩
        rw [← hid]
        rcases l.send env.send (l.pendingCopy env t) with ⟨t', l', e | sent⟩
        · exact l'.pendingFailedMoves_endsFresh env t' e
        · exact l'.moveSentMoves_endsFresh env t' sent

/-- A send that fails before an attempt is signed writes nothing. -/
theorem sendMoves_unsent {env : SendEnv} {t : Transaction}
    {error : TransactionQueueSendTransactionError} (h : (l.send env t).2.2 = .error error)
    (hsent : ∀ e, error ≠ .transactionSendError e) (hwritten : error ≠ .couldNotUpdateTransactionDb) :
    l.sendMoves env t = [] := by
  have hends := l.send_ends env t
  generalize l.send env t = o at h hends
  cases hends with
  | unprepared hp =>
    unfold sendMoves
    dsimp only
    rw [hp]
  | unrecorded | unmarked =>
    cases h
    exact absurd rfl hwritten
  | refused =>
    cases h
    exact absurd rfl (hsent _)
  | marked => cases h

/-- The send of the head is accepted, ends in a permanent rejection that can be written down, or fails
before an attempt is signed. -/
def HeadSettled (l : Locked) (env : PendingEnv) (t : Transaction) : Prop :=
  match (l.send env.send (l.pendingCopy env t)).2.2 with
  | .ok _ => True
  | .error (.transactionSendError e) => errorClass e = .permanentRejection ∧ env.write = true
  | .error .couldNotUpdateTransactionDb => False
  | .error _ => True

/-- The steps after a settled send are none, or they invalidate the head. -/
theorem settledMoves {t head : Transaction} {ts : List Transaction}
    (hhead : l.queue.pendingTransactions = head :: ts) (hid : t.id = head.id) :
    (∀ sent, sent.id = t.id →
        ReadThrough.Move.invalidate t.id ∈ l.moveSentMoves env t sent) ∧
      ∀ error, errorClass error = .permanentRejection → env.write = true →
        ReadThrough.Move.invalidate t.id ∈
          l.pendingFailedMoves env t (.transactionSendError error) := by
  constructor
  · intro sent hsent
    unfold moveSentMoves TransactionsQueue.movePendingToInmempool
    rw [hhead]
    simp [hsent, hid]
  · intro error hrejected hwrite
    unfold pendingFailedMoves closeOutMoves
    simp [hrejected, hwrite]

/-- Nothing is written for a head that is not settled by an attempt, or the head is invalidated. -/
theorem pendingFailedMoves_unsent {error : TransactionQueueSendTransactionError}
    (hsent : ∀ e, error ≠ .transactionSendError e) :
    l.pendingFailedMoves env t error = [] ∨
      ReadThrough.Move.invalidate t.id ∈ l.pendingFailedMoves env t error := by
  cases error with
  | transactionEstimateGasError error =>
    dsimp only [pendingFailedMoves]
    split
    · unfold closeOutMoves
      split
      · simp
      · exact .inl rfl
    · exact .inl rfl
  | transactionSendError error => exact absurd rfl (hsent error)
  | _ => exact .inl rfl

theorem headSettled_of_sent {t : Transaction} {sent : TransactionSentWithRelayer}
    (h : (l.send env.send (l.pendingCopy env t)).2.2 = .ok sent) : l.HeadSettled env t := by
  unfold HeadSettled
  rw [h]
  trivial

/-- A pending pass over a settled head invalidates what it writes. -/
theorem pendingMoves_refreshes (h : l.queue.relayer.paused = false → env.guard = true →
      ∀ t ∈ l.queue.getNextPendingTransaction, l.HeadSettled env t) :
    State.Refreshes l.db.getTransaction (l.pendingMoves env) := by
  have hends := l.pendingMoves_endsFresh env
  suffices hfresh : l.pendingMoves env = [] ∨
      ∃ x, ReadThrough.Move.invalidate x ∈ l.pendingMoves env by
    rcases hfresh with hnone | ⟨x, hx⟩
    · rw [hnone]
      trivial
    · obtain ⟨id, hends⟩ := hends
      exact hends.refreshes hx
  unfold pendingMoves
  split
  · exact .inl rfl
  rename_i hactive
  rcases hnext : l.queue.getNextPendingTransaction with _ | t
  · exact .inl rfl
  dsimp only
  split
  · exact .inl rfl
  rename_i hserved
  have hsettled := h (by simpa using hactive) (by simpa using hserved) t hnext
  have hspec := l.send_spec env.send (l.pendingCopy env t)
  have hunsent := @sendMoves_unsent l env.send (l.pendingCopy env t)
  obtain ⟨ts, hpending⟩ := TransactionsQueue.getNextPending_some hnext
  have hcopy := (l.pendingCopy_slot env t).1
  unfold HeadSettled at hsettled
  rcases hsend : l.send env.send (l.pendingCopy env t) with ⟨t', l', e | sent⟩
  · rw [hsend] at hsettled hunsent hspec
    have hmoves := settledMoves l' env (t := t') ((congrArg _ hspec.queue).trans hpending)
      (hspec.id.trans hcopy)
    dsimp only at hsettled hunsent ⊢
    split at hsettled
    · rename_i hok
      cases hok
    · rename_i error herror
      cases herror
      exact .inr ⟨t'.id, List.mem_append_right _ (hmoves.2 error hsettled.1 hsettled.2)⟩
    · exact hsettled.elim
    · rename_i error hnotSent hnotWritten herror
      cases herror
      have hsent : ∀ m, e ≠ .transactionSendError m := by
        rintro m rfl
        exact hnotSent m rfl
      have hwritten : e ≠ .couldNotUpdateTransactionDb := by
        rintro rfl
        exact hnotWritten rfl
      rw [hunsent rfl hsent hwritten, List.nil_append]
      exact (l'.pendingFailedMoves_unsent env t' hsent).imp_right fun hx => ⟨_, hx⟩
  · rw [hsend] at hspec
    have hmoves := settledMoves l' env (t := t') ((congrArg _ hspec.queue).trans hpending)
      (hspec.id.trans hcopy)
    have hsent : sent.id = t'.id := (hspec.ok sent rfl).1.trans hspec.id.symm
    exact .inr ⟨t'.id, List.mem_append_right _ (hmoves.1 sent hsent)⟩

end Pending

end Locked

/-- What an operation does to the rows and the cache; a restart begins a new process instead. -/
def TransactionsQueues.cacheMoves (s : TransactionsQueues) (e : Event) : List CacheMove :=
  match s.lock with
  | none => []
  | some l => match e with
    | .add env toSend => l.addMoves env toSend
    | .cancel env id => l.cancelMoves env id
    | .replace env request id => l.replaceMoves env id request
    | .processPending env => l.pendingMoves env
    | .processInmempool env => l.inmempoolMoves env
    | .processMined env => l.minedMoves env
    | .restart _ | .included _ => []

/-- The listed steps end in the rows the operation ends in. -/
theorem TransactionsQueues.cacheMoves_through (s : TransactionsQueues) {e : Event}
    (he : e.isRestart = false) : s.db.Through (s.cacheMoves e) (s.step e).db := by
  unfold cacheMoves
  rcases hlock : s.lock with _ | l
  · cases e with
    | restart env => cases he
    | included signed => exact congrArg Db.getTransaction (s.includeSigned_db signed).symm
    | _ =>
      simp only [step, locked, hlock]
      rfl
  · have hdb := (lock_some hlock).2.1
    rw [← hdb]
    cases e with
    | restart env => cases he
    | included signed =>
      rw [hdb]
      exact congrArg Db.getTransaction (s.includeSigned_db signed).symm
    | add env toSend =>
      simp only [step, locked, hlock, unlock]
      exact l.addMoves_through env toSend
    | cancel env id =>
      simp only [step, locked, hlock, unlock]
      exact l.cancelMoves_through env id
    | replace env request id =>
      simp only [step, locked, hlock, unlock]
      exact l.replaceMoves_through env id request
    | processPending env =>
      simp only [step, locked, hlock, unlock]
      exact l.pendingMoves_through env
    | processInmempool env =>
      simp only [step, locked, hlock, unlock]
      exact l.inmempoolMoves_through env
    | processMined env =>
      simp only [step, locked, hlock, unlock]
      exact l.minedMoves_through env

/-- The operations that leave nothing stale by themselves, by what they find and are answered: an
admission, a confirmation, an edit of a pending transaction, a pending pass whose head is settled, and
an in-mempool pass whose bump, if any, is accepted. -/
def TransactionsQueues.RefreshesAlone (s : TransactionsQueues) (e : Event) : Prop :=
  ∀ l ∈ s.lock, match e with
    | .add _ _ | .processMined _ | .restart _ | .included _ => True
    | .cancel _ id | .replace _ _ id =>
        ∃ t, l.queue.getEditableTransactionById id = some (.pending t)
    | .processPending env => l.queue.relayer.paused = false → env.guard = true →
        ∀ t ∈ l.queue.getNextPendingTransaction, l.HeadSettled env t
    | .processInmempool env =>
        ∀ t ∈ l.queue.getNextInmempoolTransaction, ∀ hash ∈ t.knownTransactionHash,
          env.pollReceipt hash = .ok none → l.bumpDue env t = true →
            ∃ sent, (l.send env.send t).2.2 = .ok sent

theorem TransactionsQueues.RefreshesAlone.refreshes {s : TransactionsQueues} {e : Event}
    (h : s.RefreshesAlone e) : State.Refreshes s.db.getTransaction (s.cacheMoves e) := by
  unfold cacheMoves
  rcases hlock : s.lock with _ | l
  · trivial
  · have halone := h l hlock
    have hdb := (lock_some hlock).2.1
    rw [← hdb]
    cases e with
    | add env toSend => exact l.addMoves_refreshes env toSend
    | cancel env id =>
      obtain ⟨t, ht⟩ := halone
      exact l.cancelMoves_refreshes env ht
    | replace env request id =>
      obtain ⟨t, ht⟩ := halone
      exact l.replaceMoves_refreshes env request ht
    | processPending env => exact l.pendingMoves_refreshes env halone
    | processInmempool env => exact l.inmempoolMoves_refreshes halone
    | processMined env => exact l.minedMoves_refreshes env
    | restart env => trivial
    | included signed => trivial

abbrev ReadId := ℕ
abbrev CacheState := ReadThrough.State TransactionId Transaction ReadId

/-- The system with the transaction cache of its process. `queues` is the system as the operation
that runs will leave it; `cached.rows` are the rows as they are now. -/
structure CachedQueues where
  queues : TransactionsQueues
  cached : CacheState

/-- An operation that begins, or a step of a reader, of the clock or of the running operation. -/
inductive CachedEvent where
  | operation (e : Event)
  | cache (e : ReadThrough.Event TransactionId ReadId)

namespace CachedQueues

/-- A process that has just started. -/
def started (queues : TransactionsQueues) : CachedQueues where
  queues := queues
  cached := ⟨queues.db.getTransaction, fun _ => none, fun _ => none, []⟩

/-- The next operation waits for the lock. -/
def step (s : CachedQueues) : CachedEvent → CachedQueues
  | .operation e =>
      match s.cached.running with
      | [] =>
          if e.isRestart then started (s.queues.step e)
          else ⟨s.queues.step e, { s.cached with running := s.queues.cacheMoves e }⟩
      | _ :: _ => s
  | .cache e => { s with cached := s.cached.step e }

abbrev run (s : CachedQueues) (es : List CachedEvent) : CachedQueues :=
  EventMachine.run step s es

/-- The condition on a step: a statement's row is not answered from the cache or is invalidated
later in the operation, and a read fills in a current row or comes before an invalidation. -/
def Kept (s : CachedQueues) : CachedEvent → Prop
  | .operation _ => True
  | .cache e => s.cached.Kept e

/-- Entries that are not current are still to be invalidated, and the rows end as the operation
leaves them. -/
structure InSync (s : CachedQueues) : Prop where
  coherent : s.cached.Coherent
  rows : State.rowsAfter s.cached.rows s.cached.running = s.queues.db.getTransaction

theorem InSync.rows_quiet {s : CachedQueues} (h : s.InSync) (hquiet : s.cached.running = []) :
    s.cached.rows = s.queues.db.getTransaction := by
  rw [← h.rows, hquiet]
  rfl

theorem started_inSync (queues : TransactionsQueues) : (started queues).InSync where
  coherent := fun _ => .inl (.inl rfl)
  rows := rfl

theorem step_inSync {s : CachedQueues} (h : s.InSync) (e : CachedEvent) :
    (s.step e).cached.Coherent ↔ s.Kept e := by
  cases e with
  | operation e =>
    refine iff_of_true ?_ trivial
    dsimp only [step]
    split
    · rename_i hquiet
      split
      · exact (started_inSync _).coherent
      · intro id
        rcases h.coherent id with hcurrent | hpending
        · exact .inl hcurrent
        · rw [hquiet] at hpending
          cases hpending
    · exact h.coherent
  | cache e => exact State.step_coherent_iff h.coherent e

theorem InSync.step {s : CachedQueues} (h : s.InSync) {e : CachedEvent} (hkept : s.Kept e) :
    (s.step e).InSync where
  coherent := (step_inSync h e).mpr hkept
  rows := by
    cases e with
    | operation e =>
      dsimp only [CachedQueues.step]
      split
      · rename_i hquiet
        split
        · rfl
        · rename_i hrestart
          dsimp only
          rw [h.rows_quiet hquiet]
          exact s.queues.cacheMoves_through (by simpa using hrestart)
      · exact h.rows
    | cache e =>
      dsimp only [CachedQueues.step]
      rw [State.step_rowsAfter, h.rows]

/-- What one step keeps, a run keeps; a step that breaks the condition leaves a stale entry. -/
theorem along_kept_iff {s : CachedQueues} (h : s.InSync) {es : List CachedEvent} :
    EventMachine.Along step Kept s es ↔
      ∀ before after, es = before ++ after → (s.run before).cached.Coherent := by
  constructor
  · rintro hkept before after rfl
    exact (hkept.invariant_prefix (fun _ _ hstep hbefore => hbefore.step hstep) h).coherent
  · intro hall
    induction es generalizing s with
    | nil => trivial
    | cons e es ih =>
      have hkept : s.Kept e := (step_inSync h e).mp (hall [e] es rfl)
      refine ⟨hkept, ih (h.step hkept) fun before after hes => ?_⟩
      exact hall (e :: before) after (by rw [hes]; rfl)

/-- The condition for whole operations: each invalidates every row it changes, after its last
change. -/
def Refreshing (s : CachedQueues) : CachedEvent → Prop
  | .operation e => e.isRestart = false →
      State.Refreshes s.queues.db.getTransaction (s.queues.cacheMoves e)
  | .cache (.fill r) => s.cached.Kept (.fill r)
  | .cache _ => True

theorem Refreshing.kept {s : CachedQueues} {e : CachedEvent} (h : s.Refreshing e)
    (hrefreshes : State.Refreshes s.cached.rows s.cached.running) : s.Kept e := by
  cases e with
  | operation e => trivial
  | cache e =>
    cases e with
    | fill r => exact h
    | advance => exact hrefreshes.kept
    | _ => trivial

theorem Refreshing.step {s : CachedQueues} {e : CachedEvent} (h : s.Refreshing e) (hs : s.InSync)
    (hrefreshes : State.Refreshes s.cached.rows s.cached.running) :
    State.Refreshes (s.step e).cached.rows (s.step e).cached.running := by
  cases e with
  | operation e =>
    dsimp only [CachedQueues.step]
    split
    · rename_i hquiet
      split
      · trivial
      · rename_i hrestart
        dsimp only
        rw [hs.rows_quiet hquiet]
        exact h (by simpa using hrestart)
    · exact hrefreshes
  | cache e => exact hrefreshes.step e

/-- Runs of refreshing operations keep the condition at every statement. -/
theorem kept_of_refreshing {s : CachedQueues} (h : s.InSync)
    (hrefreshes : State.Refreshes s.cached.rows s.cached.running) {es : List CachedEvent}
    (hes : EventMachine.Along step Refreshing s es) : EventMachine.Along step Kept s es := by
  apply hes.of_invariant (P := fun s =>
    s.InSync ∧ State.Refreshes s.cached.rows s.cached.running)
  · rintro s e he ⟨h, hrefreshes⟩
    exact ⟨h.step (he.kept hrefreshes), he.step h hrefreshes⟩
  · rintro s e he ⟨-, hrefreshes⟩
    exact he.kept hrefreshes
  · exact ⟨h, hrefreshes⟩

/-- An operation that leaves nothing stale by itself, or a step of a reader that fills in a current
row or one the running operation has still to invalidate. -/
def Alone (s : CachedQueues) : CachedEvent → Prop
  | .operation e => s.queues.RefreshesAlone e
  | .cache (.fill r) => s.cached.Kept (.fill r)
  | .cache _ => True

theorem kept_of_alone {s : CachedQueues} (h : s.InSync) (hquiet : s.cached.running = [])
    {es : List CachedEvent} (halone : EventMachine.Along step Alone s es) :
    EventMachine.Along step Kept s es := by
  have hrefreshes : State.Refreshes s.cached.rows s.cached.running := by
    rw [hquiet]
    trivial
  refine kept_of_refreshing h hrefreshes (halone.mono ?_)
  intro s e he
  cases e with
  | operation e => exact fun _ => TransactionsQueues.RefreshesAlone.refreshes he
  | cache e =>
    cases e with
    | fill r => exact he
    | _ => trivial

/-- Whenever no operation runs, a cached transaction is its row. -/
def NeverStale (s : CachedQueues) (es : List CachedEvent) : Prop :=
  ∀ before after, es = before ++ after → (s.run before).cached.running = [] →
    ∀ id t, (s.run before).cached.get id = some t →
      (s.run before).queues.db.getTransaction id = some t

end CachedQueues

/-- A run of operations that leave nothing stale by themselves, with timely reads between any two of
their steps, never leaves a stale entry. For every other run, the entries stay coherent along it
exactly when every step keeps the condition, and then none is stale either. -/
theorem transaction_cache_coherent {s : CachedQueues} (h : s.InSync) (es : List CachedEvent) :
    (s.cached.running = [] → EventMachine.Along CachedQueues.step CachedQueues.Alone s es →
      s.NeverStale es) ∧
    (EventMachine.Along CachedQueues.step CachedQueues.Kept s es ↔
      ∀ before after, es = before ++ after → (s.run before).cached.Coherent) ∧
    (EventMachine.Along CachedQueues.step CachedQueues.Kept s es → s.NeverStale es) := by
  have hnever : EventMachine.Along CachedQueues.step CachedQueues.Kept s es → s.NeverStale es := by
    rintro hkept before after rfl hquiet id t hget
    have hsync : (s.run before).InSync :=
      hkept.invariant_prefix (fun _ _ hstep hbefore => hbefore.step hstep) h
    rw [← hsync.rows_quiet hquiet]
    exact hsync.coherent.quiet hquiet hget
  refine ⟨?_, CachedQueues.along_kept_iff h, hnever⟩
  intro hquiet halone
  exact hnever (CachedQueues.kept_of_alone h hquiet halone)

/-- A read with nothing in between. -/
def readThrough (r : ReadId) (id : TransactionId) : List CachedEvent :=
  [.cache (.lookup r id), .cache (.fetch r), .cache (.fill r)]

/-- A payment is admitted and then read. -/
def readPayment : List CachedEvent :=
  [.operation (.add (servedAdd 0) (payment 0 5)), .cache .advance, .cache .advance] ++
    readThrough 0 0

def sentPass : PendingEnv := servedPending (.ok ()) (servedClient [] 0) []

/-- The payment is sent between two reads, and the second one finds the row as it was sent. -/
def readSent : List CachedEvent :=
  readPayment ++ [.operation (.processPending sentPass), .cache .advance, .cache .advance, .cache .advance] ++ readThrough 1 0

theorem transaction_cache_coherent_payment :
    ∃ t, ((CachedQueues.started freshRelayer).run readSent).cached.get 0 = some t ∧
      ((CachedQueues.started freshRelayer).run readSent).queues.db.getTransaction 0 = some t := by
  have halone : EventMachine.Along CachedQueues.step CachedQueues.Alone
      (CachedQueues.started freshRelayer) readSent := by
    refine ⟨fun _ _ => trivial, trivial, trivial, trivial, trivial, ?_, ?_, trivial, trivial, trivial,
      trivial, trivial, ?_, trivial⟩
    · rintro _ _ ⟨⟩
      exact .inr (.inl rfl)
    · intro l hl _ _ t ht
      have hsent : ∀ l ∈ ((CachedQueues.started freshRelayer).run readPayment).queues.lock,
          ∀ t ∈ l.queue.getNextPendingTransaction,
            ((l.send sentPass.send (l.pendingCopy sentPass t)).2.2.toOption).isSome = true := by
        decide +kernel
      obtain ⟨sent, hok⟩ := Option.isSome_iff_exists.mp (hsent l hl t ht)
      rcases hanswer : (l.send sentPass.send (l.pendingCopy sentPass t)).2.2 with e | sent'
      · rw [hanswer] at hok
        cases hok
      · exact l.headSettled_of_sent sentPass hanswer
    · rintro _ _ ⟨⟩
      exact .inr (.inl rfl)
  have hread : ((CachedQueues.started freshRelayer).run readSent).cached.running.isEmpty ∧
      (((CachedQueues.started freshRelayer).run readSent).cached.get 0).isSome := by
    decide +kernel
  obtain ⟨hquiet, hget⟩ := hread
  obtain ⟨t, ht⟩ := Option.isSome_iff_exists.mp hget
  have hcoherent := (transaction_cache_coherent (CachedQueues.started_inSync freshRelayer)
    readSent).1 rfl halone
  exact ⟨t, ht, hcoherent readSent [] (List.append_nil readSent).symm
    (List.isEmpty_iff.mp hquiet) 0 t ht⟩

/-- The payment that was read is sent, and the node's answer is lost. -/
def lostAnswerRead : List CachedEvent :=
  readPayment ++ [.operation (.processPending
    (servedPending (.error "timeout") (servedClient [] 0) [])), .cache .advance]

theorem transaction_cache_coherent_fails :
    ¬ ∀ queues es, ((CachedQueues.started queues).run es).cached.running = [] →
      ∀ id t, ((CachedQueues.started queues).run es).cached.get id = some t →
        ((CachedQueues.started queues).run es).queues.db.getTransaction id = some t := by
  intro hcoherent
  have hrun : ((CachedQueues.started freshRelayer).run lostAnswerRead).cached.running.isEmpty ∧
      ∃ t ∈ ((CachedQueues.started freshRelayer).run lostAnswerRead).cached.get 0,
        ((CachedQueues.started freshRelayer).run lostAnswerRead).queues.db.getTransaction 0 ≠
          some t := by
    decide +kernel
  obtain ⟨hquiet, t, ht, hstale⟩ := hrun
  exact hstale (hcoherent freshRelayer lostAnswerRead (List.isEmpty_iff.mp hquiet) 0 t ht)

end Rrelayer
