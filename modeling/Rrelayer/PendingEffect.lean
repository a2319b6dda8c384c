import Rrelayer.Effects
import Rrelayer.ProcessPending

/-! The pending pass as an action of the book, read off the pass's inputs. -/
namespace Rrelayer
namespace Locked

section Pending

variable {l : Locked} {env : PendingEnv} {t head : Transaction} {ts : List Transaction}

/-- Whether a recovery writes the landed attempt it found. -/
def adoptsAttempt (l : Locked) (env : PendingEnv) (id : TransactionId)
    (attempt : RecordedTransactionAttempt) : Bool :=
  match attempt.sentWithGas with
  | none => false
  | some gas =>
      match env.getReceipt attempt.hash with
      | .error _ => false
      | .ok (some _) => env.write
      | .ok none => env.write && (l.db.recoverLandedTransactionAttempt l.queue.relayer.id id
          attempt.hash gas attempt.sentWithBlobGas l.queue.isLegacyTransactions env.nowWrite).1

/-- The action of a pending pass whose send was refused over its nonce. -/
def pendingConflictAction (l : Locked) (env : PendingEnv) (id : TransactionId) : Action :=
  let attempts := l.db.getRecordedTransactionAttempts id
  if !env.loadAttempts || attempts.isEmpty then .keep
  else match findLandedAttempt env.clients attempts with
    | .error _ => .keep
    | .ok none =>
        match l.recoverNonceSynchronization env.clients with
        | .error _ => .keep
        | .ok newNonce => if env.write then .movePending id newNonce else .keep
    | .ok (some attempt) =>
        if l.adoptsAttempt env id attempt then .launch id attempt.hash else .keep

/-- The head of the pending queue as a pass that is not held back sends it. -/
def pendingHead (l : Locked) (env : PendingEnv) : Option Transaction :=
  if l.queue.relayer.paused || !env.guard then none else l.queue.getNextPendingTransaction

def pendingAction (l : Locked) (env : PendingEnv) : Action :=
  match l.pendingHead env with
  | none => .keep
  | some t =>
      match l.send env.send (l.pendingCopy env t) with
      | (_, _, .ok sent) => .launch t.id sent.hash
      | (_, l, .error (.transactionSendError e)) =>
          if errorClass e = .nonceConflict then l.pendingConflictAction env t.id else .keep
      | (_, _, .error _) => .keep

theorem moveSent_effect {sent : TransactionSentWithRelayer}
    {result : ProcessResult ProcessPendingStatus} (hhead : l.queue.pendingTransactions = head :: ts)
    (hid : t.id = head.id) (hnonce : t.nonce = head.nonce) (hsent : sent.id = t.id) :
    l.Effect (.launch head.id sent.hash) (l.moveSent env t sent result).1 := by
  obtain ⟨q', hmove, hstep⟩ := TransactionsQueue.book_movePendingToInmempool sent
    env.nowMoved hhead hid hnonce hsent
  have hrelayer : q'.relayer = l.queue.relayer := by
    obtain ⟨_, _, -, -, -, rfl⟩ := TransactionsQueue.movePendingToInmempool_ok hmove
    rfl
  unfold moveSent
  rw [hmove]
  exact ⟨hstep, .refl _, ⟨[], by simp, by simp⟩, hrelayer⟩

theorem closeOut_effect {reason : String} (hhead : l.queue.pendingTransactions = head :: ts)
    (hid : t.id = head.id) (hnonce : t.nonce = head.nonce) :
    l.Effect .keep (l.closeOutPendingTransactionAsNoop env t reason).1 := by
  have hlive : (t.id, t.nonce) ∈ l.queue.book.live := by
    rw [hid, hnonce]
    exact head_mem_live hhead
  unfold closeOutPendingTransactionAsNoop
  dsimp only
  split
  · have hfind : l.queue.pendingTransactions.find? (·.id == (l.closedOut t reason).id) =
        some head := by
      rw [hhead]
      exact List.find?_cons_of_pos (p := fun u : Transaction => u.id == _)
        (beq_iff_eq.mpr hid.symm)
    have hslot : (l.closedOut t reason).slot = head.slot := Prod.ext hid hnonce
    have hbook := TransactionsQueue.book_updatePendingTransaction hfind hslot
    refine ⟨?_, Db.transactionUpdate_within (t := l.closedOut t reason) (.inl hlive),
      ⟨[], by simp, by simp⟩, rfl⟩
    show l.queue.book.Step .keep (l.queue.updatePendingTransaction _).book
    rw [hbook]
    exact .keep
  · exact .refl l

theorem reassignPending_effect {error : String} {m : ℕ}
    (hhead : l.queue.pendingTransactions = head :: ts) (hid : t.id = head.id)
    (hm : l.recoverNonceSynchronization env.clients = .ok m) (hwrite : env.write = true) :
    l.Effect (.movePending head.id m) (l.reassignPendingNonce env t error).1 := by
  have hnext := le_of_recoverNonceSynchronization hm
  unfold reassignPendingNonce
  rw [hm]
  dsimp only
  rw [if_pos hwrite, hid]
  set q : TransactionsQueue := (l.advanceTransactionNonce head.id m).queue with hq
  obtain ⟨hpending, hinmempool, hmanager⟩ :=
    TransactionsQueue.book_updatePendingTransactionNonce (q := q) (m := m) hhead
  refine ⟨?_, Db.transactionUpdateNonce_within (.inr ⟨rfl, rfl⟩),
    ⟨[], by simp [advanceTransactionNonce], by simp⟩, ?_⟩
  · have hbook : (q.updatePendingTransactionNonce head.id m).book =
        ⟨m + 1, (q.updatePendingTransactionNonce head.id m).book.pending, l.queue.book.inmempool⟩ := by
      have hnonce : (q.updatePendingTransactionNonce head.id m).nonceManager.nonce = m + 1 := by
        rw [hmanager]
        exact advanceTransactionNonce_next hnext
      show Book.mk _ _ _ = _
      rw [hnonce]
      exact congrArg _ hinmempool
    show l.queue.book.Step _ (q.updatePendingTransactionNonce head.id m).book
    rw [hbook]
    exact .movePending (n := head.nonce) (by simp [TransactionsQueue.book, hhead, Transaction.slot])
      hnext hpending
  · show (q.updatePendingTransactionNonce head.id m).relayer = _
    rw [TransactionsQueue.updatePendingTransactionNonce_relayer]
    rfl

/-- Adopting a recorded attempt moves the head under that attempt's hash. -/
theorem adopt_effect {attempt : RecordedTransactionAttempt} {gas : GasPriceResult} {db : Db}
    (hhead : l.queue.pendingTransactions = head :: ts) (hid : t.id = head.id)
    (hnonce : t.nonce = head.nonce)
    (hdb : l.db.Within (l.queue.book.Writes (.launch t.id attempt.hash)) db) :
    l.Effect (.launch t.id attempt.hash) ({ l with db := db }.moveSent env t
      (attemptSent t attempt gas) (.other .nonceSynchronized (some 100))).1 := by
  have hmove : Effect { l with db := db } (.launch head.id (attemptSent t attempt gas).hash)
      ({ l with db := db }.moveSent env t (attemptSent t attempt gas)
        (.other .nonceSynchronized (some 100))).1 := moveSent_effect hhead hid hnonce rfl
  rw [hid] at hdb ⊢
  exact .of_db hdb hmove

theorem resolvePending_effect {attempt : RecordedTransactionAttempt} {gas : GasPriceResult}
    (hhead : l.queue.pendingTransactions = head :: ts) (hid : t.id = head.id)
    (hnonce : t.nonce = head.nonce) :
    l.Effect (if env.write then .launch t.id attempt.hash else .keep)
      (l.resolvePendingTransactionMined env t attempt gas).1 := by
  unfold resolvePendingTransactionMined
  by_cases hwrite : env.write = true
  · simp only [hwrite, if_true]
    refine adopt_effect hhead hid hnonce (Db.transactionSent_within (n := t.nonce) (.inl ?_))
    rw [hid, hnonce]
    exact head_mem_live hhead
  · simp only [hwrite]
    exact .refl l

theorem recoverPending_effect {attempt : RecordedTransactionAttempt} {gas : GasPriceResult}
    (hhead : l.queue.pendingTransactions = head :: ts) (hid : t.id = head.id)
    (hnonce : t.nonce = head.nonce) :
    l.Effect (if env.write && (l.db.recoverLandedTransactionAttempt l.queue.relayer.id t.id
        attempt.hash gas attempt.sentWithBlobGas l.queue.isLegacyTransactions env.nowWrite).1
        then .launch t.id attempt.hash else .keep)
      (l.recoverPendingLandedAttempt env t attempt gas).1 := by
  have hdb : l.db.Within (l.queue.book.Writes (.launch t.id attempt.hash))
      (l.db.recoverLandedTransactionAttempt l.queue.relayer.id t.id attempt.hash gas
        attempt.sentWithBlobGas l.queue.isLegacyTransactions env.nowWrite).2 := by
    refine Db.recoverLanded_within (n := t.nonce) (.inl ?_)
    rw [hid, hnonce]
    exact head_mem_live hhead
  unfold recoverPendingLandedAttempt
  by_cases hwrite : env.write = true
  · rcases hrecover : l.db.recoverLandedTransactionAttempt l.queue.relayer.id t.id attempt.hash gas
      attempt.sentWithBlobGas l.queue.isLegacyTransactions env.nowWrite with ⟨_ | _, db⟩
    · simp only [hwrite, Bool.and_false, Bool.false_eq_true, if_false, if_true]
      exact .refl l
    · rw [hrecover] at hdb
      simp only [hwrite, Bool.and_self, if_true]
      exact adopt_effect hhead hid hnonce hdb
  · simp only [hwrite, Bool.false_and, Bool.false_eq_true, if_false]
    exact .refl l

theorem reassignPendingNonce_effect {error : String}
    (hhead : l.queue.pendingTransactions = head :: ts) (hid : t.id = head.id) :
    l.Effect (match l.recoverNonceSynchronization env.clients with
        | .error _ => .keep
        | .ok newNonce => if env.write then .movePending t.id newNonce else .keep)
      (l.reassignPendingNonce env t error).1 := by
  rcases hm : l.recoverNonceSynchronization env.clients with e | m
  · rw [reassignPendingNonce, hm]
    exact .refl l
  · dsimp only
    by_cases hwrite : env.write = true
    · rw [if_pos hwrite, hid]
      exact reassignPending_effect hhead hid hm hwrite
    · rw [if_neg hwrite, reassignPendingNonce, hm]
      dsimp only
      rw [if_neg hwrite]
      exact .refl l

/-- A refused pending send follows the action its attempts and the providers' answers give. -/
theorem pendingConflict_effect {error : String} (hhead : l.queue.pendingTransactions = head :: ts)
    (hid : t.id = head.id) (hnonce : t.nonce = head.nonce) :
    l.Effect (l.pendingConflictAction env t.id) (l.pendingNonceConflict env t error).1 := by
  unfold pendingNonceConflict pendingConflictAction
  dsimp only
  by_cases hload : env.loadAttempts = true
  · by_cases hempty : (l.db.getRecordedTransactionAttempts t.id).isEmpty = true
    · simp only [hload, hempty, Bool.not_true, Bool.or_true, Bool.false_eq_true, if_true, if_false]
      exact .refl l
    · simp only [hload, hempty, Bool.not_true, Bool.or_false, Bool.false_eq_true, if_false]
      rcases findLandedAttempt env.clients (l.db.getRecordedTransactionAttempts t.id) with
        e | _ | attempt
      · exact .refl l
      · exact reassignPendingNonce_effect hhead hid
      · dsimp only
        unfold adoptsAttempt
        rcases hgas : attempt.sentWithGas with _ | gas
        · exact .refl l
        · dsimp only
          rcases env.getReceipt attempt.hash with e | _ | receipt
          · exact .refl l
          · exact recoverPending_effect hhead hid hnonce
          · exact resolvePending_effect hhead hid hnonce
  · simp only [hload, Bool.not_false, Bool.true_or, if_true]
    exact .refl l

theorem pendingFailed_effect (env : PendingEnv) (error : TransactionQueueSendTransactionError)
    (hhead : l.queue.pendingTransactions = head :: ts) (hid : t.id = head.id)
    (hnonce : t.nonce = head.nonce) :
    l.Effect (match error with
        | .transactionSendError e =>
            if errorClass e = .nonceConflict then l.pendingConflictAction env t.id else .keep
        | _ => .keep)
      (l.pendingFailed env t error).1 := by
  cases error with
  | transactionSendError e =>
    dsimp only [pendingFailed]
    by_cases hclass : errorClass e = .nonceConflict
    · rw [if_pos hclass, hclass]
      exact pendingConflict_effect hhead hid hnonce
    · rw [if_neg hclass]
      split
      · exact .refl l
      · exact closeOut_effect hhead hid hnonce
      · exact .refl l
      · exact absurd (by assumption) hclass
      · exact .refl l
      · exact .refl l
  | transactionEstimateGasError e =>
    dsimp only [pendingFailed]
    split
    · exact closeOut_effect hhead hid hnonce
    · exact .refl l
  | gasPriceTooHigh | gasCalculationError | couldNotUpdateTransactionDb
  | sendTransactionGasPriceError | transactionConversionError | safeProxyError
  | noTransactionInQueue =>
    dsimp only [pendingFailed]
    exact .refl l

theorem pendingCopy_slot (l : Locked) (env : PendingEnv) (t : Transaction) :
    (l.pendingCopy env t).id = t.id ∧ (l.pendingCopy env t).nonce = t.nonce := by
  unfold pendingCopy
  split <;> exact ⟨rfl, rfl⟩

/-- A pending pass does to the book what its action says. -/
theorem processSinglePending_effect (l : Locked) (env : PendingEnv) :
    l.Effect (l.pendingAction env) (l.processSinglePending env).1 := by
  unfold pendingAction pendingHead processSinglePending
  by_cases hpaused : l.queue.relayer.paused = true
  · simp only [hpaused, Bool.true_or, if_true]
    exact .refl l
  simp only [hpaused, Bool.false_or, Bool.false_eq_true, if_false]
  cases hnext : l.queue.getNextPendingTransaction with
  | none =>
    simp only [ite_self]
    exact .refl l
  | some t =>
    obtain ⟨ts, hhead⟩ := TransactionsQueue.getNextPending_some hnext
    by_cases hguard : env.guard = true
    · simp only [hguard, Bool.not_true, Bool.false_eq_true, if_false]
      obtain ⟨hcopyId, hcopyNonce⟩ := pendingCopy_slot l env t
      have hspec := send_spec l env.send (l.pendingCopy env t)
      have hlive : ((l.pendingCopy env t).id, (l.pendingCopy env t).nonce) ∈ l.queue.book.live := by
        rw [hcopyId, hcopyNonce]
        exact head_mem_live hhead
      rcases hsend : l.send env.send (l.pendingCopy env t) with ⟨t', l', e | sent⟩
      · rw [hsend] at hspec
        have hid : t'.id = t.id := hspec.id.trans hcopyId
        have hnonce : t'.nonce = t.nonce := hspec.nonce.trans hcopyNonce
        have hhead' : l'.queue.pendingTransactions = t :: ts := by rw [hspec.queue]; exact hhead
        have hfailed := hspec.effect (.inl hlive) (.inl hlive)
          (pendingFailed_effect env e hhead' hid hnonce)
        rw [hid] at hfailed
        cases e <;> exact hfailed
      · rw [hsend] at hspec
        have hid : t'.id = t.id := hspec.id.trans hcopyId
        have hnonce : t'.nonce = t.nonce := hspec.nonce.trans hcopyNonce
        have hhead' : l'.queue.pendingTransactions = t :: ts := by rw [hspec.queue]; exact hhead
        have hsent : sent.id = t'.id := (hspec.ok sent rfl).1.trans hspec.id.symm
        exact hspec.effect (.inl hlive) (.inl hlive) (moveSent_effect hhead' hid hnonce hsent)
    · simp only [hguard, Bool.not_false, if_true]
      exact .refl l

theorem pendingConflictAction_newNonce {id : TransactionId} {m : ℕ}
    (h : m ∈ (l.pendingConflictAction env id).newNonce) :
    l.recoverNonceSynchronization env.clients = .ok m := by
  unfold pendingConflictAction at h
  dsimp only at h
  split at h
  · cases h
  · split at h
    · cases h
    · split at h
      · cases h
      · rename_i newNonce hrecover
        split at h
        · obtain rfl := Option.some.inj h
          exact hrecover
        · cases h
    · split at h <;> cases h

theorem pendingAction_newNonce {m : ℕ} (h : m ∈ (l.pendingAction env).newNonce) :
    l.recoverNonceSynchronization env.clients = .ok m := by
  unfold pendingAction at h
  split at h
  · cases h
  · rename_i t _
    have hspec := send_spec l env.send (l.pendingCopy env t)
    split at h
    · cases h
    · rename_i hsend
      rw [hsend] at hspec
      split at h
      · have hrecover := pendingConflictAction_newNonce h
        have hqueue := hspec.queue
        dsimp only at hqueue
        unfold recoverNonceSynchronization at hrecover ⊢
        rw [hqueue] at hrecover
        exact hrecover
      · cases h
    · cases h

end Pending

end Locked
end Rrelayer
