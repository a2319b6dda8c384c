import Rrelayer.SystemEffect

/-! Reassigning the nonce of a pending transaction: only when every recorded attempt is absent at
every provider, and otherwise neither memory nor the row is touched. -/
namespace Rrelayer

/-- Some attempt is recorded, and every provider reports every recorded attempt absent. -/
structure AbsentEverywhere (clients : List RpcClient)
    (attempts : List RecordedTransactionAttempt) : Prop where
  recorded : attempts ≠ []
  providers : clients ≠ []
  absent : ∀ a ∈ attempts, ∀ c ∈ clients, c.getTransactionByHash a.hash = .ok false

theorem findLandedAttempt_none {clients : List RpcClient}
    {attempts : List RecordedTransactionAttempt} (hrecorded : attempts ≠ [])
    (h : findLandedAttempt clients attempts = .ok none) : AbsentEverywhere clients attempts := by
  have hall := findLandedLoop_none.mp h
  obtain ⟨a, rest, rfl⟩ := List.exists_cons_of_ne_nil hrecorded
  refine ⟨hrecorded, (transactionExists_false.mp (hall a (List.mem_cons_self ..))).1, ?_⟩
  intro b hb
  exact (transactionExists_false.mp (hall b hb)).2

/-- Taking the head to the mempool leaves every live transaction its nonce. -/
theorem Book.Step.live_perm {b b' : Book} {a : Action} (h : b.Step a b')
    (ha : a = .keep ∨ ∃ id hash, a = .launch id hash) : b'.live.Perm b.live := by
  cases h with
  | keep => exact .refl _
  | @launch id n hash ps hhead =>
    unfold Book.live
    rw [hhead]
    simp only [List.flatMap_append, List.flatMap_cons, List.flatMap_nil, Entry.members,
      Option.toList_none, List.map_cons, List.map_nil, List.append_nil]
    rw [← List.append_assoc]
    exact (List.perm_append_singleton ..).trans (.refl _)
  | refuse | reserve | attempt | attach | record | movePending | moveInmempool | resolve =>
    rcases ha with ha | ⟨_, _, ha⟩ <;> cases ha

namespace Locked

section Pending

variable {l : Locked} {env : PendingEnv} {t : Transaction}

/-- The recorded attempts of the head `t` once the pass has tried to send it. -/
def attemptsAfterSend (l : Locked) (env : PendingEnv) (t : Transaction) :
    List RecordedTransactionAttempt :=
  (l.send env.send (l.pendingCopy env t)).2.1.db.getRecordedTransactionAttempts t.id

/-- The rows a pass over `t` may write without moving it. -/
abbrev AtNonce (t : Transaction) : TransactionId → ℕ → Prop := fun x n => x = t.id ∧ n = t.nonce

theorem moveSent_db {sent : TransactionSentWithRelayer}
    {result : ProcessResult ProcessPendingStatus} :
    (l.moveSent env t sent result).1.db = l.db := by
  unfold moveSent
  split <;> rfl

theorem closeOut_db {reason : String} :
    l.db.Within (AtNonce t) (l.closeOutPendingTransactionAsNoop env t reason).1.db := by
  unfold closeOutPendingTransactionAsNoop
  dsimp only
  split
  · exact Db.transactionUpdate_within (t := l.closedOut t reason) ⟨rfl, rfl⟩
  · exact .refl _

/-- What becomes of the rows when a send was refused over its nonce. -/
theorem pendingNonceConflict_db (l : Locked) (env : PendingEnv) (t : Transaction) (error : String) :
    l.db.Within (AtNonce t) (l.pendingNonceConflict env t error).1.db ∨
      ∃ m, l.pendingConflictAction env t.id = .movePending t.id m ∧
        (l.pendingNonceConflict env t error).1.db = l.db.transactionUpdateNonce t.id m := by
  have hsame : l.db.Within (AtNonce t) l.db := .refl _
  have hreach : AtNonce t t.id t.nonce := ⟨rfl, rfl⟩
  unfold pendingNonceConflict pendingConflictAction
  dsimp only
  by_cases hload : env.loadAttempts = true
  · by_cases hempty : (l.db.getRecordedTransactionAttempts t.id).isEmpty = true
    · simp only [hload, hempty, Bool.not_true, Bool.false_eq_true, if_true, if_false]
      exact .inl hsame
    · simp only [hload, hempty, Bool.not_true, Bool.or_false, Bool.false_eq_true, if_false]
      rcases findLandedAttempt env.clients (l.db.getRecordedTransactionAttempts t.id) with
        e | _ | attempt
      · exact .inl hsame
      · dsimp only
        unfold reassignPendingNonce
        rcases l.recoverNonceSynchronization env.clients with e | m
        · exact .inl hsame
        · dsimp only
          by_cases hwrite : env.write = true
          · rw [if_pos hwrite, if_pos hwrite]
            exact .inr ⟨m, rfl, rfl⟩
          · rw [if_neg hwrite]
            exact .inl hsame
      · refine .inl ?_
        dsimp only
        rcases attempt.sentWithGas with _ | gas
        · exact hsame
        · dsimp only
          rcases env.getReceipt attempt.hash with e | _ | receipt
          · exact hsame
          · dsimp only
            unfold recoverPendingLandedAttempt
            have hrecovered : l.db.Within (AtNonce t) (l.db.recoverLandedTransactionAttempt
                l.queue.relayer.id t.id attempt.hash gas attempt.sentWithBlobGas
                l.queue.isLegacyTransactions env.nowWrite).2 :=
              Db.recoverLanded_within (n := t.nonce) hreach
            split
            · split
              · exact hsame
              · rename_i db heq
                rw [heq] at hrecovered
                rw [moveSent_db]
                exact hrecovered
            · exact hsame
          · dsimp only
            unfold resolvePendingTransactionMined
            split
            · rw [moveSent_db]
              exact Db.transactionSent_within hreach
            · exact hsame
  · simp only [hload, Bool.not_false, if_true]
    exact .inl hsame

/-- A pass writes the head's row at the head's nonce, and moves it at most at the end. -/
theorem processSinglePending_db (env : PendingEnv)
    (ht : l.queue.getNextPendingTransaction = some t) :
    l.db.Within (AtNonce t) (l.processSinglePending env).1.db ∨
      ∃ m db, l.pendingAction env = .movePending t.id m ∧ l.db.Within (AtNonce t) db ∧
        (l.processSinglePending env).1.db = db.transactionUpdateNonce t.id m := by
  have hsame : l.db.Within (AtNonce t) l.db := .refl _
  unfold pendingAction pendingHead processSinglePending
  by_cases hpaused : l.queue.relayer.paused = true
  · simp only [hpaused, if_true]
    exact .inl hsame
  by_cases hguard : env.guard = true
  · simp only [hpaused, hguard, ht, Bool.not_true, Bool.or_false, Bool.false_eq_true, if_false]
    obtain ⟨hcopyId, hcopyNonce⟩ := pendingCopy_slot l env t
    have hspec := send_spec l env.send (l.pendingCopy env t)
    rcases hsend : l.send env.send (l.pendingCopy env t) with ⟨t', l', e | sent⟩
    · rw [hsend] at hspec
      have hid : t'.id = t.id := hspec.id.trans hcopyId
      have hnonce : t'.nonce = t.nonce := hspec.nonce.trans hcopyNonce
      have hsent : l.db.Within (AtNonce t) l'.db := hspec.db.mono fun x n hx =>
        ⟨hx.1.trans hcopyId, hx.2.trans hcopyNonce⟩
      have hreach : AtNonce t' = AtNonce t := by unfold AtNonce; rw [hid, hnonce]
      have hclose {reason : String} : l.db.Within (AtNonce t)
          (l'.closeOutPendingTransactionAsNoop env t' reason).1.db :=
        hsent.trans (hreach ▸ closeOut_db)
      cases e with
      | transactionSendError e =>
        dsimp only [pendingFailed]
        by_cases hclass : errorClass e = .nonceConflict
        · rw [if_pos hclass, hclass]
          dsimp only
          rcases l'.pendingNonceConflict_db env t' e with
            hwithin | ⟨m, haction, hdb⟩
          · rw [hreach] at hwithin
            exact .inl (hsent.trans hwithin)
          · rw [hid] at haction hdb
            exact .inr ⟨m, l'.db, haction, hsent, hdb⟩
        · refine .inl ?_
          split
          · exact hsent
          · exact hclose
          · exact hsent
          · exact absurd (by assumption) hclass
          · exact hsent
          · exact hsent
      | transactionEstimateGasError e =>
        refine .inl ?_
        dsimp only [pendingFailed]
        split
        · exact hclose
        · exact hsent
      | gasPriceTooHigh | gasCalculationError | couldNotUpdateTransactionDb
      | sendTransactionGasPriceError | transactionConversionError | safeProxyError
      | noTransactionInQueue => exact .inl hsent
    · rw [hsend] at hspec
      dsimp only
      rw [moveSent_db]
      exact .inl (hspec.db.mono fun x n hx => ⟨hx.1.trans hcopyId, hx.2.trans hcopyNonce⟩)
  · simp only [hpaused, hguard, ht, Bool.not_false, Bool.false_eq_true, if_true, if_false]
    exact .inl hsame

/-- A pass that moves the head found every recorded attempt absent at every provider. -/
theorem pendingAction_movePending (ht : l.queue.getNextPendingTransaction = some t)
    {id : TransactionId} {m : ℕ} (h : l.pendingAction env = .movePending id m) :
    env.loadAttempts = true ∧ AbsentEverywhere env.clients (l.attemptsAfterSend env t) := by
  unfold pendingAction pendingHead at h
  split at h
  · cases h
  · rename_i u hhead
    split at hhead
    · cases hhead
    · obtain rfl : t = u := Option.some.inj (ht.symm.trans hhead)
      unfold attemptsAfterSend
      split at h
      · cases h
      · rename_i t' l' e hsend
        rw [hsend]
        dsimp only
        split at h
        · unfold pendingConflictAction at h
          dsimp only at h
          split at h
          · cases h
          · rename_i hevidence
            split at h
            · cases h
            · rename_i hlanded
              have hevidence : env.loadAttempts = true ∧
                  l'.db.getRecordedTransactionAttempts t.id ≠ [] := by
                simpa using hevidence
              exact ⟨hevidence.1, findLandedAttempt_none hevidence.2 hlanded⟩
            · split at h <;> cases h
        · cases h
      · cases h

/-- Unless every recorded attempt is absent at every provider, a pending pass leaves every live
transaction its nonce, and the head's row gets no nonce but the one the head has. -/
theorem pending_nonce_kept (l : Locked) (env : PendingEnv) (t : Transaction)
    (ht : l.queue.getNextPendingTransaction = some t)
    (h : ¬ (env.loadAttempts = true ∧ AbsentEverywhere env.clients (l.attemptsAfterSend env t))) :
    ((l.processSinglePending env).1.queue.liveTransactions.map (·.slot)).Perm
        (l.queue.liveTransactions.map (·.slot)) ∧
      ∀ r' ∈ (l.processSinglePending env).1.db.rows, r'.id = t.id →
        r'.nonce = t.nonce ∨ ∃ r ∈ l.db.rows, r.id = t.id ∧ r.nonce = r'.nonce := by
  have heffect := l.processSinglePending_effect env
  constructor
  · rw [← TransactionsQueue.book_live, ← TransactionsQueue.book_live]
    refine heffect.book.live_perm ?_
    have hyields := TransactionsQueues.pendingAction_yields l env
    cases haction : l.pendingAction env with
    | keep => exact .inl rfl
    | launch id hash => exact .inr ⟨id, hash, rfl⟩
    | movePending id m => exact absurd (pendingAction_movePending ht haction) h
    | _ =>
      rw [haction] at hyields
      cases hyields
  · intro r' hr' hid
    rcases processSinglePending_db env ht with hwithin | ⟨m, db, haction, -, -⟩
    · rcases hwithin.nonces r' hr' with ⟨-, hnonce⟩ | ⟨r, hr, hrid, hnonce⟩
      · exact .inl hnonce
      · exact .inr ⟨r, hr, hrid.trans hid, hnonce⟩
    · exact absurd (pendingAction_movePending ht haction) h

/-- A refused first send whose attempt only the second provider knows. -/
def knownElsewhere : PendingEnv :=
  { servedPending nonceTooLow (servedClient [] 1) [] with
    clients := [servedClient [] 1, servedClient [paymentEnvelope 0 5 1 10] 1] }

theorem pending_nonce_kept_known :
    ∃ l ∈ (freshRelayer.run [.add (servedAdd 0) (payment 0 5)]).lock,
      ∃ t ∈ l.queue.getNextPendingTransaction,
        ((l.processSinglePending knownElsewhere).1.queue.liveTransactions.map (·.slot)).Perm
            (l.queue.liveTransactions.map (·.slot)) ∧
          ∀ r' ∈ (l.processSinglePending knownElsewhere).1.db.rows, r'.id = t.id →
            r'.nonce = t.nonce ∨ ∃ r ∈ l.db.rows, r.id = t.id ∧ r.nonce = r'.nonce := by
  obtain ⟨l, hl, t, ht, a, ha, hash⟩ :
      ∃ l ∈ (freshRelayer.run [.add (servedAdd 0) (payment 0 5)]).lock,
        ∃ t ∈ l.queue.getNextPendingTransaction,
          ∃ a ∈ l.attemptsAfterSend knownElsewhere t, a.hash = paymentEnvelope 0 5 1 10 := by
    decide +kernel
  refine ⟨l, hl, t, ht, pending_nonce_kept l knownElsewhere t ht ?_⟩
  rintro ⟨-, habsent⟩
  have hanswer := habsent.absent a ha (servedClient [paymentEnvelope 0 5 1 10] 1)
    (by simp [knownElsewhere])
  rw [hash] at hanswer
  simp [servedClient] at hanswer

end Pending

end Locked
end Rrelayer
