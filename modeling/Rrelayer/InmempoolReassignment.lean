import Rrelayer.SystemEffect

/-! Reassigning the nonce of an in-mempool transaction. A payload runs twice when an attempt at the
old nonce is included after all, and the pass only looks up the attempt it signed last. -/
namespace Rrelayer

namespace Locked

/-- A send that the signer or the node refuses, with the envelope that was broadcast for it. -/
inductive Refuses (l : Locked) (env : SendEnv) (t : Transaction) :
    Option SignedTransaction → String → Prop where
  | unsigned {u : Transaction} {error : String}
      (hprepare : prepareSend l.queue.toSendConfig env t = (u, .error (.transactionSendError error))) :
      Refuses l env t none error
  | sent {u : Transaction} {signed : SignedTransaction} {sent : TransactionSentWithRelayer}
      {db : Db} {error : String}
      (hprepare : prepareSend l.queue.toSendConfig env t = (u, .ok (signed, sent)))
      (hpersist : env.persistAttempt = true)
      (hattempt : l.db.transactionBroadcastAttempt l.queue.toSendConfig.relayer.id u sent.hash
        sent.sentWithGas sent.sentWithBlobGas l.queue.toSendConfig.isLegacyTransactions
        env.nowSent = some db)
      (hbroadcast : env.broadcast signed = .error error) : Refuses l env t (some signed) error

section Send

variable {l : Locked} {env : SendEnv} {t : Transaction} {bump : Option SignedTransaction}
  {error : String}

/-- The copy a refused send leaves shows the envelope that was broadcast. -/
theorem send_of_refuses (h : l.Refuses env t bump error) :
    ∃ u l', l.send env t = (u, l', .error (.transactionSendError error)) ∧
      l'.broadcasts = l.broadcasts ++ bump.toList.map (t.id, ·) ∧
      u.knownTransactionHash = bump.or t.knownTransactionHash := by
  have hspec := prepareSend_spec l.queue.toSendConfig env t
  unfold send sendTransaction
  cases h with
  | @unsigned u _ hprepare =>
    rw [hprepare] at hspec ⊢
    exact ⟨u, l, rfl, by simp, hspec.1.knownTransactionHash⟩
  | @sent u signed sent db _ hprepare hpersist hattempt hbroadcast =>
    rw [hprepare] at hspec ⊢
    have hhash : sent.hash = signed := (hspec.2 signed sent rfl).hash
    have hid : u.id = t.id := hspec.1.id
    unfold persistAndBroadcast
    dsimp only
    rw [if_pos hpersist, hattempt]
    dsimp only
    rw [hbroadcast]
    refine ⟨u.exposeAttempt sent env.nowSent,
      { l with db := db, broadcasts := l.broadcasts ++ [(u.id, signed)] }, rfl, ?_, ?_⟩
    · simp [hid]
    · simp [Transaction.exposeAttempt, hhash]

theorem Refuses.nonce (h : l.Refuses env t bump error) : ∀ signed ∈ bump, signed.nonce = t.nonce := by
  have hspec := prepareSend_spec l.queue.toSendConfig env t
  cases h with
  | unsigned => nofun
  | @sent u signed sent _ _ hprepare =>
    rw [hprepare] at hspec
    rintro _ ⟨⟩
    exact (hspec.2 signed sent rfl).nonce

end Send

section Pass

variable {l : Locked} {env : InmempoolEnv} {t : Transaction} {hash : TransactionHash}
  {bump : Option SignedTransaction}

/-- The answers of a pass that make it give `t` a new nonce: there is no receipt of the hash the
queue keeps, the bump is due and is refused over its nonce, and there is no receipt of the bump. -/
structure AnswersReassign (l : Locked) (env : InmempoolEnv) (t : Transaction)
    (hash : TransactionHash) (bump : Option SignedTransaction) : Prop where
  guard : env.guard = true
  known : t.knownTransactionHash = some hash
  polled : env.pollReceipt hash = .ok none
  due : l.bumpDue env t = true
  refused : ∃ error, l.Refuses env.send t bump error ∧ errorClass error = .nonceConflict
  conflict : env.conflictReceipt (bump.getD hash) = .ok none
  synchronized : ∃ n, pendingNonceAcrossClients env.clients = .ok n
  write : env.write = true

/-- The pass ended by giving the transaction a new nonce. -/
def Synchronized (result : InmempoolResult) : Prop :=
  result.map (·.status) = .ok .nonceSynchronized

instance (result : InmempoolResult) : Decidable (Synchronized result) :=
  inferInstanceAs (Decidable (_ = _))

theorem reassignInmempoolNonce_synchronized_iff {error : String} :
    Synchronized (l.reassignInmempoolNonce env t error).2 ↔
      (∃ n, pendingNonceAcrossClients env.clients = .ok n) ∧ env.write = true := by
  unfold reassignInmempoolNonce recoverNonceSynchronization
  rcases pendingNonceAcrossClients env.clients with e | n
  · simp [Synchronized, inmempoolSendError, Except.map]
  · by_cases hwrite : env.write = true
    · simp [Synchronized, ProcessResult.other, Except.map, hwrite]
    · simp [Synchronized, inmempoolSendError, Except.map, hwrite]

theorem inmempoolNonceConflict_synchronized_iff {error : String}
    (hknown : t.knownTransactionHash = some hash) :
    Synchronized (l.inmempoolNonceConflict env t error).2 ↔
      env.conflictReceipt hash = .ok none ∧
        (∃ n, pendingNonceAcrossClients env.clients = .ok n) ∧ env.write = true := by
  unfold inmempoolNonceConflict
  rw [hknown]
  dsimp only
  rcases env.conflictReceipt hash with e | _ | receipt
  · simp [Synchronized, ProcessResult.other, Except.map]
  · simp [reassignInmempoolNonce_synchronized_iff]
  · simp [Synchronized, ProcessResult.other, Except.map]

theorem inmempoolNonceConflict_broadcasts {error : String} :
    (l.inmempoolNonceConflict env t error).1.broadcasts = l.broadcasts := by
  have hreassign : (l.reassignInmempoolNonce env t error).1.broadcasts = l.broadcasts := by
    unfold reassignInmempoolNonce
    split
    · rfl
    · split <;> rfl
  unfold inmempoolNonceConflict
  split
  · exact hreassign
  · split
    · exact hreassign
    · rfl
    · rfl

/-- On such answers the pass broadcasts the bump and gives the transaction a new nonce. -/
theorem AnswersReassign.pass (h : l.AnswersReassign env t hash bump)
    (ht : l.queue.getNextInmempoolTransaction = some t) :
    Synchronized (l.processSingleInmempool env).2 ∧
      (l.processSingleInmempool env).1.broadcasts =
        l.broadcasts ++ bump.toList.map (t.id, ·) := by
  obtain ⟨error, hrefused, hclass⟩ := h.refused
  obtain ⟨bumped, l', hsend, hbroadcasts, hshown⟩ := send_of_refuses hrefused
  have hlooked : bumped.knownTransactionHash = some (bump.getD hash) := by
    rw [hshown, h.known]
    cases bump <;> rfl
  have hpass : l.processSingleInmempool env = l'.inmempoolNonceConflict env bumped error := by
    unfold processSingleInmempool
    rw [ht]
    simp only [h.guard, Bool.not_true, Bool.false_eq_true, if_false, h.known, h.polled, h.due,
      if_true]
    unfold bumpInmempool
    rw [hsend]
    unfold bumpFailed
    dsimp only
    rw [hclass]
  rw [hpass]
  refine ⟨(inmempoolNonceConflict_synchronized_iff hlooked).mpr
    ⟨h.conflict, h.synchronized, h.write⟩, ?_⟩
  rw [inmempoolNonceConflict_broadcasts, hbroadcasts]

end Pass

end Locked

namespace TransactionsQueues

variable {s : TransactionsQueues} {e : Event} {t : Transaction} {l : Locked} {env : InmempoolEnv}
  {hash : TransactionHash} {bump : Option SignedTransaction}

end TransactionsQueues
end Rrelayer
