import Rrelayer.Touched
import Rrelayer.StartupGaps

/-! Closed-out transactions across a crash. A close-out leaves a pending row with a failure time
and no trace of a send, which is what the first startup repair terminalises. -/
namespace Rrelayer

/-- A transaction that waits at its nonce without any trace of a send. -/
structure Transaction.Unsent (relayerId : RelayerId) (n : ℕ) (t : Transaction) : Prop where
  relayerId : t.relayerId = relayerId
  nonce : t.nonce = n
  status : t.status = .pending
  hash : t.knownTransactionHash = none
  sentAt : t.sentAt = none

/-- Some in-mempool entry contains the transaction. -/
def Book.InEntries (b : Book) (x : TransactionId) : Prop :=
  ∃ e ∈ b.inmempool, ∃ h ∈ e.members, h.id = x

theorem TransactionsQueue.inEntries_iff {q : TransactionsQueue} {x : TransactionId} :
    q.book.InEntries x ↔ ∃ c ∈ q.inmempoolTransactions, ∃ t ∈ c.transactions, t.id = x := by
  unfold Book.InEntries TransactionsQueue.book
  simp only [List.mem_map, exists_exists_and_eq_and, CompetitiveTransaction.entry_members,
    Transaction.held_id]

/-- A transaction gets into the entries by a launch or as a competitor. -/
theorem Book.Step.inEntries {b b' : Book} {a : Action} (h : b.Step a b') {x : TransactionId}
    (hx : b'.InEntries x) :
    b.InEntries x ∨ (∃ hash, a = .launch x hash) ∨ ∃ hash, a = .attach x hash := by
  obtain ⟨e', he', k, hk, rfl⟩ := hx
  have hupdate {e : Entry} {id : TransactionId} {f : Held → Held} (he : e ∈ b.inmempool)
      (hid : ∀ h, (f h).id = h.id) (hk : k ∈ (e.update id f).members) : b.InEntries k.id := by
    rcases Entry.mem_update hk with hmem | ⟨k₀, hk₀, -, rfl⟩
    · exact ⟨e, he, k, hmem, rfl⟩
    · exact ⟨e, he, k₀, hk₀, (hid k₀).symm⟩
  cases h with
  | keep | refuse | attempt | reserve | movePending => exact .inl ⟨e', he', k, hk, rfl⟩
  | @launch id n hash ps hhead =>
    rcases List.mem_append.mp he' with he' | he'
    · exact .inl ⟨e', he', k, hk, rfl⟩
    · rw [List.mem_singleton.mp he'] at hk
      rw [List.mem_singleton.mp hk]
      exact .inr (.inl ⟨hash, rfl⟩)
  | @attach id hash e es hfront hhash =>
    rcases List.mem_cons.mp he' with rfl | he'
    · rcases List.mem_cons.mp hk with rfl | hk
      · exact .inl ⟨e, hfront ▸ List.mem_cons_self .., e.original, List.mem_cons_self .., rfl⟩
      · rw [Option.toList_some, List.mem_singleton] at hk
        subst hk
        exact .inr (.inr ⟨hash, rfl⟩)
    · exact .inl ⟨e', hfront ▸ List.mem_cons_of_mem _ he', k, hk, rfl⟩
  | @record hash e es hfront =>
    rcases List.mem_cons.mp he' with rfl | he'
    · exact .inl (hupdate (hfront ▸ List.mem_cons_self ..) (by intro; rfl) hk)
    · exact .inl ⟨e', hfront ▸ List.mem_cons_of_mem _ he', k, hk, rfl⟩
  | @moveInmempool m e es hfront =>
    rcases List.mem_cons.mp he' with rfl | he'
    · exact .inl (hupdate (hfront ▸ List.mem_cons_self ..) (by intro; rfl) hk)
    · exact .inl ⟨e', hfront ▸ List.mem_cons_of_mem _ he', k, hk, rfl⟩
  | @resolve hash e es hfront =>
    exact .inl ⟨e', hfront ▸ List.mem_cons_of_mem _ he', k, hk, rfl⟩

variable {relayerId : RelayerId} {x : TransactionId} {n : ℕ}

/-- The row is one a close-out leaves: unsent, with a failure time. -/
def Db.AwaitsNoop (db : Db) (relayerId : RelayerId) (x : TransactionId) (n : ℕ) : Prop :=
  ∃ r, db.row x = some r ∧ r.toTransaction.Unsent relayerId n ∧ r.failedAt.isSome = true

/-- Memory holds the transaction only as a pending one without any trace of a send. -/
structure TransactionsQueue.AwaitsNoop (q : TransactionsQueue) (relayerId : RelayerId)
    (x : TransactionId) (n : ℕ) : Prop where
  pending : ∀ t ∈ q.pendingTransactions, t.id = x → t.Unsent relayerId n
  entries : ¬ q.book.InEntries x
  mined : ∀ t ∈ q.minedTransactions, t.id ≠ x

namespace Db

theorem AwaitsNoop.within {db db' : Db} {P : TransactionId → ℕ → Prop}
    (h : db.AwaitsNoop relayerId x n) (hdb : db.Within P db') (hx : ∀ m, ¬ P x m) :
    db'.AwaitsNoop relayerId x n := by
  obtain ⟨r, hr, hunsent, hfailed⟩ := h
  exact ⟨r, (hdb.row_eq hx).trans hr, hunsent, hfailed⟩

/-- Writing an unsent transaction over a failed row, or with its own failure. -/
theorem awaitsNoop_update {db : Db} {r : Row} {u : Transaction} {now : DateTime}
    (hr : db.row u.id = some r) (hunsent : u.Unsent relayerId n)
    (hfailed : r.failedAt.isSome = true ∨ u.failedReason.isSome = true) :
    (db.transactionUpdate u now).AwaitsNoop relayerId u.id n := by
  refine ⟨_, row_update_self db (by intro; rfl) hr, ?_, ?_⟩
  · exact ⟨hunsent.relayerId, hunsent.nonce, hunsent.status, hunsent.hash, hunsent.sentAt⟩
  · dsimp only
    rcases hreason : u.failedReason with _ | reason
    · rw [hreason] at hfailed
      simpa using hfailed
    · simp

end Db

namespace Locked

structure AwaitsNoop (l : Locked) (relayerId : RelayerId) (x : TransactionId) (n : ℕ) : Prop where
  db : l.db.AwaitsNoop relayerId x n
  queue : l.queue.AwaitsNoop relayerId x n

variable {l l' : Locked}

/-- What does not touch the transaction leaves it waiting. -/
theorem AwaitsNoop.touched {ids : TransactionId → Prop} (h : l.AwaitsNoop relayerId x n)
    (ht : l.Touched ids l') (hx : ¬ ids x) (hentries : ¬ l'.queue.book.InEntries x) :
    l'.AwaitsNoop relayerId x n := by
  refine ⟨h.db.within ht.db fun _ => hx, fun t hmem hid => ?_, hentries, fun t hmem hid => ?_⟩
  · rcases ht.pending t hmem with hmem | hids
    · exact h.queue.pending t hmem hid
    · exact absurd (hid ▸ hids) hx
  · rcases ht.mined t hmem with hmem | hids
    · exact h.queue.mined t hmem hid
    · exact absurd (hid ▸ hids) hx

/-- The transaction may be rewritten as another unsent one. -/
theorem AwaitsNoop.rewritten {u : Transaction} {now : DateTime}
    (h : l.AwaitsNoop relayerId u.id n) (hunsent : u.Unsent relayerId n) :
    AwaitsNoop { l with
      db := l.db.transactionUpdate u now
      queue := l.queue.updatePendingTransaction u } relayerId u.id n := by
  obtain ⟨r, hr, -, hfailed⟩ := h.db
  refine ⟨Db.awaitsNoop_update hr hunsent (.inl hfailed), fun t ht hid => ?_, h.queue.entries,
    h.queue.mined⟩
  rcases mem_updateFirst ht with ht | ⟨v, -, -, rfl⟩
  · exact h.queue.pending t ht hid
  · exact hunsent

theorem send_relayerId (l : Locked) (env : SendEnv) (t : Transaction) :
    (l.send env t).1.relayerId = t.relayerId := by
  have hslot := (prepareSend_spec l.queue.toSendConfig env t).1
  have hends := l.send_ends env t
  generalize l.send env t = o at hends ⊢
  cases hends with
  | unprepared hp | unrecorded hp | refused hp | unmarked hp | marked hp =>
    rw [hp] at hslot
    exact hslot.relayerId

/-- A send either ends before the attempt is durable and changes nothing, or it leaves an
attempt. -/
theorem send_unsent (l : Locked) (env : SendEnv) (t : Transaction) :
    ((∃ e, (l.send env t).2 = (l, .error e)) ∧ t.SameSlot (l.send env t).1) ∨
      ∃ signed, (l.send env t).2.1.broadcasts = l.broadcasts ++ [(t.id, signed)] := by
  have hslot := (prepareSend_spec l.queue.toSendConfig env t).1
  have hends := l.send_ends env t
  generalize l.send env t = o at hends ⊢
  cases hends with
  | unprepared hp | unrecorded hp =>
    rw [hp] at hslot
    exact .inl ⟨⟨_, rfl⟩, hslot⟩
  | @refused t' signed _ _ _ hp | @unmarked t' signed _ _ hp | @marked t' signed _ _ hp =>
    rw [hp] at hslot
    have hid : t'.id = t.id := hslot.id
    refine .inr ⟨signed, ?_⟩
    rw [← hid]

/-- A refused send without an action changes nothing. -/
theorem pendingConflict_keep {env : PendingEnv} {t : Transaction} {error : String}
    (h : l.pendingConflictAction env t.id = .keep) : (l.pendingNonceConflict env t error).1 = l := by
  unfold pendingConflictAction at h
  unfold pendingNonceConflict
  dsimp only at h ⊢
  by_cases hload : env.loadAttempts = true
  swap
  · simp [hload]
  by_cases hempty : (l.db.getRecordedTransactionAttempts t.id).isEmpty = true
  · simp [hload, hempty]
  simp only [hload, hempty, Bool.not_true, Bool.or_false, Bool.false_eq_true, if_false] at h ⊢
  rcases hfind : findLandedAttempt env.clients (l.db.getRecordedTransactionAttempts t.id) with
    e | _ | attempt
  · rfl
  · rw [hfind] at h
    dsimp only at h ⊢
    unfold reassignPendingNonce
    rcases hm : l.recoverNonceSynchronization env.clients with e | m
    · rfl
    · rw [hm] at h
      dsimp only at h ⊢
      by_cases hwrite : env.write = true
      · rw [if_pos hwrite] at h
        cases h
      · rw [if_neg hwrite]
  · rw [hfind] at h
    dsimp only at h ⊢
    unfold adoptsAttempt at h
    rcases hgas : attempt.sentWithGas with _ | gas
    · rfl
    · rw [hgas] at h
      dsimp only at h ⊢
      rcases hreceipt : env.getReceipt attempt.hash with e | _ | receipt
      · rfl
      · rw [hreceipt] at h
        dsimp only at h ⊢
        unfold recoverPendingLandedAttempt
        by_cases hwrite : env.write = true
        · simp only [hwrite, Bool.true_and, if_true] at h ⊢
          split
          · rfl
          · rename_i hserved
            simp [hserved] at h
        · simp [hwrite]
      · rw [hreceipt] at h
        dsimp only at h ⊢
        unfold resolvePendingTransactionMined
        by_cases hwrite : env.write = true
        · simp [hwrite] at h
        · simp [hwrite]

/-- A close-out rewrites the transaction without any trace of a send. -/
theorem closedOut_unsent {t : Transaction} (reason : String) (hrelayer : t.relayerId = relayerId)
    (hnonce : t.nonce = n) : (l.closedOut t reason).Unsent relayerId n :=
  ⟨hrelayer, hnonce, rfl, rfl, rfl⟩

theorem AwaitsNoop.closeOut {env : PendingEnv} {t : Transaction} {reason : String}
    (h : l.AwaitsNoop relayerId t.id n) (hrelayer : t.relayerId = relayerId) (hnonce : t.nonce = n) :
    (l.closeOutPendingTransactionAsNoop env t reason).1.AwaitsNoop relayerId t.id n := by
  unfold closeOutPendingTransactionAsNoop
  dsimp only
  split
  · exact AwaitsNoop.rewritten (u := l.closedOut t reason) h (closedOut_unsent reason hrelayer hnonce)
  · exact h

/-- A failing pass whose action is none leaves the head waiting, closed out again or as it was. -/
theorem AwaitsNoop.pendingFailed {env : PendingEnv} {t : Transaction}
    {e : TransactionQueueSendTransactionError} (h : l.AwaitsNoop relayerId t.id n)
    (hrelayer : t.relayerId = relayerId) (hnonce : t.nonce = n)
    (hkeep : ∀ error, e = .transactionSendError error → errorClass error = .nonceConflict →
      l.pendingConflictAction env t.id = .keep) :
    (l.pendingFailed env t e).1.AwaitsNoop relayerId t.id n := by
  cases e with
  | transactionSendError error =>
    dsimp only [Locked.pendingFailed]
    split
    · exact h
    · exact h.closeOut hrelayer hnonce
    · exact h
    · rename_i hclass
      rw [pendingConflict_keep (hkeep error rfl hclass)]
      exact h
    · exact h
    · exact h
  | transactionEstimateGasError error =>
    dsimp only [Locked.pendingFailed]
    split
    · exact h.closeOut hrelayer hnonce
    · exact h
  | _ => exact h

theorem pendingHead_some {env : PendingEnv} {t : Transaction} (h : l.pendingHead env = some t) :
    l.queue.relayer.paused = false ∧ env.guard = true ∧
      ∃ ts, l.queue.pendingTransactions = t :: ts := by
  unfold pendingHead at h
  split at h
  · cases h
  · rename_i hheld
    have hheld : l.queue.relayer.paused = false ∧ env.guard = true := by simpa using hheld
    exact ⟨hheld.1, hheld.2, TransactionsQueue.getNextPending_some h⟩

/-- What a pass does that is not held back. -/
theorem processSinglePending_head {env : PendingEnv} {t : Transaction}
    (h : l.pendingHead env = some t) :
    l.processSinglePending env = match l.send env.send (l.pendingCopy env t) with
      | (t, l, .ok sent) => l.moveSent env t sent ⟨.success, 10⟩
      | (t, l, .error e) => l.pendingFailed env t e := by
  obtain ⟨hpaused, hguard, ts, hlist⟩ := pendingHead_some h
  have hnext : l.queue.getNextPendingTransaction = some t := by
    rw [TransactionsQueue.getNextPendingTransaction, hlist]
    rfl
  unfold processSinglePending
  rcases hsend : l.send env.send (l.pendingCopy env t) with ⟨t', l', e | sent⟩
  · simp only [hpaused, hguard, hnext, hsend, Bool.not_true, Bool.false_eq_true, if_false]
  · simp only [hpaused, hguard, hnext, hsend, Bool.not_true, Bool.false_eq_true, if_false]

theorem pendingCopy_sameSlot (l : Locked) (env : PendingEnv) (t : Transaction) :
    t.SameSlot (l.pendingCopy env t) := by
  unfold pendingCopy
  split
  · exact transactionToNoop_sameSlot ..
  · exact .refl t

theorem pendingConflictAction_cases (l : Locked) (env : PendingEnv) (id : TransactionId) :
    l.pendingConflictAction env id = .keep ∨
      (∃ hash, l.pendingConflictAction env id = .launch id hash) ∨
        ∃ m, l.pendingConflictAction env id = .movePending id m := by
  unfold pendingConflictAction
  dsimp only
  split
  · exact .inl rfl
  · split
    · exact .inl rfl
    · split
      · exact .inl rfl
      · split
        · exact .inr (.inr ⟨_, rfl⟩)
        · exact .inl rfl
    · split
      · exact .inr (.inl ⟨_, rfl⟩)
      · exact .inl rfl

/-- A pass whose send leaves an attempt shows it among the broadcasts. -/
theorem processSinglePending_sent {env : PendingEnv} {t : Transaction} {signed : SignedTransaction}
    (ht : l.pendingHead env = some t)
    (hsent : (l.send env.send (l.pendingCopy env t)).2.1.broadcasts =
      l.broadcasts ++ [((l.pendingCopy env t).id, signed)]) :
    ∃ new, (l.processSinglePending env).1.broadcasts =
      l.broadcasts ++ (t.id, signed) :: new := by
  obtain ⟨-, -, ts, hlist⟩ := pendingHead_some ht
  have hspec := l.send_spec env.send (l.pendingCopy env t)
  have hcopy := l.pendingCopy_sameSlot env t
  rw [processSinglePending_head ht]
  rw [hcopy.id] at hsent
  rcases hout : l.send env.send (l.pendingCopy env t) with ⟨t', l', e | sent⟩
  · rw [hout] at hspec hsent
    have hlist' : l'.queue.pendingTransactions = t :: ts := by rw [hspec.queue]; exact hlist
    obtain ⟨new, hnew, -⟩ := (pendingFailed_effect (t := t') env e hlist'
      (hspec.id.trans hcopy.id) (hspec.nonce.trans hcopy.nonce)).sent
    refine ⟨new, hnew.trans ?_⟩
    rw [hsent, List.append_assoc]
    rfl
  · rw [hout] at hspec hsent
    have hlist' : l'.queue.pendingTransactions = t :: ts := by rw [hspec.queue]; exact hlist
    have hmove : l'.Effect _ (l'.moveSent env t' sent ⟨.success, 10⟩).1 :=
      moveSent_effect hlist' (hspec.id.trans hcopy.id) (hspec.nonce.trans hcopy.nonce)
        ((hspec.ok sent rfl).1.trans hspec.id.symm)
    obtain ⟨new, hnew, -⟩ := hmove.sent
    refine ⟨new, hnew.trans ?_⟩
    rw [hsent, List.append_assoc]
    rfl

/-- A pass over the waiting transaction itself. -/
theorem AwaitsNoop.head {env : PendingEnv} {t : Transaction} (h : l.AwaitsNoop relayerId t.id n)
    (ht : l.pendingHead env = some t)
    (hunsent : (l.processSinglePending env).1.broadcasts.filter (·.1 == t.id) =
      l.broadcasts.filter (·.1 == t.id))
    (hunlaunched : ∀ hash, l.pendingAction env ≠ .launch t.id hash)
    (hunmoved : ∀ m, l.pendingAction env ≠ .movePending t.id m) :
    (l.processSinglePending env).1.AwaitsNoop relayerId t.id n := by
  obtain ⟨-, -, ts, hlist⟩ := pendingHead_some ht
  have heffect := l.processSinglePending_effect env
  have hcopy := l.pendingCopy_sameSlot env t
  have hpass := processSinglePending_head ht
  have hwaits := h.queue.pending t (hlist ▸ List.mem_cons_self ..) rfl
  rcases l.send_unsent env.send (l.pendingCopy env t) with ⟨⟨e, hsend⟩, hslot⟩ | ⟨signed, hsent⟩
  · have hslot := hcopy.trans hslot
    rcases hout : l.send env.send (l.pendingCopy env t) with ⟨t', out⟩
    rw [hout] at hsend hslot hpass
    obtain rfl : out = (l, .error e) := hsend
    rw [hpass]
    dsimp only at hslot ⊢
    rw [← hslot.id] at h ⊢
    refine h.pendingFailed (hslot.relayerId.trans hwaits.relayerId)
      (hslot.nonce.trans hwaits.nonce) ?_
    rintro error rfl hclass
    have haction : l.pendingAction env = l.pendingConflictAction env t.id := by
      unfold pendingAction
      rw [ht]
      dsimp only
      rw [hout]
      dsimp only
      rw [if_pos hclass]
    rw [haction] at hunlaunched hunmoved
    rw [hslot.id]
    rcases l.pendingConflictAction_cases env t.id with hkeep | ⟨hash, hlaunch⟩ | ⟨m, hmove⟩
    · exact hkeep
    · exact absurd hlaunch (hunlaunched hash)
    · exact absurd hmove (hunmoved m)
  · obtain ⟨new, hnew⟩ := processSinglePending_sent ht hsent
    have hlength := congrArg List.length hunsent
    rw [hnew] at hlength
    simp [List.filter_append] at hlength

/-- A cancel rewrites a waiting transaction without any trace of a send. -/
theorem cancelledPending_unsent {t : Transaction} (h : t.Unsent relayerId n) :
    (l.cancelledPending t).Unsent relayerId n := ⟨h.relayerId, h.nonce, rfl, rfl, rfl⟩

theorem transactionReplace_unsent {request : RelayTransactionRequest} {t : Transaction}
    {blobs : Option (List TransactionBlob)} (h : t.Unsent relayerId n) :
    (transactionReplace request t blobs).Unsent relayerId n :=
  ⟨h.relayerId, h.nonce, h.status, h.hash, h.sentAt⟩

theorem AwaitsNoop.rewritePending {env : CompeteEnv} {u : Transaction} {l' : Locked}
    (h : l.AwaitsNoop relayerId u.id n) (hunsent : u.Unsent relayerId n)
    (hrewrite : l.rewritePending env u = some l') : l'.AwaitsNoop relayerId u.id n := by
  unfold Locked.rewritePending at hrewrite
  split at hrewrite
  · cases hrewrite
    exact h.rewritten hunsent
  · cases hrewrite

/-- A waiting transaction can only be edited as a pending one. -/
theorem AwaitsNoop.editable {e : EditableTransaction} (h : l.AwaitsNoop relayerId x n)
    (he : l.queue.getEditableTransactionById x = some e) :
    ∃ t ∈ l.queue.pendingTransactions, t.id = x ∧ e = .pending t := by
  cases e with
  | pending t =>
    obtain ⟨hfind, hid⟩ := TransactionsQueue.getEditable_pending he
    exact ⟨t, List.mem_of_find?_eq_some hfind, hid, rfl⟩
  | inmempool original =>
    obtain ⟨c, hfind, hc, hid⟩ := TransactionsQueue.getEditable_inmempool he
    refine absurd ?_ h.queue.entries
    have hmem := List.mem_map_of_mem (f := CompetitiveTransaction.entry)
      (List.mem_of_find?_eq_some hfind)
    exact ⟨c.entry, hmem, c.original.held, List.mem_cons_self .., hc ▸ hid⟩

/-- No competitor is sent for it. -/
theorem AwaitsNoop.not_raced {env : CompeteEnv} {original : Transaction}
    (h : l.AwaitsNoop relayerId x n) : l.raced env x ≠ some original := by
  intro hraced
  obtain ⟨-, -, heditable⟩ := raced_some hraced
  obtain ⟨t, -, -, heq⟩ := h.editable heditable
  cases heq

theorem AwaitsNoop.cancel {env : CompeteEnv} (h : l.AwaitsNoop relayerId x n) :
    (l.cancelTransaction env x).1.AwaitsNoop relayerId x n := by
  obtain hkept | ⟨t, heditable, hrewrite⟩ | ⟨original, competitor, hraced, -⟩ :=
    l.cancelTransaction_cases env x
  · rw [hkept]
    exact h
  · obtain ⟨u, hu, rfl, heq⟩ := h.editable heditable
    cases heq
    exact AwaitsNoop.rewritePending (u := l.cancelledPending t) h
      (cancelledPending_unsent (h.queue.pending t hu rfl)) hrewrite
  · exact absurd hraced h.not_raced

theorem AwaitsNoop.replace {env : CompeteEnv} {request : RelayTransactionRequest}
    (h : l.AwaitsNoop relayerId x n) :
    (l.replaceTransaction env request x).1.AwaitsNoop relayerId x n := by
  obtain hkept | ⟨t, blobs, heditable, hrewrite⟩ | ⟨original, competitor, hraced, -⟩ :=
    l.replaceTransaction_cases env request x
  · rw [hkept]
    exact h
  · obtain ⟨u, hu, rfl, heq⟩ := h.editable heditable
    cases heq
    exact AwaitsNoop.rewritePending (u := transactionReplace request t blobs) h
      (transactionReplace_unsent (h.queue.pending t hu rfl)) hrewrite
  · exact absurd hraced h.not_raced

end Locked

namespace TransactionsQueues

/-- The step neither sends the transaction nor adopts one of its attempts nor moves it, and the
process does not restart. -/
structure Spares (x : TransactionId) (s : TransactionsQueues) (e : Event) : Prop where
  running : e.isRestart = false
  fresh : e.newId ≠ some x
  unsent : (s.step e).broadcasts.filter (·.1 == x) = s.broadcasts.filter (·.1 == x)
  unlaunched : ∀ hash, s.stepAction e ≠ .launch x hash
  unmoved : ∀ m, s.stepAction e ≠ .movePending x m

/-- The transaction was closed out and its no-op has not been sent. -/
structure AwaitsNoop (s : TransactionsQueues) (x : TransactionId) (n : ℕ) : Prop where
  db : s.db.AwaitsNoop s.relayer.id x n
  queue : ∀ q, s.queue = some q → q.AwaitsNoop s.relayer.id x n

theorem AwaitsNoop.lock {s : TransactionsQueues} {l : Locked} (h : s.AwaitsNoop x n)
    (hl : s.lock = some l) : l.AwaitsNoop s.relayer.id x n := by
  obtain ⟨hqueue, hdb, -⟩ := lock_some hl
  exact ⟨hdb ▸ h.db, h.queue _ hqueue⟩

/-- An operation on the locked queue keeps what awaits the no-op when it does so under the lock. -/
theorem AwaitsNoop.locked {s : TransactionsQueues} (h : s.AwaitsNoop x n) {ρ : Type}
    (operation : Locked → Locked × ρ)
    (hop : ∀ l, s.lock = some l → l.AwaitsNoop s.relayer.id x n →
      (operation l).1.AwaitsNoop s.relayer.id x n) : (s.locked operation).AwaitsNoop x n := by
  rcases hl : s.lock with _ | l
  · rw [locked_of_none operation hl]
    exact h
  · rw [locked_of_some operation hl]
    have hafter := hop l hl (h.lock hl)
    refine ⟨hafter.db, fun q hq => ?_⟩
    obtain rfl := Option.some.inj hq
    exact hafter.queue

/-- The action neither launches the transaction nor attaches it, so no entry contains it. -/
theorem Spares.notInEntries {s : TransactionsQueues} {e : Event} (hspares : Spares x s e)
    {r : RelayerId} {l l' : Locked} (hw : l.AwaitsNoop r x n)
    (heffect : l.Effect (s.stepAction e) l') : ¬ l'.queue.book.InEntries x := by
  intro hin
  rcases heffect.book.inEntries hin with hin | ⟨hash, hlaunch⟩ | ⟨hash, hattach⟩
  · exact hw.queue.entries hin
  · exact hspares.unlaunched hash hlaunch
  · have hyields := s.stepAction_yields e
    rw [hattach] at hyields
    exact hspares.fresh hyields.attach

/-- Until the no-op is sent, nothing but a restart changes what the close-out left. -/
theorem AwaitsNoop.step {s : TransactionsQueues} {e : Event} (h : s.AwaitsNoop x n)
    (hspares : Spares x s e) : (s.step e).AwaitsNoop x n := by
  have heffect {l l' : Locked} {a : Action} (hl : s.lock = some l) (h : l.Effect a l')
      (ha : s.stepAction e = a) : l.Effect (s.stepAction e) l' := ha ▸ h
  cases e with
  | add env toSend =>
    refine h.locked _ fun l hl hw => hw.touched (l.addTransaction_touched env toSend) ?_ ?_
    · rintro rfl
      exact hspares.fresh rfl
    · exact hspares.notInEntries hw
        (heffect hl (l.addTransaction_effect env toSend) (stepAction_locked hl))
  | cancel env id =>
    refine h.locked _ fun l hl hw => ?_
    by_cases hid : id = x
    · subst hid
      exact hw.cancel
    · refine hw.touched (l.cancelTransaction_touched env id) ?_ ?_
      · rintro (rfl | ⟨rfl, -⟩)
        · exact hspares.fresh rfl
        · exact hid rfl
      · exact hspares.notInEntries hw
          (heffect hl (l.cancelTransaction_effect env id) (stepAction_locked hl))
  | replace env request id =>
    refine h.locked _ fun l hl hw => ?_
    by_cases hid : id = x
    · subst hid
      exact hw.replace
    · refine hw.touched (l.replaceTransaction_touched env request id) ?_ ?_
      · rintro (rfl | ⟨rfl, -⟩)
        · exact hspares.fresh rfl
        · exact hid rfl
      · exact hspares.notInEntries hw
          (heffect hl (l.replaceTransaction_effect env request id) (stepAction_locked hl))
  | processPending env =>
    refine h.locked _ fun l hl hw => ?_
    have haction : s.stepAction (.processPending env) = l.pendingAction env :=
      stepAction_locked hl
    by_cases hhead : ∃ t ∈ l.pendingHead env, x = t.id
    · obtain ⟨t, ht, rfl⟩ := hhead
      obtain ⟨-, -, hbroadcasts⟩ := lock_some hl
      refine hw.head ht ?_ (haction ▸ hspares.unlaunched) (haction ▸ hspares.unmoved)
      have hunsent := hspares.unsent
      have hstep : s.step (.processPending env) = s.unlock (l.processSinglePending env).1 :=
        locked_of_some _ hl
      rw [hstep, ← hbroadcasts] at hunsent
      exact hunsent
    · exact hw.touched (l.processSinglePending_touched env) hhead
        (hspares.notInEntries hw (heffect hl (l.processSinglePending_effect env) haction))
  | processInmempool env =>
    refine h.locked _ fun l hl hw => hw.touched (l.processSingleInmempool_touched env) ?_ ?_
    · rintro ⟨c, hc, t, ht, rfl⟩
      refine hw.queue.entries ⟨c.entry, ?_, t.held, ?_, rfl⟩
      · exact List.mem_map_of_mem (f := CompetitiveTransaction.entry) (List.mem_of_mem_head? hc)
      · rw [CompetitiveTransaction.entry_members]
        exact List.mem_map_of_mem (f := Transaction.held) ht
    · exact hspares.notInEntries hw
        (heffect hl (l.processSingleInmempool_effect env) (stepAction_locked hl))
  | processMined env =>
    refine h.locked _ fun l hl hw => hw.touched (l.processSingleMined_touched env) ?_ ?_
    · rintro ⟨t, ht, rfl⟩
      exact hw.queue.mined t ht rfl
    · rw [(l.processSingleMined_spec env).1]
      exact hw.queue.entries
  | restart env => cases hspares.running
  | included signed =>
    show (s.includeSigned signed).AwaitsNoop x n
    unfold includeSigned
    split
    · exact ⟨h.db, h.queue⟩
    · exact h

theorem AwaitsNoop.run {s : TransactionsQueues} {es : List Event} (h : s.AwaitsNoop x n)
    (hspares : EventMachine.Along TransactionsQueues.step (Spares x) s es) :
    (s.run es).AwaitsNoop x n :=
  hspares.invariant (P := fun s => s.AwaitsNoop x n) (fun _ _ hok hs => AwaitsNoop.step hs hok) h

end TransactionsQueues

section Startup

variable {relayer : Relayer} {env : StartupEnv} {db : Db} {r : Row}

/-- The absent repair leaves a row alone that failed before. -/
theorem repairAbsent_row_of_failed {chainNonce : ℕ} {absent : AbsentTransactions} {reason : String}
    {now : DateTime} (hr : db.row x = some r) (hfailed : r.failedAt.isSome = true) :
    (db.repairAbsentPendingTransactionsForRelayer relayerId chainNonce absent reason now).row x =
      some r := by
  unfold Db.repairAbsentPendingTransactionsForRelayer
  induction absent generalizing db with
  | nil => exact hr
  | cons entry absent ih =>
    rw [List.foldl_cons]
    refine ih ?_
    by_cases hx : entry.1 = x
    · have hguard : Db.absentGuard db relayerId chainNonce entry.2 r = false := by
        unfold Db.absentGuard
        rw [Option.isNone_eq_false_iff.mpr hfailed]
        simp
      unfold Db.repairAbsentOne
      dsimp only
      rw [hx, hr]
      dsimp only
      rw [hguard]
      exact hr
    · have hwithin := repairAbsentOne_within relayerId chainNonce reason now db entry
      exact (hwithin.row_eq fun _ heq => hx heq.symm).trans hr

/-- The startup repairs leave a row that failed before alone, unless it was never sent. -/
theorem startupRepair_row_of_failed (relayer : Relayer) (env : StartupEnv)
    (hr : db.row x = some r) (hfailed : r.failedAt.isSome = true) :
    (startupRepair relayer env db).1.row x =
      some (if env.repairPoisoned && Db.poisoned relayer.id r then
        { r with
          status := .failed
          failedReason := r.failedReason.or (some Db.poisonedReason) } else r) := by
  by_cases hserved : env.repairPoisoned = true
  swap
  · unfold startupRepair
    rw [if_pos (by simpa using hserved)]
    simp [hserved, hr]
  have hkeeps {o o' : Option Row} {r₀ : Row} (hkept : Db.Kept o o') (ho : o = some r₀)
      (hfailed₀ : r₀.failedAt.isSome = true) : o' = some r₀ := by
    rcases hkept with hsame | ⟨s, s', hs, -, hrec⟩
    · exact hsame.trans ho
    · obtain rfl := Option.some.inj (ho.symm.trans hs)
      rw [hrec.unfailed] at hfailed₀
      cases hfailed₀
  simp only [hserved, Bool.true_and]
  have hrow := db.row_repairPoisoned relayer.id x
  rw [hr, Option.map_some] at hrow
  have hfailed' : (if Db.poisoned relayer.id r then
      { r with
        status := .failed
        failedReason := r.failedReason.or (some Db.poisonedReason) } else r : Row).failedAt.isSome =
          true := by
    split <;> exact hfailed
  rcases startupRepair_cases relayer env db hserved with ⟨hkept, -⟩ | ⟨c, absent, -, hdb⟩
  · exact hkeeps (hkept x) hrow hfailed'
  · rw [hdb]
    refine repairAbsent_row_of_failed ?_ hfailed'
    exact hkeeps (repairCandidates_kept ..) hrow hfailed'

end Startup

namespace TransactionsQueues

/-- The row is pending at the nonce, and so is the transaction in memory if there is a queue. -/
structure KeepsPending (s : TransactionsQueues) (x : TransactionId) (n : ℕ) : Prop where
  row : ∃ r, s.db.row x = some r ∧ r.status = .pending ∧ r.nonce = n
  queue : ∀ q, s.queue = some q → ∃ t ∈ q.pendingTransactions, t.id = x ∧ t.nonce = n

/-- The pass closes out the head, which is `x` at nonce `n`. -/
def ClosesOut (s : TransactionsQueues) (env : PendingEnv) (x : TransactionId) (n : ℕ) : Prop :=
  ∃ l ∈ s.lock, ∃ t ∈ l.pendingHead env, t.id = x ∧ t.nonce = n ∧
    (l.processSinglePending env).2 = .ok (.other .closedOutWithNoop (some 100))

/-- The head of the pending queue is the relayer's, has a row, and memory holds it once. -/
structure SoleHead (s : TransactionsQueues) (x : TransactionId) : Prop where
  row : (s.db.row x).isSome = true
  pending : ∀ q ∈ s.queue, ∃ t ts, q.pendingTransactions = t :: ts ∧ t.relayerId = s.relayer.id ∧
    ∀ u ∈ ts, u.id ≠ x
  entries : ∀ q ∈ s.queue, ∀ c ∈ q.inmempoolTransactions, ∀ t ∈ c.transactions, t.id ≠ x
  mined : ∀ q ∈ s.queue, ∀ t ∈ q.minedTransactions, t.id ≠ x

/-- What the database holds when the process crashes: the no-op's attempt is not durable yet, or
it is and its bytes were not handed over. -/
inductive CrashesWith (s : TransactionsQueues) (x : TransactionId) (n : ℕ) : Bool → Db → Prop where
  | unsent : CrashesWith s x n false s.db
  | persisted {t : Transaction} {hash : TransactionHash} {gas : GasPriceResult}
      {blobGas : Option BlobGasPriceResult} {legacy : Bool} {now : DateTime} {db : Db}
      (hid : t.id = x) (hnonce : t.nonce = n) (hstatus : t.status = .pending)
      (hdb : s.db.transactionBroadcastAttempt s.relayer.id t hash gas blobGas legacy now = some db) :
      CrashesWith s x n true db

/-- Only a close-out ends a pass this way. -/
theorem pendingFailed_closedOut {l : Locked} {env : PendingEnv} {t : Transaction}
    {e : TransactionQueueSendTransactionError}
    (h : (l.pendingFailed env t e).2 = .ok (.other .closedOutWithNoop (some 100))) :
    ∃ reason, env.write = true ∧
      (l.pendingFailed env t e).1 = (l.closeOutPendingTransactionAsNoop env t reason).1 := by
  have hclosed {reason : String}
      (h : (l.closeOutPendingTransactionAsNoop env t reason).2 =
        .ok (.other .closedOutWithNoop (some 100))) : env.write = true := by
    unfold Locked.closeOutPendingTransactionAsNoop at h
    dsimp only at h
    split at h
    · assumption
    · cases h
  have hmoved {l : Locked} {sent : TransactionSentWithRelayer} :
      (l.moveSent env t sent (.other .nonceSynchronized (some 100))).2 ≠
        .ok (.other .closedOutWithNoop (some 100)) := by
    unfold Locked.moveSent
    split
    · exact fun h => by cases h
    · exact fun h => by cases h
  cases e with
  | transactionSendError error =>
    dsimp only [Locked.pendingFailed] at h ⊢
    split at h
    · cases h
    · rename_i hclass
      exact ⟨error, hclosed h, rfl⟩
    · cases h
    · exfalso
      unfold Locked.pendingNonceConflict at h
      dsimp only at h
      split at h
      · cases h
      · split at h
        · cases h
        · split at h
          · cases h
          · unfold Locked.reassignPendingNonce at h
            split at h
            · cases h
            · split at h <;> cases h
          · split at h
            · cases h
            · split at h
              · cases h
              · unfold Locked.resolvePendingTransactionMined at h
                split at h
                · exact hmoved h
                · cases h
              · unfold Locked.recoverPendingLandedAttempt at h
                split at h
                · split at h
                  · cases h
                  · exact hmoved h
                · cases h
    · cases h
    · cases h
  | transactionEstimateGasError error =>
    dsimp only [Locked.pendingFailed] at h ⊢
    split at h
    · rename_i hclass
      exact ⟨error, hclosed h, rfl⟩
    · cases h
  | _ => cases h

/-- A close-out leaves the transaction waiting for its no-op. -/
theorem ClosesOut.awaitsNoop {s : TransactionsQueues} {env : PendingEnv}
    (h : s.ClosesOut env x n) (hsole : s.SoleHead x) :
    (s.step (.processPending env)).AwaitsNoop x n := by
  obtain ⟨l, hl, t, ht, rfl, rfl, hresult⟩ := h
  obtain ⟨hqueue, hdb, -⟩ := lock_some hl
  obtain ⟨-, -, ts, hlist⟩ := Locked.pendingHead_some ht
  obtain ⟨t₀, ts₀, hlist₀, hrelayer, hsole'⟩ := hsole.pending _ hqueue
  obtain ⟨rfl, rfl⟩ := List.cons_eq_cons.mp (hlist.symm.trans hlist₀)
  have hstep : s.step (.processPending env) = s.unlock (l.processSinglePending env).1 :=
    locked_of_some _ hl
  rw [hstep]
  have hspec := l.send_spec env.send (l.pendingCopy env t)
  have hcopy := l.pendingCopy_sameSlot env t
  have hprepared := prepareSend_spec l.queue.toSendConfig env.send (l.pendingCopy env t)
  have hpass := Locked.processSinglePending_head ht
  rcases hout : l.send env.send (l.pendingCopy env t) with ⟨t', l', e | sent⟩
  · rw [hout] at hpass hspec
    rw [hpass] at hresult ⊢
    obtain ⟨reason, hwrite, hclosed⟩ := pendingFailed_closedOut hresult
    dsimp only at hclosed ⊢
    have hid : t'.id = t.id := hspec.id.trans hcopy.id
    have hnonce : t'.nonce = t.nonce := hspec.nonce.trans hcopy.nonce
    have hrelayerId : t'.relayerId = s.relayer.id := by
      have hsent := l.send_relayerId env.send (l.pendingCopy env t)
      rw [hout] at hsent
      exact hsent.trans (hcopy.relayerId.trans hrelayer)
    rw [hclosed]
    unfold Locked.closeOutPendingTransactionAsNoop
    dsimp only
    rw [if_pos hwrite]
    have hunsent := Locked.closedOut_unsent (l := l') reason hrelayerId hnonce
    obtain ⟨r, hr⟩ : ∃ r, l'.db.row t.id = some r := by
      refine Option.isSome_iff_exists.mp (hspec.db.row_isSome ?_)
      rw [hdb]
      exact hsole.row
    have hclosedId : (l'.closedOut t' reason).id = t.id := hid
    rw [← hclosedId] at hr hsole' ⊢
    refine ⟨Db.awaitsNoop_update hr hunsent (.inr rfl), fun q hq => ?_⟩
    obtain rfl := Option.some.inj hq
    have hlist' : l'.queue.pendingTransactions = t :: ts := by rw [hspec.queue]; exact hlist
    refine ⟨fun u hu huid => ?_, ?_, ?_⟩
    · have hfirst : updateFirst (fun v : Transaction => v.id == (l'.closedOut t' reason).id)
          (fun _ => l'.closedOut t' reason) (t :: ts) = l'.closedOut t' reason :: ts :=
        updateFirst_cons_pos (p := fun v : Transaction => v.id == (l'.closedOut t' reason).id)
          (by simpa using hclosedId.symm)
      dsimp only [TransactionsQueue.updatePendingTransaction] at hu
      rw [hlist', hfirst] at hu
      rcases List.mem_cons.mp hu with rfl | hu
      · exact hunsent
      · exact absurd huid (hsole' u hu)
    · rw [TransactionsQueue.inEntries_iff]
      rintro ⟨c, hc, u, hu, huid⟩
      have hc : c ∈ l.queue.inmempoolTransactions := hspec.queue ▸ hc
      exact hsole.entries _ hqueue c hc u hu (huid.trans hclosedId)
    · intro u hu huid
      have hu : u ∈ l.queue.minedTransactions := hspec.queue ▸ hu
      exact hsole.mined _ hqueue u hu (huid.trans hclosedId)
  · rw [hout] at hpass
    rw [hpass] at hresult
    dsimp only at hresult
    unfold Locked.moveSent at hresult
    split at hresult <;> cases hresult

/-- The crashed row: one a close-out leaves, or the no-op's attempt over it. -/
theorem CrashesWith.row {c : TransactionsQueues} {persisted : Bool} {db : Db}
    (h : c.CrashesWith x n persisted db) (hc : c.AwaitsNoop x n) :
    ∃ r, db.row x = some r ∧ r.relayerId = c.relayer.id ∧ r.status = .pending ∧ r.nonce = n ∧
      r.failedAt.isSome = true ∧ Db.poisoned c.relayer.id r = !persisted := by
  obtain ⟨r, hr, hunsent, hfailed⟩ := hc.db
  cases h with
  | unsent =>
    refine ⟨r, hr, hunsent.relayerId, hunsent.status, hunsent.nonce, hfailed, ?_⟩
    unfold Db.poisoned
    rw [hunsent.relayerId, hunsent.status, hfailed, hunsent.hash, hunsent.sentAt]
    simp
  | @persisted t hash gas blobGas legacy now _ hid hnonce hstatus hdb =>
    unfold Db.transactionBroadcastAttempt at hdb
    dsimp only at hdb
    rw [hid, hr] at hdb
    obtain rfl := Option.some.inj hdb
    refine ⟨_, Db.row_update_self c.db (by intro; rfl) hr, rfl, hstatus, hnonce, hfailed, ?_⟩
    unfold Db.poisoned Row.withAttempt Row.withGas
    simp

/-- A transaction that was closed out survives the restart after a crash, unless the startup
repairs its row before an attempt of the no-op is durable. -/
theorem closed_out_survives_iff {s : TransactionsQueues} {env : PendingEnv} (es : List Event)
    {persisted : Bool} {db : Db} (envS : StartupEnv) (hclosed : s.ClosesOut env x n)
    (hsole : s.SoleHead x)
    (hes : EventMachine.Along TransactionsQueues.step (Spares x) (s.step (.processPending env)) es)
    (hcrash : ((s.step (.processPending env)).run es).CrashesWith x n persisted db) :
    KeepsPending (startup { (s.step (.processPending env)).run es with db := db } envS) x n ↔
      (envS.providerFound = true → envS.repairPoisoned = true → persisted = true) := by
  have hc := (hclosed.awaitsNoop hsole).run hes
  generalize (s.step (.processPending env)).run es = c at hc hcrash ⊢
  obtain ⟨r, hr, hrelayer, hstatus, hnonce, hfailed, hpoisoned⟩ := hcrash.row hc
  have hdb : (startup { c with db := db } envS).db =
      (startupTransactionsQueues c.relayer envS db).1 := rfl
  have hrow : (startup { c with db := db } envS).db.row x =
      some (if envS.providerFound && envS.repairPoisoned && !persisted then
        { r with
          status := .failed
          failedReason := r.failedReason.or (some Db.poisonedReason) } else r) := by
    rw [hdb, startupTransactionsQueues_db]
    by_cases hprovider : envS.providerFound = true
    · rw [if_pos hprovider, startupRepair_row_of_failed c.relayer envS hr hfailed, hpoisoned,
        hprovider, Bool.true_and]
    · rw [if_neg hprovider, hr]
      simp [hprovider]
  constructor
  · intro hkeeps hprovider hrepair
    obtain ⟨r', hr', hstatus', -⟩ := hkeeps.row
    rw [hrow] at hr'
    obtain rfl := Option.some.inj hr'
    by_cases hpersisted : persisted = true
    · exact hpersisted
    · simp [hprovider, hrepair, hpersisted] at hstatus'
  · intro hcondition
    have hspared : (envS.providerFound && envS.repairPoisoned && !persisted) = false := by
      by_cases hprovider : envS.providerFound = true
      · by_cases hrepair : envS.repairPoisoned = true
        · simp [hcondition hprovider hrepair]
        · simp [hrepair]
      · simp [hprovider]
    rw [hspared] at hrow
    refine ⟨⟨r, hrow, hstatus, hnonce⟩, fun q hq => ?_⟩
    obtain ⟨onchainNonce, -, rfl⟩ := startupTransactionsQueues_queue hq
    rw [hdb] at hrow
    have hid : r.id = x := Db.row_id hr
    refine ⟨r.toTransaction, ?_, hid, hnonce⟩
    show r.toTransaction ∈ TransactionsQueue.sortPendingTransactions _
    unfold TransactionsQueue.sortPendingTransactions
    rw [List.mem_insertionSort]
    unfold Db.getTransactionsByStatusForRelayer Db.orderByNonce
    refine List.mem_map_of_mem ?_
    rw [List.mem_insertionSort, List.mem_filter]
    refine ⟨Db.mem_of_row hrow, ?_⟩
    rw [hrelayer, hstatus]
    simp

/-- A payment whose gas limit cannot fit in a block. -/
def rejectedPass : PendingEnv :=
  servedPending (.error "exceeds block gas limit") (servedClient [] 0) []

/-- The payment is admitted; the pass that follows closes it out. -/
def admittedPayment : TransactionsQueues := freshRelayer.run [.add (servedAdd 0) (payment 0 5)]

theorem admittedPayment_closesOut : admittedPayment.ClosesOut rejectedPass 0 0 := by
  unfold ClosesOut
  decide +kernel

theorem admittedPayment_soleHead : admittedPayment.SoleHead 0 := by
  refine ⟨by decide +kernel, ?_, by decide +kernel, by decide +kernel⟩
  have hshape : ∀ q ∈ admittedPayment.queue, q.pendingTransactions.length = 1 ∧
      ∀ t ∈ q.pendingTransactions, t.relayerId = admittedPayment.relayer.id := by decide +kernel
  intro q hq
  obtain ⟨hlength, hrelayer⟩ := hshape q hq
  obtain ⟨t, ht⟩ := List.length_eq_one_iff.mp hlength
  rw [ht] at hrelayer ⊢
  exact ⟨t, [], rfl, hrelayer t (List.mem_singleton_self t), by simp⟩

/-- The database does not serve the repair, so the relayer stays offline and the row stays. -/
theorem closed_out_survives_unrepaired :
    KeepsPending (startup { admittedPayment.step (.processPending rejectedPass) with
      db := (admittedPayment.step (.processPending rejectedPass)).db }
        { servedStartup (servedClient [] 0) with repairPoisoned := false }) 0 0 :=
  (closed_out_survives_iff [] { servedStartup (servedClient [] 0) with repairPoisoned := false }
    admittedPayment_closesOut admittedPayment_soleHead trivial .unsent).mpr fun _ h => by cases h

/-- The process crashes right after the close-out and comes up again. -/
theorem closed_out_survives_fails :
    ¬ ∀ (s : TransactionsQueues) (env : PendingEnv) (x : TransactionId) (n : ℕ) (envS : StartupEnv),
      s.ClosesOut env x n → s.SoleHead x →
        KeepsPending ((s.step (.processPending env)).startup envS) x n := by
  intro hsurvives
  obtain ⟨r, hr, hstatus, -⟩ := (hsurvives admittedPayment rejectedPass 0 0
    (servedStartup (servedClient [] 0)) admittedPayment_closesOut admittedPayment_soleHead).row
  have hfailed : ∀ r ∈ ((admittedPayment.step (.processPending rejectedPass)).startup
      (servedStartup (servedClient [] 0))).db.row 0, r.status = .failed := by decide +kernel
  rw [hfailed r hr] at hstatus
  cases hstatus

end TransactionsQueues
end Rrelayer
