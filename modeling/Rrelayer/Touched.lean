import Rrelayer.SystemEffect

/-! Which transactions an operation touches: the others keep their rows, and memory holds no
copies of them that it did not hold before. -/
namespace Rrelayer

namespace Locked

/-- A change that touches no transactions but those in `ids`. -/
structure Touched (ids : TransactionId → Prop) (l l' : Locked) : Prop where
  db : l.db.Within (fun x _ => ids x) l'.db
  pending : ∀ t ∈ l'.queue.pendingTransactions, t ∈ l.queue.pendingTransactions ∨ ids t.id
  mined : ∀ t ∈ l'.queue.minedTransactions, t ∈ l.queue.minedTransactions ∨ ids t.id

variable {ids ids' : TransactionId → Prop} {l l' l'' : Locked}

theorem Touched.refl (l : Locked) : l.Touched ids l :=
  ⟨.refl _, fun _ ht => .inl ht, fun _ ht => .inl ht⟩

theorem Touched.trans (h : l.Touched ids l') (h' : l'.Touched ids l'') : l.Touched ids l'' where
  db := h.db.trans h'.db
  pending t ht := (h'.pending t ht).elim (h.pending t) .inr
  mined t ht := (h'.mined t ht).elim (h.mined t) .inr

theorem Touched.mono (hids : ∀ x, ids x → ids' x) (h : l.Touched ids l') : l.Touched ids' l' where
  db := h.db.mono fun x _ => hids x
  pending t ht := (h.pending t ht).imp id (hids t.id)
  mined t ht := (h.mined t ht).imp id (hids t.id)

/-- A change of the database alone. -/
theorem Touched.of_db {db : Db} (h : l.db.Within (fun x _ => ids x) db) :
    l.Touched ids { l with db := db } :=
  ⟨h, fun _ ht => .inl ht, fun _ ht => .inl ht⟩

/-- A send touches the transaction it sends. -/
theorem SendSpec.touched {t : Transaction}
    {o : Transaction × Locked × SendResult TransactionSentWithRelayer} (hs : l.SendSpec t o)
    (hid : ids t.id) : l.Touched ids o.2.1 := by
  refine ⟨hs.db.mono ?_, ?_, ?_⟩
  · rintro x n ⟨rfl, -⟩
    exact hid
  · rw [hs.queue]
    exact fun _ ht => .inl ht
  · rw [hs.queue]
    exact fun _ ht => .inl ht

theorem addTransaction_touched (l : Locked) (env : AdmissionEnv) (toSend : TransactionToSend) :
    l.Touched (· = toSend.id) (l.addTransaction env toSend).1 := by
  have hleaves := l.addTransaction_leaves env toSend
  generalize (l.addTransaction env toSend).1 = l' at hleaves ⊢
  cases hleaves with
  | kept => exact ⟨.refl _, fun _ hu => .inl hu, fun _ hu => .inl hu⟩
  | rejected manager hid _ h =>
    exact ⟨Db.transactionFailedOnSend_within (P := fun x _ => x = toSend.id) hid h,
      fun _ hu => .inl hu, fun _ hu => .inl hu⟩
  | saved manager hid _ _ _ _ h =>
    refine ⟨Db.saveTransaction_within (P := fun x _ => x = toSend.id) hid h, ?_,
      fun _ hu => .inl hu⟩
    intro u hu
    rcases (List.mem_orderedInsert (r := fun a b : Transaction => a.nonce < b.nonce)).mp hu with
      rfl | hu
    · exact .inr hid
    · exact .inl hu

section Pending

variable {env : PendingEnv} {t : Transaction}

theorem moveSent_touched {sent : TransactionSentWithRelayer}
    {result : ProcessResult ProcessPendingStatus} :
    l.Touched ids (l.moveSent env t sent result).1 := by
  unfold moveSent
  rcases hmove : l.queue.movePendingToInmempool t sent env.nowMoved with e | q
  · exact .refl l
  · obtain ⟨queued, rest, hlist, -, -, rfl⟩ := TransactionsQueue.movePendingToInmempool_ok hmove
    refine ⟨.refl _, fun u hu => .inl ?_, fun _ hu => .inl hu⟩
    rw [hlist]
    exact List.mem_cons_of_mem _ hu

/-- A pending transaction as rewritten, row and copy. -/
theorem rewritten_touched {u : Transaction} {now : DateTime} (hid : ids u.id) :
    l.Touched ids { l with
      db := l.db.transactionUpdate u now
      queue := l.queue.updatePendingTransaction u } := by
  refine ⟨Db.transactionUpdate_within (t := u) hid, fun v hv => ?_, fun _ hv => .inl hv⟩
  rcases mem_updateFirst hv with hv | ⟨w, -, -, rfl⟩
  · exact .inl hv
  · exact .inr hid

theorem pendingFailed_touched {error : TransactionQueueSendTransactionError} (hid : ids t.id) :
    l.Touched ids (l.pendingFailed env t error).1 := by
  have hleaves := l.pendingFailed_leaves env t error
  generalize (l.pendingFailed env t error).1 = l' at hleaves ⊢
  cases hleaves with
  | kept => exact .refl l
  | closedOut reason => exact rewritten_touched (u := l.closedOut t reason) hid
  | reassigned newNonce =>
    refine ⟨Db.transactionUpdateNonce_within hid, fun u hu => ?_, fun v hv => .inl ?_⟩
    · rcases TransactionsQueue.mem_updatePendingTransactionNonce hu with hu | ⟨w, -, hw, rfl⟩
      · exact .inl hu
      · exact .inr (hw ▸ hid)
    · rw [TransactionsQueue.updatePendingTransactionNonce_minedTransactions] at hv
      exact hv
  | mined => exact (Touched.of_db (Db.transactionSent_within (n := 0) hid)).trans moveSent_touched
  | @recovered attempt gas db _ _ hserved =>
    have hdb : l.db.Within (fun x _ => ids x) (l.db.recoverLandedTransactionAttempt
        l.queue.relayer.id t.id attempt.hash gas attempt.sentWithBlobGas
        l.queue.isLegacyTransactions env.nowWrite).2 := Db.recoverLanded_within (n := 0) hid
    rw [hserved] at hdb
    exact (Touched.of_db hdb).trans moveSent_touched

/-- A pending pass touches its head. -/
theorem processSinglePending_touched (l : Locked) (env : PendingEnv) :
    l.Touched (fun x => ∃ t ∈ l.pendingHead env, x = t.id) (l.processSinglePending env).1 := by
  unfold processSinglePending pendingHead
  by_cases hpaused : l.queue.relayer.paused = true
  · simp only [hpaused, if_true]
    exact .refl l
  simp only [hpaused, Bool.false_or, Bool.false_eq_true, if_false]
  cases hnext : l.queue.getNextPendingTransaction with
  | none => exact .refl l
  | some t =>
    by_cases hguard : env.guard = true
    · simp only [hguard, Bool.not_true, Bool.false_eq_true, if_false, Option.mem_def,
        Option.some.injEq, exists_eq_left']
      have hspec := send_spec l env.send (l.pendingCopy env t)
      have hcopy := (pendingCopy_slot l env t).1
      have hsent : l.Touched (· = t.id) (l.send env.send (l.pendingCopy env t)).2.1 :=
        hspec.touched hcopy
      rcases hsend : l.send env.send (l.pendingCopy env t) with ⟨t', l', e | sent⟩
      · rw [hsend] at hspec hsent
        exact hsent.trans (pendingFailed_touched (hspec.id.trans hcopy))
      · rw [hsend] at hspec hsent
        exact hsent.trans moveSent_touched
    · simp only [hguard, Bool.not_false, if_true]
      exact .refl l

end Pending

section Inmempool

variable {env : InmempoolEnv} {t : Transaction}

theorem updateFrontById_lists (q : TransactionsQueue) (id : TransactionId)
    (f : Transaction → Transaction) :
    (q.updateFrontById id f).pendingTransactions = q.pendingTransactions ∧
      (q.updateFrontById id f).minedTransactions = q.minedTransactions := by
  unfold TransactionsQueue.updateFrontById
  split <;> exact ⟨rfl, rfl⟩

/-- The transactions of the front entry. -/
def inFront (l : Locked) (x : TransactionId) : Prop :=
  ∃ c ∈ l.queue.inmempoolTransactions.head?, ∃ t ∈ c.transactions, x = t.id

theorem active_mem_transactions (c : CompetitiveTransaction) :
    c.getActiveTransaction ∈ c.transactions := by
  unfold CompetitiveTransaction.getActiveTransaction CompetitiveTransaction.transactions
  cases c.competitive <;> simp

/-- A decided race leaves the front, and memory keeps at most its winner. -/
theorem moveInmempoolToMining_lists {q q' : TransactionsQueue} {id : TransactionId}
    {receipt : Receipt} {now : DateTime} {r : CompetitionResolutionResult}
    (h : q.moveInmempoolToMining id receipt now = .ok (r, q')) :
    (∃ front ∈ q.inmempoolTransactions.head?,
        TransactionsQueue.resolveCompetition q.relayer.address front id receipt now = some r) ∧
      q'.pendingTransactions = q.pendingTransactions ∧
        ∀ t ∈ q'.minedTransactions, t ∈ q.minedTransactions ∨ t = r.winner := by
  unfold TransactionsQueue.moveInmempoolToMining at h
  split at h
  · cases h
  · rename_i front rest hlist
    split at h
    · cases h
    · rename_i resolution hresolve
      cases h
      refine ⟨⟨front, by rw [hlist]; rfl, hresolve⟩, rfl, fun t ht => ?_⟩
      dsimp only at ht
      split at ht
      · rcases List.mem_append.mp ht with ht | ht
        · exact .inl (List.mem_filter.mp ht).1
        · exact .inr (List.mem_singleton.mp ht)
      · exact .inl ht

theorem resolveInmempool_touched {receipt : Receipt} :
    l.Touched l.inFront (l.resolveInmempool env t receipt).1 := by
  unfold resolveInmempool
  rcases hmove : l.queue.moveInmempoolToMining t.id receipt env.now with e | ⟨r, q'⟩
  · exact .refl l
  obtain ⟨⟨front, hfront, hresolve⟩, hpending, hmined⟩ := moveInmempoolToMining_lists hmove
  obtain ⟨-, hwinner, hloser⟩ := TransactionsQueue.resolveCompetition_slots hresolve
  have hinFront {u : Transaction} (hu : u.slot ∈ front.transactions.map (·.slot)) :
      l.inFront u.id := by
    obtain ⟨v, hv, hslot⟩ := List.mem_map.mp hu
    exact ⟨front, hfront, v, hv, (Prod.ext_iff.mp hslot).1.symm⟩
  obtain ⟨hqueue, -, hdb⟩ := saveResolution_frame { l with queue := q' } env receipt r
    (P := fun x _ => l.inFront x) (hinFront hwinner) fun u hu => hinFront (hloser u hu)
  show l.Touched l.inFront ({ l with queue := q' }.saveResolution env receipt r).1
  refine ⟨hdb, fun u hu => .inl ?_, fun u hu => ?_⟩
  · rw [hqueue] at hu
    exact hpending ▸ hu
  · rw [hqueue] at hu
    rcases hmined u hu with hu | rfl
    · exact .inl hu
    · exact .inr (hinFront hwinner)

theorem bumpFailed_touched {error : TransactionQueueSendTransactionError} (hid : ids t.id) :
    l.Touched ids (l.bumpFailed env t error).1 := by
  have hleaves := l.bumpFailed_leaves env t error
  generalize (l.bumpFailed env t error).1 = l' at hleaves ⊢
  cases hleaves with
  | kept => exact .refl l
  | reassigned newNonce =>
    exact ⟨Db.transactionUpdateNonce_within hid, fun _ hu => .inl hu, fun _ hu => .inl hu⟩

theorem bumpSent_touched {wasNoop : Bool} {sent : TransactionSentWithRelayer} :
    l.Touched ids (l.bumpSent env t wasNoop sent).1 := by
  have hgas := updateFrontById_lists l.queue sent.id fun u => u.exposeAttempt sent env.nowWrite
  unfold bumpSent
  dsimp only
  split
  · have hnoop := updateFrontById_lists (l.queue.updateInmempoolTransactionGas sent env.nowWrite)
      t.id fun u => { transactionToNoop
        (l.queue.updateInmempoolTransactionGas sent env.nowWrite).relayer.address u with
          knownTransactionHash := some sent.hash
          sentAt := some env.nowWrite }
    refine ⟨.refl _, fun u hu => .inl ?_, fun u hu => .inl ?_⟩
    · have hu := hnoop.1 ▸ hu
      exact hgas.1 ▸ hu
    · have hu := hnoop.2 ▸ hu
      exact hgas.2 ▸ hu
  · exact ⟨.refl _, fun u hu => .inl (hgas.1 ▸ hu), fun u hu => .inl (hgas.2 ▸ hu)⟩

/-- An in-mempool pass touches the front entry. -/
theorem processSingleInmempool_touched (l : Locked) (env : InmempoolEnv) :
    l.Touched l.inFront (l.processSingleInmempool env).1 := by
  rcases hpolled : l.polled env with _ | ⟨t, hash⟩
  · rw [processSingleInmempool_unpolled hpolled]
    exact .refl l
  obtain ⟨-, -, front, rest, hfront, ht⟩ := polled_some hpolled
  have hactive : l.inFront t.id :=
    ⟨front, by rw [hfront]; rfl, t, ht ▸ active_mem_transactions front, rfl⟩
  rw [processSingleInmempool_polled hpolled]
  split
  · exact .refl l
  · exact resolveInmempool_touched
  · split
    · have hspec := send_spec l env.send t
      have hsent := hspec.touched hactive
      unfold bumpInmempool
      rcases hsend : l.send env.send t with ⟨bumped, l', e | sent⟩
      · rw [hsend] at hspec hsent
        exact hsent.trans (bumpFailed_touched (hspec.id ▸ hactive))
      · rw [hsend] at hsent
        exact hsent.trans bumpSent_touched
    · exact .refl l

/-- A mined pass touches a mined transaction. -/
theorem processSingleMined_touched (l : Locked) (env : MinedEnv) :
    l.Touched (fun x => ∃ t ∈ l.queue.minedTransactions, x = t.id)
      (l.processSingleMined env).1 := by
  rcases l.processSingleMined_cases env with hkept | ⟨t, hnext, hconfirmed⟩
  · rw [hkept]
    exact .refl l
  · have hmined : ∃ u ∈ l.queue.minedTransactions, t.id = u.id := ⟨t, getNextMined_mem hnext, rfl⟩
    rw [hconfirmed]
    exact ⟨Db.transactionConfirmed_within (n := 0) hmined, fun _ hu => .inl hu,
      fun _ hu => .inl (List.mem_filter.mp hu).1⟩

end Inmempool

section Compete

variable {env : CompeteEnv} {original competitor : Transaction}

theorem sendCompetitor_touched {type : CompetitionType} (hcompetitor : ids competitor.id)
    (horiginal : ids original.id) :
    l.Touched ids (l.sendCompetitor env original competitor type).1 := by
  have hsent := (send_spec l env.send competitor).touched hcompetitor
  unfold sendCompetitor
  split
  · rename_i hsend
    rw [hsend] at hsent
    split
    · split <;> exact hsent
    · exact hsent
  · rename_i hsend
    rw [hsend] at hsent
    exact hsent
  · rename_i sentCompetitor l' sent hsend
    rw [hsend] at hsent
    dsimp only
    split
    · exact hsent
    · have hlinked : l'.db.Within (fun x _ => ids x) (l'.db.transactionUpdate
          { original with cancelledByTransactionId := some competitor.id } env.nowWrite) :=
        Db.transactionUpdate_within
          (t := { original with cancelledByTransactionId := some competitor.id }) horiginal
      split
      · exact hsent.trans (.of_db hlinked)
      · rename_i q hadd
        obtain ⟨front, rest, -, -, rfl⟩ := TransactionsQueue.addCompetitor_ok hadd
        exact hsent.trans ⟨hlinked, fun u hu => .inl hu, fun u hu => .inl hu⟩

/-- What a cancel or replace of `id` may touch. -/
def competed (l : Locked) (env : CompeteEnv) (id x : TransactionId) : Prop :=
  x = env.newId ∨ x = id ∧ (l.queue.getEditableTransactionById id).isSome = true

theorem rewritePending_touched {u : Transaction} {l' : Locked} (hid : ids u.id)
    (h : l.rewritePending env u = some l') : l.Touched ids l' := by
  unfold rewritePending at h
  split at h
  · cases h
    exact rewritten_touched hid
  · cases h

theorem raced_competed {id : TransactionId} (h : l.raced env id = some original) :
    l.competed env id original.id := by
  obtain ⟨-, -, heditable⟩ := raced_some h
  obtain ⟨-, -, -, rfl⟩ := TransactionsQueue.getEditable_inmempool heditable
  exact .inr ⟨rfl, by rw [heditable]; rfl⟩

theorem cancelTransaction_touched (l : Locked) (env : CompeteEnv) (id : TransactionId) :
    l.Touched (l.competed env id) (l.cancelTransaction env id).1 := by
  obtain hkept | ⟨t, heditable, hrewrite⟩ | ⟨original, competitor, hraced, hcompetitor, hsent⟩ :=
    l.cancelTransaction_cases env id
  · rw [hkept]
    exact .refl l
  · obtain ⟨-, rfl⟩ := TransactionsQueue.getEditable_pending heditable
    have hid : l.competed env t.id t.id := .inr ⟨rfl, by rw [heditable]; rfl⟩
    exact rewritePending_touched (u := l.cancelledPending t) hid hrewrite
  · rw [hsent]
    exact sendCompetitor_touched (.inl (cancelCompetitor_competes hcompetitor).id)
      (raced_competed hraced)

theorem replaceTransaction_touched (l : Locked) (env : CompeteEnv)
    (request : RelayTransactionRequest) (id : TransactionId) :
    l.Touched (l.competed env id) (l.replaceTransaction env request id).1 := by
  obtain hkept | ⟨t, blobs, heditable, hrewrite⟩ |
      ⟨original, competitor, hraced, hcompetitor, hsent⟩ :=
    l.replaceTransaction_cases env request id
  · rw [hkept]
    exact .refl l
  · obtain ⟨-, rfl⟩ := TransactionsQueue.getEditable_pending heditable
    have hid : l.competed env t.id t.id := .inr ⟨rfl, by rw [heditable]; rfl⟩
    exact rewritePending_touched (u := transactionReplace request t blobs) hid hrewrite
  · rw [hsent]
    exact sendCompetitor_touched (.inl (replaceCompetitor_competes hcompetitor).id)
      (raced_competed hraced)

end Compete

end Locked
end Rrelayer
