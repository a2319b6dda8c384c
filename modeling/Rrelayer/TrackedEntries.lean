import Rrelayer.BroadcastEvidence

/-! Which in-mempool rows memory still knows: an operation tracks what it puts in the mempool, or
leaves a row behind that no entry holds. -/
namespace Rrelayer

/-- The relayer has a row of the transaction that is in the mempool. -/
def Db.Shows (relayerId : RelayerId) (db : Db) (x : TransactionId) : Prop :=
  ∃ r ∈ db.rows, r.id = x ∧ r.relayerId = relayerId ∧ r.status = .inmempool

/-- The transaction is the original or the competitor of an entry. -/
def TransactionsQueue.Holds (q : TransactionsQueue) (x : TransactionId) : Prop :=
  ∃ c ∈ q.inmempoolTransactions, ∃ t ∈ c.transactions, t.id = x

/-- Every transaction whose row is in the mempool is held. -/
def Locked.Tracked (l : Locked) : Prop :=
  ∀ x, Db.Shows l.queue.relayer.id l.db x → l.queue.Holds x

namespace Db

variable {relayerId : RelayerId} {db db' : Db} {x y : TransactionId}

theorem Shows.of_update {f : Row → Row} (h : Shows relayerId (db.update y f) x)
    (hid : ∀ r, (f r).id = r.id) :
    Shows relayerId db x ∨ x = y ∧ ∃ r ∈ db.rows, r.id = y ∧ (f r).relayerId = relayerId ∧
      (f r).status = .inmempool := by
  obtain ⟨r', hr', hx, hrelayer, hstatus⟩ := h
  obtain ⟨r, hr, ⟨hy, rfl⟩ | ⟨-, rfl⟩⟩ := mem_update hr'
  · rw [hid] at hx
    exact .inr ⟨hx.symm.trans hy, r, hr, hy, hrelayer, hstatus⟩
  · exact .inl ⟨r', hr, hx, hrelayer, hstatus⟩

/-- A statement that writes another status. -/
theorem Shows.of_leaving {f : Row → Row} (h : Shows relayerId (db.update y f) x)
    (hleaves : ∀ r, (f r).status ≠ .inmempool) : Shows relayerId db x ∧ x ≠ y := by
  obtain ⟨r', hr', hx, hrelayer, hstatus⟩ := h
  obtain ⟨r, hr, ⟨hy, rfl⟩ | ⟨hne, rfl⟩⟩ := mem_update hr'
  · exact absurd hstatus (hleaves r)
  · exact ⟨⟨r', hr, hx, hrelayer, hstatus⟩, fun hxy => hne (hx.trans hxy)⟩

theorem avoids_of_row_none {status : TransactionStatus} (h : db.row x = none) :
    Avoids status db x := by
  intro r hr hid
  have hnone := List.find?_eq_none.mp h r hr
  simp [hid] at hnone

end Db

namespace Locked

/-- An operation loses track of no transaction. -/
structure KeepsTrack (l l' : Locked) : Prop where
  relayer : l'.queue.relayer.id = l.queue.relayer.id
  holds : ∀ x, l.queue.Holds x → l'.queue.Holds x ∨ ¬ Db.Shows l.queue.relayer.id l'.db x
  shows : ∀ x, Db.Shows l.queue.relayer.id l'.db x →
    l'.queue.Holds x ∨ Db.Shows l.queue.relayer.id l.db x

variable {l l' : Locked}

theorem KeepsTrack.tracked (h : l.KeepsTrack l') (hl : l.Tracked) : l'.Tracked := by
  intro x hx
  rw [h.relayer] at hx
  rcases h.shows x hx with hheld | hbefore
  · exact hheld
  · rcases h.holds x (hl x hbefore) with hheld | hgone
    · exact hheld
    · exact absurd hx hgone

theorem KeepsTrack.refl (l : Locked) : l.KeepsTrack l :=
  ⟨rfl, fun _ hx => .inl hx, fun _ hx => .inr hx⟩

/-- The entries stay. -/
theorem KeepsTrack.of_entries (hrelayer : l'.queue.relayer = l.queue.relayer)
    (hentries : l'.queue.inmempoolTransactions = l.queue.inmempoolTransactions)
    (hshows : ∀ x, Db.Shows l.queue.relayer.id l'.db x →
      l.queue.Holds x ∨ Db.Shows l.queue.relayer.id l.db x) : l.KeepsTrack l' := by
  have hheld : ∀ x, l'.queue.Holds x ↔ l.queue.Holds x := by
    intro x
    unfold TransactionsQueue.Holds
    rw [hentries]
  constructor
  · rw [hrelayer]
  · intro x hx
    exact .inl ((hheld x).mpr hx)
  · intro x hx
    exact (hshows x hx).imp (hheld x).mpr id

/-- The rows in the mempool after a send: the earlier ones, and the one sent. -/
theorem send_shows {env : SendEnv} {t t' : Transaction}
    {result : SendResult TransactionSentWithRelayer} {relayerId : RelayerId}
    (h : l.send env t = (t', l', result)) {x : TransactionId} (hx : Db.Shows relayerId l'.db x) :
    Db.Shows relayerId l.db x ∨ x = t.id ∧ (t.status = .inmempool ∨ ∃ sent, result = .ok sent) := by
  have hprepare := prepareSend_spec l.queue.toSendConfig env t
  have hattempted {t₁ : Transaction} {signed : SignedTransaction}
      {sent : TransactionSentWithRelayer} {db : Db}
      (hp : prepareSend l.queue.toSendConfig env t = (t₁, .ok (signed, sent)))
      (hattempt : l.db.transactionBroadcastAttempt l.queue.toSendConfig.relayer.id t₁ sent.hash
        sent.sentWithGas sent.sentWithBlobGas l.queue.toSendConfig.isLegacyTransactions
        env.nowSent = some db) (hshown : Db.Shows relayerId db x) :
      Db.Shows relayerId l.db x ∨ x = t.id ∧ t.status = .inmempool := by
    rw [hp] at hprepare
    have hslot := hprepare.1
    obtain ⟨r', hr', hid, hrelayer, hstatus⟩ := hshown
    obtain ⟨hrows, -⟩ := Db.transactionBroadcastAttempt_spec hattempt
    rcases hrows r' hr' with ⟨hr, -⟩ | ⟨r, hrid, rfl⟩
    · exact .inl ⟨r', hr, hid, hrelayer, hstatus⟩
    · exact .inr ⟨hid.symm.trans (hrid.trans hslot.id), hslot.status.symm.trans hstatus⟩
  have hends := l.send_ends env t
  rw [h] at hends
  cases hends with
  | unprepared | unrecorded => exact .inl hx
  | refused hp hattempt | unmarked hp hattempt =>
    exact (hattempted hp hattempt hx).imp id fun hsame => ⟨hsame.1, .inl hsame.2⟩
  | marked hp hattempt =>
    rcases Db.Shows.of_update hx (by intro; rfl) with hx | ⟨hid, -⟩
    · exact (hattempted hp hattempt hx).imp id fun hsame => ⟨hsame.1, .inl hsame.2⟩
    · rw [hp] at hprepare
      have hfor := hprepare.2 _ _ rfl
      exact .inr ⟨hid.trans hfor.id, .inr ⟨_, rfl⟩⟩

section Pending

variable {env : PendingEnv} {t : Transaction}

/-- The head that is moved is held, and so is everything that was. -/
theorem moveSent_holds {sent : TransactionSentWithRelayer}
    {result : ProcessResult ProcessPendingStatus} {head : Transaction}
    (hhead : l.queue.pendingTransactions.head? = some head) (hid : head.id = t.id)
    (hsent : sent.id = t.id) :
    (l.moveSent env t sent result).1.queue.Holds t.id ∧
      ∀ x, l.queue.Holds x → (l.moveSent env t sent result).1.queue.Holds x := by
  obtain ⟨rest, hlist⟩ := List.head?_eq_some_iff.mp hhead
  have hmove : l.queue.movePendingToInmempool t sent env.nowMoved = .ok { l.queue with
      pendingTransactions := rest
      inmempoolTransactions := l.queue.inmempoolTransactions ++
        [.new (TransactionsQueue.sentTransaction t sent env.nowMoved)] } := by
    unfold TransactionsQueue.movePendingToInmempool
    rw [hlist]
    simp [hid, hsent]
  unfold moveSent
  rw [hmove]
  constructor
  · refine ⟨_, List.mem_append_right _ (List.mem_singleton_self _), _, List.mem_cons_self .., rfl⟩
  · rintro x ⟨c, hc, hx⟩
    exact ⟨c, List.mem_append_left _ hc, hx⟩

theorem moveSent_keepsTrack {l₀ : Locked} {sent : TransactionSentWithRelayer}
    {result : ProcessResult ProcessPendingStatus} {head : Transaction}
    (hqueue : l.queue = l₀.queue) (hhead : l.queue.pendingTransactions.head? = some head)
    (hid : head.id = t.id) (hsent : sent.id = t.id)
    (hshows : ∀ x, Db.Shows l₀.queue.relayer.id l.db x →
      Db.Shows l₀.queue.relayer.id l₀.db x ∨ x = t.id) :
    l₀.KeepsTrack (l.moveSent env t sent result).1 := by
  obtain ⟨hheld, hholds⟩ := @moveSent_holds l env t sent result head hhead hid hsent
  have hstore : (l.moveSent env t sent result).1.db = l.db := congrArg Prod.fst moveSent_store
  have hrelayer : (l.moveSent env t sent result).1.queue.relayer = l₀.queue.relayer := by
    rw [← hqueue]
    unfold moveSent
    rcases hmove : l.queue.movePendingToInmempool t sent env.nowMoved with e | q
    · rfl
    · obtain ⟨_, _, -, -, -, rfl⟩ := TransactionsQueue.movePendingToInmempool_ok hmove
      rfl
  constructor
  · rw [hrelayer]
  · intro x hx
    rw [← hqueue] at hx
    exact .inl (hholds x hx)
  · intro x hx
    rw [hstore] at hx
    rcases hshows x hx with hbefore | rfl
    · exact .inr hbefore
    · exact .inl hheld

/-- A new nonce moves no row in or out of the mempool. -/
theorem shows_updateNonce {relayerId : RelayerId} {db : Db} {id x : TransactionId} {m : ℕ}
    (h : Db.Shows relayerId (db.transactionUpdateNonce id m) x) : Db.Shows relayerId db x := by
  rcases Db.Shows.of_update h (by intro; rfl) with hbefore | ⟨rfl, r, hr, hid, hrelayer, hstatus⟩
  · exact hbefore
  · exact ⟨r, hr, hid, hrelayer, hstatus⟩

/-- An adopted attempt puts its transaction in the mempool and in an entry. -/
theorem adopted_keepsTrack {attempt : RecordedTransactionAttempt} {gas : GasPriceResult} {db : Db}
    {result : ProcessResult ProcessPendingStatus} {head : Transaction}
    (hhead : l.queue.pendingTransactions.head? = some head) (hid : head.id = t.id)
    (hshows : ∀ x, Db.Shows l.queue.relayer.id db x →
      Db.Shows l.queue.relayer.id l.db x ∨ x = t.id) :
    l.KeepsTrack (({ l with db := db } : Locked).moveSent env t (attemptSent t attempt gas)
      result).1 :=
  @moveSent_keepsTrack { l with db := db } env t l (attemptSent t attempt gas) result head rfl hhead
    hid rfl hshows

theorem pendingFailed_keepsTrack {error : TransactionQueueSendTransactionError}
    {head : Transaction} (hhead : l.queue.pendingTransactions.head? = some head)
    (hid : head.id = t.id) : l.KeepsTrack (l.pendingFailed env t error).1 := by
  have hleaves := l.pendingFailed_leaves env t error
  generalize (l.pendingFailed env t error).1 = l' at hleaves ⊢
  cases hleaves with
  | kept => exact .refl l
  | closedOut reason =>
    apply KeepsTrack.of_entries
    · rfl
    · rfl
    · intro x hx
      have hleft := Db.Shows.of_leaving hx (by intro _ h; cases h)
      exact .inr hleft.1
  | reassigned newNonce =>
    apply KeepsTrack.of_entries
    · exact TransactionsQueue.updatePendingTransactionNonce_relayer
    · exact TransactionsQueue.updatePendingTransactionNonce_inmempoolTransactions
    · intro x hx
      exact .inr (shows_updateNonce hx)
  | mined =>
    apply adopted_keepsTrack hhead hid
    intro x hx
    exact (Db.Shows.of_update hx (by intro; rfl)).imp id fun h => h.1
  | recovered _ _ hserved =>
    have hdb := Db.recoverLanded_true hserved
    apply adopted_keepsTrack hhead hid
    intro x hx
    rw [hdb] at hx
    exact (Db.Shows.of_update hx (by intro; rfl)).imp id fun h => h.1

/-- An operation after a change of the database alone. -/
theorem KeepsTrack.of_start {l₁ : Locked} (h : l₁.KeepsTrack l') (hqueue : l₁.queue = l.queue)
    (hshows : ∀ x, Db.Shows l.queue.relayer.id l₁.db x →
      l.queue.Holds x ∨ Db.Shows l.queue.relayer.id l.db x) : l.KeepsTrack l' := by
  obtain ⟨hrelayer, hholds, hshown⟩ := h
  rw [hqueue] at hrelayer hholds hshown
  constructor
  · exact hrelayer
  · exact hholds
  · intro x hx
    rcases hshown x hx with hheld | hbefore
    · exact .inl hheld
    · rcases hshows x hbefore with hheld | hearlier
      · exact .inl ((hholds x hheld).resolve_right fun hgone => hgone hx)
      · exact .inr hearlier

theorem processSinglePending_keepsTrack (l : Locked) (env : PendingEnv)
    (hpending : ∀ t ∈ l.queue.pendingTransactions, t.status = .pending) :
    l.KeepsTrack (l.processSinglePending env).1 := by
  unfold processSinglePending
  split
  · exact .refl l
  · split
    · exact .refl l
    · rename_i t hnext
      have hslot := pendingCopy_sameSlot l env t
      have hstatus : (l.pendingCopy env t).status ≠ .inmempool := by
        rw [hslot.status, hpending t (List.mem_of_head? hnext)]
        exact fun h => nomatch h
      split
      · exact .refl l
      · have hspec := send_spec l env.send (l.pendingCopy env t)
        split
        · rename_i t' l₁ sent hsend
          obtain ⟨hid, hqueue, -⟩ := send_ok hsend
          rw [hsend] at hspec
          have htid : t'.id = (l.pendingCopy env t).id := hspec.id
          apply moveSent_keepsTrack hqueue
          · rw [hqueue]
            exact hnext
          · exact (htid.trans hslot.id).symm
          · exact hid.trans htid.symm
          · intro x hx
            exact (send_shows hsend hx).imp id fun h => h.1.trans htid.symm
        · rename_i t' l₁ e hsend
          rw [hsend] at hspec
          have hqueue : l₁.queue = l.queue := hspec.queue
          have hfailed : l₁.KeepsTrack (l₁.pendingFailed env t' e).1 := by
            apply pendingFailed_keepsTrack
            · rw [hqueue]
              exact hnext
            · exact (hspec.id.trans hslot.id).symm
          apply hfailed.of_start hqueue
          intro x hx
          rcases send_shows hsend hx with hbefore | ⟨-, hsent | ⟨sent, hok⟩⟩
          · exact .inr hbefore
          · exact absurd hsent hstatus
          · cases hok

end Pending

section Inmempool

variable {env : InmempoolEnv} {t : Transaction}

theorem holds_iff {q q' : TransactionsQueue} {x : TransactionId}
    (h : q'.inmempoolTransactions.map (fun c => c.transactions.map (·.id)) =
      q.inmempoolTransactions.map (fun c => c.transactions.map (·.id))) :
    q'.Holds x ↔ q.Holds x := by
  have hmem (q : TransactionsQueue) : q.Holds x ↔
      ∃ ids ∈ q.inmempoolTransactions.map (fun c => c.transactions.map (·.id)), x ∈ ids := by
    unfold TransactionsQueue.Holds
    simp
  rw [hmem, hmem, h]

theorem updateTransactionById_ids {c : CompetitiveTransaction} {id : TransactionId}
    {f : Transaction → Transaction} (hf : ∀ u, (f u).id = u.id) :
    (c.updateTransactionById id f).transactions.map (·.id) = c.transactions.map (·.id) := by
  unfold CompetitiveTransaction.updateTransactionById CompetitiveTransaction.transactions
  split
  · simp [hf]
  · split
    · rename_i competitor type hcompetitive
      split
      · simp [hf, hcompetitive]
      · rfl
    · rfl

theorem updateFrontById_holds {q : TransactionsQueue} {id x : TransactionId}
    {f : Transaction → Transaction} (hf : ∀ u, (f u).id = u.id) :
    (q.updateFrontById id f).Holds x ↔ q.Holds x := by
  apply holds_iff
  unfold TransactionsQueue.updateFrontById
  split
  · rename_i front rest hlist
    rw [hlist, List.map_cons, List.map_cons, updateTransactionById_ids hf]
  · rfl

theorem active_held {front : CompetitiveTransaction} {rest : List CompetitiveTransaction}
    (h : l.queue.inmempoolTransactions = front :: rest) :
    l.queue.Holds front.getActiveTransaction.id :=
  ⟨front, h ▸ List.mem_cons_self .., _, active_mem_transactions front, rfl⟩

theorem updateInmempoolNonce_holds {q : TransactionsQueue} {id x : TransactionId} {m : ℕ} :
    (q.updateInmempoolTransactionNonce id m).Holds x ↔ q.Holds x := by
  apply holds_iff
  unfold TransactionsQueue.updateInmempoolTransactionNonce
  apply TransactionsQueue.map_updateFirst
  intro c _
  exact updateTransactionById_ids fun _ => rfl

theorem bumpFailed_keepsTrack {error : TransactionQueueSendTransactionError} :
    l.KeepsTrack (l.bumpFailed env t error).1 := by
  have hleaves := l.bumpFailed_leaves env t error
  generalize (l.bumpFailed env t error).1 = l' at hleaves ⊢
  cases hleaves with
  | kept => exact .refl l
  | reassigned newNonce =>
    constructor
    · rfl
    · intro x hx
      exact .inl (updateInmempoolNonce_holds.mpr hx)
    · intro x hx
      exact .inr (shows_updateNonce hx)

theorem bumpSent_keepsTrack {wasNoop : Bool} {sent : TransactionSentWithRelayer} :
    l.KeepsTrack (l.bumpSent env t wasNoop sent).1 := by
  have hgas {x : TransactionId} :
      (l.queue.updateInmempoolTransactionGas sent env.nowWrite).Holds x ↔ l.queue.Holds x :=
    updateFrontById_holds fun _ => rfl
  have hnoop {x : TransactionId} : ((l.queue.updateInmempoolTransactionGas sent
      env.nowWrite).updateInmempoolTransactionNoop t.id sent env.nowWrite).Holds x ↔
        (l.queue.updateInmempoolTransactionGas sent env.nowWrite).Holds x :=
    updateFrontById_holds (by intro; rfl)
  unfold bumpSent
  dsimp only
  split
  · constructor
    · unfold TransactionsQueue.updateInmempoolTransactionNoop
        TransactionsQueue.updateInmempoolTransactionGas TransactionsQueue.updateFrontById
      split <;> split <;> rfl
    · intro x hx
      exact .inl (hnoop.mpr (hgas.mpr hx))
    · intro x hx
      exact .inr hx
  · constructor
    · unfold TransactionsQueue.updateInmempoolTransactionGas TransactionsQueue.updateFrontById
      split <;> rfl
    · intro x hx
      exact .inl (hgas.mpr hx)
    · intro x hx
      exact .inr hx

/-- The writes of a decided race leave neither side behind in the mempool: the winner's is served,
and a beaten original is written too. -/
def SettlesFront (l : Locked) (env : InmempoolEnv) : Prop :=
  ∀ front ∈ l.queue.inmempoolTransactions.head?,
    ∀ hash ∈ front.getActiveTransaction.knownTransactionHash,
    ∀ receipt, env.guard = true → env.pollReceipt hash = .ok (some receipt) →
      env.write = true ∧ (front.competitive = none ∨
        ∃ competitor type, front.competitive = some (competitor, type) ∧
          competitor.id ≠ front.original.id ∧ receipt.status = true ∧ env.writeLoser = true)

section Resolved

variable {front : CompetitiveTransaction} {rest : List CompetitiveTransaction} {receipt : Receipt}

/-- What the queue held is held behind the front entry, or was a member of it. -/
theorem holds_front (hfront : l.queue.inmempoolTransactions = front :: rest) {x : TransactionId}
    (hx : l.queue.Holds x) :
    (∃ c ∈ rest, ∃ t ∈ c.transactions, t.id = x) ∨ ∃ t ∈ front.transactions, t.id = x := by
  obtain ⟨c, hc, hx⟩ := hx
  rw [hfront] at hc
  rcases List.mem_cons.mp hc with rfl | hc
  · exact .inr hx
  · exact .inl ⟨c, hc, hx⟩

/-- A saved resolution without a loser takes the winner's row out of the mempool. -/
theorem saveResolution_keepsTrack {q : TransactionsQueue} {winner : Transaction}
    {status : TransactionStatus} (hfront : l.queue.inmempoolTransactions = front :: rest)
    (hwrite : env.write = true) (hmembers : ∀ t ∈ front.transactions, t.id = winner.id)
    (hstatus : status = .mined ∨ status = .expired ∨ status = .failed)
    (hq : q.inmempoolTransactions = rest) (hrelayer : q.relayer = l.queue.relayer) :
    l.KeepsTrack (({ l with queue := q } : Locked).saveResolution env receipt
      ⟨winner, status, none⟩).1 := by
  have hkept {l' : Locked} (hqueue : l'.queue = q)
      (hgone : ∀ x, Db.Shows l.queue.relayer.id l'.db x →
        Db.Shows l.queue.relayer.id l.db x ∧ x ≠ winner.id) : l.KeepsTrack l' := by
    constructor
    · rw [hqueue, hrelayer]
    · intro x hx
      rcases holds_front hfront hx with hheld | ⟨t, ht, rfl⟩
      · left
        unfold TransactionsQueue.Holds
        rw [hqueue, hq]
        exact hheld
      · right
        intro hshown
        exact (hgone _ hshown).2 (hmembers t ht)
    · intro x hx
      exact .inr (hgone x hx).1
  -- Each status takes the row out of the mempool.
  unfold saveResolution
  simp only [hwrite, Bool.not_true, Bool.false_eq_true, if_false]
  rcases hstatus with rfl | rfl | rfl
  all_goals
    apply hkept rfl
    intro x hx
    exact Db.Shows.of_leaving hx (by intro _ h; cases h)

/-- An entry without competitor is resolved as its original. -/
theorem resolveAlone_keepsTrack (hfront : l.queue.inmempoolTransactions = front :: rest)
    (hwrite : env.write = true) (halone : front.competitive = none) :
    l.KeepsTrack (l.resolveInmempool env front.getActiveTransaction receipt).1 := by
  have hactive : front.getActiveTransaction = front.original := by
    unfold CompetitiveTransaction.getActiveTransaction
    rw [halone]
  have hmembers : ∀ t ∈ front.transactions, t.id = front.original.id := by
    intro t ht
    unfold CompetitiveTransaction.transactions at ht
    rw [halone] at ht
    have ht : t = front.original := by simpa using ht
    rw [ht]
  unfold resolveInmempool TransactionsQueue.moveInmempoolToMining
  rw [hfront]
  dsimp only
  unfold TransactionsQueue.resolveCompetition
  rw [hactive, halone]
  simp only [BEq.rfl, if_true]
  apply saveResolution_keepsTrack hfront hwrite
  · exact hmembers
  · unfold TransactionsQueue.originalWinnerStatus TransactionsQueue.receiptStatus
    split
    · exact .inr (.inr rfl)
    · split
      · exact .inr (.inl rfl)
      · split
        · exact .inl rfl
        · exact .inr (.inr rfl)
  · rfl
  · rfl

/-- A winner that is mined and a loser that left the mempool: neither row is shown any more. -/
theorem shows_resolved {relayerId : RelayerId} {db : Db} {winner loser : Transaction}
    {x : TransactionId} {now : DateTime} (hstatus : loser.status ≠ .inmempool)
    (hx : Db.Shows relayerId ((db.transactionMined winner receipt now).transactionUpdate loser now)
      x) : Db.Shows relayerId db x ∧ x ≠ winner.id ∧ x ≠ loser.id := by
  obtain ⟨hx, hloser⟩ := Db.Shows.of_leaving hx fun _ => hstatus
  obtain ⟨hx, hwon⟩ := Db.Shows.of_leaving hx (by intro _ h; cases h)
  exact ⟨hx, hwon, hloser⟩

/-- The competitor won: the two rows get the statuses of a winner and of a beaten original. -/
theorem resolveCompetitor_keepsTrack {competitor : Transaction} {type : CompetitionType}
    (hfront : l.queue.inmempoolTransactions = front :: rest) (hwrite : env.write = true)
    (hcompetitive : front.competitive = some (competitor, type))
    (hne : competitor.id ≠ front.original.id) (hstatus : receipt.status = true)
    (hloser : env.writeLoser = true) :
    l.KeepsTrack (l.resolveInmempool env front.getActiveTransaction receipt).1 := by
  have hactive : front.getActiveTransaction = competitor := by
    unfold CompetitiveTransaction.getActiveTransaction
    rw [hcompetitive]
  have hmembers : ∀ t ∈ front.transactions, t.id = front.original.id ∨ t.id = competitor.id := by
    intro t ht
    unfold CompetitiveTransaction.transactions at ht
    rw [hcompetitive] at ht
    have ht : t = front.original ∨ t = competitor := by simpa using ht
    exact ht.imp (congrArg _) (congrArg _)
  have hmined : TransactionsQueue.receiptStatus receipt = .mined := by
    unfold TransactionsQueue.receiptStatus
    rw [hstatus]
    rfl
  have hbeaten : (TransactionsQueue.beatenOriginal l.queue.relayer.address front.original
      competitor type).id = front.original.id ∧ (TransactionsQueue.beatenOriginal
        l.queue.relayer.address front.original competitor type).status ≠ .inmempool := by
    cases type with
    | cancel => exact ⟨rfl, fun h => nomatch h⟩
    | replace => exact ⟨rfl, fun h => nomatch h⟩
  unfold resolveInmempool TransactionsQueue.moveInmempoolToMining
  rw [hfront]
  dsimp only
  unfold TransactionsQueue.resolveCompetition
  rw [hactive, hcompetitive]
  have hnot : (front.original.id == competitor.id) = false := by simpa using hne.symm
  simp only [hnot, Bool.false_eq_true, if_false, BEq.rfl, if_true]
  rw [hmined]
  unfold saveResolution
  simp only [hwrite, hloser, Bool.not_true, Bool.false_eq_true, if_false]
  constructor
  · rfl
  · intro x hx
    rcases holds_front hfront hx with hheld | ⟨t, ht, rfl⟩
    · exact .inl hheld
    · right
      intro hshown
      obtain ⟨-, hwon, hlost⟩ := shows_resolved hbeaten.2 hshown
      rcases hmembers t ht with hid | hid
      · exact hlost (hid.trans hbeaten.1.symm)
      · exact hwon hid
  · intro x hx
    exact .inr (shows_resolved hbeaten.2 hx).1

/-- A decided race leaves the front entry, and neither side's row stays in the mempool. -/
theorem resolveInmempool_keepsTrack (hfront : l.queue.inmempoolTransactions = front :: rest)
    (hwrite : env.write = true)
    (hsides : front.competitive = none ∨ ∃ competitor type,
      front.competitive = some (competitor, type) ∧ competitor.id ≠ front.original.id ∧
        receipt.status = true ∧ env.writeLoser = true) :
    l.KeepsTrack (l.resolveInmempool env front.getActiveTransaction receipt).1 := by
  rcases hsides with halone | ⟨competitor, type, hcompetitive, hne, hstatus, hloser⟩
  · exact resolveAlone_keepsTrack hfront hwrite halone
  · exact resolveCompetitor_keepsTrack hfront hwrite hcompetitive hne hstatus hloser

end Resolved

theorem processSingleInmempool_keepsTrack (l : Locked) (env : InmempoolEnv)
    (hsettles : l.SettlesFront env) : l.KeepsTrack (l.processSingleInmempool env).1 := by
  rcases hpolled : l.polled env with _ | ⟨t, hash⟩
  · rw [processSingleInmempool_unpolled hpolled]
    exact .refl l
  obtain ⟨hguard, hknown, front, rest, hfront, ht⟩ := polled_some hpolled
  rw [processSingleInmempool_polled hpolled]
  split
  · exact .refl l
  · rename_i receipt hreceipt
    subst ht
    have hhead : front ∈ l.queue.inmempoolTransactions.head? := by
      rw [hfront]
      rfl
    obtain ⟨hwrite, hsides⟩ := hsettles front hhead hash hknown receipt hguard hreceipt
    exact resolveInmempool_keepsTrack hfront hwrite hsides
  · split
    · have hheld : l.queue.Holds t.id := by
        rw [ht]
        exact active_held hfront
      have hspec := send_spec l env.send t
      unfold bumpInmempool
      split
      · rename_i bumped l₁ sent hsend
        rw [hsend] at hspec
        have hqueue : l₁.queue = l.queue := hspec.queue
        have hbumped : l₁.KeepsTrack (l₁.bumpSent env bumped t.isNoop sent).1 := bumpSent_keepsTrack
        apply hbumped.of_start hqueue
        intro x hx
        rcases send_shows hsend hx with hbefore | ⟨rfl, -⟩
        · exact .inr hbefore
        · exact .inl hheld
      · rename_i bumped l₁ e hsend
        rw [hsend] at hspec
        have hqueue : l₁.queue = l.queue := hspec.queue
        have hfailed : l₁.KeepsTrack (l₁.bumpFailed env bumped e).1 := bumpFailed_keepsTrack
        apply hfailed.of_start hqueue
        intro x hx
        rcases send_shows hsend hx with hbefore | ⟨rfl, -⟩
        · exact .inr hbefore
        · exact .inl hheld
    · exact .refl l

end Inmempool

section Compete

variable {env : CompeteEnv} {original competitor : Transaction}

/-- The in-mempool original a cancel or replace is about, and the competitor it sends. -/
def requested (l : Locked) : Event → Option (CompeteEnv × Transaction × Transaction)
  | .cancel env id => (l.raced env id).bind fun original =>
      (l.cancelCompetitor env original).map (env, original, ·)
  | .replace env request id => (l.raced env id).bind fun original =>
      (l.replaceCompetitor env request original).map (env, original, ·)
  | _ => none

theorem requested_cancel {id : TransactionId} (hraced : l.raced env id = some original)
    (h : l.cancelCompetitor env original = some competitor) :
    l.requested (.cancel env id) = some (env, original, competitor) := by
  simp [requested, hraced, h]

theorem requested_replace {request : RelayTransactionRequest} {id : TransactionId}
    (hraced : l.raced env id = some original)
    (h : l.replaceCompetitor env request original = some competitor) :
    l.requested (.replace env request id) = some (env, original, competitor) := by
  simp [requested, hraced, h]

/-- The competitor's signed bytes go out and the network accepts them. -/
def Accepted (l : Locked) (env : CompeteEnv) (competitor : Transaction) : Prop :=
  ∃ signed, (l.send env.send competitor).2.1.broadcasts =
    l.broadcasts ++ [(competitor.id, signed)] ∧ env.send.broadcast signed = .ok ()

/-- A competitor that is accepted is marked as sent, finds its original in the front entry without
a competitor, and the link to it is written. -/
def Attaches (l : Locked) (env : CompeteEnv) (original competitor : Transaction) : Prop :=
  l.Accepted env competitor → env.send.markSent = true ∧ env.write = true ∧
    ∃ front rest, l.queue.inmempoolTransactions = front :: rest ∧
      front.original.id = original.id ∧ front.competitive = none

/-- A send succeeds when the network accepts and the row is marked. -/
theorem send_ok_iff_accepted : (∃ sent, (l.send env.send competitor).2.2 = .ok sent) ↔
    l.Accepted env competitor ∧ env.send.markSent = true := by
  have hprepare := prepareSend_spec l.queue.toSendConfig env.send competitor
  unfold Accepted send sendTransaction
  rcases hp : prepareSend l.queue.toSendConfig env.send competitor with
    ⟨t₁, e | ⟨signed, sent⟩⟩
  · simp
  · rw [hp] at hprepare
    have hid : t₁.id = competitor.id := hprepare.1.id
    dsimp only
    unfold persistAndBroadcast
    dsimp only
    split
    · simp
    · rcases hbroadcast : env.send.broadcast signed with e | ⟨⟩
      · simp [Transaction.exposeAttempt, hbroadcast]
      · by_cases hmark : env.send.markSent = true
        · simp [Transaction.exposeAttempt, hmark, hid, hbroadcast]
        · simp [hmark]

theorem sendCompetitor_keepsTrack {type : CompetitionType} (hpending : competitor.status = .pending)
    (hattaches : l.Attaches env original competitor) :
    l.KeepsTrack (l.sendCompetitor env original competitor type).1 := by
  have hspec := send_spec l env.send competitor
  have hfailed : ∀ (t' : Transaction) (l₁ : Locked) (e : TransactionQueueSendTransactionError),
      l.send env.send competitor = (t', l₁, .error e) → l.KeepsTrack l₁ := by
    intro t' l₁ e hsend
    rw [hsend] at hspec
    apply (KeepsTrack.refl l₁).of_start hspec.queue
    intro x hx
    rcases send_shows hsend hx with hbefore | ⟨-, hsent | ⟨sent, hok⟩⟩
    · exact .inr hbefore
    · have hsame : TransactionStatus.pending = .inmempool := hpending.symm.trans hsent
      cases hsame
    · cases hok
  unfold sendCompetitor
  split
  · rename_i hsend
    split
    · split
      · exact hfailed _ _ _ hsend
      · exact hfailed _ _ _ hsend
    · exact hfailed _ _ _ hsend
  · rename_i hsend
    exact hfailed _ _ _ hsend
  · rename_i sentCompetitor l₁ sent hsend
    obtain ⟨hsent, hqueue, -⟩ := send_ok hsend
    rw [hsend] at hspec
    have haccepted : l.Accepted env competitor :=
      (send_ok_iff_accepted.mp ⟨sent, by rw [hsend]⟩).1
    obtain ⟨-, hwrite, front, rest, hfront, hid, halone⟩ := hattaches haccepted
    have hcompetitor : sentCompetitor.id = competitor.id := hspec.id
    dsimp only
    rw [hqueue, TransactionsQueue.addCompetitor_front _ _ hfront hid]
    simp only [hwrite, Bool.not_true, Bool.false_eq_true, if_false]
    constructor
    · rfl
    · rintro x ⟨c, hc, t, ht, rfl⟩
      rw [hfront] at hc
      left
      rcases List.mem_cons.mp hc with rfl | hc
      · unfold CompetitiveTransaction.transactions at ht
        rw [halone] at ht
        have ht : t = c.original := by simpa using ht
        rw [ht]
        exact ⟨_, List.mem_cons_self .., _, List.mem_cons_self .., rfl⟩
      · exact ⟨c, List.mem_cons_of_mem _ hc, t, ht, rfl⟩
    · intro x hx
      rcases Db.Shows.of_update hx (by intro; rfl) with hx | ⟨hx, -⟩
      · rcases send_shows hsend hx with hbefore | ⟨hx, -⟩
        · exact .inr hbefore
        · left
          refine ⟨_, List.mem_cons_self .., _, List.mem_cons_of_mem _ (List.mem_singleton_self _), ?_⟩
          exact hcompetitor.trans hx.symm
      · left
        exact ⟨_, List.mem_cons_self .., _, List.mem_cons_self .., hid.trans hx.symm⟩

/-- A pending transaction as rewritten stays out of the mempool. -/
theorem rewritePending_keepsTrack {u : Transaction} (hu : u.status = .pending)
    (h : l.rewritePending env u = some l') : l.KeepsTrack l' := by
  unfold rewritePending at h
  split at h
  · cases h
    apply KeepsTrack.of_entries
    · rfl
    · rfl
    · intro x hx
      have hleft := Db.Shows.of_leaving hx (fun _ hsent => by
        have hsame : TransactionStatus.pending = .inmempool := hu.symm.trans hsent
        cases hsame)
      exact .inr hleft.1
  · cases h

theorem cancelTransaction_keepsTrack (l : Locked) (env : CompeteEnv) (id : TransactionId)
    (hattaches : ∀ env' original competitor,
      l.requested (.cancel env id) = some (env', original, competitor) →
        l.Attaches env' original competitor) :
    l.KeepsTrack (l.cancelTransaction env id).1 := by
  obtain hkept | ⟨t, -, hrewrite⟩ | ⟨original, competitor, hraced, hcompetitor, hsent⟩ :=
    l.cancelTransaction_cases env id
  · rw [hkept]
    exact .refl l
  · exact rewritePending_keepsTrack rfl hrewrite
  · rw [hsent]
    exact sendCompetitor_keepsTrack (cancelCompetitor_competes hcompetitor).status
      (hattaches _ _ _ (requested_cancel hraced hcompetitor))

theorem replaceTransaction_keepsTrack (l : Locked) (env : CompeteEnv)
    (request : RelayTransactionRequest) (id : TransactionId)
    (hpending : ∀ t ∈ l.queue.pendingTransactions, t.status = .pending)
    (hattaches : ∀ env' original competitor,
      l.requested (.replace env request id) = some (env', original, competitor) →
        l.Attaches env' original competitor) :
    l.KeepsTrack (l.replaceTransaction env request id).1 := by
  obtain hkept | ⟨t, blobs, heditable, hrewrite⟩ |
      ⟨original, competitor, hraced, hcompetitor, hsent⟩ := l.replaceTransaction_cases env request id
  · rw [hkept]
    exact .refl l
  · obtain ⟨ht, -⟩ := TransactionsQueue.getEditable_pending heditable
    have hstatus : (transactionReplace request t blobs).status = .pending :=
      hpending t (List.mem_of_find?_eq_some ht)
    exact rewritePending_keepsTrack hstatus hrewrite
  · rw [hsent]
    exact sendCompetitor_keepsTrack (replaceCompetitor_competes hcompetitor).status
      (hattaches _ _ _ (requested_replace hraced hcompetitor))

end Compete

/-- An inserted row that is not in the mempool. -/
theorem shows_insert {relayerId : RelayerId} {db db' : Db} {r : Row} {x : TransactionId}
    (h : db.insert r = some db') (hr : r.status ≠ .inmempool)
    (hx : Db.Shows relayerId db' x) : Db.Shows relayerId db x := by
  unfold Db.insert at h
  split at h
  · cases h
  · cases h
    obtain ⟨r', hr', hid, hrelayer, hstatus⟩ := hx
    rcases List.mem_append.mp hr' with hr' | hr'
    · exact ⟨r', hr', hid, hrelayer, hstatus⟩
    · rw [List.mem_singleton.mp hr'] at hstatus
      exact absurd hstatus hr

theorem addTransaction_keepsTrack (l : Locked) (env : AdmissionEnv) (toSend : TransactionToSend) :
    l.KeepsTrack (l.addTransaction env toSend).1 := by
  have hleaves := l.addTransaction_leaves env toSend
  generalize (l.addTransaction env toSend).1 = l' at hleaves ⊢
  cases hleaves with
  | kept => exact .of_entries rfl rfl fun _ hx => .inr hx
  | rejected manager _ hstatus h =>
    apply KeepsTrack.of_entries
    · rfl
    · rfl
    · intro x hx
      unfold Db.transactionFailedOnSend at h
      obtain ⟨inserted, hinsert, rfl⟩ := Option.map_eq_some_iff.mp h
      refine .inr (shows_insert hinsert ?_ hx)
      exact fun hsent => nomatch hstatus.symm.trans hsent
  | saved manager _ _ hstatus _ _ h =>
    apply KeepsTrack.of_entries
    · rfl
    · rfl
    · intro x hx
      unfold Db.saveTransaction at h
      obtain ⟨inserted, hinsert, rfl⟩ := Option.map_eq_some_iff.mp h
      refine .inr (shows_insert hinsert ?_ hx)
      exact fun hsent => nomatch hstatus.symm.trans hsent

theorem processSingleMined_keepsTrack (l : Locked) (env : MinedEnv) :
    l.KeepsTrack (l.processSingleMined env).1 := by
  rcases l.processSingleMined_cases env with hkept | ⟨t, -, hconfirmed⟩
  · rw [hkept]
    exact .refl l
  · rw [hconfirmed]
    apply KeepsTrack.of_entries
    · rfl
    · rfl
    · intro x hx
      have hleft := Db.Shows.of_leaving hx (by intro _ h; cases h)
      exact .inr hleft.1

end Locked

end Rrelayer
