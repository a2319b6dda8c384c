import Rrelayer.AuditLog

/-! Where the copies in memory come from: an operation keeps a copy, edits a pending one, moves
a sent one to the in-mempool queue, or brings in a new one. -/
namespace Rrelayer

theorem Db.keepFirst_subset {attempts : List RecordedTransactionAttempt}
    {a : RecordedTransactionAttempt} (h : a ∈ keepFirst attempts) : a ∈ attempts := by
  induction attempts with
  | nil => cases h
  | cons b attempts ih =>
    rcases List.mem_cons.mp h with rfl | h
    · exact List.mem_cons_self ..
    · exact List.mem_cons_of_mem _ (ih (List.mem_filter.mp h).1)

/-- Every hash the copy shows is recorded. -/
def Db.Attempted (db : Db) (t : Transaction) : Prop :=
  ∀ hash ∈ t.knownTransactionHash, db.Recorded t.id hash

/-- The rows show recorded hashes only. -/
def Db.RowsRecorded (db : Db) : Prop :=
  ∀ r ∈ db.rows, ∀ hash ∈ r.knownTransactionHash, db.Recorded r.id hash

/-- A recorded attempt is a log entry or the row, with the hash and a send time. -/
theorem Db.source_of_mem {db : Db} {x : TransactionId} {a : RecordedTransactionAttempt}
    (ha : a ∈ db.getRecordedTransactionAttempts x) :
    ∃ r, (r ∈ db.audit ∨ r ∈ db.rows) ∧ r.id = x ∧ r.knownTransactionHash = some a.hash ∧
      r.sentAt.isSome := by
  obtain ⟨r, hr, hattempt⟩ := List.mem_filterMap.mp (keepFirst_subset ha)
  have hshown : r.knownTransactionHash = some a.hash ∧ r.sentAt.isSome := by
    unfold attemptOf at hattempt
    split at hattempt
    · rename_i hash _ hhash hsent
      cases hattempt
      exact ⟨hhash, by rw [hsent]; rfl⟩
    · cases hattempt
  rcases List.mem_append.mp hr with hr | hr
  · obtain ⟨hr, hid⟩ := List.mem_filter.mp hr
    exact ⟨r, .inl hr, by simpa using hid, hshown⟩
  · obtain ⟨hr, hid⟩ := List.mem_filter.mp hr
    exact ⟨r, .inr hr, by simpa using hid, hshown⟩

/-- What a lookup finds is recorded, when the rows show nothing else. -/
theorem Db.recorded_of_mem {db : Db} {x : TransactionId} {a : RecordedTransactionAttempt}
    (hrows : db.RowsRecorded)
    (ha : a ∈ db.getRecordedTransactionAttempts x) : db.Recorded x a.hash := by
  obtain ⟨r, hr | hr, hid, hshown⟩ := source_of_mem ha
  · exact ⟨r, hr, hid, hshown⟩
  · exact hid ▸ hrows r hr a.hash hshown.1

namespace Locked

/-- A pending copy that stays, or is edited so that it is pending and shows no hash of its own. -/
def PendingFrom (l : Locked) (newId : Option TransactionId) (t : Transaction) : Prop :=
  (∃ u ∈ l.queue.pendingTransactions, u.id = t.id ∧
    (t.status = u.status ∨ t.status = .pending) ∧
    (t.knownTransactionHash = u.knownTransactionHash ∨ t.knownTransactionHash = none)) ∨
  newId = some t.id ∧ t.status = .pending ∧ t.knownTransactionHash = none

/-- An in-mempool copy that stays, with its hash or a recorded one. -/
def InmempoolFrom (l : Locked) (db : Db) (t : Transaction) : Prop :=
  ∃ c ∈ l.queue.inmempoolTransactions, ∃ u ∈ c.transactions, u.id = t.id ∧
    t.status = u.status ∧ (t.knownTransactionHash = u.knownTransactionHash ∨ db.Attempted t)

/-- A transaction that was sent: a new one, or the one that left the pending queue `after`. -/
structure SentFrom (l : Locked) (newId : Option TransactionId) (db : Db)
    (after : List Transaction) (t : Transaction) : Prop where
  status : t.status = .inmempool
  row : db.NotPending t.id
  attempted : db.Attempted t
  origin : newId = some t.id ∧ after = l.queue.pendingTransactions ∨
    ∃ head, l.queue.pendingTransactions = head :: after ∧ head.id = t.id

/-- The copies of `l'` after an operation on `l`. -/
structure Carried (l : Locked) (newId : Option TransactionId) (l' : Locked) : Prop where
  pending : ∀ t ∈ l'.queue.pendingTransactions, l.PendingFrom newId t
  inmempool : ∀ c ∈ l'.queue.inmempoolTransactions, ∀ t ∈ c.transactions,
    l.InmempoolFrom l'.db t ∨ l.SentFrom newId l'.db l'.queue.pendingTransactions t
  nodup : (l.queue.pendingTransactions.map (·.id)).Nodup →
    (∀ x ∈ newId, ∀ t ∈ l.queue.pendingTransactions, t.id ≠ x) →
      (l'.queue.pendingTransactions.map (·.id)).Nodup

variable {l l' : Locked} {newId : Option TransactionId}

theorem pendingFrom_mem {t : Transaction} (h : t ∈ l.queue.pendingTransactions) :
    l.PendingFrom newId t := .inl ⟨t, h, rfl, .inl rfl, .inl rfl⟩

theorem inmempoolFrom_mem {c : CompetitiveTransaction} {t : Transaction} {db : Db}
    (hc : c ∈ l.queue.inmempoolTransactions) (ht : t ∈ c.transactions) : l.InmempoolFrom db t :=
  ⟨c, hc, t, ht, rfl, rfl, .inl rfl⟩

/-- The lists stay, or the in-mempool list loses entries. -/
theorem Carried.of_lists
    (hpending : l'.queue.pendingTransactions = l.queue.pendingTransactions)
    (hinmempool : ∀ c ∈ l'.queue.inmempoolTransactions, c ∈ l.queue.inmempoolTransactions) :
    l.Carried newId l' where
  pending _ ht := pendingFrom_mem (hpending ▸ ht)
  inmempool c hc _ ht := .inl (inmempoolFrom_mem (hinmempool c hc) ht)
  nodup h _ := hpending ▸ h

theorem Carried.refl (l : Locked) : l.Carried newId l := .of_lists rfl fun _ hc => hc

/-- An operation that starts from the same queue. -/
theorem Carried.of_queue {l₁ : Locked} (h : l₁.Carried newId l')
    (hqueue : l₁.queue = l.queue) : l.Carried newId l' := by
  obtain ⟨hpending, hinmempool, hnodup⟩ := h
  unfold PendingFrom at hpending
  unfold InmempoolFrom at hinmempool
  rw [hqueue] at hpending hinmempool hnodup
  constructor
  · exact hpending
  · intro c hc t ht
    refine (hinmempool c hc t ht).imp id fun h => ?_
    obtain ⟨hstatus, hrow, hattempted, horigin⟩ := h
    rw [hqueue] at horigin
    exact ⟨hstatus, hrow, hattempted, horigin⟩
  · exact hnodup

/-- A successful send leaves its transaction recorded and no longer pending. -/
theorem send_ok {env : SendEnv} {t t' : Transaction} {sent : TransactionSentWithRelayer}
    (h : l.send env t = (t', l', .ok sent)) :
    sent.id = t.id ∧ l'.queue = l.queue ∧ l'.db.NotPending sent.id ∧
      l'.db.Recorded sent.id sent.hash := by
  have hprepare := prepareSend_spec l.queue.toSendConfig env t
  have hends := l.send_ends env t
  rw [h] at hends
  cases hends with
  | @marked t₁ signed _ db hp hattempt =>
    rw [hp] at hprepare
    obtain ⟨hslot, hsigned⟩ := hprepare
    have hfor := hsigned signed sent rfl
    have hrecorded := Db.transactionBroadcastAttempt_recorded hattempt
    have hid : sent.id = t₁.id := hfor.id.trans hslot.id.symm
    refine ⟨hfor.id, rfl, Db.transactionSent_notPending _ _ _ _ _ _ _, ?_⟩
    rw [hid]
    exact hrecorded.of_append rfl

/-- The head as moved, with the database after its send or its recovery. -/
theorem moveSent_carried {env : PendingEnv} {t : Transaction} {sent : TransactionSentWithRelayer}
    {result : ProcessResult ProcessPendingStatus} (hrow : l.db.NotPending sent.id)
    (hrecorded : l.db.Recorded sent.id sent.hash) :
    l.Carried newId (l.moveSent env t sent result).1 := by
  unfold moveSent
  rcases hmove : l.queue.movePendingToInmempool t sent env.nowMoved with e | q
  · exact .refl l
  · obtain ⟨queued, rest, hlist, hqueued, hid, rfl⟩ :=
      TransactionsQueue.movePendingToInmempool_ok hmove
    constructor
    · intro u hu
      exact pendingFrom_mem (hlist ▸ List.mem_cons_of_mem _ hu)
    · intro c hc u hu
      rcases List.mem_append.mp hc with hc | hc
      · exact .inl (inmempoolFrom_mem hc hu)
      · rw [List.mem_singleton.mp hc] at hu
        have hu : u = TransactionsQueue.sentTransaction t sent env.nowMoved := by
          simpa [CompetitiveTransaction.transactions, CompetitiveTransaction.new] using hu
        subst hu
        refine .inr ⟨rfl, ?_, ?_, .inr ⟨queued, hlist, ?_⟩⟩
        · exact hid ▸ hrow
        · intro hash hhash
          cases hhash
          exact hid ▸ hrecorded
        · exact hqueued.trans hid.symm
    · intro hnodup _
      rw [hlist, List.map_cons] at hnodup
      exact (List.nodup_cons.mp hnodup).2

/-- A pending transaction as rewritten in memory. -/
theorem rewritten_carried {u : Transaction} {db : Db}
    (hu : ∀ w ∈ l.queue.pendingTransactions, w.id = u.id → l.PendingFrom newId u) :
    l.Carried newId { l with db := db, queue := l.queue.updatePendingTransaction u } := by
  constructor
  · intro v hv
    rcases mem_updateFirst hv with hv | ⟨w, hw, hid, rfl⟩
    · exact pendingFrom_mem hv
    · exact hu w hw (by simpa using hid)
  · intro c hc v hv
    exact .inl (inmempoolFrom_mem hc hv)
  · intro hnodup _
    have hids : (updateFirst (·.id == u.id) (fun _ => u) l.queue.pendingTransactions).map (·.id) =
        l.queue.pendingTransactions.map (·.id) :=
      TransactionsQueue.map_updateFirst fun a ha => by
        have hid : a.id = u.id := by simpa using List.find?_some ha
        exact hid.symm
    exact hids ▸ hnodup

section Pending

variable {env : PendingEnv} {t : Transaction}

/-- A pending transaction at another nonce. -/
theorem renumbered_carried {newNonce : ℕ} : l.Carried newId { l.advanceTransactionNonce t.id newNonce with
    queue := (l.advanceTransactionNonce t.id newNonce).queue.updatePendingTransactionNonce
      t.id newNonce } := by
  constructor
  · intro u hu
    rcases TransactionsQueue.mem_updatePendingTransactionNonce hu with hu | ⟨w, hw, -, rfl⟩
    · exact pendingFrom_mem hu
    · exact .inl ⟨w, hw, rfl, .inl rfl, .inl rfl⟩
  · intro c hc u hu
    rw [TransactionsQueue.updatePendingTransactionNonce_inmempoolTransactions] at hc
    exact .inl (inmempoolFrom_mem hc hu)
  · intro hnodup _
    have hperm := @TransactionsQueue.ids_updatePendingTransactionNonce
      (l.advanceTransactionNonce t.id newNonce).queue t.id newNonce
    exact hperm.nodup_iff.mpr hnodup

/-- An adopted attempt moves the head over a changed database. -/
theorem adopted_carried {attempt : RecordedTransactionAttempt} {gas : GasPriceResult} {db : Db}
    {result : ProcessResult ProcessPendingStatus} (hrow : db.NotPending t.id)
    (hrecorded : db.Recorded t.id attempt.hash) :
    l.Carried newId (({ l with db := db } : Locked).moveSent env t (attemptSent t attempt gas)
      result).1 := by
  have hmoved : ({ l with db := db } : Locked).Carried newId
      (({ l with db := db } : Locked).moveSent env t (attemptSent t attempt gas) result).1 :=
    moveSent_carried hrow hrecorded
  exact hmoved.of_queue rfl

theorem pendingFailed_carried {error : TransactionQueueSendTransactionError}
    (hrows : l.db.RowsRecorded) : l.Carried newId (l.pendingFailed env t error).1 := by
  have hrecorded {attempt : RecordedTransactionAttempt}
      (hfind : findLandedAttempt env.clients (l.db.getRecordedTransactionAttempts t.id) =
        .ok (some attempt)) : l.db.Recorded t.id attempt.hash :=
    Db.recorded_of_mem hrows (List.mem_of_find?_eq_some (findLandedAttempt_some.mp hfind).2)
  have hleaves := l.pendingFailed_leaves env t error
  generalize (l.pendingFailed env t error).1 = l' at hleaves ⊢
  cases hleaves with
  | kept => exact .refl l
  | closedOut reason =>
    apply rewritten_carried (u := l.closedOut t reason)
    intro w hw hid
    exact .inl ⟨w, hw, hid, .inr rfl, .inr rfl⟩
  | reassigned newNonce => exact renumbered_carried
  | @mined attempt gas hfind _ =>
    have hrow := Db.transactionSent_notPending l.db t.id attempt.hash gas
      attempt.sentWithBlobGas l.queue.isLegacyTransactions env.nowWrite
    exact adopted_carried hrow ((hrecorded hfind).of_append rfl)
  | @recovered attempt gas db hfind _ hserved =>
    have hdb := Db.recoverLanded_true hserved
    have hrow : db.NotPending t.id := by
      intro r' hr' hid
      rw [hdb] at hr'
      obtain ⟨r, -, ⟨-, rfl⟩ | ⟨hne, rfl⟩⟩ := Db.mem_update hr'
      · exact fun h => nomatch h
      · exact absurd hid hne
    exact adopted_carried hrow ((hrecorded hfind).of_append (congrArg Db.audit hdb))

/-- A pending pass, when the database after its send shows recorded hashes only. -/
theorem processSinglePending_carried (l : Locked) (env : PendingEnv)
    (hrows : ∀ t ∈ l.queue.getNextPendingTransaction,
      (l.send env.send (l.pendingCopy env t)).2.1.db.RowsRecorded) :
    l.Carried none (l.processSinglePending env).1 := by
  unfold processSinglePending
  split
  · exact .refl l
  · split
    · exact .refl l
    · rename_i t hnext
      have hrows := hrows t hnext
      split
      · exact .refl l
      · have hspec := send_spec l env.send (l.pendingCopy env t)
        split
        · rename_i t' l' sent hsend
          obtain ⟨hid, hqueue, hrow, hrecorded⟩ := send_ok hsend
          rw [hsend] at hspec
          have hmoved : l'.Carried none (l'.moveSent env t' sent ⟨.success, 10⟩).1 :=
            moveSent_carried hrow hrecorded
          exact hmoved.of_queue hqueue
        · rename_i t' l' e hsend
          rw [hsend] at hspec hrows
          have hfailed : l'.Carried none (l'.pendingFailed env t' e).1 :=
            pendingFailed_carried hrows
          exact hfailed.of_queue hspec.queue

end Pending

section Inmempool

variable {env : InmempoolEnv} {t : Transaction}

/-- A member of an entry after an update is an old one, or an updated one with the id. -/
theorem mem_updateTransactionById {c : CompetitiveTransaction} {id : TransactionId}
    {f : Transaction → Transaction} {t : Transaction}
    (h : t ∈ (c.updateTransactionById id f).transactions) :
    t ∈ c.transactions ∨ ∃ u ∈ c.transactions, u.id = id ∧ t = f u := by
  unfold CompetitiveTransaction.updateTransactionById at h
  split at h
  · rename_i hid
    rcases List.mem_cons.mp h with rfl | h
    · exact .inr ⟨c.original, List.mem_cons_self .., by simpa using hid, rfl⟩
    · exact .inl (List.mem_cons_of_mem _ h)
  · split at h
    · rename_i competitor type hcompetitive
      split at h
      · rename_i hid
        rcases List.mem_cons.mp h with rfl | h
        · exact .inl (List.mem_cons_self ..)
        · have ht : t = f competitor := by simpa using h
          refine .inr ⟨competitor, ?_, by simpa using hid, ht⟩
          unfold CompetitiveTransaction.transactions
          rw [hcompetitive]
          exact List.mem_cons_of_mem _ (by simp)
      · exact .inl h
    · exact .inl h

/-- The in-mempool copies of a queue come from those of `l`. -/
def EntriesFrom (l : Locked) (db : Db) (q : TransactionsQueue) : Prop :=
  ∀ c ∈ q.inmempoolTransactions, ∀ t ∈ c.transactions, l.InmempoolFrom db t

theorem entriesFrom_self (l : Locked) (db : Db) : l.EntriesFrom db l.queue :=
  fun _ hc _ ht => inmempoolFrom_mem hc ht

/-- A change of one member of an entry that keeps its id and its status, and its hash unless it
shows a recorded one. -/
theorem inmempoolFrom_update {c : CompetitiveTransaction} {db : Db} {id : TransactionId}
    {f : Transaction → Transaction} (hc : ∀ t ∈ c.transactions, l.InmempoolFrom db t)
    (hf : ∀ u : Transaction, u.id = id → (f u).id = u.id ∧ (f u).status = u.status ∧
      ((f u).knownTransactionHash = u.knownTransactionHash ∨ db.Attempted (f u))) :
    ∀ t ∈ (c.updateTransactionById id f).transactions, l.InmempoolFrom db t := by
  intro t ht
  rcases mem_updateTransactionById ht with ht | ⟨u, hu, hid, rfl⟩
  · exact hc t ht
  · obtain ⟨entry, hentry, w, hw, hwid, hstatus, hhash⟩ := hc u hu
    obtain ⟨hfid, hfstatus, hfhash⟩ := hf u hid
    refine ⟨entry, hentry, w, hw, hwid.trans hfid.symm, hfstatus.trans hstatus, ?_⟩
    rcases hfhash with hsame | hattempted
    · rcases hhash with hkept | hattempted
      · exact .inl (hsame.trans hkept)
      · right
        intro hash hhash
        rw [hfid]
        exact hattempted hash (hsame ▸ hhash)
    · exact .inr hattempted

theorem EntriesFrom.updateFrontById {db : Db} {q : TransactionsQueue} {id : TransactionId}
    {f : Transaction → Transaction} (h : l.EntriesFrom db q)
    (hf : ∀ u : Transaction, u.id = id → (f u).id = u.id ∧ (f u).status = u.status ∧
      ((f u).knownTransactionHash = u.knownTransactionHash ∨ db.Attempted (f u))) :
    l.EntriesFrom db (q.updateFrontById id f) := by
  unfold TransactionsQueue.updateFrontById
  split
  · rename_i front rest hlist
    intro c hc t ht
    rcases List.mem_cons.mp hc with rfl | hc
    · exact inmempoolFrom_update (h front (hlist ▸ List.mem_cons_self ..)) hf t ht
    · exact h c (hlist ▸ List.mem_cons_of_mem _ hc) t ht
  · exact h

/-- A change of the in-mempool queue alone. -/
theorem EntriesFrom.carried {db : Db} {q : TransactionsQueue} (h : l.EntriesFrom db q)
    (hpending : q.pendingTransactions = l.queue.pendingTransactions) :
    l.Carried newId { l with db := db, queue := q } where
  pending _ ht := pendingFrom_mem (hpending ▸ ht)
  inmempool c hc t ht := .inl (h c hc t ht)
  nodup hnodup _ := hpending ▸ hnodup

theorem resolveInmempool_carried {receipt : Receipt} :
    l.Carried newId (l.resolveInmempool env t receipt).1 := by
  unfold resolveInmempool
  rcases hmove : l.queue.moveInmempoolToMining t.id receipt env.now with e | ⟨r, q'⟩
  · exact .refl l
  · obtain ⟨⟨front, hfront, hresolve⟩, hpending, -⟩ := moveInmempoolToMining_lists hmove
    obtain ⟨-, hwinner, hloser⟩ := TransactionsQueue.resolveCompetition_slots hresolve
    have hentries : ∀ c ∈ q'.inmempoolTransactions, c ∈ l.queue.inmempoolTransactions := by
      unfold TransactionsQueue.moveInmempoolToMining at hmove
      split at hmove
      · cases hmove
      · rename_i head rest hlist
        split at hmove
        · cases hmove
        · cases hmove
          intro c hc
          rw [hlist]
          exact List.mem_cons_of_mem _ hc
    obtain ⟨hqueue, -, -⟩ := saveResolution_frame { l with queue := q' } env receipt r
      (P := fun _ _ => True) trivial fun _ _ => trivial
    show l.Carried newId (({ l with queue := q' } : Locked).saveResolution env receipt r).1
    apply Carried.of_lists
    · rw [hqueue]
      exact hpending
    · rw [hqueue]
      exact hentries

theorem bumpFailed_carried {error : TransactionQueueSendTransactionError} :
    l.Carried newId (l.bumpFailed env t error).1 := by
  have hleaves := l.bumpFailed_leaves env t error
  generalize (l.bumpFailed env t error).1 = l' at hleaves ⊢
  cases hleaves with
  | kept => exact .refl l
  | reassigned newNonce =>
    have hentries : l.EntriesFrom (l.db.transactionUpdateNonce t.id newNonce)
        (l.queue.updateInmempoolTransactionNonce t.id newNonce) := by
      intro c hc u hu
      rcases mem_updateFirst hc with hc | ⟨entry, hentry, -, rfl⟩
      · exact inmempoolFrom_mem hc hu
      · refine inmempoolFrom_update ?_ ?_ u hu
        · exact fun u hu => inmempoolFrom_mem hentry hu
        · exact fun u _ => ⟨rfl, rfl, .inl rfl⟩
    constructor
    · intro u hu
      exact pendingFrom_mem hu
    · intro c hc u hu
      exact .inl (hentries c hc u hu)
    · intro hnodup _
      exact hnodup

theorem bumpSent_carried {wasNoop : Bool} {sent : TransactionSentWithRelayer}
    (hid : sent.id = t.id) (hrecorded : l.db.Recorded sent.id sent.hash) :
    l.Carried newId (l.bumpSent env t wasNoop sent).1 := by
  have hgas : l.EntriesFrom l.db (l.queue.updateInmempoolTransactionGas sent env.nowWrite) := by
    apply (entriesFrom_self l l.db).updateFrontById
    intro u hu
    refine ⟨rfl, rfl, .inr ?_⟩
    intro hash hhash
    cases hhash
    exact hu ▸ hrecorded
  have hlists := updateFrontById_lists l.queue sent.id fun u => u.exposeAttempt sent env.nowWrite
  unfold bumpSent
  dsimp only
  split
  · have hnoopLists := updateFrontById_lists
      (l.queue.updateInmempoolTransactionGas sent env.nowWrite) t.id fun u =>
        { transactionToNoop
          (l.queue.updateInmempoolTransactionGas sent env.nowWrite).relayer.address u with
            knownTransactionHash := some sent.hash
            sentAt := some env.nowWrite }
    have hnoop : l.EntriesFrom l.db ((l.queue.updateInmempoolTransactionGas sent
        env.nowWrite).updateInmempoolTransactionNoop t.id sent env.nowWrite) := by
      apply hgas.updateFrontById
      intro u hu
      refine ⟨rfl, rfl, .inr ?_⟩
      intro hash hhash
      cases hhash
      show l.db.Recorded u.id sent.hash
      rw [hu, ← hid]
      exact hrecorded
    exact hnoop.carried (hnoopLists.1.trans hlists.1)
  · exact hgas.carried hlists.1

theorem processSingleInmempool_carried (l : Locked) (env : InmempoolEnv) :
    l.Carried none (l.processSingleInmempool env).1 := by
  rcases hpolled : l.polled env with _ | ⟨t, hash⟩
  · rw [processSingleInmempool_unpolled hpolled]
    exact .refl l
  rw [processSingleInmempool_polled hpolled]
  split
  · exact .refl l
  · exact resolveInmempool_carried
  · split
    · have hspec := send_spec l env.send t
      unfold bumpInmempool
      split
      · rename_i bumped l' sent hsend
        obtain ⟨hid, hqueue, -, hrecorded⟩ := send_ok hsend
        rw [hsend] at hspec
        have hbumped : l'.Carried none (l'.bumpSent env bumped t.isNoop sent).1 :=
          bumpSent_carried (hid.trans hspec.id.symm) hrecorded
        exact hbumped.of_queue hqueue
      · rename_i bumped l' e hsend
        rw [hsend] at hspec
        have hfailed : l'.Carried none (l'.bumpFailed env bumped e).1 := bumpFailed_carried
        exact hfailed.of_queue hspec.queue
    · exact .refl l

theorem processSingleMined_carried (l : Locked) (env : MinedEnv) :
    l.Carried none (l.processSingleMined env).1 := by
  rcases l.processSingleMined_cases env with hkept | ⟨t, -, hconfirmed⟩
  · rw [hkept]
    exact .refl l
  · rw [hconfirmed]
    exact .of_lists rfl fun _ hc => hc

end Inmempool

section Compete

variable {env : CompeteEnv} {original competitor : Transaction}

/-- A competitor that is attached was sent, and the link leaves its row alone. -/
theorem sendCompetitor_carried {type : CompetitionType} (hid : competitor.id = env.newId)
    (horiginal : original.status ≠ .pending) :
    l.Carried (some env.newId) (l.sendCompetitor env original competitor type).1 := by
  have hsame : ∀ l' : Locked, l'.queue = l.queue → l.Carried (some env.newId) l' := by
    intro l' hqueue
    exact (Carried.refl l').of_queue hqueue
  have hspec := send_spec l env.send competitor
  unfold sendCompetitor
  split
  · rename_i hsend
    rw [hsend] at hspec
    split
    · split
      · exact hsame _ hspec.queue
      · exact hsame _ hspec.queue
    · exact hsame _ hspec.queue
  · rename_i hsend
    rw [hsend] at hspec
    exact hsame _ hspec.queue
  · rename_i sentCompetitor l' sent hsend
    obtain ⟨hsent, hqueue, hrow, hrecorded⟩ := send_ok hsend
    rw [hsend] at hspec
    dsimp only
    split
    · exact hsame _ hqueue
    · split
      · exact hsame _ hqueue
      · rename_i q hadd
        rw [hqueue] at hadd
        obtain ⟨front, rest, hlist, -, rfl⟩ := TransactionsQueue.addCompetitor_ok hadd
        constructor
        · intro t ht
          exact pendingFrom_mem ht
        · intro c hc t ht
          rcases List.mem_cons.mp hc with rfl | hc
          · have hfront : front ∈ l.queue.inmempoolTransactions :=
              hlist ▸ List.mem_cons_self ..
            rcases List.mem_cons.mp ht with rfl | ht
            · exact .inl ⟨front, hfront, front.original, List.mem_cons_self .., rfl, rfl,
                .inl rfl⟩
            · have ht : t = { sentCompetitor with
                  status := .inmempool
                  knownTransactionHash := some sent.hash
                  sentAt := some env.nowWrite } := by
                simpa [CompetitiveTransaction.addCompetitor] using ht
              subst ht
              have hcompetitor : sentCompetitor.id = sent.id := hspec.id.trans hsent.symm
              refine .inr ⟨rfl, ?_, ?_, .inl ⟨?_, rfl⟩⟩
              · show Db.NotPending _ sentCompetitor.id
                rw [hcompetitor]
                exact hrow.update fun _ _ _ _ => horiginal
              · intro hash hhash
                cases hhash
                show Db.Recorded _ sentCompetitor.id sent.hash
                rw [hcompetitor]
                exact hrecorded.of_append rfl
              · exact congrArg some (hid.symm.trans hspec.id.symm)
          · exact .inl (inmempoolFrom_mem (hlist ▸ List.mem_cons_of_mem _ hc) ht)
        · intro hnodup _
          exact hnodup

theorem rewritePending_carried {u : Transaction} {l' : Locked}
    (hu : ∀ w ∈ l.queue.pendingTransactions, w.id = u.id → l.PendingFrom newId u)
    (h : l.rewritePending env u = some l') : l.Carried newId l' := by
  unfold rewritePending at h
  split at h
  · cases h
    exact rewritten_carried hu
  · cases h

/-- The in-mempool copies are in the mempool. -/
def EntriesSent (l : Locked) : Prop :=
  ∀ c ∈ l.queue.inmempoolTransactions, ∀ t ∈ c.transactions, t.status = .inmempool

theorem EntriesSent.not_pending {c : CompetitiveTransaction} (h : l.EntriesSent)
    (hc : c ∈ l.queue.inmempoolTransactions) : c.original.status ≠ .pending := by
  rw [h c hc c.original (List.mem_cons_self ..)]
  exact fun hpending => nomatch hpending

theorem EntriesSent.raced {id : TransactionId} (h : l.EntriesSent)
    (hraced : l.raced env id = some original) : original.status ≠ .pending := by
  obtain ⟨-, -, heditable⟩ := raced_some hraced
  obtain ⟨c, hc, rfl, -⟩ := TransactionsQueue.getEditable_inmempool heditable
  exact h.not_pending (List.mem_of_find?_eq_some hc)

theorem cancelTransaction_carried (l : Locked) (env : CompeteEnv) (id : TransactionId)
    (hentries : l.EntriesSent) :
    l.Carried (some env.newId) (l.cancelTransaction env id).1 := by
  obtain hkept | ⟨t, heditable, hrewrite⟩ | ⟨original, competitor, hraced, hcompetitor, hsent⟩ :=
    l.cancelTransaction_cases env id
  · rw [hkept]
    exact .refl l
  · refine rewritePending_carried ?_ hrewrite
    intro w hw hid
    exact .inl ⟨w, hw, hid, .inr rfl, .inr rfl⟩
  · rw [hsent]
    exact sendCompetitor_carried (cancelCompetitor_competes hcompetitor).id (hentries.raced hraced)

theorem replaceTransaction_carried (l : Locked) (env : CompeteEnv)
    (request : RelayTransactionRequest) (id : TransactionId) (hentries : l.EntriesSent) :
    l.Carried (some env.newId) (l.replaceTransaction env request id).1 := by
  obtain hkept | ⟨t, blobs, heditable, hrewrite⟩ |
      ⟨original, competitor, hraced, hcompetitor, hsent⟩ :=
    l.replaceTransaction_cases env request id
  · rw [hkept]
    exact .refl l
  · obtain ⟨ht, -⟩ := TransactionsQueue.getEditable_pending heditable
    refine rewritePending_carried ?_ hrewrite
    intro w hw hid
    exact .inl ⟨t, List.mem_of_find?_eq_some ht, rfl, .inl rfl, .inl rfl⟩
  · rw [hsent]
    exact sendCompetitor_carried (replaceCompetitor_competes hcompetitor).id (hentries.raced hraced)

end Compete

theorem addTransaction_carried (l : Locked) (env : AdmissionEnv) (toSend : TransactionToSend) :
    l.Carried (some toSend.id) (l.addTransaction env toSend).1 := by
  have hleaves := l.addTransaction_leaves env toSend
  generalize (l.addTransaction env toSend).1 = l' at hleaves ⊢
  cases hleaves with
  | kept | rejected => exact .of_lists rfl fun _ hc => hc
  | saved manager hid _ hstatus hhash =>
    constructor
    · intro u hu
      rcases (List.mem_orderedInsert
        (r := fun a b : Transaction => a.nonce < b.nonce)).mp hu with rfl | hu
      · exact .inr ⟨congrArg some hid.symm, hstatus, hhash⟩
      · exact pendingFrom_mem hu
    · intro c hc u hu
      exact .inl (inmempoolFrom_mem hc hu)
    · intro hnodup hfresh
      have hperm (t : Transaction) := List.perm_orderedInsert
        (fun a b : Transaction => a.nonce < b.nonce) t l.queue.pendingTransactions
      apply ((hperm _).map (·.id)).nodup_iff.mpr
      rw [List.map_cons]
      apply List.nodup_cons.mpr
      constructor
      · intro hmem
        obtain ⟨t, ht, hsame⟩ := List.mem_map.mp hmem
        exact hfresh toSend.id rfl t ht (hsame.trans hid)
      · exact hnodup

end Locked
end Rrelayer
