import Rrelayer.DurableAttempts
import Rrelayer.InmempoolReassignment

/-! The write-ahead law over runs: what has been broadcast is recorded in every later state, and a
pending row gets in the mempool by an accepted broadcast or an adopted attempt only. -/
namespace Rrelayer

namespace Db

variable {db : Db} {relayerId : RelayerId} {status : TransactionStatus}

/-- With the primary key, the rows of an id have the status one of them has. -/
theorem avoids_of_row {r : Row} {x : TransactionId} (hkey : db.PrimaryKey) (hr : r ∈ db.rows)
    (hid : r.id = x) (hstatus : r.status ≠ status) : Avoids status db x := by
  intro r' hr' hid'
  have hsame : r' = r := by
    have hrow := row_of_mem hkey hr
    have hrow' := row_of_mem hkey hr'
    rw [hid', ← hid, hrow] at hrow'
    exact (Option.some.inj hrow').symm
  rw [hsame]
  exact hstatus

end Db

/-- The copies in memory show recorded hashes; the pending ones are distinct, and the sent ones
have left the pending status in the database as well. -/
structure LiveEvidence (db : Db) (q : TransactionsQueue) : Prop where
  pending : ∀ t ∈ q.pendingTransactions, t.status = .pending ∧ db.Attempted t
  nodup : (q.pendingTransactions.map (·.id)).Nodup
  sent : ∀ c ∈ q.inmempoolTransactions, ∀ t ∈ c.transactions,
    t.status = .inmempool ∧ db.NotPending t.id ∧ db.Attempted t
  apart : ∀ t ∈ q.pendingTransactions, ∀ c ∈ q.inmempoolTransactions, ∀ u ∈ c.transactions,
    t.id ≠ u.id

theorem repopulatedQueue_evidence {db : Db} (hkey : db.PrimaryKey) (hrows : db.RowsRecorded)
    (relayer : Relayer) (env : StartupEnv) (onchainNonce : ℕ) :
    LiveEvidence db (repopulatedQueue relayer env db onchainNonce) := by
  have hpending : ∀ t ∈ (repopulatedQueue relayer env db onchainNonce).pendingTransactions,
      ∃ r ∈ db.rows, r.status = .pending ∧ r.toTransaction = t := by
    intro t ht
    have hmem := (List.mem_insertionSort fun a b : Transaction => a.nonce ≤ b.nonce).mp ht
    exact Db.mem_getTransactionsByStatus hmem
  have hsent : ∀ c ∈ (repopulatedQueue relayer env db onchainNonce).inmempoolTransactions,
      ∀ t ∈ c.transactions, ∃ r ∈ db.rows, r.status = .inmempool ∧ r.id = t.id ∧
        t.status = .inmempool ∧ t.knownTransactionHash = r.knownTransactionHash := by
    intro c hc t ht
    obtain ⟨u, hu, heq⟩ := mem_repopulateLoop (fun _ hu => hu) hc t ht
    obtain ⟨r, hr, hstatus, rfl⟩ := Db.mem_getTransactionsByStatus hu
    rw [heq]
    exact ⟨r, hr, hstatus, rfl, hstatus, rfl⟩
  constructor
  · intro t ht
    obtain ⟨r, hr, hstatus, rfl⟩ := hpending t ht
    exact ⟨hstatus, hrows r hr⟩
  · have hperm := List.perm_insertionSort (fun a b : Transaction => a.nonce ≤ b.nonce)
      (db.getTransactionsByStatusForRelayer relayer.id .pending)
    exact (hperm.map (·.id)).nodup_iff.mpr (Db.getTransactionsByStatus_nodup hkey)
  · intro c hc t ht
    obtain ⟨r, hr, hstatus, hid, hcopy, hhash⟩ := hsent c hc t ht
    refine ⟨hcopy, Db.avoids_of_row hkey hr hid ?_, ?_⟩
    · rw [hstatus]
      exact fun h => nomatch h
    · intro hash hshown
      rw [← hid]
      exact hrows r hr hash (hhash ▸ hshown)
  · intro t ht c hc u hu hid
    obtain ⟨r, hr, hstatus, rfl⟩ := hpending t ht
    obtain ⟨r', hr', hstatus', hid', -⟩ := hsent c hc u hu
    have havoids : Db.Avoids .pending db u.id := by
      apply Db.avoids_of_row hkey hr' hid'
      rw [hstatus']
      exact fun h => nomatch h
    exact havoids r hr hid hstatus

/-- Nothing in the database or in memory has the id. -/
structure Unused (db : Db) (q : TransactionsQueue) (x : TransactionId) : Prop where
  row : db.row x = none
  pending : ∀ t ∈ q.pendingTransactions, t.id ≠ x
  sent : ∀ c ∈ q.inmempoolTransactions, ∀ t ∈ c.transactions, t.id ≠ x
  mined : ∀ t ∈ q.minedTransactions, t.id ≠ x

/-- An operation keeps the evidence of the copies, when it only appends to the log and takes no
row of a sent copy back to pending. -/
theorem LiveEvidence.carried {l l' : Locked} {newId : Option TransactionId}
    (h : LiveEvidence l.db l.queue) (hcarried : l.Carried newId l')
    (hunused : ∀ x ∈ newId, Unused l.db l.queue x)
    (haudit : ∃ new, l'.db.audit = l.db.audit ++ new)
    (hrows : ∀ c ∈ l.queue.inmempoolTransactions, ∀ t ∈ c.transactions, l'.db.NotPending t.id) :
    LiveEvidence l'.db l'.queue := by
  obtain ⟨new, happend⟩ := haudit
  have hkept {t : Transaction} (ht : l.db.Attempted t) : l'.db.Attempted t :=
    fun hash hhash => (ht hash hhash).of_append happend
  constructor
  · intro t ht
    rcases hcarried.pending t ht with ⟨u, hu, hid, hstatus, hhash⟩ | ⟨-, hstatus, hhash⟩
    · obtain ⟨hpending, hattempted⟩ := h.pending u hu
      constructor
      · rcases hstatus with hstatus | hstatus
        · exact hstatus.trans hpending
        · exact hstatus
      · intro hash hshown
        rcases hhash with hhash | hhash
        · rw [← hid]
          exact hkept hattempted hash (hhash ▸ hshown)
        · rw [hhash] at hshown
          cases hshown
    · refine ⟨hstatus, fun hash hshown => ?_⟩
      rw [hhash] at hshown
      cases hshown
  · apply hcarried.nodup h.nodup
    intro x hx
    exact (hunused x hx).pending
  · intro c hc t ht
    rcases hcarried.inmempool c hc t ht with ⟨entry, hentry, u, hu, hid, hstatus, hhash⟩ | hsent
    · obtain ⟨hinmempool, -, hattempted⟩ := h.sent entry hentry u hu
      refine ⟨hstatus.trans hinmempool, hid ▸ hrows entry hentry u hu, ?_⟩
      rcases hhash with hhash | hrecorded
      · intro hash hshown
        rw [← hid]
        exact hkept hattempted hash (hhash ▸ hshown)
      · exact hrecorded
    · exact ⟨hsent.status, hsent.row, hsent.attempted⟩
  · intro t ht c hc u hu hid
    rcases hcarried.inmempool c hc u hu with ⟨entry, hentry, v, hv, hvid, -⟩ | hsent
    · rcases hcarried.pending t ht with ⟨w, hw, hwid, -⟩ | ⟨hnew, -⟩
      · exact h.apart w hw entry hentry v hv (hwid.trans (hid.trans hvid.symm))
      · exact (hunused t.id hnew).sent entry hentry v hv (hvid.trans hid.symm)
    · rcases hsent.origin with ⟨hnew, hsame⟩ | ⟨head, hlist, hheadId⟩
      · exact (hunused u.id hnew).pending t (hsame ▸ ht) hid
      · have hnodup := h.nodup
        rw [hlist, List.map_cons] at hnodup
        apply (List.nodup_cons.mp hnodup).1
        exact List.mem_map.mpr ⟨t, ht, hid.trans hheadId.symm⟩

namespace TransactionsQueues

/-- What every operation is given: a new id is unused, and a receipt is one of its hash. -/
structure Proper (s : TransactionsQueues) (e : Event) : Prop where
  newId : ∀ x ∈ e.newId, ∀ q ∈ s.queue, Unused s.db q x
  receipts : ∀ env, e = .processInmempool env → ∀ hash receipt,
    env.pollReceipt hash = .ok (some receipt) → receipt.transactionHash = hash

/-- The system keeps the evidence of everything it has broadcast. -/
structure Durable (made : Made) (s : TransactionsQueues) : Prop where
  key : s.db.PrimaryKey
  evidenced : Evidenced made (s.db, s.broadcasts)
  live : ∀ q ∈ s.queue, LiveEvidence s.db q

variable {made : Made} {s : TransactionsQueues} {e : Event}

/-- A copy a step may write shows recorded hashes. -/
theorem Durable.owned (h : s.Durable made) {t : Transaction} (ht : (s.writer e).owned t) :
    s.db.Attempted t := by
  unfold writer at ht
  rcases hlock : s.lock with _ | l
  · rw [hlock] at ht
    cases ht
  · rw [hlock] at ht
    obtain ⟨hq, hdb, -⟩ := lock_some hlock
    have hlive := h.live l.queue hq
    intro hash hshown
    rcases ht with ⟨-, -, hhash⟩ | ⟨u, hu, hid, -, hhash⟩ | ⟨c, hc, u, hu, hid, -, hhash⟩
    · rw [hhash] at hshown
      cases hshown
    · rcases hhash with hhash | hhash
      · rw [← hid]
        exact (hlive.pending u hu).2 hash (hhash ▸ hshown)
      · rw [hhash] at hshown
        cases hshown
    · rw [← hid]
      exact (hlive.sent c hc u hu).2.2 hash (hhash ▸ hshown)

theorem writer_signs {t : Transaction} {signed : SignedTransaction}
    {sent : TransactionSentWithRelayer} (h : (s.writer e).signs t signed sent) :
    ∃ l ∈ s.lock, ∃ env ∈ e.sendEnv, ∃ t₀,
      prepareSend l.queue.toSendConfig env t₀ = (t, .ok (signed, sent)) := by
  unfold writer at h
  rcases hlock : s.lock with _ | l
  · rw [hlock] at h
    cases h
  · rw [hlock] at h
    exact ⟨l, rfl, h⟩

theorem Durable.reliable (h : s.Durable made) (hproper : s.Proper e)
    (hmade : ∀ t signed sent, (s.writer e).signs t signed sent →
      made t.id signed sent.sentWithGas sent.sentWithBlobGas) :
    (s.writer e).Reliable made s.db := by
  constructor
  · exact fun t ht => h.owned ht
  · intro t signed sent hsigns
    obtain ⟨l, -, env, -, t₀, hprepare⟩ := writer_signs hsigns
    have hspec := prepareSend_spec l.queue.toSendConfig env t₀
    rw [hprepare] at hspec
    have hfor := hspec.2 signed sent rfl
    exact ⟨hfor.id.trans hspec.1.id.symm, hfor.hash, hmade t signed sent hsigns⟩
  · intro hash receipt hanswers
    unfold writer at hanswers
    rcases hlock : s.lock with _ | l
    · rw [hlock] at hanswers
      cases hanswers
    · rw [hlock] at hanswers
      obtain ⟨env, he, hreceipt⟩ := hanswers
      exact hproper.receipts env he hash receipt hreceipt

/-- The database rows of the sent copies stay out of the pending status. -/
theorem Durable.sent_notPending (h : s.Durable made) (hproper : s.Proper e) {l : Locked}
    (hlock : s.lock = some l) {c : CompetitiveTransaction}
    (hc : c ∈ l.queue.inmempoolTransactions) {t : Transaction} (ht : t ∈ c.transactions) :
    (s.step e).db.NotPending t.id := by
  obtain ⟨hq, hdb, -⟩ := lock_some hlock
  have hlive := h.live l.queue hq
  have hhistory : History (s.writer e) (s.db, s.broadcasts) ((s.step e).db, (s.step e).broadcasts) :=
    s.step_history e
  apply hhistory.notPending
  · intro u hu hid
    unfold writer at hu
    rw [hlock] at hu
    rcases hu with ⟨hnew, -⟩ | ⟨w, hw, hwid, -⟩ | ⟨entry, hentry, w, hw, -, hstatus, -⟩
    · exact absurd hid.symm ((hproper.newId u.id hnew l.queue hq).sent c hc t ht)
    · exact absurd (hwid.trans hid) (hlive.apart w hw c hc t ht)
    · obtain ⟨hinmempool, -⟩ := hlive.sent entry hentry w hw
      rcases hstatus with hstatus | hstatus | hstatus
      · rw [hstatus, hinmempool]
        exact fun h => nomatch h
      · rw [hstatus]
        exact fun h => nomatch h
      · rw [hstatus]
        exact fun h => nomatch h
  · exact (hlive.sent c hc t ht).2.1

/-- The copies in memory after a step are carried over, read back, or the same. -/
theorem Durable.live_step (h : s.Durable made) (hproper : s.Proper e)
    (hmade : ∀ t signed sent, (s.writer e).signs t signed sent →
      made t.id signed sent.sentWithGas sent.sentWithBlobGas)
    (hafter : Evidenced made ((s.step e).db, (s.step e).broadcasts))
    (hkey : (s.step e).db.PrimaryKey) :
    ∀ q ∈ (s.step e).queue, LiveEvidence (s.step e).db q := by
  have hlocked {ρ : Type} {operation : Locked → Locked × ρ}
      (hstep : s.step e = s.locked operation)
      (hcarried : ∀ l, s.lock = some l → l.Carried e.newId (operation l).1) :
      ∀ q ∈ (s.step e).queue, LiveEvidence (s.step e).db q := by
    rcases hlock : s.lock with _ | l
    · have hidle : s.step e = s := by rw [hstep, locked_of_none operation hlock]
      rw [hidle]
      exact h.live
    · obtain ⟨hq, hdb, -⟩ := lock_some hlock
      have hrun : s.step e = s.unlock (operation l).1 := by
        rw [hstep, locked_of_some operation hlock]
      have haudit : ∃ new, (s.step e).db.audit = s.db.audit ++ new :=
        History.audit (s.step_history e)
      have hrows : ∀ c ∈ l.queue.inmempoolTransactions, ∀ t ∈ c.transactions,
          (s.step e).db.NotPending t.id := fun c hc t ht => h.sent_notPending hproper hlock hc ht
      rw [hrun] at haudit hrows ⊢
      intro q hqueue
      cases hqueue
      apply @LiveEvidence.carried l (operation l).1 e.newId
      · rw [hdb]
        exact h.live l.queue hq
      · exact hcarried l hlock
      · rw [hdb]
        exact fun x hx => hproper.newId x hx l.queue hq
      · rw [hdb]
        exact haudit
      · exact hrows
  have hentries : ∀ l, s.lock = some l → l.EntriesSent := by
    intro l hlock c hc t ht
    exact ((h.live l.queue (lock_some hlock).1).sent c hc t ht).1
  cases e with
  | add env toSend => exact hlocked rfl fun l _ => l.addTransaction_carried env toSend
  | cancel env id =>
    exact hlocked rfl fun l hl => l.cancelTransaction_carried env id (hentries l hl)
  | replace env request id =>
    exact hlocked rfl fun l hl => l.replaceTransaction_carried env request id (hentries l hl)
  | processPending env =>
    apply hlocked rfl
    intro l hlock
    apply l.processSinglePending_carried env
    intro t ht
    obtain ⟨hq, hdb, hbroadcasts⟩ := lock_some hlock
    have hslot := l.pendingCopy_sameSlot env t
    have hhistory : History (l.writer (.processPending env)) l.store
        (l.send env.send (l.pendingCopy env t)).2.1.store :=
      Locked.send_history rfl (.inr (.inl ⟨t, List.mem_of_head? ht, hslot.id.symm,
        .inl hslot.status, .inl hslot.knownTransactionHash⟩))
    have hreliable := h.reliable hproper hmade
    have hevidenced := h.evidenced
    unfold writer at hreliable
    rw [hlock] at hreliable
    rw [← hdb, ← hbroadcasts] at hevidenced
    rw [← hdb] at hreliable
    exact (hhistory.evidenced hreliable hevidenced).rows
  | processInmempool env =>
    exact hlocked rfl fun l _ => l.processSingleInmempool_carried env
  | processMined env => exact hlocked rfl fun l _ => l.processSingleMined_carried env
  | restart env =>
    intro q hq
    obtain ⟨onchainNonce, -, rfl⟩ := startupTransactionsQueues_queue hq
    exact repopulatedQueue_evidence hkey hafter.rows s.relayer env onchainNonce
  | included signed =>
    show ∀ q ∈ (s.includeSigned signed).queue, LiveEvidence (s.includeSigned signed).db q
    rw [includeSigned_queue, includeSigned_db]
    exact h.live

theorem Durable.step (h : s.Durable made) (hproper : s.Proper e)
    (hmade : ∀ t signed sent, (s.writer e).signs t signed sent →
      made t.id signed sent.sentWithGas sent.sentWithBlobGas) : (s.step e).Durable made := by
  have hhistory : History (s.writer e) (s.db, s.broadcasts) ((s.step e).db, (s.step e).broadcasts) :=
    s.step_history e
  have hafter := hhistory.evidenced (h.reliable hproper hmade) h.evidenced
  have hkey := hhistory.primaryKey h.key
  exact ⟨hkey, hafter, h.live_step hproper hmade hafter hkey⟩

/-- A relayer that has nothing stored, nothing queued and nothing broadcast. -/
structure Blank (s : TransactionsQueues) : Prop where
  db : s.db = .empty
  broadcasts : s.broadcasts = []
  queue : ∀ q ∈ s.queue, q.pendingTransactions = [] ∧ q.inmempoolTransactions = []

/-- The step signs the attempt at the price. -/
def Prices (s : TransactionsQueues) (e : Event) (x : TransactionId) (signed : SignedTransaction)
    (gas : GasPriceResult) (blobGas : Option BlobGasPriceResult) : Prop :=
  ∃ l ∈ s.lock, ∃ env ∈ e.sendEnv, ∃ t t' sent,
    prepareSend l.queue.toSendConfig env t = (t', .ok (signed, sent)) ∧
    t'.id = x ∧ sent.sentWithGas = gas ∧ sent.sentWithBlobGas = blobGas

theorem Prices.pays {x : TransactionId} {signed : SignedTransaction} {gas : GasPriceResult}
    {blobGas : Option BlobGasPriceResult} (h : s.Prices e x signed gas blobGas) :
    signed.Pays gas blobGas := by
  obtain ⟨l, -, env, -, t, t', sent, hprepare, -, rfl, rfl⟩ := h
  obtain ⟨working, gasLimit, request, blobGas, hprepared⟩ := prepareSend_ok hprepare
  exact hprepared.pays

end TransactionsQueues

namespace Db

variable {made : Made} {db : Db} {x : TransactionId} {hash : TransactionHash}

end Db

namespace TransactionsQueues

variable {s : TransactionsQueues}

theorem freshRelayer_blank : freshRelayer.Blank := by
  refine ⟨rfl, rfl, ?_⟩
  rintro q ⟨⟩
  exact ⟨rfl, rfl⟩

/-- A payment and its first send at the given price. -/
def sentAtPrice (gas : GasPriceResult) : List Event :=
  [.add (servedAdd 0) (payment 0 5), .processPending { servedPending (.ok ()) (servedClient [] 0) []
    with send := { servedSend (.ok ()) with gasOracle := fun _ => some gas } }]

end TransactionsQueues

end Rrelayer
