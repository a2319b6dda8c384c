import Rrelayer.TrackedEntries

/-! What a startup finds again of the in-mempool rows, and runs in which every transaction in the
mempool stays in the queue. -/
namespace Rrelayer

/-- A startup holds every in-mempool row of the relayer, when their links are flat. -/
theorem repopulatedQueue_tracked {db : Db} (hkey : db.PrimaryKey) (relayer : Relayer)
    (env : StartupEnv) (onchainNonce : ℕ)
    (hflat : FlatLinks (db.getTransactionsByStatusForRelayer relayer.id .inmempool))
    {x : TransactionId} (hx : Db.Shows relayer.id db x) :
    (repopulatedQueue relayer env db onchainNonce).Holds x := by
  obtain ⟨r, hr, rfl, hrelayer, hstatus⟩ := hx
  have hmem : r.toTransaction ∈ db.getTransactionsByStatusForRelayer relayer.id .inmempool := by
    apply List.mem_map_of_mem
    apply (List.mem_insertionSort fun a b : Row => a.nonce ≤ b.nonce).mpr
    apply List.mem_filter.mpr
    exact ⟨hr, by simp [hrelayer, hstatus]⟩
  obtain ⟨c, hc, u, hu, hid⟩ :=
    repopulateLoop_holds (Db.getTransactionsByStatus_nodup hkey) hflat hmem
  exact ⟨c, hc, u, hu, hid⟩

namespace TransactionsQueues

/-- What an event needs so that nothing in the mempool is lost track of. -/
structure Tracks (s : TransactionsQueues) (e : Event) : Prop where
  competitor : ∀ l ∈ s.lock, ∀ env original competitor,
    l.requested e = some (env, original, competitor) → l.Attaches env original competitor
  resolution : ∀ l ∈ s.lock, ∀ env, e = .processInmempool env → l.SettlesFront env
  restart : ∀ env, e = .restart env → FlatLinks
    ((s.step e).db.getTransactionsByStatusForRelayer s.relayer.id .inmempool)

/-- Every transaction that the rows show in the mempool is in an entry. -/
def AllTracked (s : TransactionsQueues) : Prop :=
  ∀ q ∈ s.queue, ∀ x, Db.Shows q.relayer.id s.db x → q.Holds x

variable {s : TransactionsQueues} {e : Event} {made : Made}

theorem AllTracked.step (h : s.AllTracked) (hdurable : s.Durable made) (htracks : s.Tracks e)
    (hkey : (s.step e).db.PrimaryKey) : (s.step e).AllTracked := by
  have hlocked {ρ : Type} {operation : Locked → Locked × ρ}
      (hstep : s.step e = s.locked operation)
      (hkeeps : ∀ l, s.lock = some l → l.KeepsTrack (operation l).1) : (s.step e).AllTracked := by
    rcases hlock : s.lock with _ | l
    · have hidle : s.step e = s := by rw [hstep, locked_of_none operation hlock]
      rw [hidle]
      exact h
    · obtain ⟨hq, hdb, -⟩ := lock_some hlock
      have hrun : s.step e = s.unlock (operation l).1 := by
        rw [hstep, locked_of_some operation hlock]
      have htracked : l.Tracked := by
        unfold Locked.Tracked
        rw [hdb]
        exact h l.queue hq
      rw [hrun]
      intro q hqueue
      cases hqueue
      exact (hkeeps l hlock).tracked htracked
  have hpending : ∀ l, s.lock = some l → ∀ t ∈ l.queue.pendingTransactions, t.status = .pending := by
    intro l hlock t ht
    exact ((hdurable.live l.queue (lock_some hlock).1).pending t ht).1
  cases e with
  | add env toSend => exact hlocked rfl fun l _ => l.addTransaction_keepsTrack env toSend
  | cancel env id =>
    exact hlocked rfl fun l hl => l.cancelTransaction_keepsTrack env id (htracks.competitor l hl)
  | replace env request id =>
    exact hlocked rfl fun l hl =>
      l.replaceTransaction_keepsTrack env request id (hpending l hl) (htracks.competitor l hl)
  | processPending env =>
    exact hlocked rfl fun l hl => l.processSinglePending_keepsTrack env (hpending l hl)
  | processInmempool env =>
    exact hlocked rfl fun l hl =>
      l.processSingleInmempool_keepsTrack env (htracks.resolution l hl env rfl)
  | processMined env => exact hlocked rfl fun l _ => l.processSingleMined_keepsTrack env
  | restart env =>
    intro q hq x hx
    have hflat := htracks.restart env rfl
    obtain ⟨onchainNonce, -, rfl⟩ := startupTransactionsQueues_queue hq
    exact repopulatedQueue_tracked hkey s.relayer env onchainNonce hflat hx
  | included signed =>
    show (s.includeSigned signed).AllTracked
    unfold AllTracked
    rw [includeSigned_queue, includeSigned_db]
    exact h

end TransactionsQueues

namespace Locked

variable {l : Locked} {env : CompeteEnv} {id : TransactionId} {original competitor : Transaction}

end Locked

namespace TransactionsQueues

variable {s : TransactionsQueues}

instance (db : Db) (q : TransactionsQueue) (x : TransactionId) : Decidable (Unused db q x) :=
  decidable_of_iff (db.row x = none ∧ (∀ t ∈ q.pendingTransactions, t.id ≠ x) ∧
      (∀ c ∈ q.inmempoolTransactions, ∀ t ∈ c.transactions, t.id ≠ x) ∧
      ∀ t ∈ q.minedTransactions, t.id ≠ x)
    ⟨fun h => ⟨h.1, h.2.1, h.2.2.1, h.2.2.2⟩, fun h => ⟨h.row, h.pending, h.sent, h.mined⟩⟩

end TransactionsQueues

end Rrelayer
