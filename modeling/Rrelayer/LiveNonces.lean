import Rrelayer.SystemEffect

/-! Uniqueness of live nonces within one process. -/
namespace Rrelayer

/-- Live transactions that are not an original and its own competitor have different nonces, all
of them below the next one handed out. -/
structure LiveNoncesUnique (q : TransactionsQueue) : Prop where
  pending : q.pendingTransactions.Pairwise fun t u => t.nonce ≠ u.nonce
  apart : ∀ t ∈ q.pendingTransactions, ∀ c ∈ q.inmempoolTransactions, ∀ u ∈ c.transactions,
    t.nonce ≠ u.nonce
  entries : q.inmempoolTransactions.Pairwise fun c d =>
    ∀ t ∈ c.transactions, ∀ u ∈ d.transactions, t.nonce ≠ u.nonce
  below : ∀ t ∈ q.liveTransactions, t.nonce < q.nonceManager.nonce

theorem mem_entry_nonces {c : CompetitiveTransaction} {n : ℕ} :
    n ∈ c.entry.nonces ↔ ∃ t ∈ c.transactions, t.nonce = n := by
  unfold Entry.nonces
  rw [CompetitiveTransaction.entry_members]
  simp

/-- The holders' numbers of the queue's table. -/
theorem mem_holders {q : TransactionsQueue} {H : List ℕ} :
    H ∈ q.book.table.holders ↔ (∃ t ∈ q.pendingTransactions, H = [t.nonce]) ∨
      ∃ c ∈ q.inmempoolTransactions, H = c.entry.nonces := by
  simp only [Book.table, TransactionsQueue.book, List.mem_append, List.mem_map,
    exists_exists_and_eq_and, eq_comm (a := H)]
  rfl

theorem exists_holder {q : TransactionsQueue} {n : ℕ} :
    (∃ H ∈ q.book.table.holders, n ∈ H) ↔ ∃ t ∈ q.liveTransactions, t.nonce = n := by
  unfold TransactionsQueue.liveTransactions
  constructor
  · rintro ⟨H, hH, hn⟩
    rcases mem_holders.mp hH with ⟨t, ht, rfl⟩ | ⟨c, hc, rfl⟩
    · exact ⟨t, List.mem_append_left _ ht, (List.mem_singleton.mp hn).symm⟩
    · obtain ⟨t, ht, hn⟩ := mem_entry_nonces.mp hn
      exact ⟨t, List.mem_append_right _ (List.mem_flatMap.mpr ⟨c, hc, ht⟩), hn⟩
  · rintro ⟨t, ht, rfl⟩
    rcases List.mem_append.mp ht with ht | ht
    · exact ⟨_, mem_holders.mpr (.inl ⟨t, ht, rfl⟩), List.mem_singleton_self _⟩
    · obtain ⟨c, hc, ht⟩ := List.mem_flatMap.mp ht
      exact ⟨_, mem_holders.mpr (.inr ⟨c, hc, rfl⟩), mem_entry_nonces.mpr ⟨t, ht, rfl⟩⟩

/-- Uniqueness is exclusiveness of the queue's table. -/
theorem liveNoncesUnique_iff (q : TransactionsQueue) :
    LiveNoncesUnique q ↔ q.book.table.Exclusive := by
  have hdisjoint : q.book.table.holders.Pairwise List.Disjoint ↔
      q.pendingTransactions.Pairwise (fun t u => t.nonce ≠ u.nonce) ∧
        q.inmempoolTransactions.Pairwise (fun c d =>
          ∀ t ∈ c.transactions, ∀ u ∈ d.transactions, t.nonce ≠ u.nonce) ∧
        ∀ t ∈ q.pendingTransactions, ∀ c ∈ q.inmempoolTransactions, ∀ u ∈ c.transactions,
          t.nonce ≠ u.nonce := by
    have hpending (t u : Transaction) : List.Disjoint [t.nonce] [u.nonce] ↔ t.nonce ≠ u.nonce := by
      rw [List.singleton_disjoint, List.mem_singleton]
    have hentries (c d : CompetitiveTransaction) : List.Disjoint c.entry.nonces d.entry.nonces ↔
        ∀ t ∈ c.transactions, ∀ u ∈ d.transactions, t.nonce ≠ u.nonce := by
      constructor
      · intro h t ht u hu htu
        exact h (mem_entry_nonces.mpr ⟨t, ht, rfl⟩) (mem_entry_nonces.mpr ⟨u, hu, htu.symm⟩)
      · intro h n hc hd
        obtain ⟨t, ht, rfl⟩ := mem_entry_nonces.mp hc
        obtain ⟨u, hu, hut⟩ := mem_entry_nonces.mp hd
        exact h t ht u hu hut.symm
    have happart (t : Transaction) (c : CompetitiveTransaction) :
        List.Disjoint [t.nonce] c.entry.nonces ↔ ∀ u ∈ c.transactions, t.nonce ≠ u.nonce := by
      rw [List.singleton_disjoint, mem_entry_nonces]
      exact ⟨fun h u hu htu => h ⟨u, hu, htu.symm⟩, fun h ⟨u, hu, hut⟩ => h u hu hut.symm⟩
    unfold Book.table TransactionsQueue.book
    simp only [List.pairwise_append, List.pairwise_map, List.mem_map, List.map_map,
      forall_exists_index, and_imp, forall_apply_eq_imp_iff₂, Function.comp_apply]
    simp only [Transaction.slot, hpending, hentries, happart]
  constructor
  · rintro ⟨hp, ha, he, hb⟩
    refine ⟨hdisjoint.mpr ⟨hp, he, ha⟩, fun H hH n hn => ?_⟩
    obtain ⟨t, ht, rfl⟩ := exists_holder.mp ⟨H, hH, hn⟩
    exact hb t ht
  · rintro ⟨hd, hb⟩
    obtain ⟨hp, he, ha⟩ := hdisjoint.mp hd
    refine ⟨hp, ha, he, fun t ht => ?_⟩
    obtain ⟨H, hH, hn⟩ := exists_holder.mpr ⟨t, ht, rfl⟩
    exact hb H hH _ hn

namespace TransactionsQueues

/-- Every action of the book keeps the table exclusive, whatever becomes of the numbers. -/
theorem liveNoncesUnique_step {s : TransactionsQueues} {e : Event} (he : e.isRestart = false)
    (h : ∀ q ∈ s.queue, LiveNoncesUnique q) : ∀ q ∈ (s.step e).queue, LiveNoncesUnique q := by
  have hchange := s.step_change e
  generalize s.step e = s' at hchange ⊢
  cases hchange with
  | idle => exact h
  | @acted l l' hl heffect =>
    rintro q ⟨⟩
    have hbefore := (liveNoncesUnique_iff _).mp (h _ (lock_some hl).1)
    have hpermits : Book.Permits (fun _ => True) l.queue.book (s.stepAction e) := by
      unfold Book.Permits
      split <;> simp
    exact (liveNoncesUnique_iff _).mpr
      (Allocation.Steps.exclusive (heffect.book.allocation hpermits) hbefore)
  | @confirmed l env _ hl =>
    rintro q ⟨⟩
    have hbefore := (liveNoncesUnique_iff _).mp (h _ (lock_some hl).1)
    rw [← (l.processSingleMined_spec env).1] at hbefore
    exact (liveNoncesUnique_iff _).mpr hbefore
  | restarted env heq => rw [heq] at he; cases he
  | extended => exact h

/-- Within one process, live nonces stay unique and below the next nonce, whatever the order of
operations and the answers of node, wallet and database. -/
theorem liveNonces_unique_below_next (s : TransactionsQueues) (es : List Event)
    (hes : ∀ e ∈ es, e.isRestart = false) (h : ∀ q ∈ s.queue, LiveNoncesUnique q) :
    ∀ q ∈ (s.run es).queue, LiveNoncesUnique q := by
  induction es generalizing s with
  | nil => exact h
  | cons e es ih =>
    exact ih (s.step e) (fun e' he' => hes e' (List.mem_cons_of_mem _ he'))
      (liveNoncesUnique_step (hes e (List.mem_cons_self ..)) h)

/-- Two admissions, a send and a cancel, which shares its original's nonce. -/
def cancelledPayment : List Event :=
  [.add (servedAdd 0) (payment 0 5), .add (servedAdd 0) (payment 1 6),
    .processPending (servedPending (.ok ()) (servedClient [] 0) []),
    .cancel (servedCompete 2 (.ok ()) (servedClient [] 0)) 0]

theorem liveNoncesUnique_fresh : ∀ q ∈ freshRelayer.queue, LiveNoncesUnique q := by
  intro q hq
  obtain rfl := Option.some.inj hq
  exact ⟨by simp [freshQueue], by simp [freshQueue], by simp [freshQueue],
    by simp [freshQueue, TransactionsQueue.liveTransactions]⟩

theorem liveNonces_unique_below_next_cancelled :
    ∃ q ∈ (freshRelayer.run cancelledPayment).queue, LiveNoncesUnique q := by
  have hsome : (freshRelayer.run cancelledPayment).queue.isSome = true := by decide +kernel
  obtain ⟨q, hq⟩ := Option.isSome_iff_exists.mp hsome
  exact ⟨q, hq, liveNonces_unique_below_next freshRelayer cancelledPayment (by decide +kernel)
    liveNoncesUnique_fresh q hq⟩

example : (freshRelayer.run cancelledPayment).queue.map (·.liveTransactions.map (·.slot)) =
    some [(1, 1), (0, 0), (2, 0)] := by decide +kernel

end TransactionsQueues
end Rrelayer
