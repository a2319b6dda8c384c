import Rrelayer.MemoryCopies

/-! What every copy in memory satisfies, container by container, and what an operation of the queue
needs to keep it. -/
namespace Rrelayer
namespace TransactionsQueue

/-- Every pending copy satisfies `P`, every copy of an entry `S` and every mined one `M`. -/
structure Copies (P S M : Transaction → Prop) (q : TransactionsQueue) : Prop where
  pending : ∀ t ∈ q.pendingTransactions, P t
  sent : ∀ c ∈ q.inmempoolTransactions, ∀ t ∈ c.transactions, S t
  mined : ∀ t ∈ q.minedTransactions, M t

namespace Copies

variable {P S M : Transaction → Prop} {q : TransactionsQueue} {t : Transaction}

theorem addPending (h : q.Copies P S M) (ht : P t) : (q.addPendingTransaction t).Copies P S M := by
  refine ⟨fun u hu => ?_, h.sent, h.mined⟩
  rcases (List.mem_orderedInsert (r := fun a b : Transaction => a.nonce < b.nonce)).mp hu with
    rfl | hu
  · exact ht
  · exact h.pending u hu

theorem updatePending (h : q.Copies P S M) (ht : P t) :
    (q.updatePendingTransaction t).Copies P S M := by
  refine ⟨fun u hu => ?_, h.sent, h.mined⟩
  rcases mem_updateFirst hu with hu | ⟨_, -, -, rfl⟩
  · exact h.pending u hu
  · exact ht

theorem updatePendingNonce (h : q.Copies P S M)
    (hP : ∀ (t : Transaction) n, P t → P { t with nonce := n })
    {id : TransactionId} {newNonce : ℕ} :
    (q.updatePendingTransactionNonce id newNonce).Copies P S M := by
  unfold updatePendingTransactionNonce
  split
  · refine ⟨fun u hu => ?_, h.sent, h.mined⟩
    have hu := (List.mem_insertionSort _).mp hu
    rcases mem_updateFirst hu with hu | ⟨w, hw, -, rfl⟩
    · exact h.pending u hu
    · exact hP w newNonce (h.pending w hw)
  · exact h

theorem movePending (h : q.Copies P S M) {sent : TransactionSentWithRelayer} {now : DateTime}
    (ht : S (sentTransaction t sent now)) {q' : TransactionsQueue}
    (hmove : q.movePendingToInmempool t sent now = .ok q') : q'.Copies P S M := by
  obtain ⟨head, rest, hlist, -, -, rfl⟩ := movePendingToInmempool_ok hmove
  refine ⟨fun u hu => h.pending u ?_, fun c hc u hu => ?_, h.mined⟩
  · rw [hlist]
    exact List.mem_cons_of_mem _ hu
  · rcases List.mem_append.mp hc with hc | hc
    · exact h.sent c hc u hu
    · rw [List.mem_singleton.mp hc] at hu
      have hu : u = sentTransaction t sent now := by
        simpa [CompetitiveTransaction.transactions, CompetitiveTransaction.new] using hu
      rw [hu]
      exact ht

theorem updateById {c : CompetitiveTransaction} {id : TransactionId} {f : Transaction → Transaction}
    (hc : ∀ t ∈ c.transactions, S t) (hf : ∀ u, S u → S (f u)) :
    ∀ t ∈ (c.updateTransactionById id f).transactions, S t := by
  intro t ht
  rcases Locked.mem_updateTransactionById ht with ht | ⟨u, hu, -, rfl⟩
  · exact hc t ht
  · exact hf u (hc u hu)

theorem updateFront (h : q.Copies P S M) {id : TransactionId} {f : Transaction → Transaction}
    (hf : ∀ u, S u → S (f u)) : (q.updateFrontById id f).Copies P S M := by
  unfold updateFrontById
  split
  · rename_i front rest hlist
    refine ⟨h.pending, fun c hc => ?_, h.mined⟩
    rcases List.mem_cons.mp hc with rfl | hc
    · exact updateById (h.sent front (by simp [hlist])) hf
    · exact h.sent c (by rw [hlist]; exact List.mem_cons_of_mem _ hc)
  · exact h

theorem updateInmempoolNonce (h : q.Copies P S M)
    (hS : ∀ (t : Transaction) n, S t → S { t with nonce := n }) {id : TransactionId} {newNonce : ℕ} :
    (q.updateInmempoolTransactionNonce id newNonce).Copies P S M := by
  refine ⟨h.pending, fun c hc => ?_, h.mined⟩
  rcases mem_updateFirst hc with hc | ⟨c', hc', -, rfl⟩
  · exact h.sent c hc
  · exact updateById (h.sent c' hc') fun u => hS u newNonce

theorem addCompetitor (h : q.Copies P S M)
    (hS : ∀ (t : Transaction) y, S t → S { t with cancelledByTransactionId := some y }) (ht : S t)
    {originalId : TransactionId} {type : CompetitionType} {q' : TransactionsQueue}
    (hadd : q.addCompetitorToInmempoolTransaction originalId t type = .ok q') :
    q'.Copies P S M := by
  obtain ⟨front, rest, hlist, -, rfl⟩ := addCompetitor_ok hadd
  refine ⟨h.pending, fun c hc u hu => ?_, h.mined⟩
  rcases List.mem_cons.mp hc with rfl | hc
  · have hu : u = { front.original with cancelledByTransactionId := some t.id } ∨ u = t := by
      simpa [CompetitiveTransaction.transactions, CompetitiveTransaction.addCompetitor] using hu
    rcases hu with rfl | rfl
    · exact hS _ t.id (h.sent front (by simp [hlist]) _ (List.mem_cons_self ..))
    · exact ht
  · exact h.sent c (by rw [hlist]; exact List.mem_cons_of_mem _ hc) u hu

theorem confirmed (h : q.Copies P S M) {id : TransactionId} :
    (q.moveMiningToConfirmed id).Copies P S M :=
  ⟨h.pending, h.sent, fun t ht => h.mined t (List.mem_filter.mp ht).1⟩

theorem moveInmempool (h : q.Copies P S M) {id : TransactionId} {receipt : Receipt} {now : DateTime}
    {r : CompetitionResolutionResult} {q' : TransactionsQueue} (hr : M r.winner)
    (hmove : q.moveInmempoolToMining id receipt now = .ok (r, q')) : q'.Copies P S M := by
  unfold moveInmempoolToMining at hmove
  split at hmove
  · cases hmove
  · rename_i front rest hlist
    split at hmove
    · cases hmove
    · cases hmove
      refine ⟨h.pending, fun c hc => ?_, fun t ht => ?_⟩
      · exact h.sent c (by rw [hlist]; exact List.mem_cons_of_mem _ hc)
      · dsimp only at ht
        split at ht
        · rcases List.mem_append.mp ht with ht | ht
          · exact h.mined t (List.mem_filter.mp ht).1
          · rw [List.mem_singleton.mp ht]
            exact hr
        · exact h.mined t ht

end Copies

end TransactionsQueue
end Rrelayer
