import Rrelayer.QueueConservation
import Rrelayer.ExclusiveCompetition

/-! Which transaction stands at the head of the in-mempool queue. -/
namespace Rrelayer

namespace Book

/-- The order information a book carries: entries wait in the order of their nonces, pending
transactions behind them, and every number is below the next one. -/
structure InOrder (b : Book) : Prop where
  entries : b.inmempool.Pairwise fun c d => ∀ x ∈ c.nonces, ∀ y ∈ d.nonces, x ≤ y
  behind : ∀ c ∈ b.inmempool, ∀ x ∈ c.nonces, ∀ p ∈ b.pending, x ≤ p.2
  below : ∀ c ∈ b.inmempool, ∀ x ∈ c.nonces, x < b.next
  pendingBelow : ∀ p ∈ b.pending, p.2 < b.next

variable {b b' : Book} {a : Action}

/-- A front that changes within its own numbers stays in order. -/
theorem InOrder.front (h : b.InOrder) {e e' : Entry} {es : List Entry}
    (hfront : b.inmempool = e :: es) (hsub : e'.nonces ⊆ e.nonces) :
    InOrder ⟨b.next, b.pending, e' :: es⟩ := by
  obtain ⟨hentries, hbehind, hbelow, hpending⟩ := h
  rw [hfront] at hentries hbehind hbelow
  rw [List.pairwise_cons] at hentries
  constructor
  · rw [List.pairwise_cons]
    exact ⟨fun d hd x hx => hentries.1 d hd x (hsub hx), hentries.2⟩
  · intro c hc x hx
    rcases List.mem_cons.mp hc with rfl | hc
    · exact hbehind e (List.mem_cons_self ..) x (hsub hx)
    · exact hbehind c (List.mem_cons_of_mem _ hc) x hx
  · intro c hc x hx
    rcases List.mem_cons.mp hc with rfl | hc
    · exact hbelow e (List.mem_cons_self ..) x (hsub hx)
    · exact hbelow c (List.mem_cons_of_mem _ hc) x hx
  · exact hpending

/-- A new transaction at the end of what is pending, at or above the counter. -/
theorem InOrder.extend {ps ps' : List (TransactionId × ℕ)} {id : TransactionId} {n : ℕ}
    (h : InOrder ⟨b.next, ps, b.inmempool⟩) (hn : b.next ≤ n)
    (hperm : ps'.Perm ((id, n) :: ps)) : InOrder ⟨n + 1, ps', b.inmempool⟩ := by
  obtain ⟨hentries, hbehind, hbelow, hpending⟩ := h
  constructor
  · exact hentries
  · intro c hc x hx p hp
    rcases List.mem_cons.mp (hperm.mem_iff.mp hp) with rfl | hp
    · exact Nat.le_of_lt (lt_of_lt_of_le (hbelow c hc x hx) hn)
    · exact hbehind c hc x hx p hp
  · intro c hc x hx
    exact Nat.lt_succ_of_lt (lt_of_lt_of_le (hbelow c hc x hx) hn)
  · intro p hp
    rcases List.mem_cons.mp (hperm.mem_iff.mp hp) with rfl | hp
    · exact Nat.lt_succ_self _
    · exact Nat.lt_succ_of_lt (lt_of_lt_of_le (hpending p hp) hn)

theorem InOrder.raise (h : b.InOrder) (m : ℕ) :
    InOrder { b with next := max b.next m } := by
  obtain ⟨hentries, hbehind, hbelow, hpending⟩ := h
  constructor
  · exact hentries
  · exact hbehind
  · intro c hc x hx
    exact lt_of_lt_of_le (hbelow c hc x hx) (Nat.le_max_left ..)
  · intro p hp
    exact lt_of_lt_of_le (hpending p hp) (Nat.le_max_left ..)

/-- The smallest pending transaction is behind every entry and before the rest. -/
theorem InOrder.launch {id : TransactionId} {n : ℕ} {hash : TransactionHash}
    {ps : List (TransactionId × ℕ)} (h : b.InOrder) (hhead : b.pending = (id, n) :: ps)
    (hsorted : (b.pending.map (·.2)).Pairwise (· ≤ ·)) :
    InOrder ⟨b.next, ps, b.inmempool ++ [⟨⟨id, n, some hash⟩, none⟩]⟩ := by
  obtain ⟨hentries, hbehind, hbelow, hpending⟩ := h
  rw [hhead] at hbehind hpending hsorted
  rw [List.map_cons, List.pairwise_cons] at hsorted
  have hnew : ∀ x ∈ Entry.nonces ⟨⟨id, n, some hash⟩, none⟩, x = n := by
    intro x hx
    exact List.mem_singleton.mp hx
  constructor
  · rw [List.pairwise_append]
    refine ⟨hentries, List.pairwise_singleton _ _, ?_⟩
    intro c hc d hd x hx y hy
    rw [List.mem_singleton.mp hd] at hy
    rw [hnew y hy]
    exact hbehind c hc x hx (id, n) (List.mem_cons_self ..)
  · intro c hc x hx p hp
    rcases List.mem_append.mp hc with hc | hc
    · exact hbehind c hc x hx p (List.mem_cons_of_mem _ hp)
    · rw [List.mem_singleton.mp hc] at hx
      rw [hnew x hx]
      exact hsorted.1 p.2 (List.mem_map_of_mem hp)
  · intro c hc x hx
    rcases List.mem_append.mp hc with hc | hc
    · exact hbelow c hc x hx
    · rw [List.mem_singleton.mp hc] at hx
      rw [hnew x hx]
      exact hpending (id, n) (List.mem_cons_self ..)
  · exact fun p hp => hpending p (List.mem_cons_of_mem _ hp)

/-- The pending head leaves. -/
theorem InOrder.tail {p : TransactionId × ℕ} {ps : List (TransactionId × ℕ)} (h : b.InOrder)
    (hhead : b.pending = p :: ps) : InOrder ⟨b.next, ps, b.inmempool⟩ := by
  obtain ⟨hentries, hbehind, hbelow, hpending⟩ := h
  rw [hhead] at hbehind hpending
  refine ⟨hentries, ?_, hbelow, ?_⟩
  · intro c hc x hx q hq
    exact hbehind c hc x hx q (List.mem_cons_of_mem _ hq)
  · intro q hq
    exact hpending q (List.mem_cons_of_mem _ hq)

/-- The only entry takes a number at or above the counter. -/
theorem InOrder.renumber {e : Entry} {m : ℕ} (h : b.InOrder) (hfront : b.inmempool = [e])
    (hpending : b.pending = []) (hm : b.next ≤ m) :
    InOrder ⟨m + 1, b.pending, [e.update e.active.id fun held => { held with nonce := m }]⟩ := by
  constructor
  · exact List.pairwise_singleton _ _
  · intro c hc x hx p hp
    rw [hpending] at hp
    cases hp
  · intro c hc x hx
    rw [List.mem_singleton.mp hc] at hx
    rcases List.mem_cons.mp (nonces_update_subset e e.active.id m hx) with rfl | hx
    · exact Nat.lt_succ_self _
    · have hold := h.below e (hfront ▸ List.mem_cons_self ..) x hx
      exact Nat.lt_succ_of_lt (lt_of_lt_of_le hold hm)
  · intro p hp
    rw [hpending] at hp
    cases hp

/-- The front entry leaves. -/
theorem InOrder.resolve {e : Entry} {es : List Entry} (h : b.InOrder)
    (hfront : b.inmempool = e :: es) : InOrder ⟨b.next, b.pending, es⟩ := by
  obtain ⟨hentries, hbehind, hbelow, hpending⟩ := h
  rw [hfront] at hentries hbehind hbelow
  constructor
  · exact (List.pairwise_cons.mp hentries).2
  · exact fun c hc => hbehind c (List.mem_cons_of_mem _ hc)
  · exact fun c hc => hbelow c (List.mem_cons_of_mem _ hc)
  · exact hpending

/-- An action keeps the order, when the pending head is the smallest and the in-mempool head is
only renumbered while nothing else is live. -/
theorem InOrder.step (h : b.InOrder) (hstep : Step b a b')
    (hsorted : (b.pending.map (·.2)).Pairwise (· ≤ ·))
    (halone : ∀ id m, a = .moveInmempool id m → b.pending = [] ∧ b.inmempool.length = 1) :
    b'.InOrder := by
  cases hstep with
  | keep | attempt => exact h
  | @refuse id m => exact h.raise m
  | reserve hperm => exact h.extend (Nat.le_max_left ..) hperm
  | launch hhead => exact h.launch hhead hsorted
  | @attach id hash e es hfront hhash =>
    apply h.front hfront
    intro x hx
    have hx : x = e.original.nonce := by simpa [Entry.nonces, Entry.members] using hx
    rw [hx]
    exact List.mem_cons_self ..
  | record hfront hhash =>
    apply h.front hfront
    rw [nonces_update_hash]
    exact List.Subset.refl _
  | movePending hhead hm hperm => exact (h.tail hhead).extend hm hperm
  | @moveInmempool m e es hfront hm =>
    obtain ⟨hpending, hlength⟩ := halone e.active.id m rfl
    obtain rfl : es = [] := by
      rw [hfront] at hlength
      simpa using hlength
    exact h.renumber hfront hpending hm
  | resolve hfront hhash => exact h.resolve hfront

end Book

namespace TransactionsQueue

/-- The transaction the passes poll and bump has the smallest nonce of all entries' active
transactions. -/
def HeadBlocks (q : TransactionsQueue) : Prop :=
  ∀ t ∈ q.getNextInmempoolTransaction, ∀ c ∈ q.inmempoolTransactions,
    t.nonce ≤ c.getActiveTransaction.nonce

instance (q : TransactionsQueue) : Decidable q.HeadBlocks :=
  inferInstanceAs (Decidable (∀ t ∈ q.getNextInmempoolTransaction, ∀ c ∈ q.inmempoolTransactions,
    t.nonce ≤ c.getActiveTransaction.nonce))

variable {q : TransactionsQueue}

theorem book_pending_nonces : q.book.pending.map (·.2) = q.pendingTransactions.map (·.nonce) := by
  unfold book
  rw [List.map_map]
  rfl

theorem headBlocks_of_inOrder (h : q.book.InOrder) : q.HeadBlocks := by
  intro t ht c hc
  obtain ⟨front, rest, hlist, rfl⟩ := getNextInmempool_some ht
  have hactive (c : CompetitiveTransaction) : c.getActiveTransaction.nonce ∈ c.entry.nonces :=
    mem_entry_nonces.mpr ⟨c.getActiveTransaction, Locked.active_mem_transactions c, rfl⟩
  rw [hlist] at hc
  rcases List.mem_cons.mp hc with rfl | hc
  · exact Nat.le_refl _
  · have hentries := h.entries
    unfold book at hentries
    rw [hlist, List.map_cons, List.pairwise_cons] at hentries
    exact hentries.1 c.entry (List.mem_map_of_mem hc) _ (hactive front) _ (hactive c)

end TransactionsQueue

/-- Rows a startup reads back in order: both sides of a race at one nonce, and no pending row
before one in the mempool. -/
structure RowsInOrder (db : Db) (relayerId : RelayerId) : Prop where
  linked : ∀ a ∈ db.getTransactionsByStatusForRelayer relayerId .inmempool,
    ∀ b ∈ db.getTransactionsByStatusForRelayer relayerId .inmempool,
      a.cancelledByTransactionId = some b.id → b.nonce = a.nonce
  behind : ∀ a ∈ db.getTransactionsByStatusForRelayer relayerId .inmempool,
    ∀ t ∈ db.getTransactionsByStatusForRelayer relayerId .pending, a.nonce ≤ t.nonce

section Startup

variable {db : Db} {relayer : Relayer} {env : StartupEnv} {onchainNonce : ℕ}

theorem getTransactionsByStatus_sorted {relayerId : RelayerId} {status : TransactionStatus} :
    ((db.getTransactionsByStatusForRelayer relayerId status).map (·.nonce)).Pairwise
      (· ≤ ·) := by
  have htotal : Std.Total fun a b : Row => a.nonce ≤ b.nonce :=
    ⟨fun a b => Nat.le_total a.nonce b.nonce⟩
  have htrans : IsTrans Row fun a b => a.nonce ≤ b.nonce :=
    ⟨fun _ _ _ hab hbc => Nat.le_trans hab hbc⟩
  unfold Db.getTransactionsByStatusForRelayer Db.orderByNonce
  rw [List.map_map]
  apply List.pairwise_map.mpr
  exact List.pairwise_insertionSort _ _

/-- The entry a row opens is at the row's nonce. -/
theorem RowsInOrder.opens {relayerId : RelayerId} (h : RowsInOrder db relayerId) {t : Transaction}
    {c : CompetitiveTransaction}
    (ht : t ∈ db.getTransactionsByStatusForRelayer relayerId .inmempool)
    (hopens : Opens (db.getTransactionsByStatusForRelayer relayerId .inmempool) t c) :
    ∀ x ∈ c.entry.nonces, x = c.original.nonce ∧ x = t.nonce := by
  intro x hx
  obtain ⟨u, hu, rfl⟩ := mem_entry_nonces.mp hx
  cases hopens with
  | @paired id competitor hlink hfind =>
    have hid : competitor.id = id := by simpa using List.find?_some hfind
    have hnonce := h.linked t ht competitor (List.mem_of_find?_eq_some hfind) (hid ▸ hlink)
    rcases List.mem_cons.mp hu with rfl | hu
    · exact ⟨rfl, rfl⟩
    · have hu : u = competitor := List.mem_singleton.mp hu
      rw [hu]
      exact ⟨hnonce, hnonce⟩
  | dangling =>
    rw [List.mem_singleton.mp hu]
    exact ⟨rfl, rfl⟩
  | single =>
    rw [List.mem_singleton.mp hu]
    exact ⟨rfl, rfl⟩

theorem repopulatedQueue_inOrder (h : RowsInOrder db relayer.id) :
    (repopulatedQueue relayer env db onchainNonce).book.InOrder := by
  have hentry : ∀ e ∈ (repopulatedQueue relayer env db onchainNonce).book.inmempool,
      ∃ c ∈ repopulateCompetitiveTransactionQueue db relayer.id, c.entry = e :=
    fun e he => List.mem_map.mp he
  have hfrom : ∀ c ∈ repopulateCompetitiveTransactionQueue db relayer.id,
      ∃ t ∈ db.getTransactionsByStatusForRelayer relayer.id .inmempool,
        ∀ x ∈ c.entry.nonces, x = c.original.nonce ∧ x = t.nonce := by
    intro c hc
    obtain ⟨t, ht, hopens⟩ := repopulateLoop_from hc
    exact ⟨t, ht, h.opens ht hopens⟩
  have hpending : ∀ p ∈ (repopulatedQueue relayer env db onchainNonce).book.pending,
      ∃ t ∈ db.getTransactionsByStatusForRelayer relayer.id .pending, t.nonce = p.2 := by
    intro p hp
    obtain ⟨t, ht, rfl⟩ := List.mem_map.mp hp
    exact ⟨t, (List.mem_insertionSort _).mp ht, rfl⟩
  constructor
  · have horiginals : (((repopulateCompetitiveTransactionQueue db relayer.id)).map
        (·.original.nonce)).Pairwise (· ≤ ·) := by
      apply List.Pairwise.sublist ?_ (@getTransactionsByStatus_sorted db relayer.id .inmempool)
      exact repopulateLoop_sublist (fun _ _ => rfl) _ _ []
    have hsorted := List.pairwise_map.mp horiginals
    show ((repopulateCompetitiveTransactionQueue db relayer.id).map (·.entry)).Pairwise _
    apply List.pairwise_map.mpr
    apply List.Pairwise.imp_of_mem ?_ hsorted
    intro c d hc hd hle x hx y hy
    obtain ⟨t, ht, hx'⟩ := hfrom c hc
    obtain ⟨u, hu, hy'⟩ := hfrom d hd
    rw [(hx' x hx).1, (hy' y hy).1]
    exact hle
  · intro e he x hx p hp
    obtain ⟨c, hc, rfl⟩ := hentry e he
    obtain ⟨t, ht, hnonce⟩ := hfrom c hc
    obtain ⟨u, hu, hp⟩ := hpending p hp
    rw [(hnonce x hx).2, ← hp]
    exact h.behind t ht u hu
  · intro e he x hx
    obtain ⟨c, hc, rfl⟩ := hentry e he
    obtain ⟨u, hu, rfl⟩ := mem_entry_nonces.mp hx
    exact lt_effectiveStartupNonce (List.mem_append_right _ (List.mem_flatMap.mpr ⟨c, hc, hu⟩))
  · intro p hp
    obtain ⟨u, hu, hp⟩ := hpending p hp
    rw [← hp]
    exact lt_effectiveStartupNonce (List.mem_append_left _ hu)

end Startup

namespace TransactionsQueues

section Runs

variable {s : TransactionsQueues} {e : Event}

/-- The head of the in-mempool queue is only renumbered while nothing else is live, and a startup
finds the rows in order. -/
structure KeepsHead (s : TransactionsQueues) (e : Event) : Prop where
  alone : ∀ q ∈ s.queue, ∀ id m, s.stepAction e = .moveInmempool id m →
    q.pendingTransactions = [] ∧ q.inmempoolTransactions.length = 1
  rows : ∀ env, e = .restart env → RowsInOrder (s.startup env).db s.relayer.id

/-- What a run of such events keeps. -/
def OrderKept (s : TransactionsQueues) : Prop :=
  ∀ q ∈ s.queue, q.book.InOrder ∧ q.PendingSorted

theorem OrderKept.step (h : s.OrderKept) (hkeeps : s.KeepsHead e) : (s.step e).OrderKept := by
  by_cases hrestart : ∃ env, e = .restart env
  · obtain ⟨env, rfl⟩ := hrestart
    intro q hq
    have hrows := hkeeps.rows env rfl
    obtain ⟨onchainNonce, -, rfl⟩ := startupTransactionsQueues_queue hq
    exact ⟨repopulatedQueue_inOrder hrows, TransactionsQueue.sortPendingTransactions_sorted _⟩
  · have hrunning : e.isRestart = false := by
      cases e with
      | restart env => exact absurd ⟨env, rfl⟩ hrestart
      | _ => rfl
    intro q' hq'
    refine ⟨?_, ?_⟩
    · have hchange := s.step_change e
      generalize s.step e = s' at hchange hq'
      cases hchange with
      | idle => exact (h q' hq').1
      | @acted l l' hl heffect =>
        obtain ⟨hqueue, -, -⟩ := lock_some hl
        obtain rfl := Option.some.inj hq'
        obtain ⟨horder, hsorted⟩ := h l.queue hqueue
        apply horder.step heffect.book
        · rw [TransactionsQueue.book_pending_nonces]
          exact hsorted
        · intro id m haction
          obtain ⟨hpending, hlength⟩ := hkeeps.alone l.queue hqueue id m haction
          unfold TransactionsQueue.book
          exact ⟨by rw [hpending]; rfl, by rw [List.length_map, hlength]⟩
      | @confirmed l env _ hl =>
        obtain ⟨hqueue, -, -⟩ := lock_some hl
        obtain rfl := Option.some.inj hq'
        show (l.processSingleMined env).1.queue.book.InOrder
        rw [(l.processSingleMined_spec env).1]
        exact (h l.queue hqueue).1
      | restarted env heq => exact absurd ⟨env, heq⟩ hrestart
      | extended => exact (h q' hq').1
    · obtain ⟨q, hq, hkept⟩ := step_keeps hrunning hq'
      exact hkept.sorted (h q hq).2

/-- In a run in which the head is only renumbered while nothing else is live, and in which every
startup finds its rows in order, the head of the in-mempool queue always has the smallest nonce. -/
theorem head_blocks {es : List Event} (hs : s.Blank)
    (h : EventMachine.Along step KeepsHead s es) : ∀ q ∈ (s.run es).queue, q.HeadBlocks := by
  have hkept : (s.run es).OrderKept := by
    apply h.invariant (P := OrderKept)
    · intro s' e hkeeps horder
      exact horder.step hkeeps
    · intro q hq
      obtain ⟨hpending, hinmempool⟩ := hs.queue q hq
      refine ⟨⟨?_, ?_, ?_, ?_⟩, ?_⟩
      · simp [TransactionsQueue.book, hinmempool]
      · simp [TransactionsQueue.book, hinmempool]
      · simp [TransactionsQueue.book, hinmempool]
      · simp [TransactionsQueue.book, hpending]
      · simp [TransactionsQueue.PendingSorted, hpending]
  exact fun q hq => TransactionsQueue.headBlocks_of_inOrder (hkept q hq).1

/-- An event that renumbers nothing keeps the head. -/
theorem keepsHead_of_unmoved (hmoved : (s.stepAction e).moved = none)
    (hrunning : e.isRestart = false) : s.KeepsHead e := by
  constructor
  · intro q hq id m haction
    rw [haction] at hmoved
    cases hmoved
  · rintro env rfl
    cases hrunning

theorem keepsHead_of_alone (hrunning : e.isRestart = false) (halone : ∀ q ∈ s.queue,
    q.pendingTransactions = [] ∧ q.inmempoolTransactions.length = 1) : s.KeepsHead e := by
  constructor
  · exact fun q hq id m _ => halone q hq
  · rintro env rfl
    cases hrunning

end Runs

/-- A bump that the node refuses for its nonce, with no receipt of the hash it looks up. -/
def refusedBump : Event :=
  .processInmempool (servedInmempool [] nonceTooLow (servedClient [] 1) [])

/-- The only payment in the mempool is renumbered, and a second one is sent behind it. -/
def renumberedAlone : List Event :=
  [.add (servedAdd 0) (payment 0 5), .processPending (servedPending (.ok ()) (servedClient [] 0) []),
    refusedBump, .add (servedAdd 0) (payment 1 6),
    .processPending (servedPending (.ok ()) (servedClient [] 0) [])]

theorem head_blocks_renumberedAlone :
    ∃ q ∈ (freshRelayer.run renumberedAlone).queue, q.HeadBlocks := by
  have hsome : (freshRelayer.run renumberedAlone).queue.isSome = true := by decide +kernel
  obtain ⟨q, hq⟩ := Option.isSome_iff_exists.mp hsome
  refine ⟨q, hq, head_blocks freshRelayer_blank ?_ q hq⟩
  unfold renumberedAlone
  refine ⟨?_, ?_, ?_, ?_, ?_, trivial⟩
  · exact keepsHead_of_unmoved (by decide +kernel) rfl
  · exact keepsHead_of_unmoved (by decide +kernel) rfl
  · exact keepsHead_of_alone rfl (by decide +kernel)
  · exact keepsHead_of_unmoved (by decide +kernel) rfl
  · exact keepsHead_of_unmoved (by decide +kernel) rfl

/-- Two payments are in the mempool when the bump of the first is refused. -/
def headOvertaken : List Event :=
  [.add (servedAdd 0) (payment 0 5), .add (servedAdd 0) (payment 1 6),
    .processPending (servedPending (.ok ()) (servedClient [] 0) []),
    .processPending (servedPending (.ok ()) (servedClient [] 0) []), refusedBump]

/-- The renumbered head keeps its place, before an entry with a smaller nonce. -/
theorem head_blocks_fails : ¬ ∀ es, ∀ q ∈ (freshRelayer.run es).queue, q.HeadBlocks := by
  intro hblocks
  have hovertaken := hblocks headOvertaken
  revert hovertaken
  decide +kernel

example : (freshRelayer.run headOvertaken).queue.map
    (·.inmempoolTransactions.map (·.getActiveTransaction.slot)) = some [(0, 2), (1, 1)] := by
  decide +kernel

end TransactionsQueues
end Rrelayer
