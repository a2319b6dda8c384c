import Rrelayer.Book
import Rrelayer.TransactionsQueue

/-! The queue read as a book, and what each change of the queue does to it. -/
namespace Rrelayer

def Transaction.held (t : Transaction) : Held := ⟨t.id, t.nonce, t.knownTransactionHash⟩

@[simp] theorem Transaction.held_id (t : Transaction) : t.held.id = t.id := rfl

@[simp] theorem Transaction.held_nonce (t : Transaction) : t.held.nonce = t.nonce := rfl

@[simp] theorem Transaction.held_hash (t : Transaction) :
    t.held.hash = t.knownTransactionHash := rfl

def Transaction.slot (t : Transaction) : TransactionId × ℕ := (t.id, t.nonce)

namespace CompetitiveTransaction

def entry (c : CompetitiveTransaction) : Entry := ⟨c.original.held, c.competitive.map (·.1.held)⟩

theorem entry_active (c : CompetitiveTransaction) : c.entry.active = c.getActiveTransaction.held := by
  unfold entry Entry.active getActiveTransaction
  cases c.competitive <;> rfl

theorem entry_members (c : CompetitiveTransaction) :
    c.entry.members = c.transactions.map Transaction.held := by
  unfold entry Entry.members transactions
  cases c.competitive <;> rfl

/-- A change of one transaction is the same change of its entry. -/
theorem entry_updateTransactionById (c : CompetitiveTransaction) (id : TransactionId)
    {f : Transaction → Transaction} {g : Held → Held} (h : ∀ t, (f t).held = g t.held) :
    (c.updateTransactionById id f).entry = c.entry.update id g := by
  obtain ⟨original, competitive⟩ := c
  by_cases hid : original.id = id
  · simp [updateTransactionById, entry, Entry.update, hid, h]
  · rcases competitive with _ | ⟨competitor, type⟩
    · simp [updateTransactionById, entry, Entry.update, hid]
    · by_cases hcid : competitor.id = id
      · simp [updateTransactionById, entry, Entry.update, hid, hcid, h]
      · simp [updateTransactionById, entry, Entry.update, hid, hcid]

theorem getTransactionById_active (c : CompetitiveTransaction) :
    (c.getTransactionById c.getActiveTransaction.id).isSome = true := by
  unfold getTransactionById getActiveTransaction
  cases c.competitive with
  | none => simp
  | some p => by_cases h : c.original.id = p.1.id <;> simp [h]

end CompetitiveTransaction

namespace TransactionsQueue

def book (q : TransactionsQueue) : Book where
  next := q.nonceManager.nonce
  pending := q.pendingTransactions.map (·.slot)
  inmempool := q.inmempoolTransactions.map (·.entry)

variable {q q' : TransactionsQueue}

/-- The live transactions of the queue are those of its book. -/
theorem book_live (q : TransactionsQueue) : q.book.live = q.liveTransactions.map (·.slot) := by
  unfold book Book.live liveTransactions
  rw [List.map_append, List.flatMap_map, List.map_flatMap]
  congr 2
  funext c
  rw [CompetitiveTransaction.entry_members, List.map_map]
  rfl

theorem book_addPendingTransaction (q : TransactionsQueue) (t : Transaction) :
    (q.addPendingTransaction t).book.pending.Perm (t.slot :: q.book.pending) :=
  (List.perm_orderedInsert _ t q.pendingTransactions).map Transaction.slot

theorem getNextPending_some {t : Transaction} (h : q.getNextPendingTransaction = some t) :
    ∃ ts, q.pendingTransactions = t :: ts := by
  unfold getNextPendingTransaction at h
  exact ⟨_, List.eq_cons_of_mem_head? h⟩

/-- Moving the head keeps its nonce and records the hash it was sent with. -/
theorem book_movePendingToInmempool {t head : Transaction} {ts : List Transaction}
    (sent : TransactionSentWithRelayer) (now : DateTime)
    (hhead : q.pendingTransactions = head :: ts) (hid : t.id = head.id)
    (hnonce : t.nonce = head.nonce) (hsent : sent.id = t.id) :
    ∃ q', q.movePendingToInmempool t sent now = .ok q' ∧
      q.book.Step (.launch head.id sent.hash) q'.book := by
  have hmove : q.movePendingToInmempool t sent now = .ok { q with
      pendingTransactions := ts
      inmempoolTransactions := q.inmempoolTransactions ++ [.new (sentTransaction t sent now)] } := by
    simp [movePendingToInmempool, hhead, hsent, hid]
  refine ⟨_, hmove, ?_⟩
  have hpending : q.book.pending = (head.id, head.nonce) :: ts.map (·.slot) := by
    simp [book, hhead, Transaction.slot]
  have hentry : (CompetitiveTransaction.new (sentTransaction t sent now)).entry =
      ⟨⟨head.id, head.nonce, some sent.hash⟩, none⟩ := by
    simp [CompetitiveTransaction.new, CompetitiveTransaction.entry, Transaction.held,
      sentTransaction, Transaction.exposeAttempt, hid, hnonce]
  have hstep : q.book.Step (.launch head.id sent.hash) _ := .launch hpending
  rw [← hentry] at hstep
  convert hstep using 1
  simp [book]

/-- Changing the first element found does not show in a view that the change respects. -/
theorem map_updateFirst {α β : Type} {p : α → Bool} {f : α → α} {g : α → β} {as : List α}
    (h : ∀ a, as.find? p = some a → g (f a) = g a) : (updateFirst p f as).map g = as.map g := by
  induction as with
  | nil => rfl
  | cons a as ih =>
    by_cases hp : p a = true
    · rw [updateFirst_cons_pos hp, List.map_cons, List.map_cons, h a (by simp [hp])]
    · have hcons : updateFirst p f (a :: as) = a :: updateFirst p f as := by
        simp [updateFirst, hp]
      rw [hcons, List.map_cons, List.map_cons, ih fun b hb => h b (by simpa [hp] using hb)]

section Renumbered

variable {id : TransactionId} {m : ℕ}

@[simp] theorem updatePendingTransactionNonce_relayer :
    (q.updatePendingTransactionNonce id m).relayer = q.relayer := by
  unfold updatePendingTransactionNonce
  split
  · rfl
  · rfl

@[simp] theorem updatePendingTransactionNonce_inmempoolTransactions :
    (q.updatePendingTransactionNonce id m).inmempoolTransactions = q.inmempoolTransactions := by
  unfold updatePendingTransactionNonce
  split
  · rfl
  · rfl

@[simp] theorem updatePendingTransactionNonce_minedTransactions :
    (q.updatePendingTransactionNonce id m).minedTransactions = q.minedTransactions := by
  unfold updatePendingTransactionNonce
  split
  · rfl
  · rfl

theorem mem_updatePendingTransactionNonce {u : Transaction}
    (hu : u ∈ (q.updatePendingTransactionNonce id m).pendingTransactions) :
    u ∈ q.pendingTransactions ∨
      ∃ t ∈ q.pendingTransactions, t.id = id ∧ u = { t with nonce := m } := by
  unfold updatePendingTransactionNonce at hu
  split at hu
  · have hu := (List.mem_insertionSort fun a b : Transaction => a.nonce ≤ b.nonce).mp hu
    rcases mem_updateFirst hu with hu | ⟨t, ht, hid, rfl⟩
    · exact .inl hu
    · exact .inr ⟨t, ht, by simpa using hid, rfl⟩
  · exact .inl hu

/-- The sort moves the transactions and loses none. -/
theorem ids_updatePendingTransactionNonce :
    ((q.updatePendingTransactionNonce id m).pendingTransactions.map (·.id)).Perm
      (q.pendingTransactions.map (·.id)) := by
  unfold updatePendingTransactionNonce
  split
  · have hids : (updateFirst (·.id == id) (fun t => { t with nonce := m })
        q.pendingTransactions).map (·.id) = q.pendingTransactions.map (·.id) :=
      map_updateFirst fun _ _ => rfl
    rw [← hids]
    exact (List.perm_insertionSort _ _).map fun t : Transaction => t.id
  · exact .refl _

end Renumbered

theorem book_updatePendingTransaction {t updated : Transaction}
    (hfind : q.pendingTransactions.find? (·.id == updated.id) = some t)
    (hslot : updated.slot = t.slot) : (q.updatePendingTransaction updated).book = q.book := by
  have hmap : (updateFirst (·.id == updated.id) (fun _ => updated) q.pendingTransactions).map
      (·.slot) = q.pendingTransactions.map (·.slot) :=
    map_updateFirst fun a ha => by
      rw [hfind] at ha
      rw [← Option.some.inj ha]
      exact hslot
  simp only [book, updatePendingTransaction, hmap]

/-- Reassigning the head's nonce keeps the others, in whatever order the sort puts them. -/
theorem book_updatePendingTransactionNonce {head : Transaction} {ts : List Transaction} {m : ℕ}
    (hhead : q.pendingTransactions = head :: ts) :
    (q.updatePendingTransactionNonce head.id m).book.pending.Perm
        ((head.id, m) :: ts.map (·.slot)) ∧
      (q.updatePendingTransactionNonce head.id m).book.inmempool = q.book.inmempool ∧
      (q.updatePendingTransactionNonce head.id m).nonceManager = q.nonceManager := by
  have hany : q.pendingTransactions.any (·.id == head.id) = true := by simp [hhead]
  unfold updatePendingTransactionNonce
  rw [if_pos hany]
  refine ⟨?_, rfl, rfl⟩
  have hupdate : updateFirst (·.id == head.id) (fun t => { t with nonce := m })
      q.pendingTransactions = { head with nonce := m } :: ts := by
    rw [hhead]
    exact updateFirst_cons_pos (by simp)
  simp only [book, hupdate]
  exact (List.perm_insertionSort _ _).map Transaction.slot

theorem book_addCompetitor {original competitor : Transaction} {type : CompetitionType}
    {hash : TransactionHash} (hid : ∃ c ∈ q.inmempoolTransactions.head?, c.original.nonce = hash.nonce)
    (hnonce : competitor.nonce = hash.nonce)
    (hhash : competitor.knownTransactionHash = some hash)
    (h : q.addCompetitorToInmempoolTransaction original.id competitor type = .ok q') :
    q.book.Step (.attach competitor.id hash) q'.book := by
  obtain ⟨front, rest, hlist, -, rfl⟩ := addCompetitor_ok h
  have hon : front.original.nonce = hash.nonce := by
    obtain ⟨c, hc, hon⟩ := hid
    rw [hlist] at hc
    cases hc
    exact hon
  have hinmempool : q.book.inmempool = front.entry :: rest.map (·.entry) := by
    simp [book, hlist]
  have hstep : q.book.Step (.attach competitor.id hash) _ := .attach hinmempool hon.symm
  convert hstep using 1
  simp [book, CompetitiveTransaction.addCompetitor, CompetitiveTransaction.entry,
    Transaction.held, hnonce, hhash, ← hon]

theorem getNextInmempool_some {t : Transaction} (h : q.getNextInmempoolTransaction = some t) :
    ∃ front rest, q.inmempoolTransactions = front :: rest ∧ t = front.getActiveTransaction := by
  unfold getNextInmempoolTransaction at h
  obtain ⟨front, hf, rfl⟩ := Option.map_eq_some_iff.mp h
  exact ⟨front, _, List.eq_cons_of_mem_head? hf, rfl⟩

/-- A change of the front's active transaction is the same change in the book. -/
theorem book_updateFrontById {front : CompetitiveTransaction} {rest : List CompetitiveTransaction}
    {id : TransactionId} {f : Transaction → Transaction} {g : Held → Held}
    (hfront : q.inmempoolTransactions = front :: rest) (h : ∀ t, (f t).held = g t.held) :
    (q.updateFrontById id f).book =
      { q.book with inmempool := front.entry.update id g :: rest.map (·.entry) } := by
  simp only [updateFrontById, hfront, book, List.map_cons,
    CompetitiveTransaction.entry_updateTransactionById front id h]

theorem book_updateInmempoolTransactionNonce {front : CompetitiveTransaction}
    {rest : List CompetitiveTransaction} {m : ℕ}
    (hfront : q.inmempoolTransactions = front :: rest) :
    (q.updateInmempoolTransactionNonce front.getActiveTransaction.id m).book =
      { q.book with inmempool :=
          front.entry.update front.entry.active.id (fun h => { h with nonce := m }) ::
            rest.map (·.entry) } := by
  have hactive : front.entry.active.id = front.getActiveTransaction.id := by
    rw [CompetitiveTransaction.entry_active]
    rfl
  have hupdate (f : CompetitiveTransaction → CompetitiveTransaction) :
      updateFirst (fun c => (c.getTransactionById front.getActiveTransaction.id).isSome) f
        (front :: rest) = f front :: rest :=
    updateFirst_cons_pos (p := fun c : CompetitiveTransaction =>
      (c.getTransactionById _).isSome) front.getTransactionById_active
  simp only [updateInmempoolTransactionNonce, hfront, book, hupdate, List.map_cons, hactive]
  rw [CompetitiveTransaction.entry_updateTransactionById front _
    (g := fun h => { h with nonce := m }) fun _ => rfl]

theorem book_moveInmempoolToMining {front : CompetitiveTransaction}
    {rest : List CompetitiveTransaction} {id : TransactionId} {receipt : Receipt} {now : DateTime}
    {resolution : CompetitionResolutionResult} (hfront : q.inmempoolTransactions = front :: rest)
    (h : q.moveInmempoolToMining id receipt now = .ok (resolution, q')) :
    q'.book = { q.book with inmempool := rest.map (·.entry) } := by
  simp only [moveInmempoolToMining, hfront] at h
  split at h
  · cases h
  · cases h
    rfl

/-- Both sides of a race are the two transactions of the entry. -/
theorem resolveCompetition_slots {a : EvmAddress} {c : CompetitiveTransaction}
    {id : TransactionId} {receipt : Receipt} {now : DateTime} {r : CompetitionResolutionResult}
    (h : resolveCompetition a c id receipt now = some r) :
    r.winner.id = id ∧ r.winner.slot ∈ c.transactions.map (·.slot) ∧
      ∀ loser ∈ r.loser, loser.slot ∈ c.transactions.map (·.slot) := by
  unfold resolveCompetition at h
  unfold CompetitiveTransaction.transactions
  split at h
  · rename_i hid
    cases h
    refine ⟨by simpa using hid, by simp [Transaction.slot], ?_⟩
    intro loser hl
    obtain ⟨p, hp, rfl⟩ := Option.map_eq_some_iff.mp hl
    simp [hp]
  · split at h
    · rename_i competitor type hcomp
      split at h
      · rename_i hid
        cases h
        refine ⟨by simpa using hid, by simp [hcomp, Transaction.slot], ?_⟩
        intro loser hl
        obtain rfl := Option.mem_some.mp hl
        cases type <;> simp [beatenOriginal, Transaction.slot]
      · cases h
    · cases h

theorem getEditable_pending {id : TransactionId} {t : Transaction}
    (h : q.getEditableTransactionById id = some (.pending t)) :
    q.pendingTransactions.find? (·.id == id) = some t ∧ t.id = id := by
  unfold getEditableTransactionById at h
  split at h
  · rename_i t' hfind
    cases h
    exact ⟨hfind, by simpa using List.find?_some hfind⟩
  · obtain ⟨c, _, hc⟩ := Option.map_eq_some_iff.mp h
    cases hc

theorem getEditable_inmempool {id : TransactionId} {t : Transaction}
    (h : q.getEditableTransactionById id = some (.inmempool t)) :
    ∃ c, q.inmempoolTransactions.find? (·.original.id == id) = some c ∧ c.original = t ∧
      t.id = id := by
  unfold getEditableTransactionById at h
  split at h
  · cases h
  · obtain ⟨c, hfind, hc⟩ := Option.map_eq_some_iff.mp h
    cases hc
    exact ⟨c, hfind, rfl, by simpa using List.find?_some hfind⟩

end TransactionsQueue
end Rrelayer
