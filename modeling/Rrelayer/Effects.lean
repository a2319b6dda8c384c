import Rrelayer.QueueBook
import Rrelayer.DatabaseFrame
import Rrelayer.TransactionsQueues

/-! Operations as actions of the book: what it means that a change of the locked queue follows
an action, and what every send leaves behind. -/
namespace Rrelayer
namespace Locked

/-- A change of the locked queue that follows an action. -/
structure Effect (l : Locked) (a : Action) (l' : Locked) : Prop where
  book : l.queue.book.Step a l'.queue.book
  db : l.db.Within (l.queue.book.Writes a) l'.db
  sent : ∃ new, l'.broadcasts = l.broadcasts ++ new ∧
    ∀ b ∈ new, l.queue.book.Sends a b.1 b.2.nonce
  relayer : l'.queue.relayer = l.queue.relayer

theorem Effect.refl (l : Locked) : l.Effect .keep l :=
  ⟨.keep, .refl _, ⟨[], by simp, by simp⟩, rfl⟩

theorem Effect.of_db {l l' : Locked} {a : Action} {db : Db}
    (hdb : l.db.Within (l.queue.book.Writes a) db) (h : Effect { l with db := db } a l') :
    l.Effect a l' :=
  ⟨h.book, hdb.trans h.db, h.sent, h.relayer⟩

/-- The transactions of the queue are live in its book. -/
theorem mem_live {l : Locked} {t : Transaction} (h : t ∈ l.queue.liveTransactions) :
    (t.id, t.nonce) ∈ l.queue.book.live := by
  rw [TransactionsQueue.book_live]
  exact List.mem_map_of_mem (f := Transaction.slot) h

theorem head_mem_live {l : Locked} {t : Transaction} {ts : List Transaction}
    (h : l.queue.pendingTransactions = t :: ts) : (t.id, t.nonce) ∈ l.queue.book.live := by
  refine mem_live ?_
  unfold TransactionsQueue.liveTransactions
  exact List.mem_append_left _ (h ▸ List.mem_cons_self ..)

theorem entry_mem_live {l : Locked} {c : CompetitiveTransaction} {t : Transaction}
    (hc : c ∈ l.queue.inmempoolTransactions) (ht : t ∈ c.transactions) :
    (t.id, t.nonce) ∈ l.queue.book.live := by
  refine mem_live ?_
  unfold TransactionsQueue.liveTransactions
  exact List.mem_append_right _ (List.mem_flatMap.mpr ⟨c, hc, ht⟩)

/-- What a send leaves behind: at most one attempt of the given transaction at its nonce. -/
structure SendSpec (l : Locked) (t : Transaction)
    (o : Transaction × Locked × SendResult TransactionSentWithRelayer) : Prop where
  queue : o.2.1.queue = l.queue
  id : o.1.id = t.id
  nonce : o.1.nonce = t.nonce
  db : l.db.Within (fun x n => x = t.id ∧ n = t.nonce) o.2.1.db
  sent : ∃ new, o.2.1.broadcasts = l.broadcasts ++ new ∧
    ∀ b ∈ new, b.1 = t.id ∧ b.2.nonce = t.nonce
  ok : ∀ sent, o.2.2 = .ok sent → sent.id = t.id ∧ sent.hash.nonce = t.nonce

theorem send_spec (l : Locked) (env : SendEnv) (t : Transaction) :
    l.SendSpec t (l.send env t) := by
  have hprepare := prepareSend_spec l.queue.toSendConfig env t
  have hnew {t' : Transaction} {signed : SignedTransaction} (hid : t'.id = t.id)
      (hnonce : signed.nonce = t.nonce) :
      ∀ b ∈ [(t'.id, signed)], b.1 = t.id ∧ b.2.nonce = t.nonce := by
    intro b hb
    rw [List.mem_singleton.mp hb]
    exact ⟨hid, hnonce⟩
  have hends := l.send_ends env t
  generalize l.send env t = o at hends ⊢
  cases hends with
  | unprepared hp | unrecorded hp =>
    rw [hp] at hprepare
    exact ⟨rfl, hprepare.1.id, hprepare.1.nonce, .refl _, ⟨[], by simp, by simp⟩,
      fun _ h => by cases h⟩
  | refused hp hattempt | unmarked hp hattempt =>
    rw [hp] at hprepare
    obtain ⟨hslot, hsigned⟩ := hprepare
    have hfor := hsigned _ _ rfl
    exact ⟨rfl, hslot.id, hslot.nonce,
      Db.transactionBroadcastAttempt_within ⟨hslot.id, hslot.nonce⟩ hattempt,
      ⟨_, rfl, hnew hslot.id hfor.nonce⟩, fun _ h => by cases h⟩
  | marked hp hattempt =>
    rw [hp] at hprepare
    obtain ⟨hslot, hsigned⟩ := hprepare
    have hfor := hsigned _ _ rfl
    have hrecorded := Db.transactionBroadcastAttempt_within
      (P := fun x n => x = t.id ∧ n = t.nonce) ⟨hslot.id, hslot.nonce⟩ hattempt
    refine ⟨rfl, hslot.id, hslot.nonce, hrecorded.trans ?_, ⟨_, rfl, hnew hslot.id hfor.nonce⟩, ?_⟩
    · exact Db.transactionSent_within (n := t.nonce) ⟨hfor.id, rfl⟩
    · rintro _ ⟨⟩
      exact ⟨hfor.id, by rw [hfor.hash, hfor.nonce]⟩

/-- An effect that starts with a send of a transaction the action may send. -/
theorem SendSpec.effect {l l' : Locked} {t : Transaction} {a : Action}
    {o : Transaction × Locked × SendResult TransactionSentWithRelayer} (hs : l.SendSpec t o)
    (hsend : l.queue.book.Sends a t.id t.nonce) (hwrite : l.queue.book.Writes a t.id t.nonce)
    (h : o.2.1.Effect a l') : l.Effect a l' := by
  obtain ⟨new, hnew, hall⟩ := hs.sent
  obtain ⟨new', hnew', hall'⟩ := h.sent
  have hbook := h.book
  have hdb := h.db
  have hrelayer := h.relayer
  rw [hs.queue] at hbook hdb hrelayer hall'
  refine ⟨hbook, (hs.db.mono ?_).trans hdb, ⟨new ++ new', ?_, ?_⟩, hrelayer⟩
  · rintro x n ⟨rfl, rfl⟩
    exact hwrite
  · rw [hnew', hnew, List.append_assoc]
  · intro b hb
    rcases List.mem_append.mp hb with hb | hb
    · obtain ⟨h₁, h₂⟩ := hall b hb
      rw [h₁, h₂]
      exact hsend
    · exact hall' b hb

/-- A recovery nonce is the providers' answer or the next one. -/
theorem recoverNonceSynchronization_ok {l : Locked} {clients : List RpcClient} {m : ℕ}
    (h : l.recoverNonceSynchronization clients = .ok m) :
    ∃ n, pendingNonceAcrossClients clients = .ok n ∧ m = max n l.queue.nonceManager.nonce := by
  unfold recoverNonceSynchronization at h
  cases hp : pendingNonceAcrossClients clients with
  | error e =>
    rw [hp] at h
    cases h
  | ok n =>
    rw [hp] at h
    cases h
    exact ⟨n, rfl, rfl⟩

/-- A recovery nonce is never one that has been handed out. -/
theorem le_of_recoverNonceSynchronization {l : Locked} {clients : List RpcClient} {m : ℕ}
    (h : l.recoverNonceSynchronization clients = .ok m) : l.queue.nonceManager.nonce ≤ m := by
  obtain ⟨n, -, rfl⟩ := recoverNonceSynchronization_ok h
  exact Nat.le_max_right ..

theorem advanceTransactionNonce_next {l : Locked} {id : TransactionId} {m : ℕ}
    (h : l.queue.nonceManager.nonce ≤ m) :
    (l.advanceTransactionNonce id m).queue.nonceManager.nonce = m + 1 := by
  simp only [advanceTransactionNonce, NonceManager.advanceAfterPersistedReservation_nonce]
  omega

end Locked
end Rrelayer
