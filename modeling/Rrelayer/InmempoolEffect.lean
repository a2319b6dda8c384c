import Rrelayer.Effects
import Rrelayer.ProcessInmempool
import Rrelayer.ProcessMined

/-! The in-mempool and mined passes as actions of the book. -/
namespace Rrelayer
namespace Locked

section Inmempool

variable {l : Locked} {env : InmempoolEnv} {t : Transaction} {front : CompetitiveTransaction}
  {rest : List CompetitiveTransaction}

/-- The action of a bump the node refused over its nonce. -/
def bumpConflictAction (l : Locked) (env : InmempoolEnv) (bumped : Transaction) : Action :=
  let free := match bumped.knownTransactionHash with
    | none => true
    | some hash => match env.conflictReceipt hash with
      | .ok none => true
      | _ => false
  if !free then .keep
  else match l.recoverNonceSynchronization env.clients with
    | .error _ => .keep
    | .ok newNonce => if env.write then .moveInmempool bumped.id newNonce else .keep

/-- The transaction that an in-mempool pass polls, with its hash. -/
def polled (l : Locked) (env : InmempoolEnv) : Option (Transaction × TransactionHash) :=
  if !env.guard then none
  else l.queue.getNextInmempoolTransaction.bind fun t => t.knownTransactionHash.map (t, ·)

def inmempoolAction (l : Locked) (env : InmempoolEnv) : Action :=
  match l.polled env with
  | none => .keep
  | some (t, hash) =>
      match env.pollReceipt hash with
      | .error _ => .keep
      | .ok (some _) => .resolve hash
      | .ok none =>
          if l.bumpDue env t then
            match l.send env.send t with
            | (_, _, .ok sent) => .record sent.hash
            | (bumped, l, .error (.transactionSendError e)) =>
                if errorClass e = .nonceConflict then l.bumpConflictAction env bumped else .keep
            | (_, _, .error _) => .keep
          else .keep

theorem saveResolution_frame (l : Locked) (env : InmempoolEnv) (receipt : Receipt)
    (r : CompetitionResolutionResult) {P : TransactionId → ℕ → Prop}
    (hwinner : P r.winner.id r.winner.nonce) (hloser : ∀ t ∈ r.loser, P t.id t.nonce) :
    (l.saveResolution env receipt r).1.queue = l.queue ∧
      (l.saveResolution env receipt r).1.broadcasts = l.broadcasts ∧
      l.db.Within P (l.saveResolution env receipt r).1.db := by
  have hmined : l.db.Within P (l.db.transactionMined r.winner receipt env.nowWrite) :=
    Db.transactionMined_within hwinner
  unfold saveResolution
  split
  · split
    · exact ⟨rfl, rfl, .refl _⟩
    · dsimp only
      split
      · exact ⟨rfl, rfl, hmined⟩
      · rename_i loser hl
        split
        · exact ⟨rfl, rfl, hmined⟩
        · exact ⟨rfl, rfl, hmined.trans (Db.transactionUpdate_within (hloser loser hl))⟩
  · split
    · exact ⟨rfl, rfl, .refl _⟩
    · exact ⟨rfl, rfl, Db.transactionExpired_within hwinner⟩
  · split
    · exact ⟨rfl, rfl, .refl _⟩
    · exact ⟨rfl, rfl, Db.updateTransactionFailed_within hwinner⟩
  · exact ⟨rfl, rfl, .refl _⟩

/-- The front entry contains its active transaction, so a receipt always decides the race. -/
theorem moveInmempoolToMining_active {q : TransactionsQueue} (receipt : Receipt) (now : DateTime)
    (hfront : q.inmempoolTransactions = front :: rest) :
    ∃ r q', q.moveInmempoolToMining front.getActiveTransaction.id receipt now = .ok (r, q') ∧
      TransactionsQueue.resolveCompetition q.relayer.address front front.getActiveTransaction.id
        receipt now = some r ∧ q'.relayer = q.relayer := by
  have hsome : (TransactionsQueue.resolveCompetition q.relayer.address front
      front.getActiveTransaction.id receipt now).isSome = true := by
    unfold TransactionsQueue.resolveCompetition CompetitiveTransaction.getActiveTransaction
    cases front.competitive with
    | none => simp
    | some p => by_cases h : front.original.id = p.1.id <;> simp [h]
  obtain ⟨r, hr⟩ := Option.isSome_iff_exists.mp hsome
  unfold TransactionsQueue.moveInmempoolToMining
  rw [hfront]
  dsimp only
  rw [hr]
  exact ⟨r, _, rfl, rfl, rfl⟩

theorem resolveInmempool_effect {receipt : Receipt} {hash : TransactionHash}
    (hfront : l.queue.inmempoolTransactions = front :: rest)
    (hhash : front.getActiveTransaction.knownTransactionHash = some hash) :
    l.Effect (.resolve hash)
      (l.resolveInmempool env front.getActiveTransaction receipt).1 := by
  obtain ⟨r, q', hmove, hresolve, hrelayer⟩ :=
    moveInmempoolToMining_active receipt env.now hfront
  obtain ⟨_, hwinner, hloser⟩ := TransactionsQueue.resolveCompetition_slots hresolve
  have hlive {u : Transaction} (hu : u.slot ∈ front.transactions.map (·.slot)) :
      (u.id, u.nonce) ∈ l.queue.book.live := by
    obtain ⟨v, hv, hslot⟩ := List.mem_map.mp hu
    have hfrontMem : front ∈ l.queue.inmempoolTransactions := hfront ▸ List.mem_cons_self ..
    have := entry_mem_live hfrontMem hv
    rwa [show (u.id, u.nonce) = (v.id, v.nonce) from hslot.symm]
  have hframe := saveResolution_frame { l with queue := q' } env receipt r
    (P := l.queue.book.Writes (.resolve hash)) (.inl (hlive hwinner))
    fun u hu => .inl (hlive (hloser u hu))
  have hbook := TransactionsQueue.book_moveInmempoolToMining hfront hmove
  have hentries : l.queue.book.inmempool = front.entry :: rest.map (·.entry) := by
    simp [TransactionsQueue.book, hfront]
  have hactive : front.entry.active.hash = some hash := by
    rw [CompetitiveTransaction.entry_active]
    exact hhash
  unfold resolveInmempool
  rw [hmove]
  obtain ⟨hqueue, hsent, hdb⟩ := hframe
  refine ⟨?_, hdb, ⟨[], by rw [hsent, List.append_nil], by simp⟩, by rw [hqueue]; exact hrelayer⟩
  rw [hqueue]
  show l.queue.book.Step (.resolve hash) q'.book
  rw [hbook]
  exact .resolve hentries hactive

theorem bumpSent_effect {wasNoop : Bool} {sent : TransactionSentWithRelayer}
    (hfront : l.queue.inmempoolTransactions = front :: rest)
    (ht : t.id = front.getActiveTransaction.id) (hsent : sent.id = t.id)
    (hnonce : sent.hash.nonce = front.getActiveTransaction.nonce) :
    l.Effect (.record sent.hash) (l.bumpSent env t wasNoop sent).1 := by
  have hid : sent.id = front.entry.active.id := by
    rw [hsent, ht, CompetitiveTransaction.entry_active]
    rfl
  set g : Held → Held := fun h => { h with hash := some sent.hash }
  have hgas : (l.queue.updateInmempoolTransactionGas sent env.nowWrite).book =
      { l.queue.book with inmempool := front.entry.update sent.id g :: rest.map (·.entry) } :=
    TransactionsQueue.book_updateFrontById hfront fun _ => rfl
  have hentries : l.queue.book.inmempool = front.entry :: rest.map (·.entry) := by
    simp [TransactionsQueue.book, hfront]
  have hstep : l.queue.book.Step (.record sent.hash)
      { l.queue.book with inmempool := front.entry.update sent.id g :: rest.map (·.entry) } := by
    rw [hid]
    refine .record hentries ?_
    rw [hnonce, CompetitiveTransaction.entry_active]
    rfl
  unfold bumpSent
  dsimp only
  split
  · set f : Transaction → Transaction := fun u => u.exposeAttempt sent env.nowWrite
    set q := l.queue.updateInmempoolTransactionGas sent env.nowWrite with hq
    have hfront' : q.inmempoolTransactions = front.updateTransactionById sent.id f :: rest := by
      rw [hq]
      simp only [TransactionsQueue.updateInmempoolTransactionGas, TransactionsQueue.updateFrontById,
        hfront]
      rfl
    have hnoop : (q.updateInmempoolTransactionNoop t.id sent env.nowWrite).book = q.book := by
      refine (TransactionsQueue.book_updateFrontById (g := g) hfront' fun _ => rfl).trans ?_
      rw [CompetitiveTransaction.entry_updateTransactionById (g := g) front sent.id fun _ => rfl,
        ← hsent, hgas]
      rw [Entry.update_update (f := g) (fun _ => rfl) fun _ => rfl]
    refine ⟨?_, .refl _, ⟨[], by simp, by simp⟩, ?_⟩
    · show l.queue.book.Step _ (q.updateInmempoolTransactionNoop t.id sent env.nowWrite).book
      rw [hnoop, hgas]
      exact hstep
    · simp only [TransactionsQueue.updateInmempoolTransactionNoop,
        TransactionsQueue.updateFrontById, hq,
        TransactionsQueue.updateInmempoolTransactionGas, hfront]
  · refine ⟨?_, .refl _, ⟨[], by simp, by simp⟩, ?_⟩
    · show l.queue.book.Step _ (l.queue.updateInmempoolTransactionGas sent env.nowWrite).book
      rw [hgas]
      exact hstep
    · simp only [TransactionsQueue.updateInmempoolTransactionGas,
        TransactionsQueue.updateFrontById, hfront]

theorem reassignInmempool_effect {error : String}
    (hfront : l.queue.inmempoolTransactions = front :: rest)
    (ht : t.id = front.getActiveTransaction.id) :
    l.Effect (match l.recoverNonceSynchronization env.clients with
        | .error _ => .keep
        | .ok newNonce => if env.write then .moveInmempool t.id newNonce else .keep)
      (l.reassignInmempoolNonce env t error).1 := by
  unfold reassignInmempoolNonce
  rcases hm : l.recoverNonceSynchronization env.clients with e | m
  · exact .refl l
  · dsimp only
    by_cases hwrite : env.write = true
    · rw [if_pos hwrite, if_pos hwrite]
      have hnext := le_of_recoverNonceSynchronization hm
      have hactive : front.entry.active.id = t.id := by
        rw [CompetitiveTransaction.entry_active]
        exact ht.symm
      have hentries : l.queue.book.inmempool = front.entry :: rest.map (·.entry) := by
        simp [TransactionsQueue.book, hfront]
      refine ⟨?_, Db.transactionUpdateNonce_within (.inr ⟨rfl, rfl⟩),
        ⟨[], by simp [advanceTransactionNonce], by simp⟩, rfl⟩
      have hbook := TransactionsQueue.book_updateInmempoolTransactionNonce
        (q := (l.advanceTransactionNonce t.id m).queue) (m := m) hfront
      rw [← ht] at hbook
      show l.queue.book.Step _
        ((l.advanceTransactionNonce t.id m).queue.updateInmempoolTransactionNonce t.id m).book
      rw [hbook]
      have hstep : l.queue.book.Step (.moveInmempool front.entry.active.id m) _ :=
        .moveInmempool hentries hnext
      rw [hactive] at hstep ⊢
      have hmanager : (l.advanceTransactionNonce t.id m).queue.book.next = m + 1 :=
        advanceTransactionNonce_next hnext
      rw [← hmanager] at hstep
      exact hstep
    · rw [if_neg hwrite, if_neg hwrite]
      exact .refl l

/-- A refused bump follows the action of the receipt that is looked up for it. -/
theorem bumpConflict_effect {error : String}
    (hfront : l.queue.inmempoolTransactions = front :: rest)
    (ht : t.id = front.getActiveTransaction.id) :
    l.Effect (l.bumpConflictAction env t) (l.inmempoolNonceConflict env t error).1 := by
  unfold bumpConflictAction inmempoolNonceConflict
  cases t.knownTransactionHash with
  | none => exact reassignInmempool_effect hfront ht
  | some hash =>
    dsimp only
    rcases env.conflictReceipt hash with e | _ | receipt
    · exact .refl l
    · exact reassignInmempool_effect hfront ht
    · exact .refl l

theorem polled_some {hash : TransactionHash} (h : l.polled env = some (t, hash)) :
    env.guard = true ∧ t.knownTransactionHash = some hash ∧
      ∃ front rest, l.queue.inmempoolTransactions = front :: rest ∧
        t = front.getActiveTransaction := by
  unfold polled at h
  split at h
  · cases h
  · rename_i hguard
    obtain ⟨u, hu, h⟩ := Option.bind_eq_some_iff.mp h
    obtain ⟨k, hk, h⟩ := Option.map_eq_some_iff.mp h
    cases h
    exact ⟨by simpa using hguard, hk, TransactionsQueue.getNextInmempool_some hu⟩

/-- What an in-mempool pass does, in terms of the transaction it polls. -/
theorem processSingleInmempool_polled {hash : TransactionHash}
    (h : l.polled env = some (t, hash)) :
    (l.processSingleInmempool env) = match env.pollReceipt hash with
      | .error e => (l, .error (.couldNotGetTransactionReceipt l.queue.relayer.id
          l.queue.relayer.address t e))
      | .ok (some receipt) => l.resolveInmempool env t receipt
      | .ok none => if l.bumpDue env t then l.bumpInmempool env t else (l, l.stillInmempool) := by
  obtain ⟨hguard, hknown, front, rest, hfront, ht⟩ := polled_some h
  have hnext : l.queue.getNextInmempoolTransaction = some t := by
    rw [TransactionsQueue.getNextInmempoolTransaction, hfront, ht]
    rfl
  unfold processSingleInmempool
  rw [hnext]
  dsimp only
  rw [hknown, hguard]
  rfl

theorem processSingleInmempool_unpolled (h : l.polled env = none) :
    (l.processSingleInmempool env).1 = l := by
  unfold polled at h
  unfold processSingleInmempool
  split
  · rfl
  · rename_i t hnext
    split
    · rfl
    · rename_i hguard
      rw [if_neg hguard, hnext] at h
      split
      · rfl
      · rename_i hash hknown
        simp [hknown] at h

/-- An in-mempool pass does to the book what its action says. -/
theorem processSingleInmempool_effect (l : Locked) (env : InmempoolEnv) :
    l.Effect (l.inmempoolAction env) (l.processSingleInmempool env).1 := by
  unfold inmempoolAction
  rcases hpolled : l.polled env with _ | ⟨t, hash⟩
  · rw [processSingleInmempool_unpolled hpolled]
    exact .refl l
  obtain ⟨_, hknown, front, rest, hfront, ht⟩ := polled_some hpolled
  rw [processSingleInmempool_polled hpolled]
  dsimp only
  rcases env.pollReceipt hash with e | _ | receipt
  · exact .refl l
  · dsimp only
    split
    · have hspec := send_spec l env.send t
      have hlive : (t.id, t.nonce) ∈ l.queue.book.live := by
        refine entry_mem_live (c := front) (hfront ▸ List.mem_cons_self ..) ?_
        rw [ht]
        unfold CompetitiveTransaction.getActiveTransaction CompetitiveTransaction.transactions
        cases front.competitive <;> simp
      unfold bumpInmempool
      rcases hsend : l.send env.send t with ⟨bumped, l', e | sent⟩
      · rw [hsend] at hspec
        have hfront' : l'.queue.inmempoolTransactions = front :: rest := by
          rw [hspec.queue]; exact hfront
        have hid : bumped.id = front.getActiveTransaction.id := hspec.id.trans (ht ▸ rfl)
        refine hspec.effect (.inl hlive) (.inl hlive) ?_
        cases e with
        | transactionSendError e =>
          dsimp only [bumpFailed]
          by_cases hclass : errorClass e = .nonceConflict
          · rw [if_pos hclass, hclass]
            exact bumpConflict_effect hfront' hid
          · rw [if_neg hclass]
            split
            · exact .refl l'
            · exact absurd (by assumption) hclass
            · exact .refl l'
        | _ => exact .refl l'
      · rw [hsend] at hspec
        have hfront' : l'.queue.inmempoolTransactions = front :: rest := by
          rw [hspec.queue]; exact hfront
        have hid : bumped.id = front.getActiveTransaction.id := hspec.id.trans (ht ▸ rfl)
        obtain ⟨hsentId, hsentNonce⟩ := hspec.ok sent rfl
        exact hspec.effect (.inl hlive) (.inl hlive) (bumpSent_effect hfront' hid
          (hsentId.trans hspec.id.symm) (hsentNonce.trans (ht ▸ rfl)))
    · exact .refl l
  · rw [ht] at hknown ⊢
    exact resolveInmempool_effect hfront hknown

theorem bumpConflictAction_newNonce {m : ℕ} (h : m ∈ (l.bumpConflictAction env t).newNonce) :
    l.recoverNonceSynchronization env.clients = .ok m := by
  unfold bumpConflictAction at h
  extract_lets free at h
  clear_value free
  cases free with
  | false => cases h
  | true =>
    simp only [Bool.not_true, Bool.false_eq_true, if_false] at h
    split at h
    · cases h
    · rename_i newNonce hrecover
      split at h
      · obtain rfl := Option.some.inj h
        exact hrecover
      · cases h

theorem inmempoolAction_newNonce {m : ℕ} (h : m ∈ (l.inmempoolAction env).newNonce) :
    l.recoverNonceSynchronization env.clients = .ok m := by
  unfold inmempoolAction at h
  split at h
  · cases h
  · rename_i t hash _
    have hspec := send_spec l env.send t
    split at h
    · cases h
    · cases h
    · split at h
      · split at h
        · cases h
        · rename_i hsend
          rw [hsend] at hspec
          split at h
          · have hrecover := bumpConflictAction_newNonce h
            have hqueue := hspec.queue
            dsimp only at hqueue
            unfold recoverNonceSynchronization at hrecover ⊢
            rw [hqueue] at hrecover
            exact hrecover
          · cases h
        · cases h
      · cases h

end Inmempool

theorem getNextMined_mem {q : TransactionsQueue} {pick : ℕ} {t : Transaction}
    (h : q.getNextMinedTransaction pick = some t) : t ∈ q.minedTransactions := by
  unfold TransactionsQueue.getNextMinedTransaction at h
  exact List.mem_of_getElem? h

/-- A mined pass leaves the book alone: it can only confirm a mined transaction's row. -/
theorem processSingleMined_spec (l : Locked) (env : MinedEnv) :
    (l.processSingleMined env).1.queue.book = l.queue.book ∧
      (l.processSingleMined env).1.queue.relayer = l.queue.relayer ∧
      (l.processSingleMined env).1.broadcasts = l.broadcasts ∧
      l.db.KeepsNonces (l.processSingleMined env).1.db ∧
      l.db.Within (fun x _ => x ∈ l.queue.minedTransactions.map (·.id))
        (l.processSingleMined env).1.db ∧
      (l.processSingleMined env).1.queue.minedTransactions ⊆ l.queue.minedTransactions := by
  have hsame := And.intro (Db.KeepsNonces.refl l.db) (And.intro (Db.Within.refl
    (P := fun x _ => x ∈ l.queue.minedTransactions.map (·.id)) l.db)
    (List.Subset.refl l.queue.minedTransactions))
  rcases l.processSingleMined_cases env with hkept | ⟨t, hnext, hconfirmed⟩
  · rw [hkept]
    exact ⟨rfl, rfl, rfl, hsame⟩
  · rw [hconfirmed]
    refine ⟨rfl, rfl, rfl, Db.keepsNonces_map fun r => ?_, ?_, List.filter_subset_self ..⟩
    · split <;> exact ⟨rfl, rfl⟩
    · exact Db.transactionConfirmed_within (n := 0) (List.mem_map_of_mem (getNextMined_mem hnext))

end Locked
end Rrelayer
