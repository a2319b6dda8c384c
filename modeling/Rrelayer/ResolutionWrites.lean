import Rrelayer.ResolvedCompetition
import Rrelayer.QueueMoves

/-! A resolution that the database refuses: memory has moved by then, and nothing moves it back. -/
namespace Rrelayer

/-- The in-mempool queue and the mined map are as before, so the next pass meets the same entry with
the same receipt. -/
structure LeftForRetry (l l' : Locked) : Prop where
  entries : l'.queue.inmempoolTransactions = l.queue.inmempoolTransactions
  mined : l'.queue.minedTransactions = l.queue.minedTransactions

namespace Locked

/-- The pass ends in the error of a database write of its receipt branch, the winner's or the
loser's. -/
def ResolutionWriteFails (l : Locked) (env : InmempoolEnv) : Prop :=
  ∃ t status, (l.processSingleInmempool env).2 = l.statusNotSaved t status

variable {l : Locked} {env : InmempoolEnv} {t : Transaction} {status : TransactionStatus}

theorem reassignInmempoolNonce_saved (l m : Locked) (t u : Transaction) (error : String) :
    (l.reassignInmempoolNonce env u error).2 ≠ m.statusNotSaved t status := by
  unfold reassignInmempoolNonce
  split
  · exact fun h => by cases h
  · split
    · exact fun h => by cases h
    · exact fun h => by cases h

/-- No write of a bump ends in that error. -/
theorem bumpInmempool_saved (l : Locked) (u : Transaction) :
    (l.bumpInmempool env u).2 ≠ l.statusNotSaved t status := by
  unfold bumpInmempool
  rcases l.send env.send u with ⟨bumped, after, e | sent⟩
  · dsimp only
    unfold bumpFailed
    split
    · split
      · exact fun h => by cases h
      · unfold inmempoolNonceConflict
        split
        · exact reassignInmempoolNonce_saved _ _ _ _ _
        · split
          · exact reassignInmempoolNonce_saved _ _ _ _ _
          · exact fun h => by cases h
          · exact fun h => by cases h
      · exact fun h => by cases h
    · exact fun h => by cases h
  · exact fun h => by cases h

/-- The error comes from a pass that resolved the front entry. -/
theorem ResolutionWriteFails.resolved (h : l.ResolutionWriteFails env) :
    ∃ receipt r queue, l.resolution env = some (receipt, r, queue) := by
  obtain ⟨t, status, h⟩ := h
  unfold processSingleInmempool at h
  cases hnext : l.queue.getNextInmempoolTransaction with
  | none =>
    rw [hnext] at h
    cases h
  | some u =>
    simp only [hnext] at h
    cases hguard : env.guard with
    | false =>
      simp only [hguard, Bool.not_false, if_true] at h
      cases h
    | true =>
      simp only [hguard, Bool.not_true, Bool.false_eq_true, if_false] at h
      cases hhash : u.knownTransactionHash with
      | none =>
        simp only [hhash] at h
        cases h
      | some hash =>
        simp only [hhash] at h
        rcases hpoll : env.pollReceipt hash with e | _ | receipt
        · simp only [hpoll] at h
          cases h
        · simp only [hpoll] at h
          split at h
          · exact absurd h (bumpInmempool_saved l u)
          · cases h
        · simp only [hpoll] at h
          unfold resolveInmempool at h
          rcases hmove : l.queue.moveInmempoolToMining u.id receipt env.now with e | ⟨r, queue⟩
          · simp only [hmove] at h
            cases h
          · exact ⟨receipt, r, queue, resolution_iff.mpr
              ⟨hguard, u, hash, hnext, hhash, hpoll, hmove⟩⟩

/-- A pass that resolves the front entry takes it out, also when the database refuses. -/
theorem resolution_pops {receipt : Receipt} {r : CompetitionResolutionResult}
    {queue : TransactionsQueue} (h : l.resolution env = some (receipt, r, queue)) :
    ∃ front, l.queue.inmempoolTransactions =
        front :: (l.processSingleInmempool env).1.queue.inmempoolTransactions ∧
      r.winner.id ∈ front.ids := by
  obtain ⟨-, t, -, -, -, -, hmove⟩ := resolution_iff.mp h
  rw [processSingleInmempool_resolution h, saveResolution_queue]
  unfold TransactionsQueue.moveInmempoolToMining at hmove
  cases hlist : l.queue.inmempoolTransactions with
  | nil => simp [hlist] at hmove
  | cons front rest =>
    simp only [hlist] at hmove
    cases hresolve : TransactionsQueue.resolveCompetition l.queue.relayer.address front t.id
        receipt env.now with
    | none =>
      rw [hresolve] at hmove
      cases hmove
    | some resolved =>
      rw [hresolve] at hmove
      cases hmove
      obtain ⟨hid, hmem⟩ := TransactionsQueue.resolveCompetition_winner_id hresolve
      exact ⟨front, rfl, hid ▸ hmem⟩

/-- Where ids are distinct no later pass over what is left resolves the transaction again. -/
theorem resolved_not_again (hconserved : l.queue.Conserved) {receipt receipt' : Receipt}
    {r r' : CompetitionResolutionResult} {queue queue' : TransactionsQueue} {env' : InmempoolEnv}
    (h : l.resolution env = some (receipt, r, queue))
    (h' : (l.processSingleInmempool env).1.resolution env' = some (receipt', r', queue')) :
    r'.winner.id ≠ r.winner.id := by
  obtain ⟨front, hlist, hmem⟩ := resolution_pops h
  obtain ⟨front', hlist', hmem'⟩ := resolution_pops h'
  have hnodup := (List.nodup_append.mp (List.nodup_append.mp hconserved.ids).2.1).1
  unfold TransactionsQueue.entryIds at hnodup
  rw [hlist, hlist', List.flatMap_cons, List.flatMap_cons] at hnodup
  obtain ⟨-, -, hapart⟩ := List.nodup_append.mp hnodup
  exact Ne.symm (hapart _ hmem _ (List.mem_append_left _ hmem'))

/-- The pass has given up the transaction it found included: its entry is out of the queue, and where
ids are distinct no later pass over what is left resolves that transaction. -/
def GivesUp (l : Locked) (env : InmempoolEnv) : Prop :=
  ∃ front receipt r queue, l.resolution env = some (receipt, r, queue) ∧
    l.queue.inmempoolTransactions =
      front :: (l.processSingleInmempool env).1.queue.inmempoolTransactions ∧
    r.winner.id ∈ front.ids ∧
    (l.queue.Conserved → ∀ env' receipt' r' queue',
      (l.processSingleInmempool env).1.resolution env' = some (receipt', r', queue') →
        r'.winner.id ≠ r.winner.id)

/-- Whatever write of the receipt branch fails, the entry is gone from the queue and nothing resolves
its transaction again. -/
theorem resolution_write_not_atomic (l : Locked) (env : InmempoolEnv)
    (h : l.ResolutionWriteFails env) :
    l.GivesUp env ∧ ¬ LeftForRetry l (l.processSingleInmempool env).1 := by
  obtain ⟨receipt, r, queue, hresolved⟩ := h.resolved
  obtain ⟨front, hlist, hwinner⟩ := resolution_pops hresolved
  constructor
  · refine ⟨front, receipt, r, queue, hresolved, hlist, hwinner, ?_⟩
    intro hconserved env' receipt' r' queue' hagain
    exact resolved_not_again hconserved hresolved hagain
  · intro hleft
    have hlength := congrArg List.length (hlist.symm.trans hleft.entries.symm)
    simp at hlength

/-- A pass that finds the cancel included and cannot write it. -/
def unwrittenPoll : InmempoolEnv :=
  { servedPoll with
    pollReceipt := fun hash => .ok (some ⟨true, hash, 21000, none, none⟩)
    write := false }

theorem unwrittenPoll_fails : cancelledLocked.ResolutionWriteFails unwrittenPoll := by
  refine ⟨{ racingCancel with status := .mined, minedAt := some unwrittenPoll.now }, .mined, ?_⟩
  decide +kernel

theorem resolution_write_not_atomic_cancelled : cancelledLocked.GivesUp unwrittenPoll ∧
    ¬ LeftForRetry cancelledLocked (cancelledLocked.processSingleInmempool unwrittenPoll).1 :=
  resolution_write_not_atomic cancelledLocked unwrittenPoll unwrittenPoll_fails

/-- The mined cancel has no entry left and its row still says it waits. -/
theorem resolution_write_fails : ¬ ∀ (l : Locked) (env : InmempoolEnv),
    l.ResolutionWriteFails env → LeftForRetry l (l.processSingleInmempool env).1 := by
  intro hatomic
  have hleft := hatomic cancelledLocked unwrittenPoll unwrittenPoll_fails
  have hgone : (cancelledLocked.processSingleInmempool unwrittenPoll).1.queue.inmempoolTransactions
      = [] := by decide +kernel
  have hwaiting : cancelledLocked.queue.inmempoolTransactions ≠ [] := by decide +kernel
  exact hwaiting (hleft.entries.symm.trans hgone)

end Locked
end Rrelayer
