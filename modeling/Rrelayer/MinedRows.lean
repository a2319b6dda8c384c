import Rrelayer.FinalStatuses

/-! Mined transactions on their way to confirmation. No mined row is forgotten: while its relayer is
up, the mined map holds the transaction with all that a pass over the map asks for. -/
namespace Rrelayer

/-- A mined row says when and under which hash. -/
def Row.MinedRecorded (r : Row) : Prop :=
  r.status = .mined → r.minedAt.isSome = true ∧ r.knownTransactionHash.isSome = true

def Db.MinedRecorded (db : Db) : Prop := ∀ r ∈ db.rows, r.MinedRecorded

namespace Db.MinedRecorded

variable {db db' : Db} {x : TransactionId}

theorem unmined {r : Row} (h : r.status ≠ .mined) : r.MinedRecorded := fun hmined => (h hmined).elim

theorem updated {f g : Row → Row} (h : db.MinedRecorded)
    (hf : ∀ r, r.MinedRecorded → (f r).MinedRecorded) :
    ((db.update x f).log x g).MinedRecorded := by
  intro r' hr'
  obtain ⟨r, hr, ⟨-, rfl⟩ | ⟨-, rfl⟩⟩ := mem_update hr'
  · exact hf r (h r hr)
  · exact h r' hr

theorem inserted {r : Row} (h : db.MinedRecorded) (hr : r.MinedRecorded)
    (hinsert : db.insert r = some db') : db'.MinedRecorded := by
  unfold insert at hinsert
  split at hinsert
  · cases hinsert
  · cases hinsert
    intro r' hr'
    rcases List.mem_append.mp hr' with hr' | hr'
    · exact h r' hr'
    · exact List.mem_singleton.mp hr' ▸ hr

/-- One statement, by a writer that owns nothing that is mined. -/
theorem wrote {w : Writer} {store store' : Db × Broadcasts} (h : store.1.MinedRecorded)
    (howned : ∀ t, w.owned t → t.status ≠ .mined) (hwrote : Wrote w store store') :
    store'.1.MinedRecorded := by
  cases hwrote with
  | @saved _ _ _ relayerId t hown ht hsave =>
    obtain ⟨db₁, hinsert, rfl⟩ := Option.map_eq_some_iff.mp hsave
    have hinserted : db₁.MinedRecorded := inserted h (unmined (howned t hown)) hinsert
    exact hinserted
  | @rejected _ _ _ relayerId t reason now ht hsave =>
    obtain ⟨db₁, hinsert, rfl⟩ := Option.map_eq_some_iff.mp hsave
    have hfailed : t.status ≠ .mined := by
      rw [ht]
      nofun
    have hinserted : db₁.MinedRecorded := inserted h (unmined hfailed) hinsert
    exact hinserted
  | @attempted _ _ _ _ t _ _ _ _ hown _ hattempt =>
    unfold transactionBroadcastAttempt at hattempt
    dsimp only at hattempt
    split at hattempt
    · cases hattempt
      exact h.updated fun _ _ => unmined (howned t hown)
    · obtain ⟨db₁, hinsert, rfl⟩ := Option.map_eq_some_iff.mp hattempt
      have hinserted : db₁.MinedRecorded := h.inserted (unmined (howned t hown)) hinsert
      exact hinserted
  | sent | landed => exact h.updated fun _ _ => unmined nofun
  | recovered relayerId legacy now ha hgas hfound hrecover =>
    rw [recoverLanded_true hrecover]
    exact h.updated fun _ _ => unmined nofun
  | failed | confirmed | expired => exact h.updated fun _ _ => unmined nofun
  | mined => exact h.updated fun _ _ _ => ⟨rfl, rfl⟩
  | moved => exact h.updated fun _ hr => hr
  | @updated _ _ t now hown =>
    have hstatus : t.status ≠ .mined := howned t hown
    exact h.updated fun _ _ => unmined hstatus
  | poisonedRepaired relayerId =>
    intro r' hr'
    obtain ⟨r, hr, rfl⟩ := List.mem_map.mp hr'
    split
    · exact unmined nofun
    · exact h r hr
  | absentRepaired relayerId chainNonce reason now entry =>
    show (repairAbsentOne relayerId chainNonce reason now _ entry).MinedRecorded
    unfold repairAbsentOne
    split
    · split
      · exact h.updated fun _ _ => unmined nofun
      · exact h
    · exact h

end Db.MinedRecorded

def Milestone.mined : Milestone := ⟨(· == .mined), rfl, rfl⟩

theorem TransactionsQueue.Conserved.entry_nodup {q : TransactionsQueue} (h : q.Conserved)
    {c : CompetitiveTransaction} (hc : c ∈ q.inmempoolTransactions) : c.ids.Nodup := by
  obtain ⟨-, hentries, -⟩ := List.nodup_append.mp h.ids
  obtain ⟨hentries, -, -⟩ := List.nodup_append.mp hentries
  exact (List.nodup_flatMap.mp hentries).1 c hc

namespace Locked

variable {l l' : Locked}

section MinedMap

variable {t : Transaction}

/-! What is mined stays in the map through every operation but the two passes that decide races and
confirm. -/

theorem moveSent_mined {env : PendingEnv} {sent : TransactionSentWithRelayer}
    {result : ProcessResult ProcessPendingStatus} :
    (l.moveSent env t sent result).1.queue.minedTransactions = l.queue.minedTransactions := by
  unfold moveSent
  rcases hmove : l.queue.movePendingToInmempool t sent env.nowMoved with e | q
  · rfl
  · obtain ⟨head, rest, -, -, -, rfl⟩ := TransactionsQueue.movePendingToInmempool_ok hmove
    rfl

theorem pendingFailed_mined {env : PendingEnv} {error : TransactionQueueSendTransactionError} :
    (l.pendingFailed env t error).1.queue.minedTransactions = l.queue.minedTransactions := by
  have hleaves := l.pendingFailed_leaves env t error
  generalize (l.pendingFailed env t error).1 = l' at hleaves ⊢
  cases hleaves with
  | kept | closedOut => rfl
  | reassigned newNonce => exact TransactionsQueue.updatePendingTransactionNonce_minedTransactions
  | mined | recovered => exact moveSent_mined

theorem processSinglePending_mined {env : PendingEnv} :
    (l.processSinglePending env).1.queue.minedTransactions = l.queue.minedTransactions := by
  unfold processSinglePending
  split
  · rfl
  · split
    · rfl
    · rename_i t _
      split
      · rfl
      · have hspec := l.send_spec env.send (l.pendingCopy env t)
        rcases hsend : l.send env.send (l.pendingCopy env t) with ⟨t', l', e | sent⟩
        · rw [hsend] at hspec
          rw [← hspec.queue]
          exact pendingFailed_mined
        · rw [hsend] at hspec
          rw [← hspec.queue]
          exact moveSent_mined

theorem bumpInmempool_mined {env : InmempoolEnv} :
    (l.bumpInmempool env t).1.queue.minedTransactions = l.queue.minedTransactions := by
  have hspec := l.send_spec env.send t
  unfold bumpInmempool
  rcases hsend : l.send env.send t with ⟨bumped, l', e | sent⟩
  · rw [hsend] at hspec
    rw [← hspec.queue]
    have hleaves := l'.bumpFailed_leaves env bumped e
    dsimp only
    generalize (l'.bumpFailed env bumped e).1 = l'' at hleaves ⊢
    cases hleaves with
    | kept | reassigned => rfl
  · rw [hsend] at hspec
    rw [← hspec.queue]
    dsimp only [bumpSent]
    split
    · exact (updateFrontById_lists _ _ _).2.trans (updateFrontById_lists _ _ _).2
    · exact (updateFrontById_lists _ _ _).2

theorem sendCompetitor_mined {env : CompeteEnv} {original competitor : Transaction}
    {type : CompetitionType} :
    (l.sendCompetitor env original competitor type).1.queue.minedTransactions =
      l.queue.minedTransactions := by
  have hspec := l.send_spec env.send competitor
  unfold sendCompetitor
  split
  · rename_i hsend
    rw [hsend] at hspec
    rw [← hspec.queue]
    split
    · split
      · rfl
      · rfl
    · rfl
  · rename_i hsend
    rw [hsend] at hspec
    rw [← hspec.queue]
  · rename_i hsend
    rw [hsend] at hspec
    rw [← hspec.queue]
    dsimp only
    split
    · rfl
    · split
      · rfl
      · rename_i hadd
        obtain ⟨front, rest, -, -, rfl⟩ := TransactionsQueue.addCompetitor_ok hadd
        rfl

theorem rewritePending_mined {env : CompeteEnv} (h : l.rewritePending env t = some l') :
    l'.queue.minedTransactions = l.queue.minedTransactions := by
  unfold rewritePending at h
  split at h
  · cases h
    rfl
  · cases h

theorem cancelTransaction_mined {env : CompeteEnv} {id : TransactionId} :
    (l.cancelTransaction env id).1.queue.minedTransactions = l.queue.minedTransactions := by
  obtain hkept | ⟨t, -, hrewrite⟩ | ⟨original, competitor, -, -, hsent⟩ :=
    l.cancelTransaction_cases env id
  · rw [hkept]
  · exact rewritePending_mined hrewrite
  · rw [hsent]
    exact sendCompetitor_mined

theorem replaceTransaction_mined {env : CompeteEnv} {request : RelayTransactionRequest}
    {id : TransactionId} : (l.replaceTransaction env request id).1.queue.minedTransactions =
      l.queue.minedTransactions := by
  obtain hkept | ⟨t, blobs, -, hrewrite⟩ | ⟨original, competitor, -, -, hsent⟩ :=
    l.replaceTransaction_cases env request id
  · rw [hkept]
  · exact rewritePending_mined hrewrite
  · rw [hsent]
    exact sendCompetitor_mined

theorem addTransaction_mined {env : AdmissionEnv} {toSend : TransactionToSend} :
    (l.addTransaction env toSend).1.queue.minedTransactions = l.queue.minedTransactions := by
  have hleaves := l.addTransaction_leaves env toSend
  generalize (l.addTransaction env toSend).1 = l' at hleaves ⊢
  cases hleaves with
  | kept | rejected | saved => rfl

end MinedMap

/-- A failed admission is not mined, and a good one is pending. -/
theorem addTransaction_reaches {env : AdmissionEnv} {toSend : TransactionToSend}
    {ids : TransactionId → Prop} : l.db.Reaches .mined ids (l.addTransaction env toSend).1.db := by
  have hleaves := l.addTransaction_leaves env toSend
  generalize (l.addTransaction env toSend).1 = l' at hleaves ⊢
  cases hleaves with
  | kept manager => exact .refl _
  | rejected manager _ hstatus hsaved => exact Db.failedOnSend_reaches (.inr (hstatus ▸ rfl)) hsaved
  | saved manager _ _ hstatus _ _ hsaved => exact Db.saved_reaches (hstatus ▸ rfl) hsaved

/-- An operation that only touches what waits, or what is new, and mines nothing keeps the mined
rows as they are. -/
theorem minedRows_kept {ids : TransactionId → Prop} (h : l.Settled .landed)
    (htouched : l.Touched ids l') (hreaches : l.db.Reaches .mined (fun _ => False) l'.db)
    (hids : ∀ x, ids x → x ∈ l.queue.waitingIds ∨ Unused l.db l.queue x) :
    ∀ r ∈ l'.db.rows, r.status = .mined → r ∈ l.db.rows := by
  intro r hr hmined
  by_cases hid : ids r.id
  · have hafter : l'.db.Reached .mined r.id := ⟨r, hr, rfl, by rw [hmined]; rfl⟩
    rcases hreaches r.id hafter with ⟨before, hbefore, hsame, hstatus⟩ | hnone
    · rcases hids r.id hid with hwaits | hunused
      · have hbefore : l.db.Reached .landed r.id := by
          refine ⟨before, hbefore, hsame, ?_⟩
          rw [beq_iff_eq.mp hstatus]
          rfl
        exact (h.dropped r.id hbefore (Milestone.mem_held_landed hwaits)).elim
      · exact (hunused.absent before hbefore hsame).elim
    · exact hnone.elim
  · have hframe := htouched.db.rowsFrame r.id fun _ => hid
    have hmem : r ∈ l'.db.rows.filter (·.id == r.id) := List.mem_filter.mpr ⟨hr, by simp⟩
    rw [hframe] at hmem
    exact (List.mem_filter.mp hmem).1

/-- The mined map has every mined row of the relayer, and of each of its transactions the time and
the hash that a pass asks for. -/
structure Awaited (relayerId : RelayerId) (l : Locked) : Prop where
  rows : ∀ r ∈ l.db.rows, r.relayerId = relayerId → r.status = .mined →
    ∃ t ∈ l.queue.minedTransactions, t.id = r.id
  ready : ∀ t ∈ l.queue.minedTransactions,
    t.minedAt.isSome = true ∧ t.knownTransactionHash.isSome = true

variable {relayerId : RelayerId}

theorem Awaited.kept (h : l.Awaited relayerId)
    (hrows : ∀ r ∈ l'.db.rows, r.status = .mined → r ∈ l.db.rows)
    (hmap : l'.queue.minedTransactions = l.queue.minedTransactions) : l'.Awaited relayerId where
  rows r hr hown hmined := by
    rw [hmap]
    exact h.rows r (hrows r hr hmined) hown hmined
  ready t ht := h.ready t (hmap ▸ ht)

section Races

variable {env : InmempoolEnv} {receipt : Receipt} {r : CompetitionResolutionResult}
  {front : CompetitiveTransaction} {hash : TransactionHash}

/-- The rows a decided race leaves: only its winner's may have become mined. -/
theorem saveResolution_minedRows (hwinner : r.winner.status = r.winnerStatus)
    (hloser : ∀ loser ∈ r.loser, loser.status ≠ .mined) {row : Row}
    (hrow : row ∈ (l.saveResolution env receipt r).1.db.rows) (hmined : row.status = .mined) :
    row ∈ l.db.rows ∨ row.id = r.winner.id ∧ r.winner.status = .mined := by
  unfold saveResolution at hrow
  split at hrow
  · rename_i hstatus
    have hwritten : ∀ row ∈ (l.db.transactionMined r.winner receipt env.nowWrite).rows,
        row ∈ l.db.rows ∨ row.id = r.winner.id ∧ r.winner.status = .mined := by
      intro row hrow
      obtain ⟨before, hbefore, ⟨hid, rfl⟩ | ⟨-, rfl⟩⟩ := Db.mem_update hrow
      · exact .inr ⟨hid, hwinner.trans hstatus⟩
      · exact .inl hbefore
    split at hrow
    · exact .inl hrow
    · dsimp only at hrow
      split at hrow
      · exact hwritten row hrow
      · rename_i loser hr
        split at hrow
        · exact hwritten row hrow
        · obtain ⟨before, hbefore, ⟨-, rfl⟩ | ⟨-, rfl⟩⟩ := Db.mem_update hrow
          · exact (hloser loser hr hmined).elim
          · exact hwritten _ hbefore
  · split at hrow
    · exact .inl hrow
    · obtain ⟨before, hbefore, ⟨-, rfl⟩ | ⟨-, rfl⟩⟩ := Db.mem_update hrow
      · cases hmined
      · exact .inl hbefore
  · split at hrow
    · exact .inl hrow
    · obtain ⟨before, hbefore, ⟨-, rfl⟩ | ⟨-, rfl⟩⟩ := Db.mem_update hrow
      · cases hmined
      · exact .inl hbefore
  · exact .inl hrow

/-- The race that the polled transaction decides: it wins, with its hash. -/
theorem resolveCompetition_polled {relayAddress : EvmAddress} {now : DateTime}
    (hnodup : front.ids.Nodup) (hsent : ∀ t ∈ front.transactions, t.status = .inmempool)
    (h : TransactionsQueue.resolveCompetition relayAddress front front.getActiveTransaction.id
      receipt now = some r) :
    r.winner.minedAt = some now ∧
      r.winner.knownTransactionHash = front.getActiveTransaction.knownTransactionHash ∧
      ∀ loser ∈ r.loser, loser.status ≠ .mined := by
  obtain ⟨original, _ | ⟨competitor, type⟩⟩ := front
  · simp only [CompetitiveTransaction.getActiveTransaction, TransactionsQueue.resolveCompetition,
      BEq.rfl, if_true] at h
    cases h
    refine ⟨rfl, rfl, fun loser hloser => ?_⟩
    cases hloser
  · have hne : original.id ≠ competitor.id := by
      simpa [CompetitiveTransaction.ids, CompetitiveTransaction.transactions] using hnodup
    simp only [CompetitiveTransaction.getActiveTransaction, TransactionsQueue.resolveCompetition,
      beq_eq_false_iff_ne.mpr hne, BEq.rfl, if_true, Bool.false_eq_true, if_false] at h
    cases h
    refine ⟨rfl, rfl, fun loser hloser => ?_⟩
    obtain rfl := Option.mem_some.mp hloser
    cases type
    · exact fun h => TransactionStatus.noConfusion h
    · exact fun h => TransactionStatus.noConfusion h

theorem moveInmempoolToMining_map {q q' : TransactionsQueue} {id : TransactionId} {now : DateTime}
    (h : q.moveInmempoolToMining id receipt now = .ok (r, q')) :
    (∀ t ∈ q.minedTransactions, ∃ u ∈ q'.minedTransactions, u.id = t.id) ∧
      (r.winner.status = .mined → r.winner ∈ q'.minedTransactions) := by
  unfold TransactionsQueue.moveInmempoolToMining at h
  split at h
  · cases h
  · split at h
    · cases h
    · cases h
      refine ⟨fun t ht => ?_, fun hmined => ?_⟩
      · dsimp only
        split
        · by_cases hsame : t.id = r.winner.id
          · exact ⟨r.winner, List.mem_append_right _ (List.mem_singleton.mpr rfl), hsame.symm⟩
          · have hkept : t ∈ q.minedTransactions.filter (·.id != r.winner.id) :=
              List.mem_filter.mpr ⟨ht, by simpa using hsame⟩
            exact ⟨t, List.mem_append_left _ hkept, rfl⟩
        · exact ⟨t, ht, rfl⟩
      · dsimp only
        rw [hmined]
        exact List.mem_append_right _ (List.mem_singleton.mpr rfl)

theorem resolveInmempool_awaited (h : l.Awaited relayerId) (hsettled : l.Settled .landed)
    (hfront : front ∈ l.queue.inmempoolTransactions.head?)
    (hhash : front.getActiveTransaction.knownTransactionHash = some hash) :
    (l.resolveInmempool env front.getActiveTransaction receipt).1.Awaited relayerId := by
  have hmem : front ∈ l.queue.inmempoolTransactions := List.mem_of_head? hfront
  unfold resolveInmempool
  rcases hmove : l.queue.moveInmempoolToMining front.getActiveTransaction.id receipt env.now with
    e | ⟨r, q⟩
  · exact h
  · obtain ⟨⟨front', hfront', hresolve⟩, -, hnew⟩ := moveInmempoolToMining_lists hmove
    obtain rfl : front' = front := Option.some.inj (hfront'.symm.trans hfront)
    have hnodup : front'.ids.Nodup := hsettled.conserved.entry_nodup hmem
    have hsent : ∀ t ∈ front'.transactions, t.status = .inmempool := fun t ht =>
      (hsettled.shown.sent front' hmem t ht).2
    obtain ⟨htime, hknown, hloser⟩ := resolveCompetition_polled hnodup hsent hresolve
    obtain ⟨hwinner, -⟩ := TransactionsQueue.resolveCompetition_apart hnodup hresolve
    obtain ⟨hkept, hwon⟩ := moveInmempoolToMining_map hmove
    obtain ⟨hqueue, -, -⟩ := saveResolution_frame { l with queue := q } env receipt r
      (P := fun _ _ => True) trivial fun _ _ => trivial
    refine ⟨fun row hrow hown hmined => ?_, fun t ht => ?_⟩
    · dsimp only
      rw [hqueue]
      rcases saveResolution_minedRows hwinner hloser hrow hmined with hbefore | ⟨hid, hstatus⟩
      · obtain ⟨t, ht, hid⟩ := h.rows row hbefore hown hmined
        obtain ⟨u, hu, hsame⟩ := hkept t ht
        exact ⟨u, hu, hsame.trans hid⟩
      · exact ⟨r.winner, hwon hstatus, hid.symm⟩
    · dsimp only at ht
      rw [hqueue] at ht
      rcases hnew t ht with ht | rfl
      · exact h.ready t ht
      · rw [htime, hknown, hhash]
        exact ⟨rfl, rfl⟩

theorem processSingleInmempool_awaited (h : l.Awaited relayerId) (hsettled : l.Settled .landed) :
    (l.processSingleInmempool env).1.Awaited relayerId := by
  have htouched := l.processSingleInmempool_touched env
  rcases hpolled : l.polled env with _ | ⟨t, hash⟩
  · rw [processSingleInmempool_unpolled hpolled]
    exact h
  · obtain ⟨-, hhash, front, rest, hlist, rfl⟩ := polled_some hpolled
    have hfront : front ∈ l.queue.inmempoolTransactions.head? := by rw [hlist]; rfl
    rw [processSingleInmempool_polled hpolled] at htouched ⊢
    rcases hpoll : env.pollReceipt hash with e | _ | receipt
    · exact h
    · rw [hpoll] at htouched
      dsimp only at htouched ⊢
      split
      · rename_i hdue
        rw [if_pos hdue] at htouched
        have hshown : l.queue.Shown .mined fun _ => True :=
          ⟨hsettled.shown.pending, hsettled.shown.sent, fun _ _ _ => trivial⟩
        have hsent := hsettled.shown.sent front (List.mem_of_head? hfront) _
          (active_mem_transactions front)
        refine h.kept (minedRows_kept hsettled htouched ?_ ?_) bumpInmempool_mined
        · exact (bumpInmempool_steady hshown hsent.2).rows
        · rintro x ⟨c, hc, u, hu, rfl⟩
          exact .inl (TransactionsQueues.mem_waiting_entry (List.mem_of_head? hc) hu)
      · exact h
    · exact resolveInmempool_awaited h hsettled hfront hhash

end Races

/-- A confirmation takes the transaction out of the rows that are mined and out of the map. -/
theorem processSingleMined_awaited (h : l.Awaited relayerId) {env : MinedEnv} :
    (l.processSingleMined env).1.Awaited relayerId := by
  rcases l.processSingleMined_cases env with hkept | ⟨t, -, hconfirmed⟩
  · rw [hkept]
    exact h
  · rw [hconfirmed]
    refine ⟨fun r hr hown hmined => ?_, fun u hu => h.ready u (List.mem_filter.mp hu).1⟩
    obtain ⟨before, hbefore, ⟨-, rfl⟩ | ⟨hid, rfl⟩⟩ := Db.mem_update hr
    · cases hmined
    · obtain ⟨u, hu, hsame⟩ := h.rows r hbefore hown hmined
      have hother : u.id ≠ t.id := fun h => hid (hsame.symm.trans h)
      exact ⟨u, List.mem_filter.mpr ⟨hu, by simpa using hother⟩, hsame⟩

/-- What a startup reads back. -/
theorem repopulated_awaited {relayer : Relayer} {env : StartupEnv} {onchainNonce : ℕ}
    (hrecorded : l.db.MinedRecorded)
    (hqueue : l.queue = repopulatedQueue relayer env l.db onchainNonce) :
    l.Awaited relayer.id := by
  have hmap : l.queue.minedTransactions =
      l.db.getTransactionsByStatusForRelayer relayer.id .mined := by
    rw [hqueue]
    rfl
  refine ⟨fun r hr hown hmined => ?_, fun t ht => ?_⟩
  · rw [hmap]
    exact ⟨r.toTransaction, mem_byStatus.mpr ⟨r, hr, hown, hmined, rfl⟩, rfl⟩
  · rw [hmap] at ht
    obtain ⟨r, hr, -, hmined, rfl⟩ := mem_byStatus.mp ht
    exact hrecorded r hr hmined

end Locked

theorem History.minedRecorded {w : Writer} {store store' : Db × Broadcasts}
    (hwrote : History w store store') (h : store.1.MinedRecorded)
    (howned : ∀ t, w.owned t → t.status ≠ .mined) : store'.1.MinedRecorded := by
  induction hwrote with
  | refl => exact h
  | tail _ hlast ih => exact ih.wrote howned hlast

namespace TransactionsQueues

variable {s : TransactionsQueues} {e : Event}

/-- Nothing an event writes as a whole is mined. -/
theorem owned_unmined (hs : s.Settled .landed) {t : Transaction} (h : (s.writer e).owned t) :
    t.status ≠ .mined := by
  unfold writer at h
  rcases hl : s.lock with _ | l
  · rw [hl] at h
    exact h.elim
  · rw [hl] at h
    obtain ⟨-, -, hshown, -⟩ := hs.locked l hl
    rcases h with ⟨-, hstatus, -⟩ | ⟨u, hu, -, hstatus, -⟩ | ⟨c, hc, u, hu, -, hstatus, -⟩
    · rw [hstatus]
      nofun
    · rw [(hshown.pending u hu).2, or_self] at hstatus
      rw [hstatus]
      nofun
    · rw [(hshown.sent c hc u hu).2] at hstatus
      rcases hstatus with hstatus | hstatus | hstatus
      · rw [hstatus]
        nofun
      · rw [hstatus]
        nofun
      · rw [hstatus]
        nofun

structure Awaits (s : TransactionsQueues) : Prop where
  recorded : s.db.MinedRecorded
  locked : ∀ l, s.lock = some l → l.Awaited s.relayer.id

theorem perform_awaited {l : Locked} {relayerId : RelayerId} (h : l.Awaited relayerId)
    (hsettled : l.Settled .landed) (hnew : ∀ x ∈ e.newId, Unused l.db l.queue x) :
    (perform l e).Awaited relayerId := by
  have hshown : l.queue.Shown .mined fun _ => True :=
    ⟨hsettled.shown.pending, hsettled.shown.sent, fun _ _ _ => trivial⟩
  have htouched := perform_touches l e
  have hwaits {x : TransactionId} (hx : x ∈ e.newId ∨ x ∈ l.queue.waitingIds) :
      x ∈ l.queue.waitingIds ∨ Unused l.db l.queue x := hx.symm.imp id (hnew x)
  cases e with
  | add env toSend =>
    exact h.kept (Locked.minedRows_kept hsettled htouched Locked.addTransaction_reaches
      fun _ => hwaits) Locked.addTransaction_mined
  | cancel env id =>
    exact h.kept (Locked.minedRows_kept hsettled htouched
      (Locked.cancelTransaction_steady hshown trivial id).rows fun _ => hwaits)
      Locked.cancelTransaction_mined
  | replace env request id =>
    exact h.kept (Locked.minedRows_kept hsettled htouched
      (Locked.replaceTransaction_steady hshown trivial request id).rows fun _ => hwaits)
      Locked.replaceTransaction_mined
  | processPending env =>
    exact h.kept (Locked.minedRows_kept hsettled htouched
      (Locked.processSinglePending_steady hshown).rows fun _ => hwaits)
      Locked.processSinglePending_mined
  | processInmempool env => exact Locked.processSingleInmempool_awaited h hsettled
  | processMined env => exact Locked.processSingleMined_awaited h
  | restart | included => exact h

theorem Awaits.step (h : s.Awaits) (hs : s.Settled .landed) (horderly : s.Orderly e) :
    (s.step e).Awaits := by
  have hrecorded : (s.step e).db.MinedRecorded :=
    (step_history s e).minedRecorded h.recorded fun _ => owned_unmined hs
  refine ⟨hrecorded, fun l hl => ?_⟩
  obtain ⟨hqueue, hdb, -⟩ := lock_some hl
  rw [step_relayer]
  cases he : e.isRestart with
  | true =>
    cases e with
    | restart env =>
      obtain ⟨onchainNonce, -, hread⟩ := startupTransactionsQueues_queue hqueue
      have hread : l.queue = repopulatedQueue s.relayer env l.db onchainNonce := by
        rw [hdb]
        exact hread
      exact Locked.repopulated_awaited (hdb ▸ hrecorded) hread
    | _ => cases he
  | false =>
    rcases hbefore : s.lock with _ | before
    · obtain ⟨-, hsame⟩ := step_idle he hbefore
      unfold lock at hbefore
      rw [hsame.symm.trans hqueue] at hbefore
      cases hbefore
    · obtain ⟨hdb', hqueue'⟩ := step_perform he hbefore
      have hnew := unused_of_fresh horderly.fresh hbefore
      have hawaited := perform_awaited (h.locked before hbefore) (hs.locked before hbefore) hnew
      have hsame : (perform before e).queue = l.queue :=
        Option.some.inj (hqueue'.symm.trans hqueue)
      have hrows : l.db = (perform before e).db := hdb.trans hdb'
      exact ⟨fun r hr => hsame ▸ hawaited.rows r (hrows ▸ hr), hsame ▸ hawaited.ready⟩

end TransactionsQueues
end Rrelayer
