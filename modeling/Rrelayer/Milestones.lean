import Rrelayer.QueueCopies
import Rrelayer.QueueConservation
import Rrelayer.MirroredRuns
import Rrelayer.ExclusiveCompetition
import Rrelayer.MinedPasses

/-! Milestones of a transaction: statuses by which it has left the pending queue and the mempool.
An operation that gives a row such a status takes the transaction out of the containers of those
that wait for it. -/
namespace Rrelayer

/-- Statuses that come after pending and in the mempool. -/
structure Milestone where
  reached : TransactionStatus → Bool
  pending : reached .pending = false
  inmempool : reached .inmempool = false

variable {m : Milestone}

namespace TransactionsQueue

/-- What is pending or in the mempool. -/
def waitingIds (q : TransactionsQueue) : List TransactionId :=
  q.pendingTransactions.map (·.id) ++ q.entryIds

end TransactionsQueue

/-- The transactions in the containers of those that have not reached the milestone. -/
def Milestone.held (m : Milestone) (q : TransactionsQueue) : List TransactionId :=
  q.waitingIds ++ if m.reached .mined then [] else q.minedTransactions.map (·.id)

theorem Milestone.held_subset {q : TransactionsQueue} {x : TransactionId} (h : x ∈ m.held q) :
    x ∈ q.ids := by
  unfold TransactionsQueue.ids
  rw [← List.append_assoc]
  rcases List.mem_append.mp h with h | h
  · exact List.mem_append_left _ h
  · split at h
    · cases h
    · exact List.mem_append_right _ h

namespace Db

variable {db db' db'' : Db} {ids ids' : TransactionId → Prop} {x y : TransactionId}

/-- A row of the transaction has reached the milestone. -/
def Reached (m : Milestone) (db : Db) (x : TransactionId) : Prop :=
  ∃ r ∈ db.rows, r.id = x ∧ m.reached r.status = true

/-- A change that brings no transaction there but those in `ids`. -/
def Reaches (m : Milestone) (ids : TransactionId → Prop) (db db' : Db) : Prop :=
  ∀ x, db'.Reached m x → db.Reached m x ∨ ids x

theorem Reaches.refl (db : Db) : db.Reaches m ids db := fun _ h => .inl h

theorem Reaches.trans (h : db.Reaches m ids db') (h' : db'.Reaches m ids db'') :
    db.Reaches m ids db'' := fun x hx => (h' x hx).elim (h x) .inr

/-- A statement on one row, by the status it writes. -/
theorem reaches_update {f g : Row → Row} (hid : ∀ r, (f r).id = r.id)
    (hstatus : ids y ∨ ∀ r, (f r).status = r.status ∨ m.reached (f r).status = false) :
    db.Reaches m ids ((db.update y f).log y g) := by
  rintro x ⟨r', hr', rfl, hfinal⟩
  obtain ⟨r, hr, rfl⟩ := List.mem_map.mp hr'
  by_cases hsame : (r.id == y) = true
  · rw [if_pos hsame] at hfinal ⊢
    rcases hstatus with hy | hstatus
    · exact .inr (by rw [hid r, beq_iff_eq.mp hsame]; exact hy)
    · rcases hstatus r with hkept | hopen
      · exact .inl ⟨r, hr, (hid r).symm, hkept ▸ hfinal⟩
      · rw [hopen] at hfinal
        cases hfinal
  · rw [if_neg hsame] at hfinal ⊢
    exact .inl ⟨r, hr, rfl, hfinal⟩

theorem reaches_insert {r : Row} (hr : ids r.id ∨ m.reached r.status = false)
    (h : db.insert r = some db') : db.Reaches m ids db' := by
  unfold insert at h
  split at h
  · cases h
  · cases h
    rintro x ⟨r', hr', rfl, hfinal⟩
    rcases List.mem_append.mp hr' with hr' | hr'
    · exact .inl ⟨r', hr', rfl, hfinal⟩
    · rw [List.mem_singleton.mp hr'] at hfinal ⊢
      rcases hr with hx | hopen
      · exact .inr hx
      · rw [hopen] at hfinal
        cases hfinal

theorem saved_reaches {relayerId : RelayerId} {t : Transaction} (ht : m.reached t.status = false)
    (h : db.saveTransaction relayerId t = some db') : db.Reaches m ids db' := by
  obtain ⟨db₁, hinsert, rfl⟩ := Option.map_eq_some_iff.mp h
  have hinserted : db.Reaches m ids db₁ := reaches_insert (.inr ht) hinsert
  exact hinserted.trans fun _ hx => .inl hx

theorem failedOnSend_reaches {relayerId : RelayerId} {t : Transaction} {reason : String}
    {now : DateTime} (ht : ids t.id ∨ m.reached t.status = false)
    (h : db.transactionFailedOnSend relayerId t reason now = some db') : db.Reaches m ids db' := by
  obtain ⟨db₁, hinsert, rfl⟩ := Option.map_eq_some_iff.mp h
  have hinserted : db.Reaches m ids db₁ := reaches_insert ht hinsert
  exact hinserted.trans fun _ hx => .inl hx

theorem attempt_reaches {relayerId : RelayerId} {t : Transaction} {hash : TransactionHash}
    {gas : GasPriceResult} {blobGas : Option BlobGasPriceResult} {legacy : Bool} {now : DateTime}
    (ht : m.reached t.status = false)
    (h : db.transactionBroadcastAttempt relayerId t hash gas blobGas legacy now = some db') :
    db.Reaches m ids db' := by
  unfold transactionBroadcastAttempt at h
  dsimp only at h
  split at h
  · cases h
    exact reaches_update (fun _ => rfl) (.inr fun _ => .inr ht)
  · obtain ⟨db₁, hinsert, rfl⟩ := Option.map_eq_some_iff.mp h
    have hinserted : db.Reaches m ids db₁ := reaches_insert (.inr ht) hinsert
    exact hinserted.trans fun _ hx => .inl hx

theorem sent_reaches {hash : TransactionHash} {gas : GasPriceResult}
    {blobGas : Option BlobGasPriceResult} {legacy : Bool} {now : DateTime} :
    db.Reaches m ids (db.transactionSent y hash gas blobGas legacy now) :=
  reaches_update (fun _ => rfl) (.inr fun _ => .inr m.inmempool)

theorem recoverLanded_reaches {relayerId : RelayerId} {hash : TransactionHash}
    {gas : GasPriceResult} {blobGas : Option BlobGasPriceResult} {legacy : Bool} {now : DateTime}
    (h : db.recoverLandedTransactionAttempt relayerId y hash gas blobGas legacy now = (true, db')) :
    db.Reaches m ids db' := by
  rw [recoverLanded_true h]
  exact reaches_update (g := fun r => { r with requestDigest := none }) (fun _ => rfl)
    (.inr fun _ => .inr m.inmempool)

theorem updateNonce_reaches {nonce : ℕ} :
    db.Reaches m ids (db.transactionUpdateNonce y nonce) :=
  reaches_update (fun _ => rfl) (.inr fun _ => .inl rfl)

theorem update_reaches {t : Transaction} (ht : ids t.id ∨ m.reached t.status = false)
    (now : DateTime) : db.Reaches m ids (db.transactionUpdate t now) :=
  reaches_update (fun _ => rfl) (ht.imp id fun h _ => .inr h)

end Db

/-- The copies that are held are those of transactions in `held`; the pending ones are pending and
those of the entries in the mempool. -/
abbrev TransactionsQueue.Shown (m : Milestone) (held : TransactionId → Prop)
    (q : TransactionsQueue) : Prop :=
  q.Copies (fun t => held t.id ∧ t.status = .pending) (fun t => held t.id ∧ t.status = .inmempool)
    fun t => m.reached .mined = false → held t.id

theorem TransactionsQueue.Shown.held_of_mem {held : TransactionId → Prop} {q : TransactionsQueue}
    (h : q.Shown m held) {x : TransactionId} (hx : x ∈ m.held q) : held x := by
  rcases List.mem_append.mp hx with hx | hx
  · rcases List.mem_append.mp hx with hx | hx
    · obtain ⟨t, ht, rfl⟩ := List.mem_map.mp hx
      exact (h.pending t ht).1
    · obtain ⟨c, hc, t, ht, rfl⟩ := mem_entryIds.mp hx
      exact (h.sent c hc t ht).1
  · split at hx
    · cases hx
    · rename_i hmined
      obtain ⟨t, ht, rfl⟩ := List.mem_map.mp hx
      exact h.mined t ht (by simpa using hmined)

/-- Whatever is held may be named. -/
theorem TransactionsQueue.Shown.widen {held held' : TransactionId → Prop} {q : TransactionsQueue}
    (h : q.Shown m held) (hheld : ∀ x ∈ m.held q, held' x) : q.Shown m held' := by
  refine ⟨fun t ht => ⟨hheld _ ?_, (h.pending t ht).2⟩,
    fun c hc t ht => ⟨hheld _ ?_, (h.sent c hc t ht).2⟩, fun t ht hmined => hheld _ ?_⟩
  · exact List.mem_append_left _ (List.mem_append_left _ (List.mem_map_of_mem ht))
  · exact List.mem_append_left _ (List.mem_append_right _ (mem_entryIds.mpr ⟨c, hc, t, ht, rfl⟩))
  · refine List.mem_append_right _ ?_
    rw [if_neg (by simp [hmined])]
    exact List.mem_map_of_mem ht

namespace Locked

variable {l l' : Locked} {held ids : TransactionId → Prop}

/-- What an operation leaves that holds at most the transactions in `held` and brings at most those
in `ids` to the milestone. -/
structure Steady (m : Milestone) (held ids : TransactionId → Prop) (l l' : Locked) : Prop where
  rows : l.db.Reaches m ids l'.db
  shown : l'.queue.Shown m held

theorem Steady.refl (h : l.queue.Shown m held) : l.Steady m held ids l := ⟨.refl _, h⟩

theorem Steady.trans {l'' : Locked} (h : l.Steady m held ids l') (h' : l'.Steady m held ids l'') :
    l.Steady m held ids l'' := ⟨h.rows.trans h'.rows, h'.shown⟩

section Send

variable {env : SendEnv} {t : Transaction}

theorem send_steady (h : l.queue.Shown m held) (ht : m.reached t.status = false) :
    l.Steady m held ids (l.send env t).2.1 := by
  have hslot := (prepareSend_spec l.queue.toSendConfig env t).1
  have hends := l.send_ends env t
  generalize l.send env t = o at hends ⊢
  cases hends with
  | unprepared | unrecorded => exact .refl h
  | refused hp hattempt | unmarked hp hattempt =>
    rw [hp] at hslot
    exact ⟨Db.attempt_reaches (hslot.status ▸ ht) hattempt, h⟩
  | marked hp hattempt =>
    rw [hp] at hslot
    exact ⟨(Db.attempt_reaches (hslot.status ▸ ht) hattempt).trans Db.sent_reaches, h⟩

end Send

section Pending

variable {env : PendingEnv} {t : Transaction}

theorem moveSent_steady (h : l.queue.Shown m held) (ht : held t.id)
    {sent : TransactionSentWithRelayer} {result : ProcessResult ProcessPendingStatus} :
    l.Steady m held ids (l.moveSent env t sent result).1 := by
  unfold moveSent
  rcases hmove : l.queue.movePendingToInmempool t sent env.nowMoved with e | q
  · exact .refl h
  · exact ⟨.refl _, h.movePending ⟨ht, rfl⟩ hmove⟩

theorem pendingFailed_steady (h : l.queue.Shown m held) (ht : held t.id)
    {error : TransactionQueueSendTransactionError} :
    l.Steady m held ids (l.pendingFailed env t error).1 := by
  have hleaves := l.pendingFailed_leaves env t error
  generalize (l.pendingFailed env t error).1 = l' at hleaves ⊢
  cases hleaves with
  | kept => exact .refl h
  | closedOut reason =>
    refine ⟨Db.update_reaches (t := l.closedOut t reason) (.inr m.pending) _, ?_⟩
    exact h.updatePending ⟨ht, rfl⟩
  | reassigned newNonce =>
    have hshown : (l.advanceTransactionNonce t.id newNonce).queue.Shown m held :=
      ⟨h.pending, h.sent, h.mined⟩
    exact ⟨Db.updateNonce_reaches, hshown.updatePendingNonce fun _ _ ht => ht⟩
  | @mined attempt gas =>
    have hsent : l.Steady m held ids { l with
        db := l.db.transactionSent t.id attempt.hash gas attempt.sentWithBlobGas
          l.queue.isLegacyTransactions env.nowWrite } := ⟨Db.sent_reaches, h⟩
    exact hsent.trans (moveSent_steady hsent.shown ht)
  | @recovered attempt gas db _ _ hserved =>
    have hrecovered : l.Steady m held ids { l with db := db } :=
      ⟨Db.recoverLanded_reaches hserved, h⟩
    exact hrecovered.trans (moveSent_steady hrecovered.shown ht)

theorem processSinglePending_steady (h : l.queue.Shown m held) :
    l.Steady m held ids (l.processSinglePending env).1 := by
  unfold processSinglePending
  split
  · exact .refl h
  · rcases hnext : l.queue.getNextPendingTransaction with _ | t
    · exact .refl h
    · dsimp only
      split
      · exact .refl h
      · obtain ⟨hheld, hstatus⟩ := h.pending t (List.mem_of_head? hnext)
        have hslot := pendingCopy_sameSlot l env t
        have hpending : m.reached (l.pendingCopy env t).status = false := by
          rw [hslot.status, hstatus]
          exact m.pending
        have hsteady : l.Steady m held ids (l.send env.send (l.pendingCopy env t)).2.1 :=
          send_steady h hpending
        have hid := (l.send_spec env.send (l.pendingCopy env t)).id
        rcases hsend : l.send env.send (l.pendingCopy env t) with ⟨t', l', e | sent⟩
        · rw [hsend] at hsteady hid
          have ht' : held t'.id := (hid.trans hslot.id) ▸ hheld
          exact hsteady.trans (pendingFailed_steady hsteady.shown ht')
        · rw [hsend] at hsteady hid
          have ht' : held t'.id := (hid.trans hslot.id) ▸ hheld
          exact hsteady.trans (moveSent_steady hsteady.shown ht')

end Pending

section Bump

variable {env : InmempoolEnv} {t : Transaction}

theorem bumpFailed_steady (h : l.queue.Shown m held)
    {error : TransactionQueueSendTransactionError} :
    l.Steady m held ids (l.bumpFailed env t error).1 := by
  have hleaves := l.bumpFailed_leaves env t error
  generalize (l.bumpFailed env t error).1 = l' at hleaves ⊢
  cases hleaves with
  | kept => exact .refl h
  | reassigned newNonce =>
    have hshown : (l.advanceTransactionNonce t.id newNonce).queue.Shown m held :=
      ⟨h.pending, h.sent, h.mined⟩
    exact ⟨Db.updateNonce_reaches, hshown.updateInmempoolNonce fun _ _ ht => ht⟩

theorem bumpSent_steady (h : l.queue.Shown m held) {wasNoop : Bool}
    {sent : TransactionSentWithRelayer} :
    l.Steady m held ids (l.bumpSent env t wasNoop sent).1 := by
  have hgas : (l.queue.updateInmempoolTransactionGas sent env.nowWrite).Shown m held :=
    h.updateFront fun _ hu => hu
  unfold bumpSent
  dsimp only
  split
  · exact ⟨.refl _, hgas.updateFront fun _ hu => hu⟩
  · exact ⟨.refl _, hgas⟩

theorem bumpInmempool_steady (h : l.queue.Shown m held) (ht : t.status = .inmempool) :
    l.Steady m held ids (l.bumpInmempool env t).1 := by
  have hsteady : l.Steady m held ids (l.send env.send t).2.1 := by
    apply send_steady h
    rw [ht]
    exact m.inmempool
  unfold bumpInmempool
  rcases hsend : l.send env.send t with ⟨bumped, l', e | sent⟩
  · rw [hsend] at hsteady
    exact hsteady.trans (bumpFailed_steady hsteady.shown)
  · rw [hsend] at hsteady
    exact hsteady.trans (bumpSent_steady hsteady.shown)

end Bump

section Compete

variable {env : CompeteEnv} {original competitor t : Transaction}

theorem sendCompetitor_steady (h : l.queue.Shown m held) (horiginal : original.status = .inmempool)
    (hcompetitor : competitor.status = .pending) (hid : held competitor.id)
    {type : CompetitionType} :
    l.Steady m held ids (l.sendCompetitor env original competitor type).1 := by
  have hsteady : l.Steady m held ids (l.send env.send competitor).2.1 := by
    apply send_steady h
    rw [hcompetitor]
    exact m.pending
  have hsentId := (l.send_spec env.send competitor).id
  unfold sendCompetitor
  rcases hsend : l.send env.send competitor with ⟨sentCompetitor, l', e | sent⟩
  · rw [hsend] at hsteady
    cases e with
    | transactionSendError e =>
      dsimp only
      split
      · split <;> exact hsteady
      · exact hsteady
    | _ => exact hsteady
  · rw [hsend] at hsteady hsentId
    obtain ⟨hrows, hshown⟩ := hsteady
    have hheld : held sentCompetitor.id := hsentId ▸ hid
    have hlinked : l'.db.Reaches m ids (l'.db.transactionUpdate
        { original with cancelledByTransactionId := some competitor.id } env.nowWrite) := by
      apply Db.update_reaches
      right
      rw [horiginal]
      exact m.inmempool
    dsimp only
    split
    · exact ⟨hrows, hshown⟩
    · split
      · exact ⟨hrows.trans hlinked, hshown⟩
      · rename_i q hadd
        refine ⟨hrows.trans hlinked, hshown.addCompetitor (fun _ _ hu => hu) ?_ hadd⟩
        exact ⟨hheld, rfl⟩

theorem rewritePending_steady (h : l.queue.Shown m held) (ht : held t.id ∧ t.status = .pending)
    (hrewrite : l.rewritePending env t = some l') : l.Steady m held ids l' := by
  unfold rewritePending at hrewrite
  split at hrewrite
  · cases hrewrite
    refine ⟨Db.update_reaches (.inr ?_) _, h.updatePending ht⟩
    rw [ht.2]
    exact m.pending
  · cases hrewrite

theorem raced_shown (h : l.queue.Shown m held) {id : TransactionId}
    (hraced : l.raced env id = some original) : original.status = .inmempool := by
  obtain ⟨-, -, heditable⟩ := raced_some hraced
  obtain ⟨c, hfind, rfl, -⟩ := TransactionsQueue.getEditable_inmempool heditable
  exact (h.sent c (List.mem_of_find?_eq_some hfind) _ (List.mem_cons_self ..)).2

theorem cancelTransaction_steady (h : l.queue.Shown m held) (hnew : held env.newId)
    (id : TransactionId) : l.Steady m held ids (l.cancelTransaction env id).1 := by
  obtain hkept | ⟨t, heditable, hrewrite⟩ | ⟨original, competitor, hraced, hcompetitor, hsent⟩ :=
    l.cancelTransaction_cases env id
  · rw [hkept]
    exact .refl h
  · obtain ⟨hfind, -⟩ := TransactionsQueue.getEditable_pending heditable
    have ht := h.pending t (List.mem_of_find?_eq_some hfind)
    exact rewritePending_steady (t := l.cancelledPending t) h ⟨ht.1, rfl⟩ hrewrite
  · have hcompetes := cancelCompetitor_competes hcompetitor
    rw [hsent]
    exact sendCompetitor_steady h (raced_shown h hraced) hcompetes.status (hcompetes.id ▸ hnew)

theorem replaceTransaction_steady (h : l.queue.Shown m held) (hnew : held env.newId)
    (request : RelayTransactionRequest) (id : TransactionId) :
    l.Steady m held ids (l.replaceTransaction env request id).1 := by
  obtain hkept | ⟨t, blobs, heditable, hrewrite⟩ |
      ⟨original, competitor, hraced, hcompetitor, hsent⟩ :=
    l.replaceTransaction_cases env request id
  · rw [hkept]
    exact .refl h
  · obtain ⟨hfind, -⟩ := TransactionsQueue.getEditable_pending heditable
    have ht := h.pending t (List.mem_of_find?_eq_some hfind)
    exact rewritePending_steady (t := transactionReplace request t blobs) h ht hrewrite
  · have hcompetes := replaceCompetitor_competes hcompetitor
    rw [hsent]
    exact sendCompetitor_steady h (raced_shown h hraced) hcompetes.status (hcompetes.id ▸ hnew)

end Compete

end Locked

namespace TransactionsQueue

variable {q q' : TransactionsQueue} {id x : TransactionId} {receipt : Receipt} {now : DateTime}
  {r : CompetitionResolutionResult}

/-- Winner and loser of a race are two transactions, and the winner shows the status it won with. -/
theorem resolveCompetition_apart {relayAddress : EvmAddress} {c : CompetitiveTransaction}
    (hnodup : c.ids.Nodup) (h : resolveCompetition relayAddress c id receipt now = some r) :
    r.winner.status = r.winnerStatus ∧ ∀ loser ∈ r.loser, loser.id ≠ r.winner.id := by
  obtain ⟨original, competitive⟩ := c
  unfold resolveCompetition at h
  split at h
  · cases h
    refine ⟨rfl, fun loser hloser => ?_⟩
    obtain ⟨⟨competitor, type⟩, rfl, rfl⟩ := Option.map_eq_some_iff.mp hloser
    have hne : original.id ≠ competitor.id := by
      simpa [CompetitiveTransaction.ids, CompetitiveTransaction.transactions] using hnodup
    exact hne.symm
  · split at h
    · rename_i competitor type hcompetitive
      split at h
      · cases h
        obtain rfl : competitive = some (competitor, type) := hcompetitive
        refine ⟨rfl, fun loser hloser => ?_⟩
        obtain rfl := Option.mem_some.mp hloser
        have hne : original.id ≠ competitor.id := by
          simpa [CompetitiveTransaction.ids, CompetitiveTransaction.transactions] using hnodup
        cases type
        · exact hne
        · exact hne
      · cases h
    · cases h

/-- What a decided race leaves in memory of its two transactions: a winner that has not reached the
milestone. -/
theorem Conserved.race_leaves (h : q.Conserved)
    (hmove : q.moveInmempoolToMining id receipt now = .ok (r, q')) :
    (m.reached r.winnerStatus = true → r.winner.id ∉ m.held q') ∧
      ∀ loser ∈ r.loser, loser.id ∉ m.held q' := by
  unfold moveInmempoolToMining at hmove
  split at hmove
  · cases hmove
  · rename_i front rest hlist
    split at hmove
    · cases hmove
    · rename_i resolution hresolve
      cases hmove
      have hnodup := h.ids
      unfold TransactionsQueue.ids entryIds at hnodup
      rw [hlist, List.flatMap_cons, List.append_assoc] at hnodup
      obtain ⟨-, hentries, hpending⟩ := List.nodup_append.mp hnodup
      obtain ⟨hfront, -, hrest⟩ := List.nodup_append.mp hentries
      obtain ⟨hstatus, hapart⟩ := resolveCompetition_apart hfront hresolve
      obtain ⟨-, hwinner, hloser⟩ := resolveCompetition_slots hresolve
      have hmember {t : Transaction} (ht : t.slot ∈ front.transactions.map (·.slot)) :
          t.id ∈ front.ids := by
        obtain ⟨u, hu, hslot⟩ := List.mem_map.mp ht
        exact List.mem_map.mpr ⟨u, hu, congrArg Prod.fst hslot⟩
      -- A member of the front stands nowhere else, unless the mined map takes it in.
      have hgone {x : TransactionId} (hx : x ∈ front.ids)
          (hnot : m.reached .mined = false → r.winner.status = .mined → x ≠ r.winner.id) :
          x ∉ m.held { q with
            inmempoolTransactions := rest
            minedTransactions := if r.winner.status == .mined then
              insertMined q.minedTransactions r.winner else q.minedTransactions } := by
        intro hmem
        rcases List.mem_append.mp hmem with hmem | hmem
        · rcases List.mem_append.mp hmem with hmem | hmem
          · exact hpending x hmem x (List.mem_append_left _ hx) rfl
          · exact hrest x hx x (List.mem_append_left _ hmem) rfl
        · split at hmem
          · cases hmem
          · rename_i hcounts
            obtain ⟨t, ht, rfl⟩ := List.mem_map.mp hmem
            have hold {u : Transaction} (hu : u ∈ q.minedTransactions) (hid : u.id = t.id) :
                False := hrest t.id hx t.id
              (List.mem_append_right _ (List.mem_map.mpr ⟨u, hu, hid⟩)) rfl
            dsimp only at ht
            split at ht
            · rename_i hmined
              rcases List.mem_append.mp ht with ht | ht
              · exact hold (List.mem_filter.mp ht).1 rfl
              · rw [List.mem_singleton.mp ht] at hnot
                exact hnot (by simpa using hcounts) (by simpa using hmined) rfl
            · exact hold ht rfl
      refine ⟨fun hreached => ?_, fun loser hl => ?_⟩
      · refine hgone (hmember hwinner) fun hcounts hmined => ?_
        rw [← hstatus, hmined, hcounts] at hreached
        cases hreached
      · exact hgone (hmember (hloser loser hl)) fun _ _ => hapart loser hl

/-- A confirmed transaction is in no container. -/
theorem Conserved.confirmed_leaves (h : q.Conserved) {t : Transaction}
    (ht : t ∈ q.minedTransactions) : t.id ∉ (q.moveMiningToConfirmed t.id).ids := by
  obtain ⟨-, hentries, hpending⟩ := List.nodup_append.mp h.ids
  obtain ⟨-, -, hsent⟩ := List.nodup_append.mp hentries
  have hmined : t.id ∈ q.minedTransactions.map (·.id) := List.mem_map_of_mem ht
  intro hmem
  rcases List.mem_append.mp hmem with hmem | hmem
  · exact hpending t.id hmem t.id (List.mem_append_right _ hmined) rfl
  · rcases List.mem_append.mp hmem with hmem | hmem
    · exact hsent t.id hmem t.id hmined rfl
    · obtain ⟨u, hu, hid⟩ := List.mem_map.mp hmem
      have hne := (List.mem_filter.mp hu).2
      simp [hid] at hne

end TransactionsQueue

theorem Unused.not_mem_ids {db : Db} {q : TransactionsQueue} {x : TransactionId}
    (h : Unused db q x) : x ∉ q.ids := by
  intro hmem
  rcases List.mem_append.mp hmem with hmem | hmem
  · obtain ⟨t, ht, hid⟩ := List.mem_map.mp hmem
    exact h.pending t ht hid
  · rcases List.mem_append.mp hmem with hmem | hmem
    · exact h.not_mem_entryIds hmem
    · obtain ⟨t, ht, hid⟩ := List.mem_map.mp hmem
      exact h.mined t ht hid

namespace Locked

/-- Memory holds every transaction once, shows what it waits for, and does not hold a transaction
that has reached the milestone. -/
structure Settled (m : Milestone) (l : Locked) : Prop where
  key : l.db.PrimaryKey
  conserved : l.queue.Conserved
  shown : l.queue.Shown m fun _ => True
  dropped : ∀ x, l.db.Reached m x → x ∉ m.held l.queue

variable {l l' : Locked} {newId : Option TransactionId}

/-- What an operation that brings in `newId` may hold. -/
def MayHold (m : Milestone) (l : Locked) (newId : Option TransactionId) (x : TransactionId) : Prop :=
  x ∈ newId ∨ x ∈ m.held l.queue

theorem Settled.mayHold (h : l.Settled m) (newId : Option TransactionId) :
    l.queue.Shown m (l.MayHold m newId) := h.shown.widen fun _ hx => .inr hx

/-- An operation that only brings transactions to the milestone that it drops. -/
theorem Settled.of_steady (h : l.Settled m)
    (hsteady : l.Steady m (l.MayHold m newId) (· ∉ m.held l'.queue) l') (hkey : l'.db.PrimaryKey)
    (hkeeps : TransactionsQueue.Keeps newId l.queue l'.queue)
    (hnew : ∀ x ∈ newId, Unused l.db l.queue x) : l'.Settled m where
  key := hkey
  conserved := hkeeps.conserved h.conserved fun x hx => (hnew x hx).not_mem_ids
  shown := hsteady.shown.widen fun _ _ => trivial
  dropped x hx := by
    rcases hsteady.rows x hx with hbefore | hdropped
    · intro hmem
      rcases hsteady.shown.held_of_mem hmem with hmem | hmem
      · obtain ⟨r, hr, hid, -⟩ := hbefore
        exact (hnew x hmem).absent r hr hid
      · exact h.dropped x hbefore hmem
    · exact hdropped

theorem saveResolution_reaches {ids : TransactionId → Prop} {env : InmempoolEnv} {receipt : Receipt}
    {r : CompetitionResolutionResult} (hwinner : m.reached r.winnerStatus = true → ids r.winner.id)
    (hloser : ∀ loser ∈ r.loser, ids loser.id) :
    l.db.Reaches m ids (l.saveResolution env receipt r).1.db := by
  -- The winner's row gets the status it has won with.
  have hwritten {f g : Row → Row} (hid : ∀ r, (f r).id = r.id)
      (hstatus : ∀ row, (f row).status = r.winnerStatus) :
      l.db.Reaches m ids ((l.db.update r.winner.id f).log r.winner.id g) := by
    apply Db.reaches_update hid
    cases hreached : m.reached r.winnerStatus with
    | true => exact .inl (hwinner hreached)
    | false =>
      right
      intro row
      rw [hstatus row]
      exact .inr hreached
  unfold saveResolution
  split
  · rename_i hstatus
    split
    · exact .refl _
    · have hmined : l.db.Reaches m ids (l.db.transactionMined r.winner receipt env.nowWrite) :=
        hwritten (fun _ => rfl) fun _ => hstatus.symm
      dsimp only
      split
      · exact hmined
      · rename_i loser hr
        split
        · exact hmined
        · exact hmined.trans (Db.update_reaches (.inl (hloser loser hr)) _)
  · rename_i hstatus
    split
    · exact .refl _
    · exact hwritten (fun _ => rfl) fun _ => hstatus.symm
  · rename_i hstatus
    split
    · exact .refl _
    · exact hwritten (fun _ => rfl) fun _ => hstatus.symm
  · exact .refl _

theorem resolveInmempool_steady {held : TransactionId → Prop} (h : l.queue.Shown m held)
    (hconserved : l.queue.Conserved) {env : InmempoolEnv} {t : Transaction} {receipt : Receipt} :
    l.Steady m held (· ∉ m.held (l.resolveInmempool env t receipt).1.queue)
      (l.resolveInmempool env t receipt).1 := by
  unfold resolveInmempool
  rcases hmove : l.queue.moveInmempoolToMining t.id receipt env.now with e | ⟨r, q⟩
  · exact .refl h
  · obtain ⟨hwinner, hloser⟩ := hconserved.race_leaves (m := m) hmove
    obtain ⟨hqueue, -, -⟩ := saveResolution_frame { l with queue := q } env receipt r
      (P := fun _ _ => True) trivial fun _ _ => trivial
    have hrows := @saveResolution_reaches m { l with queue := q } (· ∉ m.held q) env receipt r
      hwinner hloser
    have hheld : held r.winner.id := by
      obtain ⟨⟨front, hfront, hresolve⟩, -, -⟩ := moveInmempoolToMining_lists hmove
      obtain ⟨-, hslot, -⟩ := TransactionsQueue.resolveCompetition_slots hresolve
      obtain ⟨u, hu, huslot⟩ := List.mem_map.mp hslot
      have hid : u.id = r.winner.id := congrArg Prod.fst huslot
      exact hid ▸ (h.sent front (List.mem_of_head? hfront) u hu).1
    dsimp only
    rw [hqueue]
    refine ⟨hrows, ?_⟩
    rw [hqueue]
    exact h.moveInmempool (fun _ => hheld) hmove

theorem processSingleInmempool_steady {held : TransactionId → Prop} (h : l.queue.Shown m held)
    (hconserved : l.queue.Conserved) (env : InmempoolEnv) :
    l.Steady m held (· ∉ m.held (l.processSingleInmempool env).1.queue)
      (l.processSingleInmempool env).1 := by
  rcases hpolled : l.polled env with _ | ⟨t, hash⟩
  · rw [processSingleInmempool_unpolled hpolled]
    exact .refl h
  · obtain ⟨-, -, front, rest, hfront, ht⟩ := polled_some hpolled
    have hsent : t.status = .inmempool := by
      refine (h.sent front (by simp [hfront]) t ?_).2
      exact ht ▸ active_mem_transactions front
    rw [processSingleInmempool_polled hpolled]
    split
    · exact .refl h
    · exact resolveInmempool_steady h hconserved
    · split
      · exact bumpInmempool_steady h hsent
      · exact .refl h

theorem processSingleMined_steady {held : TransactionId → Prop} (h : l.queue.Shown m held)
    (hconserved : l.queue.Conserved) (env : MinedEnv) :
    l.Steady m held (· ∉ m.held (l.processSingleMined env).1.queue)
      (l.processSingleMined env).1 := by
  rcases l.processSingleMined_cases env with hkept | ⟨t, hnext, hconfirmed⟩
  · rw [hkept]
    exact .refl h
  · rw [hconfirmed]
    refine ⟨Db.reaches_update (fun _ => rfl) (.inl ?_), h.confirmed⟩
    intro hmem
    exact hconserved.confirmed_leaves (getNextMined_mem hnext) (m.held_subset hmem)

theorem addTransaction_steady (h : l.Settled m) {env : AdmissionEnv} {toSend : TransactionToSend}
    (hnew : Unused l.db l.queue toSend.id) : l.Steady m (l.MayHold m (some toSend.id))
      (· ∉ m.held (l.addTransaction env toSend).1.queue) (l.addTransaction env toSend).1 := by
  have hleaves := l.addTransaction_leaves env toSend
  generalize (l.addTransaction env toSend).1 = l' at hleaves ⊢
  have hshown (manager : NonceManager) :
      (l.withManager manager).queue.Shown m (l.MayHold m (some toSend.id)) :=
    have h := h.mayHold (some toSend.id)
    ⟨h.pending, h.sent, h.mined⟩
  cases hleaves with
  | kept manager => exact ⟨.refl _, hshown manager⟩
  | rejected manager hid _ hsaved =>
    refine ⟨Db.failedOnSend_reaches (.inl ?_) hsaved, hshown manager⟩
    intro hmem
    exact hnew.not_mem_ids (hid ▸ m.held_subset hmem)
  | saved manager hid _ hstatus _ _ hsaved =>
    have hheld : l.MayHold m (some toSend.id) _ := .inl (congrArg some hid).symm
    refine ⟨Db.saved_reaches ?_ hsaved, (hshown manager).addPending ⟨hheld, hstatus⟩⟩
    rw [hstatus]
    exact m.pending

end Locked

section Restart

variable {relayer : Relayer} {env : StartupEnv} {db : Db} {x : TransactionId}

/-- What a startup reads back into the containers of those that wait has not reached the
milestone. -/
theorem mem_repopulated_held {onchainNonce : ℕ}
    (hx : x ∈ m.held (repopulatedQueue relayer env db onchainNonce)) :
    ∃ r ∈ db.rows, r.id = x ∧ m.reached r.status = false := by
  have hread {status : TransactionStatus} (hstatus : m.reached status = false)
      (hx : x ∈ (db.getTransactionsByStatusForRelayer relayer.id status).map (·.id)) :
      ∃ r ∈ db.rows, r.id = x ∧ m.reached r.status = false := by
    obtain ⟨t, ht, rfl⟩ := List.mem_map.mp hx
    obtain ⟨r, hr, rfl, rfl⟩ := Db.mem_getTransactionsByStatus ht
    exact ⟨r, hr, rfl, hstatus⟩
  rcases List.mem_append.mp hx with hx | hx
  · rcases List.mem_append.mp hx with hx | hx
    · have hperm := (List.perm_insertionSort (fun a b : Transaction => a.nonce ≤ b.nonce)
        (db.getTransactionsByStatusForRelayer relayer.id .pending)).map (·.id)
      exact @hread .pending m.pending (hperm.mem_iff.mp hx)
    · exact @hread .inmempool m.inmempool (entryIds_rows hx)
  · split at hx
    · cases hx
    · rename_i hmined
      exact @hread .mined (by simpa using hmined) hx

theorem repopulatedQueue_shown (onchainNonce : ℕ) :
    (repopulatedQueue relayer env db onchainNonce).Shown m fun _ => True where
  pending t ht := by
    obtain ⟨r, -, hstatus, rfl⟩ := Db.mem_getTransactionsByStatus ((List.mem_insertionSort _).mp ht)
    exact ⟨trivial, hstatus⟩
  sent c hc t ht := by
    obtain ⟨u, hu, heq⟩ := mem_repopulateLoop (fun _ hu => hu) hc t ht
    obtain ⟨r, -, hstatus, rfl⟩ := Db.mem_getTransactionsByStatus hu
    rw [heq]
    exact ⟨trivial, hstatus⟩
  mined _ _ _ := trivial

end Restart

namespace TransactionsQueues

variable {s : TransactionsQueues} {e : Event} {x : TransactionId} {r : Row}

/-- Ids are fresh, and a restart reads entries back that share no transaction. -/
structure Orderly (s : TransactionsQueues) (e : Event) : Prop where
  fresh : s.FreshId e
  paired : e.isRestart = true →
    PairedLinks ((s.step e).db.getTransactionsByStatusForRelayer s.relayer.id .inmempool)

structure Settled (m : Milestone) (s : TransactionsQueues) : Prop where
  key : s.db.PrimaryKey
  locked : ∀ l, s.lock = some l → l.Settled m

theorem unused_of_fresh (hfresh : s.FreshId e) {l : Locked} (hl : s.lock = some l) :
    ∀ x ∈ e.newId, Unused l.db l.queue x := by
  obtain ⟨hqueue, hdb, -⟩ := lock_some hl
  intro x hx
  rw [hdb]
  exact hfresh x hx l.queue hqueue

theorem startup_settled (h : s.Settled m) (env : StartupEnv) (hpaired : PairedLinks
      ((s.startup env).db.getTransactionsByStatusForRelayer s.relayer.id .inmempool)) :
    (s.startup env).Settled m := by
  obtain ⟨g, hrepairs⟩ := startup_repaired s.relayer env s.db h.key
  have hkey : (s.startup env).db.PrimaryKey := hrepairs.primaryKey h.key
  refine ⟨hkey, fun l hl => ?_⟩
  obtain ⟨hqueue, hdb, -⟩ := lock_some hl
  obtain ⟨onchainNonce, -, hread⟩ := startupTransactionsQueues_queue hqueue
  have hread : l.queue = repopulatedQueue s.relayer env (s.startup env).db onchainNonce := hread
  refine ⟨hdb ▸ hkey, ?_, ?_, fun x hx hmem => ?_⟩
  · rw [hread]
    exact repopulatedQueue_conserved hkey hpaired
  · rw [hread]
    exact repopulatedQueue_shown onchainNonce
  · rw [hread] at hmem
    rw [hdb] at hx
    obtain ⟨r, hr, hid, hreached⟩ := hx
    obtain ⟨r', hr', hid', hopen⟩ := mem_repopulated_held hmem
    have hsame := row_unique hkey hr hr' (hid.trans hid'.symm)
    rw [hsame, hopen] at hreached
    cases hreached

/-- A relayer whose table and queue are those of a settled one. -/
theorem Settled.congr {s' : TransactionsQueues} (h : s.Settled m) (hdb : s'.db = s.db)
    (hqueue : s'.queue = s.queue) : s'.Settled m := by
  refine ⟨hdb ▸ h.key, fun l hl => ?_⟩
  obtain ⟨hl', hdb', -⟩ := lock_some hl
  have hlock : s.lock = some ⟨l.queue, s.blockTimeMs, s.db, s.broadcasts⟩ := by
    unfold lock
    rw [← hqueue, hl']
    rfl
  obtain ⟨hkey, hconserved, hshown, hdropped⟩ := h.locked _ hlock
  have hrows : l.db = s.db := hdb'.trans hdb
  exact ⟨hrows ▸ hkey, hconserved, hshown, hrows ▸ hdropped⟩

theorem mem_waiting_pending {q : TransactionsQueue} {t : Transaction}
    (ht : t ∈ q.pendingTransactions) : t.id ∈ q.waitingIds :=
  List.mem_append_left _ (List.mem_map_of_mem ht)

theorem mem_waiting_entry {q : TransactionsQueue} {c : CompetitiveTransaction} {t : Transaction}
    (hc : c ∈ q.inmempoolTransactions) (ht : t ∈ c.transactions) : t.id ∈ q.waitingIds :=
  List.mem_append_right _ (mem_entryIds.mpr ⟨c, hc, t, ht, rfl⟩)

theorem mem_waiting_editable {q : TransactionsQueue} {id : TransactionId}
    (h : (q.getEditableTransactionById id).isSome = true) : id ∈ q.waitingIds := by
  obtain ⟨editable, heditable⟩ := Option.isSome_iff_exists.mp h
  cases editable with
  | pending t =>
    obtain ⟨hfind, rfl⟩ := TransactionsQueue.getEditable_pending heditable
    exact mem_waiting_pending (List.mem_of_find?_eq_some hfind)
  | inmempool t =>
    obtain ⟨c, hfind, rfl, rfl⟩ := TransactionsQueue.getEditable_inmempool heditable
    exact mem_waiting_entry (List.mem_of_find?_eq_some hfind) (List.mem_cons_self ..)

/-- What an event does to a relayer that is up, a restart apart. -/
def perform (l : Locked) : Event → Locked
  | .add env toSend => (l.addTransaction env toSend).1
  | .cancel env id => (l.cancelTransaction env id).1
  | .replace env request id => (l.replaceTransaction env request id).1
  | .processPending env => (l.processSinglePending env).1
  | .processInmempool env => (l.processSingleInmempool env).1
  | .processMined env => (l.processSingleMined env).1
  | .restart _ | .included _ => l

theorem step_perform (he : e.isRestart = false) {l : Locked} (hl : s.lock = some l) :
    (s.step e).db = (perform l e).db ∧ (s.step e).queue = some (perform l e).queue := by
  have hlocked {ρ : Type} (operation : Locked → Locked × ρ) :
      (s.locked operation).db = (operation l).1.db ∧
        (s.locked operation).queue = some (operation l).1.queue := by
    rw [locked_of_some operation hl]
    exact ⟨rfl, rfl⟩
  cases e with
  | add env toSend => exact hlocked fun l => l.addTransaction env toSend
  | cancel env id => exact hlocked fun l => l.cancelTransaction env id
  | replace env request id => exact hlocked fun l => l.replaceTransaction env request id
  | processPending env => exact hlocked fun l => l.processSinglePending env
  | processInmempool env => exact hlocked fun l => l.processSingleInmempool env
  | processMined env => exact hlocked fun l => l.processSingleMined env
  | restart env => cases he
  | included signed =>
    obtain ⟨hqueue, hdb, -⟩ := lock_some hl
    exact ⟨(s.includeSigned_db signed).trans hdb.symm, (s.includeSigned_queue signed).trans hqueue⟩

theorem perform_keeps (l : Locked) (e : Event) :
    TransactionsQueue.Keeps e.newId l.queue (perform l e).queue := by
  cases e with
  | add env toSend => exact l.addTransaction_keeps env toSend
  | cancel env id => exact l.cancelTransaction_keeps env id
  | replace env request id => exact l.replaceTransaction_keeps env request id
  | processPending env => exact l.processSinglePending_keeps env
  | processInmempool env => exact l.processSingleInmempool_keeps env
  | processMined env => exact l.processSingleMined_keeps env
  | restart | included => exact .refl _ _

/-- The transactions an event touches: those that wait and the one it brings in, or, in a pass over
what has been mined, these. -/
def touches (l : Locked) : Event → TransactionId → Prop
  | .processMined _, x => ∃ t ∈ l.queue.minedTransactions, x = t.id
  | e, x => x ∈ e.newId ∨ x ∈ l.queue.waitingIds

theorem competed_waits {l : Locked} {env : CompeteEnv} {id : TransactionId}
    (h : l.competed env id x) : x ∈ some env.newId ∨ x ∈ l.queue.waitingIds := by
  rcases h with rfl | ⟨rfl, heditable⟩
  · exact .inl rfl
  · exact .inr (mem_waiting_editable heditable)

theorem perform_touches (l : Locked) (e : Event) : l.Touched (touches l e) (perform l e) := by
  cases e with
  | add env toSend =>
    exact (l.addTransaction_touched env toSend).mono fun _ hx => .inl (by rw [hx]; rfl)
  | cancel env id => exact (l.cancelTransaction_touched env id).mono fun _ => competed_waits
  | replace env request id =>
    exact (l.replaceTransaction_touched env request id).mono fun _ => competed_waits
  | processPending env =>
    refine (l.processSinglePending_touched env).mono ?_
    rintro x ⟨t, ht, rfl⟩
    unfold Locked.pendingHead at ht
    split at ht
    · cases ht
    · exact .inr (mem_waiting_pending (List.mem_of_head? ht))
  | processInmempool env =>
    refine (l.processSingleInmempool_touched env).mono ?_
    rintro x ⟨c, hc, t, ht, rfl⟩
    exact .inr (mem_waiting_entry (List.mem_of_head? hc) ht)
  | processMined env => exact l.processSingleMined_touched env
  | restart | included => exact .refl l

theorem perform_steady {l : Locked} (h : l.Settled m)
    (hnew : ∀ x ∈ e.newId, Unused l.db l.queue x) :
    l.Steady m (l.MayHold m e.newId) (· ∉ m.held (perform l e).queue) (perform l e) := by
  have hshown := h.mayHold e.newId
  cases e with
  | add env toSend => exact Locked.addTransaction_steady h (hnew _ rfl)
  | cancel env id => exact Locked.cancelTransaction_steady hshown (.inl rfl) id
  | replace env request id => exact Locked.replaceTransaction_steady hshown (.inl rfl) request id
  | processPending env => exact Locked.processSinglePending_steady hshown
  | processInmempool env => exact Locked.processSingleInmempool_steady hshown h.conserved env
  | processMined env => exact Locked.processSingleMined_steady hshown h.conserved env
  | restart | included => exact .refl hshown

/-- A relayer that is not up. -/
theorem step_idle (he : e.isRestart = false) (hl : s.lock = none) :
    (s.step e).db = s.db ∧ (s.step e).queue = s.queue := by
  have hlocked {ρ : Type} {operation : Locked → Locked × ρ}
      (hstep : s.step e = s.locked operation) :
      (s.step e).db = s.db ∧ (s.step e).queue = s.queue := by
    rw [hstep, locked_of_none operation hl]
    exact ⟨rfl, rfl⟩
  cases e with
  | add | cancel | replace | processPending | processInmempool | processMined => exact hlocked rfl
  | restart env => cases he
  | included signed => exact ⟨s.includeSigned_db signed, s.includeSigned_queue signed⟩

theorem Settled.step (h : s.Settled m) (horderly : s.Orderly e) : (s.step e).Settled m := by
  cases he : e.isRestart with
  | true =>
    cases e with
    | restart env => exact startup_settled h env (horderly.paired rfl)
    | _ => cases he
  | false =>
    rcases hl : s.lock with _ | l
    · obtain ⟨hdb, hqueue⟩ := step_idle he hl
      exact h.congr hdb hqueue
    · obtain ⟨hdb, hqueue⟩ := step_perform he hl
      have hnew := unused_of_fresh horderly.fresh hl
      have hl' := h.locked l hl
      have hsettled : (perform l e).Settled m := hl'.of_steady (perform_steady hl' hnew)
        ((perform_touches l e).db.primaryKey hl'.key) (perform_keeps l e) hnew
      refine ⟨hdb ▸ hsettled.key, fun l'' hl'' => ?_⟩
      obtain ⟨hqueue', hdb', -⟩ := lock_some hl''
      have hsame : (perform l e).queue = l''.queue := Option.some.inj (hqueue.symm.trans hqueue')
      have hrows : l''.db = (perform l e).db := hdb'.trans hdb
      obtain ⟨hkey, hconserved, hshown, hdropped⟩ := hsettled
      exact ⟨hrows ▸ hkey, hsame ▸ hconserved, hsame ▸ hshown, hsame ▸ hrows ▸ hdropped⟩

/-- An event that brings in another transaction broadcasts nothing for one that does not wait. -/
theorem step_silent (hdropped : ∀ q ∈ s.queue, x ∉ q.waitingIds)
    (hnew : ∀ l, s.lock = some l → ∀ y ∈ e.newId, y ≠ x) :
    (s.step e).broadcasts.filter (·.1 == x) = s.broadcasts.filter (·.1 == x) := by
  obtain ⟨new, happend, hall⟩ := (step_history s e).broadcasts
  have hsilent : new.filter (·.1 == x) = [] := by
    rw [List.filter_eq_nil_iff]
    intro b hb hid
    obtain ⟨t, sent, howned, -, hbt⟩ := hall b hb
    have hid : t.id = x := by rw [← hbt, beq_iff_eq.mp hid]
    unfold writer at howned
    rcases hl : s.lock with _ | l
    · rw [hl] at howned
      exact howned
    · rw [hl] at howned
      have hdropped := hdropped l.queue (lock_some hl).1
      rcases howned with ⟨hx, -⟩ | ⟨u, hu, hut, -⟩ | ⟨c, hc, u, hu, hut, -⟩
      · exact hnew l hl t.id hx hid
      · exact hdropped (hid ▸ hut ▸ mem_waiting_pending hu)
      · exact hdropped (hid ▸ hut ▸ mem_waiting_entry hc hu)
  have happend : (s.step e).broadcasts = s.broadcasts ++ new := happend
  rw [happend, List.filter_append, hsilent, List.append_nil]

end TransactionsQueues
end Rrelayer
