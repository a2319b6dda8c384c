import Rrelayer.Touched
import Rrelayer.StartupRows
import Rrelayer.LandedAttempts
import Rrelayer.ClosedOut
import Mathlib.Logic.Relation

/-! Every operation as a history of statements and broadcasts. A law of the rows, the audit log
and the broadcasts is then proved once for each statement. -/
namespace Rrelayer

/-- Where the data of an operation's statements come from: the transactions it may write, the
payloads it signs, those the network accepts from it, the receipts it is answered and the
attempts its providers know. -/
structure Writer where
  owned : Transaction → Prop
  signs : Transaction → SignedTransaction → TransactionSentWithRelayer → Prop
  accepts : SignedTransaction → Prop
  answers : TransactionHash → Receipt → Prop
  finds : TransactionHash → Prop

/-- One statement, or the broadcast of an attempt with the statement before it. -/
inductive Wrote (w : Writer) : Db × Broadcasts → Db × Broadcasts → Prop where
  | saved {db db' : Db} {b : Broadcasts} (relayerId : RelayerId) {t : Transaction}
      (howned : w.owned t) (ht : t.status = .pending)
      (h : db.saveTransaction relayerId t = some db') : Wrote w (db, b) (db', b)
  | rejected {db db' : Db} {b : Broadcasts} (relayerId : RelayerId) {t : Transaction}
      (reason : String) (now : DateTime) (ht : t.status = .failed)
      (h : db.transactionFailedOnSend relayerId t reason now = some db') : Wrote w (db, b) (db', b)
  | attempted {db db' : Db} {b : Broadcasts} (relayerId : RelayerId) {t : Transaction}
      {signed : SignedTransaction} {sent : TransactionSentWithRelayer} (legacy : Bool)
      (now : DateTime) (howned : w.owned t) (hsigned : w.signs t signed sent)
      (h : db.transactionBroadcastAttempt relayerId t sent.hash sent.sentWithGas
        sent.sentWithBlobGas legacy now = some db') :
      Wrote w (db, b) (db', b ++ [(t.id, signed)])
  | sent {db : Db} {b : Broadcasts} {t : Transaction} {signed : SignedTransaction}
      {sent : TransactionSentWithRelayer} (legacy : Bool) (now : DateTime)
      (hsigned : w.signs t signed sent) (hb : (t.id, signed) ∈ b) (haccepted : w.accepts signed) :
      Wrote w (db, b) (db.transactionSent sent.id sent.hash sent.sentWithGas
        sent.sentWithBlobGas legacy now, b)
  | landed {db : Db} {b : Broadcasts} {id : TransactionId} {a : RecordedTransactionAttempt}
      {gas : GasPriceResult} (legacy : Bool) (now : DateTime)
      (ha : a ∈ db.getRecordedTransactionAttempts id) (hgas : a.sentWithGas = some gas)
      (hfound : w.finds a.hash) :
      Wrote w (db, b) (db.transactionSent id a.hash gas a.sentWithBlobGas legacy now, b)
  | recovered {db db' : Db} {b : Broadcasts} (relayerId : RelayerId) {id : TransactionId}
      {a : RecordedTransactionAttempt} {gas : GasPriceResult} (legacy : Bool) (now : DateTime)
      (ha : a ∈ db.getRecordedTransactionAttempts id) (hgas : a.sentWithGas = some gas)
      (hfound : w.finds a.hash)
      (h : db.recoverLandedTransactionAttempt relayerId id a.hash gas a.sentWithBlobGas legacy
        now = (true, db')) : Wrote w (db, b) (db', b)
  | failed {db : Db} {b : Broadcasts} (id : TransactionId) (reason : String) (now : DateTime) :
      Wrote w (db, b) (db.updateTransactionFailed id reason now, b)
  | mined {db : Db} {b : Broadcasts} {t u : Transaction} {hash : TransactionHash}
      {receipt : Receipt} (now : DateTime)
      (ht : ∃ v, w.owned v ∧ v.id = t.id ∧ v.knownTransactionHash = t.knownTransactionHash)
      (hu : w.owned u) (hid : u.id = t.id) (hhash : u.knownTransactionHash = some hash)
      (hreceipt : w.answers hash receipt) :
      Wrote w (db, b) (db.transactionMined t receipt now, b)
  | confirmed {db : Db} {b : Broadcasts} (id : TransactionId) (now : DateTime) :
      Wrote w (db, b) (db.transactionConfirmed id now, b)
  | moved {db : Db} {b : Broadcasts} (id : TransactionId) (nonce : ℕ) :
      Wrote w (db, b) (db.transactionUpdateNonce id nonce, b)
  | expired {db : Db} {b : Broadcasts} (id : TransactionId) (now : DateTime) :
      Wrote w (db, b) (db.transactionExpired id now, b)
  | updated {db : Db} {b : Broadcasts} {t : Transaction} (now : DateTime) (howned : w.owned t) :
      Wrote w (db, b) (db.transactionUpdate t now, b)
  | poisonedRepaired {db : Db} {b : Broadcasts} (relayerId : RelayerId) :
      Wrote w (db, b) (db.repairPoisonedPendingTransactionsForRelayer relayerId, b)
  | absentRepaired {db : Db} {b : Broadcasts} (relayerId : RelayerId) (chainNonce : ℕ)
      (reason : String) (now : DateTime) (entry : TransactionId × List TransactionHash) :
      Wrote w (db, b) (Db.repairAbsentOne relayerId chainNonce reason now db entry, b)

abbrev History (w : Writer) : Db × Broadcasts → Db × Broadcasts → Prop :=
  Relation.ReflTransGen (Wrote w)

/-- What a history hands to the network: signed by the writer for transactions it owns. -/
theorem History.broadcasts {w : Writer} {store store' : Db × Broadcasts}
    (h : History w store store') :
    ∃ new, store'.2 = store.2 ++ new ∧
      ∀ b ∈ new, ∃ t sent, w.owned t ∧ w.signs t b.2 sent ∧ b.1 = t.id := by
  induction h with
  | refl => exact ⟨[], by simp, by simp⟩
  | tail hbefore hwrote ih =>
    obtain ⟨new, hnew, hall⟩ := ih
    cases hwrote with
    | attempted relayerId legacy now howned hsigned _ =>
      dsimp only at hnew ⊢
      refine ⟨new ++ [_], by rw [hnew, List.append_assoc], fun b hb => ?_⟩
      rcases List.mem_append.mp hb with hb | hb
      · exact hall b hb
      · rw [List.mem_singleton.mp hb]
        exact ⟨_, _, howned, hsigned, rfl⟩
    | _ => exact ⟨new, hnew, hall⟩

/-- The sending part of an event's outside. -/
def Event.sendEnv : Event → Option SendEnv
  | .cancel env _ | .replace env _ _ => some env.send
  | .processPending env => some env.send
  | .processInmempool env => some env.send
  | .add _ _ | .processMined _ | .restart _ | .included _ => none

/-- The attempts an event's providers know, where it looks for landed ones. -/
def Event.finds : Event → TransactionHash → Prop
  | .processPending env, hash => Known env.clients hash
  | .restart env, hash => Known env.clients hash
  | _, _ => False

namespace Locked

/-- A new transaction of the operation, or a copy in memory with its status and its hash, those
of an edited pending transaction or the status of a beaten original. -/
def owns (l : Locked) (newId : Option TransactionId) (t : Transaction) : Prop :=
  (newId = some t.id ∧ t.status = .pending ∧ t.knownTransactionHash = none) ∨
  (∃ u ∈ l.queue.pendingTransactions, u.id = t.id ∧
    (t.status = u.status ∨ t.status = .pending) ∧
    (t.knownTransactionHash = u.knownTransactionHash ∨ t.knownTransactionHash = none)) ∨
  ∃ c ∈ l.queue.inmempoolTransactions, ∃ u ∈ c.transactions, u.id = t.id ∧
    (t.status = u.status ∨ t.status = .cancelled ∨ t.status = .replaced) ∧
    t.knownTransactionHash = u.knownTransactionHash

def writer (l : Locked) (e : Event) : Writer where
  owned := l.owns e.newId
  signs t signed sent := ∃ env ∈ e.sendEnv, ∃ t₀,
    prepareSend l.queue.toSendConfig env t₀ = (t, .ok (signed, sent))
  accepts signed := ∃ env ∈ e.sendEnv, env.broadcast signed = .ok ()
  answers hash receipt := ∃ env, e = .processInmempool env ∧
    env.pollReceipt hash = .ok (some receipt)
  finds := e.finds

/-- The database and the broadcasts under the lock. -/
abbrev store (l : Locked) : Db × Broadcasts := (l.db, l.broadcasts)

variable {l : Locked}

/-- Ownership is a matter of id, status and hash. -/
theorem owns_congr {newId : Option TransactionId} {t t' : Transaction} (hid : t'.id = t.id)
    (hstatus : t'.status = t.status) (hhash : t'.knownTransactionHash = t.knownTransactionHash)
    (h : l.owns newId t) : l.owns newId t' := by
  unfold owns at h ⊢
  rw [hid, hstatus, hhash]
  exact h

theorem send_history {e : Event} {env : SendEnv} (henv : e.sendEnv = some env) {t : Transaction}
    (howned : l.owns e.newId t) :
    History (l.writer e) l.store (l.send env t).2.1.store := by
  have hslot := (prepareSend_spec l.queue.toSendConfig env t).1
  have hattempted {t' : Transaction} {signed : SignedTransaction}
      {sent : TransactionSentWithRelayer} {db : Db}
      (hp : prepareSend l.queue.toSendConfig env t = (t', .ok (signed, sent)))
      (hattempt : l.db.transactionBroadcastAttempt l.queue.toSendConfig.relayer.id t' sent.hash
        sent.sentWithGas sent.sentWithBlobGas l.queue.toSendConfig.isLegacyTransactions
        env.nowSent = some db) :
      Wrote (l.writer e) l.store (db, l.broadcasts ++ [(t'.id, signed)]) := by
    rw [hp] at hslot
    have howned' : l.owns e.newId t' :=
      owns_congr hslot.id hslot.status hslot.knownTransactionHash howned
    exact .attempted _ _ _ howned' ⟨env, henv, t, hp⟩ hattempt
  have hends := l.send_ends env t
  generalize l.send env t = o at hends ⊢
  cases hends with
  | unprepared | unrecorded => exact .refl
  | refused hp hattempt | unmarked hp hattempt => exact .single (hattempted hp hattempt)
  | marked hp hattempt hbroadcast =>
    apply Relation.ReflTransGen.tail (.single (hattempted hp hattempt))
    exact .sent _ _ ⟨env, henv, t, hp⟩ (by simp) ⟨env, henv, hbroadcast⟩

section Pending

variable {w : Writer} {env : PendingEnv} {t : Transaction}

theorem moveSent_store {sent : TransactionSentWithRelayer}
    {result : ProcessResult ProcessPendingStatus} :
    (l.moveSent env t sent result).1.store = l.store := by
  unfold moveSent
  split <;> rfl

theorem pendingFailed_history {error : TransactionQueueSendTransactionError}
    (hfinds : ∀ hash, Known env.clients hash → w.finds hash)
    (howned : ∀ u : Transaction, u.id = t.id → u.status = .pending →
      u.knownTransactionHash = none → w.owned u) :
    History w l.store (l.pendingFailed env t error).1.store := by
  have hleaves := l.pendingFailed_leaves env t error
  generalize (l.pendingFailed env t error).1 = l' at hleaves ⊢
  cases hleaves with
  | kept => exact .refl
  | closedOut reason => exact .single (.updated _ (howned (l.closedOut t reason) rfl rfl rfl))
  | reassigned newNonce => exact .single (.moved _ _)
  | mined hfind hgas =>
    obtain ⟨hrecorded, hknown⟩ := landed_found hfind
    rw [moveSent_store]
    exact .single (.landed _ _ hrecorded hgas (hfinds _ hknown))
  | recovered hfind hgas hserved =>
    obtain ⟨hrecorded, hknown⟩ := landed_found hfind
    rw [moveSent_store]
    exact .single (.recovered _ _ _ hrecorded hgas (hfinds _ hknown) hserved)

theorem processSinglePending_history (l : Locked) (env : PendingEnv) :
    History (l.writer (.processPending env)) l.store (l.processSinglePending env).1.store := by
  unfold processSinglePending
  split
  · exact .refl
  · split
    · exact .refl
    · rename_i t hnext
      have ht : t ∈ l.queue.pendingTransactions := List.mem_of_head? hnext
      have howns {u : Transaction} (hid : u.id = t.id)
          (hstatus : u.status = t.status ∨ u.status = .pending)
          (hhash : u.knownTransactionHash = t.knownTransactionHash ∨
            u.knownTransactionHash = none) : l.owns none u :=
        .inr (.inl ⟨t, ht, hid.symm, hstatus, hhash⟩)
      split
      · exact .refl
      · have hslot := pendingCopy_sameSlot l env t
        have hspec := send_spec l env.send (l.pendingCopy env t)
        have hsent := @send_history l (.processPending env) env.send rfl (l.pendingCopy env t)
          (howns hslot.id (.inl hslot.status) (.inl hslot.knownTransactionHash))
        split
        · rename_i hsend
          rw [hsend] at hsent
          rw [moveSent_store]
          exact hsent
        · rename_i t' l' e hsend
          rw [hsend] at hsent hspec
          apply hsent.trans
          apply pendingFailed_history fun _ hknown => hknown
          intro u hid hstatus hhash
          exact howns (hid.trans (hspec.id.trans hslot.id)) (.inr hstatus) (.inr hhash)

end Pending

section Inmempool

variable {w : Writer} {env : InmempoolEnv} {t : Transaction}

/-- The decided race as it is written down: winner and loser are members of the entry. -/
theorem saveResolution_history {receipt : Receipt} {r : CompetitionResolutionResult}
    {u : Transaction} {hash : TransactionHash}
    (hwinner : ∃ v, w.owned v ∧ v.id = r.winner.id ∧
      v.knownTransactionHash = r.winner.knownTransactionHash)
    (hu : w.owned u) (hid : u.id = r.winner.id) (hhash : u.knownTransactionHash = some hash)
    (hreceipt : w.answers hash receipt) (hloser : ∀ loser ∈ r.loser, w.owned loser) :
    History w l.store (l.saveResolution env receipt r).1.store := by
  unfold saveResolution
  split
  · split
    · exact .refl
    · dsimp only
      split
      · exact .single (.mined _ hwinner hu hid hhash hreceipt)
      · rename_i loser hr
        split
        · exact .single (.mined _ hwinner hu hid hhash hreceipt)
        · apply Relation.ReflTransGen.tail (.single (.mined _ hwinner hu hid hhash hreceipt))
          exact .updated _ (hloser loser hr)
  · split
    · exact .refl
    · exact .single (.expired _ _)
  · split
    · exact .refl
    · exact .single (.failed _ _ _)
  · exact .refl

/-- A loser keeps the status it had, or is the beaten original. -/
theorem resolveCompetition_loser {relayAddress : EvmAddress} {c : CompetitiveTransaction}
    {id : TransactionId} {receipt : Receipt} {now : DateTime} {r : CompetitionResolutionResult}
    (h : TransactionsQueue.resolveCompetition relayAddress c id receipt now = some r)
    {loser : Transaction} (hloser : loser ∈ r.loser) :
    ∃ u ∈ c.transactions, u.id = loser.id ∧
      (loser.status = u.status ∨ loser.status = .cancelled ∨ loser.status = .replaced) ∧
      loser.knownTransactionHash = u.knownTransactionHash := by
  unfold TransactionsQueue.resolveCompetition at h
  split at h
  · cases h
    refine ⟨loser, ?_, rfl, .inl rfl, rfl⟩
    unfold CompetitiveTransaction.transactions
    exact List.mem_cons_of_mem _ (Option.mem_toList.mpr hloser)
  · split at h
    · rename_i competitor type _
      split at h
      · cases h
        cases hloser
        refine ⟨c.original, List.mem_cons_self .., ?_⟩
        cases type
        · exact ⟨rfl, .inr (.inl rfl), rfl⟩
        · exact ⟨rfl, .inr (.inr rfl), rfl⟩
      · cases h
    · cases h

/-- The winner is the member with the given id. -/
theorem resolveCompetition_winner {relayAddress : EvmAddress} {c : CompetitiveTransaction}
    {id : TransactionId} {receipt : Receipt} {now : DateTime} {r : CompetitionResolutionResult}
    (h : TransactionsQueue.resolveCompetition relayAddress c id receipt now = some r) :
    r.winner.id = id ∧ ∃ u ∈ c.transactions, u.id = r.winner.id ∧
      u.knownTransactionHash = r.winner.knownTransactionHash := by
  unfold TransactionsQueue.resolveCompetition at h
  split at h
  · rename_i hid
    cases h
    exact ⟨by simpa using hid, c.original, List.mem_cons_self .., rfl, rfl⟩
  · split at h
    · rename_i competitor type hcompetitive
      split at h
      · rename_i hid
        cases h
        refine ⟨by simpa using hid, competitor, ?_, rfl, rfl⟩
        unfold CompetitiveTransaction.transactions
        rw [hcompetitive]
        exact List.mem_cons_of_mem _ (by simp)
      · cases h
    · cases h

theorem resolveInmempool_history {receipt : Receipt} {hash : TransactionHash}
    (howned : ∀ c ∈ l.queue.inmempoolTransactions, ∀ u ∈ c.transactions, ∀ v : Transaction,
      u.id = v.id → (v.status = u.status ∨ v.status = .cancelled ∨ v.status = .replaced) →
      v.knownTransactionHash = u.knownTransactionHash → w.owned v)
    (ht : w.owned t) (hhash : t.knownTransactionHash = some hash)
    (hreceipt : w.answers hash receipt) :
    History w l.store (l.resolveInmempool env t receipt).1.store := by
  unfold resolveInmempool
  rcases hmove : l.queue.moveInmempoolToMining t.id receipt env.now with e | ⟨r, q'⟩
  · exact .refl
  · obtain ⟨⟨front, hfront, hresolve⟩, -⟩ := moveInmempoolToMining_lists hmove
    have hsaved : History w ({ l with queue := q' } : Locked).store
        (({ l with queue := q' } : Locked).saveResolution env receipt r).1.store := by
      have hfront := List.mem_of_head? hfront
      obtain ⟨hwinnerId, v, hv, hvid, hvhash⟩ := resolveCompetition_winner hresolve
      have hwinner : ∃ v, w.owned v ∧ v.id = r.winner.id ∧
          v.knownTransactionHash = r.winner.knownTransactionHash :=
        ⟨v, howned front hfront v hv v rfl (.inl rfl) rfl, hvid, hvhash⟩
      apply saveResolution_history hwinner ht hwinnerId.symm hhash hreceipt
      intro loser hloser
      obtain ⟨u, hu, hid, hstatus, hsame⟩ := resolveCompetition_loser hresolve hloser
      exact howned front hfront u hu loser hid hstatus hsame
    exact hsaved

theorem bumpFailed_history {error : TransactionQueueSendTransactionError} :
    History w l.store (l.bumpFailed env t error).1.store := by
  have hleaves := l.bumpFailed_leaves env t error
  generalize (l.bumpFailed env t error).1 = l' at hleaves ⊢
  cases hleaves with
  | kept => exact .refl
  | reassigned newNonce => exact .single (.moved _ _)

theorem processSingleInmempool_history (l : Locked) (env : InmempoolEnv) :
    History (l.writer (.processInmempool env)) l.store
      (l.processSingleInmempool env).1.store := by
  rcases hpolled : l.polled env with _ | ⟨t, hash⟩
  · rw [processSingleInmempool_unpolled hpolled]
  obtain ⟨-, hhash, front, rest, hfront, ht⟩ := polled_some hpolled
  have hmem : front ∈ l.queue.inmempoolTransactions := hfront ▸ List.mem_cons_self ..
  have howns : l.owns none t :=
    .inr (.inr ⟨front, hmem, t, ht ▸ active_mem_transactions front, rfl, .inl rfl, rfl⟩)
  rw [processSingleInmempool_polled hpolled]
  split
  · exact .refl
  · rename_i receipt hreceipt
    have hmember : ∀ c ∈ l.queue.inmempoolTransactions, ∀ u ∈ c.transactions,
        ∀ v : Transaction, u.id = v.id →
        (v.status = u.status ∨ v.status = .cancelled ∨ v.status = .replaced) →
        v.knownTransactionHash = u.knownTransactionHash → l.owns none v := by
      intro c hc u hu v hid hstatus hsame
      exact .inr (.inr ⟨c, hc, u, hu, hid, hstatus, hsame⟩)
    exact @resolveInmempool_history l (l.writer (.processInmempool env)) env t receipt hash
      hmember howns hhash ⟨env, rfl, hreceipt⟩
  · split
    · have hsent := @send_history l (.processInmempool env) env.send rfl t howns
      unfold bumpInmempool
      split
      · rename_i hsend
        rw [hsend] at hsent
        exact hsent
      · rename_i hsend
        rw [hsend] at hsent
        exact hsent.trans bumpFailed_history
    · exact .refl

theorem processSingleMined_history (l : Locked) (env : MinedEnv) :
    History w l.store (l.processSingleMined env).1.store := by
  rcases l.processSingleMined_cases env with hkept | ⟨t, -, hconfirmed⟩
  · rw [hkept]
  · rw [hconfirmed]
    exact .single (.confirmed _ _)

end Inmempool

section Compete

variable {env : CompeteEnv} {original competitor : Transaction}

theorem sendCompetitor_history {e : Event} (henv : e.sendEnv = some env.send)
    {type : CompetitionType} (hcompetitor : l.owns e.newId competitor)
    (horiginal : l.owns e.newId original) :
    History (l.writer e) l.store (l.sendCompetitor env original competitor type).1.store := by
  have hsent := send_history henv hcompetitor
  unfold sendCompetitor
  split
  · rename_i hsend
    rw [hsend] at hsent
    split
    · split <;> exact hsent
    · exact hsent
  · rename_i hsend
    rw [hsend] at hsent
    exact hsent
  · rename_i sentCompetitor l' sent hsend
    rw [hsend] at hsent
    dsimp only
    split
    · exact hsent
    · have hlinked : Wrote (l.writer e) l'.store
          (l'.db.transactionUpdate
            { original with cancelledByTransactionId := some competitor.id } env.nowWrite,
            l'.broadcasts) :=
        .updated _ (owns_congr (t := original) rfl rfl rfl horiginal)
      split <;> exact hsent.tail hlinked

theorem rewritePending_history {w : Writer} {t : Transaction} (howned : w.owned t)
    {l' : Locked} (h : l.rewritePending env t = some l') : History w l.store l'.store := by
  unfold rewritePending at h
  split at h
  · cases h
    exact .single (.updated _ howned)
  · cases h

/-- The in-mempool original of a request is one of the entries' transactions. -/
theorem raced_owned {id : TransactionId} {newId : Option TransactionId} {original : Transaction}
    (h : l.raced env id = some original) : l.owns newId original := by
  obtain ⟨-, -, heditable⟩ := raced_some h
  obtain ⟨c, hc, rfl, -⟩ := TransactionsQueue.getEditable_inmempool heditable
  exact .inr (.inr ⟨c, List.mem_of_find?_eq_some hc, c.original, List.mem_cons_self .., rfl,
    .inl rfl, rfl⟩)

theorem cancelTransaction_history (l : Locked) (env : CompeteEnv) (id : TransactionId) :
    History (l.writer (.cancel env id)) l.store (l.cancelTransaction env id).1.store := by
  obtain hkept | ⟨t, heditable, hrewrite⟩ | ⟨original, competitor, hraced, hcompetitor, hsent⟩ :=
    l.cancelTransaction_cases env id
  · rw [hkept]
  · obtain ⟨ht, -⟩ := TransactionsQueue.getEditable_pending heditable
    have howned : l.owns (some env.newId) (l.cancelledPending t) :=
      .inr (.inl ⟨t, List.mem_of_find?_eq_some ht, rfl, .inr rfl, .inr rfl⟩)
    exact rewritePending_history howned hrewrite
  · have hcompetes := cancelCompetitor_competes hcompetitor
    have howned : l.owns (some env.newId) competitor :=
      .inl ⟨congrArg some hcompetes.id.symm, hcompetes.status, cancelCompetitor_unsent hcompetitor⟩
    rw [hsent]
    exact @sendCompetitor_history l env _ _ (.cancel env id) rfl _ howned (raced_owned hraced)

theorem replaceTransaction_history (l : Locked) (env : CompeteEnv)
    (request : RelayTransactionRequest) (id : TransactionId) :
    History (l.writer (.replace env request id)) l.store
      (l.replaceTransaction env request id).1.store := by
  obtain hkept | ⟨t, blobs, heditable, hrewrite⟩ |
      ⟨original, competitor, hraced, hcompetitor, hsent⟩ :=
    l.replaceTransaction_cases env request id
  · rw [hkept]
  · obtain ⟨ht, -⟩ := TransactionsQueue.getEditable_pending heditable
    have howned : l.owns (some env.newId) (transactionReplace request t blobs) :=
      .inr (.inl ⟨t, List.mem_of_find?_eq_some ht, rfl, .inl rfl, .inl rfl⟩)
    exact rewritePending_history howned hrewrite
  · have hcompetes := replaceCompetitor_competes hcompetitor
    have howned : l.owns (some env.newId) competitor :=
      .inl ⟨congrArg some hcompetes.id.symm, hcompetes.status, replaceCompetitor_unsent hcompetitor⟩
    rw [hsent]
    exact @sendCompetitor_history l env _ _ (.replace env request id) rfl _ howned
      (raced_owned hraced)

end Compete

theorem addTransaction_history (l : Locked) (env : AdmissionEnv) (toSend : TransactionToSend) :
    History (l.writer (.add env toSend)) l.store (l.addTransaction env toSend).1.store := by
  have hleaves := l.addTransaction_leaves env toSend
  generalize (l.addTransaction env toSend).1 = l' at hleaves ⊢
  cases hleaves with
  | kept => exact .refl
  | rejected manager _ hstatus h => exact .single (.rejected _ _ _ hstatus h)
  | saved manager hid _ hstatus hhash _ h =>
    exact .single (.saved _ (.inl ⟨congrArg some hid.symm, hstatus, hhash⟩) hstatus h)

end Locked

section Startup

variable {w : Writer} {b : Broadcasts} (relayer : Relayer) (env : StartupEnv) (chainNonce : ℕ)
  (hfinds : ∀ hash, Known env.clients hash → w.finds hash)
include hfinds

theorem repairCandidate_history (db : Db) (t : Transaction) :
    History w (db, b) ((repairCandidate relayer env chainNonce db t).1, b) := by
  unfold repairCandidate
  dsimp only
  split
  · exact .refl
  · split
    · exact .refl
    · split
      · exact .refl
      · split <;> exact .refl
      · rename_i attempt hfind
        obtain ⟨hrecorded, hknown⟩ := landed_found hfind
        have hfound : w.finds attempt.hash := hfinds attempt.hash hknown
        split
        · exact .refl
        · rename_i gas hgas
          split
          · exact .refl
          · rcases db.recoverLanded_spec relayer.id t.id (!relayer.eip1559Enabled) env.nowRepair
              hgas with hrefused | ⟨db', -, -, hserved, -⟩
            · rw [hrefused]
            · rw [hserved]
              exact .single (.recovered _ _ _ hrecorded hgas hfound hserved)

theorem repairCandidates_history (ts : List Transaction) (db : Db) :
    History w (db, b) ((repairCandidates relayer env chainNonce db ts).1, b) := by
  induction ts generalizing db with
  | nil => exact .refl
  | cons t ts ih =>
    have hfirst := repairCandidate_history (w := w) (b := b) relayer env chainNonce hfinds db t
    unfold repairCandidates
    split
    · rename_i db' e hcandidate
      rw [hcandidate] at hfirst
      exact hfirst
    · rename_i db' absent hcandidate
      rw [hcandidate] at hfirst
      have hrest := ih db'
      split
      · rename_i hmore
        rw [hmore] at hrest
        exact hfirst.trans hrest
      · rename_i hmore
        rw [hmore] at hrest
        exact hfirst.trans hrest

omit hfinds in
theorem repairAbsent_history (relayerId : RelayerId) (reason : String) (now : DateTime)
    (absent : AbsentTransactions) (db : Db) :
    History w (db, b) (db.repairAbsentPendingTransactionsForRelayer relayerId chainNonce absent
      reason now, b) := by
  unfold Db.repairAbsentPendingTransactionsForRelayer
  induction absent generalizing db with
  | nil => exact .refl
  | cons entry absent ih => exact .head (.absentRepaired _ _ _ _ entry) (ih _)

theorem startup_history (db : Db) :
    History w (db, b) ((startupTransactionsQueues relayer env db).1, b) := by
  have hrepair : History w (db, b) ((startupRepair relayer env db).1, b) := by
    unfold startupRepair
    split
    · exact .refl
    · have hrecorded : ∀ db, History w (db, b) ((repairRecordedAttemptsForRelayer relayer env
          db).1, b) := by
        intro db
        unfold repairRecordedAttemptsForRelayer
        split
        · exact .refl
        · rename_i n _
          split
          · exact .refl
          · have hcandidates := repairCandidates_history (w := w) (b := b) relayer env n hfinds
              (db.getPendingTransactionsWithAttemptEvidenceForRelayer relayer.id) db
            split
            · rename_i hrun
              rw [hrun] at hcandidates
              exact hcandidates
            · rename_i db' absent hrun
              rw [hrun] at hcandidates
              split
              · exact hcandidates
              · split
                · exact hcandidates
                · exact hcandidates.trans (repairAbsent_history n _ _ _ _ _)
      have hpoisoned := hrecorded (db.repairPoisonedPendingTransactionsForRelayer relayer.id)
      have hstart : Wrote w (db, b)
          (db.repairPoisonedPendingTransactionsForRelayer relayer.id, b) := .poisonedRepaired _
      split
      · rename_i hrun
        rw [hrun] at hpoisoned
        exact .head hstart hpoisoned
      · rename_i hrun
        rw [hrun] at hpoisoned
        exact .head hstart hpoisoned
  unfold startupTransactionsQueues
  split
  · exact .refl
  · split
    · rename_i hrun
      rw [hrun] at hrepair
      exact hrepair
    · rename_i hrun
      rw [hrun] at hrepair
      split
      · exact hrepair
      · split <;> exact hrepair

end Startup

namespace TransactionsQueues

/-- The writer of a step; a startup owns and signs nothing. -/
def writer (s : TransactionsQueues) (e : Event) : Writer :=
  match s.lock with
  | some l => l.writer e
  | none => ⟨fun _ => False, fun _ _ _ => False, fun _ => False, fun _ _ => False, e.finds⟩

@[simp] theorem writer_finds (s : TransactionsQueues) (e : Event) :
    (s.writer e).finds = e.finds := by
  unfold writer
  split <;> rfl

theorem locked_history {ρ : Type} {s : TransactionsQueues} {e : Event}
    {operation : Locked → Locked × ρ}
    (h : ∀ l, s.lock = some l → History (l.writer e) l.store (operation l).1.store) :
    History (s.writer e) (s.db, s.broadcasts)
      ((s.locked operation).db, (s.locked operation).broadcasts) := by
  rcases hl : s.lock with _ | l
  · rw [locked_of_none operation hl]
  · rw [locked_of_some operation hl]
    have hoperation := h l hl
    obtain ⟨-, hdb, hbroadcasts⟩ := lock_some hl
    unfold writer
    rw [hl, ← hdb, ← hbroadcasts]
    exact hoperation

/-- Every step is a history of statements and broadcasts. -/
theorem step_history (s : TransactionsQueues) (e : Event) :
    History (s.writer e) (s.db, s.broadcasts) ((s.step e).db, (s.step e).broadcasts) := by
  cases e with
  | add env toSend => exact locked_history fun l _ => l.addTransaction_history env toSend
  | cancel env id => exact locked_history fun l _ => l.cancelTransaction_history env id
  | replace env request id =>
    exact locked_history fun l _ => l.replaceTransaction_history env request id
  | processPending env => exact locked_history fun l _ => l.processSinglePending_history env
  | processInmempool env => exact locked_history fun l _ => l.processSingleInmempool_history env
  | processMined env => exact locked_history fun l _ => l.processSingleMined_history env
  | restart env =>
    apply startup_history s.relayer env
    intro hash hknown
    rw [writer_finds]
    exact hknown
  | included signed =>
    show History _ _ ((s.includeSigned signed).db, (s.includeSigned signed).broadcasts)
    rw [includeSigned_db, includeSigned_broadcasts]

end TransactionsQueues
end Rrelayer
