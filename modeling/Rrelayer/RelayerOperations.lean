import Rrelayer.RelayerRows
import Rrelayer.QueueCopies

/-! The operations of one relayer beside others in the same database: each does what it would do if
the database held nothing else, and changes nothing of the others. -/
namespace Rrelayer

variable {owner : TransactionId → RelayerId} {relayerId : RelayerId}

/-- A transaction of the relayer, under one of its ids. -/
structure Transaction.Belongs (owner : TransactionId → RelayerId) (relayerId : RelayerId)
    (t : Transaction) : Prop where
  id : owner t.id = relayerId
  relayer : t.relayerId = relayerId

theorem Transaction.Belongs.congr {t u : Transaction} (h : t.Belongs owner relayerId)
    (hid : u.id = t.id) (hrelayer : u.relayerId = t.relayerId) : u.Belongs owner relayerId :=
  ⟨hid ▸ h.id, hrelayer ▸ h.relayer⟩

/-- A queue of the relayer with its own transactions only. -/
structure TransactionsQueue.Belongs (owner : TransactionId → RelayerId) (relayerId : RelayerId)
    (q : TransactionsQueue) : Prop extends q.Copies (Transaction.Belongs owner relayerId)
      (Transaction.Belongs owner relayerId) (Transaction.Belongs owner relayerId) where
  relayer : q.relayer.id = relayerId

namespace TransactionsQueue

variable {q : TransactionsQueue} {t : Transaction}

theorem Belongs.addPending (h : q.Belongs owner relayerId) (ht : t.Belongs owner relayerId) :
    (q.addPendingTransaction t).Belongs owner relayerId := ⟨h.toCopies.addPending ht, h.relayer⟩

theorem Belongs.updatePending (h : q.Belongs owner relayerId) (ht : t.Belongs owner relayerId) :
    (q.updatePendingTransaction t).Belongs owner relayerId :=
  ⟨h.toCopies.updatePending ht, h.relayer⟩

theorem Belongs.updatePendingNonce (h : q.Belongs owner relayerId) {id : TransactionId}
    {newNonce : ℕ} : (q.updatePendingTransactionNonce id newNonce).Belongs owner relayerId := by
  refine ⟨h.toCopies.updatePendingNonce fun _ _ ht => ht.congr rfl rfl, ?_⟩
  unfold updatePendingTransactionNonce
  split
  · exact h.relayer
  · exact h.relayer

theorem Belongs.movePending (h : q.Belongs owner relayerId) (ht : t.Belongs owner relayerId)
    {sent : TransactionSentWithRelayer} {now : DateTime} {q' : TransactionsQueue}
    (hmove : q.movePendingToInmempool t sent now = .ok q') : q'.Belongs owner relayerId := by
  have hsent : (sentTransaction t sent now).Belongs owner relayerId := ht.congr rfl rfl
  refine ⟨h.toCopies.movePending hsent hmove, ?_⟩
  obtain ⟨head, rest, -, -, -, rfl⟩ := movePendingToInmempool_ok hmove
  exact h.relayer

theorem Belongs.updateFront (h : q.Belongs owner relayerId) {id : TransactionId}
    {f : Transaction → Transaction}
    (hf : ∀ u : Transaction, (f u).id = u.id ∧ (f u).relayerId = u.relayerId) :
    (q.updateFrontById id f).Belongs owner relayerId := by
  refine ⟨h.toCopies.updateFront fun u hu => hu.congr (hf u).1 (hf u).2, ?_⟩
  unfold updateFrontById
  split
  · exact h.relayer
  · exact h.relayer

theorem Belongs.updateInmempoolNonce (h : q.Belongs owner relayerId) {id : TransactionId}
    {newNonce : ℕ} : (q.updateInmempoolTransactionNonce id newNonce).Belongs owner relayerId :=
  ⟨h.toCopies.updateInmempoolNonce fun _ _ ht => ht.congr rfl rfl, h.relayer⟩

theorem Belongs.addCompetitor (h : q.Belongs owner relayerId) (ht : t.Belongs owner relayerId)
    {originalId : TransactionId} {type : CompetitionType} {q' : TransactionsQueue}
    (hadd : q.addCompetitorToInmempoolTransaction originalId t type = .ok q') :
    q'.Belongs owner relayerId := by
  refine ⟨h.toCopies.addCompetitor (fun _ _ hu => hu.congr rfl rfl) ht hadd, ?_⟩
  obtain ⟨front, rest, -, -, rfl⟩ := addCompetitor_ok hadd
  exact h.relayer

theorem Belongs.confirmed (h : q.Belongs owner relayerId) {id : TransactionId} :
    (q.moveMiningToConfirmed id).Belongs owner relayerId := ⟨h.toCopies.confirmed, h.relayer⟩

/-- Winner and loser of a race are members of the entry. -/
theorem resolveCompetition_belongs {relayAddress : EvmAddress} {c : CompetitiveTransaction}
    {id : TransactionId} {receipt : Receipt} {now : DateTime} {r : CompetitionResolutionResult}
    (hc : ∀ t ∈ c.transactions, t.Belongs owner relayerId)
    (h : resolveCompetition relayAddress c id receipt now = some r) :
    r.winner.Belongs owner relayerId ∧ ∀ loser ∈ r.loser, loser.Belongs owner relayerId := by
  have horiginal := hc c.original (List.mem_cons_self ..)
  have hcompetitor {competitor : Transaction} {type : CompetitionType}
      (h : c.competitive = some (competitor, type)) : competitor.Belongs owner relayerId :=
    hc competitor (by simp [CompetitiveTransaction.transactions, h])
  unfold resolveCompetition at h
  split at h
  · cases h
    refine ⟨horiginal.congr rfl rfl, fun loser hloser => ?_⟩
    rcases hcompetitive : c.competitive with _ | ⟨competitor, type⟩
    · rw [hcompetitive] at hloser
      cases hloser
    · rw [hcompetitive] at hloser
      cases hloser
      exact hcompetitor hcompetitive
  · split at h
    · rename_i competitor type hcompetitive
      split at h
      · cases h
        refine ⟨(hcompetitor hcompetitive).congr rfl rfl, fun loser hloser => ?_⟩
        cases hloser
        cases type <;> exact horiginal.congr rfl rfl
      · cases h
    · cases h

theorem Belongs.moveInmempool (h : q.Belongs owner relayerId) {id : TransactionId}
    {receipt : Receipt} {now : DateTime} {r : CompetitionResolutionResult}
    {q' : TransactionsQueue} (hmove : q.moveInmempoolToMining id receipt now = .ok (r, q')) :
    q'.Belongs owner relayerId ∧ r.winner.Belongs owner relayerId ∧
      ∀ loser ∈ r.loser, loser.Belongs owner relayerId := by
  obtain ⟨⟨front, hfront, hresolve⟩, -, -⟩ := Locked.moveInmempoolToMining_lists hmove
  obtain ⟨hwinner, hloser⟩ :=
    resolveCompetition_belongs (h.sent front (List.mem_of_head? hfront)) hresolve
  refine ⟨⟨h.toCopies.moveInmempool hwinner hmove, ?_⟩, hwinner, hloser⟩
  unfold moveInmempoolToMining at hmove
  split at hmove
  · cases hmove
  · split at hmove
    · cases hmove
    · cases hmove
      exact h.relayer

end TransactionsQueue

namespace Locked

/-- The relayer over what the database holds of it. -/
def ofRelayer (owner : TransactionId → RelayerId) (relayerId : RelayerId) (l : Locked) : Locked :=
  { l with db := l.db.ofRelayer owner relayerId }

/-- A relayer that holds its own transactions only, over a database whose rows name their owners. -/
structure Belongs (owner : TransactionId → RelayerId) (relayerId : RelayerId) (l : Locked) :
    Prop where
  owned : l.db.Owned owner
  queue : l.queue.Belongs owner relayerId

/-- What an operation of the relayer leaves: its own transactions, and the others' rows untouched. -/
structure Stays (owner : TransactionId → RelayerId) (relayerId : RelayerId) (l l' : Locked) :
    Prop where
  change : l.db.OwnChange owner relayerId l'.db
  queue : l'.queue.Belongs owner relayerId

/-- The outcome of an operation as the relayer alone would have it. -/
def ownOutcome (owner : TransactionId → RelayerId) (relayerId : RelayerId) {ρ : Type}
    (o : Locked × ρ) : Locked × ρ := (o.1.ofRelayer owner relayerId, o.2)

variable {l l' : Locked}

theorem Stays.refl (h : l.Belongs owner relayerId) : l.Stays owner relayerId l :=
  ⟨.refl h.owned, h.queue⟩

theorem Stays.belongs (h : l.Stays owner relayerId l') : l'.Belongs owner relayerId :=
  ⟨h.change.owned, h.queue⟩

theorem Stays.trans {l'' : Locked} (h : l.Stays owner relayerId l')
    (h' : l'.Stays owner relayerId l'') : l.Stays owner relayerId l'' :=
  ⟨h.change.trans h'.change, h'.queue⟩

/-- A change of the queue alone. -/
theorem Stays.of_queue (h : l.Belongs owner relayerId) {q : TransactionsQueue}
    (hq : q.Belongs owner relayerId) : l.Stays owner relayerId { l with queue := q } :=
  ⟨.refl h.owned, hq⟩

/-- A change of the relayer's own rows alone. -/
theorem Stays.of_db (h : l.Belongs owner relayerId) {db : Db}
    (hchange : l.db.OwnChange owner relayerId db) :
    l.Stays owner relayerId { l with db := db } := ⟨hchange, h.queue⟩

section Send

variable {t : Transaction} {env : SendEnv}

theorem send_ofRelayer (h : l.Belongs owner relayerId) (ht : owner t.id = relayerId) :
    (l.ofRelayer owner relayerId).send env t =
      ((l.send env t).1, (l.send env t).2.1.ofRelayer owner relayerId, (l.send env t).2.2) := by
  have hid := (prepareSend_spec l.queue.toSendConfig env t).1.id
  have hrelayer : l.queue.toSendConfig.relayer.id = relayerId := h.queue.relayer
  unfold send sendTransaction ofRelayer
  dsimp only
  rcases hp : prepareSend l.queue.toSendConfig env t with ⟨t', e | ⟨signed, sent⟩⟩
  · rfl
  · rw [hp] at hid
    have hattempt := Db.transactionBroadcastAttempt_ofRelayer h.owned (t := t') (hid ▸ ht) sent.hash
      sent.sentWithGas sent.sentWithBlobGas l.queue.toSendConfig.isLegacyTransactions env.nowSent
    unfold persistAndBroadcast
    dsimp only
    rw [hrelayer, hattempt]
    by_cases hpersist : env.persistAttempt = true
    · rw [if_pos hpersist, if_pos hpersist]
      rcases l.db.transactionBroadcastAttempt relayerId t' sent.hash sent.sentWithGas
        sent.sentWithBlobGas l.queue.toSendConfig.isLegacyTransactions env.nowSent with _ | db
      · rfl
      · dsimp only [Option.map_some]
        rcases env.broadcast signed with e | _
        · rfl
        · dsimp only
          by_cases hmark : env.markSent = true
          · rw [if_pos hmark, if_pos hmark, Db.transactionSent_ofRelayer]
          · rw [if_neg hmark, if_neg hmark]
    · rw [if_neg hpersist, if_neg hpersist]

theorem send_stays (h : l.Belongs owner relayerId) (ht : t.Belongs owner relayerId) :
    l.Stays owner relayerId (l.send env t).2.1 ∧ (l.send env t).1.Belongs owner relayerId := by
  have hslot := (prepareSend_spec l.queue.toSendConfig env t).1
  have hrelayer : l.queue.toSendConfig.relayer.id = relayerId := h.queue.relayer
  have hattempted {t' : Transaction} {signed : SignedTransaction}
      {sent : TransactionSentWithRelayer} {db : Db}
      (hp : prepareSend l.queue.toSendConfig env t = (t', .ok (signed, sent)))
      (hattempt : l.db.transactionBroadcastAttempt l.queue.toSendConfig.relayer.id t' sent.hash
        sent.sentWithGas sent.sentWithBlobGas l.queue.toSendConfig.isLegacyTransactions
        env.nowSent = some db) : t'.Belongs owner relayerId ∧ l.db.OwnChange owner relayerId db := by
    rw [hp] at hslot
    have ht' : t'.Belongs owner relayerId := ht.congr hslot.id hslot.relayerId
    rw [hrelayer] at hattempt
    exact ⟨ht', Db.transactionBroadcastAttempt_change h.owned ht'.id hattempt⟩
  have hends := l.send_ends env t
  generalize l.send env t = o at hends ⊢
  cases hends with
  | unprepared hp | unrecorded hp =>
    rw [hp] at hslot
    exact ⟨.refl h, ht.congr hslot.id hslot.relayerId⟩
  | refused hp hattempt | unmarked hp hattempt =>
    obtain ⟨ht', hchange⟩ := hattempted hp hattempt
    exact ⟨⟨hchange, h.queue⟩, ht'.congr rfl rfl⟩
  | marked hp hattempt =>
    obtain ⟨ht', hchange⟩ := hattempted hp hattempt
    have hsent := (prepareSend_spec l.queue.toSendConfig env t).2
    rw [hp] at hsent
    have hid : owner _ = relayerId := (hsent _ _ rfl).id ▸ ht.id
    refine ⟨⟨hchange.trans (Db.transactionSent_change hchange.owned hid ..), h.queue⟩, ?_⟩
    exact ht'.congr rfl rfl

end Send

section Admission

variable {env : AdmissionEnv} {toSend : TransactionToSend} {t : Transaction}

theorem findAdmitted_ofRelayer {db : Db} (hdb : db.Owned owner) (served : Bool)
    (externalId : Option String) (digest : RequestDigest) :
    (db.ofRelayer owner relayerId).findAdmittedTransaction served relayerId externalId digest =
      db.findAdmittedTransaction served relayerId externalId digest := by
  unfold Db.findAdmittedTransaction
  split
  · rfl
  · rename_i id
    have hfind : ((db.ofRelayer owner relayerId).rows.find? fun r =>
        r.relayerId == relayerId && r.externalId == some id) =
        db.rows.find? fun r => r.relayerId == relayerId && r.externalId == some id := by
      apply Db.find?_own
      intro r hr h
      rw [Bool.and_eq_true] at h
      exact Db.own_of_relayerId hdb hr h.1
    rw [hfind]

theorem resolveAdmission_ofRelayer (h : l.Belongs owner relayerId) (ht : owner t.id = relayerId) :
    (l.ofRelayer owner relayerId).resolveAdmissionInsertError env t =
      l.resolveAdmissionInsertError env t := by
  have hrelayer : l.queue.relayer.id = relayerId := h.queue.relayer
  unfold resolveAdmissionInsertError ofRelayer
  dsimp only
  rw [hrelayer, Db.row_ofRelayer ht, Db.externalIdTaken_ofRelayer h.owned,
    findAdmitted_ofRelayer h.owned]

theorem admissionFailed_ofRelayer (h : l.Belongs owner relayerId) (ht : owner t.id = relayerId)
    (error : AddTransactionError) : (l.ofRelayer owner relayerId).admissionFailed env t error =
      ownOutcome owner relayerId (l.admissionFailed env t error) := by
  have hrelayer : l.queue.relayer.id = relayerId := h.queue.relayer
  have hsaved := Db.transactionFailedOnSend_ofRelayer h.owned (t := { t with status := .failed }) ht
    (alwaysFailing (env.describe error)) env.nowFailed
  have hresolve := @resolveAdmission_ofRelayer owner relayerId l env { t with status := .failed } h ht
  unfold admissionFailed
  rw [hresolve]
  unfold ofRelayer
  dsimp only
  rw [hrelayer, hsaved]
  by_cases hwrite : env.write = true
  · rw [if_pos hwrite, if_pos hwrite]
    rcases l.db.transactionFailedOnSend relayerId { t with status := .failed }
      (alwaysFailing (env.describe error)) env.nowFailed with _ | db <;> rfl
  · rw [if_neg hwrite, if_neg hwrite]
    rfl

theorem reserveAndSave_ofRelayer (h : l.Belongs owner relayerId) (ht : owner t.id = relayerId)
    (gasLimit : GasLimit) : (l.ofRelayer owner relayerId).reserveAndSave env t gasLimit =
      ownOutcome owner relayerId (l.reserveAndSave env t gasLimit) := by
  have hrelayer : l.queue.relayer.id = relayerId := h.queue.relayer
  have hsaved := Db.saveTransaction_ofRelayer h.owned (t := l.reserved t gasLimit) ht
  have hreleased (q : TransactionsQueue) (hq : q.relayer = l.queue.relayer) :
      ({ l.ofRelayer owner relayerId with queue := q } : Locked).resolveAdmissionInsertError env
          (l.reserved t gasLimit) =
        ({ l with queue := q } : Locked).resolveAdmissionInsertError env (l.reserved t gasLimit) := by
    unfold resolveAdmissionInsertError ofRelayer
    dsimp only
    rw [hq, hrelayer, Db.row_ofRelayer (x := (l.reserved t gasLimit).id) ht,
      Db.externalIdTaken_ofRelayer h.owned, findAdmitted_ofRelayer h.owned]
  have hsave : (l.ofRelayer owner relayerId).saveAdmitted env (l.reserved t gasLimit) =
      (l.saveAdmitted env (l.reserved t gasLimit)).map (Db.ofRelayer owner relayerId) := by
    unfold saveAdmitted ofRelayer
    dsimp only
    rw [hrelayer, hsaved]
    by_cases hwrite : env.write = true
    · rw [if_pos hwrite, if_pos hwrite]
    · rw [if_neg hwrite, if_neg hwrite]
      rfl
  unfold reserveAndSave
  dsimp only
  have hreserved : (l.ofRelayer owner relayerId).reserved t gasLimit = l.reserved t gasLimit := rfl
  rw [hreserved, hsave]
  rcases l.saveAdmitted env (l.reserved t gasLimit) with _ | db
  · exact Prod.ext rfl (hreleased _ rfl)
  · rfl

theorem admitNew_ofRelayer (h : l.Belongs owner relayerId) (hid : owner toSend.id = relayerId)
    (onchainNonce : ℕ) : (l.ofRelayer owner relayerId).admitNew env toSend onchainNonce =
      ownOutcome owner relayerId (l.admitNew env toSend onchainNonce) := by
  have ht : owner (l.admittedTransaction env toSend onchainNonce).id = relayerId := hid
  have hgas (t : Transaction) : (l.ofRelayer owner relayerId).computeTransactionGasPrices env t =
      l.computeTransactionGasPrices env t := rfl
  have hestimate (t : Transaction) (gas : GasPriceResult) (blobGas : Option BlobGasPriceResult) :
      (l.ofRelayer owner relayerId).estimateAndValidateGas env t gas blobGas =
        l.estimateAndValidateGas env t gas blobGas := rfl
  have hadmitted : (l.ofRelayer owner relayerId).admittedTransaction env toSend onchainNonce =
      l.admittedTransaction env toSend onchainNonce := rfl
  unfold admitNew
  dsimp only
  rw [hadmitted, hgas]
  rcases l.computeTransactionGasPrices env (l.admittedTransaction env toSend onchainNonce) with
    e | ⟨gas, blobGas⟩
  · rfl
  · dsimp only
    rw [hestimate]
    rcases l.estimateAndValidateGas env (l.admittedTransaction env toSend onchainNonce) gas blobGas
      with e | gasLimit
    · exact admissionFailed_ofRelayer h ht e
    · exact reserveAndSave_ofRelayer h ht gasLimit

theorem addTransaction_ofRelayer (h : l.Belongs owner relayerId)
    (hid : owner toSend.id = relayerId) : (l.ofRelayer owner relayerId).addTransaction env toSend =
      ownOutcome owner relayerId (l.addTransaction env toSend) := by
  have hrelayer : l.queue.relayer.id = relayerId := h.queue.relayer
  have hfind : (l.ofRelayer owner relayerId).db.findAdmittedTransaction env.read
      (l.ofRelayer owner relayerId).queue.relayer.id toSend.externalId (toSendDigest toSend) =
      l.db.findAdmittedTransaction env.read l.queue.relayer.id toSend.externalId
        (toSendDigest toSend) := by
    show (l.db.ofRelayer owner relayerId).findAdmittedTransaction env.read l.queue.relayer.id
      toSend.externalId (toSendDigest toSend) = _
    rw [hrelayer, findAdmitted_ofRelayer h.owned]
  unfold addTransaction
  rw [hfind]
  have hqueue : (l.ofRelayer owner relayerId).queue = l.queue := rfl
  rcases l.db.findAdmittedTransaction env.read l.queue.relayer.id toSend.externalId
    (toSendDigest toSend) with e | _ | stored
  · rfl
  · dsimp only
    rw [hqueue]
    split
    · rfl
    · split
      · rfl
      · rcases pendingNonceAcrossClients env.clients with e | onchainNonce
        · rfl
        · have hsynced : ({ l with queue := { l.queue with
              nonceManager := l.queue.nonceManager.syncWithOnchainNonce onchainNonce } } :
                Locked).Belongs owner relayerId :=
            ⟨h.owned, ⟨h.queue.pending, h.queue.sent, h.queue.mined⟩, h.queue.relayer⟩
          exact admitNew_ofRelayer hsynced hid onchainNonce
  · rfl

theorem addTransaction_stays (h : l.Belongs owner relayerId) (hid : owner toSend.id = relayerId) :
    l.Stays owner relayerId (l.addTransaction env toSend).1 := by
  have hrelayer : l.queue.relayer.id = relayerId := h.queue.relayer
  have hmanager (manager : NonceManager) :
      (l.withManager manager).queue.Belongs owner relayerId :=
    ⟨⟨h.queue.pending, h.queue.sent, h.queue.mined⟩, h.queue.relayer⟩
  have hleaves := l.addTransaction_leaves env toSend
  generalize (l.addTransaction env toSend).1 = l' at hleaves ⊢
  cases hleaves with
  | kept manager => exact ⟨.refl h.owned, hmanager manager⟩
  | rejected manager ht _ hsaved =>
    rw [hrelayer] at hsaved
    exact ⟨Db.transactionFailedOnSend_change h.owned (ht ▸ hid) hsaved, hmanager manager⟩
  | saved manager ht hown _ _ _ hsaved =>
    rw [hrelayer] at hsaved hown
    exact ⟨Db.saveTransaction_change h.owned (ht ▸ hid) hsaved,
      (hmanager manager).addPending ⟨ht ▸ hid, hown⟩⟩

end Admission

section Pending

variable {env : PendingEnv} {t : Transaction}

theorem moveSent_ofRelayer (sent : TransactionSentWithRelayer)
    (result : ProcessResult ProcessPendingStatus) :
    (l.ofRelayer owner relayerId).moveSent env t sent result =
      ownOutcome owner relayerId (l.moveSent env t sent result) := by
  unfold moveSent ofRelayer
  dsimp only
  rcases l.queue.movePendingToInmempool t sent env.nowMoved with e | q <;> rfl

theorem moveSent_stays (h : l.Belongs owner relayerId) (ht : t.Belongs owner relayerId)
    {sent : TransactionSentWithRelayer} {result : ProcessResult ProcessPendingStatus} :
    l.Stays owner relayerId (l.moveSent env t sent result).1 := by
  unfold moveSent
  rcases hmove : l.queue.movePendingToInmempool t sent env.nowMoved with e | q
  · exact .refl h
  · exact .of_queue h (h.queue.movePending ht hmove)

theorem closeOut_ofRelayer (reason : String) :
    (l.ofRelayer owner relayerId).closeOutPendingTransactionAsNoop env t reason =
      ownOutcome owner relayerId (l.closeOutPendingTransactionAsNoop env t reason) := by
  have hclosed : (l.ofRelayer owner relayerId).closedOut t reason = l.closedOut t reason := rfl
  unfold closeOutPendingTransactionAsNoop
  dsimp only
  rw [hclosed]
  unfold ofRelayer
  split
  · dsimp only
    rw [Db.transactionUpdate_ofRelayer]
    rfl
  · rfl

theorem resolveMined_ofRelayer (attempt : RecordedTransactionAttempt) (gas : GasPriceResult) :
    (l.ofRelayer owner relayerId).resolvePendingTransactionMined env t attempt gas =
      ownOutcome owner relayerId (l.resolvePendingTransactionMined env t attempt gas) := by
  unfold resolvePendingTransactionMined
  split
  · have hmove := @moveSent_ofRelayer owner relayerId { l with
      db := l.db.transactionSent t.id attempt.hash gas attempt.sentWithBlobGas
        l.queue.isLegacyTransactions env.nowWrite } env t (attemptSent t attempt gas)
      (.other .nonceSynchronized (some 100))
    rw [← hmove]
    unfold ofRelayer
    dsimp only
    rw [Db.transactionSent_ofRelayer]
  · rfl

theorem recoverPending_ofRelayer (h : l.Belongs owner relayerId) (ht : owner t.id = relayerId)
    (attempt : RecordedTransactionAttempt) (gas : GasPriceResult) :
    (l.ofRelayer owner relayerId).recoverPendingLandedAttempt env t attempt gas =
      ownOutcome owner relayerId (l.recoverPendingLandedAttempt env t attempt gas) := by
  obtain rfl := h.queue.relayer
  have hown := @Db.recoverLanded_ofRelayer owner _ l.db t.id ht attempt.hash gas
    attempt.sentWithBlobGas l.queue.isLegacyTransactions env.nowWrite
  unfold recoverPendingLandedAttempt ofRelayer
  dsimp only
  split
  · rw [hown]
    rcases l.db.recoverLandedTransactionAttempt l.queue.relayer.id t.id attempt.hash gas
      attempt.sentWithBlobGas l.queue.isLegacyTransactions env.nowWrite with ⟨_ | _, db⟩
    · rfl
    · exact @moveSent_ofRelayer owner _ { l with db := db } env t _ _
  · rfl

theorem reassignPending_ofRelayer (error : String) :
    (l.ofRelayer owner relayerId).reassignPendingNonce env t error =
      ownOutcome owner relayerId (l.reassignPendingNonce env t error) := by
  have hrecover : (l.ofRelayer owner relayerId).recoverNonceSynchronization env.clients =
      l.recoverNonceSynchronization env.clients := rfl
  unfold reassignPendingNonce
  rw [hrecover]
  rcases l.recoverNonceSynchronization env.clients with e | newNonce
  · rfl
  · dsimp only
    split
    · unfold advanceTransactionNonce ofRelayer
      dsimp only
      rw [Db.transactionUpdateNonce_ofRelayer]
      rfl
    · rfl

theorem pendingNonceConflict_ofRelayer (h : l.Belongs owner relayerId) (ht : owner t.id = relayerId)
    (error : String) : (l.ofRelayer owner relayerId).pendingNonceConflict env t error =
      ownOutcome owner relayerId (l.pendingNonceConflict env t error) := by
  have hattempts : (l.ofRelayer owner relayerId).db.getRecordedTransactionAttempts t.id =
      l.db.getRecordedTransactionAttempts t.id := Db.attempts_ofRelayer ht
  unfold pendingNonceConflict
  dsimp only
  rw [hattempts]
  split
  · rfl
  · split
    · rfl
    · rcases findLandedAttempt env.clients (l.db.getRecordedTransactionAttempts t.id) with
        e | _ | attempt
      · rfl
      · exact reassignPending_ofRelayer error
      · dsimp only
        rcases attempt.sentWithGas with _ | gas
        · rfl
        · dsimp only
          rcases env.getReceipt attempt.hash with e | _ | receipt
          · rfl
          · exact recoverPending_ofRelayer h ht attempt gas
          · exact resolveMined_ofRelayer attempt gas

theorem pendingFailed_ofRelayer (h : l.Belongs owner relayerId) (ht : owner t.id = relayerId)
    (error : TransactionQueueSendTransactionError) :
    (l.ofRelayer owner relayerId).pendingFailed env t error =
      ownOutcome owner relayerId (l.pendingFailed env t error) := by
  cases error with
  | transactionEstimateGasError e =>
    dsimp only [pendingFailed]
    split
    · exact closeOut_ofRelayer e
    · rfl
  | transactionSendError e =>
    dsimp only [pendingFailed]
    split
    · rfl
    · exact closeOut_ofRelayer e
    · rfl
    · exact pendingNonceConflict_ofRelayer h ht e
    · rfl
    · rfl
  | _ => rfl

theorem pendingFailed_stays (h : l.Belongs owner relayerId) (ht : t.Belongs owner relayerId)
    {error : TransactionQueueSendTransactionError} :
    l.Stays owner relayerId (l.pendingFailed env t error).1 := by
  have hrelayer : l.queue.relayer.id = relayerId := h.queue.relayer
  have hleaves := l.pendingFailed_leaves env t error
  generalize (l.pendingFailed env t error).1 = l' at hleaves ⊢
  cases hleaves with
  | kept => exact .refl h
  | closedOut reason =>
    have hclosed : (l.closedOut t reason).Belongs owner relayerId := ht.congr rfl rfl
    exact ⟨Db.transactionUpdate_change h.owned hclosed.id hclosed.relayer _,
      h.queue.updatePending hclosed⟩
  | reassigned newNonce =>
    have hqueue : (l.advanceTransactionNonce t.id newNonce).queue.Belongs owner relayerId :=
      ⟨⟨h.queue.pending, h.queue.sent, h.queue.mined⟩, h.queue.relayer⟩
    exact ⟨Db.transactionUpdateNonce_change h.owned ht.id _, hqueue.updatePendingNonce⟩
  | @mined attempt gas =>
    have hsent := Stays.of_db h (Db.transactionSent_change h.owned ht.id attempt.hash gas
      attempt.sentWithBlobGas l.queue.isLegacyTransactions env.nowWrite)
    exact hsent.trans (moveSent_stays hsent.belongs ht)
  | @recovered attempt gas db _ _ hserved =>
    have hchange : l.db.OwnChange owner relayerId db := by
      rw [hrelayer] at hserved
      have hrecover := @Db.recoverLanded_change owner relayerId l.db t.id h.owned ht.id attempt.hash
        gas attempt.sentWithBlobGas l.queue.isLegacyTransactions env.nowWrite
      rw [hserved] at hrecover
      exact hrecover
    have hrecovered := Stays.of_db h hchange
    exact hrecovered.trans (moveSent_stays hrecovered.belongs ht)

theorem pendingHead_belongs (h : l.Belongs owner relayerId)
    (hnext : l.queue.getNextPendingTransaction = some t) :
    (l.pendingCopy env t).Belongs owner relayerId := by
  have ht := h.queue.pending t (List.mem_of_head? hnext)
  have hslot := pendingCopy_sameSlot l env t
  exact ht.congr hslot.id hslot.relayerId

theorem processSinglePending_ofRelayer (h : l.Belongs owner relayerId) :
    (l.ofRelayer owner relayerId).processSinglePending env =
      ownOutcome owner relayerId (l.processSinglePending env) := by
  have hqueue : (l.ofRelayer owner relayerId).queue = l.queue := rfl
  have hcopy (t : Transaction) : (l.ofRelayer owner relayerId).pendingCopy env t =
      l.pendingCopy env t := rfl
  unfold processSinglePending
  rw [hqueue]
  split
  · rfl
  · rcases hnext : l.queue.getNextPendingTransaction with _ | t
    · rfl
    · dsimp only
      split
      · rfl
      · have hbelongs := @pendingHead_belongs owner relayerId l env t h hnext
        have hstays := @send_stays owner relayerId l (l.pendingCopy env t) env.send h hbelongs
        rw [hcopy, send_ofRelayer h hbelongs.id]
        rcases hsend : l.send env.send (l.pendingCopy env t) with ⟨t', l', e | sent⟩
        · rw [hsend] at hstays
          exact pendingFailed_ofRelayer hstays.1.belongs hstays.2.id e
        · exact moveSent_ofRelayer sent ⟨.success, 10⟩

theorem processSinglePending_stays (h : l.Belongs owner relayerId) :
    l.Stays owner relayerId (l.processSinglePending env).1 := by
  unfold processSinglePending
  split
  · exact .refl h
  · rcases hnext : l.queue.getNextPendingTransaction with _ | t
    · exact .refl h
    · dsimp only
      split
      · exact .refl h
      · have hbelongs := @pendingHead_belongs owner relayerId l env t h hnext
        have hstays := @send_stays owner relayerId l (l.pendingCopy env t) env.send h hbelongs
        rcases hsend : l.send env.send (l.pendingCopy env t) with ⟨t', l', e | sent⟩
        · rw [hsend] at hstays
          exact hstays.1.trans (pendingFailed_stays hstays.1.belongs hstays.2)
        · rw [hsend] at hstays
          exact hstays.1.trans (moveSent_stays hstays.1.belongs hstays.2)

end Pending

section Inmempool

variable {env : InmempoolEnv} {t : Transaction}

theorem saveResolution_ofRelayer (receipt : Receipt) (r : CompetitionResolutionResult) :
    (l.ofRelayer owner relayerId).saveResolution env receipt r =
      ownOutcome owner relayerId (l.saveResolution env receipt r) := by
  unfold saveResolution
  rcases r with ⟨winner, winnerStatus, loser⟩
  unfold ofRelayer
  cases winnerStatus with
  | mined =>
    dsimp only
    rw [Db.transactionMined_ofRelayer]
    split
    · rfl
    · rcases loser with _ | loser
      · rfl
      · dsimp only
        split
        · rfl
        · rw [Db.transactionUpdate_ofRelayer]
          rfl
  | expired =>
    dsimp only
    rw [Db.transactionExpired_ofRelayer]
    split <;> rfl
  | failed =>
    dsimp only
    rw [Db.updateTransactionFailed_ofRelayer]
    split <;> rfl
  | _ => rfl

theorem saveResolution_stays (h : l.Belongs owner relayerId) {receipt : Receipt}
    {r : CompetitionResolutionResult} (hwinner : r.winner.Belongs owner relayerId)
    (hloser : ∀ loser ∈ r.loser, loser.Belongs owner relayerId) :
    l.Stays owner relayerId (l.saveResolution env receipt r).1 := by
  unfold saveResolution
  split
  · split
    · exact .refl h
    · have hmined := Stays.of_db h
        (Db.transactionMined_change h.owned hwinner.id receipt env.nowWrite)
      dsimp only
      split
      · exact hmined
      · rename_i loser hr
        split
        · exact hmined
        · have hbelongs := hloser loser hr
          exact hmined.trans (.of_db hmined.belongs (Db.transactionUpdate_change hmined.change.owned
            hbelongs.id hbelongs.relayer env.nowWrite))
  · split
    · exact .refl h
    · exact .of_db h (Db.transactionExpired_change h.owned hwinner.id _)
  · split
    · exact .refl h
    · exact .of_db h (Db.updateTransactionFailed_change h.owned hwinner.id _ _)
  · exact .refl h

theorem resolveInmempool_ofRelayer (receipt : Receipt) :
    (l.ofRelayer owner relayerId).resolveInmempool env t receipt =
      ownOutcome owner relayerId (l.resolveInmempool env t receipt) := by
  have hqueue : (l.ofRelayer owner relayerId).queue = l.queue := rfl
  unfold resolveInmempool
  rw [hqueue]
  rcases l.queue.moveInmempoolToMining t.id receipt env.now with e | ⟨r, q⟩
  · rfl
  · exact @saveResolution_ofRelayer owner relayerId { l with queue := q } env receipt r

theorem resolveInmempool_stays (h : l.Belongs owner relayerId) {receipt : Receipt} :
    l.Stays owner relayerId (l.resolveInmempool env t receipt).1 := by
  unfold resolveInmempool
  rcases hmove : l.queue.moveInmempoolToMining t.id receipt env.now with e | ⟨r, q⟩
  · exact .refl h
  · obtain ⟨hq, hwinner, hloser⟩ := h.queue.moveInmempool hmove
    have hmoved := Stays.of_queue h hq
    exact hmoved.trans (saveResolution_stays hmoved.belongs hwinner hloser)

theorem reassignInmempool_ofRelayer (error : String) :
    (l.ofRelayer owner relayerId).reassignInmempoolNonce env t error =
      ownOutcome owner relayerId (l.reassignInmempoolNonce env t error) := by
  have hrecover : (l.ofRelayer owner relayerId).recoverNonceSynchronization env.clients =
      l.recoverNonceSynchronization env.clients := rfl
  unfold reassignInmempoolNonce
  rw [hrecover]
  rcases l.recoverNonceSynchronization env.clients with e | newNonce
  · rfl
  · dsimp only
    split
    · unfold advanceTransactionNonce ofRelayer
      dsimp only
      rw [Db.transactionUpdateNonce_ofRelayer]
      rfl
    · rfl

theorem bumpFailed_ofRelayer (error : TransactionQueueSendTransactionError) :
    (l.ofRelayer owner relayerId).bumpFailed env t error =
      ownOutcome owner relayerId (l.bumpFailed env t error) := by
  cases error with
  | transactionSendError e =>
    dsimp only [bumpFailed]
    split
    · rfl
    · unfold inmempoolNonceConflict
      split
      · exact reassignInmempool_ofRelayer e
      · split
        · exact reassignInmempool_ofRelayer e
        · rfl
        · rfl
    · rfl
  | _ => rfl

theorem bumpFailed_stays (h : l.Belongs owner relayerId) (ht : t.Belongs owner relayerId)
    {error : TransactionQueueSendTransactionError} :
    l.Stays owner relayerId (l.bumpFailed env t error).1 := by
  have hleaves := l.bumpFailed_leaves env t error
  generalize (l.bumpFailed env t error).1 = l' at hleaves ⊢
  cases hleaves with
  | kept => exact .refl h
  | reassigned newNonce =>
    have hqueue : (l.advanceTransactionNonce t.id newNonce).queue.Belongs owner relayerId :=
      ⟨⟨h.queue.pending, h.queue.sent, h.queue.mined⟩, h.queue.relayer⟩
    exact ⟨Db.transactionUpdateNonce_change h.owned ht.id _, hqueue.updateInmempoolNonce⟩

theorem bumpSent_stays (h : l.Belongs owner relayerId) {wasNoop : Bool}
    {sent : TransactionSentWithRelayer} :
    l.Stays owner relayerId (l.bumpSent env t wasNoop sent).1 := by
  have hgas : (l.queue.updateInmempoolTransactionGas sent env.nowWrite).Belongs owner relayerId :=
    h.queue.updateFront fun _ => ⟨rfl, rfl⟩
  unfold bumpSent
  dsimp only
  split
  · exact .of_queue h (hgas.updateFront fun _ => ⟨rfl, rfl⟩)
  · exact .of_queue h hgas

theorem bumpInmempool_ofRelayer (h : l.Belongs owner relayerId) (ht : owner t.id = relayerId) :
    (l.ofRelayer owner relayerId).bumpInmempool env t =
      ownOutcome owner relayerId (l.bumpInmempool env t) := by
  unfold bumpInmempool
  rw [send_ofRelayer h ht]
  rcases l.send env.send t with ⟨bumped, l', e | sent⟩
  · exact bumpFailed_ofRelayer e
  · rfl

theorem bumpInmempool_stays (h : l.Belongs owner relayerId) (ht : t.Belongs owner relayerId) :
    l.Stays owner relayerId (l.bumpInmempool env t).1 := by
  have hstays := @send_stays owner relayerId l t env.send h ht
  unfold bumpInmempool
  rcases hsend : l.send env.send t with ⟨bumped, l', e | sent⟩
  · rw [hsend] at hstays
    exact hstays.1.trans (bumpFailed_stays hstays.1.belongs hstays.2)
  · rw [hsend] at hstays
    exact hstays.1.trans (bumpSent_stays hstays.1.belongs)

theorem nextInmempool_belongs (h : l.Belongs owner relayerId)
    (hnext : l.queue.getNextInmempoolTransaction = some t) : t.Belongs owner relayerId := by
  obtain ⟨c, hc, rfl⟩ := Option.map_eq_some_iff.mp hnext
  exact h.queue.sent c (List.mem_of_head? hc) _ (active_mem_transactions c)

theorem processSingleInmempool_ofRelayer (h : l.Belongs owner relayerId) :
    (l.ofRelayer owner relayerId).processSingleInmempool env =
      ownOutcome owner relayerId (l.processSingleInmempool env) := by
  have hqueue : (l.ofRelayer owner relayerId).queue = l.queue := rfl
  have hdue (t : Transaction) : (l.ofRelayer owner relayerId).bumpDue env t = l.bumpDue env t := rfl
  unfold processSingleInmempool
  rw [hqueue]
  rcases hnext : l.queue.getNextInmempoolTransaction with _ | t
  · rfl
  · have ht := nextInmempool_belongs h hnext
    dsimp only
    split
    · rfl
    · rcases t.knownTransactionHash with _ | hash
      · rfl
      · dsimp only
        rcases env.pollReceipt hash with e | _ | receipt
        · rfl
        · dsimp only
          rw [hdue]
          split
          · exact bumpInmempool_ofRelayer h ht.id
          · rfl
        · exact resolveInmempool_ofRelayer receipt

theorem processSingleInmempool_stays (h : l.Belongs owner relayerId) :
    l.Stays owner relayerId (l.processSingleInmempool env).1 := by
  unfold processSingleInmempool
  rcases hnext : l.queue.getNextInmempoolTransaction with _ | t
  · exact .refl h
  · have ht := nextInmempool_belongs h hnext
    dsimp only
    split
    · exact .refl h
    · rcases t.knownTransactionHash with _ | hash
      · exact .refl h
      · dsimp only
        rcases env.pollReceipt hash with e | _ | receipt
        · exact .refl h
        · dsimp only
          split
          · exact bumpInmempool_stays h ht
          · exact .refl h
        · exact resolveInmempool_stays h

theorem processSingleMined_ofRelayer (env : MinedEnv) :
    (l.ofRelayer owner relayerId).processSingleMined env =
      ownOutcome owner relayerId (l.processSingleMined env) := by
  have hqueue : (l.ofRelayer owner relayerId).queue = l.queue := rfl
  have hconfirm (t : Transaction) : (l.ofRelayer owner relayerId).confirmMined env t =
      ownOutcome owner relayerId (l.confirmMined env t) := by
    unfold confirmMined
    dsimp only
    rcases t.knownTransactionHash with _ | hash
    · rfl
    · dsimp only
      rcases env.getReceipt hash with e | _ | receipt
      · rfl
      · rfl
      · dsimp only
        split
        · unfold ofRelayer
          dsimp only
          rw [Db.transactionConfirmed_ofRelayer]
          rfl
        · rfl
  unfold processSingleMined
  rw [hqueue]
  rcases l.queue.getNextMinedTransaction env.pick with _ | t
  · rfl
  · dsimp only
    split
    · rfl
    · rcases t.minedAt with _ | minedAt
      · rfl
      · dsimp only
        split
        · exact hconfirm t
        · rfl

theorem processSingleMined_stays (h : l.Belongs owner relayerId) (env : MinedEnv) :
    l.Stays owner relayerId (l.processSingleMined env).1 := by
  rcases l.processSingleMined_cases env with hkept | ⟨t, hnext, hconfirmed⟩
  · rw [hkept]
    exact .refl h
  · have ht := h.queue.mined t (getNextMined_mem hnext)
    rw [hconfirmed]
    exact ⟨Db.transactionConfirmed_change h.owned ht.id _, h.queue.confirmed⟩

end Inmempool

section Compete

variable {env : CompeteEnv} {original competitor t : Transaction}

theorem sendCompetitor_ofRelayer (h : l.Belongs owner relayerId)
    (hcompetitor : owner competitor.id = relayerId) (type : CompetitionType) :
    (l.ofRelayer owner relayerId).sendCompetitor env original competitor type =
      ownOutcome owner relayerId (l.sendCompetitor env original competitor type) := by
  have hrecover (l : Locked) : (l.ofRelayer owner relayerId).recoverNonceSynchronization env.clients =
      l.recoverNonceSynchronization env.clients := rfl
  unfold sendCompetitor
  rw [send_ofRelayer h hcompetitor]
  rcases l.send env.send competitor with ⟨sentCompetitor, l', e | sent⟩
  · cases e with
    | transactionSendError e =>
      dsimp only
      rw [hrecover]
      split
      · rcases l'.recoverNonceSynchronization env.clients with e' | n <;> rfl
      · rfl
    | _ => rfl
  · unfold ofRelayer
    dsimp only
    rw [Db.transactionUpdate_ofRelayer]
    split
    · rfl
    · split <;> rfl

theorem sendCompetitor_stays (h : l.Belongs owner relayerId)
    (horiginal : original.Belongs owner relayerId) (hcompetitor : competitor.Belongs owner relayerId)
    {type : CompetitionType} :
    l.Stays owner relayerId (l.sendCompetitor env original competitor type).1 := by
  have hsent := @send_stays owner relayerId l competitor env.send h hcompetitor
  unfold sendCompetitor
  rcases hsend : l.send env.send competitor with ⟨sentCompetitor, l', e | sent⟩
  · rw [hsend] at hsent
    cases e with
    | transactionSendError e =>
      dsimp only
      split
      · split <;> exact hsent.1
      · exact hsent.1
    | _ => exact hsent.1
  · rw [hsend] at hsent
    obtain ⟨hsent, hsentCompetitor⟩ := hsent
    have hlinked : Transaction.Belongs owner relayerId
        { original with cancelledByTransactionId := some competitor.id } := horiginal.congr rfl rfl
    have htracked : Transaction.Belongs owner relayerId { sentCompetitor with
        status := .inmempool, knownTransactionHash := some sent.hash, sentAt := some env.nowWrite } :=
      hsentCompetitor.congr rfl rfl
    have hlink := Stays.of_db hsent.belongs
      (Db.transactionUpdate_change hsent.change.owned hlinked.id hlinked.relayer env.nowWrite)
    dsimp only
    split
    · exact hsent
    · split
      · exact hsent.trans hlink
      · rename_i q hadd
        have hq : q.Belongs owner relayerId := hsent.queue.addCompetitor htracked hadd
        exact (hsent.trans hlink).trans (.of_queue hlink.belongs hq)

theorem rewritePending_ofRelayer (t : Transaction) :
    (l.ofRelayer owner relayerId).rewritePending env t =
      (l.rewritePending env t).map (ofRelayer owner relayerId) := by
  unfold rewritePending
  split
  · unfold ofRelayer
    dsimp only
    rw [Db.transactionUpdate_ofRelayer]
    rfl
  · rfl

theorem rewritePending_stays (h : l.Belongs owner relayerId) (ht : t.Belongs owner relayerId)
    (hrewrite : l.rewritePending env t = some l') : l.Stays owner relayerId l' := by
  unfold rewritePending at hrewrite
  split at hrewrite
  · cases hrewrite
    exact ⟨Db.transactionUpdate_change h.owned ht.id ht.relayer _, h.queue.updatePending ht⟩
  · cases hrewrite

theorem editable_pending_belongs (h : l.Belongs owner relayerId) {id : TransactionId}
    (heditable : l.queue.getEditableTransactionById id = some (.pending t)) :
    t.Belongs owner relayerId := by
  obtain ⟨hfind, -⟩ := TransactionsQueue.getEditable_pending heditable
  exact h.queue.pending t (List.mem_of_find?_eq_some hfind)

theorem editable_inmempool_belongs (h : l.Belongs owner relayerId) {id : TransactionId}
    (heditable : l.queue.getEditableTransactionById id = some (.inmempool original)) :
    original.Belongs owner relayerId := by
  obtain ⟨c, hfind, rfl, -⟩ := TransactionsQueue.getEditable_inmempool heditable
  exact h.queue.sent c (List.mem_of_find?_eq_some hfind) _ (List.mem_cons_self ..)

theorem competitor_belongs (hnew : owner env.newId = relayerId)
    (horiginal : original.Belongs owner relayerId) (h : CompetesWith env original competitor) :
    competitor.Belongs owner relayerId :=
  ⟨h.id ▸ hnew, h.relayerId.trans horiginal.relayer⟩

theorem cancelInmempool_ofRelayer (h : l.Belongs owner relayerId)
    (hnew : owner env.newId = relayerId) :
    (l.ofRelayer owner relayerId).cancelInmempool env original =
      ownOutcome owner relayerId (l.cancelInmempool env original) := by
  have hcompetitor : (l.ofRelayer owner relayerId).competitor env original =
      l.competitor env original := rfl
  unfold cancelInmempool
  rcases original.sentWithGas with _ | gas
  · rfl
  · dsimp only
    rw [hcompetitor, sendCompetitor_ofRelayer h hnew]
    rfl

theorem cancelTransaction_ofRelayer (h : l.Belongs owner relayerId)
    (hnew : owner env.newId = relayerId) (id : TransactionId) :
    (l.ofRelayer owner relayerId).cancelTransaction env id =
      ownOutcome owner relayerId (l.cancelTransaction env id) := by
  have hqueue : (l.ofRelayer owner relayerId).queue = l.queue := rfl
  have hcancelled (t : Transaction) : (l.ofRelayer owner relayerId).cancelledPending t =
      l.cancelledPending t := rfl
  unfold cancelTransaction
  rw [hqueue]
  split
  · rfl
  · rcases l.queue.getEditableTransactionById id with _ | t | original
    · rfl
    · dsimp only
      rw [hcancelled, rewritePending_ofRelayer]
      split
      · rfl
      · rcases l.rewritePending env (l.cancelledPending t) with _ | l' <;> rfl
    · dsimp only
      split
      · rfl
      · exact cancelInmempool_ofRelayer h hnew

theorem cancelTransaction_stays (h : l.Belongs owner relayerId)
    (hnew : owner env.newId = relayerId) (id : TransactionId) :
    l.Stays owner relayerId (l.cancelTransaction env id).1 := by
  obtain hkept | ⟨t, heditable, hrewrite⟩ | ⟨original, competitor, hraced, hcompetitor, hsent⟩ :=
    l.cancelTransaction_cases env id
  · rw [hkept]
    exact .refl h
  · have ht := editable_pending_belongs h heditable
    have hcancelled : (l.cancelledPending t).Belongs owner relayerId := ht.congr rfl rfl
    exact rewritePending_stays h hcancelled hrewrite
  · obtain ⟨-, -, heditable⟩ := raced_some hraced
    have horiginal := editable_inmempool_belongs h heditable
    rw [hsent]
    exact sendCompetitor_stays h horiginal
      (competitor_belongs hnew horiginal (cancelCompetitor_competes hcompetitor))

theorem replacePending_ofRelayer (request : RelayTransactionRequest) (t : Transaction) :
    (l.ofRelayer owner relayerId).replacePending env request t =
      ownOutcome owner relayerId (l.replacePending env request t) := by
  unfold replacePending
  rcases decodeBlobs request with e | blobs
  · rfl
  · dsimp only
    rw [rewritePending_ofRelayer]
    rcases l.rewritePending env (transactionReplace request t blobs) with _ | l' <;> rfl

theorem replaceInmempool_ofRelayer (h : l.Belongs owner relayerId)
    (hnew : owner env.newId = relayerId) (request : RelayTransactionRequest)
    (externalId : Option String) :
    (l.ofRelayer owner relayerId).replaceInmempool env request original externalId =
      ownOutcome owner relayerId (l.replaceInmempool env request original externalId) := by
  have hreplacement (blobs : Option (List TransactionBlob)) (gasLimit : GasLimit) :
      (l.ofRelayer owner relayerId).replacement env request original externalId blobs gasLimit =
        l.replacement env request original externalId blobs gasLimit := rfl
  have hblobGas (t : Transaction) : (l.ofRelayer owner relayerId).replacementBlobGas env t =
      l.replacementBlobGas env t := rfl
  unfold replaceInmempool
  rcases decodeBlobs request with e | blobs
  · rfl
  · rcases original.sentWithGas with _ | gas
    · rfl
    · rcases original.gasLimit with _ | gasLimit
      · rfl
      · dsimp only
        rw [hreplacement, hblobGas]
        rcases l.replacementBlobGas env (l.replacement env request original externalId blobs gasLimit)
          with e | blobGas
        · rfl
        · have hown (blobGas : Option BlobGasPriceResult) : owner (Transaction.id
              { l.replacement env request original externalId blobs gasLimit with
                sentWithGas := some (competitorGas gas), sentWithBlobGas := blobGas }) =
              relayerId := hnew
          dsimp only
          rw [sendCompetitor_ofRelayer h (hown blobGas)]
          rfl

theorem replaceTransaction_ofRelayer (h : l.Belongs owner relayerId)
    (hnew : owner env.newId = relayerId) (request : RelayTransactionRequest) (id : TransactionId) :
    (l.ofRelayer owner relayerId).replaceTransaction env request id =
      ownOutcome owner relayerId (l.replaceTransaction env request id) := by
  have hqueue : (l.ofRelayer owner relayerId).queue = l.queue := rfl
  unfold replaceTransaction
  rw [hqueue]
  split
  · rfl
  · rcases l.queue.getEditableTransactionById id with _ | t | original
    · rfl
    · dsimp only
      split
      · rfl
      · rcases replacementExternalId t request.externalId false with e | externalId
        · rfl
        · exact replacePending_ofRelayer request t
    · dsimp only
      split
      · rfl
      · rcases replacementExternalId original request.externalId true with e | externalId
        · rfl
        · exact replaceInmempool_ofRelayer h hnew request externalId

theorem replaceTransaction_stays (h : l.Belongs owner relayerId)
    (hnew : owner env.newId = relayerId) (request : RelayTransactionRequest) (id : TransactionId) :
    l.Stays owner relayerId (l.replaceTransaction env request id).1 := by
  obtain hkept | ⟨t, blobs, heditable, hrewrite⟩ |
      ⟨original, competitor, hraced, hcompetitor, hsent⟩ :=
    l.replaceTransaction_cases env request id
  · rw [hkept]
    exact .refl h
  · have ht := editable_pending_belongs h heditable
    have hreplaced : (transactionReplace request t blobs).Belongs owner relayerId :=
      ht.congr rfl rfl
    exact rewritePending_stays h hreplaced hrewrite
  · obtain ⟨-, -, heditable⟩ := raced_some hraced
    have horiginal := editable_inmempool_belongs h heditable
    rw [hsent]
    exact sendCompetitor_stays h horiginal
      (competitor_belongs hnew horiginal (replaceCompetitor_competes hcompetitor))

end Compete

end Locked
end Rrelayer
