import Rrelayer.GasBumps

/-! Cancelling or replacing again after a competitor that was not broadcast. Its row stays, and with
it the external id derived from the original. -/
namespace Rrelayer

/-- Every call of a send is served. -/
structure SendEnv.Served (env : SendEnv) : Prop where
  gas : ∀ speed, (env.gasOracle speed).isSome = true
  blobGas : ∀ speed, (env.blobOracle speed).isSome = true
  safeNonce : ∀ address, ∃ nonce, env.getSafeNonce address = .ok nonce
  encodeSafe : ∀ address transaction, ∃ data, env.encodeSafe address transaction = .ok data
  sidecar : ∀ blobs, ∃ hashes, env.buildSidecar blobs = .ok hashes
  sign : ∀ request, ∃ signature, env.sign request = .ok signature
  persistAttempt : env.persistAttempt = true
  broadcast : ∀ signed, env.broadcast signed = .ok ()
  markSent : env.markSent = true

/-- Every call of a cancel or replace is served, and its new id is not taken. -/
structure CompeteEnv.Served (env : CompeteEnv) (db : Db) : Prop where
  guard : env.guard = true
  send : env.send.Served
  write : env.write = true
  newId : db.row env.newId = none

section Send

variable {config : SendConfig} {env : SendEnv} {t : Transaction}

theorem routeThroughSafe_served (h : env.Served) :
    ∃ r, routeThroughSafe config env t = .ok r := by
  unfold routeThroughSafe
  dsimp only
  split
  · exact ⟨_, rfl⟩
  · rename_i address _
    obtain ⟨nonce, hnonce⟩ := h.safeNonce address
    obtain ⟨data, hdata⟩ := h.encodeSafe address ⟨t.toAddress, t.value, t.data, nonce⟩
    rw [hnonce]
    dsimp only [Except.mapError, bind, Except.bind]
    rw [hdata]
    exact ⟨_, rfl⟩

theorem computeGasPrice_served (h : env.Served) (multiplier : ℕ) (speed : TransactionSpeed)
    (sent : Option GasPriceResult) :
    ∃ gas, computeGasPriceForTransaction multiplier env.gasOracle speed sent = .ok gas := by
  obtain ⟨price, hprice⟩ := Option.isSome_iff_exists.mp (h.gas speed)
  unfold computeGasPriceForTransaction
  rw [hprice]
  cases sent with
  | none => exact ⟨_, rfl⟩
  | some sent => exact ⟨_, rfl⟩

theorem computeBlobGasPrice_served (h : env.Served) (multiplier : ℕ) (speed : TransactionSpeed)
    (sent : Option BlobGasPriceResult) :
    ∃ gas, computeBlobGasPriceForTransaction multiplier env.blobOracle speed sent = .ok gas := by
  obtain ⟨price, hprice⟩ := Option.isSome_iff_exists.mp (h.blobGas speed)
  unfold computeBlobGasPriceForTransaction
  rw [hprice]
  cases sent with
  | none => exact ⟨_, rfl⟩
  | some sent => exact ⟨_, rfl⟩

theorem buildRequest_served (h : env.Served) (gas : GasPriceResult) (gasLimit : GasLimit) :
    ∃ r, buildRequest config env t gas gasLimit = .ok r := by
  unfold buildRequest
  split
  · rename_i hblob
    obtain ⟨blobs, hblobs⟩ := Option.isSome_iff_exists.mp hblob
    obtain ⟨hashes, hhashes⟩ := h.sidecar blobs
    obtain ⟨price, hprice⟩ := computeBlobGasPrice_served h config.maxGasPriceMultiplier t.speed
      t.sentWithBlobGas
    rw [hprice]
    unfold Transaction.toBlobTypedTransactionWithGasLimit
    rw [hblobs]
    dsimp only [Except.mapError, bind, Except.bind, Option.or, Option.elim]
    rw [hhashes]
    exact ⟨_, rfl⟩
  · split
    · exact ⟨_, rfl⟩
    · exact ⟨_, rfl⟩

/-- A served send of a transaction with a limit is prepared exactly when its price is within the
relayer's bound. -/
theorem prepareSend_served (h : env.Served) {gas : GasPriceResult} {gasLimit : GasLimit}
    (hgas : computeGasPriceForTransaction config.maxGasPriceMultiplier env.gasOracle t.speed
      t.sentWithGas = .ok gas) (hlimit : t.gasLimit = some gasLimit) :
    (∃ t' signed sent, prepareSend config env t = (t', .ok (signed, sent))) ↔
      withinGasPriceBounds config.relayer gas = true := by
  constructor
  · rintro ⟨t', signed, sent, hprepare⟩
    obtain ⟨_, _, _, _, hpriced, -⟩ := prepareSend_exact hprepare
    have hsame := priceAndLimit_price hpriced
    rw [hgas] at hsame
    unfold priceAndLimit at hpriced
    rw [hgas] at hpriced
    obtain ⟨_, hprice, hpriced⟩ := except_bind_ok hpriced
    cases hprice
    split at hpriced
    · cases hpriced
    · rename_i hbound
      simpa using hbound
  · intro hbound
    obtain ⟨⟨viaSafe, working⟩, hroute⟩ := @routeThroughSafe_served config env t h
    obtain ⟨⟨temp, _⟩, htemp⟩ := @buildRequest_served config env working h gas 10000000
    have hpriced : ∃ limit, priceAndLimit config env t = .ok (gas, working, limit) := by
      unfold priceAndLimit
      rw [hgas]
      dsimp only [Except.mapError, bind, Except.bind]
      rw [hbound, hroute]
      dsimp only [Bool.not_true]
      rw [htemp, hlimit]
      exact ⟨_, rfl⟩
    obtain ⟨limit, hpriced⟩ := hpriced
    obtain ⟨⟨request, blobGas⟩, hbuilt⟩ :=
      @buildRequest_served config env { working with gasLimit := some limit } h gas limit
    unfold prepareSend
    rw [hpriced]
    dsimp only
    rw [hbuilt]
    dsimp only
    generalize expireToNoop config t.sentWithGas.isSome gas env.nowBeforeSigning
      ⟨{ t with gasLimit := some limit }, request, blobGas⟩ = first
    generalize expireToNoop config t.sentWithGas.isSome gas env.nowAfterSigning first = last
    obtain ⟨_, hfirst⟩ := h.sign first.request
    obtain ⟨_, hlast⟩ := h.sign last.request
    rw [hfirst]
    dsimp only
    rw [hlast]
    exact ⟨_, _, _, rfl⟩

/-- Preparing keeps what a row is bound by. -/
theorem prepareSend_externalId {t' : Transaction} {signed : SignedTransaction}
    {sent : TransactionSentWithRelayer}
    (h : prepareSend config env t = (t', .ok (signed, sent))) :
    t'.id = t.id ∧ t'.externalId = t.externalId := by
  obtain ⟨_, _, _, _, -, -, -, rfl, -⟩ := prepareSend_exact h
  split
  · exact ⟨rfl, rfl⟩
  · exact ⟨rfl, rfl⟩

/-- The first attempt of a transaction is recorded exactly when its external id is free. -/
theorem transactionBroadcastAttempt_new {db : Db} {relayerId : RelayerId} {hash : TransactionHash}
    {gas : GasPriceResult} {blobGas : Option BlobGasPriceResult} {legacy : Bool} {now : DateTime}
    (hnew : db.row t.id = none) :
    (∃ db', db.transactionBroadcastAttempt relayerId t hash gas blobGas legacy now = some db') ↔
      db.externalIdTaken relayerId t.externalId = false := by
  unfold Db.transactionBroadcastAttempt Db.insert
  rw [hnew]
  have hid : ((Row.blank t).withAttempt relayerId t hash gas blobGas legacy now).id = t.id := rfl
  have hrelayer : ((Row.blank t).withAttempt relayerId t hash gas blobGas legacy now).relayerId =
      relayerId := rfl
  have hexternal : ((Row.blank t).withAttempt relayerId t hash gas blobGas legacy now).externalId =
      t.externalId := rfl
  dsimp only
  rw [hid, hrelayer, hexternal, hnew]
  cases db.externalIdTaken relayerId t.externalId <;> simp

end Send

namespace Locked

variable {l : Locked} {env : CompeteEnv} {original competitor : Transaction}
  {gas : GasPriceResult}

/-- A served send of a new transaction succeeds exactly when its price is within the bound and its
external id is free. -/
theorem send_served {env : SendEnv} {t : Transaction} {gasLimit : GasLimit} (h : env.Served)
    (hgas : computeGasPriceForTransaction l.queue.maxGasPriceMultiplier env.gasOracle t.speed
      t.sentWithGas = .ok gas) (hlimit : t.gasLimit = some gasLimit)
    (hnew : l.db.row t.id = none) :
    (∃ sent, (l.send env t).2.2 = .ok sent) ↔ withinGasPriceBounds l.queue.relayer gas = true ∧
      l.db.externalIdTaken l.queue.relayer.id t.externalId = false := by
  have hprepared := @prepareSend_served l.queue.toSendConfig env t h gas gasLimit hgas hlimit
  unfold send sendTransaction
  rcases hp : prepareSend l.queue.toSendConfig env t with ⟨t', e | ⟨signed, sent⟩⟩
  · rw [hp] at hprepared
    have hover : ¬ withinGasPriceBounds l.queue.relayer gas = true := by
      intro hbound
      obtain ⟨_, _, _, hsame⟩ := hprepared.mpr hbound
      cases hsame
    simp [hover]
  · have hbound : withinGasPriceBounds l.queue.relayer gas = true :=
      hprepared.mp ⟨t', signed, sent, hp⟩
    obtain ⟨hid, hexternal⟩ := prepareSend_externalId hp
    rw [← hid] at hnew
    have hrecorded := @transactionBroadcastAttempt_new t' l.db l.queue.relayer.id sent.hash
      sent.sentWithGas sent.sentWithBlobGas l.queue.toSendConfig.isLegacyTransactions env.nowSent
      hnew
    rw [hexternal] at hrecorded
    rw [← hrecorded]
    dsimp only
    unfold persistAndBroadcast
    rw [h.persistAttempt]
    dsimp only
    rw [if_pos rfl]
    have hrelayer : l.queue.toSendConfig.relayer.id = l.queue.relayer.id := rfl
    rw [hrelayer]
    split
    · rename_i hnone
      simp [hnone]
    · rename_i db hsome
      simp [hsome, h.broadcast, h.markSent, hbound]

/-- The link to a sent competitor is written and its entry found. -/
theorem sendCompetitor_served (hwrite : env.write = true) {front : CompetitiveTransaction}
    {rest : List CompetitiveTransaction} (hfront : l.queue.inmempoolTransactions = front :: rest)
    (hid : front.original.id = original.id) (type : CompetitionType) :
    (∃ hash, (l.sendCompetitor env original competitor type).2 = .attached hash) ↔
      ∃ sent, (l.send env.send competitor).2.2 = .ok sent := by
  have hspec := send_spec l env.send competitor
  unfold sendCompetitor
  rcases hsend : l.send env.send competitor with ⟨sentCompetitor, l₁, e | sent⟩
  · cases e with
    | transactionSendError e =>
      dsimp only
      split
      · split
        · simp
        · simp
      · simp
    | _ => simp
  · rw [hsend] at hspec
    have hqueue : l₁.queue = l.queue := hspec.queue
    dsimp only
    rw [hqueue, TransactionsQueue.addCompetitor_front _ _ hfront hid]
    simp [hwrite]

/-- What a competitor needs apart from its row: the relayer is not paused, the original's price is
recorded, and the price over it within the relayer's bound. -/
def MayCompete (l : Locked) (env : CompeteEnv) (original : Transaction) : Prop :=
  l.queue.relayer.paused = false ∧ ∃ gas ∈ original.sentWithGas,
    ∀ price ∈ (computeGasPriceForTransaction l.queue.maxGasPriceMultiplier env.send.gasOracle .super
      (some (competitorGas gas))).toOption, withinGasPriceBounds l.queue.relayer price = true

instance (l : Locked) (env : CompeteEnv) (original : Transaction) :
    Decidable (l.MayCompete env original) := by
  unfold MayCompete
  infer_instance

theorem cancelResult_ok {id : TransactionId} {outcome : CompetitorOutcome} :
    cancelResult id outcome = .ok ⟨true, some id⟩ ↔ ∃ hash, outcome = .attached hash := by
  cases outcome with
  | attached hash => simp [cancelResult]
  | _ => simp [cancelResult]

theorem replaceResult_ok {id : TransactionId} {outcome : CompetitorOutcome} :
    (∃ hash, replaceResult id outcome = .ok ⟨true, some id, some hash⟩) ↔
      ∃ hash, outcome = .attached hash := by
  cases outcome with
  | attached hash => simp [replaceResult]
  | _ => simp [replaceResult]

section Available

variable {id : TransactionId} {front : CompetitiveTransaction} {rest : List CompetitiveTransaction}

/-- A served cancel of the head succeeds exactly when it may compete and no row holds its external
id. -/
theorem cancelTransaction_served (hserved : env.Served l.db)
    (heditable : l.queue.getEditableTransactionById id = some (.inmempool original))
    (hfront : l.queue.inmempoolTransactions = front :: rest)
    (hid : front.original.id = original.id) :
    (l.cancelTransaction env id).2 = .ok ⟨true, some env.newId⟩ ↔ l.MayCompete env original ∧
      l.db.externalIdTaken l.queue.relayer.id (some (cancelExternalId original.id)) = false := by
  unfold cancelTransaction MayCompete
  by_cases hpaused : l.queue.relayer.paused = true
  · rw [if_pos hpaused]
    simp [hpaused]
  rw [if_neg hpaused, heditable]
  dsimp only
  rw [hserved.guard]
  simp only [Bool.not_true, Bool.false_eq_true, if_false]
  unfold cancelInmempool
  rcases hgas : original.sentWithGas with _ | gas
  · simp
  · dsimp only
    rw [cancelResult_ok, sendCompetitor_served hserved.write hfront hid]
    obtain ⟨price, hprice⟩ := computeGasPrice_served hserved.send l.queue.maxGasPriceMultiplier
      .super (some (competitorGas gas))
    rw [send_served hserved.send hprice rfl hserved.newId]
    have hnotPaused : l.queue.relayer.paused = false := by simpa using hpaused
    simp only [hnotPaused, Option.mem_some_iff, exists_eq_left', hprice, Except.toOption,
      forall_eq', true_and]
    exact Iff.rfl

/-- The parts of a request a replacement in the mempool checks. -/
def Acceptable (request : RelayTransactionRequest) (original : Transaction) : Prop :=
  original.gasLimit.isSome = true ∧
    (request.externalId = none ∨ request.externalId = original.externalId) ∧
    ∃ blobs, decodeBlobs request = .ok blobs

theorem replacementExternalId_inmempool (request : RelayTransactionRequest) :
    (∃ externalId, replacementExternalId original request.externalId true = .ok externalId) ↔
      request.externalId = none ∨ request.externalId = original.externalId := by
  unfold replacementExternalId
  rcases request.externalId with _ | requested
  · simp
  · by_cases hsame : some requested = original.externalId
    · simp [← hsame]
    · simp [hsame]

theorem replacementBlobGas_served (h : env.send.Served) (t : Transaction) :
    ∃ blobGas, l.replacementBlobGas env t = .ok blobGas := by
  unfold replacementBlobGas
  split
  · obtain ⟨gas, hgas⟩ := computeBlobGasPrice_served h l.queue.maxGasPriceMultiplier .super none
    rw [hgas]
    exact ⟨_, rfl⟩
  · exact ⟨_, rfl⟩

/-- A served replace of the head succeeds exactly when it may compete, its request is acceptable and
no row holds its external id. -/
theorem replaceTransaction_served (hserved : env.Served l.db)
    (heditable : l.queue.getEditableTransactionById id = some (.inmempool original))
    (hfront : l.queue.inmempoolTransactions = front :: rest)
    (hid : front.original.id = original.id) (request : RelayTransactionRequest) :
    (∃ hash, (l.replaceTransaction env request id).2 =
        .ok ⟨true, some env.newId, some hash⟩) ↔
      l.MayCompete env original ∧ Acceptable request original ∧
        l.db.externalIdTaken l.queue.relayer.id (some (replaceExternalId original.id)) =
          false := by
  have hexternal := @replacementExternalId_inmempool original request
  unfold replaceTransaction MayCompete Acceptable
  by_cases hpaused : l.queue.relayer.paused = true
  · rw [if_pos hpaused]
    simp [hpaused]
  rw [if_neg hpaused, heditable, ← hexternal]
  dsimp only
  rw [hserved.guard]
  simp only [Bool.not_true, Bool.false_eq_true, if_false]
  rcases hrequested : replacementExternalId original request.externalId true with e | externalId
  · simp
  have hderived : externalId = some (replaceExternalId original.id) := by
    unfold replacementExternalId at hrequested
    split at hrequested
    · cases hrequested
    · cases hrequested
      rfl
  dsimp only
  unfold replaceInmempool
  rcases hblobs : decodeBlobs request with e | blobs
  · simp
  rcases hgas : original.sentWithGas with _ | gas
  · simp
  rcases hlimit : original.gasLimit with _ | gasLimit
  · simp
  obtain ⟨blobGas, hblobGas⟩ := replacementBlobGas_served (l := l) hserved.send
    (l.replacement env request original externalId blobs gasLimit)
  dsimp only
  rw [hblobGas]
  dsimp only
  rw [replaceResult_ok, sendCompetitor_served hserved.write hfront hid]
  obtain ⟨price, hprice⟩ := computeGasPrice_served hserved.send l.queue.maxGasPriceMultiplier
    .super (some (competitorGas gas))
  rw [send_served hserved.send hprice rfl hserved.newId]
  have hnotPaused : l.queue.relayer.paused = false := by simpa using hpaused
  simp only [hnotPaused, Option.mem_some_iff, exists_eq_left', hprice, Except.toOption, forall_eq',
    true_and, Option.isSome_some, Except.ok.injEq, exists_eq', hderived]
  exact Iff.rfl

/-- Cancel and replace stay available exactly as long as no row is left under the external id they
derive from the original. -/
theorem competition_available_iff (hserved : env.Served l.db)
    (heditable : l.queue.getEditableTransactionById id = some (.inmempool original))
    (hfront : l.queue.inmempoolTransactions = front :: rest)
    (hid : front.original.id = original.id) :
    ((l.cancelTransaction env id).2 = .ok ⟨true, some env.newId⟩ ↔ l.MayCompete env original ∧
      l.db.externalIdTaken l.queue.relayer.id (some (cancelExternalId original.id)) = false) ∧
    ∀ request, (∃ hash, (l.replaceTransaction env request id).2 =
        .ok ⟨true, some env.newId, some hash⟩) ↔
      l.MayCompete env original ∧ Acceptable request original ∧
        l.db.externalIdTaken l.queue.relayer.id (some (replaceExternalId original.id)) =
          false :=
  ⟨cancelTransaction_served hserved heditable hfront hid,
    replaceTransaction_served hserved heditable hfront hid⟩

end Available

end Locked

namespace TransactionsQueues

/-- A cancel with another new id, whose calls are all served. -/
def cancelAgain : CompeteEnv :=
  { servedCompete 2 (.ok ()) (servedClient [] 0) with
    send := { servedSend (.ok ()) with blobOracle := fun _ => some (blobPrice 10) } }

theorem cancelAgain_served {db : Db} (hnew : db.row 2 = none) : cancelAgain.Served db where
  guard := rfl
  send := {
    gas := fun _ => rfl
    blobGas := fun _ => rfl
    safeNonce := fun _ => ⟨0, rfl⟩
    encodeSafe := fun _ _ => ⟨[], rfl⟩
    sidecar := fun _ => ⟨[], rfl⟩
    sign := fun _ => ⟨0, rfl⟩
    persistAttempt := rfl
    broadcast := fun _ => rfl
    markSent := rfl }
  write := rfl
  newId := hnew

/-- A cancel that is not broadcast. -/
def failedCancel : Event :=
  .cancel (servedCompete 1 (.error "connection reset") (servedClient [] 0)) 0

/-- A payment in the mempool, with that many cancels of it that were not broadcast. -/
def sentAndCancelled (cancels : ℕ) : List Event :=
  sentAtPrice ⟨1, 10, none, none⟩ ++ List.replicate cancels failedCancel

theorem competition_available_first : ∃ (l : Locked) (original : Transaction),
    l.queue.getEditableTransactionById 0 = some (.inmempool original) ∧
      (l.cancelTransaction cancelAgain 0).2 = .ok ⟨true, some 2⟩ := by
  let s := freshRelayer.run (sentAndCancelled 0)
  have hfacts : ∃ l ∈ s.lock, ∃ c ∈ l.queue.inmempoolTransactions.head?,
      l.queue.getEditableTransactionById 0 = some (.inmempool c.original) ∧
        l.MayCompete cancelAgain c.original ∧ l.db.row 2 = none ∧
          l.db.externalIdTaken l.queue.relayer.id
            (some (cancelExternalId c.original.id)) = false := by decide +kernel
  obtain ⟨l, hl, c, hc, heditable, hmay, hnew, hfree⟩ := hfacts
  obtain ⟨rest, hfront⟩ := List.head?_eq_some_iff.mp hc
  exact ⟨l, c.original, heditable, (Locked.competition_available_iff (cancelAgain_served hnew)
    heditable hfront rfl).1.mpr ⟨hmay, hfree⟩⟩

/-- A cancel meets the row of the one before it. -/
theorem competition_available_fails : ¬ ∀ cancels,
    ∀ l ∈ (freshRelayer.run (sentAndCancelled cancels)).lock, ∀ env : CompeteEnv,
      env.Served l.db → ∀ c ∈ l.queue.inmempoolTransactions.head?,
        l.queue.getEditableTransactionById 0 = some (.inmempool c.original) →
          l.MayCompete env c.original →
            (l.cancelTransaction env 0).2 = .ok ⟨true, some env.newId⟩ := by
  intro havailable
  let s := freshRelayer.run (sentAndCancelled 1)
  have hfacts : ∃ l ∈ s.lock, ∃ c ∈ l.queue.inmempoolTransactions.head?,
      l.queue.getEditableTransactionById 0 = some (.inmempool c.original) ∧
        l.MayCompete cancelAgain c.original ∧ l.db.row 2 = none ∧
          (l.cancelTransaction cancelAgain 0).2 ≠ .ok ⟨true, some 2⟩ := by decide +kernel
  obtain ⟨l, hl, c, hc, heditable, hmay, hnew, hrejected⟩ := hfacts
  exact hrejected
    (havailable 1 l hl cancelAgain (cancelAgain_served hnew) c hc heditable hmay)

end TransactionsQueues
end Rrelayer
