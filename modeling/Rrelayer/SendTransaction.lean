import Rrelayer.GasPrice
import Rrelayer.Database

/-! `send_transaction`: pricing, Safe routing, gas estimation, expiry conversion and signing,
then the durable attempt and the broadcast. -/
namespace Rrelayer

structure SafeProxyConfig where
  address : EvmAddress
  relayers : List EvmAddress
  chainId : ChainId
  deriving DecidableEq, Repr

/-- The fields of a Safe transaction that are not constant. -/
structure SafeTransaction where
  toAddress : EvmAddress
  value : TransactionValue
  data : TransactionData
  nonce : ℕ
  deriving DecidableEq, Repr

def getSafeProxyForRelayer (configs : List SafeProxyConfig) (relayerAddress : EvmAddress)
    (chainId : ChainId) : Option EvmAddress :=
  (configs.find? fun c => c.relayers.contains relayerAddress && c.chainId == chainId).map
    (·.address)

/-- What a send reads from the relayer's queue. -/
structure SendConfig where
  relayer : Relayer
  safeProxies : List SafeProxyConfig
  maxGasPriceMultiplier : ℕ

def SendConfig.isLegacyTransactions (c : SendConfig) : Bool := !c.relayer.eip1559Enabled

/-- Everything a send asks of the outside: prices, the node, the wallet, the clock and whether
the database served each write. `encodeSafe` hashes, signs and encodes a Safe call;
`warnIfGasLimitOverBlockCap` only logs and is left out. -/
structure SendEnv where
  gasOracle : GasOracle
  blobOracle : BlobGasOracle
  getSafeNonce : EvmAddress → Except String ℕ
  encodeSafe : EvmAddress → SafeTransaction → Except String TransactionData
  buildSidecar : List TransactionBlob → Except String (List ℕ)
  estimateGas : TypedTransaction → Except String GasLimit
  getBlockGasLimit : Except String GasLimit
  sign : TypedTransaction → Except String ℕ
  nowBeforeSigning : DateTime
  nowAfterSigning : DateTime
  nowSent : DateTime
  persistAttempt : Bool
  broadcast : SignedTransaction → Except String Unit
  markSent : Bool

structure TransactionSentWithRelayer where
  id : TransactionId
  hash : TransactionHash
  sentWithGas : GasPriceResult
  sentWithBlobGas : Option BlobGasPriceResult
  deriving DecidableEq, Repr

def hasExpired (t : Transaction) (now : DateTime) : Bool := t.expiresAt < now

def transactionToNoop (relayAddress : EvmAddress) (t : Transaction) : Transaction :=
  { t with
    toAddress := relayAddress
    value := 0
    data := []
    blobs := none
    gasLimit := some 21000
    isNoop := true
    speed := .fast
    sentWithBlobGas := none }

section Prepare

variable (config : SendConfig) (env : SendEnv)

/-- `estimate_gas`: the node's estimate, buffered by a fifth and cut to the block gas limit. -/
def estimateGas (request : TypedTransaction) (isNoop : Bool) : Except String GasLimit := do
  let estimated ← env.estimateGas request
  if isNoop then return estimated
  let blockGasLimit ← env.getBlockGasLimit
  if estimated > blockGasLimit then
    throw s!"Estimated gas {estimated} exceeds latest block gas limit {blockGasLimit}"
  return min (estimated * 12 / 10) blockGasLimit

abbrev SendResult := Except TransactionQueueSendTransactionError

/-- The payload that is signed: the transaction's own, or the Safe call that wraps it. -/
def routeThroughSafe (t : Transaction) : SendResult (Bool × Transaction) :=
  let safe := if t.isNoop then none
    else getSafeProxyForRelayer config.safeProxies config.relayer.address t.chainId
  match safe with
  | none => .ok (false, t)
  | some address => do
      let nonce ← (env.getSafeNonce address).mapError .safeProxyError
      let data ← (env.encodeSafe address ⟨t.toAddress, t.value, t.data, nonce⟩).mapError
        .transactionConversionError
      return (true, { t with toAddress := address, data := data, value := 0 })

/-- The envelope of the working transaction and the blob price it was built with. -/
def buildRequest (working : Transaction) (gasPrice : GasPriceResult) (gasLimit : GasLimit) :
    SendResult (TypedTransaction × Option BlobGasPriceResult) :=
  if working.isBlobTransaction then do
    let blobGasPrice ← (computeBlobGasPriceForTransaction config.maxGasPriceMultiplier
      env.blobOracle working.speed working.sentWithBlobGas).mapError .sendTransactionGasPriceError
    let request ← (working.toBlobTypedTransactionWithGasLimit env.buildSidecar (some gasPrice)
      (some blobGasPrice) (some gasLimit)).mapError .transactionConversionError
    return (request, some blobGasPrice)
  else if config.isLegacyTransactions then do
    let request ← (working.toLegacyTypedTransactionWithGasLimit (some gasPrice)
      (some gasLimit)).mapError .transactionConversionError
    return (request, none)
  else do
    let request ← (working.toEip1559TypedTransactionWithGasLimit (some gasPrice)
      (some gasLimit)).mapError .transactionConversionError
    return (request, none)

def safeOverhead : GasLimit := 45000

/-- The part of a send before the transaction's gas limit is set: price, bounds, Safe routing
and the limit. -/
def priceAndLimit (t : Transaction) : SendResult (GasPriceResult × Transaction × GasLimit) := do
  let gasPrice ← (computeGasPriceForTransaction config.maxGasPriceMultiplier env.gasOracle t.speed
    t.sentWithGas).mapError .sendTransactionGasPriceError
  if !withinGasPriceBounds config.relayer gasPrice then .error .gasPriceTooHigh
  else do
    let (viaSafe, working) ← routeThroughSafe config env t
    let (temp, _) ← buildRequest config env working gasPrice 10000000
    let base ← t.gasLimit.elim
      ((estimateGas env temp working.isNoop).mapError .transactionEstimateGasError) .ok
    return (gasPrice, working, if viaSafe then base + safeOverhead else base)

/-- The no-op that replaces an expired payload at the same nonce. -/
def noopRequest (t : Transaction) (gasPrice : GasPriceResult) : TypedTransaction :=
  t.toEnvelope 21000 (if config.isLegacyTransactions then .legacy gasPrice.legacyGasPrice
    else .eip1559 gasPrice.maxPriorityFee gasPrice.maxFee)

/-- A payload on its way to the network: the transaction as changed so far, the envelope and
the blob price. -/
structure Prepared where
  transaction : Transaction
  request : TypedTransaction
  blobGas : Option BlobGasPriceResult

/-- A broadcast blob transaction can only be replaced by another blob transaction, so an
expired one keeps its payload. -/
def expireToNoop (wasPreviouslySent : Bool) (gasPrice : GasPriceResult) (now : DateTime)
    (p : Prepared) : Prepared :=
  let t := p.transaction
  if !t.isNoop && (!wasPreviouslySent || !t.isBlobTransaction) && hasExpired t now then
    let noop := transactionToNoop config.relayer.address t
    ⟨noop, noopRequest config noop gasPrice, none⟩
  else p

/-- The transaction as the failing or finished preparation leaves it, with the signed envelope
and its record on success. The second signature is only made for a payload that expired while
the first was made. -/
def prepareSend (t : Transaction) :
    Transaction × SendResult (SignedTransaction × TransactionSentWithRelayer) :=
  match priceAndLimit config env t with
  | .error e => (t, .error e)
  | .ok (gasPrice, working, gasLimit) =>
      let limited := { t with gasLimit := some gasLimit }
      match buildRequest config env { working with gasLimit := some gasLimit } gasPrice gasLimit with
      | .error e => (limited, .error e)
      | .ok (request, blobGas) =>
          let first := expireToNoop config t.sentWithGas.isSome gasPrice env.nowBeforeSigning
            ⟨limited, request, blobGas⟩
          match env.sign first.request with
          | .error e => (first.transaction, .error (.transactionSendError e))
          | .ok _ =>
              let last := expireToNoop config t.sentWithGas.isSome gasPrice env.nowAfterSigning first
              match env.sign last.request with
              | .error e => (last.transaction, .error (.transactionSendError e))
              | .ok signature =>
                  let signed : SignedTransaction := ⟨last.request, signature⟩
                  (last.transaction,
                    .ok (signed, ⟨last.transaction.id, signed, gasPrice, last.blobGas⟩))

end Prepare

/-- Signed payloads handed to an endpoint, with the transaction each was sent for. -/
abbrev Broadcasts := List (TransactionId × SignedTransaction)

structure SendOutcome where
  transaction : Transaction
  db : Db
  broadcasts : Broadcasts
  result : SendResult TransactionSentWithRelayer

/-- The attempt as memory shows it once it is durable. -/
def Transaction.exposeAttempt (t : Transaction) (sent : TransactionSentWithRelayer)
    (now : DateTime) : Transaction :=
  { t with
    knownTransactionHash := some sent.hash
    sentWithMaxFeePerGas := some sent.sentWithGas.maxFee
    sentWithMaxPriorityFeePerGas := some sent.sentWithGas.maxPriorityFee
    sentWithGas := some sent.sentWithGas
    sentWithBlobGas := sent.sentWithBlobGas
    sentAt := some now }

/-- No signed bytes reach an endpoint before the attempt is durable, and the status advances
only after the database accepted the send. -/
def persistAndBroadcast (config : SendConfig) (env : SendEnv) (db : Db) (broadcasts : Broadcasts)
    (t : Transaction) (signed : SignedTransaction) (sent : TransactionSentWithRelayer) :
    SendOutcome :=
  let legacy := config.isLegacyTransactions
  match (if env.persistAttempt then db.transactionBroadcastAttempt config.relayer.id t sent.hash
      sent.sentWithGas sent.sentWithBlobGas legacy env.nowSent else none) with
  | none => ⟨t, db, broadcasts, .error .couldNotUpdateTransactionDb⟩
  | some db =>
      let t := t.exposeAttempt sent env.nowSent
      let broadcasts := broadcasts ++ [(t.id, signed)]
      match env.broadcast signed with
      | .error e => ⟨t, db, broadcasts, .error (.transactionSendError e)⟩
      | .ok () =>
          if env.markSent then
            ⟨{ t with status := .inmempool },
              db.transactionSent sent.id sent.hash sent.sentWithGas sent.sentWithBlobGas legacy
                env.nowSent, broadcasts, .ok sent⟩
          else ⟨t, db, broadcasts, .error .couldNotUpdateTransactionDb⟩

def sendTransaction (config : SendConfig) (env : SendEnv) (db : Db) (broadcasts : Broadcasts)
    (t : Transaction) : SendOutcome :=
  match prepareSend config env t with
  | (t, .error e) => ⟨t, db, broadcasts, .error e⟩
  | (t, .ok (signed, sent)) => persistAndBroadcast config env db broadcasts t signed sent

/-- What a preparation never changes. -/
structure Transaction.SameSlot (t t' : Transaction) : Prop where
  id : t'.id = t.id
  relayerId : t'.relayerId = t.relayerId
  nonce : t'.nonce = t.nonce
  status : t'.status = t.status
  knownTransactionHash : t'.knownTransactionHash = t.knownTransactionHash
  sentAt : t'.sentAt = t.sentAt
  failedReason : t'.failedReason = t.failedReason

theorem Transaction.SameSlot.refl (t : Transaction) : t.SameSlot t :=
  ⟨rfl, rfl, rfl, rfl, rfl, rfl, rfl⟩

theorem Transaction.SameSlot.trans {t t' t'' : Transaction} (h : t.SameSlot t')
    (h' : t'.SameSlot t'') : t.SameSlot t'' :=
  ⟨h'.id.trans h.id, h'.relayerId.trans h.relayerId, h'.nonce.trans h.nonce,
    h'.status.trans h.status, h'.knownTransactionHash.trans h.knownTransactionHash,
    h'.sentAt.trans h.sentAt, h'.failedReason.trans h.failedReason⟩

theorem transactionToNoop_sameSlot (a : EvmAddress) (t : Transaction) :
    t.SameSlot (transactionToNoop a t) := ⟨rfl, rfl, rfl, rfl, rfl, rfl, rfl⟩

/-- From a successful bind, the intermediate value. -/
theorem except_bind_ok {ε α β : Type} {x : Except ε α} {f : α → Except ε β} {b : β}
    (h : (x >>= f) = .ok b) : ∃ a, x = .ok a ∧ f a = .ok b := by
  cases x with
  | error e => cases h
  | ok a => exact ⟨a, rfl, h⟩

theorem mapError_ok {ε ε' α : Type} {x : Except ε α} {f : ε → ε'} {a : α}
    (h : x.mapError f = .ok a) : x = .ok a := by
  cases x with
  | error e => cases h
  | ok b => exact congrArg _ (Except.ok.inj h)

section PrepareSpec

variable {config : SendConfig} {env : SendEnv}

/-- A request as it is built: the payload as it is, with the fees of its type. -/
inductive BuildsRequest (config : SendConfig) (env : SendEnv) (t : Transaction)
    (gas : GasPriceResult) (gasLimit : GasLimit) :
    TypedTransaction × Option BlobGasPriceResult → Prop where
  | eip4844 (price : BlobGasPriceResult) (hashes : List ℕ) (hblob : t.isBlobTransaction = true)
      (hprice : computeBlobGasPriceForTransaction config.maxGasPriceMultiplier env.blobOracle
        t.speed t.sentWithBlobGas = .ok price) :
      BuildsRequest config env t gas gasLimit (t.toEnvelope gasLimit
        (.eip4844 gas.maxPriorityFee gas.maxFee price.blobGasPrice hashes), some price)
  | legacy (hblob : t.isBlobTransaction = false) (hlegacy : config.isLegacyTransactions = true) :
      BuildsRequest config env t gas gasLimit
        (t.toEnvelope gasLimit (.legacy gas.legacyGasPrice), none)
  | eip1559 (hblob : t.isBlobTransaction = false)
      (hlegacy : config.isLegacyTransactions = false) :
      BuildsRequest config env t gas gasLimit
        (t.toEnvelope gasLimit (.eip1559 gas.maxPriorityFee gas.maxFee), none)

theorem buildRequest_builds {t : Transaction} {gas : GasPriceResult} {gasLimit : GasLimit}
    {r : TypedTransaction × Option BlobGasPriceResult}
    (h : buildRequest config env t gas gasLimit = .ok r) :
    BuildsRequest config env t gas gasLimit r := by
  unfold buildRequest at h
  split at h
  · rename_i hblob
    obtain ⟨price, hprice, h⟩ := except_bind_ok h
    obtain ⟨request, hrequest, h⟩ := except_bind_ok h
    cases h
    -- Both prices and the limit are given, so only the blobs and their sidecar are looked up.
    obtain ⟨_, hgas, hrequest⟩ := except_bind_ok (mapError_ok hrequest)
    obtain ⟨_, hblobGas, hrequest⟩ := except_bind_ok hrequest
    obtain ⟨blobs, _, hrequest⟩ := except_bind_ok hrequest
    obtain ⟨hashes, _, hrequest⟩ := except_bind_ok hrequest
    obtain ⟨_, hlimit, hrequest⟩ := except_bind_ok hrequest
    cases hgas
    cases hblobGas
    cases hlimit
    cases hrequest
    exact .eip4844 price hashes hblob (mapError_ok hprice)
  · rename_i hblob
    simp only [Bool.not_eq_true] at hblob
    split at h
    · rename_i hlegacy
      obtain ⟨request, hrequest, h⟩ := except_bind_ok h
      cases h
      obtain ⟨_, hgas, hrequest⟩ := except_bind_ok (mapError_ok hrequest)
      obtain ⟨_, hlimit, hrequest⟩ := except_bind_ok hrequest
      cases hgas
      cases hlimit
      cases hrequest
      exact .legacy hblob hlegacy
    · rename_i hlegacy
      simp only [Bool.not_eq_true] at hlegacy
      obtain ⟨request, hrequest, h⟩ := except_bind_ok h
      cases h
      obtain ⟨_, hgas, hrequest⟩ := except_bind_ok (mapError_ok hrequest)
      obtain ⟨_, hlimit, hrequest⟩ := except_bind_ok hrequest
      cases hgas
      cases hlimit
      cases hrequest
      exact .eip1559 hblob hlegacy

/-- Every envelope built for a transaction has its nonce. -/
theorem buildRequest_nonce {working : Transaction} {gasPrice : GasPriceResult}
    {gasLimit : GasLimit} {r : TypedTransaction × Option BlobGasPriceResult}
    (h : buildRequest config env working gasPrice gasLimit = .ok r) :
    r.1.nonce = working.nonce := by
  cases buildRequest_builds h <;> rfl

theorem routeThroughSafe_nonce {t : Transaction} {r : Bool × Transaction}
    (h : routeThroughSafe config env t = .ok r) : r.2.nonce = t.nonce := by
  unfold routeThroughSafe at h
  dsimp only at h
  split at h
  · cases h
    rfl
  · obtain ⟨_, _, h⟩ := except_bind_ok h
    obtain ⟨_, _, h⟩ := except_bind_ok h
    cases h
    rfl

theorem priceAndLimit_nonce {t : Transaction} {r : GasPriceResult × Transaction × GasLimit}
    (h : priceAndLimit config env t = .ok r) : r.2.1.nonce = t.nonce := by
  unfold priceAndLimit at h
  obtain ⟨_, _, h⟩ := except_bind_ok h
  split at h
  · cases h
  · obtain ⟨routed, hroute, h⟩ := except_bind_ok h
    obtain ⟨_, _, h⟩ := except_bind_ok h
    obtain ⟨_, _, h⟩ := except_bind_ok h
    cases h
    exact routeThroughSafe_nonce hroute

/-- A conversion to a no-op keeps the slot, and the envelope keeps following it. -/
theorem expireToNoop_sameSlot (config : SendConfig) (w : Bool) (g : GasPriceResult)
    (now : DateTime) (p : Prepared) :
    p.transaction.SameSlot (expireToNoop config w g now p).transaction := by
  unfold expireToNoop
  dsimp only
  split
  · exact transactionToNoop_sameSlot ..
  · exact .refl _

theorem expireToNoop_nonce (config : SendConfig) (w : Bool) (g : GasPriceResult)
    (now : DateTime) {p : Prepared}
    (h : p.request.nonce = p.transaction.nonce) :
    (expireToNoop config w g now p).request.nonce = p.transaction.nonce := by
  unfold expireToNoop
  dsimp only
  split
  · rfl
  · exact h

/-- A prepared payload is signed at the transaction's nonce, and its record names it. -/
structure SignedFor (t : Transaction) (signed : SignedTransaction)
    (sent : TransactionSentWithRelayer) : Prop where
  nonce : signed.nonce = t.nonce
  id : sent.id = t.id
  hash : sent.hash = signed

theorem prepareSend_spec (config : SendConfig) (env : SendEnv) (t : Transaction) :
    t.SameSlot (prepareSend config env t).1 ∧
      ∀ signed sent, (prepareSend config env t).2 = .ok (signed, sent) → SignedFor t signed sent := by
  unfold prepareSend
  split
  · exact ⟨.refl t, fun _ _ h => by cases h⟩
  · rename_i gasPrice working gasLimit hprice
    have hlimited : t.SameSlot { t with gasLimit := some gasLimit } :=
      ⟨rfl, rfl, rfl, rfl, rfl, rfl, rfl⟩
    dsimp only
    split
    · exact ⟨hlimited, fun _ _ h => by cases h⟩
    · rename_i request blobGas hbuild
      set limited : Transaction := { t with gasLimit := some gasLimit } with hl
      have hrequest : request.nonce = t.nonce :=
        (buildRequest_nonce hbuild).trans (priceAndLimit_nonce hprice)
      have hfirst := expireToNoop_sameSlot config t.sentWithGas.isSome gasPrice
        env.nowBeforeSigning ⟨limited, request, blobGas⟩
      have hfirstNonce := expireToNoop_nonce config t.sentWithGas.isSome gasPrice env.nowBeforeSigning
        (p := ⟨limited, request, blobGas⟩) hrequest
      set first := expireToNoop config t.sentWithGas.isSome gasPrice env.nowBeforeSigning
        ⟨limited, request, blobGas⟩
      have hlast := expireToNoop_sameSlot config t.sentWithGas.isSome gasPrice
        env.nowAfterSigning first
      have hlastNonce := expireToNoop_nonce config t.sentWithGas.isSome gasPrice env.nowAfterSigning
        (p := first) (hfirstNonce.trans hfirst.nonce.symm)
      split
      · exact ⟨hlimited.trans hfirst, fun _ _ h => by cases h⟩
      · split
        · exact ⟨(hlimited.trans hfirst).trans hlast, fun _ _ h => by cases h⟩
        · refine ⟨(hlimited.trans hfirst).trans hlast, fun signed sent h => ?_⟩
          cases h
          exact ⟨(hlastNonce.trans hfirst.nonce).trans hlimited.nonce,
            ((hlimited.trans hfirst).trans hlast).id, rfl⟩

end PrepareSpec

end Rrelayer
