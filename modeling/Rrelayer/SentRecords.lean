import Rrelayer.AuditLog
import Rrelayer.BalanceGate
import Rrelayer.GasBumps
import Rrelayer.SafeGasLimits

/-! What a send records of an attempt, against the bytes it hands out: the record it returns, the
live row and its snapshots in the audit log. -/
namespace Rrelayer

/-- Every fee the envelope names. -/
def TxFees.all : TxFees → List ℕ
  | .legacy gasPrice => [gasPrice]
  | .eip1559 priority maxFee => [priority, maxFee]
  | .eip4844 priority maxFee blobFee _ => [priority, maxFee, blobFee]

/-- The price columns hold the fees, in the columns of their type. -/
def Row.PricedAs (r : Row) : TxFees → Prop
  | .legacy gasPrice => r.gasPrice = some gasPrice ∧
      r.sentWithMaxFeePerGas = none ∧ r.sentWithMaxPriorityFeePerGas = none
  | .eip1559 priority maxFee | .eip4844 priority maxFee _ _ => r.gasPrice = none ∧
      r.sentWithMaxFeePerGas = some maxFee ∧ r.sentWithMaxPriorityFeePerGas = some priority

/-- The row says of an attempt what its bytes say. -/
structure Row.Shows (r : Row) (signed : SignedTransaction) : Prop where
  nonce : r.nonce = signed.nonce
  hash : r.knownTransactionHash = some signed
  gasLimit : r.gasLimit = some signed.transaction.gasLimit
  columns : r.PricedAs signed.transaction.fees
  price : ∃ gas ∈ r.sentWithGas, signed.transaction.fees.Offers gas
  blobPrice : r.sentWithBlobGas.map (·.blobGasPrice) = signed.transaction.fees.maxFeePerBlobGas

/-- The returned record says of an attempt what its bytes say. -/
structure TransactionSentWithRelayer.Shows (sent : TransactionSentWithRelayer)
    (signed : SignedTransaction) : Prop where
  hash : sent.hash = signed
  price : signed.transaction.fees.Offers sent.sentWithGas
  blobPrice : sent.sentWithBlobGas.map (·.blobGasPrice) =
    signed.transaction.fees.maxFeePerBlobGas

/-- Whatever a send leaves of an attempt is what was signed, a converted payload is a no-op in the
bytes and in the row, and the relayer's maximum gas price covers every fee. -/
structure SendOutcome.RecordedAsSigned (o : SendOutcome) (config : SendConfig) (env : SendEnv)
    (db : Db) (t : Transaction) (signed : SignedTransaction) : Prop where
  rows : ∀ r ∈ o.db.rows, r.id = t.id → r.Shows signed
  audit : ∀ a ∈ o.db.audit.drop db.audit.length, a.Shows signed
  record : ∀ sent, o.result = .ok sent → sent.Shows signed
  noop : convertsToNoop env t = true → signed.IsNoop config.relayer.address ∧
    ∀ r ∈ o.db.rows, r.id = t.id → r.CarriesNothing config.relayer.address
  bound : ∀ max ∈ config.relayer.maxGasPrice, ∀ fee ∈ signed.transaction.fees.all, fee ≤ max

/-- The transaction is signed as a blob transaction. -/
def signsBlob (env : SendEnv) (t : Transaction) : Bool :=
  t.isBlobTransaction && !convertsToNoop env t

section Conditions

variable (config : SendConfig) (env : SendEnv) (t : Transaction)

/-- The price a send is made at. -/
def sendGasPrice : Except SendTransactionGasPriceError GasPriceResult :=
  computeGasPriceForTransaction config.maxGasPriceMultiplier env.gasOracle t.speed t.sentWithGas

def sendBlobGasPrice : Except SendTransactionGasPriceError BlobGasPriceResult :=
  computeBlobGasPriceForTransaction config.maxGasPriceMultiplier env.blobOracle t.speed
    t.sentWithBlobGas

/-- The columns of the relayer's fee model are those of the envelope, and every number the send
starts from fits the place it is written to and the relayer's maximum. -/
structure FitsRecords : Prop where
  columns : config.isLegacyTransactions = true → signsBlob env t = false
  price : ∀ gas, sendGasPrice config env t = .ok gas → gas.stored = some gas
  priority : config.isLegacyTransactions = false → ∀ max ∈ config.relayer.maxGasPrice,
    ∀ gas, sendGasPrice config env t = .ok gas → gas.maxPriorityFee ≤ max
  blobPrice : signsBlob env t = true → ∀ blobGas, sendBlobGasPrice config env t = .ok blobGas →
    blobGas.stored = some blobGas ∧
      ∀ max ∈ config.relayer.maxGasPrice, blobGas.blobGasPrice ≤ max
  gasLimit : convertsToNoop env t = false → ∀ base,
    (t.gasLimit = some base ∨ t.gasLimit = none ∧ estimateForSend config env t = .ok base) →
      (if isSafeRouted config t then base + safeOverhead else base) < 2 ^ 64

end Conditions

/-- The columns a send writes for an attempt, at the insert and again once it is sent. -/
structure Row.WrittenFor (r : Row) (t : Transaction) (sent : TransactionSentWithRelayer)
    (legacy : Bool) : Prop where
  nonce : r.nonce = t.nonce
  toAddress : r.toAddress = t.toAddress
  value : r.value = t.value
  data : r.data = t.data
  gasLimit : r.gasLimit = t.gasLimit
  hash : r.knownTransactionHash = some sent.hash
  maxPriorityFee : r.sentWithMaxPriorityFeePerGas =
    optionIf (!legacy) sent.sentWithGas.maxPriorityFee
  maxFee : r.sentWithMaxFeePerGas = optionIf (!legacy) sent.sentWithGas.maxFee
  gasPrice : r.gasPrice = optionIf legacy sent.sentWithGas.legacyGasPrice
  price : r.sentWithGas = sent.sentWithGas.stored
  blobPrice : r.sentWithBlobGas = sent.sentWithBlobGas.bind BlobGasPriceResult.stored

/-- The statements of a send wrote the attempt, live and in the log, and nothing else under its
id. -/
structure Db.Wrote (db db' : Db) (t : Transaction) (sent : TransactionSentWithRelayer)
    (legacy : Bool) : Prop where
  rows : ∀ r ∈ db'.rows, r.id = t.id → r.WrittenFor t sent legacy
  audit : ∃ new, db'.audit = db.audit ++ new ∧ new ≠ [] ∧ ∀ a ∈ new, a.WrittenFor t sent legacy

section Written

variable {db db' : Db} {t : Transaction} {sent : TransactionSentWithRelayer} {legacy : Bool}
  {now : DateTime} {r : Row}

theorem Row.withAttempt_written (r : Row) (relayerId : RelayerId) :
    (r.withAttempt relayerId t sent.hash sent.sentWithGas sent.sentWithBlobGas legacy
      now).WrittenFor t sent legacy :=
  ⟨rfl, rfl, rfl, rfl, rfl, rfl, rfl, rfl, rfl, rfl, rfl⟩

/-- Writing the price columns again keeps the row. -/
theorem Row.WrittenFor.again (h : r.WrittenFor t sent legacy) (status : TransactionStatus)
    (now : DateTime) :
    ({ r with status := status, sentAt := some now }.withGas sent.hash sent.sentWithGas
      sent.sentWithBlobGas legacy).WrittenFor t sent legacy :=
  ⟨h.nonce, h.toAddress, h.value, h.data, h.gasLimit, rfl, rfl, rfl, rfl, rfl, rfl⟩

theorem Db.transactionBroadcastAttempt_wrote {relayerId : RelayerId}
    (h : db.transactionBroadcastAttempt relayerId t sent.hash sent.sentWithGas
      sent.sentWithBlobGas legacy now = some db') : db.Wrote db' t sent legacy := by
  obtain ⟨hrows, new, hnew, hne, hall⟩ := transactionBroadcastAttempt_spec h
  refine ⟨?_, new, hnew, hne, ?_⟩
  · intro r hr hid
    rcases hrows r hr with ⟨-, hother⟩ | ⟨old, -, rfl⟩
    · exact absurd hid hother
    · exact old.withAttempt_written relayerId
  · intro a ha
    obtain ⟨old, -, rfl⟩ := hall a ha
    have hold : (old.withAttempt relayerId t sent.hash sent.sentWithGas sent.sentWithBlobGas
        legacy now).WrittenFor t sent legacy := old.withAttempt_written relayerId
    exact ⟨hold.nonce, hold.toAddress, hold.value, hold.data, hold.gasLimit, hold.hash,
      hold.maxPriorityFee, hold.maxFee, hold.gasPrice, hold.price, hold.blobPrice⟩

/-- Marking the attempt as sent keeps what it wrote. -/
theorem Db.Wrote.marked (h : db.Wrote db' t sent legacy) (hid : sent.id = t.id) (now : DateTime) :
    db.Wrote (db'.transactionSent sent.id sent.hash sent.sentWithGas sent.sentWithBlobGas legacy
      now) t sent legacy := by
  obtain ⟨new, hnew, hne, hall⟩ := h.audit
  constructor
  · intro r hr hrid
    obtain ⟨old, hold, ⟨hsame, rfl⟩ | ⟨hother, rfl⟩⟩ := mem_update hr
    · exact (h.rows old hold (hsame.trans hid)).again .inmempool now
    · exact absurd (hrid.trans hid.symm) hother
  · refine ⟨new ++ _, (congrArg (· ++ _) hnew).trans (List.append_assoc ..), ?_, ?_⟩
    · exact List.append_ne_nil_of_left_ne_nil hne _
    · intro a ha
      rcases List.mem_append.mp ha with ha | ha
      · exact hall a ha
      · obtain ⟨old, hold, hsame, rfl⟩ := mem_updateLog ha
        have hwritten := (h.rows old hold (hsame.trans hid)).again .inmempool now
        exact ⟨hwritten.nonce, hwritten.toAddress, hwritten.value, hwritten.data,
          hwritten.gasLimit, hwritten.hash, hwritten.maxPriorityFee, hwritten.maxFee,
          hwritten.gasPrice, hwritten.price, hwritten.blobPrice⟩

end Written

section Shown

variable {r : Row} {t : Transaction} {sent : TransactionSentWithRelayer} {legacy : Bool}
  {fees : TxFees} {gas : GasPriceResult} {max : ℕ}

/-- The columns are those of the envelope when the flag they are chosen by is. -/
theorem Row.WrittenFor.pricedAs_iff (h : r.WrittenFor t sent legacy)
    (hoffers : fees.Offers sent.sentWithGas) : r.PricedAs fees ↔ legacy = fees.isLegacy := by
  cases fees with
  | legacy gasPrice =>
    have hprice : gasPrice = sent.sentWithGas.legacyGasPrice := hoffers
    unfold Row.PricedAs TxFees.isLegacy
    rw [h.gasPrice, h.maxFee, h.maxPriorityFee, hprice]
    cases legacy <;> simp [optionIf]
  | eip1559 priority maxFee =>
    obtain ⟨hpriority, hmaxFee⟩ : priority = sent.sentWithGas.maxPriorityFee ∧
      maxFee = sent.sentWithGas.maxFee := hoffers
    unfold Row.PricedAs TxFees.isLegacy
    rw [h.gasPrice, h.maxFee, h.maxPriorityFee, hpriority, hmaxFee]
    cases legacy <;> simp [optionIf]
  | eip4844 priority maxFee blobFee hashes =>
    obtain ⟨hpriority, hmaxFee⟩ : priority = sent.sentWithGas.maxPriorityFee ∧
      maxFee = sent.sentWithGas.maxFee := hoffers
    unfold Row.PricedAs TxFees.isLegacy
    rw [h.gasPrice, h.maxFee, h.maxPriorityFee, hpriority, hmaxFee]
    cases legacy <;> simp [optionIf]

theorem GasPriceResult.stored_cases (gas : GasPriceResult) :
    gas.stored = some gas ∨ gas.stored = none := by
  unfold GasPriceResult.stored
  split
  · exact .inl rfl
  · exact .inr rfl

theorem BlobGasPriceResult.stored_cases (blobGas : BlobGasPriceResult) :
    blobGas.stored = some blobGas ∨ blobGas.stored = none := by
  unfold BlobGasPriceResult.stored
  split
  · exact .inl rfl
  · exact .inr rfl

/-- A price is shown when it reads back. -/
theorem Row.WrittenFor.price_iff (h : r.WrittenFor t sent legacy)
    (hoffers : fees.Offers sent.sentWithGas) :
    (∃ gas ∈ r.sentWithGas, fees.Offers gas) ↔
      sent.sentWithGas.stored = some sent.sentWithGas := by
  rw [h.price]
  rcases sent.sentWithGas.stored_cases with hstored | hstored
  · rw [hstored]
    simpa using hoffers
  · rw [hstored]
    simp

theorem Row.WrittenFor.blobPrice_iff (h : r.WrittenFor t sent legacy)
    (hblob : sent.sentWithBlobGas.map (·.blobGasPrice) = fees.maxFeePerBlobGas) :
    r.sentWithBlobGas.map (·.blobGasPrice) = fees.maxFeePerBlobGas ↔
      ∀ blobGas ∈ sent.sentWithBlobGas, blobGas.stored = some blobGas := by
  rw [h.blobPrice, ← hblob]
  rcases sent.sentWithBlobGas with _ | blobGas
  · simp
  · rcases blobGas.stored_cases with hstored | hstored
    · simp [hstored]
    · simp [hstored]

/-- A written row shows the attempt when its numbers survived the writing. -/
theorem Row.WrittenFor.shows_iff {signed : SignedTransaction} (h : r.WrittenFor t sent legacy)
    (hnonce : t.nonce = signed.nonce) (hhash : sent.hash = signed)
    (hoffers : signed.transaction.fees.Offers sent.sentWithGas)
    (hblob : sent.sentWithBlobGas.map (·.blobGasPrice) =
      signed.transaction.fees.maxFeePerBlobGas) :
    r.Shows signed ↔ t.gasLimit = some signed.transaction.gasLimit ∧
      legacy = signed.transaction.fees.isLegacy ∧
      sent.sentWithGas.stored = some sent.sentWithGas ∧
      ∀ blobGas ∈ sent.sentWithBlobGas, blobGas.stored = some blobGas := by
  rw [← h.pricedAs_iff hoffers, ← h.price_iff hoffers, ← h.blobPrice_iff hblob, ← h.gasLimit]
  constructor
  · intro hshows
    exact ⟨hshows.gasLimit, hshows.columns, hshows.price, hshows.blobPrice⟩
  · rintro ⟨hlimit, hcolumns, hprice, hblobPrice⟩
    exact ⟨h.nonce.trans hnonce, h.hash.trans (congrArg some hhash), hlimit, hcolumns, hprice,
      hblobPrice⟩

/-- Under a maximum that covers the max fee, what is left are the two fees no check compares. -/
theorem TxFees.Offers.all_le_iff (hoffers : fees.Offers gas) (hmax : gas.maxFee ≤ max) :
    (∀ fee ∈ fees.all, fee ≤ max) ↔ (fees.isLegacy = false → gas.maxPriorityFee ≤ max) ∧
      ∀ fee ∈ fees.maxFeePerBlobGas, fee ≤ max := by
  cases fees with
  | legacy gasPrice =>
    have hprice : gasPrice = gas.maxFee := hoffers
    simp [TxFees.all, TxFees.isLegacy, TxFees.maxFeePerBlobGas, hprice, hmax]
  | eip1559 priority maxFee =>
    obtain ⟨hpriority, hmaxFee⟩ : priority = gas.maxPriorityFee ∧ maxFee = gas.maxFee := hoffers
    simp [TxFees.all, TxFees.isLegacy, TxFees.maxFeePerBlobGas, hpriority, hmaxFee, hmax]
  | eip4844 priority maxFee blobFee hashes =>
    obtain ⟨hpriority, hmaxFee⟩ : priority = gas.maxPriorityFee ∧ maxFee = gas.maxFee := hoffers
    simp [TxFees.all, TxFees.isLegacy, TxFees.maxFeePerBlobGas, hpriority, hmaxFee, hmax]

end Shown

section Prepared

variable {config : SendConfig} {env : SendEnv} {t t' : Transaction} {signed : SignedTransaction}
  {sent : TransactionSentWithRelayer}

/-- A price that is sent is within the relayer's maximum. -/
theorem priceAndLimit_within {working : Transaction} {gas : GasPriceResult} {gasLimit : GasLimit}
    (h : priceAndLimit config env t = .ok (gas, working, gasLimit)) :
    ∀ max ∈ config.relayer.maxGasPrice, gas.maxFee ≤ max := by
  unfold priceAndLimit at h
  obtain ⟨price, -, h⟩ := except_bind_ok h
  split at h
  · cases h
  · rename_i hwithin
    obtain ⟨_, -, h⟩ := except_bind_ok h
    obtain ⟨_, -, h⟩ := except_bind_ok h
    obtain ⟨_, -, h⟩ := except_bind_ok h
    cases h
    intro max hmax
    simp only [Bool.not_eq_true', Bool.not_eq_false] at hwithin
    unfold withinGasPriceBounds at hwithin
    rw [Option.mem_def.mp hmax] at hwithin
    -- Both fee models compare the same number.
    dsimp only [GasPriceResult.legacyGasPrice] at hwithin
    split at hwithin
    · simpa using hwithin
    · simpa using hwithin

/-- The limit that is recorded is the signed one when it fits the envelope. -/
theorem prepareSend_gasLimit_iff (h : prepareSend config env t = (t', .ok (signed, sent))) :
    t'.gasLimit = some signed.transaction.gasLimit ↔
      (convertsToNoop env t = false → ∀ base,
        (t.gasLimit = some base ∨ t.gasLimit = none ∧ estimateForSend config env t = .ok base) →
          (if isSafeRouted config t then base + safeOverhead else base) < 2 ^ 64) := by
  obtain ⟨working, gasLimit, request, blobGas, hpriced, hbuilt, hsigned, hleft, -⟩ :=
    prepareSend_exact h
  by_cases hconverts : convertsToNoop env t = true
  · rw [if_pos hconverts] at hsigned hleft
    rw [hsigned, hleft, hconverts]
    simp only [Bool.true_eq_false, false_implies, iff_true]
    rfl
  · rw [if_neg hconverts] at hsigned hleft
    have hkept : convertsToNoop env t = false := by simpa using hconverts
    obtain ⟨base, hbase, hlimit⟩ := priceAndLimit_limit hpriced
    have hsame : signed.transaction.gasLimit = gasLimit % 2 ^ 64 := by
      obtain ⟨henvelope, -⟩ := buildRequest_envelope hbuilt
      have hfield := congrArg TypedTransaction.gasLimit (hsigned.trans henvelope)
      exact hfield
    have honly (other : GasLimit) (hother : t.gasLimit = some other ∨
        t.gasLimit = none ∧ estimateForSend config env t = .ok other) : other = base := by
      rcases hbase with hbase | ⟨hnone, hbase⟩
      · rcases hother with hother | ⟨hnone, -⟩
        · exact Option.some.inj (hother.symm.trans hbase)
        · rw [hbase] at hnone
          cases hnone
      · rcases hother with hother | ⟨-, hother⟩
        · rw [hother] at hnone
          cases hnone
        · exact Except.ok.inj (hother.symm.trans hbase)
    have hfits : t'.gasLimit = some signed.transaction.gasLimit ↔ gasLimit < 2 ^ 64 := by
      rw [hleft, hsame]
      dsimp only
      rw [Option.some.injEq, eq_comm]
      exact Nat.mod_eq_iff_lt (by decide)
    rw [hfits, hlimit, hkept]
    constructor
    · intro hsmall _ other hother
      rw [honly other hother]
      exact hsmall
    · intro hall
      exact hall rfl base hbase

/-- The condition of a send, on what it prepared. -/
theorem fitsRecords_iff (h : prepareSend config env t = (t', .ok (signed, sent))) :
    FitsRecords config env t ↔
      (t'.gasLimit = some signed.transaction.gasLimit ∧
        config.isLegacyTransactions = signed.transaction.fees.isLegacy ∧
        sent.sentWithGas.stored = some sent.sentWithGas ∧
        ∀ blobGas ∈ sent.sentWithBlobGas, blobGas.stored = some blobGas) ∧
      ∀ max ∈ config.relayer.maxGasPrice, ∀ fee ∈ signed.transaction.fees.all, fee ≤ max := by
  have hlegacy : signed.transaction.fees.isLegacy =
      (config.isLegacyTransactions && !signsBlob env t) := by
    rw [(prepareSend_type h).2]
    unfold signsBlob
    simp
  have hcolumns : config.isLegacyTransactions = signed.transaction.fees.isLegacy ↔
      (config.isLegacyTransactions = true → signsBlob env t = false) := by
    rw [hlegacy]
    cases config.isLegacyTransactions <;> simp
  obtain ⟨working, gasLimit, request, blobGas, hprepared⟩ := prepareSend_ok h
  have hprice : sendGasPrice config env t = .ok sent.sentWithGas :=
    priceAndLimit_price hprepared.priced
  have hoffers := offers_of_pays hprepared.pays
  have hwithin := priceAndLimit_within hprepared.priced
  have hblobFee := prepareSend_recordBlobFee h
  have hblob : if signsBlob env t = true then ∃ blobGas,
      sendBlobGasPrice config env t = .ok blobGas ∧ sent.sentWithBlobGas = some blobGas
      else sent.sentWithBlobGas = none := prepareSend_sentBlobGas h
  rw [prepareSend_gasLimit_iff h, hcolumns]
  constructor
  · intro hfits
    refine ⟨⟨hfits.gasLimit, hfits.columns, hfits.price _ hprice, ?_⟩, ?_⟩
    · intro price hsent
      split at hblob
      · rename_i hsigns
        obtain ⟨computed, hcomputed, hsome⟩ := hblob
        obtain rfl := Option.some.inj (hsome.symm.trans hsent)
        exact (hfits.blobPrice hsigns _ hcomputed).1
      · rw [hblob] at hsent
        cases hsent
    · intro max hmax
      rw [hoffers.all_le_iff (hwithin max hmax), ← hblobFee]
      constructor
      · intro htype
        have hmodel := htype
        rw [← hcolumns.mpr hfits.columns] at hmodel
        exact hfits.priority hmodel max hmax _ hprice
      · intro fee hfee
        split at hblob
        · rename_i hsigns
          obtain ⟨computed, hcomputed, hsome⟩ := hblob
          rw [hsome] at hfee
          obtain rfl := Option.some.inj hfee
          exact (hfits.blobPrice hsigns _ hcomputed).2 max hmax
        · rw [hblob] at hfee
          cases hfee
  · rintro ⟨⟨hlimit, hmodel, hstored, hblobStored⟩, hbound⟩
    have hall (max : ℕ) (hmax : max ∈ config.relayer.maxGasPrice) :=
      (hoffers.all_le_iff (hwithin max hmax)).mp (hbound max hmax)
    refine ⟨hmodel, ?_, ?_, ?_, hlimit⟩
    · intro gas hgas
      obtain rfl := Except.ok.inj (hprice.symm.trans hgas)
      exact hstored
    · intro hnotLegacy max hmax gas hgas
      obtain rfl := Except.ok.inj (hprice.symm.trans hgas)
      apply (hall max hmax).1
      rw [hlegacy, hnotLegacy]
      rfl
    · intro hsigns price hcomputed
      rw [if_pos hsigns] at hblob
      obtain ⟨computed, hsame, hsome⟩ := hblob
      obtain rfl := Except.ok.inj (hsame.symm.trans hcomputed)
      refine ⟨hblobStored _ hsome, ?_⟩
      intro max hmax
      apply (hall max hmax).2
      rw [← hblobFee, hsome]
      rfl

/-- A converted payload is signed as a no-op of the relayer to itself, and left as one. -/
theorem prepareSend_converted (h : prepareSend config env t = (t', .ok (signed, sent)))
    (hconverts : convertsToNoop env t = true) :
    signed.IsNoop config.relayer.address ∧ t'.CarriesNothing config.relayer.address := by
  obtain ⟨_, _, _, _, -, -, hsigned, hleft, -⟩ := prepareSend_exact h
  rw [if_pos hconverts] at hsigned hleft
  unfold SignedTransaction.IsNoop Transaction.CarriesNothing
  rw [hsigned, hleft]
  exact ⟨⟨rfl, rfl, rfl⟩, rfl, rfl, rfl⟩

end Prepared

section Sent

variable {config : SendConfig} {env : SendEnv} {db : Db} {broadcasts : Broadcasts}
  {t : Transaction} {x : TransactionId} {signed : SignedTransaction}

/-- What is handed out was prepared and written before. -/
theorem sendTransaction_handed
    (h : (sendTransaction config env db broadcasts t).broadcasts = broadcasts ++ [(x, signed)]) :
    ∃ t' sent, prepareSend config env t = (t', .ok (signed, sent)) ∧
      db.Wrote (sendTransaction config env db broadcasts t).db t' sent
        config.isLegacyTransactions ∧
      ∀ record, (sendTransaction config env db broadcasts t).result = .ok record →
        record = sent := by
  have hnothing : broadcasts ≠ broadcasts ++ [(x, signed)] := by
    intro hsame
    have hlength := congrArg List.length hsame
    simp at hlength
  unfold sendTransaction at h ⊢
  rcases hprepare : prepareSend config env t with ⟨t', e | ⟨bytes, sent⟩⟩
  · rw [hprepare] at h
    exact absurd h hnothing
  · rw [hprepare] at h
    dsimp only at h ⊢
    have hspec := prepareSend_spec config env t
    rw [hprepare] at hspec
    obtain ⟨hslot, hsigned⟩ := hspec
    have hid : sent.id = t'.id := (hsigned bytes sent rfl).id.trans hslot.id.symm
    unfold persistAndBroadcast at h ⊢
    dsimp only at h ⊢
    rcases hattempt : (if env.persistAttempt then db.transactionBroadcastAttempt
      config.relayer.id t' sent.hash sent.sentWithGas sent.sentWithBlobGas
      config.isLegacyTransactions env.nowSent else none) with _ | db'
    · rw [hattempt] at h
      exact absurd h hnothing
    · rw [hattempt] at h
      dsimp only at h ⊢
      have hwrote : db.Wrote db' t' sent config.isLegacyTransactions := by
        split at hattempt
        · exact Db.transactionBroadcastAttempt_wrote hattempt
        · cases hattempt
      have hbytes {entry : TransactionId}
          (hsame : broadcasts ++ [(entry, bytes)] = broadcasts ++ [(x, signed)]) :
          bytes = signed := by
        have hpair := List.append_cancel_left hsame
        simp only [List.cons.injEq, Prod.mk.injEq, and_true] at hpair
        exact hpair.2
      rcases hbroadcast : env.broadcast bytes with e | _
      · rw [hbroadcast] at h
        obtain rfl := hbytes h
        refine ⟨t', sent, rfl, hwrote, ?_⟩
        intro record hrecord
        cases hrecord
      · rw [hbroadcast] at h
        dsimp only at h ⊢
        by_cases hmark : env.markSent = true
        · rw [if_pos hmark] at h ⊢
          obtain rfl := hbytes h
          refine ⟨t', sent, rfl, hwrote.marked hid env.nowSent, ?_⟩
          intro record hrecord
          exact (Except.ok.inj hrecord).symm
        · rw [if_neg hmark] at h ⊢
          obtain rfl := hbytes h
          refine ⟨t', sent, rfl, hwrote, ?_⟩
          intro record hrecord
          cases hrecord

/-- Whatever a send records of an attempt is what it signed, within the relayer's maximum, exactly
when the relayer's fee model is that of the envelope and the numbers fit. -/
theorem recorded_as_signed_iff
    (h : (sendTransaction config env db broadcasts t).broadcasts =
      broadcasts ++ [(t.id, signed)]) :
    (sendTransaction config env db broadcasts t).RecordedAsSigned config env db t signed ↔
      FitsRecords config env t := by
  obtain ⟨t', sent, hprepare, hwrote, hrecord⟩ := sendTransaction_handed h
  have hspec := prepareSend_spec config env t
  rw [hprepare] at hspec
  obtain ⟨hslot, hsigned⟩ := hspec
  have hfor := hsigned signed sent rfl
  obtain ⟨working, gasLimit, request, blobGas, hprepared⟩ := prepareSend_ok hprepare
  have hoffers := offers_of_pays hprepared.pays
  have hblobFee := prepareSend_recordBlobFee hprepare
  have hshows (r : Row) (hr : r.WrittenFor t' sent config.isLegacyTransactions) :=
    hr.shows_iff (hslot.nonce.trans hfor.nonce.symm) hfor.hash hoffers hblobFee
  obtain ⟨new, hnew, hne, hall⟩ := hwrote.audit
  have hdrop : (sendTransaction config env db broadcasts t).db.audit.drop db.audit.length =
      new := by
    rw [hnew, List.drop_left]
  rw [fitsRecords_iff hprepare]
  constructor
  · intro hrecorded
    -- The log always has a snapshot of the attempt.
    obtain ⟨a, ha⟩ := List.exists_mem_of_ne_nil new hne
    refine ⟨(hshows a (hall a ha)).mp (hrecorded.audit a ?_), hrecorded.bound⟩
    rw [hdrop]
    exact ha
  · rintro ⟨hfits, hbound⟩
    refine ⟨?_, ?_, ?_, ?_, hbound⟩
    · intro r hr hid
      exact (hshows r (hwrote.rows r hr (hid.trans hslot.id.symm))).mpr hfits
    · intro a ha
      rw [hdrop] at ha
      exact (hshows a (hall a ha)).mpr hfits
    · intro record hresult
      obtain rfl := hrecord record hresult
      exact ⟨hfor.hash, hoffers, hblobFee⟩
    · intro hconverts
      obtain ⟨hnoop, hnothing⟩ := prepareSend_converted hprepare hconverts
      refine ⟨hnoop, ?_⟩
      intro r hr hid
      have hwritten := hwrote.rows r hr (hid.trans hslot.id.symm)
      obtain ⟨haddress, hvalue, hdata⟩ := hnothing
      exact ⟨hwritten.toAddress.trans haddress, hwritten.value.trans hvalue,
        hwritten.data.trans hdata⟩

end Sent

namespace TransactionsQueues

/-- A payment as it is admitted, before its first send. -/
def paymentToSend : Transaction :=
  gateLocked.admittedTransaction (servedAdd 0) (payment 1 5) 0

theorem recorded_as_signed_payment :
    (sendTransaction freshQueue.toSendConfig (servedSend (.ok ())) .empty []
      paymentToSend).RecordedAsSigned freshQueue.toSendConfig (servedSend (.ok ())) .empty
        paymentToSend (paymentEnvelope 0 5 1 10) := by
  apply (recorded_as_signed_iff (by decide +kernel)).mpr
  constructor
  · intro hlegacy
    cases hlegacy
  · intro gas hgas
    cases hgas
    rfl
  · intro _ max hmax
    cases hmax
  · intro hsigns
    cases hsigns
  · rintro - base (hlimit | ⟨-, hestimate⟩)
    · cases hlimit
    · cases hestimate
      decide +kernel

/-- A relayer without EIP-1559 that prices and sends a blob transaction. -/
def legacyConfig : SendConfig :=
  { freshQueue.toSendConfig with relayer := ⟨0, 1, 7, none, false, false⟩ }

def blobSend : SendEnv :=
  { servedSend (.ok ()) with
    blobOracle := fun _ => some gateBlobGas
    buildSidecar := fun blobs => .ok (blobs.map fun _ => 1) }

def blobEnvelope : SignedTransaction :=
  ⟨blobPayment.toEnvelope 25200 (.eip4844 1 10 3 [1]), 0⟩

/-- The blob transaction of a legacy relayer is recorded under a gas price, with no max fee. -/
theorem recorded_as_signed_fails : ¬ ∀ config env db broadcasts t signed,
    (sendTransaction config env db broadcasts t).broadcasts = broadcasts ++ [(t.id, signed)] →
      (sendTransaction config env db broadcasts t).RecordedAsSigned config env db t signed := by
  intro hrecorded
  have hblob := hrecorded legacyConfig blobSend .empty [] blobPayment blobEnvelope rfl
  have hrow := hblob.rows ((sendTransaction legacyConfig blobSend .empty []
    blobPayment).db.rows.head (by decide +kernel)) (List.head_mem _) rfl
  exact absurd hrow.columns.1 (by decide +kernel)

end TransactionsQueues

end Rrelayer
