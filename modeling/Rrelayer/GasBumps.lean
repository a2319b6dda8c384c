import Rrelayer.ExpiredPayloads

/-! How far a bump raises the fees: of a resend over the attempt before it, and of a competitor over
the original whose nonce it takes. -/
namespace Rrelayer

/-- The next price at the same nonce: above the last one in both fees, under the cap, and with a
priority fee that the max fee covers. -/
structure GasPriceResult.Progresses (multiplier : ℕ) (oracle : GasOracle)
    (sent gas : GasPriceResult) : Prop where
  maxFee : sent.maxFee < gas.maxFee
  maxPriorityFee : sent.maxPriorityFee < gas.maxPriorityFee
  cap : CapAllows multiplier oracle gas
  ordered : gas.maxPriorityFee ≤ gas.maxFee

section Price

variable {multiplier : ℕ} {oracle : GasOracle} {speed : TransactionSpeed}
  {sent gas : GasPriceResult}

theorem lt_bumpByAtLeastOne (value : ℕ) : value < bumpByAtLeastOne value := by
  unfold bumpByAtLeastOne
  omega

theorem raiseAbove_strict (sent gas : GasPriceResult) :
    sent.maxFee < (raiseAbove sent gas).maxFee ∧
      sent.maxPriorityFee < (raiseAbove sent gas).maxPriorityFee := by
  unfold raiseAbove
  constructor
  · dsimp only
    split
    · exact lt_bumpByAtLeastOne _
    · omega
  · dsimp only
    split
    · exact lt_bumpByAtLeastOne _
    · omega

/-- A capped value is above a floor exactly when the value and the cap are. -/
theorem lt_capAt_iff {cap value floor : ℕ} :
    floor < capAt cap value ↔ floor < value ∧ (0 < cap → floor < cap) := by
  unfold capAt
  split <;> omega

theorem capAt_le {cap value : ℕ} (hcap : 0 < cap) : capAt cap value ≤ cap := by
  unfold capAt
  split <;> omega

/-- Only an oracle that knows the SUPER price caps. -/
theorem capAtSuper_allowed : CapAllows multiplier oracle (capAtSuper multiplier oracle gas) := by
  intro superPrice hsuper
  unfold capAtSuper
  rw [Option.mem_def.mp hsuper]
  exact ⟨capAt_le, capAt_le⟩

theorem priorityWithinMax_spec (gas : GasPriceResult) :
    (priorityWithinMax gas).maxFee = gas.maxFee ∧
      (priorityWithinMax gas).maxPriorityFee = min gas.maxPriorityFee gas.maxFee := by
  unfold priorityWithinMax
  split
  · rename_i habove
    exact ⟨rfl, (Nat.min_eq_right (Nat.le_of_lt habove)).symm⟩
  · rename_i hwithin
    exact ⟨rfl, (Nat.min_eq_left (Nat.le_of_not_gt hwithin)).symm⟩

theorem CapAllows.priorityWithinMax (h : CapAllows multiplier oracle gas) :
    CapAllows multiplier oracle (priorityWithinMax gas) := by
  obtain ⟨hfee, hpriority⟩ := priorityWithinMax_spec gas
  intro superPrice hsuper
  obtain ⟨hcapFee, hcapPriority⟩ := h superPrice hsuper
  rw [hfee, hpriority]
  refine ⟨hcapFee, fun hpositive => ?_⟩
  exact (Nat.min_le_left ..).trans (hcapPriority hpositive)

/-- Below the cap there is room for a strict bump. -/
theorem capAtSuper_strict (hcap : isAtMaxGasPriceCap multiplier oracle sent = false)
    (hfee : sent.maxFee < gas.maxFee) (hpriority : sent.maxPriorityFee < gas.maxPriorityFee) :
    sent.maxFee < (capAtSuper multiplier oracle gas).maxFee ∧
      sent.maxPriorityFee < (capAtSuper multiplier oracle gas).maxPriorityFee := by
  unfold isAtMaxGasPriceCap at hcap
  unfold capAtSuper
  split
  · exact ⟨hfee, hpriority⟩
  · rename_i superPrice hsuper
    rw [hsuper] at hcap
    simp only [Bool.or_eq_false_iff, Bool.and_eq_false_iff, decide_eq_false_iff_not, gt_iff_lt,
      ge_iff_le] at hcap
    dsimp only
    rw [lt_capAt_iff, lt_capAt_iff]
    omega

/-- A price that is not at the cap is bumped strictly in both fees, and stays under the cap. -/
theorem gas_bump_progresses (hpriority : sent.maxPriorityFee ≤ sent.maxFee)
    (hcap : isAtMaxGasPriceCap multiplier oracle sent = false) :
    (∃ error, computeGasPriceForTransaction multiplier oracle speed (some sent) = .error error) ∨
      ∃ gas, computeGasPriceForTransaction multiplier oracle speed (some sent) = .ok gas ∧
        sent.Progresses multiplier oracle gas := by
  unfold computeGasPriceForTransaction
  rcases oracle speed with _ | price
  · exact .inl ⟨_, rfl⟩
  right
  refine ⟨_, rfl, ?_⟩
  obtain ⟨hraisedFee, hraisedPriority⟩ := raiseAbove_strict sent (escalate oracle speed sent price)
  obtain ⟨hcappedFee, hcappedPriority⟩ := capAtSuper_strict hcap hraisedFee hraisedPriority
  obtain ⟨hsameFee, hmin⟩ := priorityWithinMax_spec
    (capAtSuper multiplier oracle (raiseAbove sent (escalate oracle speed sent price)))
  constructor
  · rw [hsameFee]
    exact hcappedFee
  · rw [hmin]
    omega
  · exact capAtSuper_allowed.priorityWithinMax
  · rw [hsameFee, hmin]
    exact Nat.min_le_right ..

theorem gas_bump_progresses_served :
    (∃ error, computeGasPriceForTransaction 4 servedGas .super (some ⟨3, 30, none, none⟩) =
        .error error) ∨
      ∃ gas, computeGasPriceForTransaction 4 servedGas .super (some ⟨3, 30, none, none⟩) = .ok gas ∧
        GasPriceResult.Progresses 4 servedGas ⟨3, 30, none, none⟩ gas :=
  gas_bump_progresses (by decide) (by decide)

example : computeGasPriceForTransaction 4 servedGas .super (some ⟨3, 30, none, none⟩) =
    .ok ⟨4, 31, none, none⟩ := by rfl

/-- A competitor's price is not below the original's. -/
theorem le_bumpForSameNonceCompetitor {value : ℕ} (h : value ≤ maxU128) :
    value ≤ bumpForSameNonceCompetitor value := by
  unfold bumpForSameNonceCompetitor
  omega

/-- What is left of a competitor's price once it is raised over the oracle's SUPER price and
capped. -/
theorem lt_superPrice_iff {superPrice : GasPriceResult} (hsuper : oracle .super = some superPrice)
    (h : computeGasPriceForTransaction multiplier oracle .super (some sent) = .ok gas)
    (floor : ℕ) :
    (floor < gas.maxFee ↔ floor < (raiseAbove sent superPrice).maxFee ∧
      (0 < superPrice.maxFee * multiplier → floor < superPrice.maxFee * multiplier)) ∧
    (floor < gas.maxPriorityFee ↔ floor < gas.maxFee ∧
      floor < (raiseAbove sent superPrice).maxPriorityFee ∧
      (0 < superPrice.maxPriorityFee * multiplier →
        floor < superPrice.maxPriorityFee * multiplier)) := by
  have hraised : raiseAbove sent (raiseAbove sent superPrice) = raiseAbove sent superPrice := by
    obtain ⟨hfee, hpriority⟩ := raiseAbove_strict sent superPrice
    rw [raiseAbove, if_neg (by omega), if_neg (by omega)]
  have hcomputed : gas = priorityWithinMax (capAtSuper multiplier oracle
      (raiseAbove sent superPrice)) := by
    have hescalated : escalate oracle .super sent superPrice = raiseAbove sent superPrice := rfl
    unfold computeGasPriceForTransaction at h
    rw [hsuper] at h
    dsimp only at h
    rw [hescalated, hraised] at h
    cases h
    rfl
  obtain ⟨hfee, hpriority⟩ := priorityWithinMax_spec
    (capAtSuper multiplier oracle (raiseAbove sent superPrice))
  rw [← hcomputed] at hfee hpriority
  have hcapped : capAtSuper multiplier oracle (raiseAbove sent superPrice) =
      { raiseAbove sent superPrice with
        maxFee := capAt (superPrice.maxFee * multiplier) (raiseAbove sent superPrice).maxFee
        maxPriorityFee := capAt (superPrice.maxPriorityFee * multiplier)
          (raiseAbove sent superPrice).maxPriorityFee } := by
    unfold capAtSuper
    rw [hsuper]
  rw [hcapped] at hfee hpriority
  dsimp only at hfee hpriority
  constructor
  · rw [hfee]
    exact lt_capAt_iff
  · rw [hpriority, ← hfee, lt_min_iff, lt_capAt_iff]
    exact and_comm

end Price


/-- The price a blob competitor pays: its own SUPER price, bumped once and capped. -/
theorem lt_superBlobPrice_iff {multiplier : ℕ} {oracle : BlobGasOracle}
    {superPrice blobGas : BlobGasPriceResult} (hsuper : oracle .super = some superPrice)
    (h : computeBlobGasPriceForTransaction multiplier oracle .super (some superPrice) = .ok blobGas)
    (floor : ℕ) :
    floor < blobGas.blobGasPrice ↔ floor < bumpByAtLeastOne superPrice.blobGasPrice ∧
      (0 < superPrice.blobGasPrice * multiplier → floor < superPrice.blobGasPrice * multiplier) := by
  have hescalated : escalateBlob oracle .super superPrice superPrice = superPrice := by
    unfold escalateBlob
    simp [TransactionSpeed.nextSpeed]
  have hraised : raiseBlobAbove superPrice superPrice =
      blobPrice (bumpByAtLeastOne superPrice.blobGasPrice) := by
    unfold raiseBlobAbove
    simp
  unfold computeBlobGasPriceForTransaction at h
  rw [hsuper] at h
  dsimp only at h
  rw [hescalated, hraised] at h
  cases h
  have hcapped : (capBlobAtSuper multiplier oracle
      (blobPrice (bumpByAtLeastOne superPrice.blobGasPrice))).blobGasPrice =
        capAt (superPrice.blobGasPrice * multiplier)
          (bumpByAtLeastOne superPrice.blobGasPrice) := by
    have hprice (price : ℕ) : (blobPrice price).blobGasPrice = price := rfl
    unfold capBlobAtSuper capAt
    rw [hsuper]
    dsimp only
    rw [hprice]
    split
    · rfl
    · rfl
  rw [hcapped]
  exact lt_capAt_iff

def TxFees.maxFeePerBlobGas : TxFees → Option ℕ
  | .eip4844 _ _ maxFeePerBlobGas _ => some maxFeePerBlobGas
  | _ => none

section Prepare

variable {config : SendConfig} {env : SendEnv} {t t' : Transaction} {signed : SignedTransaction}
  {sent : TransactionSentWithRelayer}

/-- The blob price of the record is the computed one, for a payload signed as a blob transaction. -/
theorem prepareSend_sentBlobGas (h : prepareSend config env t = (t', .ok (signed, sent))) :
    if (t.isBlobTransaction && !convertsToNoop env t) = true then
      ∃ blobGas, computeBlobGasPriceForTransaction config.maxGasPriceMultiplier env.blobOracle
        t.speed t.sentWithBlobGas = .ok blobGas ∧ sent.sentWithBlobGas = some blobGas
    else sent.sentWithBlobGas = none := by
  obtain ⟨working, gasLimit, request, blobGas, hpriced, hbuilt, -, -, hrecord⟩ :=
    prepareSend_exact h
  obtain ⟨viaSafe, hroute⟩ := priceAndLimit_route hpriced
  have hworking := routeThroughSafe_keeps hroute
  have hblobs : ({ working with gasLimit := some gasLimit } : Transaction).isBlobTransaction =
      t.isBlobTransaction := by
    have hsame := congrArg (Option.isSome ∘ Transaction.blobs) hworking
    exact hsame
  have hspeed : working.speed = t.speed := by
    have hsame := congrArg Transaction.speed hworking
    exact hsame
  have hlast : working.sentWithBlobGas = t.sentWithBlobGas := by
    have hsame := congrArg Transaction.sentWithBlobGas hworking
    exact hsame
  by_cases hconverts : convertsToNoop env t = true
  · rw [if_pos hconverts] at hrecord
    simpa [hconverts] using hrecord
  · rw [if_neg hconverts] at hrecord
    have hkept : convertsToNoop env t = false := by simpa using hconverts
    rw [hrecord, hkept, Bool.not_false, Bool.and_true, ← hblobs]
    cases buildRequest_builds hbuilt with
    | eip4844 price hashes hblob hprice =>
      rw [if_pos hblob]
      rw [← hspeed, ← hlast]
      exact ⟨price, hprice, rfl⟩
    | legacy hblob | eip1559 hblob => simp [hblob]

/-- The blob fee of the record is the signed one. -/
theorem prepareSend_recordBlobFee (h : prepareSend config env t = (t', .ok (signed, sent))) :
    sent.sentWithBlobGas.map (·.blobGasPrice) = signed.transaction.fees.maxFeePerBlobGas := by
  obtain ⟨working, gasLimit, request, blobGas, hprepared⟩ := prepareSend_ok h
  have hpays := hprepared.pays
  unfold SignedTransaction.Pays at hpays
  unfold TxFees.maxFeePerBlobGas
  split at hpays
  · rename_i hfees
    rw [hfees, hpays.2]
    rfl
  · rename_i hfees
    rw [hfees, hpays.2.2]
    rfl
  · rename_i hfees
    obtain ⟨-, -, price, hprice, hfee⟩ := hpays
    rw [hfees, hprice, hfee]
    rfl

/-- The blob fee that is signed is the computed one. -/
theorem prepareSend_blobFee (h : prepareSend config env t = (t', .ok (signed, sent)))
    (hblob : signed.transaction.fees.isBlob = true) :
    ∃ blobGas, computeBlobGasPriceForTransaction config.maxGasPriceMultiplier env.blobOracle t.speed
      t.sentWithBlobGas = .ok blobGas ∧
        signed.transaction.fees.maxFeePerBlobGas = some blobGas.blobGasPrice := by
  have hrecord := prepareSend_sentBlobGas h
  rw [← (prepareSend_type h).1, if_pos hblob] at hrecord
  obtain ⟨blobGas, hcomputed, hsent⟩ := hrecord
  refine ⟨blobGas, hcomputed, ?_⟩
  rw [← prepareSend_recordBlobFee h, hsent]
  rfl

end Prepare

/-- Each fee of the attempt is above the one recorded for the original; the blob fee where both
are blob transactions. -/
structure SignedTransaction.Outbids (signed : SignedTransaction) (original : Transaction) :
    Prop where
  maxFee : ∀ gas ∈ original.sentWithGas, gas.maxFee < signed.transaction.fees.maxFee
  maxPriorityFee : ∀ gas ∈ original.sentWithGas,
    gas.maxPriorityFee < signed.transaction.fees.maxPriorityFee
  maxFeePerBlobGas : original.isBlobTransaction = true → ∀ blobGas ∈ original.sentWithBlobGas,
    ∀ price ∈ signed.transaction.fees.maxFeePerBlobGas, blobGas.blobGasPrice < price

instance (signed : SignedTransaction) (original : Transaction) :
    Decidable (signed.Outbids original) :=
  decidable_of_iff ((∀ gas ∈ original.sentWithGas, gas.maxFee < signed.transaction.fees.maxFee) ∧
      (∀ gas ∈ original.sentWithGas,
        gas.maxPriorityFee < signed.transaction.fees.maxPriorityFee) ∧
      (original.isBlobTransaction = true → ∀ blobGas ∈ original.sentWithBlobGas,
        ∀ price ∈ signed.transaction.fees.maxFeePerBlobGas, blobGas.blobGasPrice < price))
    ⟨fun h => ⟨h.1, h.2.1, h.2.2⟩, fun h => ⟨h.maxFee, h.maxPriorityFee, h.maxFeePerBlobGas⟩⟩

namespace Locked

/-- The fees of the original leave a competitor room below the caps at the SUPER price. -/
def LeavesGasRoom (l : Locked) (env : CompeteEnv) (gas : GasPriceResult) (isBlob : Bool) : Prop :=
  ∀ superPrice ∈ env.send.gasOracle .super,
    let maxFeeCap := superPrice.maxFee * l.queue.maxGasPriceMultiplier
    let priorityCap := superPrice.maxPriorityFee * l.queue.maxGasPriceMultiplier
    (0 < maxFeeCap → gas.maxFee < maxFeeCap ∧ gas.maxPriorityFee < maxFeeCap) ∧
      gas.maxPriorityFee < (raiseAbove (competitorGas gas) superPrice).maxFee ∧
      (l.queue.toSendConfig.isLegacyTransactions = false ∨ isBlob = true → 0 < priorityCap →
        gas.maxPriorityFee < priorityCap)

/-- The blob price of the original is below what a blob competitor pays, the bumped SUPER price,
and below its cap. -/
def LeavesBlobRoom (l : Locked) (env : CompeteEnv) (blobGas : BlobGasPriceResult) : Prop :=
  ∀ superPrice ∈ env.send.blobOracle .super,
    let cap := superPrice.blobGasPrice * l.queue.maxGasPriceMultiplier
    blobGas.blobGasPrice < bumpByAtLeastOne superPrice.blobGasPrice ∧
      (0 < cap → blobGas.blobGasPrice < cap)

/-- The recorded fees of the original leave the competitor room. -/
structure LeavesRoom (l : Locked) (env : CompeteEnv) (original competitor : Transaction) : Prop where
  gas : ∀ gas ∈ original.sentWithGas, l.LeavesGasRoom env gas competitor.isBlobTransaction
  blobGas : original.isBlobTransaction = true → competitor.isBlobTransaction = true →
    ∀ blobGas ∈ original.sentWithBlobGas, l.LeavesBlobRoom env blobGas

variable {l : Locked} {e : Event} {env : CompeteEnv} {original competitor : Transaction}

/-- A competitor comes from a cancel or from a replace of its original. -/
theorem requested_cases (h : l.requested e = some (env, original, competitor)) :
    (∃ id, e = .cancel env id ∧ l.raced env id = some original ∧
      l.cancelCompetitor env original = some competitor) ∨
    ∃ request id, e = .replace env request id ∧ l.raced env id = some original ∧
      l.replaceCompetitor env request original = some competitor := by
  cases e with
  | cancel env' id =>
    obtain ⟨original', hraced, h⟩ := Option.bind_eq_some_iff.mp h
    obtain ⟨competitor', hcompetitor, h⟩ := Option.map_eq_some_iff.mp h
    cases h
    exact .inl ⟨id, rfl, hraced, hcompetitor⟩
  | replace env' request id =>
    obtain ⟨original', hraced, h⟩ := Option.bind_eq_some_iff.mp h
    obtain ⟨competitor', hcompetitor, h⟩ := Option.map_eq_some_iff.mp h
    cases h
    exact .inr ⟨request, id, rfl, hraced, hcompetitor⟩
  | _ => cases h

/-- What a replacement is made of. -/
theorem replaceCompetitor_some {request : RelayTransactionRequest}
    (h : l.replaceCompetitor env request original = some competitor) :
    ∃ externalId blobs gas gasLimit blobGas,
      replacementExternalId original request.externalId true = .ok externalId ∧
      decodeBlobs request = .ok blobs ∧ original.sentWithGas = some gas ∧
      original.gasLimit = some gasLimit ∧
      l.replacementBlobGas env (l.replacement env request original externalId blobs gasLimit) =
        .ok blobGas ∧
      competitor = { l.replacement env request original externalId blobs gasLimit with
        sentWithGas := some (competitorGas gas), sentWithBlobGas := blobGas } := by
  unfold replaceCompetitor at h
  split at h
  · rename_i externalId blobs gas gasLimit hexternal hblobs hgas hlimit
    dsimp only at h
    split at h
    · cases h
    · rename_i blobGas hblobGas
      cases h
      exact ⟨externalId, blobs, gas, gasLimit, blobGas, hexternal, hblobs, hgas, hlimit, hblobGas,
        rfl⟩
  · cases h

/-- How a competitor is priced before its send prices it again. -/
theorem requested_price (h : l.requested e = some (env, original, competitor)) :
    ∃ gas, original.sentWithGas = some gas ∧ competitor.sentWithGas = some (competitorGas gas) ∧
      competitor.speed = .super ∧ (competitor.isBlobTransaction = true →
        ∃ superPrice, env.send.blobOracle .super = some superPrice ∧
          competitor.sentWithBlobGas = some superPrice) := by
  rcases requested_cases h with ⟨_, -, -, hcancel⟩ | ⟨request, _, -, -, hreplace⟩
  · obtain ⟨gas, hgas, rfl⟩ := Option.map_eq_some_iff.mp hcancel
    refine ⟨gas, hgas, rfl, rfl, fun hblob => ?_⟩
    cases hblob
  · obtain ⟨externalId, blobs, gas, gasLimit, blobGas, -, -, hgas, -, hblobGas, rfl⟩ :=
      replaceCompetitor_some hreplace
    refine ⟨gas, hgas, rfl, rfl, fun hblob => ?_⟩
    have hblob : (l.replacement env request original externalId blobs
        gasLimit).isBlobTransaction = true := hblob
    unfold replacementBlobGas at hblobGas
    rw [if_pos hblob] at hblobGas
    unfold computeBlobGasPriceForTransaction at hblobGas
    rcases hsuper : env.send.blobOracle .super with _ | superPrice
    · rw [hsuper] at hblobGas
      cases hblobGas
    · rw [hsuper] at hblobGas
      cases hblobGas
      exact ⟨superPrice, rfl, rfl⟩

section Priced

variable {gas : GasPriceResult} {t' : Transaction} {signed : SignedTransaction}
  {sent : TransactionSentWithRelayer}

/-- A competitor carries a price before it is sent, so that no expiry changes its type. -/
theorem competitor_type (h : l.requested e = some (env, original, competitor))
    (hsend : prepareSend l.queue.toSendConfig env.send competitor = (t', .ok (signed, sent))) :
    signed.transaction.fees.isBlob = competitor.isBlobTransaction ∧
      signed.transaction.fees.isLegacy =
        (l.queue.toSendConfig.isLegacyTransactions && !competitor.isBlobTransaction) := by
  obtain ⟨gas, -, hprice, -⟩ := requested_price h
  obtain ⟨hblob, hlegacy⟩ := prepareSend_type hsend
  rw [hblob, hlegacy]
  by_cases hcompetitor : competitor.isBlobTransaction = true
  · have hkept : convertsToNoop env.send competitor = false := by
      simp [convertsToNoop, Transaction.isConvertible, Transaction.isSentBlob, hprice, hcompetitor]
    simp [hcompetitor, hkept]
  · simp [hcompetitor]

theorem competitor_outbids_gas (h : l.requested e = some (env, original, competitor))
    (hgas : original.sentWithGas = some gas) (hfee : gas.maxFee ≤ maxU128)
    (hpriority : gas.maxPriorityFee ≤ maxU128)
    (hsend : prepareSend l.queue.toSendConfig env.send competitor = (t', .ok (signed, sent))) :
    (gas.maxFee < signed.transaction.fees.maxFee ∧
      gas.maxPriorityFee < signed.transaction.fees.maxPriorityFee) ↔
        l.LeavesGasRoom env gas competitor.isBlobTransaction := by
  obtain ⟨gas', hgas', hprice, hspeed, -⟩ := requested_price h
  rw [hgas] at hgas'
  cases hgas'
  obtain ⟨working, gasLimit, request, blobGas, hprepared⟩ := prepareSend_ok hsend
  have hcomputed := priceAndLimit_price hprepared.priced
  rw [hspeed, hprice] at hcomputed
  have hoffers := offers_of_pays hprepared.pays
  rcases hsuper : env.send.gasOracle .super with _ | superPrice
  · unfold computeGasPriceForTransaction at hcomputed
    rw [hsuper] at hcomputed
    cases hcomputed
  have hroom := lt_superPrice_iff hsuper hcomputed
  obtain ⟨hraisedFee, hraisedPriority⟩ := raiseAbove_strict (competitorGas gas) superPrice
  have habove : gas.maxFee < (raiseAbove (competitorGas gas) superPrice).maxFee :=
    (le_bumpForSameNonceCompetitor hfee).trans_lt hraisedFee
  have habovePriority :
      gas.maxPriorityFee < (raiseAbove (competitorGas gas) superPrice).maxPriorityFee :=
    (le_bumpForSameNonceCompetitor hpriority).trans_lt hraisedPriority
  have hdynamic : signed.transaction.fees.isLegacy = false ↔
      l.queue.toSendConfig.isLegacyTransactions = false ∨ competitor.isBlobTransaction = true := by
    rw [(competitor_type h hsend).2]
    cases l.queue.toSendConfig.isLegacyTransactions <;> simp
  rw [hoffers.maxFee, hoffers.maxPriorityFee, (hroom gas.maxFee).1]
  unfold LeavesGasRoom
  rw [hsuper]
  simp only [Option.mem_some_iff, forall_eq', ← hdynamic]
  by_cases hlegacy : signed.transaction.fees.isLegacy = true
  · rw [if_pos hlegacy, (hroom gas.maxPriorityFee).1]
    simp only [hlegacy, Bool.true_eq_false, false_imp_iff, and_true]
    tauto
  · rw [if_neg hlegacy, (hroom gas.maxPriorityFee).2, (hroom gas.maxPriorityFee).1]
    have hlegacy : signed.transaction.fees.isLegacy = false := by simpa using hlegacy
    simp only [hlegacy, forall_const]
    tauto

theorem competitor_outbids_blob (h : l.requested e = some (env, original, competitor))
    (hsend : prepareSend l.queue.toSendConfig env.send competitor = (t', .ok (signed, sent)))
    (blobGas : BlobGasPriceResult) :
    (∀ price ∈ signed.transaction.fees.maxFeePerBlobGas, blobGas.blobGasPrice < price) ↔
      (competitor.isBlobTransaction = true → l.LeavesBlobRoom env blobGas) := by
  obtain ⟨-, -, -, hspeed, hblobPrice⟩ := requested_price h
  have htype := (competitor_type h hsend).1
  by_cases hblob : competitor.isBlobTransaction = true
  · obtain ⟨superPrice, hsuper, hlast⟩ := hblobPrice hblob
    obtain ⟨computed, hcomputed, hfee⟩ := prepareSend_blobFee hsend (htype.trans hblob)
    rw [hspeed, hlast] at hcomputed
    have hroom := lt_superBlobPrice_iff hsuper hcomputed blobGas.blobGasPrice
    unfold LeavesBlobRoom
    rw [hfee, hsuper]
    simp only [Option.mem_some_iff, forall_eq', hblob, forall_const]
    exact hroom
  · have hnone : signed.transaction.fees.maxFeePerBlobGas = none := by
      unfold TxFees.maxFeePerBlobGas
      unfold TxFees.isBlob at htype
      split
      · rename_i hfees
        rw [hfees] at htype
        exact absurd htype.symm hblob
      · rfl
    rw [hnone]
    simp [hblob]

/-- A competitor outbids its original exactly when the recorded fees leave it room. -/
theorem competitor_outbids (h : l.requested e = some (env, original, competitor))
    (hgas : original.sentWithGas = some gas) (hfee : gas.maxFee ≤ maxU128)
    (hpriority : gas.maxPriorityFee ≤ maxU128)
    (hsend : prepareSend l.queue.toSendConfig env.send competitor = (t', .ok (signed, sent))) :
    signed.Outbids original ↔ l.LeavesRoom env original competitor := by
  have hgasRoom := competitor_outbids_gas h hgas hfee hpriority hsend
  have hblobRoom := competitor_outbids_blob h hsend
  constructor
  · rintro ⟨hmax, hprio, hblob⟩
    constructor
    · intro gas' hgas'
      rw [hgas] at hgas'
      cases hgas'
      exact hgasRoom.mp ⟨hmax gas hgas, hprio gas hgas⟩
    · intro horiginal hcompetitor blobGas hblobGas
      exact (hblobRoom blobGas).mp (hblob horiginal blobGas hblobGas) hcompetitor
  · rintro ⟨hroom, hblob⟩
    obtain ⟨hmax, hprio⟩ := hgasRoom.mpr (hroom gas hgas)
    constructor
    · intro gas' hgas'
      rw [hgas] at hgas'
      cases hgas'
      exact hmax
    · intro gas' hgas'
      rw [hgas] at hgas'
      cases hgas'
      exact hprio
    · intro horiginal blobGas hblobGas
      exact (hblobRoom blobGas).mpr fun hcompetitor =>
        hblob horiginal hcompetitor blobGas hblobGas

end Priced

end Locked

namespace TransactionsQueues

variable {s : TransactionsQueues} {e : Event} {l : Locked} {env : CompeteEnv}
  {original competitor : Transaction} {signed : SignedTransaction}

/-- A cancel or replace that broadcasts a competitor outbids the original exactly when its recorded
fees leave the competitor room under the caps and, between blob transactions, its blob price lies
under the bumped SUPER price. -/
theorem competitor_outbids_iff (hlock : s.lock = some l)
    (h : l.requested e = some (env, original, competitor))
    (hrange : ∀ gas ∈ original.sentWithGas, gas.maxFee ≤ maxU128 ∧ gas.maxPriorityFee ≤ maxU128)
    (hsent : (s.step e).broadcasts = s.broadcasts ++ [(competitor.id, signed)]) :
    signed.Outbids original ↔ l.LeavesRoom env original competitor := by
  rcases step_broadcasts s e with hsame | ⟨l', hl', sendEnv, t, t', signed', sent, hsends, hprepare,
    hnew⟩
  · rw [hsame] at hsent
    simp at hsent
  · rw [hlock] at hl'
    cases hl'
    have hcopy : l.sendsFrom e = some (env.send, competitor) := by
      rcases l.requested_cases h with ⟨id, rfl, -⟩ | ⟨request, id, rfl, -⟩
      · simp [Locked.sendsFrom, h]
      · simp [Locked.sendsFrom, h]
    rw [hcopy] at hsends
    cases hsends
    rw [hsent] at hnew
    have hsigned : signed = signed' := by simpa using hnew
    obtain ⟨gas, hgas, -⟩ := Locked.requested_price h
    obtain ⟨hfee, hpriority⟩ := hrange gas hgas
    rw [hsigned]
    exact Locked.competitor_outbids h hgas hfee hpriority hprepare

def cancelSent : Event := .cancel (servedCompete 1 (.ok ()) (servedClient [] 0)) 0

theorem competitor_outbids_iff_cancelled : ∃ (l : Locked) (env : CompeteEnv)
    (original competitor : Transaction) (signed : SignedTransaction),
      l.requested cancelSent = some (env, original, competitor) ∧
        (signed.Outbids original ↔ l.LeavesRoom env original competitor) := by
  let s := freshRelayer.run (sentAtPrice ⟨1, 10, none, none⟩)
  have hserved : (s.lock.bind (·.requested cancelSent)).isSome = true := by decide +kernel
  have hrange : ∀ r ∈ s.lock.bind (·.requested cancelSent), ∀ gas ∈ r.2.1.sentWithGas,
      gas.maxFee ≤ maxU128 ∧ gas.maxPriorityFee ≤ maxU128 := by decide +kernel
  have hsent : ∀ r ∈ s.lock.bind (·.requested cancelSent), (s.step cancelSent).broadcasts =
      s.broadcasts ++ [(r.2.2.id, ⟨⟨1, 0, 21000, 7, 0, [], .eip1559 4 40⟩, 0⟩)] := by decide +kernel
  obtain ⟨⟨env, original, competitor⟩, hr⟩ := Option.isSome_iff_exists.mp hserved
  obtain ⟨l, hlock, hrequested⟩ := Option.bind_eq_some_iff.mp hr
  exact ⟨l, env, original, competitor, _, hrequested,
    competitor_outbids_iff hlock hrequested (hrange _ hr) (hsent _ hr)⟩

/-- The price fell after the payment was sent, and the cap with it. -/
theorem competitor_outbids_fails : ¬ ∀ es e, ∀ l ∈ (freshRelayer.run es).lock,
    ∀ r ∈ l.requested e,
      ∀ b ∈ (freshRelayer.run (es ++ [e])).broadcasts.drop (freshRelayer.run es).broadcasts.length,
        b.1 = r.2.2.id → b.2.Outbids r.2.1 := by
  intro houtbids
  have hcancelled := houtbids (sentAtPrice ⟨50, 1000, none, none⟩) cancelSent
  revert hcancelled
  decide +kernel

end TransactionsQueues

end Rrelayer
