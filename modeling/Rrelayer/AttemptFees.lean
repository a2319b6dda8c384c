import Rrelayer.SignedPayloads
import Rrelayer.TrackedRuns

/-! The fees of a transaction's attempts at one nonce, in the order they are handed out. -/
namespace Rrelayer

namespace TxFees

/-- The most a node can charge for a unit of gas. -/
def maxFee : TxFees → ℕ
  | .legacy gasPrice => gasPrice
  | .eip1559 _ maxFeePerGas => maxFeePerGas
  | .eip4844 _ maxFeePerGas _ _ => maxFeePerGas

/-- The most a block's proposer can get; a legacy price is both at once. -/
def maxPriorityFee : TxFees → ℕ
  | .legacy gasPrice => gasPrice
  | .eip1559 maxPriorityFeePerGas _ => maxPriorityFeePerGas
  | .eip4844 maxPriorityFeePerGas _ _ _ => maxPriorityFeePerGas

def isLegacy : TxFees → Bool
  | .legacy _ => true
  | _ => false

def isBlob : TxFees → Bool
  | .eip4844 .. => true
  | _ => false

/-- The fees are those of the price. -/
def Offers : TxFees → GasPriceResult → Prop
  | .legacy gasPrice, gas => gasPrice = gas.legacyGasPrice
  | .eip1559 priority maxFee, gas => priority = gas.maxPriorityFee ∧ maxFee = gas.maxFee
  | .eip4844 priority maxFee _ _, gas => priority = gas.maxPriorityFee ∧ maxFee = gas.maxFee

instance (fees : TxFees) (gas : GasPriceResult) : Decidable (fees.Offers gas) := by
  unfold Offers
  split <;> infer_instance

theorem Offers.maxFee {fees : TxFees} {gas : GasPriceResult} (h : fees.Offers gas) :
    fees.maxFee = gas.maxFee := by
  cases fees with
  | legacy => exact h
  | eip1559 => exact h.2
  | eip4844 => exact h.2

theorem Offers.maxPriorityFee {fees : TxFees} {gas : GasPriceResult} (h : fees.Offers gas) :
    fees.maxPriorityFee = if fees.isLegacy then gas.maxFee else gas.maxPriorityFee := by
  cases fees with
  | legacy => exact h
  | eip1559 => exact h.1
  | eip4844 => exact h.1

end TxFees

/-- Both fees of the later attempt are at least those of the earlier one. -/
def SignedTransaction.CanReplace (later earlier : SignedTransaction) : Prop :=
  earlier.transaction.fees.maxFee ≤ later.transaction.fees.maxFee ∧
    earlier.transaction.fees.maxPriorityFee ≤ later.transaction.fees.maxPriorityFee

instance (later earlier : SignedTransaction) : Decidable (later.CanReplace earlier) := by
  unfold SignedTransaction.CanReplace
  infer_instance

theorem SignedTransaction.CanReplace.trans {a b c : SignedTransaction} (h : b.CanReplace a)
    (h' : c.CanReplace b) : c.CanReplace a :=
  ⟨h.1.trans h'.1, h.2.trans h'.2⟩

section Price

variable {multiplier : ℕ} {oracle : GasOracle} {speed : TransactionSpeed}
  {sent gas : GasPriceResult}

/-- The cap at the multiple of the SUPER price is not below the price. -/
def CapAllows (multiplier : ℕ) (oracle : GasOracle) (gas : GasPriceResult) : Prop :=
  ∀ superPrice ∈ oracle .super,
    (0 < superPrice.maxFee * multiplier → gas.maxFee ≤ superPrice.maxFee * multiplier) ∧
    (0 < superPrice.maxPriorityFee * multiplier →
      gas.maxPriorityFee ≤ superPrice.maxPriorityFee * multiplier)

instance : Decidable (CapAllows multiplier oracle gas) := by
  unfold CapAllows
  infer_instance

theorem le_bumpByAtLeastOne (value : ℕ) : value ≤ bumpByAtLeastOne value :=
  Nat.le_add_right ..

theorem raiseAbove_floor (sent gas : GasPriceResult) :
    sent.maxFee ≤ (raiseAbove sent gas).maxFee ∧
      sent.maxPriorityFee ≤ (raiseAbove sent gas).maxPriorityFee := by
  unfold raiseAbove
  constructor
  · dsimp only
    split
    · exact le_bumpByAtLeastOne _
    · omega
  · dsimp only
    split
    · exact le_bumpByAtLeastOne _
    · omega

theorem capAt_floor {cap value floor : ℕ} (hvalue : floor ≤ value)
    (hcap : 0 < cap → floor ≤ cap) : floor ≤ capAt cap value := by
  unfold capAt
  split
  · rename_i hcapped
    exact hcap hcapped.1
  · exact hvalue

theorem capAtSuper_floor (hcap : CapAllows multiplier oracle sent)
    (hfee : sent.maxFee ≤ gas.maxFee) (hpriority : sent.maxPriorityFee ≤ gas.maxPriorityFee) :
    sent.maxFee ≤ (capAtSuper multiplier oracle gas).maxFee ∧
      sent.maxPriorityFee ≤ (capAtSuper multiplier oracle gas).maxPriorityFee := by
  unfold capAtSuper
  split
  · exact ⟨hfee, hpriority⟩
  · rename_i superPrice hsuper
    obtain ⟨hcapFee, hcapPriority⟩ := hcap superPrice hsuper
    exact ⟨capAt_floor hfee hcapFee, capAt_floor hpriority hcapPriority⟩

/-- A price escalated over a previous one is not below it, unless the cap is. -/
theorem computeGasPrice_floor
    (h : computeGasPriceForTransaction multiplier oracle speed (some sent) = .ok gas)
    (hcap : CapAllows multiplier oracle sent) (hpriority : sent.maxPriorityFee ≤ sent.maxFee) :
    sent.maxFee ≤ gas.maxFee ∧ sent.maxPriorityFee ≤ gas.maxPriorityFee := by
  unfold computeGasPriceForTransaction at h
  split at h
  · cases h
  · rename_i price _
    obtain ⟨hraisedFee, hraisedPriority⟩ := raiseAbove_floor sent (escalate oracle speed sent price)
    obtain ⟨hcappedFee, hcappedPriority⟩ := capAtSuper_floor hcap hraisedFee hraisedPriority
    cases h
    unfold priorityWithinMax
    split
    · exact ⟨hcappedFee, hpriority.trans hcappedFee⟩
    · exact ⟨hcappedFee, hcappedPriority⟩

end Price

section Prepare

variable {config : SendConfig} {env : SendEnv} {t t' : Transaction} {signed : SignedTransaction}
  {sent : TransactionSentWithRelayer}

theorem priceAndLimit_price {gas : GasPriceResult} {working : Transaction} {gasLimit : GasLimit}
    (h : priceAndLimit config env t = .ok (gas, working, gasLimit)) :
    computeGasPriceForTransaction config.maxGasPriceMultiplier env.gasOracle t.speed
      t.sentWithGas = .ok gas := by
  unfold priceAndLimit at h
  obtain ⟨price, hprice, h⟩ := except_bind_ok h
  split at h
  · cases h
  · obtain ⟨_, _, h⟩ := except_bind_ok h
    obtain ⟨_, _, h⟩ := except_bind_ok h
    obtain ⟨_, _, h⟩ := except_bind_ok h
    cases h
    exact mapError_ok hprice

theorem routeThroughSafe_blobs {r : Bool × Transaction}
    (h : routeThroughSafe config env t = .ok r) : r.2.blobs = t.blobs := by
  unfold routeThroughSafe at h
  dsimp only at h
  split at h
  · cases h
    rfl
  · obtain ⟨_, _, h⟩ := except_bind_ok h
    obtain ⟨_, _, h⟩ := except_bind_ok h
    cases h
    rfl

/-- The signed fees are those of the recorded price. -/
theorem offers_of_pays {gas : GasPriceResult} {blobGas : Option BlobGasPriceResult}
    (h : signed.Pays gas blobGas) : signed.transaction.fees.Offers gas := by
  unfold SignedTransaction.Pays at h
  unfold TxFees.Offers
  split at h
  · rename_i hfees
    rw [hfees]
    exact h.1
  · rename_i hfees
    rw [hfees]
    exact ⟨h.1, h.2.1⟩
  · rename_i hfees
    rw [hfees]
    exact ⟨h.1, h.2.1⟩

/-- The envelope of a request carries the payload as it is, with the fees of its type. -/
theorem buildRequest_envelope {gasPrice : GasPriceResult} {gasLimit : GasLimit}
    {r : TypedTransaction × Option BlobGasPriceResult}
    (h : buildRequest config env t gasPrice gasLimit = .ok r) :
    r.1 = t.toEnvelope gasLimit r.1.fees ∧ r.1.fees.isBlob = t.isBlobTransaction ∧
      r.1.fees.isLegacy = (config.isLegacyTransactions && !t.isBlobTransaction) := by
  cases buildRequest_builds h with
  | eip4844 price hashes hblob =>
    rw [hblob]
    exact ⟨rfl, rfl, (Bool.and_false _).symm⟩
  | legacy hblob hlegacy =>
    rw [hblob, hlegacy]
    exact ⟨rfl, rfl, rfl⟩
  | eip1559 hblob hlegacy =>
    rw [hblob, hlegacy]
    exact ⟨rfl, rfl, rfl⟩

/-- A legacy relayer signs legacy fees for a payload without blobs, also for its no-op. -/
theorem prepareSend_legacy (h : prepareSend config env t = (t', .ok (signed, sent)))
    (hlegacy : config.isLegacyTransactions = true) (hblobs : t.isBlobTransaction = false) :
    signed.transaction.fees.isLegacy = true := by
  obtain ⟨working, gasLimit, request, blobGas, hpriced, hbuilt, hsigned⟩ := prepareSend_ok h
  rcases hsigned with ⟨hrequest, -⟩ | ⟨noop, -, -, hrequest, -⟩
  · obtain ⟨viaSafe, hroute⟩ := priceAndLimit_route hpriced
    obtain ⟨-, -, hbuiltLegacy⟩ := buildRequest_envelope hbuilt
    have hsame : ({ working with gasLimit := some gasLimit } : Transaction).isBlobTransaction =
        t.isBlobTransaction := congrArg Option.isSome (routeThroughSafe_blobs hroute)
    rw [hrequest, hbuiltLegacy, hsame, hlegacy, hblobs]
    rfl
  · rw [hrequest]
    unfold noopRequest
    rw [hlegacy]
    rfl

/-- A send from a copy that carries the price of the last attempt, under prices whose cap is not
below it, and in the same fee model. -/
structure Follows (config : SendConfig) (env : SendEnv) (t : Transaction)
    (last : SignedTransaction) (gas : GasPriceResult) : Prop where
  price : last.transaction.fees.Offers gas
  priority : gas.maxPriorityFee ≤ gas.maxFee
  cap : CapAllows config.maxGasPriceMultiplier env.gasOracle gas
  kind : last.transaction.fees.isLegacy = true →
    config.isLegacyTransactions = true ∧ t.isBlobTransaction = false

instance (config : SendConfig) (env : SendEnv) (t : Transaction) (last : SignedTransaction)
    (gas : GasPriceResult) : Decidable (Follows config env t last gas) :=
  decidable_of_iff (last.transaction.fees.Offers gas ∧ gas.maxPriorityFee ≤ gas.maxFee ∧
      CapAllows config.maxGasPriceMultiplier env.gasOracle gas ∧
      (last.transaction.fees.isLegacy = true →
        config.isLegacyTransactions = true ∧ t.isBlobTransaction = false))
    ⟨fun h => ⟨h.1, h.2.1, h.2.2.1, h.2.2.2⟩, fun h => ⟨h.price, h.priority, h.cap, h.kind⟩⟩

/-- Such a send signs an attempt that can replace the last one. -/
theorem Follows.canReplace {last : SignedTransaction} {gas : GasPriceResult}
    (h : Follows config env t last gas) (hgas : t.sentWithGas = some gas)
    (hprepare : prepareSend config env t = (t', .ok (signed, sent))) :
    signed.CanReplace last := by
  obtain ⟨hprice, hpriority, hcap, hkind⟩ := h
  obtain ⟨working, gasLimit, request, blobGas, hprepared⟩ := prepareSend_ok hprepare
  have hcomputed := priceAndLimit_price hprepared.priced
  rw [hgas] at hcomputed
  obtain ⟨hfee, hprio⟩ := computeGasPrice_floor hcomputed hcap hpriority
  have hoffers := offers_of_pays hprepared.pays
  have hlegacy : last.transaction.fees.isLegacy = true →
      signed.transaction.fees.isLegacy = true := by
    intro hlast
    obtain ⟨hconfig, hblobs⟩ := hkind hlast
    exact prepareSend_legacy hprepare hconfig hblobs
  unfold SignedTransaction.CanReplace
  generalize signed.transaction.fees = fees at hoffers hlegacy ⊢
  generalize last.transaction.fees = before at hprice hlegacy ⊢
  rw [hoffers.maxFee, hprice.maxFee, hoffers.maxPriorityFee, hprice.maxPriorityFee]
  refine ⟨hfee, ?_⟩
  by_cases hbefore : before.isLegacy = true
  · rw [if_pos hbefore, if_pos (hlegacy hbefore)]
    exact hfee
  · rw [if_neg hbefore]
    split
    · exact hpriority.trans hfee
    · exact hprio

end Prepare

namespace Locked

variable {l l' l₁ : Locked} {sends : Option (SendEnv × Transaction)}

/-- At most one attempt is handed out, prepared from the given copy. -/
def Hands (l : Locked) (sends : Option (SendEnv × Transaction)) (l' : Locked) : Prop :=
  l'.broadcasts = l.broadcasts ∨ ∃ env t t' signed sent, sends = some (env, t) ∧
    prepareSend l.queue.toSendConfig env t = (t', .ok (signed, sent)) ∧
      l'.broadcasts = l.broadcasts ++ [(t.id, signed)]

theorem Hands.refl (l : Locked) : l.Hands sends l := .inl rfl

theorem Hands.after (h : l.Hands sends l₁) (hsame : l'.broadcasts = l₁.broadcasts) :
    l.Hands sends l' := by
  unfold Hands
  rw [hsame]
  exact h

theorem send_hands (l : Locked) (env : SendEnv) (t : Transaction) :
    l.Hands (some (env, t)) (l.send env t).2.1 := by
  have hhanded {t' : Transaction} {signed : SignedTransaction} {sent : TransactionSentWithRelayer}
      {l' : Locked} (hp : prepareSend l.queue.toSendConfig env t = (t', .ok (signed, sent)))
      (hnew : l'.broadcasts = l.broadcasts ++ [(t'.id, signed)]) : l.Hands (some (env, t)) l' := by
    have hslot := (prepareSend_spec l.queue.toSendConfig env t).1
    rw [hp] at hslot
    refine .inr ⟨env, t, t', signed, sent, rfl, hp, ?_⟩
    rw [hnew, hslot.id]
  have hends := l.send_ends env t
  generalize l.send env t = o at hends ⊢
  cases hends with
  | unprepared | unrecorded => exact .inl rfl
  | refused hp | unmarked hp | marked hp => exact hhanded hp rfl

/-- The copy a step starts a send from, with the outside of that send. -/
def sendsFrom (l : Locked) : Event → Option (SendEnv × Transaction)
  | .processPending env => (l.pendingHead env).map fun t => (env.send, l.pendingCopy env t)
  | .processInmempool env => (l.polled env).bind fun (t, hash) =>
      match env.pollReceipt hash with
      | .ok none => if l.bumpDue env t then some (env.send, t) else none
      | _ => none
  | .cancel env id => (l.requested (.cancel env id)).map fun (env, _, t) => (env.send, t)
  | .replace env request id =>
      (l.requested (.replace env request id)).map fun (env, _, t) => (env.send, t)
  | _ => none

section Pending

variable {env : PendingEnv} {t : Transaction}

theorem moveSent_broadcasts {sent : TransactionSentWithRelayer}
    {result : ProcessResult ProcessPendingStatus} :
    (l.moveSent env t sent result).1.broadcasts = l.broadcasts := by
  unfold moveSent
  split
  · rfl
  · rfl

theorem pendingFailed_broadcasts {error : TransactionQueueSendTransactionError} :
    (l.pendingFailed env t error).1.broadcasts = l.broadcasts := by
  have hleaves := l.pendingFailed_leaves env t error
  generalize (l.pendingFailed env t error).1 = l' at hleaves ⊢
  cases hleaves with
  | kept | closedOut | reassigned => rfl
  | mined | recovered => exact moveSent_broadcasts

theorem processSinglePending_hands (l : Locked) (env : PendingEnv) :
    l.Hands (l.sendsFrom (.processPending env)) (l.processSinglePending env).1 := by
  dsimp only [sendsFrom]
  rcases hhead : l.pendingHead env with _ | t
  · have hheld : (l.processSinglePending env).1 = l := by
      unfold pendingHead at hhead
      unfold processSinglePending
      split
      · rfl
      · rename_i hpaused
        split
        · rfl
        · rename_i t hnext
          split
          · rfl
          · rename_i hguard
            simp [hpaused, hguard, hnext] at hhead
    rw [hheld]
    exact .refl l
  · rw [processSinglePending_head hhead]
    have hsend := l.send_hands env.send (l.pendingCopy env t)
    split
    · rename_i houtcome
      rw [houtcome] at hsend
      exact hsend.after moveSent_broadcasts
    · rename_i houtcome
      rw [houtcome] at hsend
      exact hsend.after pendingFailed_broadcasts

end Pending

section Inmempool

variable {env : InmempoolEnv} {t : Transaction}

theorem bumpFailed_broadcasts {error : TransactionQueueSendTransactionError} :
    (l.bumpFailed env t error).1.broadcasts = l.broadcasts := by
  have hleaves := l.bumpFailed_leaves env t error
  generalize (l.bumpFailed env t error).1 = l' at hleaves ⊢
  cases hleaves with
  | kept | reassigned => rfl

theorem resolveInmempool_broadcasts {receipt : Receipt} :
    (l.resolveInmempool env t receipt).1.broadcasts = l.broadcasts := by
  unfold resolveInmempool
  split
  · rfl
  · rename_i r q' hmove
    exact (saveResolution_frame { l with queue := q' } env receipt r (P := fun _ _ => True) trivial
      fun _ _ => trivial).2.1

theorem processSingleInmempool_hands (l : Locked) (env : InmempoolEnv) :
    l.Hands (l.sendsFrom (.processInmempool env)) (l.processSingleInmempool env).1 := by
  dsimp only [sendsFrom]
  rcases hpolled : l.polled env with _ | ⟨t, hash⟩
  · rw [processSingleInmempool_unpolled hpolled]
    exact .refl l
  rw [processSingleInmempool_polled hpolled]
  dsimp only [Option.bind_some]
  rcases env.pollReceipt hash with e | _ | receipt
  · exact .refl l
  · dsimp only
    by_cases hdue : l.bumpDue env t = true
    · rw [if_pos hdue, if_pos hdue]
      have hsend := l.send_hands env.send t
      unfold bumpInmempool
      split
      · rename_i houtcome
        rw [houtcome] at hsend
        exact hsend.after rfl
      · rename_i houtcome
        rw [houtcome] at hsend
        exact hsend.after bumpFailed_broadcasts
    · rw [if_neg hdue, if_neg hdue]
      exact .refl l
  · exact .inl resolveInmempool_broadcasts

end Inmempool

section Compete

variable {env : CompeteEnv} {original competitor : Transaction}

theorem sendCompetitor_hands {type : CompetitionType} :
    l.Hands (some (env.send, competitor)) (l.sendCompetitor env original competitor type).1 := by
  have hsend := l.send_hands env.send competitor
  unfold sendCompetitor
  split
  · rename_i houtcome
    rw [houtcome] at hsend
    split
    · split
      · exact hsend
      · exact hsend
    · exact hsend
  · rename_i houtcome
    rw [houtcome] at hsend
    exact hsend
  · rename_i houtcome
    rw [houtcome] at hsend
    dsimp only
    split
    · exact hsend
    · split
      · exact hsend.after rfl
      · exact hsend.after rfl

theorem rewritePending_broadcasts {u : Transaction} (h : l.rewritePending env u = some l') :
    l'.broadcasts = l.broadcasts := by
  unfold rewritePending at h
  split at h
  · cases h
    rfl
  · cases h

theorem cancelTransaction_hands (l : Locked) (env : CompeteEnv) (id : TransactionId) :
    l.Hands (l.sendsFrom (.cancel env id)) (l.cancelTransaction env id).1 := by
  have hsends : ∀ original competitor,
      l.requested (.cancel env id) = some (env, original, competitor) →
        l.sendsFrom (.cancel env id) = some (env.send, competitor) := by
    intro original competitor hrequested
    dsimp only [sendsFrom]
    rw [hrequested]
    rfl
  obtain hkept | ⟨t, -, hrewrite⟩ | ⟨original, competitor, hraced, hcompetitor, hsent⟩ :=
    l.cancelTransaction_cases env id
  · rw [hkept]
    exact .refl l
  · exact .inl (rewritePending_broadcasts hrewrite)
  · rw [hsent, hsends original competitor (requested_cancel hraced hcompetitor)]
    exact sendCompetitor_hands

theorem replaceTransaction_hands (l : Locked) (env : CompeteEnv)
    (request : RelayTransactionRequest) (id : TransactionId) :
    l.Hands (l.sendsFrom (.replace env request id)) (l.replaceTransaction env request id).1 := by
  have hsends : ∀ original competitor,
      l.requested (.replace env request id) = some (env, original, competitor) →
        l.sendsFrom (.replace env request id) = some (env.send, competitor) := by
    intro original competitor hrequested
    dsimp only [sendsFrom]
    rw [hrequested]
    rfl
  obtain hkept | ⟨t, blobs, -, hrewrite⟩ |
      ⟨original, competitor, hraced, hcompetitor, hsent⟩ := l.replaceTransaction_cases env request id
  · rw [hkept]
    exact .refl l
  · exact .inl (rewritePending_broadcasts hrewrite)
  · rw [hsent, hsends original competitor (requested_replace hraced hcompetitor)]
    exact sendCompetitor_hands

end Compete

end Locked

section Attempts

variable {bs : Broadcasts} {x : TransactionId} {n : ℕ}

/-- The attempts of a transaction at a nonce, in the order they were handed out. -/
def handedAt (bs : Broadcasts) (x : TransactionId) (n : ℕ) : Broadcasts :=
  bs.filter fun b => b.1 == x && b.2.nonce == n

/-- Each later attempt of a transaction at a nonce is the same payload or can replace the
earlier one. -/
def FeesNeverDecrease (bs : Broadcasts) : Prop :=
  bs.Pairwise fun b c => b.1 = c.1 → b.2.nonce = c.2.nonce → b.2 = c.2 ∨ c.2.CanReplace b.2

instance (bs : Broadcasts) : Decidable (FeesNeverDecrease bs) := by
  unfold FeesNeverDecrease
  infer_instance

theorem mem_handedAt {b : TransactionId × SignedTransaction} :
    b ∈ handedAt bs x n ↔ b ∈ bs ∧ b.1 = x ∧ b.2.nonce = n := by
  unfold handedAt
  simp

/-- The last attempt has fees no lower than those of any other. -/
theorem FeesNeverDecrease.last (h : FeesNeverDecrease bs) {last : TransactionId × SignedTransaction}
    (hlast : (handedAt bs x n).getLast? = some last) : ∀ b ∈ bs, b.1 = x → b.2.nonce = n →
      last.2.CanReplace b.2 := by
  intro b hb hid hnonce
  have hattempt : b ∈ handedAt bs x n := mem_handedAt.mpr ⟨hb, hid, hnonce⟩
  obtain ⟨before, hsplit⟩ := List.getLast?_eq_some_iff.mp hlast
  have hpairs : (handedAt bs x n).Pairwise fun b c =>
      b.1 = c.1 → b.2.nonce = c.2.nonce → b.2 = c.2 ∨ c.2.CanReplace b.2 :=
    List.Pairwise.sublist List.filter_sublist h
  have hlastMem : last ∈ handedAt bs x n := by
    rw [hsplit]
    exact List.mem_append_right _ (List.mem_singleton_self _)
  obtain ⟨-, hlastId, hlastNonce⟩ := mem_handedAt.mp hlastMem
  rw [hsplit] at hattempt hpairs
  rcases List.mem_append.mp hattempt with hbefore | hsame
  · have hpair := (List.pairwise_append.mp hpairs).2.2 b hbefore last (List.mem_singleton_self _)
    rcases hpair (hid.trans hlastId.symm) (hnonce.trans hlastNonce.symm) with heq | hreplace
    · rw [heq]
      exact ⟨Nat.le_refl _, Nat.le_refl _⟩
    · exact hreplace
  · rw [List.mem_singleton.mp hsame]
    exact ⟨Nat.le_refl _, Nat.le_refl _⟩

/-- An attempt that can replace the last one at its nonce keeps the fees from decreasing. -/
theorem FeesNeverDecrease.append (h : FeesNeverDecrease bs) {signed : SignedTransaction}
    (hlast : ∀ last ∈ (handedAt bs x signed.nonce).getLast?, signed.CanReplace last.2) :
    FeesNeverDecrease (bs ++ [(x, signed)]) := by
  unfold FeesNeverDecrease
  rw [List.pairwise_append]
  refine ⟨h, List.pairwise_singleton _ _, ?_⟩
  intro b hb c hc hid hnonce
  rw [List.mem_singleton.mp hc] at hid hnonce ⊢
  right
  rcases hfound : (handedAt bs x signed.nonce).getLast? with _ | last
  · have hnone := List.getLast?_eq_none_iff.mp hfound
    have hattempt : b ∈ handedAt bs x signed.nonce := mem_handedAt.mpr ⟨hb, hid, hnonce⟩
    rw [hnone] at hattempt
    cases hattempt
  · exact (h.last hfound b hb hid hnonce).trans (hlast last hfound)

/-- The copy shows the price of the last attempt of the transaction at its nonce. -/
def Transaction.ShowsLast (t : Transaction) (bs : Broadcasts) : Prop :=
  ∀ last ∈ (handedAt bs t.id t.nonce).getLast?, ∃ gas ∈ t.sentWithGas,
    last.2.transaction.fees.Offers gas

/-- A send that succeeds leaves its record as the price of the last attempt: a copy that takes it
over, as the moved head and the bumped entry do, shows it. -/
theorem send_showsLast {l l' : Locked} {env : SendEnv} {t t' u : Transaction}
    {sent : TransactionSentWithRelayer} (h : l.send env t = (t', l', .ok sent)) (hid : u.id = t.id)
    (hnonce : u.nonce = t.nonce) (now : DateTime) :
    (u.exposeAttempt sent now).ShowsLast l'.broadcasts := by
  have hends := l.send_ends env t
  rw [h] at hends
  cases hends with
  | @marked t₁ signed _ db hp =>
    have hprepare := prepareSend_spec l.queue.toSendConfig env t
    rw [hp] at hprepare
    obtain ⟨hslot, hsigned⟩ := hprepare
    have hfor := hsigned signed sent rfl
    obtain ⟨working, gasLimit, request, blobGas, hprepared⟩ := prepareSend_ok hp
    have hoffers := offers_of_pays hprepared.pays
    intro last hlast
    have hsameId : t₁.id = u.id := hslot.id.trans hid.symm
    have hsameNonce : signed.nonce = u.nonce := hfor.nonce.trans hnonce.symm
    have hnew : [(t₁.id, signed)].filter (fun b => b.1 == u.id && b.2.nonce == u.nonce) =
        [(t₁.id, signed)] := by
      simp [hsameId, hsameNonce]
    have hlast : (handedAt (l.broadcasts ++ [(t₁.id, signed)]) u.id u.nonce).getLast? =
        some last := hlast
    unfold handedAt at hlast
    rw [List.filter_append, hnew, List.getLast?_concat] at hlast
    cases hlast
    exact ⟨sent.sentWithGas, rfl, hoffers⟩

end Attempts

namespace TransactionsQueues

section Runs

variable {s : TransactionsQueues} {e : Event}

/-- A send of a transaction that has attempts at its nonce starts from a copy with the price of the
last of them, at prices whose cap is not below it. -/
def KeepsFees (s : TransactionsQueues) (e : Event) : Prop :=
  ∀ l ∈ s.lock, ∀ p ∈ l.sendsFrom e, ∀ last ∈ (handedAt s.broadcasts p.2.id p.2.nonce).getLast?,
    ∃ gas ∈ p.2.sentWithGas, Follows l.queue.toSendConfig p.1 p.2 last.2 gas

instance (s : TransactionsQueues) (e : Event) : Decidable (s.KeepsFees e) := by
  unfold KeepsFees
  infer_instance

/-- What a step hands out: nothing, or one attempt prepared from the copy its send starts from. -/
theorem step_broadcasts (s : TransactionsQueues) (e : Event) :
    (s.step e).broadcasts = s.broadcasts ∨ ∃ l ∈ s.lock, ∃ env t t' signed sent,
      l.sendsFrom e = some (env, t) ∧
        prepareSend l.queue.toSendConfig env t = (t', .ok (signed, sent)) ∧
          (s.step e).broadcasts = s.broadcasts ++ [(t.id, signed)] := by
  have hlocked {ρ : Type} {operation : Locked → Locked × ρ} (hstep : s.step e = s.locked operation)
      (hhands : ∀ l : Locked, l.Hands (l.sendsFrom e) (operation l).1) :
      (s.step e).broadcasts = s.broadcasts ∨ ∃ l ∈ s.lock, ∃ env t t' signed sent,
        l.sendsFrom e = some (env, t) ∧
          prepareSend l.queue.toSendConfig env t = (t', .ok (signed, sent)) ∧
            (s.step e).broadcasts = s.broadcasts ++ [(t.id, signed)] := by
    rw [hstep]
    rcases hlock : s.lock with _ | l
    · rw [locked_of_none operation hlock]
      exact .inl rfl
    · rw [locked_of_some operation hlock]
      obtain ⟨-, -, hbroadcasts⟩ := lock_some hlock
      rcases hhands l with hsame | ⟨env, t, t', signed, sent, hsends, hprepare, hnew⟩
      · exact .inl (hsame.trans hbroadcasts)
      · rw [hbroadcasts] at hnew
        exact .inr ⟨l, rfl, env, t, t', signed, sent, hsends, hprepare, hnew⟩
  -- An event without a sending part signs nothing.
  have hsilent (hsend : e.sendEnv = none) : (s.step e).broadcasts = s.broadcasts := by
    obtain ⟨new, hnew, hall⟩ := (step_history s e).broadcasts
    have hempty : new = [] := by
      apply List.eq_nil_iff_forall_not_mem.mpr
      intro b hb
      obtain ⟨t, sent, -, hsigns, -⟩ := hall b hb
      unfold writer at hsigns
      rcases hlock : s.lock with _ | l
      · rw [hlock] at hsigns
        exact hsigns
      · rw [hlock] at hsigns
        obtain ⟨env, henv, -⟩ := hsigns
        rw [hsend] at henv
        cases henv
    rw [hempty, List.append_nil] at hnew
    exact hnew
  cases e with
  | add env toSend => exact .inl (hsilent rfl)
  | cancel env id => exact hlocked rfl fun l => l.cancelTransaction_hands env id
  | replace env request id => exact hlocked rfl fun l => l.replaceTransaction_hands env request id
  | processPending env => exact hlocked rfl fun l => l.processSinglePending_hands env
  | processInmempool env => exact hlocked rfl fun l => l.processSingleInmempool_hands env
  | processMined env => exact .inl (hsilent rfl)
  | restart env => exact .inl (hsilent rfl)
  | included signed => exact .inl (hsilent rfl)

theorem fees_step (h : FeesNeverDecrease s.broadcasts) (hkeeps : s.KeepsFees e) :
    FeesNeverDecrease (s.step e).broadcasts := by
  rcases step_broadcasts s e with hsame | ⟨l, hl, env, t, t', signed, sent, hsends, hprepare, hnew⟩
  · rw [hsame]
    exact h
  · rw [hnew]
    apply h.append
    intro last hlast
    have hspec := prepareSend_spec l.queue.toSendConfig env t
    rw [hprepare] at hspec
    have hnonce : signed.nonce = t.nonce := (hspec.2 signed sent rfl).nonce
    rw [hnonce] at hlast
    obtain ⟨gas, hgas, hfollows⟩ := hkeeps l hl (env, t) hsends last hlast
    exact hfollows.canReplace hgas hprepare

/-- In a run in which every send of an already attempted transaction starts from a copy with the
price of the last attempt, the fees of its attempts at a nonce never decrease. -/
theorem fees_never_decrease {es : List Event} (hs : s.Blank)
    (h : EventMachine.Along step KeepsFees s es) : FeesNeverDecrease (s.run es).broadcasts := by
  apply h.invariant (P := fun s => FeesNeverDecrease s.broadcasts)
  · intro s' e hkeeps hfees
    exact fees_step hfees hkeeps
  · show FeesNeverDecrease s.broadcasts
    rw [hs.broadcasts]
    exact List.Pairwise.nil

end Runs

/-- A payment is sent, and bumped while it waits. -/
def paymentBumped : List Event :=
  sentAtPrice ⟨1, 10, none, none⟩ ++
    [.processInmempool (servedInmempool [] (.ok ()) (servedClient [] 0) [])]

theorem fees_never_decrease_bumped :
    FeesNeverDecrease (freshRelayer.run paymentBumped).broadcasts :=
  fees_never_decrease freshRelayer_blank (by decide +kernel)

example : (freshRelayer.run paymentBumped).broadcasts.map (·.2.transaction.fees) =
    [.eip1559 1 10, .eip1559 2 11] := by decide +kernel

/-- A pending pass at the given price. -/
def pendingPriced (gas : GasPriceResult) (broadcast : Except String Unit) : Event :=
  .processPending { servedPending broadcast (servedClient [] 0) [] with
    send := { servedSend broadcast with gasOracle := fun _ => some gas } }

/-- The first send is ambiguous; the second one starts without its price, when gas is cheaper. -/
def cheaperRetry : List Event :=
  [.add (servedAdd 0) (payment 0 5),
    pendingPriced ⟨20, 1000, none, none⟩ (.error "connection reset"),
    pendingPriced ⟨1, 10, none, none⟩ (.ok ())]

theorem fees_never_decrease_fails :
    ¬ ∀ es, FeesNeverDecrease (freshRelayer.run es).broadcasts := by
  intro hfees
  have hretry := hfees cheaperRetry
  revert hretry
  decide +kernel

end TransactionsQueues
end Rrelayer
