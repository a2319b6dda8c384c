import Rrelayer.MinedPasses
import Rrelayer.AttemptFees

/-! Elapsed times, signed when they are measured and unsigned when they are compared. -/
namespace Rrelayer

/-- The unsigned comparison of an elapsed time is right: a negative time does not come out above
the wrapped threshold, and no other time lies between the wrapped threshold and the true one. -/
def TimeRight (elapsed : ℤ) (threshold : ℕ) : Prop :=
  if elapsed < 0 then 2 ^ 64 + elapsed ≤ threshold % 2 ^ 64
  else elapsed ≤ threshold % 2 ^ 64 ∨ threshold < elapsed

instance (elapsed : ℤ) (threshold : ℕ) : Decidable (TimeRight elapsed threshold) := by
  unfold TimeRight
  infer_instance

/-- The milliseconds that a difference of two timestamps can have. -/
def MillisecondRange (elapsed : ℤ) : Prop := -2 ^ 63 ≤ elapsed ∧ elapsed < 2 ^ 63

instance (elapsed : ℤ) : Decidable (MillisecondRange elapsed) :=
  inferInstanceAs (Decidable (_ ∧ _))

theorem asU64_of_nonneg {elapsed : ℤ} (hlow : 0 ≤ elapsed) (hhigh : elapsed < 2 ^ 63) :
    (TransactionsQueue.asU64 elapsed : ℤ) = elapsed := by
  unfold TransactionsQueue.asU64
  omega

theorem asU64_of_neg {elapsed : ℤ} (hlow : -2 ^ 63 ≤ elapsed) (hhigh : elapsed < 0) :
    (TransactionsQueue.asU64 elapsed : ℤ) = 2 ^ 64 + elapsed := by
  unfold TransactionsQueue.asU64
  omega

/-- What passes the unsigned comparison is above the threshold exactly on the right times. -/
theorem exceeds_iff {elapsed : ℤ} {threshold : ℕ} (hrange : MillisecondRange elapsed) :
    (TransactionsQueue.asU64 elapsed > threshold % 2 ^ 64 → (threshold : ℤ) < elapsed) ↔
      TimeRight elapsed threshold := by
  obtain ⟨hlow, hhigh⟩ := hrange
  unfold TimeRight
  by_cases hneg : elapsed < 0
  · have hwraps := asU64_of_neg hlow hneg
    rw [if_pos hneg]
    omega
  · have hsame := asU64_of_nonneg (by omega) hhigh
    rw [if_neg hneg]
    omega

/-- A time that is not later than now is right under any threshold of 64 bits. -/
theorem timeRight_of_past {elapsed : ℤ} {threshold : ℕ} (hpast : 0 ≤ elapsed)
    (hthreshold : threshold < 2 ^ 64) : TimeRight elapsed threshold := by
  unfold TimeRight
  rw [if_neg (by omega)]
  omega

/-- A time later than now is wrong under every threshold below half of 64 bits. -/
theorem not_timeRight_of_future {elapsed : ℤ} {threshold : ℕ} (hlow : -2 ^ 63 ≤ elapsed)
    (hfuture : elapsed < 0) (hthreshold : threshold < 2 ^ 63) : ¬ TimeRight elapsed threshold := by
  unfold TimeRight
  rw [if_pos hfuture]
  omega

namespace Locked

variable (l : Locked)

/-- The blocks an entry of the speed waits before a bump, in milliseconds. -/
def bumpThreshold (t : Transaction) : ℕ :=
  l.queue.blocksEvery * l.queue.gasBumpConfig.blocksToWaitBeforeBump t.speed

def confirmationThreshold : ℕ := l.queue.blocksEvery * l.queue.confirmations

/-- Everything but the elapsed time lets the pass bump the transaction. -/
structure AwaitsBump (env : InmempoolEnv) (t : Transaction) : Prop where
  front : l.queue.getNextInmempoolTransaction = some t
  guard : env.guard = true
  polled : ∃ hash ∈ t.knownTransactionHash, env.pollReceipt hash = .ok none
  belowCap : l.atMaxGasCap env t = false

/-- The pass reaches its bump of the transaction. -/
def Bumps (env : InmempoolEnv) (t : Transaction) : Prop :=
  l.AwaitsBump env t ∧ ∃ sentAt ∈ t.sentAt,
    l.queue.shouldBumpGas (TransactionsQueue.asU64 (env.now - sentAt)) t.speed = true

/-- Everything but the elapsed time lets the pass confirm the transaction. -/
structure AwaitsConfirmation (env : MinedEnv) (t : Transaction) : Prop where
  picked : l.queue.getNextMinedTransaction env.pick = some t
  guard : env.guard = true
  write : env.write = true
  receipt : ∃ hash ∈ t.knownTransactionHash, ∃ receipt, env.getReceipt hash = .ok (some receipt)

variable {l} {env : InmempoolEnv} {t : Transaction}

theorem shouldBumpGas_iff {elapsed : ℕ} : l.queue.shouldBumpGas elapsed t.speed = true ↔
    elapsed > l.bumpThreshold t % 2 ^ 64 :=
  decide_eq_true_iff

theorem inConfirmedRange_iff {elapsed : ℕ} : l.queue.inConfirmedRange elapsed = true ↔
    elapsed > l.confirmationThreshold % 2 ^ 64 :=
  decide_eq_true_iff

/-- A bumping pass is the bump. -/
theorem Bumps.pass (h : l.Bumps env t) : l.processSingleInmempool env = l.bumpInmempool env t := by
  obtain ⟨⟨hfront, hguard, ⟨hash, hhash, hpoll⟩, hcap⟩, sentAt, hsent, hdue⟩ := h
  have hbump : l.bumpDue env t = true := by
    unfold bumpDue
    rw [hsent, hcap]
    simpa using hdue
  unfold processSingleInmempool
  rw [hfront]
  simp only [hguard, Bool.not_true, Bool.false_eq_true, if_false]
  rw [hhash]
  dsimp only
  rw [hpoll]
  simp only [hbump, if_true]

/-- Every other pass hands nothing to a node. -/
theorem broadcasts_of_not_bumps (h : ∀ t, ¬ l.Bumps env t) :
    (l.processSingleInmempool env).1.broadcasts = l.broadcasts := by
  unfold processSingleInmempool
  cases hfront : l.queue.getNextInmempoolTransaction with
  | none => rfl
  | some t =>
    dsimp only
    cases hguard : env.guard with
    | false => rfl
    | true =>
      simp only [Bool.not_true, Bool.false_eq_true, if_false]
      cases hhash : t.knownTransactionHash with
      | none => rfl
      | some hash =>
        dsimp only
        rcases hpoll : env.pollReceipt hash with e | _ | receipt
        · rfl
        · dsimp only
          split
          · rename_i hdue
            exfalso
            unfold bumpDue at hdue
            obtain ⟨sentAt, hsent, hdue⟩ := Option.any_eq_true _ _ |>.mp hdue
            simp only [Bool.and_eq_true, Bool.not_eq_true'] at hdue
            exact h t ⟨⟨hfront, hguard, ⟨hash, hhash, hpoll⟩, hdue.1⟩, sentAt, hsent, hdue.2⟩
          · rfl
        · exact resolveInmempool_broadcasts

/-- A pass that confirms what the map yields found it past its range. -/
theorem confirms_iff {env : MinedEnv} (hpick : l.queue.getNextMinedTransaction env.pick = some t) :
    l.ConfirmsOne env ↔ l.AwaitsConfirmation env t ∧ ∃ minedAt ∈ t.minedAt,
      l.queue.inConfirmedRange (TransactionsQueue.asU64 (env.now - minedAt)) = true := by
  rw [confirmsOne_iff, hpick]
  constructor
  · rintro ⟨hguard, hwrite, u, hu, hready⟩
    cases hu
    exact ⟨⟨hpick, hguard, hwrite, hready.receipt⟩, hready.elapsed⟩
  · rintro ⟨hawaits, helapsed⟩
    exact ⟨hawaits.guard, hawaits.write, t, rfl, helapsed, hawaits.receipt⟩

/-- Bumps and confirmations come only after enough time exactly when the elapsed times they
compare are right. -/
theorem bump_and_confirm_iff (l : Locked) (env : InmempoolEnv) (menv : MinedEnv)
    (hsent : ∀ t ∈ l.queue.getNextInmempoolTransaction, ∀ sentAt ∈ t.sentAt,
      MillisecondRange (env.now - sentAt))
    (hmined : ∀ t ∈ l.queue.getNextMinedTransaction menv.pick, ∀ minedAt ∈ t.minedAt,
      MillisecondRange (menv.now - minedAt)) :
    ((∀ t, l.Bumps env t → ∀ sentAt ∈ t.sentAt, (l.bumpThreshold t : ℤ) < env.now - sentAt) ↔
      ∀ t, l.AwaitsBump env t → ∀ sentAt ∈ t.sentAt,
        TimeRight (env.now - sentAt) (l.bumpThreshold t)) ∧
    ((∀ t ∈ l.queue.getNextMinedTransaction menv.pick, l.ConfirmsOne menv →
        ∀ minedAt ∈ t.minedAt, (l.confirmationThreshold : ℤ) < menv.now - minedAt) ↔
      ∀ t, l.AwaitsConfirmation menv t → ∀ minedAt ∈ t.minedAt,
        TimeRight (menv.now - minedAt) l.confirmationThreshold) := by
  constructor
  · constructor
    · intro hbumps t hawaits sentAt hat
      apply (exceeds_iff (hsent t hawaits.front sentAt hat)).mp
      intro hexceeds
      exact hbumps t ⟨hawaits, sentAt, hat, shouldBumpGas_iff.mpr hexceeds⟩ sentAt hat
    · rintro hright t ⟨hawaits, sentAt, hat, hdue⟩ sentAt' hat'
      cases hat.symm.trans hat'
      exact (exceeds_iff (hsent t hawaits.front sentAt hat)).mpr (hright t hawaits sentAt hat)
        (shouldBumpGas_iff.mp hdue)
  · constructor
    · intro hconfirms t hawaits minedAt hat
      apply (exceeds_iff (hmined t hawaits.picked minedAt hat)).mp
      intro hexceeds
      exact hconfirms t hawaits.picked ((confirms_iff hawaits.picked).mpr
        ⟨hawaits, minedAt, hat, inConfirmedRange_iff.mpr hexceeds⟩) minedAt hat
    · intro hright t hpick hconfirms minedAt hat
      obtain ⟨hawaits, minedAt', hat', hrange⟩ := (confirms_iff hpick).mp hconfirms
      cases hat.symm.trans hat'
      exact (exceeds_iff (hmined t hpick minedAt hat)).mpr (hright t hawaits minedAt hat)
        (inConfirmedRange_iff.mp hrange)

end Locked

namespace TransactionsQueues

/-- One payment mined, the other still in the mempool. -/
def minedOnce : List Event := minedTwice.take 5

/-- A pass a second before the mined payment's own time. -/
def earlyPass : MinedEnv := { secondFirst with pick := 0, now := -1000 }

theorem bump_and_confirm_early : ∃ l, (freshRelayer.run minedOnce).lock = some l ∧
    ((∀ t, l.Bumps (minedPoll 5) t → ∀ sentAt ∈ t.sentAt,
        (l.bumpThreshold t : ℤ) < (minedPoll 5).now - sentAt) ↔
      ∀ t, l.AwaitsBump (minedPoll 5) t → ∀ sentAt ∈ t.sentAt,
        TimeRight ((minedPoll 5).now - sentAt) (l.bumpThreshold t)) ∧
    ((∀ t ∈ l.queue.getNextMinedTransaction earlyPass.pick, l.ConfirmsOne earlyPass →
        ∀ minedAt ∈ t.minedAt, (l.confirmationThreshold : ℤ) < earlyPass.now - minedAt) ↔
      ∀ t, l.AwaitsConfirmation earlyPass t → ∀ minedAt ∈ t.minedAt,
        TimeRight (earlyPass.now - minedAt) l.confirmationThreshold) := by
  have hsome : (freshRelayer.run minedOnce).lock.isSome = true := by decide +kernel
  have hranges : ∀ l ∈ (freshRelayer.run minedOnce).lock,
      (∀ t ∈ l.queue.getNextInmempoolTransaction, ∀ sentAt ∈ t.sentAt,
        MillisecondRange ((minedPoll 5).now - sentAt)) ∧
      ∀ t ∈ l.queue.getNextMinedTransaction earlyPass.pick, ∀ minedAt ∈ t.minedAt,
        MillisecondRange (earlyPass.now - minedAt) := by
    decide +kernel
  obtain ⟨l, hlock⟩ := Option.isSome_iff_exists.mp hsome
  obtain ⟨hsent, hmined⟩ := hranges l hlock
  exact ⟨l, hlock, Locked.bump_and_confirm_iff l (minedPoll 5) earlyPass hsent hmined⟩

/-- A payment mined a second from now is confirmed at once. -/
theorem bump_and_confirm_fails : ¬ ∀ es env menv, ∀ l ∈ (freshRelayer.run es).lock,
    (∀ t, l.Bumps env t → ∀ sentAt ∈ t.sentAt, (l.bumpThreshold t : ℤ) < env.now - sentAt) ∧
      ∀ t ∈ l.queue.getNextMinedTransaction menv.pick, l.ConfirmsOne menv →
        ∀ minedAt ∈ t.minedAt, (l.confirmationThreshold : ℤ) < menv.now - minedAt := by
  intro hpasses
  have hpayments : ((freshRelayer.run minedOnce).lock.bind fun l =>
      (l.queue.getNextMinedTransaction earlyPass.pick).map fun t =>
        (t.minedAt, l.confirmationThreshold, (l.processSingleMined earlyPass).2)) =
      some (some 0, 12000, .ok ⟨.success, 10⟩) := by
    decide +kernel
  obtain ⟨l, hlock, hseen⟩ := Option.bind_eq_some_iff.mp hpayments
  obtain ⟨t, hpick, hseen⟩ := Option.map_eq_some_iff.mp hseen
  obtain ⟨hat, hseen⟩ := Prod.mk.inj hseen
  obtain ⟨hthreshold, hanswer⟩ := Prod.mk.inj hseen
  have hconfirms : l.ConfirmsOne earlyPass := by
    by_contra hstarved
    rw [Locked.confirmsOne_iff] at hstarved
    exact (Locked.processSingleMined_starved hstarved).2 hanswer
  have hlate := (hpasses minedOnce (minedPoll 5) earlyPass l hlock).2 t hpick hconfirms 0 hat
  rw [hthreshold] at hlate
  revert hlate
  decide

end TransactionsQueues
end Rrelayer
