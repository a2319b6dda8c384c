import Rrelayer.GasPrice
import Mathlib.Tactic.Common

/-! The fees of a chain that no fee service covers: four tiers scaled off one pair of fees, which
comes from the fee history or, when that fails, from the provider's own suggestion. -/
namespace Rrelayer

structure FeeHistory where
  latestBlockBaseFee : Option ℕ
  /-- For each block its rewards at the percentiles asked for. -/
  reward : Option (List (List ℕ))
  deriving DecidableEq, Repr

structure FeeBlock where
  baseFeePerGas : Option ℕ
  deriving DecidableEq, Repr

structure Eip1559Estimation where
  maxFeePerGas : ℕ
  maxPriorityFeePerGas : ℕ
  deriving DecidableEq, Repr

/-- What the provider answers in one estimate. The latest block is read once for the history and
once more for the floor of the tiers. -/
structure FeeAnswers where
  getFeeHistory : (pastBlocks rewardPercentile : ℕ) → Except String FeeHistory
  historyBlock : Except String (Option FeeBlock)
  estimateEip1559Fees : Except String Eip1559Estimation
  latestBlock : Except String (Option FeeBlock)

structure GasEstimatorResult where
  slow : GasPriceResult
  medium : GasPriceResult
  fast : GasPriceResult
  superFast : GasPriceResult
  deriving DecidableEq, Repr

namespace FeeHistory

def ethereumOrEthereumTestnet (chainId : ChainId) : Bool := chainId == 1 || chainId == 11155111

def pastBlocks (chainId : ChainId) : ℕ := if ethereumOrEthereumTestnet chainId then 20 else 60

def rewardPercentile (chainId : ChainId) : ℕ := if ethereumOrEthereumTestnet chainId then 60 else 25

/-- 2 gwei for Ethereum, 0.01 gwei for the other chains. -/
def defaultPriorityFee (chainId : ChainId) : ℕ :=
  if ethereumOrEthereumTestnet chainId then 2000000000 else 10000000

/-- The median of the blocks' first rewards. -/
def priorityFee (history : FeeHistory) (chainId : ChainId) : ℕ :=
  match history.reward with
  | none => defaultPriorityFee chainId
  | some rewards =>
      let allRewards := (rewards.filterMap List.head?).mergeSort (· ≤ ·)
      allRewards.getD (allRewards.length / 2) (defaultPriorityFee chainId)

/-- A base fee of zero counts as none. -/
def reportedBaseFee (history : FeeHistory) : Option ℕ :=
  history.latestBlockBaseFee.filter (· != 0)

end FeeHistory

namespace FeeAnswers

variable (answers : FeeAnswers) (chainId : ChainId)

def baseFeePerGas (history : FeeHistory) : Except String ℕ :=
  match history.reportedBaseFee with
  | some baseFee => .ok baseFee
  | none =>
      match answers.historyBlock with
      | .error e => .error e
      | .ok none => .error "Latest block not found"
      | .ok (some block) =>
          match block.baseFeePerGas with
          | none => .error "EIP-1559 not supported"
          | some baseFee => .ok baseFee

/-- The priority fee and the max fee. -/
def estimateWithFeeHistory : Except String (ℕ × ℕ) :=
  match answers.getFeeHistory (FeeHistory.pastBlocks chainId)
      (FeeHistory.rewardPercentile chainId) with
  | .error e => .error e
  | .ok feeHistory =>
      match answers.baseFeePerGas feeHistory with
      | .error e => .error e
      | .ok baseFeePerGas =>
          let priorityFee := feeHistory.priorityFee chainId
          let maxFee :=
            if chainId = 1 then max (baseFeePerGas + priorityFee) (priorityFee * 2)
            else baseFeePerGas + priorityFee * 2
          .ok (priorityFee, maxFee)

/-- The provider's suggestion; only on Ethereum is the max fee raised to twice the priority fee. -/
def suggestedFees (suggested : Eip1559Estimation) : ℕ × ℕ :=
  let priorityFee := suggested.maxPriorityFeePerGas
  (priorityFee,
    if chainId = 1 then max suggested.maxFeePerGas (priorityFee * 2) else suggested.maxFeePerGas)

def baseFees : Except String (ℕ × ℕ) :=
  match answers.estimateWithFeeHistory chainId with
  | .ok fees => .ok fees
  | .error _ => answers.estimateEip1559Fees.map (suggestedFees chainId)

def currentBaseFee : Except String ℕ :=
  answers.latestBlock.map fun block => (block.bind (·.baseFeePerGas)).getD 0

end FeeAnswers

/-- One tier: both fees scaled by their percentages, the max fee at least the floor. -/
def scaledTier (baseFees : ℕ × ℕ) (currentBaseFee priorityPercent maxPercent : ℕ)
    (minWait maxWait : ℤ) : GasPriceResult where
  maxPriorityFee := baseFees.1 * priorityPercent / 100
  maxFee := max (baseFees.2 * maxPercent / 100) (currentBaseFee + baseFees.1)
  minWaitTimeEstimate := some minWait
  maxWaitTimeEstimate := some maxWait

/-- The four tiers. The medium one takes the fees as they are. -/
def feeTiers (baseFees : ℕ × ℕ) (currentBaseFee : ℕ) : GasEstimatorResult where
  slow := scaledTier baseFees currentBaseFee 80 90 120 300
  medium := {
    maxPriorityFee := baseFees.1
    maxFee := max baseFees.2 (currentBaseFee + baseFees.1)
    minWaitTimeEstimate := some 30
    maxWaitTimeEstimate := some 120 }
  fast := scaledTier baseFees currentBaseFee 130 120 15 60
  superFast := scaledTier baseFees currentBaseFee 180 150 5 30

def FeeAnswers.getGasPrices (answers : FeeAnswers) (chainId : ChainId) :
    Except String GasEstimatorResult :=
  match answers.baseFees chainId with
  | .error e => .error e
  | .ok baseFees =>
      match answers.currentBaseFee with
      | .error e => .error e
      | .ok currentBaseFee => .ok (feeTiers baseFees currentBaseFee)

/-- A tier that a transaction can be sent with. -/
def GasPriceResult.Payable (gas : GasPriceResult) : Prop := gas.maxPriorityFee ≤ gas.maxFee

/-- Neither fee of the faster tier is lower. -/
def GasPriceResult.NotAbove (slower faster : GasPriceResult) : Prop :=
  slower.maxFee ≤ faster.maxFee ∧ slower.maxPriorityFee ≤ faster.maxPriorityFee

/-- Every tier can be paid, and none undercuts a slower one. -/
structure GasEstimatorResult.WellFormed (result : GasEstimatorResult) : Prop where
  slow : result.slow.Payable
  medium : result.medium.Payable
  fast : result.fast.Payable
  superFast : result.superFast.Payable
  slowMedium : result.slow.NotAbove result.medium
  mediumFast : result.medium.NotAbove result.fast
  fastSuper : result.fast.NotAbove result.superFast

section Tiers

variable {fees : ℕ × ℕ} {currentBaseFee : ℕ}

/-- Scaling keeps the order of the tiers whatever the fees are. -/
theorem feeTiers_ordered (fees : ℕ × ℕ) (currentBaseFee : ℕ) :
    (feeTiers fees currentBaseFee).slow.NotAbove (feeTiers fees currentBaseFee).medium ∧
      (feeTiers fees currentBaseFee).medium.NotAbove (feeTiers fees currentBaseFee).fast ∧
      (feeTiers fees currentBaseFee).fast.NotAbove (feeTiers fees currentBaseFee).superFast := by
  obtain ⟨priorityFee, maxFee⟩ := fees
  have hslow : maxFee * 90 / 100 ≤ maxFee := by omega
  have hmedium : maxFee ≤ maxFee * 120 / 100 := by omega
  have hfast : maxFee * 120 / 100 ≤ maxFee * 150 / 100 := by omega
  unfold GasPriceResult.NotAbove feeTiers scaledTier
  dsimp only
  refine ⟨⟨?_, ?_⟩, ⟨?_, ?_⟩, ?_, ?_⟩
  · exact max_le_max hslow le_rfl
  · omega
  · exact max_le_max hmedium le_rfl
  · omega
  · exact max_le_max hfast le_rfl
  · omega

/-- The floor pays for the slower tiers. The super fast one needs its own scaled max fee, or a base
fee above four fifths of the priority fee, and then the fast one is paid for as well. -/
theorem feeTiers_wellFormed_iff :
    (feeTiers fees currentBaseFee).WellFormed ↔
      fees.1 * 180 / 100 ≤ fees.2 * 150 / 100 ∨ fees.1 * 80 / 100 ≤ currentBaseFee := by
  constructor
  · intro h
    have hsuper : fees.1 * 180 / 100 ≤ max (fees.2 * 150 / 100) (currentBaseFee + fees.1) :=
      h.superFast
    omega
  · intro h
    obtain ⟨hslow, hmedium, hfast⟩ := feeTiers_ordered fees currentBaseFee
    refine ⟨?_, ?_, ?_, ?_, hslow, hmedium, hfast⟩
    · have hpaid : fees.1 * 80 / 100 ≤ max (fees.2 * 90 / 100) (currentBaseFee + fees.1) := by
        omega
      exact hpaid
    · have hpaid : fees.1 ≤ max fees.2 (currentBaseFee + fees.1) := by omega
      exact hpaid
    · have hpaid : fees.1 * 130 / 100 ≤ max (fees.2 * 120 / 100) (currentBaseFee + fees.1) := by
        omega
      exact hpaid
    · have hpaid : fees.1 * 180 / 100 ≤ max (fees.2 * 150 / 100) (currentBaseFee + fees.1) := by
        omega
      exact hpaid

/-- A max fee of twice the priority fee pays for every tier. -/
theorem feeTiers_wellFormed (hfees : fees.1 * 2 ≤ fees.2) :
    (feeTiers fees currentBaseFee).WellFormed := by
  apply feeTiers_wellFormed_iff.mpr
  omega

end Tiers

namespace FeeAnswers

variable {answers : FeeAnswers} {chainId : ChainId}

/-- The history answers, and it or the block it falls back on has a base fee. -/
def HistoryServes (answers : FeeAnswers) (chainId : ChainId) : Prop :=
  ∃ history, answers.getFeeHistory (FeeHistory.pastBlocks chainId)
      (FeeHistory.rewardPercentile chainId) = .ok history ∧
    (history.reportedBaseFee.isSome ∨
      ∃ block, answers.historyBlock = .ok (some block) ∧ block.baseFeePerGas.isSome)

/-- The suggestion pays for a priority fee of 180%, by itself or with the current base fee. -/
def SuggestionPays (answers : FeeAnswers) : Prop :=
  ∀ suggested currentBaseFee, answers.estimateEip1559Fees = .ok suggested →
    answers.currentBaseFee = .ok currentBaseFee →
    suggested.maxPriorityFeePerGas * 180 / 100 ≤ suggested.maxFeePerGas * 150 / 100 ∨
      suggested.maxPriorityFeePerGas * 80 / 100 ≤ currentBaseFee

theorem baseFeePerGas_isOk {history : FeeHistory} :
    (∃ baseFee, answers.baseFeePerGas history = .ok baseFee) ↔
      history.reportedBaseFee.isSome ∨
        ∃ block, answers.historyBlock = .ok (some block) ∧ block.baseFeePerGas.isSome := by
  unfold baseFeePerGas
  cases history.reportedBaseFee with
  | some baseFee => simp
  | none =>
    cases answers.historyBlock with
    | error e => simp
    | ok block =>
      cases block with
      | none => simp
      | some block =>
        cases hbase : block.baseFeePerGas with
        | none => simp [hbase]
        | some baseFee => simp [hbase]

/-- Fees off the history are those of a base fee, so the max fee is twice the priority fee. -/
theorem estimateWithFeeHistory_pays {fees : ℕ × ℕ}
    (h : answers.estimateWithFeeHistory chainId = .ok fees) : fees.1 * 2 ≤ fees.2 := by
  unfold estimateWithFeeHistory at h
  split at h
  · cases h
  · split at h
    · cases h
    · rename_i baseFee _
      cases h
      dsimp only
      split
      · exact le_max_right ..
      · exact Nat.le_add_left ..

theorem estimateWithFeeHistory_isOk :
    (∃ fees, answers.estimateWithFeeHistory chainId = .ok fees) ↔
      answers.HistoryServes chainId := by
  unfold estimateWithFeeHistory HistoryServes
  cases answers.getFeeHistory (FeeHistory.pastBlocks chainId)
    (FeeHistory.rewardPercentile chainId) with
  | error e => simp
  | ok history =>
    simp only [Except.ok.injEq, exists_eq_left', ← baseFeePerGas_isOk]
    cases answers.baseFeePerGas history with
    | error e => simp
    | ok baseFee => simp

/-- The tiers of an answer are those of the fees it is built on. -/
theorem getGasPrices_wellFormed_iff {fees : ℕ × ℕ} (hfees : answers.baseFees chainId = .ok fees) :
    (∀ result, answers.getGasPrices chainId = .ok result → result.WellFormed) ↔
      ∀ currentBaseFee, answers.currentBaseFee = .ok currentBaseFee →
        (feeTiers fees currentBaseFee).WellFormed := by
  unfold getGasPrices
  rw [hfees]
  cases answers.currentBaseFee with
  | error e => simp
  | ok currentBaseFee => simp

/-- The tiers are well formed exactly when the fees come from the history, on Ethereum, or when
the suggestion or the base fee of the latest block pays for the super fast priority fee. -/
theorem fallback_tiers_wellFormed_iff (answers : FeeAnswers) (chainId : ChainId) :
    (∀ result, answers.getGasPrices chainId = .ok result → result.WellFormed) ↔
      answers.HistoryServes chainId ∨ chainId = 1 ∨ answers.SuggestionPays := by
  rw [← estimateWithFeeHistory_isOk]
  cases hhistory : answers.estimateWithFeeHistory chainId with
  | ok fees =>
    have hfees : answers.baseFees chainId = .ok fees := by simp [baseFees, hhistory]
    rw [getGasPrices_wellFormed_iff hfees]
    have hpays := estimateWithFeeHistory_pays hhistory
    constructor
    · intro _
      exact .inl ⟨fees, rfl⟩
    · intro _ currentBaseFee _
      exact feeTiers_wellFormed hpays
  | error e =>
    simp only [reduceCtorEq, exists_false, false_or]
    unfold SuggestionPays
    cases hsuggested : answers.estimateEip1559Fees with
    | error e =>
      have hfees : answers.baseFees chainId = .error e := by
        simp [baseFees, hhistory, hsuggested, Except.map]
      simp [getGasPrices, hfees]
    | ok suggested =>
      have hfees : answers.baseFees chainId = .ok (suggestedFees chainId suggested) := by
        simp [baseFees, hhistory, hsuggested, Except.map]
      rw [getGasPrices_wellFormed_iff hfees]
      by_cases hethereum : chainId = 1
      · have hpays : (suggestedFees chainId suggested).1 * 2 ≤
            (suggestedFees chainId suggested).2 := by
          simp [suggestedFees, hethereum]
        constructor
        · intro _
          exact .inl hethereum
        · intro _ currentBaseFee _
          exact feeTiers_wellFormed hpays
      · have hplain : suggestedFees chainId suggested =
            (suggested.maxPriorityFeePerGas, suggested.maxFeePerGas) := by
          simp [suggestedFees, hethereum]
        simp only [hplain, feeTiers_wellFormed_iff, hethereum, false_or]
        constructor
        · intro hpays other currentBaseFee hother
          obtain rfl := Except.ok.inj hother
          exact hpays currentBaseFee
        · intro hpays currentBaseFee hcurrent
          exact hpays suggested currentBaseFee rfl hcurrent

end FeeAnswers

/-- A chain without a fee history, where the suggestion is the priority fee alone because its base
fee is zero. -/
def zeroBaseFeeAnswers : FeeAnswers where
  getFeeHistory := fun _ _ => .error "method not found"
  historyBlock := .ok (some ⟨some 0⟩)
  estimateEip1559Fees := .ok ⟨10, 10⟩
  latestBlock := .ok (some ⟨some 0⟩)

/-- A super fast priority fee of 18 beside a max fee of 15. -/
theorem fallback_tiers_unpayable :
    ¬ ∀ (answers : FeeAnswers) (chainId : ChainId) (result : GasEstimatorResult),
      answers.getGasPrices chainId = .ok result → result.WellFormed := by
  intro h
  have hsuper := (h zeroBaseFeeAnswers 137 _ rfl).superFast
  revert hsuper
  unfold GasPriceResult.Payable
  decide

end Rrelayer
