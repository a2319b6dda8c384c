import Rrelayer.TopUpQueues

/-! On which chain a top-up is queued. The funding relayer is looked up by address among the cached
relayers of all chains, and relayers of different chains can share an address. -/
namespace Rrelayer

namespace AutomaticTopUpTask

variable {w : AutomaticTopUpTask} {e : TopUpEvent} {chainId : ChainId} {fromAddress : EvmAddress}
  {from_ : TopUpFrom} {asset : TopUpAsset} {address : EvmAddress} {env : TopUpEnv}
  {id : TransactionId}

/-- The cache holds relayers under their own chain. -/
def CachedByChain (w : AutomaticTopUpTask) : Prop :=
  ∀ entry ∈ w.relayerCache, ∀ r ∈ entry.2, r.chainId = entry.1

/-- The cached relayers with the address are all of the chain. -/
def OnlyOn (w : AutomaticTopUpTask) (chainId : ChainId) (fromAddress : EvmAddress) : Prop :=
  ∀ entry ∈ w.relayerCache, entry.1 ≠ chainId → ∀ r ∈ entry.2, r.address ≠ fromAddress

/-- However the cache is iterated, the funding relayer is one of the chain. -/
def FundedOn (w : AutomaticTopUpTask) (chainId : ChainId) (fromAddress : EvmAddress) : Prop :=
  ∀ values served relayer, values.Perm (w.relayerCache.map (·.2)) →
    w.fundingRelayer values served chainId fromAddress = .ok relayer →
      relayer.chainId = chainId

/-- The top-up reaches only the queue of a relayer of the chain that has the funding address. -/
def QueuedOn (w : AutomaticTopUpTask) (chainId : ChainId) (from_ : TopUpFrom) (asset : TopUpAsset)
    (address : EvmAddress) (env : TopUpEnv) : Prop :=
  env.values.Perm (w.relayerCache.map (·.2)) →
    ∃ relayer, w.fundingRelayer env.values env.lookup chainId from_.relayer = .ok relayer ∧
      relayer.chainId = chainId ∧ relayer.address = from_.relayer ∧ ∀ other, other ≠ relayer.id →
        (w.sendAsset chainId from_ asset address env).1.queues other = w.queues other

theorem sendTopUp_relayerCache {call : EvmAddress × ℕ × TransactionData} {ext : String} :
    (w.sendTopUp chainId from_ address call ext env).1.relayerCache = w.relayerCache := by
  unfold sendTopUp
  split
  · rfl
  · rfl

theorem topUps_relayerCache {envs : ℕ → TopUpEnv} {topUps : List (EvmAddress × ℕ)} :
    (EventMachine.run (topUpStep chainId from_ asset envs) w topUps).relayerCache =
      w.relayerCache := by
  induction topUps generalizing w with
  | nil => rfl
  | cons topUp topUps ih =>
    rw [EventMachine.run_cons, ih, topUpStep, sendAsset_eq, sendTopUp_relayerCache]

theorem CachedByChain.step (h : w.CachedByChain) : (w.step e).CachedByChain := by
  cases e with
  | relayers table => exact h
  | queue relayerId event => exact h
  | topUp chainId config asset served balances envs =>
    intro entry hentry
    apply h entry
    rw [← topUps_relayerCache]
    exact hentry
  | refresh chainId served =>
    have hchain : ∀ r ∈ w.table.getAllRelayersForChain chainId, r.chainId = chainId := by
      intro r hr
      have hfound := (List.mem_filter.mp hr).2
      simp only [Bool.and_eq_true, beq_iff_eq] at hfound
      exact hfound.1
    show (w.refreshRelayerCache chainId served).CachedByChain
    unfold refreshRelayerCache
    split
    · exact h
    · intro entry hentry
      dsimp only at hentry
      split at hentry
      · obtain ⟨old, hold, rfl⟩ := List.mem_map.mp hentry
        split
        · exact hchain
        · exact h old hold
      · obtain hold | hnew := List.mem_append.mp hentry
        · exact h entry hold
        · rw [List.mem_singleton.mp hnew]
          exact hchain

theorem getRelayerByAddress_ok {db : RelayerTable} {served : Bool} {r : RelayerRecord}
    (h : db.getRelayerByAddress served fromAddress chainId = .ok (some r)) :
    r.address = fromAddress ∧ r.chainId = chainId := by
  unfold RelayerTable.getRelayerByAddress at h
  split at h
  · cases h
  · split at h
    · cases h
    · rename_i found hfilter
      obtain rfl : found = r := by simpa using h
      have hmem : found ∈ db.filter fun r =>
          r.address == fromAddress && r.chainId == chainId && !r.deleted := by
        rw [hfilter]
        exact List.mem_singleton_self found
      have hfound := (List.mem_filter.mp hmem).2
      simp only [Bool.and_eq_true, beq_iff_eq] at hfound
      exact hfound.1
    · cases h

/-- The funding relayer is a cached one with the address, or one of the chain. -/
theorem fundingRelayer_ok {values : List (List RelayerRecord)} {served : Bool}
    {relayer : RelayerRecord}
    (h : w.fundingRelayer values served chainId fromAddress = .ok relayer) :
    relayer.address = fromAddress ∧
      ((∃ relayers ∈ values, relayer ∈ relayers) ∨ relayer.chainId = chainId) := by
  unfold fundingRelayer at h
  split at h
  · rename_i found hfound
    obtain rfl : found = relayer := Except.ok.inj h
    have haddress := List.find?_some hfound
    refine ⟨by simpa using haddress, .inl ?_⟩
    obtain ⟨relayers, hin, hmem⟩ := List.mem_flatten.mp (List.mem_of_find?_eq_some hfound)
    exact ⟨relayers, hin, hmem⟩
  · split at h
    · rename_i found hfound
      obtain rfl : found = relayer := Except.ok.inj h
      obtain ⟨haddress, hchain⟩ := getRelayerByAddress_ok hfound
      exact ⟨haddress, .inr hchain⟩
    · cases h
    · cases h

theorem CachedByChain.fundedOn_iff (h : w.CachedByChain) :
    w.FundedOn chainId fromAddress ↔ w.OnlyOn chainId fromAddress := by
  constructor
  · intro hfunded entry hentry hother r hr haddress
    obtain ⟨front, back, hsplit⟩ := List.append_of_mem hentry
    -- The iteration that begins with the other chain finds the relayer there.
    have hperm : (entry.2 :: (front ++ back).map (·.2)).Perm (w.relayerCache.map (·.2)) := by
      rw [hsplit]
      exact (@List.perm_middle _ entry front back).symm.map (·.2)
    obtain ⟨found, hfound⟩ : ∃ found, entry.2.find? (·.address == fromAddress) = some found := by
      apply Option.isSome_iff_exists.mp
      rw [List.find?_isSome]
      exact ⟨r, hr, by simpa using haddress⟩
    have hfunding : w.fundingRelayer (entry.2 :: (front ++ back).map (·.2)) true chainId
        fromAddress = .ok found := by
      simp [fundingRelayer, List.find?_append, hfound]
    have hon := hfunded _ true found hperm hfunding
    have hcached := h entry hentry found (List.mem_of_find?_eq_some hfound)
    exact hother (hcached.symm.trans hon)
  · intro honly values served relayer hperm hfunding
    obtain ⟨haddress, ⟨relayers, hin, hmem⟩ | hchain⟩ := fundingRelayer_ok hfunding
    · obtain ⟨entry, hentry, rfl⟩ := List.mem_map.mp (hperm.subset hin)
      have hcached := h entry hentry relayer hmem
      by_contra hother
      exact honly entry hentry (fun heq => hother (hcached.trans heq)) relayer hmem haddress
    · exact hchain

/-- A queued top-up is in the queue of the funding relayer, and in no other. -/
theorem sendAsset_queues (h : (w.sendAsset chainId from_ asset address env).2 = .ok id) :
    ∃ relayer, w.fundingRelayer env.values env.lookup chainId from_.relayer = .ok relayer ∧
      ∀ other, other ≠ relayer.id →
        (w.sendAsset chainId from_ asset address env).1.queues other = w.queues other := by
  rw [sendAsset_eq] at h ⊢
  obtain ⟨relayer, toSend, l, t, hprepare, -, -, -⟩ := sendTopUp_ok h
  refine ⟨relayer, (prepareTopUp_ok hprepare).1, ?_⟩
  intro other hother
  unfold sendTopUp
  rw [hprepare]
  exact Function.update_of_ne hother _ _

/-- What a cycle decides on a chain is funded on that chain exactly if the cached relayers with the
funding address are all of the chain, and then every queued top-up is queued there. -/
def KeepsChain (w : AutomaticTopUpTask) : TopUpEvent → Prop
  | .topUp chainId config asset served balances envs =>
      (w.FundedOn chainId config.from_.relayer ↔ w.OnlyOn chainId config.from_.relayer) ∧
      (w.OnlyOn chainId config.from_.relayer →
        w.EachQueued QueuedOn (.topUp chainId config asset served balances envs))
  | _ => True

theorem CachedByChain.keepsChain (h : w.CachedByChain) : w.KeepsChain e := by
  cases e with
  | topUp chainId config asset served balances envs =>
    refine ⟨h.fundedOn_iff, ?_⟩
    intro honly
    apply EventMachine.along_iff_split.mpr
    intro earlier topUp later _ id hqueued hperm
    have hcache := @topUps_relayerCache w chainId config.from_ asset envs earlier
    obtain ⟨relayer, hfunding, hothers⟩ := sendAsset_queues hqueued
    refine ⟨relayer, hfunding, ?_, (fundingRelayer_ok hfunding).1, hothers⟩
    have hcached : (EventMachine.run (topUpStep chainId config.from_ asset envs) w
        earlier).CachedByChain := by
      intro entry hentry
      rw [hcache] at hentry
      exact h entry hentry
    apply hcached.fundedOn_iff.mpr _ _ _ relayer hperm hfunding
    intro entry hentry
    rw [hcache] at hentry
    exact honly entry hentry
  | relayers => trivial
  | refresh => trivial
  | queue => trivial

/-- In every run of the task, however relayers come and go. -/
theorem top_ups_keep_chain (hcache : w.relayerCache = []) (es : List TopUpEvent) :
    EventMachine.Along step KeepsChain w es := by
  have hcached : w.CachedByChain := by
    intro entry hentry
    rw [hcache] at hentry
    cases hentry
  clear hcache
  induction es generalizing w with
  | nil => trivial
  | cons e es ih => exact ⟨hcached.keepsChain, ih hcached.step⟩

section Example

theorem top_ups_keep_chain_funded :
    EventMachine.Along step KeepsChain twoRelayers
      [.refresh 1 true, nativeCycle 0, .refresh 2 true, nativeCycle 1] :=
  top_ups_keep_chain rfl _

/-- The funding relayer and its clone on chain 2, which has the same address. -/
def clonedFunding : AutomaticTopUpTask where
  table := [⟨0, 1, none, 7, 0, false, false⟩, ⟨1, 1, none, 2, 1, false, false⟩,
    ⟨2, 2, some 1, 7, 0, false, false⟩]
  relayerCache := []
  queues _ := freshRelayer

def clonedRelayer : RelayerRecord := ⟨2, 2, some 1, 7, 0, false, false⟩

/-- With both chains cached, and chain 2 first, a top-up of chain 1 is queued on chain 2. -/
theorem top_ups_keep_chain_fails :
    ¬ ∀ (w : AutomaticTopUpTask) (es : List TopUpEvent), w.relayerCache = [] →
      EventMachine.Along step (EachQueued QueuedOn) w es := by
  intro hqueued
  let env : TopUpEnv := { servedTopUp 0 with
    values := ((clonedFunding.run [.refresh 1 true, .refresh 2 true]).relayerCache.map
      (·.2)).reverse }
  have hlast := (hqueued clonedFunding [.refresh 1 true, .refresh 2 true,
    .topUp 1 fundedBySeven (.native ⟨100, 5⟩) true lowBalance fun _ => env] rfl).2.2.1
  have hdecided : ((clonedFunding.run [.refresh 1 true, .refresh 2 true]).decided true 1
      fundedBySeven (.native ⟨100, 5⟩) lowBalance).zipIdx = [(2, 0)] := by
    decide +kernel
  simp only [EachQueued] at hlast
  change EventMachine.Along _ _ (clonedFunding.run [.refresh 1 true, .refresh 2 true])
    ((clonedFunding.run [.refresh 1 true, .refresh 2 true]).decided true 1
      fundedBySeven (.native ⟨100, 5⟩) lowBalance).zipIdx at hlast
  rw [hdecided] at hlast
  obtain ⟨relayer, hfunding, hchain, -⟩ := hlast.1 0 (by decide +kernel) (List.reverse_perm _)
  have hclone : (clonedFunding.run [.refresh 1 true, .refresh 2 true]).fundingRelayer env.values
      env.lookup 1 7 = .ok clonedRelayer := by
    decide +kernel
  obtain rfl : clonedRelayer = relayer := Except.ok.inj (hclone.symm.trans hfunding)
  revert hchain
  decide

end Example

end AutomaticTopUpTask

end Rrelayer
