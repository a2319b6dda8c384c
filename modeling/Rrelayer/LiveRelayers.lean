import Rrelayer.SigningIdentity

/-! One live relayer for an address on a chain. Key import and the startup import look the
address up before they insert; create and clone do not, and the unique index sees neither the
address nor a clone. -/
namespace Rrelayer

open EventMachine

namespace RelayerTable

def SameIdentity (r r' : RelayerRecord) : Prop :=
  r.deleted = false ∧ r'.deleted = false ∧ r.chainId = r'.chainId ∧ r.address = r'.address

instance (r r' : RelayerRecord) : Decidable (SameIdentity r r') :=
  inferInstanceAs (Decidable (_ ∧ _))

/-- No two live relayers of a chain share an address. -/
def OneLive (db : RelayerTable) : Prop := db.Pairwise fun r r' => ¬ SameIdentity r r'

instance (db : RelayerTable) : Decidable db.OneLive :=
  inferInstanceAs (Decidable (List.Pairwise _ _))

/-- A create finds neither the next index nor the address behind it with a live relayer of the
chain. -/
def CreateClear (providers : List EvmProvider) (db : RelayerTable) (chainId : ChainId) : Prop :=
  ∀ p walletIndex address, findProviderForChainId providers chainId = some p →
    db.nextNormalWalletIndex chainId = some walletIndex →
    p.createWallet walletIndex.toNat = .ok address →
      db.AddressFree chainId address ∧
        ∀ r ∈ db, r.deleted = false → r.chainId = chainId → r.walletIndex ≠ walletIndex

/-- The relayer a clone request would alias has no live namesake on the target chain. -/
def CloneClear (providers : List EvmProvider) (db : RelayerTable) (relayerId : RelayerId)
    (chainId : ChainId) : Prop :=
  ∀ p source, findProviderForChainId providers chainId = some p → p.canClone = true →
    db.getRelayer relayerId = some source → source.isPrivateKey = false →
    source.clonedFromChainId = none → db.AddressFree chainId source.address

/-- Every key of the network is looked up before it is imported. -/
def LookupsServed (providers : List EvmProvider) (chainId : ChainId)
    (turns : ℕ → PrivateKeyImport) : Prop :=
  ∀ p keys, findProviderForChainId providers chainId = some p →
    p.walletManager.configuredKeys = some keys →
    ∀ index < keys.privateKeys.length, (turns index).lookupServed = true

def Clear (providers : List EvmProvider) (db : RelayerTable) : RelayerRequest → Prop
  | .create _ chainId _ _ => CreateClear providers db chainId
  | .clone _ relayerId chainId _ _ => CloneClear providers db relayerId chainId
  | .importPrivateKeys chainId turns => LookupsServed providers chainId turns
  | .importKey .. => True
  | .delete .. => True

section OneLive

variable {providers : List EvmProvider} {db db' : RelayerTable} {request : RelayerRequest}
  {row : RelayerRecord} {chainId : ChainId} {address : EvmAddress}

theorem oneLive_append_iff (hlive : row.deleted = false) :
    OneLive (db ++ [row]) ↔ db.OneLive ∧ db.AddressFree row.chainId row.address := by
  unfold OneLive AddressFree SameIdentity
  rw [List.pairwise_append]
  constructor
  · rintro ⟨hdb, -, hnew⟩
    refine ⟨hdb, ?_⟩
    intro r hr hrlive hchain haddr
    exact hnew r hr row (List.mem_singleton_self row) ⟨hrlive, hlive, hchain, haddr⟩
  · rintro ⟨hdb, hfree⟩
    refine ⟨hdb, List.pairwise_singleton _ _, ?_⟩
    intro r hr r' hr' hsame
    obtain rfl := List.mem_singleton.mp hr'
    exact hfree r hr hsame.1 hsame.2.2.1 hsame.2.2.2

/-- Soft-deleting rows separates more of them. -/
theorem OneLive.deleteRelayer (h : db.OneLive) (relayerId : RelayerId) :
    OneLive (db.deleteRelayer relayerId) := by
  unfold OneLive RelayerTable.deleteRelayer
  rw [List.pairwise_map]
  apply h.imp
  intro r r' hdistinct hsame
  apply hdistinct
  unfold SameIdentity at hsame ⊢
  split at hsame
  · cases hsame.1
  · split at hsame
    · cases hsame.2.1
    · exact hsame

/-- Where no live row of the chain sits at the index, the update writes to deleted rows and to
the new row only. -/
theorem oneLive_updateAddress {newId : RelayerId} {walletIndex : ℤ} (h : db.OneLive)
    (hfree : db.AddressFree chainId address)
    (hvacant : ∀ r ∈ db, r.deleted = false → r.chainId = chainId → r.walletIndex ≠ walletIndex) :
    OneLive ((db ++ [createdRecord newId chainId walletIndex address]).updateAddress chainId
      walletIndex address) := by
  have hnew : OneLive (db ++ [createdRecord newId chainId walletIndex address]) :=
    (oneLive_append_iff rfl).mpr ⟨h, hfree⟩
  have hlive : ∀ r ∈ db ++ [createdRecord newId chainId walletIndex address],
      r.deleted = false → (r.chainId = chainId ∧ r.walletIndex = walletIndex) →
        r.address = address := by
    intro r hr hrlive hat
    rcases List.mem_append.mp hr with hr | hr
    · exact absurd hat.2 (hvacant r hr hrlive hat.1)
    · rw [List.mem_singleton.mp hr]
      rfl
  unfold OneLive RelayerTable.updateAddress
  rw [List.pairwise_map]
  apply hnew.imp_of_mem
  intro r r' hr hr' hdistinct hsame
  apply hdistinct
  unfold SameIdentity at hsame ⊢
  split at hsame
  · rename_i hat
    have haddr := hlive r hr hsame.1 hat
    split at hsame
    · rename_i hat'
      have haddr' := hlive r' hr' hsame.2.1 hat'
      exact ⟨hsame.1, hsame.2.1, hsame.2.2.1, haddr.trans haddr'.symm⟩
    · exact ⟨hsame.1, hsame.2.1, hsame.2.2.1, haddr.trans hsame.2.2.2⟩
  · split at hsame
    · rename_i hat'
      have haddr' := hlive r' hr' hsame.2.1 hat'
      exact ⟨hsame.1, hsame.2.1, hsame.2.2.1, hsame.2.2.2.trans haddr'.symm⟩
    · exact hsame

/-- With one live relayer an address, the lookup by address finds at most one row. -/
theorem OneLive.getRelayerByAddress_ne_error (h : db.OneLive) (message : String) :
    db.getRelayerByAddress true address chainId ≠ .error message := by
  unfold RelayerTable.getRelayerByAddress
  intro herror
  have hfilter := List.Pairwise.filter
    (fun r : RelayerRecord => r.address == address && r.chainId == chainId && !r.deleted) h
  have hmem : ∀ r ∈ db.filter (fun r : RelayerRecord =>
      r.address == address && r.chainId == chainId && !r.deleted),
      r.address = address ∧ r.chainId = chainId ∧ r.deleted = false := by
    intro r hr
    have hr := (List.mem_filter.mp hr).2
    simp only [Bool.and_eq_true, beq_iff_eq, Bool.not_eq_true'] at hr
    exact ⟨hr.1.1, hr.1.2, hr.2⟩
  generalize db.filter (fun r : RelayerRecord =>
    r.address == address && r.chainId == chainId && !r.deleted) = found at *
  rcases found with - | ⟨r, - | ⟨r', rest⟩⟩
  · simp at herror
  · simp at herror
  · obtain ⟨haddr, hchain, hlive⟩ := hmem r (by simp)
    obtain ⟨haddr', hchain', hlive'⟩ := hmem r' (by simp)
    have hdistinct := (List.pairwise_cons.mp hfilter).1 r' (by simp)
    exact hdistinct ⟨hlive, hlive', hchain.trans hchain'.symm, haddr.trans haddr'.symm⟩

theorem OneLive.change (hchange : Change providers request db db') (h : db.OneLive)
    (hclear : Clear providers db request) : db'.OneLive := by
  cases hchange with
  | deleted _ relayerId served => exact h.deleteRelayer relayerId
  | created _ newId chainId insertServed readServed p walletIndex address hprovider hindex
      haddress =>
      obtain ⟨hfree, hvacant⟩ := hclear p walletIndex address hprovider hindex haddress
      exact oneLive_updateAddress h hfree hvacant
  | cloned _ newId relayerId chainId insertServed readServed p source hprovider hclones
      hsource hnormal hroot haddress =>
      apply (oneLive_append_iff rfl).mpr
      exact ⟨h, hclear p source hprovider hclones hsource hnormal hroot⟩
  | imported _ newId chainId address lookupServed keyStoreAccepts insertServed p walletIndex
      hprovider himports hfree hindex haddress =>
      exact (oneLive_append_iff rfl).mpr ⟨h, hfree⟩
  | importedPrivateKey _ chainId turns p keys index address hprovider hkeys hlength haddress
      hlookup =>
      apply (oneLive_append_iff rfl).mpr
      refine ⟨h, ?_⟩
      have hserved := hclear p keys hprovider hkeys index hlength
      rcases hlookup hserved with hfree | ⟨message, herror⟩
      · exact hfree
      · exact absurd herror (h.getRelayerByAddress_ne_error message)

theorem OneLive.step (h : db.OneLive) (hclear : Clear providers db request) :
    (db.step providers request).OneLive := by
  apply step_preserves _ h
  intro before after hbefore hchange hlive
  rcases hbefore with rfl | ⟨chainId, turns, rfl⟩
  · exact hlive.change hchange hclear
  · exact hlive.change hchange hclear

/-- Under a mnemonic with a different address for every index a create is always clear: the next
index lies above every live one. -/
theorem createClear_of_mnemonic {derive : ℕ → SigningKey} (hderived : AllDerived providers db)
    (hmnemonic : ∀ p, findProviderForChainId providers chainId = some p →
      p.walletManager = .primary (mnemonicWalletManager derive))
    (hinjective : Function.Injective fun n => (derive n).address) :
    CreateClear providers db chainId := by
  intro p walletIndex address hprovider hindex haddress
  have hmanager := hmnemonic p hprovider
  obtain ⟨hnonneg, -, hbelow⟩ := nextNormalWalletIndex_spec hindex
  have hnew : (derive walletIndex.toNat).address = address := by
    simpa [EvmProvider.createWallet, WalletManager.createWallet, WalletManager.getWallet, hmanager,
      mnemonicWalletManager, Except.map] using haddress
  have hrow : ∀ r ∈ db, r.deleted = false → r.chainId = chainId →
      0 ≤ r.walletIndex ∧ r.walletIndex < walletIndex ∧
        (derive r.walletIndex.toNat).address = r.address := by
    intro r hr hlive hchain
    obtain ⟨q, hq, hderived⟩ := hderived r hr hlive
    rw [hchain, hprovider] at hq
    obtain rfl := Option.some.inj hq
    cases hprivate : r.isPrivateKey with
    | true =>
        rw [if_pos hprivate, hmanager] at hderived
        simp [WalletManager.configuredKeys] at hderived
    | false =>
        rw [if_neg (by simp [hprivate])] at hderived
        obtain ⟨hnonneg, -, hold⟩ := hderived
        refine ⟨hnonneg, hbelow r hr hchain hprivate hlive, ?_⟩
        simpa [WalletManager.getAddress, WalletManager.getWallet, hmanager, mnemonicWalletManager,
          Except.map] using hold
  constructor
  · intro r hr hlive hchain haddr
    obtain ⟨hrnonneg, hlt, hrow⟩ := hrow r hr hlive hchain
    have hsame := hinjective (hrow.trans (haddr.trans hnew.symm))
    omega
  · intro r hr hlive hchain
    obtain ⟨-, hlt, -⟩ := hrow r hr hlive hchain
    omega

end OneLive

end RelayerTable

/-- In a run whose creates and clones meet no live relayer of their address, and whose startup
imports are all looked up, no state has two live relayers of one address on a chain. -/
theorem one_live_relayer (providers : List EvmProvider) (before after : List RelayerRequest)
    (hclear : Along (RelayerTable.step providers) (RelayerTable.Clear providers) []
      (before ++ after)) :
    (run (RelayerTable.step providers) [] before).OneLive := by
  apply hclear.invariant_prefix
  · intro db request hclear hdb
    exact RelayerTable.OneLive.step hdb hclear
  · exact List.Pairwise.nil

/-- Under a mnemonic and without private keys, only clones have to be clear. -/
theorem one_live_relayer_of_mnemonic (providers : List EvmProvider) (derive : ℕ → SigningKey)
    (hmnemonic : ∀ p ∈ providers, p.walletManager = .primary (mnemonicWalletManager derive))
    (hinjective : Function.Injective fun n => (derive n).address) (requests : List RelayerRequest)
    (hclear : Along (RelayerTable.step providers) (fun db request =>
      ∀ newId relayerId chainId insertServed readServed,
        request = .clone newId relayerId chainId insertServed readServed →
          RelayerTable.CloneClear providers db relayerId chainId) [] requests) :
    (run (RelayerTable.step providers) [] requests).OneLive := by
  have hprovider : ∀ chainId p, findProviderForChainId providers chainId = some p →
      p.walletManager = .primary (mnemonicWalletManager derive) := by
    intro chainId p hp
    exact hmnemonic p (List.mem_of_find?_eq_some hp)
  have hboth : ∀ db : RelayerTable, RelayerTable.AllDerived providers db ∧ db.OneLive →
      ∀ request, (∀ newId relayerId chainId insertServed readServed,
        request = .clone newId relayerId chainId insertServed readServed →
          RelayerTable.CloneClear providers db relayerId chainId) →
      RelayerTable.AllDerived providers (db.step providers request) ∧
        (db.step providers request).OneLive := by
    rintro db ⟨hderived, hlive⟩ request hclone
    constructor
    · exact RelayerTable.step_preserves (fun _ _ _ hchange h => h.change hchange) hderived
    · apply hlive.step
      cases request with
      | create newId chainId insertServed readServed =>
          exact RelayerTable.createClear_of_mnemonic hderived (hprovider chainId) hinjective
      | clone newId relayerId chainId insertServed readServed =>
          exact hclone newId relayerId chainId insertServed readServed rfl
      | importKey newId chainId address lookupServed keyStoreAccepts insertServed => trivial
      | importPrivateKeys chainId turns =>
          intro p keys hp hkeys
          rw [hprovider chainId p hp] at hkeys
          cases hkeys
      | delete relayerId served => trivial
  have hrun := hclear.invariant
    (P := fun db => RelayerTable.AllDerived providers db ∧ db.OneLive)
    (fun db request hclone hdb => hboth db hdb request hclone)
    ⟨fun r hr => absurd hr (List.not_mem_nil), List.Pairwise.nil⟩
  exact hrun.2

/-- Two networks under the mnemonic whose index `n` signs for `100 + n`. -/
def twoNetworks : List EvmProvider :=
  [1, 2].map fun chainId => {
    chainId := chainId
    walletManager := .primary (mnemonicWalletManager fun n => { secret := n, address := 100 + n }) }

theorem one_live_relayer_of_clone :
    (run (RelayerTable.step twoNetworks) [] [.create 1 1 true true]).OneLive := by
  apply one_live_relayer twoNetworks [.create 1 1 true true] [.clone 2 1 2 true true]
  refine ⟨?_, ?_, trivial⟩
  · intro p walletIndex address _ _ _
    constructor
    · intro r hr
      cases hr
    · intro r hr
      cases hr
  · intro p source _ _ _ _ _ r hr _ hchain
    have hrows : RelayerTable.step twoNetworks [] (.create 1 1 true true) =
        [RelayerTable.createdRecord 1 1 0 100] := by decide +kernel
    rw [hrows, List.mem_singleton] at hr
    subst hr
    cases hchain

/-- A relayer created on each of two networks, then the first one cloned onto the second. -/
theorem one_live_relayer_fails : ¬ ∀ providers requests,
    (run (RelayerTable.step providers) [] requests).OneLive := by
  intro h
  have hclone := h twoNetworks [.create 1 1 true true, .create 2 2 true true, .clone 3 1 2 true true]
  revert hclone
  decide +kernel

end Rrelayer
