import Rrelayer.RelayerEffect

/-! Whether the address stored for a relayer is the address of the key that signs for it. The
address is asked for once, at creation, and the key is looked up at every signature; the two
lookups meet the same manager except for a private key beside a primary manager. -/
namespace Rrelayer

open EventMachine

/-- The key that signs in the relayer's name has the relayer's address. -/
def EvmProvider.SignsFor (p : EvmProvider) (r : RelayerRecord) : Prop :=
  ∃ key, p.signer r = .ok key ∧ key.address = r.address

/-- The primary manager's wallet at the key's position has the address of the key itself. -/
def CompositeWalletManager.SharesAddress (m : CompositeWalletManager) (chainId : ChainId)
    (position : ℕ) : Prop :=
  ∃ keys own other, m.privateKeyManager = some keys ∧ keys.getWallet position = .ok own ∧
    m.primaryManager.getWallet position (.chainId chainId) = .ok other ∧
    own.address = other.address

/-- A private key has a database index, and where it stands beside a primary manager the two
agree on its address. -/
def EvmProvider.KeyAtItsAddress (p : EvmProvider) (walletIndex : ℤ) : Prop :=
  walletIndex < 0 ∧ i32Min < walletIndex ∧
    match p.walletManager with
    | .composite m => m.SharesAddress p.chainId (privateKeyPosition walletIndex)
    | _ => True

/-- Every live relayer of every run is signed for by the key of its address. -/
def AddressesSigned (providers : List EvmProvider) : Prop :=
  ∀ requests, ∀ r ∈ run (RelayerTable.step providers) [] requests, r.deleted = false →
    ∃ p, findProviderForChainId providers r.chainId = some p ∧ p.SignsFor r

namespace RelayerTable

section NextIndex

variable {rows : RelayerTable} {n : ℤ}

theorem nextIndex_spec (h : nextIndex rows = some n) :
    (∀ r ∈ rows, r.walletIndex < n) ∧ n ≤ maxNormalWalletIndex ∧
      ((∀ r ∈ rows, 0 ≤ r.walletIndex) → 0 ≤ n) := by
  unfold nextIndex at h
  simp only [Option.ite_none_right_eq_some, Option.some.injEq] at h
  obtain ⟨hmax, hn⟩ := h
  rw [hn] at hmax
  refine ⟨?_, hmax, ?_⟩
  · intro r hr
    cases hrows : (rows.map (·.walletIndex)).max? with
    | none =>
        have hnil : rows = [] := by simpa using hrows
        simp [hnil] at hr
    | some m =>
        have hle := (List.max?_eq_some_iff.mp hrows).2 r.walletIndex (List.mem_map_of_mem hr)
        simp only [hrows, Option.getD_some] at hn
        omega
  · intro hrows
    cases hmaximum : (rows.map (·.walletIndex)).max? with
    | none =>
        simp only [hmaximum, Option.getD_none] at hn
        omega
    | some m =>
        obtain ⟨r, hr, hrm⟩ := List.mem_map.mp (List.max?_eq_some_iff.mp hmaximum).1
        have hle := hrows r hr
        simp only [hmaximum, Option.getD_some] at hn
        omega

theorem nextNormalWalletIndex_spec {db : RelayerTable} {chainId : ChainId}
    (h : db.nextNormalWalletIndex chainId = some n) :
    0 ≤ n ∧ n ≤ maxNormalWalletIndex ∧
      ∀ r ∈ db, r.chainId = chainId → r.isPrivateKey = false → r.deleted = false →
        r.walletIndex < n := by
  obtain ⟨hlt, hmax, hnonneg⟩ := nextIndex_spec h
  have hn : 0 ≤ n := by
    apply hnonneg
    intro r hr
    have := (List.mem_filter.mp hr).2
    simp only [Bool.and_eq_true, decide_eq_true_eq] at this
    exact this.2
  refine ⟨hn, hmax, ?_⟩
  intro r hr hchain hnormal hlive
  by_cases hneg : 0 ≤ r.walletIndex
  · exact hlt r (by simp [List.mem_filter, hr, hchain, hnormal, hlive, hneg])
  · omega

end NextIndex

/-- What the address of a live row came from. -/
def Derived (providers : List EvmProvider) (r : RelayerRecord) : Prop :=
  ∃ p, findProviderForChainId providers r.chainId = some p ∧
    if r.isPrivateKey then
      p.walletManager.configuredKeys.isSome ∧
        (r.walletIndex < 0 → p.getAddress (privateKeyPosition r.walletIndex) = .ok r.address)
    else
      0 ≤ r.walletIndex ∧ r.walletIndex ≤ maxNormalWalletIndex ∧
        p.walletManager.getAddress r.walletIndex.toNat r.walletManagerChainId = .ok r.address

def AllDerived (providers : List EvmProvider) (db : RelayerTable) : Prop :=
  ∀ r ∈ db, r.deleted = false → Derived providers r

section Invariant

variable {providers : List EvmProvider} {db db' : RelayerTable} {request : RelayerRequest}

theorem AllDerived.append {row : RelayerRecord} (h : AllDerived providers db)
    (hrow : Derived providers row) : AllDerived providers (db ++ [row]) := by
  intro r hr hlive
  rcases List.mem_append.mp hr with hr | hr
  · exact h r hr hlive
  · rw [List.mem_singleton.mp hr]
    exact hrow

/-- A row rewritten by a create has the new index, so it is no live normal row of the chain
other than the new one. -/
theorem AllDerived.updateAddress {chainId : ChainId} {walletIndex : ℤ} {address : EvmAddress}
    (h : AllDerived providers db) (hnonneg : 0 ≤ walletIndex)
    (hrow : ∀ r ∈ db, r.deleted = false → r.chainId = chainId → r.walletIndex = walletIndex →
      r.isPrivateKey = false → r.address = address) :
    AllDerived providers (db.updateAddress chainId walletIndex address) := by
  intro r hr hlive
  obtain ⟨before, hbefore, rfl⟩ := List.mem_map.mp hr
  split at hlive
  · rename_i hat
    rw [if_pos hat]
    by_cases hprivate : before.isPrivateKey = true
    · obtain ⟨p, hprovider, hold⟩ := h before hbefore hlive
      rw [if_pos hprivate] at hold
      refine ⟨p, hprovider, ?_⟩
      rw [if_pos (show _ = true from hprivate)]
      refine ⟨hold.1, ?_⟩
      intro hneg
      have hindex : before.walletIndex = walletIndex := hat.2
      have : before.walletIndex < 0 := hneg
      omega
    · have hsame := hrow before hbefore hlive hat.1 hat.2 (by simpa using hprivate)
      obtain rfl := hsame
      exact h before hbefore hlive
  · rename_i hat
    rw [if_neg hat]
    exact h before hbefore hlive

theorem getRelayer_some {id : RelayerId} {r : RelayerRecord} (h : db.getRelayer id = some r) :
    r ∈ db ∧ r.deleted = false := by
  have hmem := List.mem_of_find?_eq_some h
  have hfound := List.find?_some h
  simp only [Bool.and_eq_true, Bool.not_eq_true'] at hfound
  exact ⟨hmem, hfound.2⟩

theorem managerIndex_normal {r : RelayerRecord} (hnormal : r.isPrivateKey = false)
    (hnonneg : 0 ≤ r.walletIndex) (hmax : r.walletIndex ≤ maxNormalWalletIndex) :
    r.managerIndex = some r.walletIndex.toNat := by
  unfold RelayerRecord.managerIndex
  rw [hnormal]
  exact WalletIndex.fromDbValue_normal hnonneg hmax

theorem not_configuredKeys_of_supportsKeyImport {m : WalletManager}
    (h : m.supportsKeyImport = true) : m.configuredKeys = none := by
  cases m with
  | primary manager => rfl
  | privateKeys manager => cases h
  | composite manager => cases h

/-- A manager that imports keys holds no private keys, so every live index is a normal one. -/
theorem AllDerived.index_nonneg (h : AllDerived providers db) {chainId : ChainId} {p : EvmProvider}
    (hprovider : findProviderForChainId providers chainId = some p)
    (himports : p.walletManager.supportsKeyImport = true) {r : RelayerRecord} (hr : r ∈ db)
    (hchain : r.chainId = chainId) (hlive : r.deleted = false) : 0 ≤ r.walletIndex := by
  have hnokeys := not_configuredKeys_of_supportsKeyImport himports
  obtain ⟨q, hq, hderived⟩ := h r hr hlive
  rw [hchain, hprovider] at hq
  obtain rfl := Option.some.inj hq
  cases hprivate : r.isPrivateKey with
  | true =>
    rw [if_pos hprivate, hnokeys] at hderived
    simp at hderived
  | false =>
    rw [if_neg (by simp [hprivate])] at hderived
    exact hderived.1

theorem AllDerived.change (hchange : Change providers request db db')
    (h : AllDerived providers db) : AllDerived providers db' := by
  cases hchange with
  | deleted _ relayerId served =>
      intro r hr hlive
      obtain ⟨before, hbefore, rfl⟩ := List.mem_map.mp hr
      split at hlive
      · cases hlive
      · rename_i hid
        rw [if_neg hid]
        exact h before hbefore hlive
  | created _ newId chainId insertServed readServed p walletIndex address hprovider hindex haddress =>
      obtain ⟨hnonneg, hmax, hbelow⟩ := nextNormalWalletIndex_spec hindex
      have hchain := findProviderForChainId_chainId hprovider
      apply AllDerived.updateAddress _ hnonneg
      · intro r hr hlive hrchain hat hnormal
        rcases List.mem_append.mp hr with hr | hr
        · have hlt := hbelow r hr hrchain hnormal hlive
          omega
        · rw [List.mem_singleton.mp hr]
          rfl
      · apply h.append
        refine ⟨p, hprovider, ?_⟩
        rw [if_neg (by simp [createdRecord])]
        refine ⟨hnonneg, hmax, ?_⟩
        rw [EvmProvider.createWallet, hchain] at haddress
        exact haddress
  | cloned _ newId relayerId chainId insertServed readServed p source hprovider hclones hsource
      hnormal hroot haddress =>
      have hchain := findProviderForChainId_chainId hprovider
      obtain ⟨hmem, hlive⟩ := getRelayer_some hsource
      obtain ⟨q, -, hderived⟩ := h source hmem hlive
      rw [if_neg (by simp [hnormal])] at hderived
      obtain ⟨hnonneg, hmax, -⟩ := hderived
      apply h.append
      refine ⟨p, hprovider, ?_⟩
      rw [if_neg (by simp [cloneRecord, hnormal])]
      refine ⟨hnonneg, hmax, ?_⟩
      rw [EvmProvider.cloneWallet, managerIndex_normal hnormal hnonneg hmax] at haddress
      rw [hchain] at haddress
      exact haddress
  | imported _ newId chainId address lookupServed keyStoreAccepts insertServed p walletIndex hprovider
      himports hfree hindex haddress =>
      have hchain := findProviderForChainId_chainId hprovider
      obtain ⟨-, hmax, hnonneg⟩ := nextIndex_spec hindex
      have hnonneg : 0 ≤ walletIndex := by
        apply hnonneg
        intro r hr
        obtain ⟨hr, hfilter⟩ := List.mem_filter.mp hr
        simp only [Bool.and_eq_true, beq_iff_eq, Bool.not_eq_true'] at hfilter
        exact h.index_nonneg hprovider himports hr hfilter.1 hfilter.2
      have hwidth : (walletIndex % 2 ^ 32).toNat = walletIndex.toNat := by
        simp only [maxNormalWalletIndex] at hmax
        omega
      apply h.append
      refine ⟨p, hprovider, ?_⟩
      rw [if_neg (by simp [createdRecord])]
      refine ⟨hnonneg, hmax, ?_⟩
      rw [hwidth, hchain] at haddress
      exact haddress
  | importedPrivateKey _ chainId turns p keys index address hprovider hkeys hlength haddress hfree =>
      apply h.append
      refine ⟨p, hprovider, ?_⟩
      rw [if_pos (by simp [privateKeyRecord])]
      constructor
      · simp [hkeys]
      · intro _
        simpa only [privateKeyRecord] using haddress

theorem allDerived_run (requests : List RelayerRequest) :
    AllDerived providers (run (RelayerTable.step providers) [] requests) := by
  have hrun : ∀ (db : RelayerTable), AllDerived providers db →
      AllDerived providers (run (RelayerTable.step providers) db requests) := by
    induction requests with
    | nil => intro db hdb; exact hdb
    | cons request requests ih =>
        intro db hdb
        apply ih
        exact step_preserves (fun _ _ _ hchange hbefore => hbefore.change hchange) hdb
  apply hrun
  intro r hr
  cases hr

end Invariant

end RelayerTable

section Agreement

variable {p : EvmProvider} {r : RelayerRecord}

theorem map_address_eq_ok {result : Except WalletError SigningKey} {address : EvmAddress} :
    result.map (·.address) = .ok address ↔ ∃ key, result = .ok key ∧ key.address = address := by
  cases result with
  | error e => simp [Except.map]
  | ok key => simp [Except.map]

/-- A normal row is signed for through the lookup its address was read with. -/
theorem EvmProvider.signsFor_normal (hnormal : r.isPrivateKey = false)
    (hnonneg : 0 ≤ r.walletIndex) (hmax : r.walletIndex ≤ maxNormalWalletIndex)
    (haddress : p.walletManager.getAddress r.walletIndex.toNat r.walletManagerChainId =
      .ok r.address) :
    p.SignsFor r := by
  unfold EvmProvider.SignsFor EvmProvider.signer
  rw [RelayerTable.managerIndex_normal hnormal hnonneg hmax]
  exact map_address_eq_ok.mp haddress

theorem managerIndex_privateKey (hprivate : r.isPrivateKey = true) :
    r.managerIndex = if r.walletIndex < 0 ∧ i32Min < r.walletIndex then
      some (u32Max - privateKeyPosition r.walletIndex) else none := by
  unfold RelayerRecord.managerIndex
  rw [hprivate]
  exact WalletIndex.fromDbValue_privateKey

/-- A private-key row is signed for by its key, whatever manager its address was read from. -/
theorem EvmProvider.signsFor_privateKey (hprivate : r.isPrivateKey = true)
    (hkeys : p.walletManager.configuredKeys.isSome)
    (haddress : r.walletIndex < 0 →
      p.getAddress (privateKeyPosition r.walletIndex) = .ok r.address) :
    p.SignsFor r ↔ p.KeyAtItsAddress r.walletIndex := by
  unfold EvmProvider.SignsFor EvmProvider.signer
  rw [managerIndex_privateKey hprivate]
  by_cases hvalid : r.walletIndex < 0 ∧ i32Min < r.walletIndex
  · obtain ⟨hneg, hmin⟩ := hvalid
    have haddress := map_address_eq_ok.mp (haddress hneg)
    obtain ⟨hlow, hhigh, -⟩ := privateKeyPosition_low hneg hmin
    have hnotHigh : ¬ minPrivateKeyWalletManagerIndex ≤ privateKeyPosition r.walletIndex := by omega
    simp only [hneg, hmin, and_self, if_true, EvmProvider.KeyAtItsAddress, true_and]
    cases hmanager : p.walletManager with
    | primary m => simp [hmanager, WalletManager.configuredKeys] at hkeys
    | privateKeys m =>
        simp only [hmanager, WalletManager.getWallet] at haddress
        simp only [WalletManager.signer, WalletManager.getWallet, iff_true]
        obtain ⟨key, hkey, hown⟩ := haddress
        exact ⟨key, (m.getWallet_high hneg hmin).mpr hkey, hown⟩
    | composite m =>
        simp only [hmanager, WalletManager.configuredKeys] at hkeys
        obtain ⟨keys, hkeys⟩ := Option.isSome_iff_exists.mp hkeys
        simp only [hmanager, WalletManager.getWallet, CompositeWalletManager.getWallet,
          WalletIndex.isPrivateKeyManagerIndex, decide_eq_false hnotHigh, Bool.false_eq_true,
          if_false] at haddress
        simp only [WalletManager.signer, WalletManager.getWallet, CompositeWalletManager.getWallet,
          WalletIndex.isPrivateKeyManagerIndex, decide_eq_true hhigh, if_true, hkeys,
          CompositeWalletManager.SharesAddress]
        obtain ⟨other, hother, hstored⟩ := haddress
        constructor
        · rintro ⟨own, hown, haddr⟩
          exact ⟨keys, own, other, rfl, (keys.getWallet_high hneg hmin).mp hown, hother,
            haddr.trans hstored.symm⟩
        · rintro ⟨keys', own, other', hkeys', hown, hother', hshare⟩
          obtain rfl := Option.some.inj hkeys'
          obtain rfl := Except.ok.inj (hother.symm.trans hother')
          exact ⟨own, (keys.getWallet_high hneg hmin).mpr hown, hshare.trans hstored⟩
  · rw [if_neg hvalid]
    constructor
    · rintro ⟨key, hkey, -⟩
      cases hkey
    · rintro ⟨hneg, hmin, -⟩
      exact absurd ⟨hneg, hmin⟩ hvalid

end Agreement

/-- In every run each live relayer is signed for by the key of its stored address, except that
a private-key relayer is so only where its key sits at the address that was asked for. -/
theorem address_signed_iff (providers : List EvmProvider) (requests : List RelayerRequest)
    (r : RelayerRecord) (hr : r ∈ run (RelayerTable.step providers) [] requests)
    (hlive : r.deleted = false) :
    ∃ p, findProviderForChainId providers r.chainId = some p ∧
      (p.SignsFor r ↔ (r.isPrivateKey = true → p.KeyAtItsAddress r.walletIndex)) := by
  obtain ⟨p, hprovider, hderived⟩ := RelayerTable.allDerived_run requests r hr hlive
  refine ⟨p, hprovider, ?_⟩
  cases hprivate : r.isPrivateKey with
  | false =>
      rw [if_neg (by simp [hprivate])] at hderived
      obtain ⟨hnonneg, hmax, haddress⟩ := hderived
      have hsigns := EvmProvider.signsFor_normal hprivate hnonneg hmax haddress
      simp [hsigns]
  | true =>
      rw [if_pos hprivate] at hderived
      obtain ⟨hkeys, haddress⟩ := hderived
      rw [EvmProvider.signsFor_privateKey hprivate hkeys haddress]
      simp

/-- A mnemonic whose index `n` signs for address `100 + n`, beside one private key for address
`7`. -/
def mixedProvider : EvmProvider where
  chainId := 1
  walletManager := .composite {
    primaryManager := mnemonicWalletManager fun n => { secret := n, address := 100 + n }
    privateKeyManager := some {
      privateKeys := ["0x07"]
      parse := fun _ => some { secret := 7, address := 7 } } }

def startupTurn : PrivateKeyImport where
  newId := 1
  lookupServed := true
  insertServed := true
  readServed := true

/-- A restart imports the key, then a relayer is created from the mnemonic. -/
def mixedRequests : List RelayerRequest :=
  [.importPrivateKeys 1 fun _ => startupTurn, .create 2 1 true true]

theorem mixedRequests_run : run (RelayerTable.step [mixedProvider]) [] mixedRequests =
    [RelayerTable.privateKeyRecord 1 1 (-1) 100, RelayerTable.createdRecord 2 1 0 100] := by
  decide +kernel

theorem address_signed_iff_mixed :
    ∃ p, findProviderForChainId [mixedProvider] 1 = some p ∧
      (p.SignsFor (RelayerTable.createdRecord 2 1 0 100) ↔
        ((RelayerTable.createdRecord 2 1 0 100).isPrivateKey = true → p.KeyAtItsAddress 0)) := by
  apply address_signed_iff [mixedProvider] mixedRequests (RelayerTable.createdRecord 2 1 0 100)
  · rw [mixedRequests_run]
    simp
  · rfl

theorem address_signed_fails : ¬ ∀ providers, AddressesSigned providers := by
  intro h
  obtain ⟨p, hp, key, hkey, haddress⟩ := h [mixedProvider] mixedRequests
    (RelayerTable.privateKeyRecord 1 1 (-1) 100) (by rw [mixedRequests_run]; simp) rfl
  obtain rfl : mixedProvider = p := by
    have hfirst : findProviderForChainId [mixedProvider] 1 = some mixedProvider := rfl
    exact Option.some.inj (hfirst.symm.trans hp)
  have hsigner : mixedProvider.signer (RelayerTable.privateKeyRecord 1 1 (-1) 100) =
      .ok { secret := 7, address := 7 } := rfl
  rw [hsigner] at hkey
  obtain rfl := Except.ok.inj hkey
  revert haddress
  decide

end Rrelayer
