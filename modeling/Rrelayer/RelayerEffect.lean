import Rrelayer.Relayers
import Rrelayer.Lib.Machine
import Mathlib.Data.List.MinMax

/-! What one request can do to the relayer table: nothing, soft-delete a row, or add one row.
Everything later is read off this summary. -/
namespace Rrelayer

/-- No live relayer of the chain has the address. -/
def RelayerTable.AddressFree (db : RelayerTable) (chainId : ChainId) (address : EvmAddress) :
    Prop :=
  ∀ r ∈ db, r.deleted = false → r.chainId = chainId → r.address ≠ address

instance (db : RelayerTable) (chainId : ChainId) (address : EvmAddress) :
    Decidable (db.AddressFree chainId address) :=
  inferInstanceAs (Decidable (∀ r ∈ db, _))

namespace RelayerTable

/-- The changes a request can make to the table, each with what was checked on the way. -/
inductive Change (providers : List EvmProvider) : RelayerRequest → RelayerTable →
    RelayerTable → Prop
  | deleted (db : RelayerTable) (relayerId : RelayerId) (served : Bool) :
      Change providers (.delete relayerId served) db (db.deleteRelayer relayerId)
  | created (db : RelayerTable) (newId : RelayerId) (chainId : ChainId) (insertServed readServed)
      (p : EvmProvider) (walletIndex : ℤ) (address : EvmAddress)
      (hprovider : findProviderForChainId providers chainId = some p)
      (hindex : db.nextNormalWalletIndex chainId = some walletIndex)
      (haddress : p.createWallet walletIndex.toNat = .ok address) :
      Change providers (.create newId chainId insertServed readServed) db
        ((db ++ [createdRecord newId chainId walletIndex address]).updateAddress chainId
          walletIndex address)
  | cloned (db : RelayerTable) (newId relayerId : RelayerId) (chainId : ChainId)
      (insertServed readServed) (p : EvmProvider) (source : RelayerRecord)
      (hprovider : findProviderForChainId providers chainId = some p)
      (hclones : p.canClone = true) (hsource : db.getRelayer relayerId = some source)
      (hnormal : source.isPrivateKey = false) (hroot : source.clonedFromChainId = none)
      (haddress : p.cloneWallet source = .ok source.address) :
      Change providers (.clone newId relayerId chainId insertServed readServed) db
        (db ++ [cloneRecord newId chainId source source.address])
  | imported (db : RelayerTable) (newId : RelayerId) (chainId : ChainId) (address : EvmAddress)
      (lookupServed keyStoreAccepts insertServed) (p : EvmProvider) (walletIndex : ℤ)
      (hprovider : findProviderForChainId providers chainId = some p)
      (himports : p.walletManager.supportsKeyImport = true)
      (hfree : db.AddressFree chainId address)
      (hindex : db.getNextWalletIndex chainId = some walletIndex)
      (haddress : p.walletManager.getAddress (walletIndex % 2 ^ 32).toNat (.chainId p.chainId) =
        .ok address) :
      Change providers (.importKey newId chainId address lookupServed keyStoreAccepts insertServed)
        db (db ++ [createdRecord newId chainId walletIndex address])
  | importedPrivateKey (db : RelayerTable) (chainId : ChainId) (turns : ℕ → PrivateKeyImport)
      (p : EvmProvider) (keys : PrivateKeyWalletManager) (index : ℕ) (address : EvmAddress)
      (hprovider : findProviderForChainId providers chainId = some p)
      (hkeys : p.walletManager.configuredKeys = some keys) (hlength : index < keys.privateKeys.length)
      (haddress : p.getAddress (privateKeyPosition (privateKeyWalletIndex index)) = .ok address)
      (hfree : (turns index).lookupServed = true → db.AddressFree chainId address ∨
        ∃ message, db.getRelayerByAddress true address chainId = .error message) :
      Change providers (.importPrivateKeys chainId turns) db
        (db ++ [privateKeyRecord (turns index).newId chainId (privateKeyWalletIndex index) address])

section Lookups

variable {db db' : RelayerTable} {served : Bool} {row : RelayerRecord} {chainId : ChainId}
  {address : EvmAddress}

theorem insert_eq_some (h : db.insert served row = some db') : db' = db ++ [row] := by
  unfold insert at h
  split at h
  · exact (Option.some.inj h).symm
  · cases h

theorem getRelayerByAddress_none (h : db.getRelayerByAddress served address chainId = .ok none) :
    db.AddressFree chainId address := by
  unfold getRelayerByAddress at h
  split at h
  · cases h
  · split at h
    · rename_i hnil
      intro r hr hlive hchain haddr
      have hmem : r ∈ db.filter fun r => r.address == address && r.chainId == chainId && !r.deleted := by
        simp [List.mem_filter, hr, hlive, hchain, haddr]
      rw [hnil] at hmem
      cases hmem
    · cases h
    · cases h

end Lookups

/-- The position the import asks for is the one it looked the address up at. -/
theorem privateKeyPosition_privateKeyWalletIndex (index : ℕ) :
    privateKeyPosition (privateKeyWalletIndex index) = index % 2 ^ 32 := by
  have hmod : (-privateKeyWalletIndex index - 1) % 2 ^ 32 = (index : ℤ) % 2 ^ 32 := by
    unfold privateKeyWalletIndex
    rw [Int.bmod_def]
    split <;> omega
  have hcast : ((index : ℤ) % 2 ^ 32).toNat = index % 2 ^ 32 := by omega
  unfold privateKeyPosition
  rw [hmod, hcast]

section Requests

variable {providers : List EvmProvider} {db db' : RelayerTable} {served readServed : Bool}
  {newId relayerId : RelayerId} {chainId : ChainId} {p : EvmProvider}

theorem createRelayer_write (db : RelayerTable) (served : Bool) (newId : RelayerId)
    (chainId : ChainId) (p : EvmProvider) (readServed : Bool) (mode : CreateRelayerMode) :
    (db.createRelayer served newId chainId p readServed mode).2 = db ∨
      db.createRelayerWrite served newId chainId p mode =
        .ok (db.createRelayer served newId chainId p readServed mode).2 := by
  unfold createRelayer
  cases hwrite : db.createRelayerWrite served newId chainId p mode with
  | error e => left; rfl
  | ok db' =>
      right
      cases readServed
      · rfl
      · simp only [Bool.not_true, Bool.false_eq_true, if_false]
        cases db'.getRelayer newId <;> rfl

theorem cloneable_ok {source : RelayerRecord} (h : cloneable chainId p source = .ok ()) :
    source.isPrivateKey = false ∧ p.canClone = true ∧ source.clonedFromChainId = none := by
  unfold cloneable at h
  cases hprivate : source.isPrivateKey with
  | true => simp [hprivate] at h
  | false =>
      cases hclone : p.canClone with
      | false => simp [hprivate, hclone] at h
      | true =>
          cases hroot : source.clonedFromChainId with
          | none => exact ⟨rfl, rfl, rfl⟩
          | some clonedFrom => simp [hprivate, hclone, hroot] at h

theorem cloneRelayer_ok (h : db.cloneRelayer served newId chainId p relayerId = .ok db') :
    p.canClone = true ∧ ∃ source, db.getRelayer relayerId = some source ∧
      source.isPrivateKey = false ∧ source.clonedFromChainId = none ∧ p.cloneWallet source = .ok source.address ∧
      db' = db ++ [cloneRecord newId chainId source source.address] := by
  unfold cloneRelayer at h
  cases hsource : db.getRelayer relayerId with
  | none => simp [hsource] at h
  | some source =>
      simp only [hsource] at h
      cases hcloneable : cloneable chainId p source with
      | error e => simp [hcloneable] at h
      | ok u =>
          simp only [hcloneable] at h
          obtain ⟨hnormal, hclones, hroot⟩ := cloneable_ok hcloneable
          cases hwallet : p.cloneWallet source with
          | error e => simp [hwallet] at h
          | ok address =>
              simp only [hwallet] at h
              split at h
              · cases h
              · rename_i heq
                have heq : address = source.address := by simpa using heq
                subst heq
                cases hinsert : db.insert served
                    (cloneRecord newId chainId source source.address) with
                | none => simp [hinsert] at h
                | some after =>
                    simp only [hinsert, Except.ok.injEq] at h
                    subst h
                    exact ⟨hclones, source, rfl, hnormal, hroot, hwallet, insert_eq_some hinsert⟩

theorem createNormalRelayer_ok (h : db.createNormalRelayer served newId chainId p = .ok db') :
    ∃ walletIndex address, db.nextNormalWalletIndex chainId = some walletIndex ∧
      p.createWallet walletIndex.toNat = .ok address ∧
      db' = (db ++ [createdRecord newId chainId walletIndex address]).updateAddress chainId
        walletIndex address := by
  unfold createNormalRelayer at h
  cases hindex : db.nextNormalWalletIndex chainId with
  | none => simp [hindex] at h
  | some walletIndex =>
      simp only [hindex] at h
      cases hwallet : p.createWallet walletIndex.toNat with
      | error e => simp [hwallet] at h
      | ok address =>
          simp only [hwallet] at h
          cases hinsert : db.insert served (createdRecord newId chainId walletIndex address) with
          | none => simp [hinsert] at h
          | some after =>
              simp only [hinsert, Except.ok.injEq] at h
              subst h
              exact ⟨walletIndex, address, rfl, hwallet, by rw [insert_eq_some hinsert]⟩

theorem importPrivateKeyRelayer_ok {walletIndex : ℤ}
    (h : db.importPrivateKeyRelayer served newId chainId p walletIndex = .ok db') :
    ∃ address, p.getAddress (privateKeyPosition walletIndex) = .ok address ∧
      db' = db ++ [privateKeyRecord newId chainId walletIndex address] := by
  unfold importPrivateKeyRelayer at h
  cases hwallet : p.getAddress (privateKeyPosition walletIndex) with
  | error e => simp [hwallet] at h
  | ok address =>
      simp only [hwallet] at h
      cases hinsert : db.insert served (privateKeyRecord newId chainId walletIndex address) with
      | none => simp [hinsert] at h
      | some after =>
          simp only [hinsert, Except.ok.injEq] at h
          subst h
          exact ⟨address, rfl, insert_eq_some hinsert⟩

theorem createRelayer_change (hprovider : findProviderForChainId providers chainId = some p) :
    (db.createRelayer served newId chainId p readServed .create).2 = db ∨
      Change providers (.create newId chainId served readServed) db
        (db.createRelayer served newId chainId p readServed .create).2 := by
  rcases db.createRelayer_write served newId chainId p readServed .create with hsame | hwrite
  · exact .inl hsame
  · obtain ⟨walletIndex, address, hindex, hwallet, hafter⟩ := createNormalRelayer_ok hwrite
    right
    rw [hafter]
    exact .created db newId chainId _ _ p walletIndex address hprovider hindex hwallet

theorem cloneRelayer_change (hprovider : findProviderForChainId providers chainId = some p)
    (relayerId : RelayerId) :
    (db.createRelayer served newId chainId p readServed (.clone relayerId)).2 = db ∨
      Change providers (.clone newId relayerId chainId served readServed) db
        (db.createRelayer served newId chainId p readServed (.clone relayerId)).2 := by
  rcases db.createRelayer_write served newId chainId p readServed (.clone relayerId) with
    hsame | hwrite
  · exact .inl hsame
  · obtain ⟨hclones, source, hsource, hnormal, hroot, haddress, hafter⟩ := cloneRelayer_ok hwrite
    right
    rw [hafter]
    exact .cloned db newId relayerId chainId _ _ p source hprovider hclones hsource hnormal hroot
      haddress

theorem importRelayer_change {address : EvmAddress} {lookupServed keyStoreAccepts : Bool}
    (hprovider : findProviderForChainId providers chainId = some p) :
    db.importRelayer p newId chainId address lookupServed keyStoreAccepts served = db ∨
      Change providers (.importKey newId chainId address lookupServed keyStoreAccepts served) db
        (db.importRelayer p newId chainId address lookupServed keyStoreAccepts served) := by
  unfold importRelayer
  cases hsupports : p.walletManager.supportsKeyImport with
  | false => left; simp
  | true =>
      cases honly : p.privateKeyOnly with
      | true => left; simp
      | false =>
          simp only [Bool.not_true, Bool.or_self, Bool.false_eq_true, if_false]
          cases hlookup : db.getRelayerByAddress lookupServed address chainId with
          | error message => left; rfl
          | ok found =>
              cases found with
              | some r => left; rfl
              | none =>
                  cases hindex : db.getNextWalletIndex chainId with
                  | none => left; rfl
                  | some walletIndex =>
                      simp only
                      cases haccept : p.importExistingKey keyStoreAccepts
                          (walletIndex % 2 ^ 32).toNat address with
                      | false => left; simp
                      | true =>
                          simp only [if_true]
                          cases hinsert : db.insert served
                              (createdRecord newId chainId walletIndex address) with
                          | none => left; rfl
                          | some db' =>
                              right
                              rw [Option.getD_some, insert_eq_some hinsert]
                              have haddress := (Bool.and_eq_true_iff.mp haccept).2
                              exact .imported db newId chainId address _ _ _ p walletIndex hprovider
                                hsupports (getRelayerByAddress_none hlookup) hindex
                                (of_decide_eq_true haddress)

theorem importPrivateKeyAsRelayer_change (db : RelayerTable) (turns : ℕ → PrivateKeyImport)
    {index : ℕ} {keys : PrivateKeyWalletManager}
    (hprovider : findProviderForChainId providers chainId = some p)
    (hkeys : p.walletManager.configuredKeys = some keys)
    (hlength : index < keys.privateKeys.length) :
    let after := db.importPrivateKeyAsRelayer (turns index).insertServed (turns index).newId chainId p
      (turns index).lookupServed (turns index).readServed index
    after = db ∨ Change providers (.importPrivateKeys chainId turns) db after := by
  intro after
  have hafter : after = db.importPrivateKeyAsRelayer (turns index).insertServed (turns index).newId
    chainId p (turns index).lookupServed (turns index).readServed index := rfl
  unfold importPrivateKeyAsRelayer at hafter
  rw [← privateKeyPosition_privateKeyWalletIndex] at hafter
  cases hfound : p.getAddress (privateKeyPosition (privateKeyWalletIndex index)) with
  | error e => left; simpa [hfound] using hafter
  | ok found =>
      simp only [hfound] at hafter
      have hcreated (hfree : (turns index).lookupServed = true → db.AddressFree chainId found ∨
            ∃ message, db.getRelayerByAddress true found chainId = .error message)
          (hlast : after = (db.createRelayer (turns index).insertServed (turns index).newId chainId p
            (turns index).readServed (.privateKeyImport (privateKeyWalletIndex index))).2) :
          after = db ∨ Change providers (.importPrivateKeys chainId turns) db after := by
        have hwrite := db.createRelayer_write (turns index).insertServed (turns index).newId chainId
          p (turns index).readServed (.privateKeyImport (privateKeyWalletIndex index))
        rw [← hlast] at hwrite
        rcases hwrite with hsame | hwrite
        · exact .inl hsame
        · obtain ⟨address, haddress, hdb⟩ := importPrivateKeyRelayer_ok hwrite
          obtain rfl : found = address := Except.ok.inj (hfound.symm.trans haddress)
          right
          rw [hdb]
          exact .importedPrivateKey db chainId turns p keys index found hprovider hkeys hlength
            haddress hfree
      cases hlookup : db.getRelayerByAddress (turns index).lookupServed found chainId with
      | error message =>
          simp only [hlookup] at hafter
          apply hcreated _ hafter
          intro hserved
          rw [hserved] at hlookup
          exact .inr ⟨message, hlookup⟩
      | ok existing =>
          cases existing with
          | some r => left; simpa [hlookup] using hafter
          | none =>
              simp only [hlookup] at hafter
              apply hcreated _ hafter
              intro _
              exact .inl (getRelayerByAddress_none hlookup)

/-- What every change of a request keeps, the request keeps. Only the import loop makes more
than one. -/
theorem step_preserves {I : RelayerTable → Prop} {request : RelayerRequest}
    (hchange : ∀ before after, before = db ∨ (∃ chainId turns,
      request = .importPrivateKeys chainId turns) →
      Change providers request before after → I before → I after) (hdb : I db) :
    I (db.step providers request) := by
  have hcreate : ∀ {after : RelayerTable}, after = db ∨ Change providers request db after →
      I after := by
    intro after h
    rcases h with rfl | h
    · exact hdb
    · exact hchange _ _ (.inl rfl) h hdb
  cases request with
  | create newId chainId insertServed readServed =>
      simp only [step]
      cases hprovider : findProviderForChainId providers chainId with
      | none => exact hdb
      | some p =>
          simp only
          split
          · exact hdb
          · exact hcreate (createRelayer_change hprovider)
  | clone newId relayerId chainId insertServed readServed =>
      simp only [step]
      cases hprovider : findProviderForChainId providers chainId with
      | none => exact hdb
      | some p =>
          exact hcreate (cloneRelayer_change hprovider relayerId)
  | importKey newId chainId address lookupServed keyStoreAccepts insertServed =>
      simp only [step]
      cases hprovider : findProviderForChainId providers chainId with
      | none => exact hdb
      | some p => exact hcreate (importRelayer_change hprovider)
  | importPrivateKeys chainId turns =>
      simp only [step]
      cases hprovider : findProviderForChainId providers chainId with
      | none => exact hdb
      | some p =>
          simp only [importPrivateKeysAsRelayers]
          cases hkeys : p.walletManager.configuredKeys with
          | none => exact hdb
          | some keys =>
              apply List.foldlRecOn
              · exact hdb
              · intro before hbefore index hindex
                have hlength := List.mem_range.mp hindex
                rcases importPrivateKeyAsRelayer_change before turns hprovider hkeys hlength
                  with hsame | hstep
                · rw [hsame]
                  exact hbefore
                · exact hchange _ _ (.inr ⟨chainId, turns, rfl⟩) hstep hbefore
  | delete relayerId served =>
      simp only [step]
      cases served with
      | false => exact hdb
      | true => exact hchange _ _ (.inl rfl) (.deleted db relayerId true) hdb

end Requests

end RelayerTable

end Rrelayer
