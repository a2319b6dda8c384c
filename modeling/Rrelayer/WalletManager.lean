import Rrelayer.Transaction

/-! Wallet indexes and the managers that hold the signing keys. The database keeps private keys
at negative indexes, the managers at the top of the 32-bit range, everything else below. -/
namespace Rrelayer

def maxNormalWalletIndex : ℕ := 2 ^ 31 - 1

def minPrivateKeyWalletManagerIndex : ℕ := maxNormalWalletIndex + 2

def u32Max : ℕ := 2 ^ 32 - 1

def i32Min : ℤ := -(2 : ℤ) ^ 31

/-- The checked constructors of the source are the only ones here. -/
inductive WalletIndex where
  | normal (index : ℕ) (inRange : index ≤ maxNormalWalletIndex)
  | privateKey (dbIndex : ℤ) (negative : dbIndex < 0) (inRange : i32Min < dbIndex)

def WalletIndex.fromDbValue (dbValue : ℤ) (isPrivateKey : Bool) : Option WalletIndex :=
  if isPrivateKey then
    if hneg : dbValue < 0 then
      if hmin : i32Min < dbValue then some (.privateKey dbValue hneg hmin) else none
    else none
  else if dbValue < 0 then none
  else if h : dbValue.toNat ≤ maxNormalWalletIndex then some (.normal dbValue.toNat h)
  else none

def WalletIndex.isPrivateKeyManagerIndex (walletIndex : ℕ) : Bool :=
  minPrivateKeyWalletManagerIndex ≤ walletIndex

def WalletIndex.index : WalletIndex → ℕ
  | .normal index _ => index
  | .privateKey dbIndex _ _ => u32Max - (-dbIndex - 1).toNat

inductive WalletManagerChainId where
  | chainId (chainId : ChainId)
  | cloned (clonedFrom clonedTo : ChainId)
  deriving DecidableEq, Repr

def WalletManagerChainId.main : WalletManagerChainId → ChainId
  | .chainId c => c
  | .cloned _ clonedTo => clonedTo

def WalletManagerChainId.clonedFromChainIdOrDefault : WalletManagerChainId → ChainId
  | .chainId c => c
  | .cloned clonedFrom _ => clonedFrom

inductive WalletError where
  | invalidIndex (index maxIndex : ℕ)
  | privateKeyError (message : String)
  | unsupportedOperation (message : String)
  | signer (message : String)
  deriving DecidableEq, Repr

/-- A key able to sign, with the address it signs for. -/
structure SigningKey where
  secret : ℕ
  address : EvmAddress
  deriving DecidableEq, Repr

/-- A manager other than the private-key one. Creating a wallet, reading its address and signing
all reach the same entry, looked up by index and chain. -/
structure PrimaryManager where
  getWallet : ℕ → WalletManagerChainId → Except WalletError SigningKey
  supportsBlobs : Bool
  supportsKeyImport : Bool
  /-- What `EvmProvider::new_with_*` passes when the manager stands alone. -/
  canClone : Bool

/-- Derives every index from one phrase; the chain only enters the signature. -/
def mnemonicWalletManager (derive : ℕ → SigningKey) : PrimaryManager where
  getWallet index _ := .ok (derive index)
  supportsBlobs := true
  supportsKeyImport := false
  canClone := true

structure PrivateKeyWalletManager where
  privateKeys : List String
  parse : String → Option SigningKey

namespace PrivateKeyWalletManager

variable (m : PrivateKeyWalletManager)

def checkInternalIndex (walletIndex internalIndex : ℕ) : Except WalletError ℕ :=
  if internalIndex < m.privateKeys.length then .ok internalIndex
  else .error (.invalidIndex walletIndex m.privateKeys.length)

/-- High indexes count down from the top of the range, low ones are positions already. -/
def convertToInternalIndex (walletIndex : ℕ) : Except WalletError ℕ :=
  if WalletIndex.isPrivateKeyManagerIndex walletIndex then
    m.checkInternalIndex walletIndex (u32Max - walletIndex)
  else m.checkInternalIndex walletIndex walletIndex

def getWallet (index : ℕ) : Except WalletError SigningKey :=
  match m.convertToInternalIndex index with
  | .error e => .error e
  | .ok internalIndex =>
      match m.privateKeys[internalIndex]? with
      | none => .error (.invalidIndex index m.privateKeys.length)
      | some privateKey =>
          match m.parse privateKey with
          | none => .error (.privateKeyError "Invalid private key")
          | some wallet => .ok wallet

def supportsBlobs (_ : PrivateKeyWalletManager) : Bool := true

end PrivateKeyWalletManager

structure CompositeWalletManager where
  primaryManager : PrimaryManager
  privateKeyManager : Option PrivateKeyWalletManager

/-- `get_manager_for_index`, followed by the lookup in the manager it picks. -/
def CompositeWalletManager.getWallet (m : CompositeWalletManager) (walletIndex : ℕ)
    (chainId : WalletManagerChainId) : Except WalletError SigningKey :=
  if WalletIndex.isPrivateKeyManagerIndex walletIndex then
    match m.privateKeyManager with
    | some manager => manager.getWallet walletIndex
    | none => .error (.unsupportedOperation
        s!"Private key wallet index {walletIndex} requested but no private key manager configured")
  else m.primaryManager.getWallet walletIndex chainId

/-- Either manager's support counts, whichever of them holds the key. -/
def CompositeWalletManager.supportsBlobs (m : CompositeWalletManager) : Bool :=
  m.primaryManager.supportsBlobs || m.privateKeyManager.any (·.supportsBlobs)

inductive WalletManager where
  | primary (manager : PrimaryManager)
  | privateKeys (manager : PrivateKeyWalletManager)
  | composite (manager : CompositeWalletManager)

namespace WalletManager

def getWallet (m : WalletManager) (walletIndex : ℕ) (chainId : WalletManagerChainId) :
    Except WalletError SigningKey :=
  match m with
  | .primary manager => manager.getWallet walletIndex chainId
  | .privateKeys manager => manager.getWallet walletIndex
  | .composite manager => manager.getWallet walletIndex chainId

def createWallet (m : WalletManager) (walletIndex : ℕ) (chainId : WalletManagerChainId) :
    Except WalletError EvmAddress :=
  (m.getWallet walletIndex chainId).map (·.address)

def getAddress (m : WalletManager) (walletIndex : ℕ) (chainId : WalletManagerChainId) :
    Except WalletError EvmAddress :=
  (m.getWallet walletIndex chainId).map (·.address)

/-- The key `sign_transaction`, `sign_text` and `sign_typed_data` sign with. -/
def signer (m : WalletManager) (walletIndex : ℕ) (chainId : WalletManagerChainId) :
    Except WalletError SigningKey :=
  m.getWallet walletIndex chainId

def supportsBlobs : WalletManager → Bool
  | .primary manager => manager.supportsBlobs
  | .privateKeys manager => manager.supportsBlobs
  | .composite manager => manager.supportsBlobs

/-- The composite manager keeps the default of the trait. -/
def supportsKeyImport : WalletManager → Bool
  | .primary manager => manager.supportsKeyImport
  | .privateKeys _ => false
  | .composite _ => false

/-- The private keys configured for the network. -/
def configuredKeys : WalletManager → Option PrivateKeyWalletManager
  | .primary _ => none
  | .privateKeys manager => some manager
  | .composite manager => manager.privateKeyManager

end WalletManager

structure EvmProvider where
  chainId : ChainId
  walletManager : WalletManager

namespace EvmProvider

variable (p : EvmProvider)

def canClone : Bool :=
  match p.walletManager with
  | .primary manager => manager.canClone
  | .privateKeys _ => false
  | .composite _ => true

/-- Membership in `private_key_only_networks`. -/
def privateKeyOnly : Bool :=
  match p.walletManager with
  | .privateKeys _ => true
  | _ => false

def createWallet (walletIndex : ℕ) : Except WalletError EvmAddress :=
  p.walletManager.createWallet walletIndex (.chainId p.chainId)

def getAddress (walletIndex : ℕ) : Except WalletError EvmAddress :=
  p.walletManager.getAddress walletIndex (.chainId p.chainId)

end EvmProvider

def findProviderForChainId (providers : List EvmProvider) (chainId : ChainId) :
    Option EvmProvider :=
  providers.find? fun p => p.chainId == chainId

theorem findProviderForChainId_chainId {providers : List EvmProvider} {chainId : ChainId}
    {p : EvmProvider} (h : findProviderForChainId providers chainId = some p) :
    p.chainId = chainId := by
  simpa using List.find?_some h

section Indexes

variable {dbValue : ℤ} {w : WalletIndex}

theorem WalletIndex.fromDbValue_normal (h : 0 ≤ dbValue)
    (hmax : dbValue ≤ maxNormalWalletIndex) :
    (WalletIndex.fromDbValue dbValue false).map (·.index) = some dbValue.toNat := by
  have hneg : ¬ dbValue < 0 := by omega
  have hle : dbValue.toNat ≤ maxNormalWalletIndex := by omega
  simp [WalletIndex.fromDbValue, hneg, hle, WalletIndex.index]

/-- The position in the key list that a negative database index stands for. -/
def privateKeyPosition (dbValue : ℤ) : ℕ := ((-dbValue - 1) % 2 ^ 32).toNat

theorem privateKeyPosition_eq (hneg : dbValue < 0) (hmin : i32Min < dbValue) :
    privateKeyPosition dbValue = (-dbValue - 1).toNat := by
  unfold privateKeyPosition
  simp only [i32Min] at hmin
  congr 1
  omega

theorem privateKeyPosition_low (hneg : dbValue < 0) (hmin : i32Min < dbValue) :
    privateKeyPosition dbValue < minPrivateKeyWalletManagerIndex ∧
      minPrivateKeyWalletManagerIndex ≤ u32Max - privateKeyPosition dbValue ∧
      u32Max - (u32Max - privateKeyPosition dbValue) = privateKeyPosition dbValue := by
  rw [privateKeyPosition_eq hneg hmin]
  simp only [minPrivateKeyWalletManagerIndex, maxNormalWalletIndex, u32Max, i32Min] at *
  omega

theorem WalletIndex.fromDbValue_privateKey :
    (WalletIndex.fromDbValue dbValue true).map (·.index) =
      if dbValue < 0 ∧ i32Min < dbValue then some (u32Max - privateKeyPosition dbValue)
      else none := by
  by_cases hneg : dbValue < 0
  · by_cases hmin : i32Min < dbValue
    · have hposition := privateKeyPosition_eq hneg hmin
      simp [WalletIndex.fromDbValue, WalletIndex.index, hposition, hneg, hmin]
    · simp [WalletIndex.fromDbValue, hneg, hmin]
  · simp [WalletIndex.fromDbValue, hneg]

/-- The key manager reads a position and its high-range index alike. -/
theorem PrivateKeyWalletManager.getWallet_high (m : PrivateKeyWalletManager)
    (hneg : dbValue < 0) (hmin : i32Min < dbValue) :
    m.getWallet (u32Max - privateKeyPosition dbValue) = .ok k ↔
      m.getWallet (privateKeyPosition dbValue) = .ok k := by
  obtain ⟨hlow, hhigh, hback⟩ := privateKeyPosition_low hneg hmin
  have hnot : ¬ minPrivateKeyWalletManagerIndex ≤ privateKeyPosition dbValue := by omega
  simp only [getWallet, convertToInternalIndex, WalletIndex.isPrivateKeyManagerIndex,
    decide_eq_true hhigh, decide_eq_false hnot, checkInternalIndex, hback, if_true]
  by_cases hlen : privateKeyPosition dbValue < m.privateKeys.length
  · simp [hlen]
  · simp [hlen]

end Indexes

end Rrelayer
