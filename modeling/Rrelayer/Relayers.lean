import Rrelayer.WalletManager
import Mathlib.Data.List.Basic

/-! The relayer records and the requests that create, clone, import and delete them. Relayer ids
and what the database and an outside key store answer are inputs of the request. -/
namespace Rrelayer

/-- A row of `relayer.record`, as far as signing identities go. -/
structure RelayerRecord where
  id : RelayerId
  chainId : ChainId
  clonedFromChainId : Option ChainId
  address : EvmAddress
  walletIndex : ℤ
  isPrivateKey : Bool
  deleted : Bool
  deriving DecidableEq, Repr

namespace RelayerRecord

variable (r : RelayerRecord)

/-- `Relayer::wallet_index`; absent where the source panics on an invalid namespace. -/
def managerIndex : Option ℕ :=
  (WalletIndex.fromDbValue r.walletIndex r.isPrivateKey).map (·.index)

def walletManagerChainId : WalletManagerChainId :=
  match r.clonedFromChainId with
  | some clonedFrom => .cloned clonedFrom r.chainId
  | none => .chainId r.chainId

/-- The rows `idx_relayer_live_normal_root_wallet_namespace` ranges over. -/
def liveNormalRoot : Bool :=
  !r.deleted && !r.isPrivateKey && decide (0 ≤ r.walletIndex) && r.clonedFromChainId.isNone

end RelayerRecord

def invalidNamespace : WalletError :=
  .signer "persisted relayer wallet namespace must be valid"

def EvmProvider.cloneWallet (p : EvmProvider) (relayer : RelayerRecord) :
    Except WalletError EvmAddress :=
  match relayer.managerIndex with
  | none => .error invalidNamespace
  | some index => p.walletManager.createWallet index (.cloned relayer.chainId p.chainId)

/-- The key behind every signature asked for in the relayer's name. -/
def EvmProvider.signer (p : EvmProvider) (relayer : RelayerRecord) : Except WalletError SigningKey :=
  match relayer.managerIndex with
  | none => .error invalidNamespace
  | some index => p.walletManager.signer index relayer.walletManagerChainId

abbrev RelayerTable := List RelayerRecord

namespace RelayerTable

variable (db : RelayerTable)

def getRelayer (id : RelayerId) : Option RelayerRecord :=
  db.find? fun r => r.id == id && !r.deleted

/-- A single row is expected; several are an error of the query. -/
def getRelayerByAddress (served : Bool) (address : EvmAddress) (chainId : ChainId) :
    Except String (Option RelayerRecord) :=
  if !served then .error "database"
  else
    match db.filter fun r => r.address == address && r.chainId == chainId && !r.deleted with
    | [] => .ok none
    | [r] => .ok (some r)
    | _ => .error "query returned an unexpected number of rows"

/-- `COALESCE(MAX(wallet_index), -1) + 1`, an error when it leaves the column's range. -/
def nextIndex (rows : RelayerTable) : Option ℤ :=
  let next := (rows.map (·.walletIndex)).max?.getD (-1) + 1
  if next ≤ maxNormalWalletIndex then some next else none

def nextNormalWalletIndex (chainId : ChainId) : Option ℤ :=
  nextIndex (db.filter fun r =>
    r.chainId == chainId && !r.isPrivateKey && !r.deleted && decide (0 ≤ r.walletIndex))

/-- Takes private-key rows into account as well. -/
def getNextWalletIndex (chainId : ChainId) : Option ℤ :=
  nextIndex (db.filter fun r => r.chainId == chainId && !r.deleted)

/-- Whether the primary key or the unique index refuses the row. -/
def conflicts (row : RelayerRecord) : Bool :=
  db.any fun r => r.id == row.id ||
    (r.liveNormalRoot && row.liveNormalRoot && r.chainId == row.chainId &&
      r.walletIndex == row.walletIndex)

def insert (served : Bool) (row : RelayerRecord) : Option RelayerTable :=
  if served && !db.conflicts row then some (db ++ [row]) else none

/-- Every row at the index takes the address, deleted and cloned ones too. -/
def updateAddress (chainId : ChainId) (walletIndex : ℤ) (address : EvmAddress) : RelayerTable :=
  db.map fun r =>
    if r.chainId = chainId ∧ r.walletIndex = walletIndex then { r with address } else r

def deleteRelayer (id : RelayerId) : RelayerTable :=
  db.map fun r => if r.id = id then { r with deleted := true } else r

end RelayerTable

inductive CreateRelayerMode where
  | clone (relayerId : RelayerId)
  | create
  | privateKeyImport (walletIndex : ℤ)
  deriving DecidableEq, Repr

inductive CreateRelayerError where
  | couldNotSaveRelayerDb (chainId : ChainId)
  | noSaveRelayerInitInfoReturnedDb (chainId : ChainId)
  | walletError (chainId : ChainId) (error : WalletError)
  | relayerNotFound (relayerId : RelayerId)
  | cannotClonePrivateKeyRelayer (relayerId : RelayerId)
  | cannotCloneProviderRelayer (relayerId : RelayerId)
  | cloneReturnedWrongAddress (returned expected : EvmAddress)
  | canNotCloneAClonedRelayer (address : EvmAddress) (chainId target clonedFrom : ChainId)
      (walletIndex : ℤ)
  | walletCreationFailed (error : WalletError)
  deriving DecidableEq, Repr

namespace RelayerTable

variable (db : RelayerTable) (served : Bool) (newId : RelayerId) (chainId : ChainId)
  (p : EvmProvider)

/-- The row may be cloned: it was not imported, the provider clones, and it is no clone. -/
def cloneable (source : RelayerRecord) : Except CreateRelayerError Unit :=
  if source.isPrivateKey then .error (.cannotClonePrivateKeyRelayer source.id)
  else if !p.canClone then .error (.cannotCloneProviderRelayer source.id)
  else
    match source.clonedFromChainId with
    | some clonedFrom => .error (.canNotCloneAClonedRelayer source.address source.chainId chainId
        clonedFrom source.walletIndex)
    | none => .ok ()

def cloneRecord (source : RelayerRecord) (address : EvmAddress) : RelayerRecord where
  id := newId
  chainId := chainId
  clonedFromChainId := some source.chainId
  address := address
  walletIndex := source.walletIndex
  isPrivateKey := source.isPrivateKey
  deleted := false

/-- No row of the target chain is looked at. -/
def cloneRelayer (relayerId : RelayerId) : Except CreateRelayerError RelayerTable :=
  match db.getRelayer relayerId with
  | none => .error (.relayerNotFound relayerId)
  | some source =>
      match cloneable chainId p source with
      | .error e => .error e
      | .ok () =>
          match p.cloneWallet source with
          | .error e => .error (.walletError chainId e)
          | .ok address =>
              if address ≠ source.address then
                .error (.cloneReturnedWrongAddress address source.address)
              else
                match db.insert served (cloneRecord newId chainId source address) with
                | none => .error (.couldNotSaveRelayerDb chainId)
                | some db' => .ok db'

def createdRecord (walletIndex : ℤ) (address : EvmAddress) : RelayerRecord where
  id := newId
  chainId := chainId
  clonedFromChainId := none
  address := address
  walletIndex := walletIndex
  isPrivateKey := false
  deleted := false

/-- One database transaction: it inserts a row without address, derives the wallet and then
writes the address. A wallet that cannot be derived panics, and nothing is kept. -/
def createNormalRelayer : Except CreateRelayerError RelayerTable :=
  match db.nextNormalWalletIndex chainId with
  | none => .error (.couldNotSaveRelayerDb chainId)
  | some walletIndex =>
      match p.createWallet walletIndex.toNat with
      | .error e => .error (.walletCreationFailed e)
      | .ok address =>
          match db.insert served (createdRecord newId chainId walletIndex address) with
          | none => .error (.couldNotSaveRelayerDb chainId)
          | some db' => .ok (db'.updateAddress chainId walletIndex address)

def privateKeyRecord (walletIndex : ℤ) (address : EvmAddress) : RelayerRecord where
  id := newId
  chainId := chainId
  clonedFromChainId := none
  address := address
  walletIndex := walletIndex
  isPrivateKey := true
  deleted := false

/-- The address is asked for at the position in the key list, below the high range. -/
def importPrivateKeyRelayer (walletIndex : ℤ) : Except CreateRelayerError RelayerTable :=
  match p.getAddress (privateKeyPosition walletIndex) with
  | .error e => .error (.walletError chainId e)
  | .ok address =>
      match db.insert served (privateKeyRecord newId chainId walletIndex address) with
      | none => .error (.couldNotSaveRelayerDb chainId)
      | some db' => .ok db'

/-- What `create_relayer` writes. -/
def createRelayerWrite : CreateRelayerMode → Except CreateRelayerError RelayerTable
  | .clone relayerId => db.cloneRelayer served newId chainId p relayerId
  | .create => db.createNormalRelayer served newId chainId p
  | .privateKeyImport walletIndex => db.importPrivateKeyRelayer served newId chainId p walletIndex

/-- A row that was written stays, also when it cannot be read back. -/
def createRelayer (readServed : Bool) (mode : CreateRelayerMode) :
    Except CreateRelayerError RelayerRecord × RelayerTable :=
  match db.createRelayerWrite served newId chainId p mode with
  | .error e => (.error e, db)
  | .ok db' =>
      if !readServed then (.error (.couldNotSaveRelayerDb chainId), db')
      else
        match db'.getRelayer newId with
        | some relayer => (.ok relayer, db')
        | none => (.error (.noSaveRelayerInitInfoReturnedDb chainId), db')

/-- The database index of the private key at a position, in 32-bit arithmetic. -/
def privateKeyWalletIndex (index : ℕ) : ℤ := Int.bmod (-((index : ℤ) + 1)) (2 ^ 32)

/-- One turn of the loop of `import_private_keys_as_relayers`. A lookup that fails does not stop
the import. -/
def importPrivateKeyAsRelayer (lookupServed readServed : Bool) (index : ℕ) : RelayerTable :=
  match p.getAddress (index % 2 ^ 32) with
  | .error _ => db
  | .ok address =>
      match db.getRelayerByAddress lookupServed address chainId with
      | .ok (some _) => db
      | _ => (db.createRelayer served newId chainId p readServed
          (.privateKeyImport (privateKeyWalletIndex index))).2

end RelayerTable

/-- What the database answers during one turn of the import loop, and the id it would give. -/
structure PrivateKeyImport where
  newId : RelayerId
  lookupServed : Bool
  insertServed : Bool
  readServed : Bool

/-- The keys of one network, in order. -/
def RelayerTable.importPrivateKeysAsRelayers (db : RelayerTable) (chainId : ChainId)
    (p : EvmProvider) (turns : ℕ → PrivateKeyImport) : RelayerTable :=
  match p.walletManager.configuredKeys with
  | none => db
  | some keys =>
      (List.range keys.privateKeys.length).foldl (fun db index =>
        db.importPrivateKeyAsRelayer (turns index).insertServed (turns index).newId chainId p
          (turns index).lookupServed (turns index).readServed index) db

/-- The alias of the imported key at the index: accepted when the key behind it has the address
the caller named. -/
def EvmProvider.importExistingKey (p : EvmProvider) (keyStoreAccepts : Bool) (walletIndex : ℕ)
    (expectedAddress : EvmAddress) : Bool :=
  keyStoreAccepts &&
    decide (p.walletManager.getAddress walletIndex (.chainId p.chainId) = .ok expectedAddress)

inductive RelayerRequest where
  | create (newId : RelayerId) (chainId : ChainId) (insertServed readServed : Bool)
  | clone (newId relayerId : RelayerId) (chainId : ChainId) (insertServed readServed : Bool)
  | importKey (newId : RelayerId) (chainId : ChainId) (address : EvmAddress)
      (lookupServed keyStoreAccepts insertServed : Bool)
  | importPrivateKeys (chainId : ChainId) (turns : ℕ → PrivateKeyImport)
  | delete (relayerId : RelayerId) (served : Bool)

/-- `import_relayer`: refused when the address is live on the chain or the lookup fails. -/
def RelayerTable.importRelayer (db : RelayerTable) (p : EvmProvider) (newId : RelayerId)
    (chainId : ChainId) (address : EvmAddress)
    (lookupServed keyStoreAccepts insertServed : Bool) : RelayerTable :=
  if p.privateKeyOnly || !p.walletManager.supportsKeyImport then db
  else
    match db.getRelayerByAddress lookupServed address chainId with
    | .ok none =>
        match db.getNextWalletIndex chainId with
        | none => db
        | some walletIndex =>
            if p.importExistingKey keyStoreAccepts (walletIndex % 2 ^ 32).toNat address then
              (db.insert insertServed
                (createdRecord newId chainId walletIndex address)).getD db
            else db
    | _ => db

/-- The relayer table after a request; a request that is refused leaves it as it is. -/
def RelayerTable.step (providers : List EvmProvider) (db : RelayerTable) :
    RelayerRequest → RelayerTable
  | .create newId chainId insertServed readServed =>
      match findProviderForChainId providers chainId with
      | none => db
      | some p =>
          if p.privateKeyOnly then db
          else (db.createRelayer insertServed newId chainId p readServed .create).2
  | .clone newId relayerId chainId insertServed readServed =>
      match findProviderForChainId providers chainId with
      | none => db
      | some p => (db.createRelayer insertServed newId chainId p readServed (.clone relayerId)).2
  | .importKey newId chainId address lookupServed keyStoreAccepts insertServed =>
      match findProviderForChainId providers chainId with
      | none => db
      | some p => db.importRelayer p newId chainId address lookupServed keyStoreAccepts insertServed
  | .importPrivateKeys chainId turns =>
      match findProviderForChainId providers chainId with
      | none => db
      | some p => db.importPrivateKeysAsRelayers chainId p turns
  | .delete relayerId served => if served then db.deleteRelayer relayerId else db

end Rrelayer
