import Rrelayer.KmsKeys
import Rrelayer.SendError
import Rrelayer.Lib.Machine
import Mathlib.Data.List.Nodup

/-! Fireblocks vault accounts. A wallet of an instance has the vault of its name, which is looked
for in the list of the account and created when the list does not show it. -/
namespace Rrelayer

abbrev VaultId := ℕ

inductive FireblocksError where
  | configurationError (message : String)
  | apiError (message : String)
  | networkError
  | genericSignerError (message : String)
  | unsupportedChain (chainId : ChainId)
  deriving DecidableEq, Repr

/-- What comes of a request: it is not sent, it is answered with an error status, or its answer is
read or is not JSON. -/
inductive FireblocksResponse (α : Type) where
  | unsent (error : FireblocksError)
  | failed (status errorText : String)
  | unreadable (error : String)
  | json (answer : α)

def makeApiRequest {α : Type} : FireblocksResponse α → Except FireblocksError α
  | .unsent error => .error error
  | .failed status errorText =>
      .error (.apiError ("Fireblocks API error (" ++ status ++ "): " ++ errorText))
  | .unreadable error => .error (.genericSignerError ("Failed to parse JSON response: " ++ error))
  | .json answer => .ok answer

/-- An entry of the list of vaults; each field may be missing. -/
structure ListedVault where
  name : Option String
  id : Option VaultId
  deriving DecidableEq, Repr

/-- Fireblocks as the manager meets it, and the parser its addresses go through. What an account
holds is not known, only which name a vault has and which address an asset in it. Each call is given
its course, which is up to Fireblocks and the network, and leaves an account and an answer, with
`none` where the answer lacks what is read of it; the answer may be lost although the call was
carried out. -/
structure FireblocksService where
  Account : Type
  Course : Type
  name : Account → VaultId → Option String
  address : Account → VaultId × String → Option String
  listVaults : Account → Course → FireblocksResponse (Option (List ListedVault))
  createVault : Account → String → Course → Account × FireblocksResponse (Option VaultId)
  getAsset : Account → VaultId → String → Course → FireblocksResponse (Option String)
  getAddresses : Account → VaultId → String → Course → FireblocksResponse (Option String)
  createAsset : Account → VaultId → String → Course → Account × FireblocksResponse (Option String)
  parseAddress : String → Except String EvmAddress

namespace FireblocksService

variable (F : FireblocksService)

/-- Vaults keep their names, and assets their addresses. -/
structure Grows (account account' : F.Account) : Prop where
  names : Directory.Extends (F.name account) (F.name account')
  addresses : Directory.Extends (F.address account) (F.address account')

/-- What is taken for granted of Fireblocks. A vault is listed under its name, an address that is
answered is that of the asset. A call to create a vault makes one vault at most, of the name it is
given; a call to create an asset leaves the vaults as they are. Neither renames a vault or changes an
address. -/
structure Lawful : Prop where
  listVaults_name {account : F.Account} {course : F.Course} {vaults : List ListedVault}
    (h : F.listVaults account course = .json (some vaults)) {vault : ListedVault}
    (hvault : vault ∈ vaults) {name : String} {vaultId : VaultId} (hname : vault.name = some name)
    (hid : vault.id = some vaultId) : F.name account vaultId = some name
  createVault_grows (account : F.Account) (name : String) (course : F.Course) :
    F.Grows account (F.createVault account name course).1
  createVault_name {account : F.Account} {name other : String} {course : F.Course} {vaultId : VaultId}
    (h : F.name (F.createVault account name course).1 vaultId = some other) :
    F.name account vaultId = some other ∨ F.name account vaultId = none ∧ other = name
  createVault_one {account : F.Account} {name : String} {course : F.Course} {v v' : VaultId}
    (hv : F.name account v = none) (hv' : F.name account v' = none)
    (hnew : (F.name (F.createVault account name course).1 v).isSome = true)
    (hnew' : (F.name (F.createVault account name course).1 v').isSome = true) : v = v'
  createVault_id {account : F.Account} {name : String} {course : F.Course} {vaultId : VaultId}
    (h : (F.createVault account name course).2 = .json (some vaultId)) :
    F.name (F.createVault account name course).1 vaultId = some name
  getAsset_address {account : F.Account} {vaultId : VaultId} {assetId address : String}
    {course : F.Course} (h : F.getAsset account vaultId assetId course = .json (some address)) :
    F.address account (vaultId, assetId) = some address
  getAddresses_address {account : F.Account} {vaultId : VaultId} {assetId address : String}
    {course : F.Course} (h : F.getAddresses account vaultId assetId course = .json (some address)) :
    F.address account (vaultId, assetId) = some address
  createAsset_grows (account : F.Account) (vaultId : VaultId) (assetId : String)
    (course : F.Course) : F.Grows account (F.createAsset account vaultId assetId course).1
  createAsset_names (account : F.Account) (vaultId : VaultId) (assetId : String)
    (course : F.Course) :
    F.name (F.createAsset account vaultId assetId course).1 = F.name account
  createAsset_address {account : F.Account} {vaultId : VaultId} {assetId address : String}
    {course : F.Course}
    (h : (F.createAsset account vaultId assetId course).2 = .json (some address)) :
    F.address (F.createAsset account vaultId assetId course).1 (vaultId, assetId) = some address

end FireblocksService

inductive AssetStage where
  | checking | readingAddresses | creating
  deriving DecidableEq, Repr

/-- Where a call is past the cache. -/
inductive VaultStage where
  | listing
  | creating
  | asset (vaultId : VaultId) (stage : AssetStage)
  | caching (vaultId : VaultId) (address : EvmAddress)
  deriving DecidableEq, Repr

/-- What one answer makes of a call. -/
inductive VaultStep where
  | next (stage : VaultStage)
  | failed (error : FireblocksError)
  | done (vaultId : VaultId) (address : EvmAddress)
  deriving DecidableEq, Repr

def chainAssetMapping : List (ChainId × String) := [
  (1, "ETH"), (11155111, "ETH_TEST5"), (17000, "ETH_TEST5"),
  (137, "MATIC_POLYGON"), (80001, "MATIC_POLYGON"), (80002, "MATIC_POLYGON"),
  (42161, "ETH-AETH"), (421614, "ETH_TEST5"), (10, "ETH-OPT"), (11155420, "ETH_TEST5"),
  (8453, "BASECHAIN_ETH"), (84532, "ETH_TEST5"), (56, "BNB_BSC"), (97, "BNB_BSC"),
  (43114, "AVAX"), (43113, "AVAX"), (250, "FYM"), (100, "xDAI"), (42220, "CELO"),
  (59144, "LINEA"), (1284, "GLMR_GLMR"), (1285, "MOVR_MOVR"), (1313161554, "AURORA_DEV"),
  (592, "ASTR_ASTR"), (88888, "CHZ_CHZ2"), (9001, "EVMOS"), (2222, "KAVA"), (248, "OAS"),
  (30, "RBTC"), (106, "VLX_VLX"), (50, "XDC"), (51, "XDC"), (19, "SGB"), (7700, "CANTO"),
  (128, "HT_CHAIN"), (148, "SMR_SMR"), (10000, "SMARTBCH")]

def getAssetIdForChain (chainId : ChainId) : Option String := chainAssetMapping.lookup chainId

/-- A wallet as Fireblocks is asked for it. -/
structure FireblocksWallet where
  identity : String
  chainId : ChainId
  walletIndex : ℕ
  deriving DecidableEq, Repr

def FireblocksWallet.vaultName (w : FireblocksWallet) : String :=
  "rrelayer-" ++ w.identity ++ "-wallet-" ++ toString w.chainId ++ "-" ++ toString w.walletIndex

/-- Vaults of different instances, chains or indexes have different names, though the name of an
instance may have dashes and digits. -/
theorem FireblocksWallet.vaultName_inj {w w' : FireblocksWallet} (h : w.vaultName = w'.vaultName) :
    w = w' := by
  -- Read from the end, a name starts with two numbers, each before a dash.
  have hchars := congrArg (fun name => name.toList.reverse) h
  have hdash : "-".toList = ['-'] := by decide
  have hwallet : "-wallet-".toList.reverse = '-' :: "tellaw-".toList := by decide
  simp only [vaultName, String.toList_append, Nat.toString_eq_ofList_toDigits,
    String.toList_ofList, List.reverse_append, List.append_assoc, hdash, hwallet,
    List.nil_append, List.reverse_cons, List.cons_append] at hchars
  have hdigits (n : ℕ) : '-' ∉ (Nat.toDigits 10 n).reverse := fun hmem =>
    dash_not_mem_toDigits n (List.mem_reverse.mp hmem)
  obtain ⟨hindex, hchars⟩ := Encoding.peel_separated (hdigits _) (hdigits _) hchars
  obtain ⟨hchain, hchars⟩ := Encoding.peel_separated (hdigits _) (hdigits _) hchars
  have hidentity : w.identity = w'.identity := by
    have hreversed := List.append_cancel_right (List.append_cancel_left hchars)
    exact String.toList_inj.mp (List.reverse_injective hreversed)
  have hindex : w.walletIndex = w'.walletIndex := toDigits_inj (List.reverse_injective hindex)
  have hchain : w.chainId = w'.chainId := toDigits_inj (List.reverse_injective hchain)
  obtain ⟨identity, chainId, walletIndex⟩ := w
  obtain rfl : identity = w'.identity := hidentity
  obtain rfl : chainId = w'.chainId := hchain
  obtain rfl : walletIndex = w'.walletIndex := hindex
  rfl

namespace Fireblocks

variable {F : FireblocksService} (account : F.Account)

/-- Whether an error is taken for the answer that the asset is not there. -/
def isNotFound : FireblocksError → Bool
  | .apiError message => contains message "404" || contains message "not found"
  | _ => false

/-- The address of the asset is parsed and goes to the cache. -/
def addressRead (F : FireblocksService) (vaultId : VaultId) (address : String) : VaultStep :=
  match F.parseAddress address with
  | .ok address => .next (.caching vaultId address)
  | .error e => .failed (.genericSignerError ("Invalid address format: " ++ e))

/-- `get_or_create_chain_asset`, one call to Fireblocks at a time. -/
def getOrCreateChainAsset (vaultId : VaultId) (assetId : String) (course : F.Course) :
    AssetStage → F.Account × VaultStep
  | .checking =>
      (account, match makeApiRequest (F.getAsset account vaultId assetId course) with
        | .ok (some address) => addressRead F vaultId address
        | .ok none => .next (.asset vaultId .readingAddresses)
        | .error e => if isNotFound e then .next (.asset vaultId .creating) else .failed e)
  | .readingAddresses =>
      (account, match makeApiRequest (F.getAddresses account vaultId assetId course) with
        | .ok (some address) => addressRead F vaultId address
        | .ok none =>
            .failed (.genericSignerError (assetId ++ " asset exists but has no addresses"))
        | .error _ =>
            .failed (.genericSignerError (assetId ++ " asset exists but failed to get addresses")))
  | .creating =>
      let (account, created) := F.createAsset account vaultId assetId course
      (account, match makeApiRequest created with
        | .ok (some address) => addressRead F vaultId address
        | .ok none => .failed (.genericSignerError ("Failed to get " ++ assetId ++ " asset address"))
        | .error e => .failed e)

/-- A vault is there; its asset comes next. -/
def vaultReady (chainId : ChainId) (vaultId : VaultId) : VaultStep :=
  match getAssetIdForChain chainId with
  | some _ => .next (.asset vaultId .checking)
  | none => .failed (.unsupportedChain chainId)

/-- The first vault of the list with the wallet's name is the wallet's. -/
def vaultListed (w : FireblocksWallet) (vaults : List ListedVault) : VaultStep :=
  match vaults.find? fun vault => vault.name == some w.vaultName with
  | some vault =>
      match vault.id with
      | some vaultId => vaultReady w.chainId vaultId
      | none => .failed (.genericSignerError "Vault account missing ID")
  | none => .next .creating

/-- `get_or_create_vault_account` past its cache, one call to Fireblocks at a time. Only the first
page of the list is looked through. -/
def getOrCreateVaultAccount (w : FireblocksWallet) (course : F.Course) :
    VaultStage → F.Account × VaultStep
  | .listing =>
      (account, match makeApiRequest (F.listVaults account course) with
        | .ok (some vaults) => vaultListed w vaults
        | .ok none => .failed (.genericSignerError
            "Invalid vault accounts response - missing 'accounts' field")
        | .error e => .failed e)
  | .creating =>
      let (account, created) := F.createVault account w.vaultName course
      (account, match makeApiRequest created with
        | .ok (some vaultId) => vaultReady w.chainId vaultId
        | .ok none => .failed (.genericSignerError "Failed to get vault account ID")
        | .error e => .failed e)
  | .asset vaultId stage =>
      match getAssetIdForChain w.chainId with
      | some assetId => getOrCreateChainAsset account vaultId assetId course stage
      | none => (account, .failed (.unsupportedChain w.chainId))
  | .caching vaultId address => (account, .done vaultId address)

end Fireblocks

structure FireblocksTask where
  process : ℕ
  wallet : FireblocksWallet
  stage : VaultStage
  deriving DecidableEq, Repr

/-- A vault handed out for a wallet: the one that signs for it, and its address. -/
structure VaultAnswer where
  wallet : FireblocksWallet
  vaultId : VaultId
  address : EvmAddress
  deriving DecidableEq, Repr

/-- The account, the processes over it, and what they have answered. -/
structure FireblocksWorld (F : FireblocksService) where
  account : F.Account
  walletCache : ℕ → ℕ × ChainId → Option (VaultId × EvmAddress)
  tasks : List FireblocksTask
  answers : List VaultAnswer

/-- A call for a wallet, an answer of Fireblocks to one of the calls in progress, a restart, or a
vault or an asset that somebody else creates. -/
inductive FireblocksEvent (F : FireblocksService) where
  | request (process walletIndex : ℕ) (chainId : ChainId)
  | reply (task : ℕ) (course : F.Course)
  | restart (process : ℕ)
  | otherVault (name : String) (course : F.Course)
  | otherAsset (vaultId : VaultId) (assetId : String) (course : F.Course)

namespace FireblocksWorld

variable {F : FireblocksService} (identity : ℕ → String) (s : FireblocksWorld F)

/-- A wallet as the instance of the process asks for it. -/
def walletOf (process walletIndex : ℕ) (chainId : ChainId) : FireblocksWallet :=
  ⟨identity process, chainId, walletIndex⟩

def request (process walletIndex : ℕ) (chainId : ChainId) : FireblocksWorld F :=
  match s.walletCache process (walletIndex, chainId) with
  | some (vaultId, address) => { s with
      answers := ⟨walletOf identity process walletIndex chainId, vaultId, address⟩ :: s.answers }
  | none => { s with
      tasks := s.tasks ++ [⟨process, walletOf identity process walletIndex chainId, .listing⟩] }

/-- A call goes on to its next stage or ends; one that is done leaves the vault in the cache of its
process. -/
def replied (i : ℕ) (t : FireblocksTask) : F.Account × VaultStep → FireblocksWorld F
  | (account, .next stage) => { s with
      account := account
      tasks := s.tasks.set i { t with stage := stage } }
  | (account, .failed _) => { s with account := account, tasks := s.tasks.eraseIdx i }
  | (account, .done vaultId address) => { s with
      account := account
      walletCache := Function.update s.walletCache t.process (Function.update
        (s.walletCache t.process) (t.wallet.walletIndex, t.wallet.chainId)
        (some (vaultId, address)))
      tasks := s.tasks.eraseIdx i
      answers := ⟨t.wallet, vaultId, address⟩ :: s.answers }

def step (s : FireblocksWorld F) : FireblocksEvent F → FireblocksWorld F
  | .request process walletIndex chainId => s.request identity process walletIndex chainId
  | .reply i course =>
      match s.tasks[i]? with
      | some t =>
          s.replied i t (Fireblocks.getOrCreateVaultAccount s.account t.wallet course t.stage)
      | none => s
  | .restart process => { s with
      walletCache := Function.update s.walletCache process fun _ => none
      tasks := s.tasks.filter (·.process != process) }
  | .otherVault name course => { s with account := (F.createVault s.account name course).1 }
  | .otherAsset vaultId assetId course =>
      { s with account := (F.createAsset s.account vaultId assetId course).1 }

abbrev run (s : FireblocksWorld F) (es : List (FireblocksEvent F)) : FireblocksWorld F :=
  EventMachine.run (step identity) s es

/-- An account in which no process has asked for anything yet. -/
def fresh (account : F.Account) : FireblocksWorld F := ⟨account, fun _ _ => none, [], []⟩

end FireblocksWorld

namespace Fireblocks

variable {F : FireblocksService} {account account' : F.Account} {vaultId v : VaultId}
  {assetId n : String} {a : EvmAddress} {w : FireblocksWallet} {course : F.Course}

theorem grows_refl (account : F.Account) : F.Grows account account := ⟨.refl _, .refl _⟩

/-- The vault has the wallet's name and, in the asset of its chain, the address. -/
structure Placed (account : F.Account) (w : FireblocksWallet) (vaultId : VaultId)
    (address : EvmAddress) : Prop where
  name : F.name account vaultId = some w.vaultName
  address : ∃ assetId ∈ getAssetIdForChain w.chainId, ∃ text,
    F.address account (vaultId, assetId) = some text ∧ F.parseAddress text = .ok address

theorem Placed.grows (h : Placed account w v a) (hgrows : F.Grows account account') :
    Placed account' w v a := by
  obtain ⟨assetId, hasset, text, haddress, hparsed⟩ := h.address
  exact ⟨hgrows.names _ _ h.name, assetId, hasset, text, hgrows.addresses _ _ haddress, hparsed⟩

/-- What a call knows of the vault it has come to. -/
def VaultKnown (account : F.Account) (w : FireblocksWallet) : VaultStage → Prop
  | .listing | .creating => True
  | .asset vaultId _ => F.name account vaultId = some w.vaultName
  | .caching vaultId address => Placed account w vaultId address

theorem VaultKnown.grows {stage : VaultStage} (h : VaultKnown account w stage)
    (hgrows : F.Grows account account') : VaultKnown account' w stage := by
  cases stage with
  | listing | creating => trivial
  | asset vaultId stage => exact hgrows.names _ _ h
  | caching vaultId address => exact Placed.grows h hgrows

/-- The account a call leaves: as it was, with the wallet's vault, or with an asset more. -/
inductive AccountLeaves (account : F.Account) (w : FireblocksWallet) (stage : VaultStage) :
    F.Account → Prop where
  | kept : AccountLeaves account w stage account
  | created (hstage : stage = .creating) (course : F.Course) :
      AccountLeaves account w stage (F.createVault account w.vaultName course).1
  | activated (vaultId : VaultId) (assetId : String) (course : F.Course) :
      AccountLeaves account w stage (F.createAsset account vaultId assetId course).1

theorem AccountLeaves.grows {stage : VaultStage} (hlaw : F.Lawful)
    (h : AccountLeaves account w stage account') : F.Grows account account' := by
  cases h with
  | kept => exact grows_refl _
  | created _ course => exact hlaw.createVault_grows account _ course
  | activated vaultId assetId course => exact hlaw.createAsset_grows account vaultId assetId course

/-- A vault that appears has the name of the wallet it was created for. -/
theorem AccountLeaves.names {stage : VaultStage} (hlaw : F.Lawful)
    (h : AccountLeaves account w stage account') (hname : F.name account' v = some n) :
    F.name account v = some n ∨
      stage = .creating ∧ n = w.vaultName ∧ F.name account v = none := by
  cases h with
  | kept => exact .inl hname
  | created hstage course =>
    rcases hlaw.createVault_name hname with hold | ⟨hnone, hn⟩
    · exact .inl hold
    · exact .inr ⟨hstage, hn, hnone⟩
  | activated vaultId assetId course =>
    rw [hlaw.createAsset_names] at hname
    exact .inl hname

/-- One vault appears at most. -/
theorem AccountLeaves.one {stage : VaultStage} {v' : VaultId} {n' : String} (hlaw : F.Lawful)
    (h : AccountLeaves account w stage account') (hv : F.name account v = none)
    (hv' : F.name account v' = none) (hnew : F.name account' v = some n)
    (hnew' : F.name account' v' = some n') : v = v' := by
  cases h with
  | kept =>
    rw [hv] at hnew
    cases hnew
  | created _ course =>
    exact hlaw.createVault_one hv hv' (Option.isSome_iff_exists.mpr ⟨_, hnew⟩)
      (Option.isSome_iff_exists.mpr ⟨_, hnew'⟩)
  | activated vaultId assetId course =>
    rw [hlaw.createAsset_names, hv] at hnew
    cases hnew

/-- What one answer makes of a call that knows its vault. -/
structure Advances (account : F.Account) (w : FireblocksWallet) (course : F.Course)
    (stage : VaultStage) (o : F.Account × VaultStep) : Prop where
  leaves : AccountLeaves account w stage o.1
  known : ∀ stage', o.2 = .next stage' → VaultKnown o.1 w stage'
  /-- Only a page that does not show the vault makes a call create one. -/
  absent : o.2 = .next .creating → stage = .listing ∧
    ∃ vaults, F.listVaults account course = .json (some vaults) ∧
      ∀ vault ∈ vaults, vault.name ≠ some w.vaultName
  done : ∀ v a, o.2 = .done v a → stage = .caching v a

section Advance

theorem json_of_ok {α : Type} {response : FireblocksResponse α} {answer : α}
    (h : makeApiRequest response = .ok answer) : response = .json answer := by
  cases response with
  | json given =>
    cases h
    rfl
  | unsent | failed | unreadable => cases h

theorem vaultReady_known (h : F.name account vaultId = some w.vaultName) {stage : VaultStage}
    (hready : vaultReady w.chainId vaultId = .next stage) :
    VaultKnown account w stage ∧ stage ≠ .creating := by
  unfold vaultReady at hready
  split at hready
  · cases hready
    exact ⟨h, nofun⟩
  · cases hready

theorem vaultReady_done (chainId : ChainId) : vaultReady chainId vaultId ≠ .done v a := by
  unfold vaultReady
  split <;> nofun

theorem Advances.failed {stage : VaultStage} {e : FireblocksError}
    (h : AccountLeaves account w stage account') :
    Advances account w course stage (account', .failed e) :=
  ⟨h, nofun, nofun, nofun⟩

/-- A call that has come to a vault of its name goes on with its asset. -/
theorem Advances.ready {stage : VaultStage} (h : AccountLeaves account w stage account')
    (hname : F.name account' vaultId = some w.vaultName) :
    Advances account w course stage (account', vaultReady w.chainId vaultId) :=
  ⟨h, fun _ hready => (vaultReady_known hname hready).1,
    fun hready => ((vaultReady_known hname hready).2 rfl).elim,
    fun _ _ hready => (vaultReady_done _ hready).elim⟩

/-- An address that is read is that of the asset. -/
theorem Advances.read {stage : VaultStage} {text : String}
    (h : AccountLeaves account w stage account')
    (hname : F.name account' vaultId = some w.vaultName)
    (hasset : assetId ∈ getAssetIdForChain w.chainId)
    (haddress : F.address account' (vaultId, assetId) = some text) :
    Advances account w course stage (account', addressRead F vaultId text) := by
  unfold addressRead
  split
  · rename_i hparsed
    refine ⟨h, fun _ hstage => ?_, nofun, nofun⟩
    cases hstage
    exact ⟨hname, assetId, hasset, text, haddress, hparsed⟩
  · exact .failed h

variable (hlaw : F.Lawful)
include hlaw

theorem listing_advances : Advances account w course .listing
    (getOrCreateVaultAccount account w course .listing) := by
  unfold getOrCreateVaultAccount
  dsimp only
  split
  · rename_i vaults hok
    have hlisted := json_of_ok hok
    unfold vaultListed
    split
    · rename_i vault hfind
      split
      · rename_i vaultId hid
        have hname : vault.name = some w.vaultName := by simpa using List.find?_some hfind
        exact .ready .kept
          (hlaw.listVaults_name hlisted (List.mem_of_find?_eq_some hfind) hname hid)
      · exact .failed .kept
    · rename_i hfind
      have habsent : ∀ vault ∈ vaults, vault.name ≠ some w.vaultName := by
        simpa using List.find?_eq_none.mp hfind
      refine ⟨.kept, fun stage h => ?_, fun _ => ⟨rfl, vaults, hlisted, habsent⟩, nofun⟩
      cases h
      trivial
  · exact .failed .kept
  · exact .failed .kept

theorem creating_advances : Advances account w course .creating
    (getOrCreateVaultAccount account w course .creating) := by
  have hleaves : AccountLeaves account w .creating (F.createVault account w.vaultName course).1 :=
    .created rfl course
  unfold getOrCreateVaultAccount
  dsimp only
  split
  · rename_i vaultId hok
    exact .ready hleaves (hlaw.createVault_id (json_of_ok hok))
  · exact .failed hleaves
  · exact .failed hleaves

theorem getOrCreateChainAsset_advances {stage : AssetStage}
    (hname : F.name account vaultId = some w.vaultName)
    (hasset : getAssetIdForChain w.chainId = some assetId) :
    Advances account w course (.asset vaultId stage)
      (getOrCreateChainAsset account vaultId assetId course stage) := by
  -- The next stage is at the same vault, which keeps its name.
  have hnext {stage' : AssetStage} : Advances account w course (.asset vaultId stage)
      (account, .next (.asset vaultId stage')) := by
    refine ⟨.kept, fun _ h => ?_, nofun, nofun⟩
    cases h
    exact hname
  cases stage with
  | checking =>
    unfold getOrCreateChainAsset
    dsimp only
    split
    · rename_i hok
      exact .read .kept hname hasset (hlaw.getAsset_address (json_of_ok hok))
    · exact hnext
    · split
      · exact hnext
      · exact .failed .kept
  | readingAddresses =>
    unfold getOrCreateChainAsset
    dsimp only
    split
    · rename_i hok
      exact .read .kept hname hasset (hlaw.getAddresses_address (json_of_ok hok))
    · exact .failed .kept
    · exact .failed .kept
  | creating =>
    have hleaves : AccountLeaves account w (.asset vaultId .creating)
      (F.createAsset account vaultId assetId course).1 := .activated vaultId assetId course
    unfold getOrCreateChainAsset
    dsimp only
    split
    · rename_i hok
      have hkept := (hlaw.createAsset_grows account vaultId assetId course).names _ _ hname
      exact .read hleaves hkept hasset (hlaw.createAsset_address (json_of_ok hok))
    · exact .failed hleaves
    · exact .failed hleaves

theorem getOrCreateVaultAccount_advances {stage : VaultStage} (h : VaultKnown account w stage) :
    Advances account w course stage (getOrCreateVaultAccount account w course stage) := by
  cases stage with
  | listing => exact listing_advances hlaw
  | creating => exact creating_advances hlaw
  | asset vaultId stage =>
    unfold getOrCreateVaultAccount
    dsimp only
    split
    · rename_i hasset
      exact getOrCreateChainAsset_advances hlaw h hasset
    · exact .failed .kept
  | caching vaultId cached =>
    refine ⟨.kept, nofun, nofun, fun v a h => ?_⟩
    cases h
    rfl

end Advance

end Fireblocks

namespace FireblocksWorld

open Fireblocks

variable {F : FireblocksService} {identity : ℕ → String} {s : FireblocksWorld F}
  {e : FireblocksEvent F} {account : F.Account} {i : ℕ} {t : FireblocksTask} {course : F.Course}
  {o : F.Account × VaultStep}

/-- Whatever is cached, pursued or handed out for a wallet is a vault of its name. -/
structure Vaulted (identity : ℕ → String) (s : FireblocksWorld F) : Prop where
  cached : ∀ process walletIndex chainId vaultId address,
    s.walletCache process (walletIndex, chainId) = some (vaultId, address) →
      Placed s.account (walletOf identity process walletIndex chainId) vaultId address
  tasks : ∀ t ∈ s.tasks,
    t.wallet.identity = identity t.process ∧ VaultKnown s.account t.wallet t.stage
  answers : ∀ a ∈ s.answers, Placed s.account a.wallet a.vaultId a.address

theorem Vaulted.grows (h : s.Vaulted identity) (hgrows : F.Grows s.account account) :
    Vaulted identity { s with account := account } where
  cached process walletIndex chainId vaultId address hcached :=
    (h.cached process walletIndex chainId vaultId address hcached).grows hgrows
  tasks t ht := ⟨(h.tasks t ht).1, (h.tasks t ht).2.grows hgrows⟩
  answers a ha := (h.answers a ha).grows hgrows

/-- What a call that is done leaves in the cache, beside what was there. -/
theorem replied_cached {vaultId v : VaultId} {address a : EvmAddress} {process : ℕ}
    {key : ℕ × ChainId} (h : (s.replied i t (account, .done vaultId address)).walletCache process
      key = some (v, a)) :
    s.walletCache process key = some (v, a) ∨
      process = t.process ∧ key = (t.wallet.walletIndex, t.wallet.chainId) ∧ v = vaultId ∧
        a = address := by
  dsimp only [FireblocksWorld.replied] at h
  by_cases hprocess : process = t.process
  · subst hprocess
    rw [Function.update_self] at h
    by_cases hkey : key = (t.wallet.walletIndex, t.wallet.chainId)
    · rw [hkey, Function.update_self] at h
      cases h
      exact .inr ⟨rfl, hkey, rfl, rfl⟩
    · rw [Function.update_of_ne hkey] at h
      exact .inl h
  · rw [Function.update_of_ne hprocess] at h
    exact .inl h

theorem Vaulted.replied (hlaw : F.Lawful) (h : s.Vaulted identity) (ht : t ∈ s.tasks)
    (hadvances : Advances s.account t.wallet course t.stage o) :
    (s.replied i t o).Vaulted identity := by
  have hgrown := h.grows (hadvances.leaves.grows hlaw)
  obtain ⟨hidentity, hknown⟩ := h.tasks t ht
  obtain ⟨account, step⟩ := o
  cases step with
  | next stage =>
    refine ⟨hgrown.cached, fun u hu => ?_, hgrown.answers⟩
    rcases List.mem_or_eq_of_mem_set hu with hu | rfl
    · exact hgrown.tasks u hu
    · exact ⟨hidentity, hadvances.known stage rfl⟩
  | failed e =>
    exact ⟨hgrown.cached, fun u hu => hgrown.tasks u (List.mem_of_mem_eraseIdx hu), hgrown.answers⟩
  | done vaultId address =>
    rw [hadvances.done vaultId address rfl] at hknown
    have hplaced : Placed account t.wallet vaultId address :=
      Placed.grows hknown (hadvances.leaves.grows hlaw)
    have hwallet :
        walletOf identity t.process t.wallet.walletIndex t.wallet.chainId = t.wallet := by
      unfold walletOf
      rw [← hidentity]
    refine ⟨fun process walletIndex chainId v a hcached => ?_,
      fun u hu => hgrown.tasks u (List.mem_of_mem_eraseIdx hu), fun a ha => ?_⟩
    · rcases replied_cached hcached with hcached | ⟨rfl, hkey, rfl, rfl⟩
      · exact hgrown.cached process walletIndex chainId v a hcached
      · obtain ⟨rfl, rfl⟩ := Prod.mk.inj hkey
        rw [hwallet]
        exact hplaced
    · rcases List.mem_cons.mp ha with rfl | ha
      · exact hplaced
      · exact hgrown.answers a ha

theorem Vaulted.step (hlaw : F.Lawful) (h : s.Vaulted identity) (e : FireblocksEvent F) :
    (s.step identity e).Vaulted identity := by
  cases e with
  | request process walletIndex chainId =>
    show (s.request identity process walletIndex chainId).Vaulted identity
    unfold request
    split
    · rename_i vaultId address hcached
      refine ⟨h.cached, h.tasks, fun a ha => ?_⟩
      rcases List.mem_cons.mp ha with rfl | ha
      · exact h.cached process walletIndex chainId vaultId address hcached
      · exact h.answers a ha
    · refine ⟨h.cached, fun t ht => ?_, h.answers⟩
      rcases List.mem_append.mp ht with ht | ht
      · exact h.tasks t ht
      · rw [List.mem_singleton.mp ht]
        exact ⟨rfl, trivial⟩
  | reply i course =>
    unfold FireblocksWorld.step
    dsimp only
    split
    · rename_i t ht
      have hmem : t ∈ s.tasks := List.mem_of_getElem? ht
      exact h.replied hlaw hmem (getOrCreateVaultAccount_advances hlaw (h.tasks t hmem).2)
    · exact h
  | restart process =>
    refine ⟨fun p walletIndex chainId vaultId address hcached => ?_,
      fun t ht => h.tasks t (List.mem_filter.mp ht).1, h.answers⟩
    dsimp only [FireblocksWorld.step] at hcached
    by_cases hprocess : p = process
    · rw [hprocess, Function.update_self] at hcached
      cases hcached
    · rw [Function.update_of_ne hprocess] at hcached
      exact h.cached p walletIndex chainId vaultId address hcached
  | otherVault name course => exact h.grows (hlaw.createVault_grows s.account name course)
  | otherAsset vaultId assetId course =>
    exact h.grows (hlaw.createAsset_grows s.account vaultId assetId course)

theorem vaulted_run (hlaw : F.Lawful) (account : F.Account) (es : List (FireblocksEvent F)) :
    ((fresh account).run identity es).Vaulted identity := by
  apply EventMachine.run_invariant
  · exact fun _ e h => h.step hlaw e
  · exact ⟨nofun, nofun, nofun⟩

/-- Wallets of different instances, chains or indexes never share a vault, and the address handed
out for a wallet is that of the vault which signs for it, whatever fails on the way and whatever
others create. -/
theorem wallets_isolated (hlaw : F.Lawful) (account : F.Account) (es : List (FireblocksEvent F)) :
    ∀ a ∈ ((fresh account).run identity es).answers,
      Placed ((fresh account).run identity es).account a.wallet a.vaultId a.address ∧
      ∀ b ∈ ((fresh account).run identity es).answers, a.vaultId = b.vaultId →
        a.wallet = b.wallet := by
  have hvaulted : ((fresh account).run identity es).Vaulted identity := vaulted_run hlaw account es
  intro a ha
  refine ⟨hvaulted.answers a ha, fun b hb hvault => ?_⟩
  have hname := (hvaulted.answers a ha).name
  rw [hvault, (hvaulted.answers b hb).name] at hname
  exact (FireblocksWallet.vaultName_inj (Option.some.inj hname)).symm

section Numbered

/-- A vault and the address of each asset in it. -/
structure VaultAccount where
  name : String
  assets : String → Option String

variable (accounts : List VaultAccount)

def vaultName (vaultId : VaultId) : Option String := accounts[vaultId]?.map (·.name)

def assetAddress (asset : VaultId × String) : Option String :=
  accounts[asset.1]?.bind (·.assets asset.2)

def addVault (name : String) : List VaultAccount := accounts ++ [⟨name, fun _ => none⟩]

/-- An asset that is activated keeps its address. -/
def activate (vaultId : VaultId) (assetId address : String) : List VaultAccount :=
  accounts.modify vaultId fun vault => { vault with
    assets := Function.update vault.assets assetId ((vault.assets assetId).or (some address)) }

/-- Vaults numbered as they were created. A call is turned down, or is carried out: a page of the list
shows these vaults, a new asset has this address. -/
def numberedFireblocks : FireblocksService where
  Account := List VaultAccount
  Course := Option (List VaultId × String)
  name := vaultName
  address := assetAddress
  listVaults accounts course := match course with
    | none => .failed "503 Service Unavailable" ""
    | some (page, _) => .json (some (page.map fun vaultId =>
        ⟨vaultName accounts vaultId, some vaultId⟩))
  createVault accounts name course := match course with
    | none => (accounts, .failed "503 Service Unavailable" "")
    | some _ => (addVault accounts name, .json (some accounts.length))
  getAsset accounts vaultId assetId course :=
    match course, assetAddress accounts (vaultId, assetId) with
    | none, _ => .failed "503 Service Unavailable" ""
    | some _, some address => .json (some address)
    | some _, none => .failed "404 Not Found" ""
  getAddresses accounts vaultId assetId course := match course with
    | none => .failed "503 Service Unavailable" ""
    | some _ => .json (assetAddress accounts (vaultId, assetId))
  createAsset accounts vaultId assetId course := match course with
    | none => (accounts, .failed "503 Service Unavailable" "")
    | some (_, address) =>
        let activated := activate accounts vaultId assetId address
        (activated, match assetAddress activated (vaultId, assetId) with
          | some address => .json (some address)
          | none => .failed "404 Not Found" "")
  parseAddress text :=
    if text = "0x0000000000000000000000000000000000000009" then .ok 9
    else .error "odd number of digits"

variable {accounts} {vaultId v : VaultId} {name n assetId text : String} {asset : VaultId × String}

theorem vaultName_addVault : vaultName (addVault accounts name) v =
    if v = accounts.length then some name else vaultName accounts v := by
  unfold vaultName addVault
  rcases lt_trichotomy v accounts.length with h | rfl | h
  · simp [List.getElem?_append_left h, h.ne]
  · simp
  · have hnew : (accounts ++ [⟨name, fun _ => none⟩])[v]? = none := by
      apply List.getElem?_eq_none
      rw [List.length_append, List.length_singleton]
      exact h
    simp [h.ne', hnew, List.getElem?_eq_none h.le]

theorem vaultName_last : vaultName accounts accounts.length = none := by
  simp [vaultName]

theorem assetAddress_addVault (h : assetAddress accounts asset = some text) :
    assetAddress (addVault accounts name) asset = some text := by
  unfold assetAddress at h ⊢
  obtain ⟨vault, hvault, haddress⟩ := Option.bind_eq_some_iff.mp h
  have hlt : asset.1 < accounts.length := (List.getElem?_eq_some_iff.mp hvault).1
  unfold addVault
  rw [List.getElem?_append_left hlt, hvault]
  exact haddress

theorem vaultName_activate :
    vaultName (activate accounts vaultId assetId text) = vaultName accounts := by
  funext v
  unfold vaultName activate
  rw [List.getElem?_modify]
  split
  · cases accounts[v]? <;> rfl
  · cases accounts[v]? <;> rfl

theorem assetAddress_activate {address : String} (h : assetAddress accounts asset = some text) :
    assetAddress (activate accounts vaultId assetId address) asset = some text := by
  unfold assetAddress at h ⊢
  obtain ⟨vault, hvault, haddress⟩ := Option.bind_eq_some_iff.mp h
  unfold activate
  rw [List.getElem?_modify, hvault]
  by_cases hid : vaultId = asset.1
  · by_cases hasset : asset.2 = assetId
    · subst hasset
      simp [hid, haddress]
    · simp [hid, haddress, hasset]
  · simp [hid, haddress]

theorem addVault_grows : numberedFireblocks.Grows accounts (addVault accounts name) where
  names v n hname := by
    show vaultName (addVault accounts name) v = some n
    have hold : vaultName accounts v = some n := hname
    have hne : v ≠ accounts.length := by
      rintro rfl
      rw [vaultName_last] at hold
      cases hold
    rw [vaultName_addVault, if_neg hne]
    exact hold
  addresses _ _ := assetAddress_addVault

theorem activate_grows :
    numberedFireblocks.Grows accounts (activate accounts vaultId assetId text) where
  names v _ hname := (congrFun vaultName_activate v).trans hname
  addresses _ _ := assetAddress_activate

/-- A vault that was not there is the last one. -/
theorem last_of_new (hnone : vaultName accounts v = none)
    (hnew : (vaultName (addVault accounts name) v).isSome = true) : v = accounts.length := by
  by_contra hne
  rw [vaultName_addVault, if_neg hne, hnone] at hnew
  cases hnew

theorem numberedFireblocks_lawful : numberedFireblocks.Lawful where
  listVaults_name {account course vaults} h vault hvault name vaultId hname hid := by
    cases course with
    | none => cases h
    | some shown =>
      cases h
      obtain ⟨listed, -, rfl⟩ := List.mem_map.mp hvault
      cases hid
      exact hname
  createVault_grows account name course := by
    cases course with
    | none => exact grows_refl _
    | some shown => exact addVault_grows
  createVault_name {account name other course vaultId} h := by
    cases course with
    | none => exact .inl h
    | some shown =>
      have hname := vaultName_addVault.symm.trans h
      split at hname
      next hlast =>
        subst hlast
        exact .inr ⟨vaultName_last, (Option.some.inj hname).symm⟩
      next => exact .inl hname
  createVault_one {account name course v v'} hv hv' hnew hnew' := by
    cases course with
    | none =>
      rw [show (numberedFireblocks.createVault account name none).1 = account from rfl, hv] at hnew
      cases hnew
    | some shown => exact (last_of_new hv hnew).trans (last_of_new hv' hnew').symm
  createVault_id {account name course vaultId} h := by
    cases course with
    | none => cases h
    | some shown =>
      cases h
      exact vaultName_addVault.trans (if_pos rfl)
  getAsset_address {account vaultId assetId address course} h := by
    dsimp only [numberedFireblocks] at h
    split at h
    next => cases h
    next heq =>
      cases h
      exact heq
    next => cases h
  getAddresses_address {account vaultId assetId address course} h := by
    cases course with
    | none => cases h
    | some shown => exact FireblocksResponse.json.inj h
  createAsset_grows account vaultId assetId course := by
    cases course with
    | none => exact grows_refl _
    | some shown => exact activate_grows
  createAsset_names account vaultId assetId course := by
    cases course with
    | none => rfl
    | some shown => exact vaultName_activate
  createAsset_address {account vaultId assetId address course} h := by
    cases course with
    | none => cases h
    | some shown =>
      dsimp only [numberedFireblocks] at h
      split at h
      next heq =>
        cases h
        exact heq
      next => cases h

end Numbered

/-- An account without vaults. -/
def noVaults : numberedFireblocks.Account := []

/-- The vault of a wallet is created and activated. -/
def vaultCreated : List (FireblocksEvent numberedFireblocks) := [
  .request 0 3 1,
  .reply 0 (some ([], "")),
  .reply 0 (some ([], "")),
  .reply 0 (some ([], "")),
  .reply 0 (some ([], "0x0000000000000000000000000000000000000009")),
  .reply 0 (some ([], ""))]

/-- After a restart the list shows it. -/
def vaultFound : List (FireblocksEvent numberedFireblocks) := [
  .restart 0,
  .request 0 3 1,
  .reply 0 (some ([0], "")),
  .reply 0 (some ([], "")),
  .reply 0 (some ([], ""))]

/-- The wallet of a call and of one after a restart is the same, and has the vault both hand out. -/
theorem wallets_isolated_found : ∃ a b,
    ((fresh noVaults).run (fun _ => "production") (vaultCreated ++ vaultFound)).answers = [a, b] ∧
      Placed ((fresh noVaults).run (fun _ => "production") (vaultCreated ++ vaultFound)).account
        a.wallet a.vaultId a.address ∧ a.wallet = b.wallet := by
  obtain ⟨a, b, hanswers, hvault⟩ : ∃ a b, ((fresh noVaults).run (fun _ => "production")
      (vaultCreated ++ vaultFound)).answers = [a, b] ∧ a.vaultId = b.vaultId :=
    ⟨⟨⟨"production", 1, 3⟩, 0, 9⟩, ⟨⟨"production", 1, 3⟩, 0, 9⟩, by decide +kernel, rfl⟩
  have ha : a ∈ ((fresh noVaults).run (fun _ => "production")
      (vaultCreated ++ vaultFound)).answers := by simp [hanswers]
  have hb : b ∈ ((fresh noVaults).run (fun _ => "production")
      (vaultCreated ++ vaultFound)).answers := by simp [hanswers]
  obtain ⟨hplaced, hsame⟩ :=
    wallets_isolated numberedFireblocks_lawful noVaults (vaultCreated ++ vaultFound) a ha
  exact ⟨a, b, hanswers, hplaced, hsame b hb hvault⟩

section InTurn

/-- One call at a time for each wallet, lists that show its vault if there is one, and nobody else
using such a name. -/
def InTurn (identity : ℕ → String) (s : FireblocksWorld F) : FireblocksEvent F → Prop
  | .request process walletIndex chainId =>
      (s.walletCache process (walletIndex, chainId)).isSome = true ∨
        ∀ t ∈ s.tasks, t.wallet ≠ walletOf identity process walletIndex chainId
  | .reply i course => ∀ t, s.tasks[i]? = some t → t.stage = .listing →
      ∀ vaults, F.listVaults s.account course = .json (some vaults) →
        ∀ v, F.name s.account v = some t.wallet.vaultName →
          ∃ vault ∈ vaults, vault.name = some t.wallet.vaultName
  | .otherVault name _ => ∀ w : FireblocksWallet, name ≠ w.vaultName
  | .restart _ | .otherAsset .. => True

def UniqueNames (account : F.Account) : Prop := ∀ w : FireblocksWallet, ∀ v v',
  F.name account v = some w.vaultName → F.name account v' = some w.vaultName → v = v'

/-- Each wallet has one vault at most, and a call that creates it finds none. -/
structure Sole (s : FireblocksWorld F) : Prop where
  unique : UniqueNames s.account
  absent : ∀ t ∈ s.tasks, t.stage = .creating →
    ∀ v, F.name s.account v ≠ some t.wallet.vaultName
  alone : (s.tasks.map (·.wallet)).Nodup

theorem others_of_erased (halone : (s.tasks.map (·.wallet)).Nodup) (ht : s.tasks[i]? = some t)
    {u : FireblocksTask} (hu : u ∈ s.tasks.eraseIdx i) : u.wallet ≠ t.wallet := by
  obtain ⟨hi, rfl⟩ := List.getElem?_eq_some_iff.mp ht
  obtain ⟨j, hj, hne, rfl⟩ := List.mem_eraseIdx_iff_getElem.mp hu
  intro hwallet
  have hj' : j < (s.tasks.map (·.wallet)).length := by simpa using hj
  have hi' : i < (s.tasks.map (·.wallet)).length := by simpa using hi
  have hsame : (s.tasks.map (·.wallet))[j] = (s.tasks.map (·.wallet))[i] := by simpa using hwallet
  exact hne (halone.getElem_inj_iff.mp hsame)

/-- A call that goes on is still one for its wallet. -/
theorem wallets_of_next (ht : s.tasks[i]? = some t) (stage : VaultStage) :
    (s.tasks.set i { t with stage := stage }).map (·.wallet) = s.tasks.map (·.wallet) := by
  obtain ⟨hi, rfl⟩ := List.getElem?_eq_some_iff.mp ht
  have hi' : i < (s.tasks.map (·.wallet)).length := by simpa using hi
  have hsame := List.set_getElem_self hi'
  rw [List.getElem_map] at hsame
  rw [List.map_set]
  exact hsame

/-- Nothing changes for the wallets while nobody else takes a name of theirs. -/
theorem Sole.of_names (h : s.Sole) (hnames : ∀ {w : FireblocksWallet} {v : VaultId},
    F.name account v = some w.vaultName → F.name s.account v = some w.vaultName) :
    Sole { s with account := account } where
  unique w v v' hv hv' := h.unique w v v' (hnames hv) (hnames hv')
  absent t ht hstage v hname := h.absent t ht hstage v (hnames hname)
  alone := h.alone

theorem Sole.unique_replied (hlaw : F.Lawful) (h : s.Sole) (ht : t ∈ s.tasks)
    (hleaves : AccountLeaves s.account t.wallet t.stage account) : UniqueNames account := by
  intro w v v' hv hv'
  rcases hleaves.names hlaw hv with hold | ⟨hstage, hn, hnone⟩
  · rcases hleaves.names hlaw hv' with hold' | ⟨hstage, hn, -⟩
    · exact h.unique w v v' hold hold'
    · exact (h.absent t ht hstage v (hn ▸ hold)).elim
  · rcases hleaves.names hlaw hv' with hold' | ⟨-, -, hnone'⟩
    · exact (h.absent t ht hstage v' (hn ▸ hold')).elim
    · exact hleaves.one hlaw hnone hnone' hv hv'

theorem Sole.absent_others (hlaw : F.Lawful) (h : s.Sole)
    (hleaves : AccountLeaves s.account t.wallet t.stage account) {u : FireblocksTask}
    (hu : u ∈ s.tasks) (hstage : u.stage = .creating) (hother : u.wallet ≠ t.wallet) (v : VaultId) :
    F.name account v ≠ some u.wallet.vaultName := by
  intro hname
  rcases hleaves.names hlaw hname with hold | ⟨-, hn, -⟩
  · exact h.absent u hu hstage v hold
  · exact hother (FireblocksWallet.vaultName_inj hn)

theorem Sole.replied (hlaw : F.Lawful) (h : s.Sole) (ht : s.tasks[i]? = some t)
    (hadvances : Advances s.account t.wallet course t.stage o)
    (hshown : t.stage = .listing → ∀ vaults, F.listVaults s.account course = .json (some vaults) →
      ∀ v, F.name s.account v = some t.wallet.vaultName →
        ∃ vault ∈ vaults, vault.name = some t.wallet.vaultName) :
    (s.replied i t o).Sole := by
  have hmem : t ∈ s.tasks := List.mem_of_getElem? ht
  have hleaves := hadvances.leaves
  have hunique := h.unique_replied hlaw hmem hleaves
  obtain ⟨account, step⟩ := o
  have herased : ∀ u ∈ s.tasks.eraseIdx i, u.stage = .creating →
      ∀ v, F.name account v ≠ some u.wallet.vaultName := fun u hu hstage =>
    h.absent_others hlaw hleaves (List.mem_of_mem_eraseIdx hu) hstage
      (others_of_erased h.alone ht hu)
  have halone : ((s.tasks.eraseIdx i).map (·.wallet)).Nodup :=
    h.alone.sublist ((List.eraseIdx_sublist ..).map _)
  cases step with
  | next stage =>
    have hnodup : ((s.tasks.set i { t with stage := stage }).map (·.wallet)).Nodup := by
      rw [wallets_of_next ht]
      exact h.alone
    refine ⟨hunique, fun u hu hstage v => ?_, hnodup⟩
    by_cases hwallet : u.wallet = t.wallet
    · have hi : i < s.tasks.length := (List.getElem?_eq_some_iff.mp ht).1
      have hnew : { t with stage := stage } ∈ s.tasks.set i { t with stage := stage } :=
        List.mem_set hi _
      obtain rfl : u = { t with stage := stage } :=
        List.inj_on_of_nodup_map hnodup hu hnew hwallet
      obtain rfl : stage = .creating := hstage
      obtain ⟨hlisting, vaults, hserved, habsent⟩ := hadvances.absent rfl
      intro hname
      rcases hleaves.names hlaw hname with hold | ⟨hcreating, -⟩
      · obtain ⟨vault, hvault, hsame⟩ := hshown hlisting vaults hserved v hold
        exact habsent vault hvault hsame
      · rw [hlisting] at hcreating
        cases hcreating
    · rcases List.mem_or_eq_of_mem_set hu with hu | rfl
      · exact h.absent_others hlaw hleaves hu hstage hwallet v
      · exact (hwallet rfl).elim
  | failed e => exact ⟨hunique, herased, halone⟩
  | done vaultId address => exact ⟨hunique, herased, halone⟩

theorem Sole.step (hlaw : F.Lawful) (h : s.Sole) (hvaulted : s.Vaulted identity)
    (hturn : s.InTurn identity e) : (s.step identity e).Sole := by
  cases e with
  | request process walletIndex chainId =>
    show (s.request identity process walletIndex chainId).Sole
    unfold request
    split
    · exact ⟨h.unique, h.absent, h.alone⟩
    · rename_i hcached
      have hother : ∀ t ∈ s.tasks, t.wallet ≠ walletOf identity process walletIndex chainId := by
        rcases hturn with hsome | hother
        · rw [hcached] at hsome
          cases hsome
        · exact hother
      refine ⟨h.unique, fun t ht hstage => ?_, ?_⟩
      · rcases List.mem_append.mp ht with ht | ht
        · exact h.absent t ht hstage
        · rw [List.mem_singleton.mp ht] at hstage
          cases hstage
      · rw [List.map_append, List.nodup_append]
        refine ⟨h.alone, by simp, fun w hw w' hw' => ?_⟩
        obtain ⟨t, ht, rfl⟩ := List.mem_map.mp hw
        obtain rfl : w' = walletOf identity process walletIndex chainId := by simpa using hw'
        exact hother t ht
  | reply i course =>
    unfold FireblocksWorld.step
    dsimp only
    split
    · rename_i t ht
      have hmem : t ∈ s.tasks := List.mem_of_getElem? ht
      exact h.replied hlaw ht
        (getOrCreateVaultAccount_advances hlaw (hvaulted.tasks t hmem).2) (hturn t ht)
    · exact h
  | restart process =>
    exact ⟨h.unique, fun t ht => h.absent t (List.mem_filter.mp ht).1,
      h.alone.sublist (List.filter_sublist.map _)⟩
  | otherVault name course =>
    apply h.of_names
    intro w v hname
    exact (hlaw.createVault_name hname).resolve_right fun hnew => hturn w hnew.2.symm
  | otherAsset vaultId assetId course =>
    apply h.of_names
    intro w v hname
    rw [hlaw.createAsset_names] at hname
    exact hname

/-- Every call for a wallet, by whatever process of its instance and after whatever restarts, hands
out one vault and one address, when the calls for it come one at a time and the lists show its
vault. -/
theorem wallet_stays (hlaw : F.Lawful) {es : List (FireblocksEvent F)}
    (hunique : UniqueNames account)
    (hturn : EventMachine.Along (step identity) (InTurn identity) (fresh account) es)
    {a b : VaultAnswer} (ha : a ∈ ((fresh account).run identity es).answers)
    (hb : b ∈ ((fresh account).run identity es).answers) (hwallet : a.wallet = b.wallet) :
    a.vaultId = b.vaultId ∧ a.address = b.address := by
  have hboth : ((fresh account).run identity es).Vaulted identity ∧
      ((fresh account).run identity es).Sole :=
    hturn.invariant (P := fun s => s.Vaulted identity ∧ s.Sole)
      (fun _ e hturn h => ⟨h.1.step hlaw e, h.2.step hlaw h.1 hturn⟩)
      ⟨⟨nofun, nofun, nofun⟩, hunique, nofun, List.nodup_nil⟩
  obtain ⟨hvaulted, hsole⟩ := hboth
  obtain ⟨hname, asset, hasset, text, haddress, hparsed⟩ := hvaulted.answers a ha
  obtain ⟨hname', asset', hasset', text', haddress', hparsed'⟩ := hvaulted.answers b hb
  have hvault : a.vaultId = b.vaultId := hsole.unique a.wallet _ _ hname (hwallet ▸ hname')
  rw [← hwallet] at hasset'
  obtain rfl : asset = asset' := Option.some.inj (hasset.symm.trans hasset')
  rw [← hvault, haddress] at haddress'
  obtain rfl : text = text' := Option.some.inj haddress'
  exact ⟨hvault, Except.ok.inj (hparsed.symm.trans hparsed')⟩

/-- The two calls hand out the same vault. -/
theorem wallet_stays_found : ∃ a b,
    ((fresh noVaults).run (fun _ => "production") (vaultCreated ++ vaultFound)).answers = [a, b] ∧
      a.vaultId = b.vaultId ∧ a.address = b.address := by
  have hpast {s : FireblocksWorld numberedFireblocks} {course : numberedFireblocks.Course}
      (h : s.tasks[0]?.map (·.stage) ≠ some .listing) :
      s.InTurn (fun _ => "production") (.reply 0 course) := by
    intro t ht hstage
    rw [ht] at h
    exact (h (congrArg some hstage)).elim
  have hcreated : EventMachine.Along (step fun _ => "production") (InTurn fun _ => "production")
      (fresh noVaults) vaultCreated := by
    refine ⟨.inr (by decide +kernel), fun t ht hstage vaults _ v hv => ?_,
      hpast (by decide +kernel), hpast (by decide +kernel), hpast (by decide +kernel),
      hpast (by decide +kernel), trivial⟩
    cases hv
  have hfound : EventMachine.Along (step fun _ => "production") (InTurn fun _ => "production")
      ((fresh noVaults).run (fun _ => "production") vaultCreated) vaultFound := by
    refine ⟨trivial, .inr (by decide +kernel), fun t ht _ vaults hvaults v _ => ?_,
      hpast (by decide +kernel), hpast (by decide +kernel), trivial⟩
    have hwallet : t.wallet.vaultName = "rrelayer-production-wallet-1-3" := by
      cases ht
      decide +kernel
    cases hvaults
    exact ⟨_, List.mem_singleton_self _, by rw [hwallet]; decide +kernel⟩
  obtain ⟨a, b, hanswers, hwallet⟩ : ∃ a b, ((fresh noVaults).run (fun _ => "production")
      (vaultCreated ++ vaultFound)).answers = [a, b] ∧ a.wallet = b.wallet :=
    ⟨⟨⟨"production", 1, 3⟩, 0, 9⟩, ⟨⟨"production", 1, 3⟩, 0, 9⟩, by decide +kernel, rfl⟩
  have hunique : UniqueNames noVaults := fun w v v' hv => by cases hv
  refine ⟨a, b, hanswers, ?_⟩
  exact wallet_stays numberedFireblocks_lawful hunique
    (EventMachine.along_append.mpr ⟨hcreated, hfound⟩) (by simp [hanswers]) (by simp [hanswers])
    hwallet

end InTurn

end FireblocksWorld
end Rrelayer
