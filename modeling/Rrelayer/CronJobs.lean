import Rrelayer.PayloadPermissions

/-! The relayer a cron job sends through: it is chosen by a check of the permissions of its own,
beside the check a request of the API goes through. -/
namespace Rrelayer

/-- The relayer a top-up is paid from, with whether only top-ups may use it. -/
structure NetworkAutomaticTopUpRelayer where
  address : EvmAddress
  internalOnly : Option Bool
  deriving DecidableEq, Repr

structure SetupNetwork extends NetworkSetupConfig where
  name : String
  permissions : Option (List NetworkPermissionsConfig)
  allowedRandomRelayers : Option AllOrOneOrManyAddresses
  /-- The `from` relayers of the top-up section. -/
  automaticTopUp : Option (List NetworkAutomaticTopUpRelayer)
  deriving DecidableEq, Repr

namespace SetupNetwork

def internalOnlyRelayers (network : SetupNetwork) : List EvmAddress :=
  ((network.automaticTopUp.getD []).filter fun relayer => relayer.internalOnly.getD true).map
    (·.address)

def randomAddresses : AllOrOneOrManyAddresses → List EvmAddress
  | .all => []
  | .one address => [address]
  | .many addresses => addresses

/-- The `insert` of the map: a later network of the same chain takes the place of an earlier one. -/
def insertRandom (allowed : List (ChainId × List EvmAddress)) (network : SetupNetwork) :
    List (ChainId × List EvmAddress) :=
  match network.allowedRandomRelayers with
  | none => allowed
  | some random =>
      allowed.filter (·.1 != network.chainId) ++ [(network.chainId, randomAddresses random)]

end SetupNetwork

/-- What the API is started with, as `start` reads it off the networks. -/
def startupAppState (networks : List SetupNetwork) : AppState where
  relayerInternalOnly :=
    networks.flatMap fun n => n.internalOnlyRelayers.map fun address => (n.chainId, address)
  relayersAllowedForRandom := networks.foldl SetupNetwork.insertRandom []
  networkPermissions :=
    networks.filterMap fun n => n.permissions.map fun permissions => (n.chainId, permissions)
  networkConfigs := networks.map (·.toNetworkSetupConfig)

structure CronJobTransactionConfig where
  toAddress : EvmAddress
  value : Option String
  deriving DecidableEq, Repr

structure CronJobConfig where
  network : String
  relayers : AllOrOneOrManyAddresses
  transaction : CronJobTransactionConfig
  deriving DecidableEq, Repr

namespace CronJobConfig

variable (job : CronJobConfig) (parseValue : String → Option TransactionValue)

/-- The value as it is parsed, here and for the transaction that is sent. -/
def value : Option TransactionValue := parseValue (job.transaction.value.getD "0")

/-- The loop over the entries of the relayer's network. -/
def validatePermissions (relayer : Relayer) : List NetworkPermissionsConfig → Except String Unit
  | [] => .ok ()
  | permission :: permissions =>
      if !permission.relayers.contains relayer.address then validatePermissions relayer permissions
      else if permission.disableTransactions.getD false then
        .error "relayer has transactions disabled"
      else if permission.disableNativeTransfer.getD false &&
          ((job.value parseValue).map fun value => value != 0).getD false then
        .error "relayer has native transfers disabled"
      else if !permission.allowlist.isEmpty &&
          !permission.allowlist.contains job.transaction.toAddress then
        .error ("relayer is not allowed to send transactions to " ++
          EvmAddress.hex job.transaction.toAddress)
      else validatePermissions relayer permissions

def validateCronJobTransactionPermissions (networks : List SetupNetwork) (relayer : Relayer) :
    Except String Unit :=
  match networks.find? fun n => n.chainId == relayer.chainId with
  | none => .ok ()
  | some network =>
      match network.permissions with
      | none => .ok ()
      | some permissions => job.validatePermissions parseValue relayer permissions

/-- The relayers the job may use, of those the database has for the chain of its network. -/
def availableRelayers (networks : List SetupNetwork) (network : SetupNetwork)
    (relayers : List Relayer) : List Relayer :=
  let internalOnlyRelayers := (networks.filter fun n => n.chainId == network.chainId).flatMap
    (·.internalOnlyRelayers)
  relayers.filter fun relayer => !relayer.paused &&
    !internalOnlyRelayers.contains relayer.address &&
    job.relayers.contains relayer.address &&
    (job.validateCronJobTransactionPermissions parseValue networks relayer).isOk

/-- `served` is the answer of the database, `choice` the random draw. -/
def selectCronJobRelayer (networks : List SetupNetwork)
    (served : ChainId → Except String (List Relayer)) (choice : ℕ) : Except String Relayer :=
  match networks.find? fun n => n.name == job.network with
  | none => .error ("network " ++ job.network ++ " is not configured")
  | some network =>
      match served network.chainId with
      | .error e => .error e
      | .ok relayers =>
          let available := job.availableRelayers parseValue networks network relayers
          match available[choice % available.length]? with
          | none => .error ("no available relayers found for network " ++ job.network ++
              " matching cron job relayers filter and permissions")
          | some relayer => .ok relayer

end CronJobConfig

variable {networks : List SetupNetwork} {chainId : ChainId}

/-- With one network for each chain, the entries the API looks up are those of that network. -/
theorem findNetworkPermission_startup (hchains : (networks.map (·.chainId)).Nodup) :
    (startupAppState networks).findNetworkPermission chainId =
      (networks.find? fun n => n.chainId == chainId).bind (·.permissions) := by
  unfold AppState.findNetworkPermission startupAppState
  dsimp only
  induction networks with
  | nil => rfl
  | cons network networks ih =>
    obtain ⟨hfresh, hchains⟩ := List.nodup_cons.mp hchains
    by_cases hchain : network.chainId = chainId
    · subst hchain
      cases hpermissions : network.permissions with
      | some permissions => simp [hpermissions]
      | none =>
        -- No other network of the chain takes over.
        have hnone : (networks.filterMap fun n => n.permissions.map fun permissions =>
            (n.chainId, permissions)).find? (fun n => n.1 == network.chainId) = none := by
          apply List.find?_eq_none.mpr
          intro entry hentry
          obtain ⟨other, hother, hmap⟩ := List.mem_filterMap.mp hentry
          obtain ⟨permissions, -, rfl⟩ := Option.map_eq_some_iff.mp hmap
          have hne : other.chainId ≠ network.chainId := by
            intro hsame
            apply hfresh
            exact List.mem_map.mpr ⟨other, hother, hsame⟩
          simpa using hne
        rw [List.filterMap_cons, hpermissions]
        dsimp only [Option.map_none]
        rw [hnone]
        simp [hpermissions]
    · have hother : (network.chainId == chainId) = false := by simpa using hchain
      rw [List.find?_cons, hother, ← ih hchains, List.filterMap_cons]
      cases network.permissions with
      | none => rfl
      | some permissions =>
        dsimp only [Option.map_some]
        rw [List.find?_cons, hother]

namespace CronJobConfig

variable {job : CronJobConfig} {parseValue : String → Option TransactionValue}
  {value : TransactionValue}

/-- The checks in their own order refuse what the entry does not allow. -/
theorem validatePermissions_ok_iff (hvalue : job.value parseValue = some value)
    (relayer : Relayer) (permissions : List NetworkPermissionsConfig) :
    job.validatePermissions parseValue relayer permissions = .ok () ↔
      ∀ p ∈ permissions, p.relayers.contains relayer.address = true →
        p.Allows job.transaction.toAddress value := by
  induction permissions with
  | nil => simp [validatePermissions]
  | cons p permissions ih =>
    rw [List.forall_mem_cons, ← ih, validatePermissions]
    unfold NetworkPermissionsConfig.Allows
    rw [hvalue]
    cases p.relayers.contains relayer.address with
    | false => simp
    | true =>
      cases p.disableTransactions.getD false with
      | true => simp
      | false =>
        by_cases hvalue : value = 0
        · by_cases hnil : p.allowlist = []
          · simp [hvalue, hnil]
          · by_cases hlist : job.transaction.toAddress ∈ p.allowlist
            · simp [hvalue, hlist]
            · simp [hvalue, hnil, hlist]
        · cases p.disableNativeTransfer.getD false with
          | true => simp [hvalue]
          | false =>
            by_cases hnil : p.allowlist = []
            · simp [hvalue, hnil]
            · by_cases hlist : job.transaction.toAddress ∈ p.allowlist
              · simp [hvalue, hlist]
              · simp [hvalue, hnil, hlist]

theorem validateCronJobTransactionPermissions_ok_iff (hchains : (networks.map (·.chainId)).Nodup)
    (hvalue : job.value parseValue = some value) (relayer : Relayer) :
    job.validateCronJobTransactionPermissions parseValue networks relayer = .ok () ↔
      (startupAppState networks).EntriesAllow relayer.address relayer.chainId
        job.transaction.toAddress value := by
  unfold validateCronJobTransactionPermissions AppState.EntriesAllow
  rw [findNetworkPermission_startup hchains]
  cases networks.find? fun n => n.chainId == relayer.chainId with
  | none => simp
  | some network =>
    dsimp only [Option.bind_some]
    cases network.permissions with
    | none => simp
    | some permissions =>
      simp only [Option.some.injEq, forall_eq']
      exact validatePermissions_ok_iff hvalue relayer permissions

/-- A cron job may use a relayer exactly when the API lets that relayer send the same payload. -/
theorem cron_permissions_as_api (networks : List SetupNetwork)
    (hchains : (networks.map (·.chainId)).Nodup) (job : CronJobConfig)
    (parseValue : String → Option TransactionValue) (value : TransactionValue)
    (hvalue : job.value parseValue = some value) (relayer : Relayer) :
    job.validateCronJobTransactionPermissions parseValue networks relayer = .ok () ↔
      (startupAppState networks).networkPermissionValidate relayer.address relayer.chainId
        job.transaction.toAddress value .transaction = .ok () := by
  rw [AppState.networkPermissionValidate_ok_iff]
  exact validateCronJobTransactionPermissions_ok_iff hchains hvalue relayer

/-- A relayer that is selected is none the API keeps internal, and one that it lets send the job's
payload. -/
theorem selectCronJobRelayer_permitted (hchains : (networks.map (·.chainId)).Nodup)
    (hvalue : job.value parseValue = some value)
    {served : ChainId → Except String (List Relayer)} {choice : ℕ} {relayer : Relayer}
    (hserved : ∀ chainId relayers, served chainId = .ok relayers →
      ∀ r ∈ relayers, r.chainId = chainId)
    (h : job.selectCronJobRelayer parseValue networks served choice = .ok relayer) :
    (startupAppState networks).validateNotInternal relayer.address relayer.chainId = .ok () ∧
      (startupAppState networks).EntriesAllow relayer.address relayer.chainId
        job.transaction.toAddress value := by
  unfold selectCronJobRelayer at h
  cases hfound : networks.find? fun n => n.name == job.network with
  | none =>
    rw [hfound] at h
    cases h
  | some network =>
    rw [hfound] at h
    dsimp only at h
    cases hanswer : served network.chainId with
    | error e =>
      rw [hanswer] at h
      cases h
    | ok relayers =>
      rw [hanswer] at h
      dsimp only at h
      split at h
      · cases h
      · rename_i chosen hchosen
        cases h
        have hmem := List.mem_of_getElem? hchosen
        unfold availableRelayers at hmem
        obtain ⟨hrelayer, hchecks⟩ := List.mem_filter.mp hmem
        simp only [Bool.and_eq_true, Bool.not_eq_true'] at hchecks
        obtain ⟨⟨⟨-, hinternal⟩, -⟩, hpermitted⟩ := hchecks
        have hchain : relayer.chainId = network.chainId := hserved _ _ hanswer _ hrelayer
        constructor
        · have hnot : (startupAppState networks).restricted relayer.address relayer.chainId =
              false := by
            unfold AppState.restricted startupAppState
            simp only [List.contains_eq_mem, decide_eq_false_iff_not, List.mem_flatMap,
              List.mem_filter, not_exists, not_and] at hinternal
            simp only [List.any_eq_false, List.mem_flatMap, List.mem_map]
            rintro _ ⟨n, hn, address, haddress, rfl⟩ hsame
            simp only [Bool.and_eq_true, beq_iff_eq] at hsame
            obtain ⟨hsameChain, rfl⟩ := hsame
            refine hinternal n ⟨hn, ?_⟩ haddress
            simpa [hchain] using hsameChain
          unfold AppState.validateNotInternal
          simp [hnot]
        · rw [← validateCronJobTransactionPermissions_ok_iff hchains hvalue relayer]
          cases hvalidated :
              job.validateCronJobTransactionPermissions parseValue networks relayer with
          | ok u => rfl
          | error e =>
            rw [hvalidated] at hpermitted
            cases hpermitted

end CronJobConfig

/-- A relayer that may send to one address only, and no native value. -/
def cronNetwork : SetupNetwork where
  chainId := 1
  enableSendingBlobs := none
  name := "mainnet"
  permissions := some [⟨.one 7, [9], some true, none, none⟩]
  allowedRandomRelayers := none
  automaticTopUp := none

def parseCronValue (value : String) : Option TransactionValue :=
  if value = "0" then some 0 else none

/-- The job sends no value to the listed address, and both checks accept. -/
theorem CronJobConfig.cron_permissions_as_api_listed :
    let job : CronJobConfig := ⟨"mainnet", .all, ⟨9, none⟩⟩
    job.validateCronJobTransactionPermissions parseCronValue [cronNetwork]
        ⟨3, 1, 7, none, false, true⟩ = .ok () ∧
      (startupAppState [cronNetwork]).networkPermissionValidate 7 1 9 0 .transaction = .ok () := by
  intro job
  have haccepted : job.validateCronJobTransactionPermissions parseCronValue [cronNetwork]
      ⟨3, 1, 7, none, false, true⟩ = .ok () := rfl
  exact ⟨haccepted, (CronJobConfig.cron_permissions_as_api [cronNetwork] (by decide) job
    parseCronValue 0 rfl ⟨3, 1, 7, none, false, true⟩).mp haccepted⟩

end Rrelayer
