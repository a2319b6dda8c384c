import Rrelayer.Admission
import Rrelayer.Compete
import Rrelayer.Relayers
import Mathlib.Data.Prod.Lex
import Mathlib.Data.List.Sort

/-! The requests that bring a payload to a queue, with the checks made on the way. What the
headers prove and the rate limiter says are inputs. -/
namespace Rrelayer

theorem Except.bind_eq_ok {ε α β : Type} {x : Except ε α} {f : α → Except ε β} {b : β} :
    (x >>= f) = .ok b ↔ ∃ a, x = .ok a ∧ f a = .ok b := by
  cases x <;> simp [bind, Except.bind]

theorem Except.bind_eq_error {ε α β : Type} {x : Except ε α} {f : α → Except ε β} {e : ε} :
    (x >>= f) = .error e ↔ x = .error e ∨ ∃ a, x = .ok a ∧ f a = .error e := by
  cases x <;> simp [bind, Except.bind]

structure HttpError where
  status : ℕ
  message : String
  deriving DecidableEq, Repr

def badRequest (message : String) : HttpError := ⟨400, message⟩
def unauthorized (message : Option String) : HttpError := ⟨401, message.getD "Unauthorized"⟩
def notFound (message : String) : HttpError := ⟨404, message⟩
def internalServerError (message : Option String) : HttpError :=
  ⟨500, message.getD "Internal server error"⟩

inductive AllOrOneOrManyAddresses where
  | all
  | one (address : EvmAddress)
  | many (addresses : List EvmAddress)
  deriving DecidableEq, Repr

def AllOrOneOrManyAddresses.contains (a : AllOrOneOrManyAddresses) (address : EvmAddress) : Bool :=
  match a with
  | .all => true
  | .one own => own == address
  | .many addresses => addresses.contains address

structure NetworkPermissionsConfig where
  relayers : AllOrOneOrManyAddresses
  allowlist : List EvmAddress
  disableNativeTransfer : Option Bool
  disableTypedDataSign : Option Bool
  disableTransactions : Option Bool
  deriving DecidableEq, Repr

structure NetworkSetupConfig where
  chainId : ChainId
  enableSendingBlobs : Option Bool
  deriving DecidableEq, Repr

inductive NetworkValidateAction where
  | transaction
  | signingTypedData
  deriving DecidableEq, Repr

structure AppState where
  relayerInternalOnly : List (ChainId × EvmAddress)
  relayersAllowedForRandom : List (ChainId × List EvmAddress)
  networkPermissions : List (ChainId × List NetworkPermissionsConfig)
  networkConfigs : List NetworkSetupConfig
  deriving DecidableEq, Repr

namespace NetworkPermissionsConfig

variable (p : NetworkPermissionsConfig)

def disables (action : NetworkValidateAction) : Bool :=
  match action with
  | .transaction => p.disableTransactions.getD false
  | .signingTypedData => p.disableTypedDataSign.getD false

def disabledMessage : NetworkValidateAction → String
  | .transaction => "Relayer have disabled transactions"
  | .signingTypedData => "Relayer have disabled typed data signing"

/-- What one entry says of a payload of a relayer it names. -/
def validate (toAddress : EvmAddress) (value : TransactionValue) (action : NetworkValidateAction) :
    Except HttpError Unit :=
  if p.disables action then .error (unauthorized (some (disabledMessage action)))
  else if !p.allowlist.isEmpty && !p.allowlist.contains toAddress then
    .error (unauthorized (some
      ("relayer is not allowed to send transactions to " ++ EvmAddress.hex toAddress)))
  else if value ≠ 0 ∧ p.disableNativeTransfer.getD false = true then
    .error (unauthorized (some "native transfer is disabled for this relayer"))
  else .ok ()

end NetworkPermissionsConfig

namespace AppState

variable (state : AppState)

def findNetworkPermission (chainId : ChainId) : Option (List NetworkPermissionsConfig) :=
  (state.networkPermissions.find? fun n => n.1 == chainId).map (·.2)

/-- The loop over the entries of the network; those that do not name the relayer are passed. -/
def validateEntries (relayer toAddress : EvmAddress) (value : TransactionValue)
    (action : NetworkValidateAction) : List NetworkPermissionsConfig → Except HttpError Unit
  | [] => .ok ()
  | p :: ps =>
      if p.relayers.contains relayer then
        match p.validate toAddress value action with
        | .error e => .error e
        | .ok () => validateEntries relayer toAddress value action ps
      else validateEntries relayer toAddress value action ps

def networkPermissionValidate (relayer : EvmAddress) (chainId : ChainId) (toAddress : EvmAddress)
    (value : TransactionValue) (action : NetworkValidateAction) : Except HttpError Unit :=
  match state.findNetworkPermission chainId with
  | none => .ok ()
  | some permissions => validateEntries relayer toAddress value action permissions

def restricted (relayer : EvmAddress) (chainId : ChainId) : Bool :=
  state.relayerInternalOnly.any fun v => v.1 == chainId && v.2 == relayer

def validateNotInternal (relayer : EvmAddress) (chainId : ChainId) : Except HttpError Unit :=
  if state.restricted relayer chainId then
    .error (unauthorized (some "Relayer can only be used internally"))
  else .ok ()

/-- An empty list allows every relayer of the chain, no list none. -/
def allowedForRandom (relayer : EvmAddress) (chainId : ChainId) : Bool :=
  match state.relayersAllowedForRandom.find? fun v => v.1 == chainId with
  | none => false
  | some (_, allowed) => allowed.isEmpty || allowed.contains relayer

/-- The check each path makes for a payload that carries blobs. -/
def validateBlobsEnabled (chainId : ChainId) (hasBlobs : Bool) : Except HttpError Unit :=
  if !hasBlobs then .ok ()
  else
    match state.networkConfigs.find? fun n => n.chainId == chainId with
    | none => .error (internalServerError (some "Network configuration not found"))
    | some network =>
        if network.enableSendingBlobs.getD false then .ok ()
        else .error (internalServerError (some
          "Blob transactions are not enabled for this network"))

end AppState

/-- A relay request with the speed a send reads. -/
structure RelayRequest extends RelayTransactionRequest where
  speed : Option TransactionSpeed
  deriving DecidableEq, Repr

/-- A relayer with its record, the provider of its network and its queue. -/
structure ServedRelayer where
  record : RelayerRecord
  provider : EvmProvider
  locked : Locked
  ownProvider : provider.chainId = record.chainId
  ownQueue : locked.queue.relayer.id = record.id ∧
    locked.queue.relayer.address = record.address ∧
    locked.queue.relayer.chainId = record.chainId
  /-- `supports_blobs` of the queue asks the provider, which asks its wallet manager. -/
  blobSupport : locked.queue.supportsBlobs = provider.walletManager.supportsBlobs

/-- Whether the manager that holds the relayer's key supports blobs. -/
def ServedRelayer.ownManagerSupportsBlobs (s : ServedRelayer) : Bool :=
  match s.provider.walletManager with
  | .primary manager => manager.supportsBlobs
  | .privateKeys manager => manager.supportsBlobs
  | .composite manager =>
      if s.record.managerIndex.any WalletIndex.isPrivateKeyManagerIndex then
        manager.privateKeyManager.any (·.supportsBlobs)
      else manager.primaryManager.supportsBlobs

/-- What the headers, the policy context and the rate limiter decide about a request. -/
structure RequestContext where
  passedBasicAuth : Except HttpError Unit
  validateAuth : EvmAddress → ChainId → Except HttpError Unit
  validateRequestPolicy : EvmAddress → ChainId → Except HttpError Unit
  findAdmitted : Except HttpError (Option Transaction)
  rateLimit : Except HttpError Unit

/-- The queue is looked up by the relayer of the stored transaction. -/
def ServedRelayer.replaceQueued (s : ServedRelayer) (env : CompeteEnv) (transaction : Transaction)
    (request : RelayRequest) : Locked.ReplaceResult :=
  if transaction.relayerId ≠ s.record.id then .error (.transactionNotFound transaction.id)
  else (s.locked.replaceTransaction env request.toRelayTransactionRequest transaction.id).2

/-- A stored transaction; every row is written with the address and chain of its relayer. -/
structure ServedRelayer.StoredTransaction (s : ServedRelayer) extends Transaction where
  ownRow : relayerId = s.record.id → fromAddress = s.record.address ∧ chainId = s.record.chainId

inductive ApiError where
  | http (error : HttpError)
  | add (error : AddTransactionError)
  | replace (error : ReplaceTransactionError)
  deriving DecidableEq, Repr

/-- How a request that was not refused ended. -/
inductive Admitted where
  | stored (transaction : Transaction)
  | added (transaction : Transaction)
  | notEditable
  | replaced (id : Option TransactionId)
  deriving DecidableEq, Repr

def blobParse : HttpError := badRequest "Failed to parse blob it must be 131,072 bytes"

def noTransactionId : HttpError := notFound "Could not find transaction id"

namespace AppState

variable (state : AppState)

def toSend (id : TransactionId) (request : RelayRequest) (blobs : Option (List TransactionBlob)) :
    TransactionToSend where
  id := id
  toAddress := request.toAddress
  value := request.value
  data := request.data
  speed := request.speed.getD .fast
  blobs := blobs
  externalId := request.externalId

/-- The checks a send makes on the payload it was given. -/
def checkSend (context : RequestContext) (relayer : RelayerRecord) (request : RelayRequest) :
    Except HttpError Unit := do
  context.validateAuth relayer.address relayer.chainId
  context.validateRequestPolicy relayer.address relayer.chainId
  state.validateNotInternal relayer.address relayer.chainId
  state.networkPermissionValidate relayer.address relayer.chainId request.toAddress request.value
    .transaction
  state.validateBlobsEnabled relayer.chainId request.blobs.isSome

def sendTransaction (context : RequestContext) (env : AdmissionEnv) (newId : TransactionId)
    (s : ServedRelayer) (request : RelayRequest) : Except ApiError Admitted := do
  (state.checkSend context s.record request).mapError .http
  match ← context.findAdmitted.mapError .http with
  | some stored => return .stored stored
  | none =>
      context.rateLimit.mapError .http
      let blobs ← (Locked.decodeBlobs request.toRelayTransactionRequest).mapError
        fun _ => .http blobParse
      let toSend := toSend newId request blobs
      let t ← (s.locked.addTransaction env toSend).2.mapError .add
      return if t.id = newId then .added t else .stored t

def handleSendTransaction (context : RequestContext) (env : AdmissionEnv)
    (newId : TransactionId) (s : ServedRelayer) (request : RelayRequest) :
    Except ApiError Admitted := do
  context.passedBasicAuth.mapError .http
  state.sendTransaction context env newId s request

/-- The candidates the validation lets through; the first refusal when there is none. -/
def filterEligible {α : Type} (validate : α → Except HttpError Unit) (candidates : List α) :
    Except HttpError (List α) :=
  match candidates.filter fun s => (validate s).isOk with
  | s :: ss => .ok (s :: ss)
  | [] =>
      match candidates.findSome? fun s => match validate s with
        | .error e => some e
        | .ok () => none with
      | some e => .error e
      | none => .error (badRequest "No policy candidates")

/-- The wallet index and the id, whose text sorts as the number it writes. -/
def policyKey (s : ServedRelayer) : ℤ ×ₗ RelayerId := toLex (s.record.walletIndex, s.record.id)

/-- `sort_by_key`, which is stable. -/
def sortPolicyCandidates (candidates : List ServedRelayer) : List ServedRelayer :=
  candidates.insertionSort fun a b => policyKey a ≤ policyKey b

def noRelayersFound (chainId : ChainId) : HttpError :=
  notFound ("No relayers found for chain " ++ toString chainId)

def noneSelectable (chainId : ChainId) : HttpError :=
  badRequest ("No available relayers for chain " ++ toString chainId ++
    " (all relayers are paused, internal-only, or not allowed for random selection)")

/-- The query's rows. -/
def allRelayersForChain (chainId : ChainId) (relayers : List ServedRelayer) :
    List ServedRelayer :=
  relayers.filter fun s => s.record.chainId == chainId && !s.record.deleted

/-- The relayers a random send may use, in the order of their wallet indexes and ids. -/
def selectAvailableRelayers (chainId : ChainId) (relayers : List ServedRelayer) :
    Except HttpError (List ServedRelayer) :=
  let relayers := allRelayersForChain chainId relayers
  if relayers.isEmpty then .error (noRelayersFound chainId)
  else
    let available := sortPolicyCandidates (relayers.filter fun s =>
      !s.locked.queue.relayer.paused &&
        !state.restricted s.record.address s.record.chainId &&
        state.allowedForRandom s.record.address s.record.chainId)
    if available.isEmpty then .error (noneSelectable chainId) else .ok available

/-- The candidates that pass authentication first and the request policy then. -/
def eligibleRelayers (context : RequestContext) (chainId : ChainId)
    (relayers : List ServedRelayer) : Except HttpError (List ServedRelayer) := do
  let candidates ← state.selectAvailableRelayers chainId relayers
  let authorized ← filterEligible
    (fun s => context.validateAuth s.record.address s.record.chainId) candidates
  filterEligible
    (fun s => context.validateRequestPolicy s.record.address s.record.chainId) authorized

def noAvailableRelayers (chainId : ChainId) : HttpError :=
  badRequest ("No available relayers for chain " ++ toString chainId)

/-- Picks an eligible relayer, `choice` being the random draw, and sends through it. -/
def sendTransactionRandom (context : RequestContext) (env : AdmissionEnv) (newId : TransactionId)
    (chainId : ChainId) (relayers : List ServedRelayer) (choice : ℕ) (request : RelayRequest) :
    Except ApiError (ServedRelayer × Admitted) := do
  context.passedBasicAuth.mapError .http
  let eligible ← (state.eligibleRelayers context chainId relayers).mapError .http
  match eligible[choice % eligible.length]? with
  | none => throw (.http (noAvailableRelayers chainId))
  | some s => return (s, ← state.sendTransaction context env newId s request)

/-- The checks a replace makes. Recipient and value are those of the stored transaction. -/
def checkReplace (context : RequestContext) (transaction : Transaction) (request : RelayRequest) :
    Except HttpError Unit := do
  context.validateAuth transaction.fromAddress transaction.chainId
  context.validateRequestPolicy transaction.fromAddress transaction.chainId
  state.validateNotInternal transaction.fromAddress transaction.chainId
  state.networkPermissionValidate transaction.fromAddress transaction.chainId
    transaction.toAddress transaction.value .transaction
  state.validateBlobsEnabled transaction.chainId request.blobs.isSome
  context.rateLimit

def replaceTransaction (context : RequestContext) (env : CompeteEnv)
    (s : ServedRelayer) (stored : Option s.StoredTransaction) (request : RelayRequest) :
    Except ApiError Admitted := do
  context.passedBasicAuth.mapError .http
  match stored with
  | none => throw (.http noTransactionId)
  | some transaction =>
      (state.checkReplace context transaction.toTransaction request).mapError .http
      let result ← (s.replaceQueued env transaction.toTransaction request).mapError .replace
      return if result.success then .replaced result.replaceTransactionId else .notEditable

end AppState

/-- The requests that can bring a payload to a queue. -/
inductive AdmissionPath where
  | send (context : RequestContext) (env : AdmissionEnv) (newId : TransactionId)
      (s : ServedRelayer)
  | sendRandom (context : RequestContext) (env : AdmissionEnv) (newId : TransactionId)
      (chainId : ChainId) (relayers : List ServedRelayer) (choice : ℕ)
  | replace (context : RequestContext) (env : CompeteEnv) (s : ServedRelayer)
      (stored : Option s.StoredTransaction)

def Admitted.inQueue : Admitted → Bool
  | .added _ => true
  | .replaced _ => true
  | .stored _ => false
  | .notEditable => false

/-- The relayer whose queue took the payload, if one did. -/
def AppState.admits (state : AppState) (request : RelayRequest) :
    AdmissionPath → Option ServedRelayer
  | .send context env newId s =>
      match state.handleSendTransaction context env newId s request with
      | .ok admitted => if admitted.inQueue then some s else none
      | .error _ => none
  | .sendRandom context env newId chainId relayers choice =>
      match state.sendTransactionRandom context env newId chainId relayers choice request with
      | .ok (s, admitted) => if admitted.inQueue then some s else none
      | .error _ => none
  | .replace context env s stored =>
      match state.replaceTransaction context env s stored request with
      | .ok admitted => if admitted.inQueue then some s else none
      | .error _ => none

end Rrelayer
