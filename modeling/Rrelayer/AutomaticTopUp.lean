import Rrelayer.System
import Rrelayer.Relayers
import Mathlib.Logic.Function.Basic

/-! The automatic top-up task: which addresses of a chain need a top-up, and how a top-up gets to the
queue of the funding relayer. Balances and amounts are exact, and stay below the `2 ^ 256` of the
source. -/
namespace Rrelayer

structure NativeTokenConfig where
  minBalance : ℕ
  topUpAmount : ℕ
  deriving DecidableEq, Repr

structure Erc20TokenConfig where
  address : EvmAddress
  minBalance : ℕ
  topUpAmount : ℕ
  deriving DecidableEq, Repr

inductive AllOrAddresses where
  | all
  | list (addresses : List EvmAddress)
  deriving DecidableEq, Repr

/-- The funding relayer's address and its Safe, if it pays through one. -/
structure TopUpFrom where
  relayer : EvmAddress
  safe : Option EvmAddress
  deriving DecidableEq, Repr

structure NetworkAutomaticTopUpConfig where
  from_ : TopUpFrom
  relayers : AllOrAddresses
  native : Option NativeTokenConfig
  erc20Tokens : Option (List Erc20TokenConfig)
  deriving DecidableEq, Repr

inductive TopUpError where
  | toSelf (fromAddress relayerAddress : EvmAddress)
  | notARelayer (relayerAddress : EvmAddress)
  | notValidated (relayerAddress : EvmAddress) (error : String)
  | noWalletIndex (fromAddress : EvmAddress) (chainId : ChainId)
  | safeTransaction (error : String)
  | relayerNotFound (fromAddress : EvmAddress)
  | relayerLookup (fromAddress : EvmAddress) (error : String)
  | notQueued (error : AddTransactionError)
  deriving DecidableEq, Repr

/-- What one top-up asks of the outside. `values` is the order in which the cache is iterated. -/
structure TopUpEnv where
  id : TransactionId
  validate : Bool
  findWallet : Bool
  createSafeTransaction : EvmAddress → ℕ → TransactionData → Except String TransactionData
  encodeTransfer : EvmAddress → ℕ → TransactionData
  values : List (List RelayerRecord)
  lookup : Bool
  admission : AdmissionEnv

/-- What a check of the balances asks of the chain. -/
structure BalanceEnv where
  getBalance : EvmAddress → Except String ℕ
  getErc20Balance : EvmAddress → EvmAddress → Except String ℕ
  getGasPrice : Except String ℕ

structure AutomaticTopUpTask where
  table : RelayerTable
  relayerCache : List (ChainId × List RelayerRecord)
  queues : RelayerId → TransactionsQueues

def RelayerTable.getAllRelayersForChain (db : RelayerTable) (chainId : ChainId) : RelayerTable :=
  db.filter fun r => r.chainId == chainId && !r.deleted

/-- `add_transaction` for one relayer. -/
def TransactionsQueues.addTransaction (s : TransactionsQueues) (env : AdmissionEnv)
    (toSend : TransactionToSend) : TransactionsQueues × AddResult :=
  match s.lock with
  | none => (s, .error (.relayerNotFound s.relayer.id))
  | some l => (s.unlock (l.addTransaction env toSend).1, (l.addTransaction env toSend).2)

/-- What is topped up. -/
inductive TopUpAsset where
  | native (config : NativeTokenConfig)
  | erc20 (config : Erc20TokenConfig)
  deriving DecidableEq, Repr

inductive TopUpEvent where
  /-- Other requests create, clone, delete and restore relayers. -/
  | relayers (table : RelayerTable)
  | refresh (chainId : ChainId) (served : Bool)
  /-- Any other operation on a relayer's queue. -/
  | queue (relayerId : RelayerId) (event : Event)
  /-- One asset of a configuration in a cycle, with an environment for each top-up made. -/
  | topUp (chainId : ChainId) (config : NetworkAutomaticTopUpConfig) (asset : TopUpAsset)
      (served : Bool) (balances : BalanceEnv) (envs : ℕ → TopUpEnv)

namespace AutomaticTopUpTask

variable (w : AutomaticTopUpTask)

def refreshRelayerCache (chainId : ChainId) (served : Bool) : AutomaticTopUpTask :=
  if !served then w
  else
    let relayers := w.table.getAllRelayersForChain chainId
    { w with
      relayerCache :=
        if w.relayerCache.any (·.1 == chainId) then
          w.relayerCache.map fun entry => if entry.1 = chainId then (chainId, relayers) else entry
        else w.relayerCache ++ [(chainId, relayers)] }

/-- Without its own address, so that a relayer does not fund itself. -/
def resolveRelayerAddresses (served : Bool) (chainId : ChainId) (relayers : AllOrAddresses)
    (fromAddress : EvmAddress) : Except String (List EvmAddress) :=
  let chainRelayers := (w.table.getAllRelayersForChain chainId).map (·.address)
  match relayers with
  | .all =>
      .ok ((if served then chainRelayers else []).filter (· != fromAddress))
  | .list addresses =>
      if served then .ok ((addresses.filter (chainRelayers.contains ·)).filter (· != fromAddress))
      else .error "database"

def findWalletIndexForAddress (served : Bool) (chainId : ChainId) (address : EvmAddress) :
    Option ℕ :=
  let cached := (w.relayerCache.find? (·.1 == chainId)).bind fun entry =>
    entry.2.find? (·.address == address)
  match cached with
  | some relayer => relayer.managerIndex
  | none =>
    match w.table.getRelayerByAddress served address chainId with
    | .ok (some relayer) => relayer.managerIndex
    | _ => none

/-- The relayer whose queue takes the top-up: any cached one with the address, of whatever
chain. -/
def fundingRelayer (values : List (List RelayerRecord)) (served : Bool) (chainId : ChainId)
    (fromAddress : EvmAddress) : Except TopUpError RelayerRecord :=
  match values.flatten.find? (·.address == fromAddress) with
  | some relayer => .ok relayer
  | none =>
    match w.table.getRelayerByAddress served fromAddress chainId with
    | .ok (some relayer) => .ok relayer
    | .ok none => .error (.relayerNotFound fromAddress)
    | .error error => .error (.relayerLookup fromAddress error)

def validateRelayer (served : Bool) (chainId : ChainId) (fromAddress relayerAddress : EvmAddress) :
    Except TopUpError Unit :=
  if fromAddress = relayerAddress then .error (.toSelf fromAddress relayerAddress)
  else
    match w.table.getRelayerByAddress served relayerAddress chainId with
    | .ok (some _) => .ok ()
    | .ok none => .error (.notARelayer relayerAddress)
    | .error error => .error (.notValidated relayerAddress error)

/-- A transfer as it is sent: made by the relayer itself, or a call of its Safe. -/
def finalCall (chainId : ChainId) (from_ : TopUpFrom) (call : EvmAddress × ℕ × TransactionData)
    (env : TopUpEnv) : Except TopUpError (EvmAddress × ℕ × TransactionData) :=
  match from_.safe with
  | none => .ok call
  | some safeAddress =>
    match w.findWalletIndexForAddress env.findWallet chainId from_.relayer with
    | none => .error (.noWalletIndex from_.relayer chainId)
    | some _ =>
      match env.createSafeTransaction call.1 call.2.1 call.2.2 with
      | .ok encodedData => .ok (safeAddress, 0, encodedData)
      | .error error => .error (.safeTransaction error)

/-- What both kinds of top-up do up to the queue. -/
def prepareTopUp (chainId : ChainId) (from_ : TopUpFrom) (relayerAddress : EvmAddress)
    (call : EvmAddress × ℕ × TransactionData) (externalId : String) (env : TopUpEnv) :
    Except TopUpError (RelayerRecord × TransactionToSend) := do
  w.validateRelayer env.validate chainId from_.relayer relayerAddress
  let call ← w.finalCall chainId from_ call env
  let relayer ← w.fundingRelayer env.values env.lookup chainId from_.relayer
  return (relayer, ⟨env.id, call.1, call.2.1, call.2.2, .fast, none, some externalId⟩)

def nativeExternalId (fromAddress relayerAddress : EvmAddress) : String :=
  "automatic_top_up_native_" ++ EvmAddress.hex fromAddress ++ "_" ++ EvmAddress.hex relayerAddress

def erc20ExternalId (token fromAddress relayerAddress : EvmAddress) : String :=
  "automatic_top_up_erc20_" ++ EvmAddress.hex token ++ "_" ++ EvmAddress.hex fromAddress ++ "_" ++
    EvmAddress.hex relayerAddress

/-- A top-up of one address. A failure to queue it is left to the next cycle. -/
def sendTopUp (chainId : ChainId) (from_ : TopUpFrom) (relayerAddress : EvmAddress)
    (call : EvmAddress × ℕ × TransactionData) (externalId : String) (env : TopUpEnv) :
    AutomaticTopUpTask × Except TopUpError TransactionId :=
  match w.prepareTopUp chainId from_ relayerAddress call externalId env with
  | .error error => (w, .error error)
  | .ok (relayer, toSend) =>
      let (queue, result) := (w.queues relayer.id).addTransaction env.admission toSend
      ({ w with queues := Function.update w.queues relayer.id queue },
        match result with
        | .ok transaction => .ok transaction.id
        | .error error => .error (.notQueued error))

def sendNativeTopUpTransaction (chainId : ChainId) (from_ : TopUpFrom)
    (native : NativeTokenConfig) (relayerAddress : EvmAddress) (env : TopUpEnv) :
    AutomaticTopUpTask × Except TopUpError TransactionId :=
  w.sendTopUp chainId from_ relayerAddress (relayerAddress, native.topUpAmount, [])
    (nativeExternalId from_.relayer relayerAddress) env

def sendErc20TopUpTransaction (chainId : ChainId) (from_ : TopUpFrom) (token : Erc20TokenConfig)
    (relayerAddress : EvmAddress) (env : TopUpEnv) :
    AutomaticTopUpTask × Except TopUpError TransactionId :=
  w.sendTopUp chainId from_ relayerAddress
    (token.address, 0, env.encodeTransfer relayerAddress token.topUpAmount)
    (erc20ExternalId token.address from_.relayer relayerAddress) env

/-- Balances that cannot be read are skipped. -/
def addressesNeedingTopUp (balance : EvmAddress → Except String ℕ) (minBalance : ℕ)
    (addresses : List EvmAddress) : List EvmAddress :=
  addresses.filter fun address =>
    match balance address with
    | .ok balance => decide (balance < minBalance)
    | .error _ => false

def estimateTransactionCost (balances : BalanceEnv) (gasLimit : ℕ) : ℕ :=
  match balances.getGasPrice with
  | .ok gasPrice => gasPrice * gasLimit
  | .error _ => gasLimit * 20000000000

def checkNativeFromAddressBalance (balances : BalanceEnv) (fromAddress : EvmAddress)
    (native : NativeTokenConfig) (count : ℕ) : Except String Bool := do
  let balance ← balances.getBalance fromAddress
  let minRequiredBalance :=
    (native.topUpAmount + estimateTransactionCost balances 21000) * count
  return !decide (balance < minRequiredBalance)

def checkErc20FromAddressBalance (balances : BalanceEnv) (fromAddress : EvmAddress)
    (token : Erc20TokenConfig) (count : ℕ) : Except String Bool := do
  let tokenBalance ← balances.getErc20Balance token.address fromAddress
  let nativeBalance ← balances.getBalance fromAddress
  let totalGasRequired := estimateTransactionCost balances 65000 * count
  if nativeBalance < totalGasRequired then return false
  return !decide (tokenBalance < token.topUpAmount * count)

/-- The addresses that a cycle tops up. A balance of the funding relayer that cannot be read does
not hold them back. -/
def decided (served : Bool) (chainId : ChainId) (config : NetworkAutomaticTopUpConfig)
    (asset : TopUpAsset) (balances : BalanceEnv) : List EvmAddress :=
  match w.resolveRelayerAddresses served chainId config.relayers config.from_.relayer with
  | .error _ => []
  | .ok addresses =>
    let needing := match asset with
      | .native native => addressesNeedingTopUp balances.getBalance native.minBalance addresses
      | .erc20 token =>
          addressesNeedingTopUp (balances.getErc20Balance token.address) token.minBalance addresses
    let sufficient := match asset with
      | .native native =>
          checkNativeFromAddressBalance balances config.from_.relayer native needing.length
      | .erc20 token =>
          checkErc20FromAddressBalance balances config.from_.relayer token needing.length
    match sufficient with
    | .ok false => []
    | _ => needing

def sendAsset (chainId : ChainId) (from_ : TopUpFrom) (asset : TopUpAsset)
    (relayerAddress : EvmAddress) (env : TopUpEnv) :
    AutomaticTopUpTask × Except TopUpError TransactionId :=
  match asset with
  | .native native => w.sendNativeTopUpTransaction chainId from_ native relayerAddress env
  | .erc20 token => w.sendErc20TopUpTransaction chainId from_ token relayerAddress env

/-- One top-up after the other. -/
def topUpStep (chainId : ChainId) (from_ : TopUpFrom) (asset : TopUpAsset)
    (envs : ℕ → TopUpEnv) (w : AutomaticTopUpTask) (topUp : EvmAddress × ℕ) : AutomaticTopUpTask :=
  (w.sendAsset chainId from_ asset topUp.1 (envs topUp.2)).1

def step (w : AutomaticTopUpTask) : TopUpEvent → AutomaticTopUpTask
  | .relayers table => { w with table := table }
  | .refresh chainId served => w.refreshRelayerCache chainId served
  | .queue relayerId event =>
      { w with
        queues := Function.update w.queues relayerId ((w.queues relayerId).step event) }
  | .topUp chainId config asset served balances envs =>
      EventMachine.run (topUpStep chainId config.from_ asset envs) w
        (w.decided served chainId config asset balances).zipIdx

abbrev run (w : AutomaticTopUpTask) (es : List TopUpEvent) : AutomaticTopUpTask :=
  EventMachine.run step w es

end AutomaticTopUpTask

end Rrelayer
