import Rrelayer.Transaction
import Mathlib.Data.List.Basic

/-! The API keys of the networks, and the three lookups that say which relayers a key may act on. -/
namespace Rrelayer

/-- A header value, as far as it is read: its text, if it is any. -/
structure HeaderValue where
  toStr : Option String
  deriving DecidableEq, Repr

/-- The first value of each header. -/
abbrev HeaderMap := String → Option HeaderValue

structure ApiKey where
  relayer : EvmAddress
  keys : List String
  deriving DecidableEq, Repr

structure ApiKeyAccess where
  chainId : ChainId
  relayers : List EvmAddress
  deriving DecidableEq, Repr

/-- The keys as configured, network by network. Nothing checks that a network or a relayer is
listed once. -/
abbrev ApiKeys := List (ChainId × List ApiKey)

def apiKeyHeader : String := "x-rrelayer-api-key"

def HeaderMap.apiKey (headers : HeaderMap) : Option String :=
  (headers apiKeyHeader).bind HeaderValue.toStr

namespace ApiKeys

variable (apiKeys : ApiKeys) (headers : HeaderMap)

def findApiKeys (chainId : ChainId) : Option (List ApiKey) :=
  (apiKeys.find? fun k => k.1 == chainId).map (·.2)

/-- The loop of `is_api_key_valid_for_relayer`: the first entry of the relayer decides. -/
def validLoop (apiKey : String) (relayer : EvmAddress) : List ApiKey → Bool
  | [] => false
  | config :: rest =>
      if config.relayer == relayer then config.keys.contains apiKey
      else validLoop apiKey relayer rest

def isApiKeyValidForRelayer (relayer : EvmAddress) (chainId : ChainId) : Bool :=
  match headers.apiKey with
  | none => false
  | some apiKey =>
      match apiKeys.findApiKeys chainId with
      | none => false
      | some keys => validLoop apiKey relayer keys

/-- The relayers of the entries that hold the key. -/
def accessibleRelayers (apiKey : String) (keys : List ApiKey) : List EvmAddress :=
  (keys.filter fun config => config.keys.contains apiKey).map (·.relayer)

def validateApiKeyAndGetRelayers (chainId : ChainId) : Option (List EvmAddress) := do
  let apiKey ← headers.apiKey
  let keys ← apiKeys.findApiKeys chainId
  let accessible := accessibleRelayers apiKey keys
  if accessible.isEmpty then none else some accessible

/-- Goes over all networks, also over several of one chain. -/
def getApiKeyAccess : Option (List ApiKeyAccess) := do
  let apiKey ← headers.apiKey
  let access := apiKeys.filterMap fun (chainId, keys) =>
    let relayers := accessibleRelayers apiKey keys
    if relayers.isEmpty then none else some (⟨chainId, relayers⟩ : ApiKeyAccess)
  if access.isEmpty then none else some access

/-- The relayer is in the list that `validate_api_key_and_get_relayers` returns. -/
def Returned (relayer : EvmAddress) (chainId : ChainId) : Prop :=
  ∃ relayers ∈ apiKeys.validateApiKeyAndGetRelayers headers chainId, relayer ∈ relayers

/-- `get_api_key_access` lists the relayer for the chain. -/
def Listed (relayer : EvmAddress) (chainId : ChainId) : Prop :=
  ∃ list ∈ apiKeys.getApiKeyAccess headers, ∃ access ∈ list,
    access.chainId = chainId ∧ relayer ∈ access.relayers

/-- The three lookups say the same of the key, the relayer and the chain. -/
structure OneMeaning (relayer : EvmAddress) (chainId : ChainId) : Prop where
  returned : apiKeys.isApiKeyValidForRelayer headers relayer chainId = true ↔
    apiKeys.Returned headers relayer chainId
  listed : apiKeys.isApiKeyValidForRelayer headers relayer chainId = true ↔
    apiKeys.Listed headers relayer chainId

/-- The entry that decides: the relayer's first one in the first section of the chain. -/
def firstEntry (relayer : EvmAddress) (chainId : ChainId) : Option ApiKey :=
  (apiKeys.findApiKeys chainId).bind fun keys => keys.find? fun config => config.relayer == relayer

/-- Some entry of the relayer, in some section of the chain, holds the key. -/
def Granted (apiKey : String) (relayer : EvmAddress) (chainId : ChainId) : Prop :=
  ∃ keys, (chainId, keys) ∈ apiKeys ∧ ∃ config ∈ keys, config.relayer = relayer ∧
    apiKey ∈ config.keys

variable {apiKeys headers} {relayer : EvmAddress} {chainId : ChainId} {apiKey : String}

theorem mem_accessibleRelayers {keys : List ApiKey} :
    relayer ∈ accessibleRelayers apiKey keys ↔
      ∃ config ∈ keys, config.relayer = relayer ∧ apiKey ∈ config.keys := by
  unfold accessibleRelayers
  simp only [List.mem_map, List.mem_filter, List.contains_iff_mem]
  constructor
  · rintro ⟨config, ⟨hmem, hkey⟩, hrelayer⟩
    exact ⟨config, hmem, hrelayer, hkey⟩
  · rintro ⟨config, hmem, hrelayer, hkey⟩
    exact ⟨config, ⟨hmem, hkey⟩, hrelayer⟩

theorem validLoop_iff {keys : List ApiKey} : validLoop apiKey relayer keys = true ↔
    ∃ config ∈ keys.find? (fun config => config.relayer == relayer), apiKey ∈ config.keys := by
  induction keys with
  | nil => simp [validLoop]
  | cons config rest ih =>
    unfold validLoop
    by_cases hrelayer : (config.relayer == relayer) = true
    · rw [if_pos hrelayer, List.find?_cons_of_pos (p := fun c : ApiKey => c.relayer == relayer)
        hrelayer]
      simp
    · rw [if_neg hrelayer, ih, List.find?_cons_of_neg (p := fun c : ApiKey => c.relayer == relayer)
        (by simpa using hrelayer)]

theorem isApiKeyValidForRelayer_iff (hkey : headers.apiKey = some apiKey) :
    apiKeys.isApiKeyValidForRelayer headers relayer chainId = true ↔
      ∃ config ∈ apiKeys.firstEntry relayer chainId, apiKey ∈ config.keys := by
  unfold isApiKeyValidForRelayer firstEntry
  rw [hkey]
  cases apiKeys.findApiKeys chainId with
  | none => simp
  | some keys => exact validLoop_iff

theorem returned_iff (hkey : headers.apiKey = some apiKey) :
    apiKeys.Returned headers relayer chainId ↔
      ∃ keys ∈ apiKeys.findApiKeys chainId, ∃ config ∈ keys, config.relayer = relayer ∧
        apiKey ∈ config.keys := by
  unfold Returned validateApiKeyAndGetRelayers
  rw [hkey]
  cases hfound : apiKeys.findApiKeys chainId with
  | none => simp
  | some keys =>
    simp only [Option.bind_eq_bind, Option.bind_some, Option.mem_some_iff, exists_eq_left']
    rw [← mem_accessibleRelayers]
    by_cases hempty : (accessibleRelayers apiKey keys).isEmpty = true
    · rw [if_pos hempty, List.isEmpty_iff.mp hempty]
      simp
    · rw [if_neg hempty]
      simp

theorem listed_iff (hkey : headers.apiKey = some apiKey) :
    apiKeys.Listed headers relayer chainId ↔ apiKeys.Granted apiKey relayer chainId := by
  have hlist : (∃ list ∈ apiKeys.getApiKeyAccess headers, ∃ access ∈ list,
      access.chainId = chainId ∧ relayer ∈ access.relayers) ↔
      ∃ access ∈ apiKeys.filterMap (fun (chainId, keys) =>
        let relayers := accessibleRelayers apiKey keys
        if relayers.isEmpty then none else some (⟨chainId, relayers⟩ : ApiKeyAccess)),
        access.chainId = chainId ∧ relayer ∈ access.relayers := by
    unfold getApiKeyAccess
    rw [hkey]
    simp only [Option.bind_eq_bind, Option.bind_some]
    split
    · rename_i hempty
      rw [List.isEmpty_iff.mp hempty]
      simp
    · simp
  unfold Listed Granted
  rw [hlist]
  constructor
  · rintro ⟨access, hmem, rfl, hrelayer⟩
    obtain ⟨⟨chain, keys⟩, hsection, haccess⟩ := List.mem_filterMap.mp hmem
    dsimp only at haccess
    split at haccess
    · cases haccess
    · cases haccess
      exact ⟨keys, hsection, mem_accessibleRelayers.mp hrelayer⟩
  · rintro ⟨keys, hsection, hgranted⟩
    have hrelayer := mem_accessibleRelayers.mpr hgranted
    refine ⟨⟨chainId, accessibleRelayers apiKey keys⟩, List.mem_filterMap.mpr
      ⟨(chainId, keys), hsection, ?_⟩, rfl, hrelayer⟩
    have hnonempty : (accessibleRelayers apiKey keys).isEmpty = false := by
      rw [List.isEmpty_eq_false_iff]
      exact List.ne_nil_of_mem hrelayer
    dsimp only
    rw [hnonempty]
    rfl

theorem mem_of_findApiKeys {keys : List ApiKey} (h : apiKeys.findApiKeys chainId = some keys) :
    (chainId, keys) ∈ apiKeys := by
  obtain ⟨⟨chain, _⟩, hfound, rfl⟩ := Option.map_eq_some_iff.mp h
  have hchain : chain = chainId := by simpa using List.find?_some hfound
  exact hchain ▸ List.mem_of_find?_eq_some hfound

/-- The three lookups agree on a triple exactly when a grant anywhere is one of the entry that
decides. -/
theorem api_key_access_iff (apiKeys : ApiKeys) (headers : HeaderMap) (relayer : EvmAddress)
    (chainId : ChainId) : apiKeys.OneMeaning headers relayer chainId ↔
      ∀ apiKey ∈ headers.apiKey, apiKeys.Granted apiKey relayer chainId →
        ∃ config ∈ apiKeys.firstEntry relayer chainId, apiKey ∈ config.keys := by
  cases hkey : headers.apiKey with
  | none =>
    constructor
    · intro _ apiKey hnone
      cases hnone
    · intro _
      constructor
      · simp [isApiKeyValidForRelayer, Returned, validateApiKeyAndGetRelayers, hkey]
      · simp [isApiKeyValidForRelayer, Listed, getApiKeyAccess, hkey]
  | some apiKey =>
    have hvalid := @isApiKeyValidForRelayer_iff apiKeys headers relayer chainId apiKey hkey
    have hlisted := @listed_iff apiKeys headers relayer chainId apiKey hkey
    have hreturned := @returned_iff apiKeys headers relayer chainId apiKey hkey
    -- The entry that decides is one the other two lookups see as well.
    have hfirst : (∃ config ∈ apiKeys.firstEntry relayer chainId, apiKey ∈ config.keys) →
        ∃ keys ∈ apiKeys.findApiKeys chainId, ∃ config ∈ keys, config.relayer = relayer ∧
          apiKey ∈ config.keys := by
      rintro ⟨config, hconfig, hmem⟩
      obtain ⟨keys, hkeys, hfound⟩ := Option.bind_eq_some_iff.mp hconfig
      exact ⟨keys, hkeys, config, List.mem_of_find?_eq_some hfound,
        by simpa using List.find?_some hfound, hmem⟩
    have hgranted : (∃ keys ∈ apiKeys.findApiKeys chainId, ∃ config ∈ keys,
        config.relayer = relayer ∧ apiKey ∈ config.keys) →
          apiKeys.Granted apiKey relayer chainId := by
      rintro ⟨keys, hkeys, hentry⟩
      exact ⟨keys, mem_of_findApiKeys hkeys, hentry⟩
    constructor
    · intro hone key hmem hgrant
      cases hmem
      exact hvalid.mp (hone.listed.mpr (hlisted.mpr hgrant))
    · intro hdecides
      have hback := hdecides apiKey rfl
      constructor
      · rw [hvalid, hreturned]
        exact ⟨hfirst, fun h => hback (hgranted h)⟩
      · rw [hvalid, hlisted]
        exact ⟨fun h => hgranted (hfirst h), hback⟩

/-- One header. -/
def keyHeaders (value : HeaderValue) : HeaderMap := fun name =>
  if name == apiKeyHeader then some value else none

/-- A relayer listed twice, with one key each time. -/
def listedTwice : ApiKeys := [(1, [⟨7, ["a"]⟩, ⟨7, ["b"]⟩])]

theorem api_key_access_fails : ¬ ∀ apiKeys headers relayer chainId,
    OneMeaning apiKeys headers relayer chainId := by
  intro hone
  have htwice := (hone listedTwice (keyHeaders ⟨some "b"⟩) 7 1).returned
  have hrefused : listedTwice.isApiKeyValidForRelayer (keyHeaders ⟨some "b"⟩) 7 1 = false := by
    decide +kernel
  rw [hrefused] at htwice
  have hreturned : listedTwice.validateApiKeyAndGetRelayers (keyHeaders ⟨some "b"⟩) 1 = some [7] := by
    decide +kernel
  have hseen := htwice.mpr ⟨[7], hreturned, List.mem_singleton_self 7⟩
  cases hseen

end ApiKeys
end Rrelayer
