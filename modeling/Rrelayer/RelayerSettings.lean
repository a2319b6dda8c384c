import Rrelayer.AppState
import Rrelayer.System
import Rrelayer.Lib.Machine

/-! The settings of a relayer, which an update writes twice: to its record and to its queue. -/
namespace Rrelayer

namespace TransactionsQueue

variable (q : TransactionsQueue)

def setIsLegacyTransactions (isLegacyTransactions : Bool) : TransactionsQueue :=
  { q with relayer := { q.relayer with eip1559Enabled := isLegacyTransactions } }

def setIsPaused (isPaused : Bool) : TransactionsQueue :=
  { q with relayer := { q.relayer with paused := isPaused } }

def setMaxGasPrice (maxGasPrice : Option ℕ) : TransactionsQueue :=
  { q with relayer := { q.relayer with maxGasPrice := maxGasPrice } }

end TransactionsQueue

/-- The records that are not deleted, and the queues in memory. -/
structure LiveSettings where
  records : List Relayer
  queues : RelayerId → Option TransactionsQueue

/-- What an update asks of the outside. A relayer in the cache is not looked up. -/
structure SettingsEnv where
  basicAuth : Bool
  cached : Bool
  read : Bool
  write : Bool
  databaseError : String
  deriving DecidableEq, Repr

inductive SettingsUpdate where
  | pause
  | unpause
  | maxGasPrice (cap : ℕ)
  | eip1559Status (enabled : Bool)
  deriving DecidableEq, Repr

structure SettingsRequest where
  env : SettingsEnv
  relayerId : RelayerId
  update : SettingsUpdate
  deriving DecidableEq, Repr

def SettingsUpdate.isEip1559Status : SettingsUpdate → Bool
  | .eip1559Status _ => true
  | _ => false

/-- An update of a relayer that exists gets through with these answers. -/
def SettingsEnv.served (env : SettingsEnv) : Bool :=
  env.basicAuth && (env.cached || env.read) && env.write

namespace LiveSettings

variable (s : LiveSettings) (env : SettingsEnv) (id : RelayerId)

def record : Option Relayer := s.records.find? (·.id == id)

def relayerExists : Except HttpError Bool :=
  if env.cached then .ok true
  else if env.read then .ok (s.record id).isSome
  else .error (internalServerError (some env.databaseError))

/-- The shape of every update: the column is written first, then the queue's copy is set. -/
def updateSetting (storable : Bool) (column : Relayer → Relayer)
    (setter : TransactionsQueue → TransactionsQueue) : LiveSettings × Except HttpError Unit :=
  if !env.basicAuth then (s, .error (unauthorized none))
  else match s.relayerExists env id with
    | .error e => (s, .error e)
    | .ok false => (s, .error (notFound "Relayer does not exist"))
    | .ok true =>
        if !(env.write && storable) then
          (s, .error (internalServerError (some env.databaseError)))
        else
          ({ records := s.records.map fun r => if r.id == id then column r else r
             queues := fun x => if x == id then (s.queues x).map setter else s.queues x }, .ok ())

def pauseRelayer : LiveSettings × Except HttpError Unit :=
  s.updateSetting env id true (fun r => { r with paused := true }) (·.setIsPaused true)

def unpauseRelayer : LiveSettings × Except HttpError Unit :=
  s.updateSetting env id true (fun r => { r with paused := false }) (·.setIsPaused false)

/-- A cap of zero takes the cap away. The column holds a 96-bit decimal. -/
def updateRelayMaxGasPrice (cap : ℕ) : LiveSettings × Except HttpError Unit :=
  let maxGasPrice := if cap > 0 then some cap else none
  s.updateSetting env id (maxGasPrice.all fun cap => decide (cap < 2 ^ 96))
    (fun r => { r with maxGasPrice := maxGasPrice }) (·.setMaxGasPrice maxGasPrice)

def updateRelayEip1559Status (enabled : Bool) : LiveSettings × Except HttpError Unit :=
  s.updateSetting env id true (fun r => { r with eip1559Enabled := enabled })
    (·.setIsLegacyTransactions (!enabled))

def apply (request : SettingsRequest) : LiveSettings × Except HttpError Unit :=
  match request.update with
  | .pause => s.pauseRelayer request.env request.relayerId
  | .unpause => s.unpauseRelayer request.env request.relayerId
  | .maxGasPrice cap => s.updateRelayMaxGasPrice request.env request.relayerId cap
  | .eip1559Status enabled =>
      s.updateRelayEip1559Status request.env request.relayerId enabled

def step (s : LiveSettings) (request : SettingsRequest) : LiveSettings := (s.apply request).1

abbrev run (s : LiveSettings) (requests : List SettingsRequest) : LiveSettings :=
  EventMachine.run step s requests

/-- The record and the queue of a live relayer stand in the relation. -/
def Agrees (P : Relayer → Relayer → Prop) (s : LiveSettings) (id : RelayerId) : Prop :=
  ∃ r q, s.record id = some r ∧ s.queues id = some q ∧ P r q.relayer

end LiveSettings

/-- The settings that bound the price are the same. -/
structure SamePrice (r r' : Relayer) : Prop where
  paused : r.paused = r'.paused
  maxGasPrice : r.maxGasPrice = r'.maxGasPrice

structure SameSettings (r r' : Relayer) : Prop extends SamePrice r r' where
  eip1559Enabled : r.eip1559Enabled = r'.eip1559Enabled

namespace LiveSettings

variable {s : LiveSettings} {id : RelayerId}

/-- An update reaches a live relayer in both copies when it is its own and gets through, and else
in neither. -/
theorem updateSetting_live (env : SettingsEnv) (id : RelayerId) (storable : Bool)
    (column : Relayer → Relayer) (setter : TransactionsQueue → TransactionsQueue)
    {x : RelayerId} {r : Relayer} {q : TransactionsQueue} (hcolumn : ∀ r, (column r).id = r.id)
    (hr : s.record x = some r) (hq : s.queues x = some q) :
    (s.updateSetting env id storable column setter).1.record x =
        some (if x = id ∧ (env.served && storable) = true then column r else r) ∧
      (s.updateSetting env id storable column setter).1.queues x =
        some (if x = id ∧ (env.served && storable) = true then setter q else q) := by
  have hid : r.id = x := by simpa using List.find?_some hr
  have hmapped (y : RelayerId) : (s.records.map fun r => if r.id == y then column r else r).find?
      (·.id == x) = some (if x = y then column r else r) := by
    rw [List.find?_map]
    have hsame : (fun r : Relayer => r.id == x) ∘ (fun r => if r.id == y then column r else r) =
        fun r => r.id == x := by
      funext r
      dsimp only [Function.comp]
      split
      · rw [hcolumn]
      · rfl
    rw [hsame]
    unfold record at hr
    rw [hr, Option.map_some, hid]
    simp
  by_cases hother : x = id
  · subst hother
    have hexists : s.relayerExists env x = if env.cached || env.read then .ok true
        else .error (internalServerError (some env.databaseError)) := by
      unfold relayerExists
      rw [hr]
      cases env.cached <;> cases env.read <;> rfl
    unfold updateSetting SettingsEnv.served
    rw [hexists]
    cases env.basicAuth
    · exact ⟨by simpa using hr, by simpa using hq⟩
    cases env.cached || env.read
    · exact ⟨by simpa using hr, by simpa using hq⟩
    cases env.write
    · exact ⟨by simpa using hr, by simpa using hq⟩
    cases storable
    · exact ⟨by simpa using hr, by simpa using hq⟩
    · constructor
      · show (s.records.map _).find? _ = _
        rw [hmapped x]
        simp
      · simp [hq]
  · simp only [hother, false_and, if_false]
    unfold updateSetting
    split
    · exact ⟨hr, hq⟩
    split
    · exact ⟨hr, hq⟩
    · exact ⟨hr, hq⟩
    split
    · exact ⟨hr, hq⟩
    · constructor
      · show (s.records.map _).find? _ = _
        rw [hmapped id, if_neg hother]
      · simpa [hother] using hq

/-- The update of the EIP-1559 flag gets through to the relayer. -/
def Inverts (id : RelayerId) (request : SettingsRequest) : Prop :=
  id = request.relayerId ∧ request.update.isEip1559Status = true ∧ request.env.served = true

/-- An update that sets the same price bounds in both copies leaves the types alone. -/
theorem updateSetting_price (env : SettingsEnv) (id : RelayerId) (storable : Bool)
    (column : Relayer → Relayer) (setter : TransactionsQueue → TransactionsQueue)
    {x : RelayerId} {r : Relayer} {q : TransactionsQueue} (hcolumn : ∀ r, (column r).id = r.id)
    (hr : s.record x = some r) (hq : s.queues x = some q)
    (hprice : SamePrice r q.relayer) (hset : SamePrice (column r) (setter q).relayer)
    (hrecord : (column r).eip1559Enabled = r.eip1559Enabled)
    (hqueue : (setter q).relayer.eip1559Enabled = q.relayer.eip1559Enabled) :
    ∃ r' q', (s.updateSetting env id storable column setter).1.record x = some r' ∧
      (s.updateSetting env id storable column setter).1.queues x = some q' ∧
      SamePrice r' q'.relayer ∧ (r'.eip1559Enabled = q'.relayer.eip1559Enabled ↔
        r.eip1559Enabled = q.relayer.eip1559Enabled) := by
  obtain ⟨hr', hq'⟩ := updateSetting_live env id storable column setter hcolumn hr hq
  refine ⟨_, _, hr', hq', ?_⟩
  split
  · exact ⟨hset, by rw [hrecord, hqueue]⟩
  · exact ⟨hprice, Iff.rfl⟩

/-- What one update does to both copies of a live relayer's settings. -/
theorem step_live (request : SettingsRequest) {r : Relayer} {q : TransactionsQueue}
    (hr : s.record id = some r) (hq : s.queues id = some q) (hprice : SamePrice r q.relayer) :
    ∃ r' q', (s.step request).record id = some r' ∧ (s.step request).queues id = some q' ∧
      SamePrice r' q'.relayer ∧ (r'.eip1559Enabled = q'.relayer.eip1559Enabled ↔
        r.eip1559Enabled = q.relayer.eip1559Enabled ∧ ¬ Inverts id request) := by
  obtain ⟨env, x, update⟩ := request
  have hother (h : update.isEip1559Status = false) : ¬ Inverts id ⟨env, x, update⟩ := by
    rintro ⟨-, heip, -⟩
    rw [h] at heip
    cases heip
  cases update with
  | pause =>
    obtain ⟨r', q', hr', hq', hsame, htype⟩ := updateSetting_price env x true
      (fun r => { r with paused := true }) (·.setIsPaused true) (by intro; rfl) hr hq hprice
      ⟨rfl, hprice.maxGasPrice⟩ rfl rfl
    exact ⟨r', q', hr', hq', hsame, htype.trans (iff_self_and.mpr fun _ => hother rfl)⟩
  | unpause =>
    obtain ⟨r', q', hr', hq', hsame, htype⟩ := updateSetting_price env x true
      (fun r => { r with paused := false }) (·.setIsPaused false) (by intro; rfl) hr hq hprice
      ⟨rfl, hprice.maxGasPrice⟩ rfl rfl
    exact ⟨r', q', hr', hq', hsame, htype.trans (iff_self_and.mpr fun _ => hother rfl)⟩
  | maxGasPrice cap =>
    obtain ⟨r', q', hr', hq', hsame, htype⟩ := updateSetting_price env x
      ((if cap > 0 then some cap else none).all fun cap => decide (cap < 2 ^ 96))
      (fun r => { r with maxGasPrice := if cap > 0 then some cap else none })
      (·.setMaxGasPrice (if cap > 0 then some cap else none)) (by intro; rfl) hr hq hprice
      ⟨hprice.paused, rfl⟩ rfl rfl
    exact ⟨r', q', hr', hq', hsame, htype.trans (iff_self_and.mpr fun _ => hother rfl)⟩
  | eip1559Status enabled =>
    obtain ⟨hr', hq'⟩ := updateSetting_live env x true
      (fun r => { r with eip1559Enabled := enabled }) (·.setIsLegacyTransactions (!enabled))
      (by intro; rfl) hr hq
    refine ⟨_, _, hr', hq', ?_⟩
    rw [Bool.and_true]
    split
    · rename_i htakes
      refine ⟨⟨hprice.paused, hprice.maxGasPrice⟩, ?_⟩
      -- The setter negates what the caller has negated already.
      have hinverts : Inverts id ⟨env, x, .eip1559Status enabled⟩ :=
        ⟨htakes.1, rfl, htakes.2⟩
      simp [hinverts, TransactionsQueue.setIsLegacyTransactions]
    · rename_i hmisses
      refine ⟨hprice, iff_self_and.mpr fun _ => ?_⟩
      rintro ⟨hid, -, hserved⟩
      exact hmisses ⟨hid, hserved⟩

/-- Over a run the price bounds stay the same, and the types do unless one update inverts them. -/
theorem run_live (requests : List SettingsRequest) {r : Relayer} {q : TransactionsQueue}
    (hr : s.record id = some r) (hq : s.queues id = some q) (hprice : SamePrice r q.relayer) :
    ∃ r' q', (s.run requests).record id = some r' ∧ (s.run requests).queues id = some q' ∧
      SamePrice r' q'.relayer ∧ (r'.eip1559Enabled = q'.relayer.eip1559Enabled ↔
        r.eip1559Enabled = q.relayer.eip1559Enabled ∧ ∀ u ∈ requests, ¬ Inverts id u) := by
  induction requests generalizing s r q with
  | nil => exact ⟨r, q, hr, hq, hprice, by simp⟩
  | cons request requests ih =>
    obtain ⟨r₁, q₁, hr₁, hq₁, hprice₁, htype₁⟩ := step_live request hr hq hprice
    obtain ⟨r', q', hr', hq', hprice', htype'⟩ := ih hr₁ hq₁ hprice₁
    refine ⟨r', q', hr', hq', hprice', ?_⟩
    rw [htype', htype₁, List.forall_mem_cons, and_assoc]

/-- After any sequence of updates the queue's copy of the settings is the record's exactly when no
EIP-1559 update of the relayer got through. -/
theorem settings_mirrored_iff (s : LiveSettings) (id : RelayerId) (requests : List SettingsRequest)
    (h : s.Agrees SameSettings id) : (s.run requests).Agrees SameSettings id ↔
      ∀ u ∈ requests, u.relayerId = id → u.update.isEip1559Status = true →
        u.env.served = false := by
  obtain ⟨r, q, hr, hq, hsame⟩ := h
  obtain ⟨r', q', hr', hq', hprice', htype'⟩ := run_live requests hr hq hsame.toSamePrice
  have hagrees : (s.run requests).Agrees SameSettings id ↔
      r'.eip1559Enabled = q'.relayer.eip1559Enabled := by
    constructor
    · rintro ⟨r'', q'', hr'', hq'', hsame''⟩
      cases hr'.symm.trans hr''
      cases hq'.symm.trans hq''
      exact hsame''.eip1559Enabled
    · intro htype
      exact ⟨r', q', hr', hq', ⟨hprice', htype⟩⟩
  rw [hagrees, htype']
  unfold Inverts
  constructor
  · rintro ⟨-, hnone⟩ u hu hid heip
    by_contra hserved
    exact hnone u hu ⟨hid.symm, heip, by simpa using hserved⟩
  · intro hnone
    refine ⟨hsame.eip1559Enabled, ?_⟩
    rintro u hu ⟨hid, heip, hserved⟩
    rw [hnone u hu hid.symm heip] at hserved
    cases hserved

/-- A relayer that has just come up, and its record. -/
def freshSettings : LiveSettings where
  records := [freshQueue.relayer]
  queues := fun id => if id == 0 then some freshQueue else none

theorem freshSettings_agrees : freshSettings.Agrees SameSettings 0 :=
  ⟨freshQueue.relayer, freshQueue, rfl, rfl, ⟨⟨rfl, rfl⟩, rfl⟩⟩

def servedSettings : SettingsEnv := ⟨true, false, true, true, ""⟩

/-- A pause and a new cap are the same on both sides. -/
theorem settings_mirrored_paused : (freshSettings.run [⟨servedSettings, 0, .pause⟩,
    ⟨servedSettings, 0, .maxGasPrice 50⟩]).Agrees SameSettings 0 :=
  (settings_mirrored_iff freshSettings 0 _ freshSettings_agrees).mpr (by decide)

/-- Enabling what is enabled makes the queue send legacy transactions. -/
theorem settings_mirrored_fails : ¬ ∀ (s : LiveSettings) id requests, s.Agrees SameSettings id →
    (s.run requests).Agrees SameSettings id := by
  intro hmirrored
  obtain ⟨r, q, hr, hq, hsame⟩ := hmirrored freshSettings 0
    [⟨servedSettings, 0, .eip1559Status true⟩] freshSettings_agrees
  cases hr
  cases hq
  cases hsame.eip1559Enabled

end LiveSettings
end Rrelayer
