import Rrelayer.AppState
import Rrelayer.System

/-! Whether a payload that got into a queue is one its relayer may send. A send checks the payload
it was given; a replace checks the one it is about to overwrite, and no manager for blobs. -/
namespace Rrelayer

section Guards

variable {ε ε' α : Type} {x : Except ε α}

theorem Except.mapError_eq_ok {g : ε → ε'} {a : α} : x.mapError g = .ok a ↔ x = .ok a := by
  cases x <;> simp [Except.mapError]

end Guards

/-- The entry lets the relayer send value to the address. -/
def NetworkPermissionsConfig.Allows (p : NetworkPermissionsConfig) (toAddress : EvmAddress)
    (value : TransactionValue) : Prop :=
  p.disableTransactions.getD false = false ∧
    (p.allowlist = [] ∨ toAddress ∈ p.allowlist) ∧
    (value = 0 ∨ p.disableNativeTransfer.getD false = false)

namespace AppState

variable (state : AppState)

/-- Every entry of the chain that names the relayer allows the payload. -/
def EntriesAllow (relayer : EvmAddress) (chainId : ChainId) (toAddress : EvmAddress)
    (value : TransactionValue) : Prop :=
  ∀ permissions, state.findNetworkPermission chainId = some permissions →
    ∀ p ∈ permissions, p.relayers.contains relayer = true → p.Allows toAddress value

/-- The law of a send: the payload passes the relayer's permissions, and the manager holding the
relayer's key supports the blobs it carries. -/
def Permits (s : ServedRelayer) (request : RelayRequest) : Prop :=
  state.networkPermissionValidate s.record.address s.record.chainId request.toAddress request.value
      .transaction = .ok () ∧
    (request.blobs.isSome = true → s.ownManagerSupportsBlobs = true)

end AppState

/-- Blob support comes from the manager that does not hold the relayer's key. -/
def ServedRelayer.BlobsElsewhere (s : ServedRelayer) : Prop :=
  (∃ m, s.provider.walletManager = .composite m) ∧ s.ownManagerSupportsBlobs = false

namespace AppState

/-- No entry of the chain that names the relayer keeps the recipient off its allowlist or
forbids the value. -/
def Lists (state : AppState) (relayer : EvmAddress) (chainId : ChainId) (toAddress : EvmAddress)
    (value : TransactionValue) : Prop :=
  ∀ permissions, state.findNetworkPermission chainId = some permissions →
    ∀ p ∈ permissions, p.relayers.contains relayer = true →
      (p.allowlist = [] ∨ toAddress ∈ p.allowlist) ∧
        (value = 0 ∨ p.disableNativeTransfer.getD false = false)

end AppState

/-- When the path keeps the law. -/
def AdmissionPath.Keeps (state : AppState) (s : ServedRelayer) (request : RelayRequest) :
    AdmissionPath → Prop
  | .send .. => ¬ (request.blobs.isSome = true ∧ s.BlobsElsewhere)
  | .sendRandom .. => ¬ (request.blobs.isSome = true ∧ s.BlobsElsewhere)
  | .replace .. =>
      state.Lists s.record.address s.record.chainId request.toAddress request.value ∧
        ¬ (request.blobs.isSome = true ∧ s.ownManagerSupportsBlobs = false)

section Validation

variable {state : AppState} {relayer toAddress : EvmAddress} {value : TransactionValue}
  {chainId : ChainId}

theorem NetworkPermissionsConfig.validate_ok_iff (p : NetworkPermissionsConfig) :
    p.validate toAddress value .transaction = .ok () ↔ p.Allows toAddress value := by
  unfold NetworkPermissionsConfig.validate NetworkPermissionsConfig.disables
    NetworkPermissionsConfig.Allows
  cases hdisabled : p.disableTransactions.getD false with
  | true => simp
  | false =>
      simp only [Bool.false_eq_true, if_false, true_and]
      by_cases hlist : p.allowlist = [] ∨ toAddress ∈ p.allowlist
      · have hlisted : (!p.allowlist.isEmpty && !p.allowlist.contains toAddress) = false := by
          rcases hlist with hnil | hmem
          · simp [hnil]
          · simp [hmem]
        rw [hlisted]
        by_cases hvalue : value = 0
        · simp [hlist, hvalue]
        · cases hnative : p.disableNativeTransfer.getD false <;> simp [hlist, hvalue]
      · have hunlisted : (!p.allowlist.isEmpty && !p.allowlist.contains toAddress) = true := by
          simp only [not_or] at hlist
          simp [hlist.1, hlist.2]
        rw [hunlisted]
        simp [hlist]

theorem AppState.validateEntries_ok_iff (permissions : List NetworkPermissionsConfig) :
    AppState.validateEntries relayer toAddress value .transaction permissions = .ok () ↔
      ∀ p ∈ permissions, p.relayers.contains relayer = true → p.Allows toAddress value := by
  induction permissions with
  | nil => simp [AppState.validateEntries]
  | cons p ps ih =>
      simp only [AppState.validateEntries, List.mem_cons, forall_eq_or_imp]
      cases hnamed : p.relayers.contains relayer with
      | false => simp [ih]
      | true =>
          rw [← p.validate_ok_iff]
          cases hvalid : p.validate toAddress value .transaction with
          | error e => simp
          | ok u => simp [ih]

theorem AppState.networkPermissionValidate_ok_iff :
    state.networkPermissionValidate relayer chainId toAddress value .transaction = .ok () ↔
      state.EntriesAllow relayer chainId toAddress value := by
  unfold AppState.networkPermissionValidate AppState.EntriesAllow
  cases hfound : state.findNetworkPermission chainId with
  | none => simp
  | some permissions =>
      simp only [Option.some.injEq, forall_eq']
      exact AppState.validateEntries_ok_iff permissions

end Validation

section Paths

variable {state : AppState} {context : RequestContext} {s : ServedRelayer} {request : RelayRequest}

theorem AppState.checkSend_ok (h : state.checkSend context s.record request = .ok ()) :
    state.networkPermissionValidate s.record.address s.record.chainId request.toAddress
      request.value .transaction = .ok () := by
  unfold AppState.checkSend at h
  obtain ⟨-, -, h⟩ := Except.bind_eq_ok.mp h
  obtain ⟨-, -, h⟩ := Except.bind_eq_ok.mp h
  obtain ⟨-, -, h⟩ := Except.bind_eq_ok.mp h
  obtain ⟨_, hpermitted, -⟩ := Except.bind_eq_ok.mp h
  exact hpermitted

theorem Locked.findAdmittedTransaction_some {db : Db} {served : Bool} {relayerId : RelayerId}
    {externalId : Option String} {digest : RequestDigest} {t : Transaction}
    (h : db.findAdmittedTransaction served relayerId externalId digest = .ok (some t)) :
    ∃ r ∈ db.rows, r.toTransaction = t := by
  unfold Db.findAdmittedTransaction at h
  cases externalId with
  | none => cases h
  | some externalId =>
      cases served with
      | false => cases h
      | true =>
          simp only [Bool.not_true, Bool.false_eq_true, if_false] at h
          split at h
          · cases h
          · rename_i r hr
            split at h
            · exact ⟨r, List.mem_of_find?_eq_some hr, by simpa using h⟩
            · cases h

/-- An admission that writes a new row took blobs only if the queue supports them. -/
theorem Locked.addTransaction_blobs {l : Locked} {env : AdmissionEnv} {toSend : TransactionToSend}
    {t : Transaction} (h : (l.addTransaction env toSend).2 = .ok t)
    (hfresh : l.db.row t.id = none) (hblobs : toSend.blobs.isSome = true) :
    l.queue.supportsBlobs = true := by
  unfold Locked.addTransaction at h
  cases hfound : l.db.findAdmittedTransaction env.read l.queue.relayer.id toSend.externalId
      (toSendDigest toSend) with
  | error e => simp [hfound] at h
  | ok found =>
      cases found with
      | some stored =>
          simp only [hfound, Except.ok.injEq] at h
          subst h
          obtain ⟨r, hr, hstored⟩ := findAdmittedTransaction_some hfound
          have hrow : (l.db.row stored.id).isSome = true := by
            rw [Db.row, List.find?_isSome]
            exact ⟨r, hr, by simp [← hstored]⟩
          rw [hfresh] at hrow
          cases hrow
      | none =>
          simp only [hfound] at h
          by_contra hunsupported
          have hrefused : (toSend.blobs.isSome && !l.queue.supportsBlobs) = true := by
            simpa [hblobs] using hunsupported
          rw [if_pos hrefused] at h
          split at h
          · cases h
          · cases h

theorem Locked.decodeBlobs_isSome {request : RelayTransactionRequest}
    {blobs : Option (List TransactionBlob)} (h : Locked.decodeBlobs request = .ok blobs) :
    blobs.isSome = request.blobs.isSome := by
  unfold Locked.decodeBlobs at h
  cases hblobs : request.blobs with
  | none =>
      simp only [hblobs, Except.ok.injEq] at h
      rw [← h]
      rfl
  | some decoded =>
      cases decoded with
      | error e => simp [hblobs, Except.map] at h
      | ok decoded =>
          simp only [hblobs, Except.map, Except.ok.injEq] at h
          rw [← h]
          rfl

theorem AppState.sendTransaction_admitted {env : AdmissionEnv} {newId : TransactionId}
    {admitted : Admitted} (h : state.sendTransaction context env newId s request = .ok admitted)
    (hqueue : admitted.inQueue = true) (hfresh : s.locked.db.row newId = none) :
    state.networkPermissionValidate s.record.address s.record.chainId request.toAddress
        request.value .transaction = .ok () ∧
      (request.blobs.isSome = true → s.provider.walletManager.supportsBlobs = true) := by
  unfold AppState.sendTransaction at h
  obtain ⟨_, hcheck, h⟩ := Except.bind_eq_ok.mp h
  have hpermitted := AppState.checkSend_ok (Except.mapError_eq_ok.mp hcheck)
  refine ⟨hpermitted, ?_⟩
  intro hblobs
  obtain ⟨found, -, h⟩ := Except.bind_eq_ok.mp h
  cases found with
  | some stored =>
      obtain rfl := Except.ok.inj h
      cases hqueue
  | none =>
      obtain ⟨-, -, h⟩ := Except.bind_eq_ok.mp h
      obtain ⟨blobs, hdecoded, h⟩ := Except.bind_eq_ok.mp h
      obtain ⟨t, hadded, h⟩ := Except.bind_eq_ok.mp h
      obtain rfl := Except.ok.inj h
      have hid : t.id = newId := by
        by_contra hother
        rw [if_neg hother] at hqueue
        cases hqueue
      have hsome := Locked.decodeBlobs_isSome (Except.mapError_eq_ok.mp hdecoded)
      rw [← s.blobSupport]
      apply Locked.addTransaction_blobs (Except.mapError_eq_ok.mp hadded)
      · rw [hid]
        exact hfresh
      · exact hsome.trans hblobs

/-- A replace that reached the queue found the old payload permitted to the relayer. -/
theorem AppState.replaceTransaction_admitted {env : CompeteEnv}
    {stored : Option s.StoredTransaction} {admitted : Admitted}
    (h : state.replaceTransaction context env s stored request = .ok admitted) :
    ∃ transaction, stored = some transaction ∧
      state.networkPermissionValidate s.record.address s.record.chainId transaction.toAddress
        transaction.value .transaction = .ok () := by
  unfold AppState.replaceTransaction at h
  obtain ⟨-, -, h⟩ := Except.bind_eq_ok.mp h
  cases stored with
  | none => cases h
  | some transaction =>
      obtain ⟨_, hcheck, h⟩ := Except.bind_eq_ok.mp h
      have hcheck := Except.mapError_eq_ok.mp hcheck
      unfold AppState.checkReplace at hcheck
      obtain ⟨-, -, hcheck⟩ := Except.bind_eq_ok.mp hcheck
      obtain ⟨-, -, hcheck⟩ := Except.bind_eq_ok.mp hcheck
      obtain ⟨-, -, hcheck⟩ := Except.bind_eq_ok.mp hcheck
      obtain ⟨_, hpermitted, -⟩ := Except.bind_eq_ok.mp hcheck
      obtain ⟨result, hresult, -⟩ := Except.bind_eq_ok.mp h
      have hresult := Except.mapError_eq_ok.mp hresult
      have hrelayer : transaction.relayerId = s.record.id := by
        by_contra hother
        unfold ServedRelayer.replaceQueued at hresult
        rw [if_pos hother] at hresult
        cases hresult
      obtain ⟨hfrom, hchain⟩ := transaction.ownRow hrelayer
      rw [hfrom, hchain] at hpermitted
      exact ⟨transaction, rfl, hpermitted⟩

theorem AppState.filterEligible_mem {α : Type} {validate : α → Except HttpError Unit}
    {candidates eligible : List α}
    (h : AppState.filterEligible validate candidates = .ok eligible) :
    ∀ s ∈ eligible, s ∈ candidates := by
  unfold AppState.filterEligible at h
  split at h
  · rename_i first rest hfilter
    obtain rfl := Except.ok.inj h
    intro s hs
    rw [← hfilter] at hs
    exact (List.mem_filter.mp hs).1
  · split at h
    · cases h
    · cases h

theorem AppState.selectAvailableRelayers_mem {chainId : ChainId}
    {relayers candidates : List ServedRelayer}
    (h : state.selectAvailableRelayers chainId relayers = .ok candidates) :
    ∀ s ∈ candidates, s ∈ relayers := by
  unfold AppState.selectAvailableRelayers at h
  dsimp only at h
  split at h
  · cases h
  · split at h
    · cases h
    · cases h
      intro s hs
      have hselected := (List.mem_filter.mp ((List.perm_insertionSort _ _).mem_iff.mp hs)).1
      exact (List.mem_filter.mp hselected).1

theorem AppState.eligibleRelayers_mem {chainId : ChainId}
    {relayers eligible : List ServedRelayer}
    (h : state.eligibleRelayers context chainId relayers = .ok eligible) :
    ∀ s ∈ eligible, s ∈ relayers := by
  unfold AppState.eligibleRelayers at h
  obtain ⟨candidates, hcandidates, h⟩ := Except.bind_eq_ok.mp h
  obtain ⟨authorized, hauthorized, heligible⟩ := Except.bind_eq_ok.mp h
  intro s hs
  apply AppState.selectAvailableRelayers_mem hcandidates
  apply AppState.filterEligible_mem hauthorized
  exact AppState.filterEligible_mem heligible s hs

theorem AppState.sendTransactionRandom_ok {env : AdmissionEnv} {newId : TransactionId}
    {chainId : ChainId} {relayers : List ServedRelayer} {choice : ℕ} {admitted : Admitted}
    (h : state.sendTransactionRandom context env newId chainId relayers choice request =
      .ok (s, admitted)) :
    s ∈ relayers ∧ state.sendTransaction context env newId s request = .ok admitted := by
  unfold AppState.sendTransactionRandom at h
  obtain ⟨-, -, h⟩ := Except.bind_eq_ok.mp h
  obtain ⟨eligible, heligible, h⟩ := Except.bind_eq_ok.mp h
  have heligible := AppState.eligibleRelayers_mem (Except.mapError_eq_ok.mp heligible)
  split at h
  · cases h
  · rename_i chosen hchosen
    obtain ⟨result, hsent, h⟩ := Except.bind_eq_ok.mp h
    obtain ⟨rfl, rfl⟩ := Prod.mk.inj (Except.ok.inj h)
    exact ⟨heligible _ (List.mem_of_getElem? hchosen), hsent⟩

end Paths

/-- The id drawn for a new transaction is not in use. -/
def AdmissionPath.FreshId : AdmissionPath → Prop
  | .send _ _ newId s => s.locked.db.row newId = none
  | .sendRandom _ _ newId _ relayers _ => ∀ s ∈ relayers, s.locked.db.row newId = none
  | .replace .. => True

section Law

variable {state : AppState} {s : ServedRelayer} {request : RelayRequest}

/-- The manager that supports the blobs of an admitted send is the relayer's own, unless a
composite's other manager is the one that does. -/
theorem ServedRelayer.ownManagerSupportsBlobs_iff
    (h : s.provider.walletManager.supportsBlobs = true) :
    s.ownManagerSupportsBlobs = true ↔ ¬ s.BlobsElsewhere := by
  unfold ServedRelayer.BlobsElsewhere
  constructor
  · rintro hown ⟨-, helsewhere⟩
    rw [hown] at helsewhere
    cases helsewhere
  · intro hnot
    cases hmanager : s.provider.walletManager with
    | primary m =>
        simpa [ServedRelayer.ownManagerSupportsBlobs, hmanager, WalletManager.supportsBlobs] using h
    | privateKeys m =>
        simpa [ServedRelayer.ownManagerSupportsBlobs, hmanager, WalletManager.supportsBlobs] using h
    | composite m =>
        by_contra hown
        exact hnot ⟨⟨m, hmanager⟩, by simpa using hown⟩

theorem AppState.permits_of_send
    (hpermitted : state.networkPermissionValidate s.record.address s.record.chainId
      request.toAddress request.value .transaction = .ok ())
    (hblobs : request.blobs.isSome = true → s.provider.walletManager.supportsBlobs = true) :
    state.Permits s request ↔ ¬ (request.blobs.isSome = true ∧ s.BlobsElsewhere) := by
  unfold AppState.Permits
  constructor
  · rintro ⟨-, hown⟩ ⟨hsome, helsewhere⟩
    exact (ServedRelayer.ownManagerSupportsBlobs_iff (hblobs hsome)).mp (hown hsome) helsewhere
  · intro hnot
    refine ⟨hpermitted, ?_⟩
    intro hsome
    apply (ServedRelayer.ownManagerSupportsBlobs_iff (hblobs hsome)).mpr
    intro helsewhere
    exact hnot ⟨hsome, helsewhere⟩

/-- Where one payload is permitted, another is when the lists let it through: the entries that
disable transactions altogether have been asked. -/
theorem AppState.entriesAllow_iff_lists {toAddress : EvmAddress} {value : TransactionValue}
    (h : state.EntriesAllow s.record.address s.record.chainId toAddress value) :
    state.EntriesAllow s.record.address s.record.chainId request.toAddress request.value ↔
      state.Lists s.record.address s.record.chainId request.toAddress request.value := by
  constructor
  · intro hallow permissions hfound p hp hnamed
    exact (hallow permissions hfound p hp hnamed).2
  · intro hlists permissions hfound p hp hnamed
    exact ⟨(h permissions hfound p hp hnamed).1, hlists permissions hfound p hp hnamed⟩

/-- Replacing like with like keeps the permissions. -/
theorem AppState.lists_of_same_payload {toAddress : EvmAddress} {value : TransactionValue}
    (h : state.EntriesAllow s.record.address s.record.chainId toAddress value)
    (hto : request.toAddress = toAddress) (hvalue : request.value = 0 ∨ value ≠ 0) :
    state.Lists s.record.address s.record.chainId request.toAddress request.value := by
  intro permissions hfound p hp hnamed
  obtain ⟨-, hlist, hnative⟩ := h permissions hfound p hp hnamed
  rw [hto]
  refine ⟨hlist, ?_⟩
  rcases hvalue with hzero | hold
  · exact .inl hzero
  · exact .inr (hnative.resolve_left hold)

end Law

/-- A payload that got into a queue keeps the law of a send: on the send paths unless its blobs
are supported by another manager only, on the replace path exactly when its own recipient, value
and blobs happen to be allowed. -/
theorem payload_permitted_iff (state : AppState) (request : RelayRequest) (path : AdmissionPath)
    (s : ServedRelayer) (hfresh : path.FreshId) (hadmits : state.admits request path = some s) :
    state.Permits s request ↔ path.Keeps state s request := by
  cases path with
  | send context env newId s' =>
      simp only [AppState.admits] at hadmits
      split at hadmits
      · rename_i admitted hsent
        simp only [Option.ite_none_right_eq_some, Option.some.injEq] at hadmits
        obtain ⟨hqueue, rfl⟩ := hadmits
        obtain ⟨-, -, hsent⟩ := Except.bind_eq_ok.mp hsent
        obtain ⟨hpermitted, hblobs⟩ := AppState.sendTransaction_admitted hsent hqueue hfresh
        exact AppState.permits_of_send hpermitted hblobs
      · cases hadmits
  | sendRandom context env newId chainId relayers choice =>
      simp only [AppState.admits] at hadmits
      split at hadmits
      · rename_i chosen admitted hsent
        simp only [Option.ite_none_right_eq_some, Option.some.injEq] at hadmits
        obtain ⟨hqueue, rfl⟩ := hadmits
        obtain ⟨hmem, hsent⟩ := AppState.sendTransactionRandom_ok hsent
        obtain ⟨hpermitted, hblobs⟩ :=
          AppState.sendTransaction_admitted hsent hqueue (hfresh _ hmem)
        exact AppState.permits_of_send hpermitted hblobs
      · cases hadmits
  | replace context env s' stored =>
      simp only [AppState.admits] at hadmits
      split at hadmits
      · rename_i admitted hreplaced
        simp only [Option.ite_none_right_eq_some, Option.some.injEq] at hadmits
        obtain ⟨-, rfl⟩ := hadmits
        obtain ⟨transaction, -, hold⟩ := AppState.replaceTransaction_admitted hreplaced
        have hold := AppState.networkPermissionValidate_ok_iff.mp hold
        unfold AppState.Permits AdmissionPath.Keeps
        rw [AppState.networkPermissionValidate_ok_iff, AppState.entriesAllow_iff_lists hold]
        simp
      · cases hadmits

/-- A relayer whose transactions may only go to address `9`, with a payment to it pending. -/
def allowlistedState : AppState where
  relayerInternalOnly := []
  relayersAllowedForRandom := []
  networkPermissions := [(1, [⟨.all, [9], none, none, none⟩])]
  networkConfigs := []

def pendingPayment : Transaction :=
  { Locked.admittedTransaction ⟨freshQueue, none, .empty, []⟩ (servedAdd 0) (payment 1 5) 0 with
    gasLimit := some 25200 }

def allowlistedRelayer : ServedRelayer where
  record := ⟨0, 1, none, 7, 0, false, false⟩
  provider := ⟨1, .primary {
    getWallet := fun _ _ => .ok ⟨0, 7⟩
    supportsBlobs := false
    supportsKeyImport := false
    canClone := true }⟩
  locked := ⟨{ freshQueue with pendingTransactions := [pendingPayment] }, some 1000, .empty, []⟩
  ownProvider := rfl
  ownQueue := ⟨rfl, rfl, rfl⟩
  blobSupport := rfl

def openContext : RequestContext where
  passedBasicAuth := .ok ()
  validateAuth _ _ := .ok ()
  validateRequestPolicy _ _ := .ok ()
  findAdmitted := .ok none
  rateLimit := .ok ()

/-- The pending payment replaced by one to the given address. -/
def replacePath : AdmissionPath :=
  .replace openContext (servedCompete 2 (.ok ()) (servedClient [] 0)) allowlistedRelayer
    (some ⟨pendingPayment, fun _ => ⟨rfl, rfl⟩⟩)

def paymentTo (toAddress : EvmAddress) : RelayRequest := ⟨⟨toAddress, 5, [], none, none⟩, none⟩

theorem payload_permitted_iff_listed :
    allowlistedState.Permits allowlistedRelayer (paymentTo 9) ↔
      replacePath.Keeps allowlistedState allowlistedRelayer (paymentTo 9) := by
  apply payload_permitted_iff allowlistedState (paymentTo 9) replacePath allowlistedRelayer
  · trivial
  · rfl

theorem payload_permitted_fails : ¬ ∀ (state : AppState) request path s, path.FreshId →
    state.admits request path = some s → state.Permits s request := by
  intro h
  have hadmitted := h allowlistedState (paymentTo 8) replacePath allowlistedRelayer trivial rfl
  have hvalid := hadmitted.1
  revert hvalid
  decide

end Rrelayer
