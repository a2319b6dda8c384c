import Rrelayer.Lib.Checks
import Rrelayer.ApiKeys
import Rrelayer.PayloadPermissions
import Rrelayer.RateLimiter

/-! The request policy: IP rules and signed requests, entry by entry, and the candidates a random
submission may choose among. -/
namespace Rrelayer

def forbidden (message : String) : HttpError := ⟨403, message⟩

inductive IpAddr where
  | v4 (address : BitVec 32)
  | v6 (address : BitVec 128)
  deriving DecidableEq, Repr

/-- A net, as far as it is asked: the addresses it contains. -/
structure IpNet where
  contains : IpAddr → Bool

inductive IpAllowlistError where
  | invalidRule (rule : String)
  deriving DecidableEq, Repr

structure JwtHs256Config where
  secretEnv : String
  signatureHeader : Option String
  deriving DecidableEq, Repr

inductive SignatureScheme where
  | jwtHs256 (config : JwtHs256Config)
  deriving DecidableEq, Repr

inductive SignatureVerificationError where
  | missingSignatureHeader (header : String)
  | nonAsciiHeader (header : String)
  | secretEnvMissing (name : String)
  | secretEnvEmpty (name : String)
  | invalidJwt
  deriving DecidableEq, Repr

def SignatureVerificationError.message : SignatureVerificationError → String
  | .missingSignatureHeader header => s!"Missing signature header `{header}`"
  | .nonAsciiHeader header => s!"Header `{header}` contains non-ASCII characters"
  | .secretEnvMissing name => s!"Secret env variable `{name}` is not set"
  | .secretEnvEmpty name => s!"Secret env variable `{name}` is empty"
  | .invalidJwt => "Invalid or expired JWT in signature header"

/-- A permission entry with the controls of a request. An empty list denies every address. -/
structure RequestPolicyEntry extends NetworkPermissionsConfig where
  ipAllowlist : Option (List String)
  requestVerification : Option SignatureScheme
  deriving DecidableEq, Repr

structure PolicyContext where
  clientIp : Option IpAddr
  deriving DecidableEq, Repr

/-- What a policy asks of the outside: the grammars of addresses and nets, the environment, the
clock in seconds, and the expiry in the claims of a token that a secret signed. -/
structure PolicyEnv where
  parseNet : String → Option IpNet
  parseIp : String → Option IpAddr
  display : IpAddr → String
  var : String → Option String
  now : Option ℕ
  decode : (token secret : String) → Option ℕ

namespace PolicyEnv

variable (env : PolicyEnv)

section Rules

variable (clientIp : IpAddr)

def ruleMatches (rule : String) : Except IpAllowlistError Bool :=
  let rule := String.ofList (trim rule.toList)
  if rule.isEmpty then .error (.invalidRule rule)
  else match env.parseNet rule with
    | some net => .ok (net.contains clientIp)
    | none =>
        match env.parseIp rule with
        | some ip => .ok (ip == clientIp)
        | none => .error (.invalidRule rule)

/-- The rules behind the first that matches are not looked at. -/
def ipAllowed : List String → Except IpAllowlistError Bool
  | [] => .ok false
  | rule :: rules =>
      match env.ruleMatches clientIp rule with
      | .error e => .error e
      | .ok true => .ok true
      | .ok false => ipAllowed rules

end Rules

def unspecified : IpAddr := .v4 0

def validateIpAllowlist : List String → Except IpAllowlistError Unit
  | [] => .ok ()
  | rule :: rules =>
      match env.ruleMatches unspecified rule with
      | .error e => .error e
      | .ok _ => validateIpAllowlist rules

def signatureHeaderName (config : JwtHs256Config) : String :=
  config.signatureHeader.getD "x-appsmith-signature"

/-- The secret is looked up first, so its loss is not taken for the caller's fault. -/
def verifyJwtHs256At (config : JwtHs256Config) (headers : HeaderMap) (now : ℕ) :
    Except SignatureVerificationError Unit :=
  match env.var config.secretEnv with
  | none => .error (.secretEnvMissing config.secretEnv)
  | some secret =>
      if (trim secret.toList).isEmpty then .error (.secretEnvEmpty config.secretEnv)
      else match headers (signatureHeaderName config) with
        | none => .error (.missingSignatureHeader (signatureHeaderName config))
        | some value =>
            match value.toStr with
            | none => .error (.nonAsciiHeader (signatureHeaderName config))
            | some text =>
                let token := String.ofList (trim text.toList)
                if token.isEmpty then .error .invalidJwt
                else match env.decode token secret with
                  | none => .error .invalidJwt
                  | some exp => if exp ≤ now then .error .invalidJwt else .ok ()

def verifyRequestSignature (headers : HeaderMap) :
    SignatureScheme → Except SignatureVerificationError Unit
  | .jwtHs256 config =>
      match env.now with
      | none => .error .invalidJwt
      | some now => env.verifyJwtHs256At config headers now

section Entries

variable (context : PolicyContext) (headers : HeaderMap) (relayer : EvmAddress)

def unresolvedIp : HttpError :=
  forbidden "ip allowlist is enforced but client ip could not be resolved"

def invalidPolicy : HttpError :=
  internalServerError (some "request policy configuration is invalid")

def ipNotAllowed (clientIp : IpAddr) : HttpError :=
  forbidden ("client ip " ++ env.display clientIp ++ " is not allowed by relayer policy")

def verificationUnavailable : HttpError :=
  internalServerError (some "request verification is unavailable")

/-- The first control of an entry. -/
def checkIp (p : RequestPolicyEntry) : Except HttpError Unit :=
  match p.ipAllowlist with
  | none => .ok ()
  | some rules =>
      match context.clientIp with
      | none => .error unresolvedIp
      | some clientIp =>
          match env.ipAllowed clientIp rules with
          | .error _ => .error invalidPolicy
          | .ok true => .ok ()
          | .ok false => .error (env.ipNotAllowed clientIp)

/-- The second control of an entry. -/
def checkSignature (p : RequestPolicyEntry) : Except HttpError Unit :=
  match p.requestVerification with
  | none => .ok ()
  | some verification =>
      match env.verifyRequestSignature headers verification with
      | .ok () => .ok ()
      | .error (.secretEnvMissing _) | .error (.secretEnvEmpty _) => .error verificationUnavailable
      | .error e => .error (unauthorized (some e.message))

def validateRequestPolicyEntries : List RequestPolicyEntry → Except HttpError Unit
  | [] => .ok ()
  | p :: ps =>
      if !p.relayers.contains relayer then validateRequestPolicyEntries ps
      else match env.checkIp context p with
        | .error e => .error e
        | .ok () =>
            match env.checkSignature headers p with
            | .error e => .error e
            | .ok () => validateRequestPolicyEntries ps

end Entries

/-- The client's address is known and the rules let it through. -/
def PassesIp (context : PolicyContext) (p : RequestPolicyEntry) : Prop :=
  ∀ rules ∈ p.ipAllowlist, ∃ clientIp ∈ context.clientIp, env.ipAllowed clientIp rules = .ok true

def PassesSignature (headers : HeaderMap) (p : RequestPolicyEntry) : Prop :=
  ∀ verification ∈ p.requestVerification, env.verifyRequestSignature headers verification = .ok ()

/-- Both controls of an entry, for a relayer it names. -/
def checkEntry (context : PolicyContext) (headers : HeaderMap) (relayer : EvmAddress)
    (p : RequestPolicyEntry) : Except HttpError Unit :=
  if !p.relayers.contains relayer then .ok ()
  else match env.checkIp context p with
    | .error e => .error e
    | .ok () => env.checkSignature headers p

/-- The error is that of the first entry for the relayer that fails, its IP check's first. -/
def FirstFailure (context : PolicyContext) (headers : HeaderMap) (relayer : EvmAddress)
    (permissions : List RequestPolicyEntry) (e : HttpError) : Prop :=
  ∃ before p after, permissions = before ++ p :: after ∧
    (∀ q ∈ before, q.relayers.contains relayer = true →
      env.PassesIp context q ∧ env.PassesSignature headers q) ∧
    p.relayers.contains relayer = true ∧ (env.checkIp context p = .error e ∨
      env.PassesIp context p ∧ env.checkSignature headers p = .error e)

variable {env} {context : PolicyContext} {headers : HeaderMap} {relayer : EvmAddress}
  {p : RequestPolicyEntry} {permissions : List RequestPolicyEntry}

theorem checkIp_ok_iff : env.checkIp context p = .ok () ↔ env.PassesIp context p := by
  unfold checkIp PassesIp
  cases p.ipAllowlist with
  | none => simp
  | some rules =>
    cases context.clientIp with
    | none => simp
    | some clientIp =>
      rcases hallowed : env.ipAllowed clientIp rules with e | _ | _ <;> simp [hallowed]

theorem checkSignature_ok_iff :
    env.checkSignature headers p = .ok () ↔ env.PassesSignature headers p := by
  unfold checkSignature PassesSignature
  cases p.requestVerification with
  | none => simp
  | some verification =>
    rcases hverify : env.verifyRequestSignature headers verification with e | _
    · cases e <;> simp [hverify]
    · simp [hverify]

/-- The loop goes through the entries' controls in their order. -/
theorem validateRequestPolicyEntries_eq :
    env.validateRequestPolicyEntries context headers relayer permissions =
      Checks.checkAll (env.checkEntry context headers relayer) permissions := by
  induction permissions with
  | nil => rfl
  | cons p ps ih =>
    unfold validateRequestPolicyEntries Checks.checkAll
    rw [ih]
    generalize Checks.checkAll (env.checkEntry context headers relayer) ps = rest
    unfold checkEntry
    cases hnamed : p.relayers.contains relayer with
    | false => simp
    | true =>
      simp only [Bool.not_true, Bool.false_eq_true, if_false]
      rcases env.checkIp context p with e | u
      · rfl
      · cases env.checkSignature headers p <;> rfl

theorem checkEntry_ok_iff : env.checkEntry context headers relayer p = .ok () ↔
    (p.relayers.contains relayer = true →
      env.PassesIp context p ∧ env.PassesSignature headers p) := by
  unfold checkEntry
  rw [← checkIp_ok_iff, ← checkSignature_ok_iff]
  cases hnamed : p.relayers.contains relayer with
  | false => simp
  | true =>
    rcases hip : env.checkIp context p with e | u
    · simp
    · simp

/-- The IP check's error comes before the signature's. -/
theorem checkEntry_error_iff {e : HttpError} :
    env.checkEntry context headers relayer p = .error e ↔ p.relayers.contains relayer = true ∧
      (env.checkIp context p = .error e ∨
        env.PassesIp context p ∧ env.checkSignature headers p = .error e) := by
  unfold checkEntry
  rw [← checkIp_ok_iff]
  cases hnamed : p.relayers.contains relayer with
  | false => simp
  | true =>
    rcases hip : env.checkIp context p with e | u
    · simp
    · simp

theorem validateRequestPolicyEntries_ok_iff :
    env.validateRequestPolicyEntries context headers relayer permissions = .ok () ↔
      ∀ p ∈ permissions, p.relayers.contains relayer = true →
        env.PassesIp context p ∧ env.PassesSignature headers p := by
  rw [validateRequestPolicyEntries_eq, Checks.checkAll_ok_iff]
  simp only [checkEntry_ok_iff]

theorem validateRequestPolicyEntries_error_iff {e : HttpError} :
    env.validateRequestPolicyEntries context headers relayer permissions = .error e ↔
      env.FirstFailure context headers relayer permissions e := by
  rw [validateRequestPolicyEntries_eq, Checks.checkAll_error_iff]
  simp only [checkEntry_ok_iff, checkEntry_error_iff]
  rfl

/-- Whether a rule is one does not depend on the address it is asked about. -/
theorem ruleMatches_error (a b : IpAddr) {rule : String} {e : IpAllowlistError}
    (h : env.ruleMatches a rule = .error e) : env.ruleMatches b rule = .error e := by
  unfold ruleMatches at h ⊢
  dsimp only at h ⊢
  split at h
  · rename_i hempty
    rw [if_pos hempty, h]
  · rename_i hempty
    rw [if_neg hempty]
    split at h
    · cases h
    · split at h
      · cases h
      · exact h

theorem validateIpAllowlist_ok_iff {rules : List String} :
    env.validateIpAllowlist rules = .ok () ↔
      ∀ rule ∈ rules, ∃ matched, env.ruleMatches unspecified rule = .ok matched := by
  induction rules with
  | nil => simp [validateIpAllowlist]
  | cons rule rules ih =>
    unfold validateIpAllowlist
    rw [List.forall_mem_cons]
    rcases env.ruleMatches unspecified rule with e | matched
    · simp
    · simpa using ih

/-- An accepted list is an answer for every address: whether some rule matches. -/
theorem ipAllowed_of_validated {rules : List String} (h : env.validateIpAllowlist rules = .ok ())
    (clientIp : IpAddr) : env.ipAllowed clientIp rules =
      .ok (rules.any fun rule => env.ruleMatches clientIp rule matches .ok true) := by
  rw [validateIpAllowlist_ok_iff] at h
  induction rules with
  | nil => rfl
  | cons rule rules ih =>
    obtain ⟨⟨matched, hmatched⟩, hrest⟩ := List.forall_mem_cons.mp h
    unfold ipAllowed
    rw [List.any_cons]
    rcases hrule : env.ruleMatches clientIp rule with e | _ | _
    · rw [ruleMatches_error clientIp unspecified hrule] at hmatched
      cases hmatched
    · simpa using ih hrest
    · rfl

theorem checkIp_configured {rules : List String} (hrules : p.ipAllowlist = some rules)
    (h : env.validateIpAllowlist rules = .ok ()) : env.checkIp context p ≠ .error invalidPolicy := by
  unfold checkIp
  rw [hrules]
  cases context.clientIp with
  | none => simp [unresolvedIp, invalidPolicy, forbidden, internalServerError]
  | some clientIp =>
    dsimp only
    rw [ipAllowed_of_validated h]
    cases rules.any fun rule => env.ruleMatches clientIp rule matches .ok true
    · simp [ipNotAllowed, invalidPolicy, forbidden, internalServerError]
    · simp

end PolicyEnv

namespace AppState

variable {α : Type} {validate : α → Except HttpError Unit} {candidates eligible : List α}
  {e : HttpError}

theorem isOk_iff {x : Except HttpError Unit} : x.isOk = true ↔ x = .ok () := by
  cases x <;> simp [Except.isOk, Except.toBool]

theorem filterEligible_ok (h : filterEligible validate candidates = .ok eligible) :
    eligible ≠ [] ∧ eligible = candidates.filter fun s => (validate s).isOk := by
  unfold filterEligible at h
  split at h
  · rename_i first rest hfilter
    cases h
    exact ⟨List.cons_ne_nil _ _, hfilter.symm⟩
  · split at h
    · cases h
    · cases h

/-- The refusal that is answered is the first candidate's, as every candidate is refused. -/
theorem filterEligible_error (hsome : candidates ≠ [])
    (h : filterEligible validate candidates = .error e) :
    (∀ s ∈ candidates, validate s ≠ .ok ()) ∧ ∃ s ∈ candidates.head?, validate s = .error e := by
  unfold filterEligible at h
  split at h
  · cases h
  · rename_i hfilter
    have hnone : ∀ s ∈ candidates, validate s ≠ .ok () := by
      intro s hs
      rw [List.filter_eq_nil_iff] at hfilter
      exact fun hok => hfilter s hs (isOk_iff.mpr hok)
    refine ⟨hnone, ?_⟩
    cases candidates with
    | nil => exact absurd rfl hsome
    | cons s rest =>
      refine ⟨s, rfl, ?_⟩
      rcases hfirst : validate s with e' | u
      · simp only [List.findSome?_cons, hfirst, Except.error.injEq] at h
        rw [h]
      · exact absurd hfirst (hnone s (List.mem_cons_self ..))

theorem sortPolicyCandidates_sorted (relayers : List ServedRelayer) :
    (sortPolicyCandidates relayers).Pairwise fun a b => policyKey a ≤ policyKey b := by
  have htotal : Std.Total fun a b : ServedRelayer => policyKey a ≤ policyKey b :=
    ⟨fun a b => le_total (policyKey a) (policyKey b)⟩
  have htrans : IsTrans ServedRelayer fun a b => policyKey a ≤ policyKey b :=
    ⟨fun _ _ _ => le_trans⟩
  exact List.pairwise_insertionSort _ relayers

section Random

variable (state : AppState) (context : RequestContext)

def Authorized (s : ServedRelayer) : Prop :=
  context.validateAuth s.record.address s.record.chainId = .ok ()

def PassesPolicy (s : ServedRelayer) : Prop :=
  context.validateRequestPolicy s.record.address s.record.chainId = .ok ()

/-- The refusal a random submission without an eligible candidate answers: the first candidate's
authentication error when none is authorized, and else the first authorized one's policy error. -/
def RefusedAs (candidates : List ServedRelayer) (e : HttpError) : Prop :=
  (∀ s ∈ candidates, ¬ Authorized context s) ∧
      (∃ s ∈ candidates.head?, context.validateAuth s.record.address s.record.chainId = .error e) ∨
    (∀ s ∈ candidates, Authorized context s → ¬ PassesPolicy context s) ∧
      ∃ before s after, candidates = before ++ s :: after ∧ (∀ u ∈ before, ¬ Authorized context u) ∧
        Authorized context s ∧
        context.validateRequestPolicy s.record.address s.record.chainId = .error e

variable {state context} {chainId : ChainId} {relayers candidates eligible : List ServedRelayer}
  {e : HttpError}

theorem selectAvailableRelayers_spec
    (h : state.selectAvailableRelayers chainId relayers = .ok candidates) :
    candidates ≠ [] ∧ candidates.Pairwise fun a b => policyKey a ≤ policyKey b := by
  unfold selectAvailableRelayers at h
  dsimp only at h
  split at h
  · cases h
  · split at h
    · cases h
    · rename_i hsome
      cases h
      exact ⟨by simpa using hsome, sortPolicyCandidates_sorted _⟩

theorem eligibleRelayers_ok (hselect : state.selectAvailableRelayers chainId relayers =
    .ok candidates) (h : state.eligibleRelayers context chainId relayers = .ok eligible) :
    eligible ≠ [] ∧
      ∀ s, s ∈ eligible ↔ s ∈ candidates ∧ Authorized context s ∧ PassesPolicy context s := by
  unfold eligibleRelayers at h
  obtain ⟨selected, hselected, h⟩ := Except.bind_eq_ok.mp h
  cases hselect.symm.trans hselected
  obtain ⟨authorized, hauthorized, heligible⟩ := Except.bind_eq_ok.mp h
  obtain ⟨-, rfl⟩ := filterEligible_ok hauthorized
  obtain ⟨hsome, rfl⟩ := filterEligible_ok heligible
  refine ⟨hsome, fun s => ?_⟩
  rw [List.mem_filter, List.mem_filter, isOk_iff, isOk_iff, and_assoc]
  rfl

theorem eligibleRelayers_error (hselect : state.selectAvailableRelayers chainId relayers =
    .ok candidates) (h : state.eligibleRelayers context chainId relayers = .error e) :
    RefusedAs context candidates e := by
  obtain ⟨hsome, -⟩ := selectAvailableRelayers_spec hselect
  unfold eligibleRelayers at h
  rcases Except.bind_eq_error.mp h with hselected | ⟨selected, hselected, h⟩
  · rw [hselect] at hselected
    cases hselected
  cases hselect.symm.trans hselected
  rcases Except.bind_eq_error.mp h with hauth | ⟨authorized, hauthorized, hpolicy⟩
  · exact .inl (filterEligible_error hsome hauth)
  right
  obtain ⟨hne, rfl⟩ := filterEligible_ok hauthorized
  obtain ⟨hnone, s, hs, hrefused⟩ := filterEligible_error hne hpolicy
  constructor
  · intro u hu hauth
    exact hnone u (List.mem_filter.mpr ⟨hu, isOk_iff.mpr hauth⟩)
  -- The head of the authorized is the first authorized candidate.
  obtain ⟨rest, hrest⟩ := List.head?_eq_some_iff.mp hs
  obtain ⟨before, after, hsplit, hbefore, hauth, -⟩ := List.filter_eq_cons_iff.mp hrest
  refine ⟨before, s, after, hsplit, ?_, isOk_iff.mp hauth, hrefused⟩
  intro u hu hok
  exact hbefore u hu (isOk_iff.mpr hok)

end Random

end AppState

/-- A random submission is sent through a candidate that passes both stages, or gets the error the
candidates leave. -/
theorem AppState.sendTransactionRandom_eligible {state : AppState} {context : RequestContext}
    {chainId : ChainId} {relayers candidates : List ServedRelayer} {admission : AdmissionEnv}
    {newId : TransactionId} {choice : ℕ} {request : RelayRequest}
    (hselect : state.selectAvailableRelayers chainId relayers = .ok candidates)
    (hbasic : context.passedBasicAuth = .ok ()) :
    (∃ s ∈ candidates, AppState.Authorized context s ∧ AppState.PassesPolicy context s ∧
      state.sendTransactionRandom context admission newId chainId relayers choice request =
        (state.sendTransaction context admission newId s request).map fun sent => (s, sent)) ∨
    ∃ e, state.sendTransactionRandom context admission newId chainId relayers choice request =
      .error (.http e) ∧ AppState.RefusedAs context candidates e := by
  unfold AppState.sendTransactionRandom
  rw [hbasic]
  cases heligible : state.eligibleRelayers context chainId relayers with
  | error e => exact .inr ⟨e, rfl, AppState.eligibleRelayers_error hselect heligible⟩
  | ok eligible =>
    obtain ⟨hnonempty, hmem⟩ := AppState.eligibleRelayers_ok hselect heligible
    have hlength : 0 < eligible.length := List.length_pos_iff.mpr hnonempty
    obtain ⟨s, hchosen⟩ : ∃ s, eligible[choice % eligible.length]? = some s :=
      ⟨_, List.getElem?_eq_getElem (Nat.mod_lt choice hlength)⟩
    obtain ⟨hcandidate, hauthorized, hpasses⟩ := (hmem _).mp (List.mem_of_getElem? hchosen)
    refine .inl ⟨s, hcandidate, hauthorized, hpasses, ?_⟩
    simp only [Except.mapError, bind, Except.bind, hchosen]
    cases state.sendTransaction context admission newId s request <;> rfl

/-- The policies let a request through exactly when every entry does, in the entries' order and the
IP check first; no accepted rule list is invalid later; and a random submission chooses among the
candidates that pass both stages, the earlier stage answering when it leaves none. -/
theorem request_policy_in_order (env : PolicyEnv) (state : AppState) (context : RequestContext) :
    (∀ policyContext headers relayer permissions,
      (env.validateRequestPolicyEntries policyContext headers relayer permissions = .ok () ↔
        ∀ p ∈ permissions, p.relayers.contains relayer = true →
          env.PassesIp policyContext p ∧ env.PassesSignature headers p) ∧
      ∀ e, env.validateRequestPolicyEntries policyContext headers relayer permissions = .error e ↔
        env.FirstFailure policyContext headers relayer permissions e) ∧
    (∀ rules, env.validateIpAllowlist rules = .ok () →
      (∀ clientIp e, env.ipAllowed clientIp rules ≠ .error e) ∧
        ∀ policyContext p, p.ipAllowlist = some rules →
          env.checkIp policyContext p ≠ .error PolicyEnv.invalidPolicy) ∧
    ∀ chainId relayers candidates,
      state.selectAvailableRelayers chainId relayers = .ok candidates →
        (candidates.Pairwise fun a b => AppState.policyKey a ≤ AppState.policyKey b) ∧
        (∀ eligible, state.eligibleRelayers context chainId relayers = .ok eligible →
          eligible ≠ [] ∧ ∀ s, s ∈ eligible ↔
            s ∈ candidates ∧ AppState.Authorized context s ∧ AppState.PassesPolicy context s) ∧
        (∀ e, state.eligibleRelayers context chainId relayers = .error e →
          AppState.RefusedAs context candidates e) ∧
        ∀ admission newId choice request, context.passedBasicAuth = .ok () →
          (∃ s ∈ candidates, AppState.Authorized context s ∧ AppState.PassesPolicy context s ∧
            state.sendTransactionRandom context admission newId chainId relayers choice request =
              (state.sendTransaction context admission newId s request).map fun sent => (s, sent)) ∨
          ∃ e, state.sendTransactionRandom context admission newId chainId relayers choice request =
            .error (.http e) ∧ AppState.RefusedAs context candidates e := by
  refine ⟨?_, ?_, ?_⟩
  · intro policyContext headers relayer permissions
    exact ⟨PolicyEnv.validateRequestPolicyEntries_ok_iff,
      fun e => PolicyEnv.validateRequestPolicyEntries_error_iff⟩
  · intro rules hrules
    constructor
    · intro clientIp e
      rw [PolicyEnv.ipAllowed_of_validated hrules]
      exact fun h => by cases h
    · intro policyContext p hp
      exact PolicyEnv.checkIp_configured hp hrules
  · intro chainId relayers candidates hselect
    exact ⟨(AppState.selectAvailableRelayers_spec hselect).2,
      fun eligible heligible => AppState.eligibleRelayers_ok hselect heligible,
      fun e hrefused => AppState.eligibleRelayers_error hselect hrefused,
      fun admission newId choice request hbasic =>
        AppState.sendTransactionRandom_eligible hselect hbasic⟩

/-- What the checks of a request read. -/
structure PolicyRequest where
  basicAuth : Bool
  apiKeys : ApiKeys
  headers : HeaderMap
  context : PolicyContext
  policies : List (ChainId × List RequestPolicyEntry)

namespace PolicyRequest

variable (r : PolicyRequest)

def validateAllowedPassedBasicAuth : Except HttpError Unit :=
  if r.apiKeys.isEmpty && !r.basicAuth then .error (unauthorized none) else .ok ()

def validateAuthBasicOrApiKey (relayer : EvmAddress) (chainId : ChainId) : Except HttpError Unit :=
  if r.basicAuth then .ok ()
  else if r.apiKeys.isApiKeyValidForRelayer r.headers relayer chainId then .ok ()
  else .error (unauthorized none)

def validateRequestPolicy (env : PolicyEnv) (relayer : EvmAddress) (chainId : ChainId) :
    Except HttpError Unit :=
  match r.policies.find? fun n => n.1 == chainId with
  | none => .ok ()
  | some (_, permissions) =>
      env.validateRequestPolicyEntries r.context r.headers relayer permissions

/-- The request's own context, of a payload that is not stored yet. -/
def requestContext (env : PolicyEnv) (rateLimit : Except HttpError Unit) : RequestContext where
  passedBasicAuth := r.validateAllowedPassedBasicAuth
  validateAuth := r.validateAuthBasicOrApiKey
  validateRequestPolicy := r.validateRequestPolicy env
  findAdmitted := .ok none
  rateLimit := rateLimit

end PolicyRequest

/-- Every relayer of the chain may be picked at random. -/
def randomState : AppState where
  relayerInternalOnly := []
  relayersAllowedForRandom := [(1, [])]
  networkPermissions := []
  networkConfigs := []

/-- A second relayer, behind `allowlistedRelayer`. -/
def secondRelayer : ServedRelayer where
  record := ⟨1, 1, none, 8, 1, false, false⟩
  provider := allowlistedRelayer.provider
  locked := ⟨{ freshQueue with relayer := ⟨1, 1, 8, none, false, true⟩ }, some 1000, .empty, []⟩
  ownProvider := rfl
  ownQueue := ⟨rfl, rfl, rfl⟩
  blobSupport := rfl

/-- One address is known by its text. -/
def oneAddress : PolicyEnv where
  parseNet _ := none
  parseIp text := if text == "198.51.100.4" then some (.v4 0xC6336404) else none
  display _ := "203.0.113.7"
  var _ := none
  now := some 0
  decode _ _ := none

/-- A key of the second relayer only, from an address that no relayer allows. -/
def refusedRequest : PolicyRequest where
  basicAuth := false
  apiKeys := [(1, [⟨8, ["k"]⟩])]
  headers := ApiKeys.keyHeaders ⟨some "k"⟩
  context := ⟨some (.v4 0xCB007107)⟩
  policies := [(1, [⟨⟨.all, [], none, none, none⟩, some ["198.51.100.4"], none⟩])]

def refusedContext : RequestContext := refusedRequest.requestContext oneAddress (.ok ())

/-- The first candidate is not authorized, and the answer is the second one's policy error. -/
theorem request_policy_in_order_fails : ¬ ∀ (state : AppState) (context : RequestContext) chainId
    relayers candidates e, state.selectAvailableRelayers chainId relayers = .ok candidates →
      state.eligibleRelayers context chainId relayers = .error e →
        ∃ before s after, candidates = before ++ s :: after ∧
          (∀ u ∈ before, AppState.Authorized context u ∧ AppState.PassesPolicy context u) ∧
          (context.validateAuth s.record.address s.record.chainId = .error e ∨
            AppState.Authorized context s ∧
              context.validateRequestPolicy s.record.address s.record.chainId = .error e) := by
  intro hfirst
  let relayers := [secondRelayer, allowlistedRelayer]
  let refusal : HttpError := ⟨403, "client ip 203.0.113.7 is not allowed by relayer policy"⟩
  obtain ⟨candidates, hselect, hcandidates⟩ : ∃ candidates,
      randomState.selectAvailableRelayers 1 relayers = .ok candidates ∧
        candidates.map (fun s => (s.record.address, s.record.chainId)) = [(7, 1), (8, 1)] :=
    ⟨[allowlistedRelayer, secondRelayer], rfl, rfl⟩
  have hrefused : randomState.eligibleRelayers refusedContext 1 relayers = .error refusal := rfl
  obtain ⟨before, s, after, rfl, hbefore, herror⟩ := hfirst randomState refusedContext 1 relayers
    candidates refusal hselect hrefused
  -- No authorized candidate stands before the first one.
  have hunauthorized : refusedContext.validateAuth 7 1 = .error (unauthorized none) := by
    decide +kernel
  cases before with
  | nil =>
    obtain ⟨haddress, hchain⟩ := Prod.mk.inj (List.cons.inj hcandidates).1
    rw [haddress, hchain, hunauthorized] at herror
    rcases herror with herror | ⟨hauthorized, -⟩
    · revert herror
      decide
    · unfold AppState.Authorized at hauthorized
      rw [haddress, hchain, hunauthorized] at hauthorized
      cases hauthorized
  | cons u before =>
    obtain ⟨haddress, hchain⟩ := Prod.mk.inj (List.cons.inj hcandidates).1
    have hauthorized := (hbefore u (List.mem_cons_self ..)).1
    unfold AppState.Authorized at hauthorized
    rw [haddress, hchain, hunauthorized] at hauthorized
    cases hauthorized

end Rrelayer
