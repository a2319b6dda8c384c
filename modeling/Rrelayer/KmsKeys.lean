import Rrelayer.WalletManager
import Rrelayer.Lib.Directory
import Rrelayer.Lib.Encoding

/-! The AWS KMS wallet manager: keys found under an alias or created for it, each call to AWS a
step of its own. -/
namespace Rrelayer

abbrev KmsKeyId := ℕ

/-- Key specs and usages other than the two the code asks for are told apart by their names. -/
inductive KeySpec where
  | eccSecgP256K1
  | other (name : String)
  deriving DecidableEq, Repr

inductive KeyUsageType where
  | signVerify
  | other (name : String)
  deriving DecidableEq, Repr

def KeySpec.name : KeySpec → String
  | .eccSecgP256K1 => "EccSecgP256K1"
  | .other name => name

def KeyUsageType.name : KeyUsageType → String
  | .signVerify => "SignVerify"
  | .other name => name

/-- What a call may name a key by. -/
inductive KmsKeyRef where
  | keyId (keyId : KmsKeyId)
  | aliasName (aliasName : String)
  deriving DecidableEq, Repr

def KmsKeyRef.text : KmsKeyRef → String
  | .keyId n => toString n
  | .aliasName name => name

inductive AwsKmsError where
  | authenticationError (message : String)
  | apiError (message : String)
  deriving DecidableEq, Repr

structure CallerIdentity where
  account : Option String
  arn : Option String
  deriving DecidableEq, Repr

structure KeyMetadata where
  keyId : KmsKeyId
  keySpec : Option KeySpec
  keyUsage : Option KeyUsageType
  deriving DecidableEq, Repr

/-- A key that is not there is told apart from every other failure. -/
inductive DescribeKeyError where
  | notFoundException (message : String)
  | failed (message : String)
  deriving DecidableEq, Repr

def DescribeKeyError.message : DescribeKeyError → String
  | .notFoundException message | .failed message => message

structure AwsSigner where
  keyId : KmsKeyId
  address : EvmAddress
  chainId : ChainId
  deriving DecidableEq, Repr

/-- AWS as the manager meets it, and the signer that is made over it. What an account holds is not
known, only which address the public key of a key has and which key an alias stands for. Each call is
given its course, which is up to AWS and the network, and leaves an account and an answer; the answer
may be lost although the call was carried out. -/
structure KmsService where
  Account : Type
  Course : Type
  address : Account → KmsKeyId → Option EvmAddress
  aliases : Account → String → Option KmsKeyId
  carriesOut : Course → Bool
  getCallerIdentity : Course → Except String CallerIdentity
  describeKey : Account → KmsKeyRef → Course → Except DescribeKeyError (Option KeyMetadata)
  createKey : Account → String → Course → Account × Except String (Option KmsKeyId)
  createAlias : Account → String → KmsKeyId → Course → Account × Except String Unit
  awsSigner : Account → KmsKeyRef → ChainId → Course → Except String AwsSigner

namespace KmsService

variable (K : KmsService)

def resolve (account : K.Account) : KmsKeyRef → Option KmsKeyId
  | .keyId keyId => some keyId
  | .aliasName aliasName => K.aliases account aliasName

/-- No key is taken away and no alias is moved. -/
structure Kept (account account' : K.Account) : Prop where
  keys : Directory.Extends (K.address account) (K.address account')
  aliases : Directory.Extends (K.aliases account) (K.aliases account')

/-- What AWS documents of the calls. A key that is described or signed with is the one that was
asked for, a created key is new, and no call takes a key away. An alias that is free is given to the
key when the call is carried out, one that is taken stays where it is. -/
structure Lawful : Prop where
  describeKey_keyId {account : K.Account} {ref : KmsKeyRef} {course : K.Course}
    {metadata : KeyMetadata} (h : K.describeKey account ref course = .ok (some metadata)) :
    K.resolve account ref = some metadata.keyId
  awsSigner_key {account : K.Account} {ref : KmsKeyRef} {chainId : ChainId} {course : K.Course}
    {signer : AwsSigner} (h : K.awsSigner account ref chainId course = .ok signer) :
    K.resolve account ref = some signer.keyId ∧
      K.address account signer.keyId = some signer.address
  createKey_keys (account : K.Account) (description : String) (course : K.Course) :
    Directory.Extends (K.address account) (K.address (K.createKey account description course).1)
  createKey_aliases (account : K.Account) (description : String) (course : K.Course) :
    K.aliases (K.createKey account description course).1 = K.aliases account
  createKey_new {account : K.Account} {description : String} {course : K.Course} {keyId : KmsKeyId}
    (h : (K.createKey account description course).2 = .ok (some keyId)) :
    K.address account keyId = none ∧
      (K.address (K.createKey account description course).1 keyId).isSome = true
  createAlias_keys (account : K.Account) (aliasName : String) (keyId : KmsKeyId)
    (course : K.Course) :
    K.address (K.createAlias account aliasName keyId course).1 = K.address account
  createAlias_aliases (account : K.Account) (aliasName : String) (keyId : KmsKeyId)
    (course : K.Course) : K.aliases (K.createAlias account aliasName keyId course).1 =
      if K.carriesOut course then Directory.bind (K.aliases account) aliasName keyId
      else K.aliases account
  createAlias_named {account : K.Account} {aliasName : String} {keyId : KmsKeyId}
    {course : K.Course} (h : (K.createAlias account aliasName keyId course).2 = .ok ()) :
    K.aliases (K.createAlias account aliasName keyId course).1 aliasName = some keyId

end KmsService

def validateAwsConfig {K : KmsService} (course : K.Course) : Except AwsKmsError Unit :=
  match K.getCallerIdentity course with
  | .ok _ => .ok ()
  | .error e => .error (.authenticationError
      ("AWS KMS authentication failed. Please ensure AWS credentials are properly configured. " ++
        "Error: " ++ e ++ ". Required: AWS_ACCESS_KEY_ID, AWS_SECRET_ACCESS_KEY, or an IAM role " ++
        "with KMS permissions."))

/-- The first call of `create_keys`; its answer only goes into the policy of the new key. -/
def identifyCaller {K : KmsService} (course : K.Course) : Except AwsKmsError Unit :=
  match K.getCallerIdentity course with
  | .error e => .error (.apiError ("STS GetCallerIdentity failed: " ++ e))
  | .ok who =>
      match who.account, who.arn with
      | none, _ => .error (.apiError "No account id from STS")
      | some _, none => .error (.apiError "No ARN from STS")
      | some _, some _ => .ok ()

/-- Only a missing alias is taken for one; every other failure is reported. -/
def existingAliasKeyId (aliasName : String) :
    Except DescribeKeyError (Option KeyMetadata) → Except AwsKmsError (Option KmsKeyId)
  | .ok (some metadata) => .ok (some metadata.keyId)
  | .ok none => .error (.apiError ("No key metadata returned for alias: " ++ aliasName))
  | .error (.notFoundException _) => .ok none
  | .error (.failed e) =>
      .error (.apiError ("Failed to describe KMS key alias " ++ aliasName ++ ": " ++ e))

/-- The key a plan of `create_keys` is carried out with. -/
def createdKeyId (description : String) :
    Except String (Option KmsKeyId) → Except AwsKmsError KmsKeyId
  | .ok (some keyId) => .ok keyId
  | .ok none => .error (.apiError "No key_id in CreateKey response")
  | .error e => .error (.apiError ("Creating key '" ++ description ++ "': " ++ e))

def initializeAwsKmsSigner {K : KmsService} (account : K.Account) (ref : KmsKeyRef)
    (chainId : ChainId) (course : K.Course) : Except AwsKmsError AwsSigner :=
  match K.awsSigner account ref chainId course with
  | .ok signer => .ok signer
  | .error e => .error (.apiError ("Failed to initialize AWS KMS signer: " ++ e))

/-- How far a call that needs a signer has come: what it asks AWS next. -/
inductive SignerStage where
  | validating
  | finding
  | identifying
  | creatingKey
  | creatingAlias (keyId : KmsKeyId)
  | initialising (keyId : KmsKeyId)
  | caching (signer : AwsSigner)
  deriving DecidableEq, Repr

/-- How far the import of an existing key has come. -/
inductive ImportStage where
  | verifying
  | validating
  | describing
  | checkingAlias (canonicalKeyId : KmsKeyId)
  | creatingAlias (canonicalKeyId : KmsKeyId)
  deriving DecidableEq, Repr

/-- What one answer of AWS makes of a call. -/
inductive KmsStep (stage result : Type) where
  | next (stage : stage)
  | failed (error : AwsKmsError)
  | done (result : result)

def KmsStep.ofExcept {α stage result : Type} (r : Except AwsKmsError α)
    (next : α → KmsStep stage result) : KmsStep stage result :=
  match r with
  | .error e => .failed e
  | .ok a => next a

structure AwsKmsWalletManager where
  walletAlias : String

namespace AwsKmsWalletManager

/-- The configured alias, or the program's own name. -/
def new (dangerOverrideAlias : Option String) : AwsKmsWalletManager :=
  ⟨dangerOverrideAlias.getD "rrelayer"⟩

variable (m : AwsKmsWalletManager) {K : KmsService}

def buildAlias (walletIndex : ℕ) (chainId : ChainId) : String :=
  "alias/" ++ m.walletAlias ++ "-wallet-" ++ toString walletIndex ++ "-" ++ toString chainId

def findKeyByAlias (account : K.Account) (walletIndex : ℕ) (chainId : ChainId)
    (course : K.Course) : Except AwsKmsError (Option KmsKeyId) :=
  let expectedAlias := m.buildAlias walletIndex chainId
  existingAliasKeyId expectedAlias (K.describeKey account (.aliasName expectedAlias) course)

def keyDescription (walletIndex : ℕ) (chainId : ChainId) : String :=
  "ECC_SECG_P256K1 signing key - wallet_" ++ toString walletIndex ++ "_chain_" ++ toString chainId

/-- What `get_or_initialize_signer` goes on with once the alias was looked up: a cloned wallet is
never given a key of its own. -/
def keyFound (walletIndex : ℕ) (chainId : WalletManagerChainId) :
    Option KmsKeyId → KmsStep SignerStage AwsSigner
  | some keyId => .next (.initialising keyId)
  | none =>
      match chainId with
      | .cloned _ _ => .failed (.apiError
          ("Cloned wallet (index: " ++ toString walletIndex ++ ", lookup_chain: " ++
            toString chainId.clonedFromChainIdOrDefault ++ ") requires an existing KMS key " ++
            "alias. Check that the original KMS key alias exists."))
      | .chainId _ => .next .identifying

/-- `get_or_initialize_signer` past its cache, one call to AWS at a time. A new key whose alias could
not be created is used all the same. -/
def getOrInitializeSigner (account : K.Account) (walletIndex : ℕ) (chainId : WalletManagerChainId)
    (course : K.Course) : SignerStage → K.Account × KmsStep SignerStage AwsSigner
  | .validating => (account, .ofExcept (validateAwsConfig course) fun _ => .next .finding)
  | .finding =>
      (account, .ofExcept
        (m.findKeyByAlias account walletIndex chainId.clonedFromChainIdOrDefault course)
        (keyFound walletIndex chainId))
  | .identifying => (account, .ofExcept (identifyCaller course) fun _ => .next .creatingKey)
  | .creatingKey =>
      let description := keyDescription walletIndex chainId.clonedFromChainIdOrDefault
      let (account, created) := K.createKey account description course
      (account, .ofExcept (createdKeyId description created) fun keyId =>
        .next (.creatingAlias keyId))
  | .creatingAlias keyId =>
      let aliasName := m.buildAlias walletIndex chainId.clonedFromChainIdOrDefault
      ((K.createAlias account aliasName keyId course).1, .next (.initialising keyId))
  | .initialising keyId =>
      (account, .ofExcept (initializeAwsKmsSigner account (.keyId keyId) chainId.main course)
        fun signer => .next (.caching signer))
  | .caching signer => (account, .done signer)

/-- The checks of `assign_alias_to_existing_key` on the key it was given. -/
def checkExistingKey (kmsKeyId : KmsKeyRef) (metadata : KeyMetadata) :
    KmsStep ImportStage String :=
  let debug (name : Option String) : String :=
    match name with
    | some name => "Some(" ++ name ++ ")"
    | none => "None"
  if metadata.keySpec ≠ some .eccSecgP256K1 then .failed (.apiError
    ("KMS key " ++ kmsKeyId.text ++ " has spec " ++ debug (metadata.keySpec.map KeySpec.name) ++
      ", but ECC_SECG_P256K1 is required for Ethereum signing"))
  else if metadata.keyUsage ≠ some .signVerify then .failed (.apiError
    ("KMS key " ++ kmsKeyId.text ++ " has usage " ++
      debug (metadata.keyUsage.map KeyUsageType.name) ++ ", but SIGN_VERIFY is required"))
  else .next (.checkingAlias metadata.keyId)

/-- `import_existing_key` and the `assign_alias_to_existing_key` it ends with, one call to AWS at a
time: the address is checked before anything is changed. -/
def importExistingKey (account : K.Account) (kmsKeyId : KmsKeyRef) (walletIndex : ℕ)
    (chainId : ChainId) (expectedAddress : EvmAddress) (course : K.Course) :
    ImportStage → K.Account × KmsStep ImportStage String
  | .verifying =>
      (account, .ofExcept (initializeAwsKmsSigner account kmsKeyId chainId course) fun signer =>
        if signer.address ≠ expectedAddress then .failed (.apiError
          ("Address mismatch: provided address " ++ EvmAddress.hex expectedAddress ++
            " does not match the key's actual address " ++ EvmAddress.hex signer.address))
        else .next .validating)
  | .validating => (account, .ofExcept (validateAwsConfig course) fun _ => .next .describing)
  | .describing =>
      (account, match K.describeKey account kmsKeyId course with
        | .error e => .failed (.apiError
            ("Failed to describe KMS key " ++ kmsKeyId.text ++ ": " ++ e.message))
        | .ok none => .failed (.apiError ("No metadata returned for KMS key " ++ kmsKeyId.text))
        | .ok (some metadata) => checkExistingKey kmsKeyId metadata)
  | .checkingAlias canonicalKeyId =>
      let aliasName := m.buildAlias walletIndex chainId
      (account, .ofExcept (existingAliasKeyId aliasName
          (K.describeKey account (.aliasName aliasName) course)) fun
        | some existing =>
            if existing = canonicalKeyId then .done aliasName
            else .failed (.apiError ("Alias " ++ aliasName ++
              " already exists but points to a different key " ++ toString existing))
        | none => .next (.creatingAlias canonicalKeyId))
  | .creatingAlias canonicalKeyId =>
      let aliasName := m.buildAlias walletIndex chainId
      match K.createAlias account aliasName canonicalKeyId course with
      | (account, .error e) => (account, .failed (.apiError ("Failed to create alias " ++
          aliasName ++ " for key " ++ toString canonicalKeyId ++ ": " ++ e)))
      | (account, .ok ()) => (account, .done aliasName)

end AwsKmsWalletManager

namespace KmsService

variable {K : KmsService} {account account' : K.Account} {naming : Option (String × KmsKeyId)}
  {aliasName : String} {keyId : KmsKeyId} {ref : KmsKeyRef} {course : K.Course}

/-- Keys and aliases are added, and of the aliases at most the given one. -/
structure Grows (K : KmsService) (naming : Option (String × KmsKeyId))
    (account account' : K.Account) : Prop extends K.Kept account account' where
  named : ∀ aliasName keyId, K.aliases account' aliasName = some keyId →
    K.aliases account aliasName = some keyId ∨ naming = some (aliasName, keyId)

theorem Kept.refl (account : K.Account) : K.Kept account account := ⟨.refl _, .refl _⟩

theorem Grows.refl (account : K.Account) : K.Grows naming account account :=
  ⟨.refl account, fun _ _ h => .inl h⟩

/-- What a name or a number stands for is not taken back. -/
theorem Kept.resolve (h : K.Kept account account') (hkey : K.resolve account ref = some keyId) :
    K.resolve account' ref = some keyId := by
  cases ref with
  | keyId n => exact hkey
  | aliasName name => exact h.aliases _ _ hkey

section Lawful

variable (hlaw : K.Lawful)
include hlaw

theorem Lawful.createKey_grows (description : String) :
    K.Grows none account (K.createKey account description course).1 := by
  refine ⟨⟨hlaw.createKey_keys account description course, ?_⟩, ?_⟩
  · rw [hlaw.createKey_aliases]
    exact .refl _
  · intro aliasName keyId h
    rw [hlaw.createKey_aliases] at h
    exact .inl h

theorem Lawful.createAlias_grows :
    K.Grows (some (aliasName, keyId)) account
      (K.createAlias account aliasName keyId course).1 := by
  refine ⟨⟨?_, ?_⟩, ?_⟩
  · rw [hlaw.createAlias_keys]
    exact .refl _
  · rw [hlaw.createAlias_aliases]
    split
    · exact Directory.extends_bind _ _ _
    · exact .refl _
  · intro n k h
    rw [hlaw.createAlias_aliases] at h
    split at h
    · rcases Directory.bind_eq_some h with h | ⟨rfl, rfl⟩
      · exact .inl h
      · exact .inr rfl
    · exact .inl h

/-- Which calls of `create_alias` leave the alias with the key. -/
theorem Lawful.createAlias_named_iff :
    K.aliases (K.createAlias account aliasName keyId course).1 aliasName = some keyId ↔
      K.aliases account aliasName = some keyId ∨
        K.aliases account aliasName = none ∧ K.carriesOut course = true := by
  rw [hlaw.createAlias_aliases]
  rcases hbefore : K.aliases account aliasName with _ | k
  · cases K.carriesOut course with
    | true => simp [Directory.bind_self_of_free hbefore]
    | false => simp [hbefore]
  · have hkept := Directory.extends_bind (K.aliases account) aliasName keyId aliasName k hbefore
    split <;> simp [hbefore, hkept]

/-- A signer knows the key it was made for. -/
theorem Lawful.signer_key {chainId : ChainId} {signer : AwsSigner}
    (h : initializeAwsKmsSigner account ref chainId course = .ok signer) :
    K.resolve account ref = some signer.keyId ∧
      K.address account signer.keyId = some signer.address := by
  unfold initializeAwsKmsSigner at h
  split at h
  · rename_i held hheld
    cases h
    exact hlaw.awsSigner_key hheld
  · cases h

/-- The key that is found under an alias is the alias's. -/
theorem Lawful.existingAlias_key
    (h : existingAliasKeyId aliasName (K.describeKey account (.aliasName aliasName) course) =
      .ok (some keyId)) : K.aliases account aliasName = some keyId := by
  rcases hdescribed : K.describeKey account (.aliasName aliasName) course with
    (message | message) | _ | metadata
  all_goals rw [hdescribed] at h; cases h
  exact hlaw.describeKey_keyId hdescribed

end Lawful

end KmsService

theorem toDigits_inj {i j : ℕ} (h : Nat.toDigits 10 i = Nat.toDigits 10 j) : i = j := by
  have hvalue := congrArg (Nat.ofDigitChars 10 · 0) h
  simpa [Nat.ofDigitChars_ten_toDigits] using hvalue

theorem dash_not_mem_toDigits (n : ℕ) : '-' ∉ Nat.toDigits 10 n := by
  intro hmem
  have hdigit : '-'.isDigit = true := Nat.isDigit_of_mem_toDigits (by decide) (by decide) hmem
  cases hdigit

namespace AwsKmsWalletManager

variable {m : AwsKmsWalletManager} {K : KmsService} {account : K.Account} {walletIndex : ℕ}

/-- Wallets of different indexes or chains have different aliases. -/
theorem buildAlias_inj {i j : ℕ} {c d : ChainId} (h : m.buildAlias i c = m.buildAlias j d) :
    i = j ∧ c = d := by
  have hchars := congrArg String.toList h
  simp only [buildAlias, String.toList_append, Nat.toString_eq_ofList_toDigits,
    String.toList_ofList, List.append_assoc, List.append_cancel_left_eq] at hchars
  have hdash : "-".toList = ['-'] := by decide
  rw [hdash, List.singleton_append, List.singleton_append] at hchars
  obtain ⟨hindex, hchain⟩ :=
    Encoding.peel_separated (dash_not_mem_toDigits i) (dash_not_mem_toDigits j) hchars
  exact ⟨toDigits_inj hindex, toDigits_inj hchain⟩

section Signer

variable {chainId : WalletManagerChainId}

/-- What a call to AWS can make of a call for a signer. -/
inductive SignerLeaves (m : AwsKmsWalletManager) {K : KmsService} (account : K.Account)
    (walletIndex : ℕ) (chainId : WalletManagerChainId) (course : K.Course) :
    SignerStage → K.Account × KmsStep SignerStage AwsSigner → Prop where
  | failed {stage : SignerStage} {account' : K.Account} (error : AwsKmsError)
      (h : K.Grows none account account') :
      SignerLeaves m account walletIndex chainId course stage (account', .failed error)
  | validated :
      SignerLeaves m account walletIndex chainId course .validating (account, .next .finding)
  | found {keyId : KmsKeyId} (h : K.aliases account
        (m.buildAlias walletIndex chainId.clonedFromChainIdOrDefault) = some keyId) :
      SignerLeaves m account walletIndex chainId course .finding
        (account, .next (.initialising keyId))
  | notFound :
      SignerLeaves m account walletIndex chainId course .finding (account, .next .identifying)
  | identified :
      SignerLeaves m account walletIndex chainId course .identifying (account, .next .creatingKey)
  | created {account' : K.Account} {keyId : KmsKeyId} (h : K.Grows none account account')
      (hnew : K.address account keyId = none)
      (hexists : (K.address account' keyId).isSome = true) :
      SignerLeaves m account walletIndex chainId course .creatingKey
        (account', .next (.creatingAlias keyId))
  | aliased (keyId : KmsKeyId) :
      SignerLeaves m account walletIndex chainId course (.creatingAlias keyId)
        ((K.createAlias account (m.buildAlias walletIndex chainId.clonedFromChainIdOrDefault) keyId
          course).1, .next (.initialising keyId))
  | initialised {signer : AwsSigner}
      (haddress : K.address account signer.keyId = some signer.address) :
      SignerLeaves m account walletIndex chainId course (.initialising signer.keyId)
        (account, .next (.caching signer))
  | cached (signer : AwsSigner) :
      SignerLeaves m account walletIndex chainId course (.caching signer) (account, .done signer)

theorem getOrInitializeSigner_leaves (hlaw : K.Lawful) (course : K.Course) (stage : SignerStage) :
    SignerLeaves m account walletIndex chainId course stage
      (m.getOrInitializeSigner account walletIndex chainId course stage) := by
  cases stage with
  | validating =>
    unfold getOrInitializeSigner
    cases validateAwsConfig course with
    | error e => exact .failed e (.refl account)
    | ok _ => exact .validated
  | finding =>
    unfold getOrInitializeSigner findKeyByAlias
    dsimp only
    rcases hfound : existingAliasKeyId (m.buildAlias walletIndex chainId.clonedFromChainIdOrDefault)
        (K.describeKey account (.aliasName
          (m.buildAlias walletIndex chainId.clonedFromChainIdOrDefault)) course) with e | _ | keyId
    · exact .failed e (.refl account)
    · cases chainId with
      | cloned clonedFrom clonedTo => exact .failed _ (.refl account)
      | chainId c => exact .notFound
    · exact .found (hlaw.existingAlias_key hfound)
  | identifying =>
    unfold getOrInitializeSigner
    cases identifyCaller course with
    | error e => exact .failed e (.refl account)
    | ok _ => exact .identified
  | creatingKey =>
    have hgrows := @KmsService.Lawful.createKey_grows K account course hlaw
      (keyDescription walletIndex chainId.clonedFromChainIdOrDefault)
    have hnew := @KmsService.Lawful.createKey_new K hlaw account
      (keyDescription walletIndex chainId.clonedFromChainIdOrDefault) course
    unfold getOrInitializeSigner
    dsimp only
    rcases hcreated : (K.createKey account
      (keyDescription walletIndex chainId.clonedFromChainIdOrDefault) course).2 with e | _ | keyId
    · exact .failed _ hgrows
    · exact .failed _ hgrows
    · exact .created hgrows (hnew hcreated).1 (hnew hcreated).2
  | creatingAlias keyId => exact .aliased keyId
  | initialising keyId =>
    unfold getOrInitializeSigner
    dsimp only
    rcases hsigner : initializeAwsKmsSigner account (.keyId keyId) chainId.main course with
      e | signer
    · exact .failed e (.refl account)
    · obtain ⟨hkey, haddress⟩ := hlaw.signer_key hsigner
      obtain rfl : keyId = signer.keyId := Option.some.inj hkey
      exact .initialised haddress
  | caching signer => exact .cached signer

end Signer

section Import

variable {kmsKeyId : KmsKeyRef} {chainId : ChainId} {expectedAddress : EvmAddress}

/-- What a call to AWS can make of an import. -/
inductive ImportLeaves (m : AwsKmsWalletManager) {K : KmsService} (account : K.Account)
    (kmsKeyId : KmsKeyRef) (walletIndex : ℕ) (chainId : ChainId) (expectedAddress : EvmAddress) :
    ImportStage → K.Account × KmsStep ImportStage String → Prop where
  | failed {stage : ImportStage} {account' : K.Account} (error : AwsKmsError)
      (h : K.Kept account account') :
      ImportLeaves m account kmsKeyId walletIndex chainId expectedAddress stage
        (account', .failed error)
  | verified {keyId : KmsKeyId} (hkey : K.resolve account kmsKeyId = some keyId)
      (haddress : K.address account keyId = some expectedAddress) :
      ImportLeaves m account kmsKeyId walletIndex chainId expectedAddress .verifying
        (account, .next .validating)
  | validated : ImportLeaves m account kmsKeyId walletIndex chainId expectedAddress .validating
      (account, .next .describing)
  | described {keyId : KmsKeyId} (hkey : K.resolve account kmsKeyId = some keyId) :
      ImportLeaves m account kmsKeyId walletIndex chainId expectedAddress .describing
        (account, .next (.checkingAlias keyId))
  | free (keyId : KmsKeyId) :
      ImportLeaves m account kmsKeyId walletIndex chainId expectedAddress (.checkingAlias keyId)
        (account, .next (.creatingAlias keyId))
  | existing {keyId : KmsKeyId}
      (h : K.aliases account (m.buildAlias walletIndex chainId) = some keyId) :
      ImportLeaves m account kmsKeyId walletIndex chainId expectedAddress (.checkingAlias keyId)
        (account, .done (m.buildAlias walletIndex chainId))
  | aliased {keyId : KmsKeyId} {account' : K.Account}
      (h : K.Grows (some (m.buildAlias walletIndex chainId, keyId)) account account')
      (hnamed : K.aliases account' (m.buildAlias walletIndex chainId) = some keyId) :
      ImportLeaves m account kmsKeyId walletIndex chainId expectedAddress (.creatingAlias keyId)
        (account', .done (m.buildAlias walletIndex chainId))

theorem importExistingKey_leaves (hlaw : K.Lawful) (course : K.Course) (stage : ImportStage) :
    ImportLeaves m account kmsKeyId walletIndex chainId expectedAddress stage
      (m.importExistingKey account kmsKeyId walletIndex chainId expectedAddress course stage) := by
  cases stage with
  | verifying =>
    unfold importExistingKey
    rcases hsigner : initializeAwsKmsSigner account kmsKeyId chainId course with e | signer
    · exact .failed e (.refl account)
    · obtain ⟨hkey, haddress⟩ := hlaw.signer_key hsigner
      dsimp only [KmsStep.ofExcept]
      split
      · exact .failed _ (.refl account)
      · rename_i hsame
        rw [not_not.mp hsame] at haddress
        exact .verified hkey haddress
  | validating =>
    unfold importExistingKey
    cases validateAwsConfig course with
    | error e => exact .failed e (.refl account)
    | ok _ => exact .validated
  | describing =>
    unfold importExistingKey
    dsimp only
    split
    · exact .failed _ (.refl account)
    · exact .failed _ (.refl account)
    · rename_i metadata hmetadata
      unfold checkExistingKey
      dsimp only
      split
      · exact .failed _ (.refl account)
      · split
        · exact .failed _ (.refl account)
        · exact .described (hlaw.describeKey_keyId hmetadata)
  | checkingAlias keyId =>
    unfold importExistingKey
    dsimp only
    rcases hfound : existingAliasKeyId (m.buildAlias walletIndex chainId)
        (K.describeKey account (.aliasName (m.buildAlias walletIndex chainId)) course) with
      e | _ | existing
    · exact .failed e (.refl account)
    · exact .free keyId
    · dsimp only [KmsStep.ofExcept]
      split
      · rename_i hsame
        subst hsame
        exact .existing (hlaw.existingAlias_key hfound)
      · exact .failed _ (.refl account)
  | creatingAlias keyId =>
    have hgrows := @KmsService.Lawful.createAlias_grows K account
      (m.buildAlias walletIndex chainId) keyId course hlaw
    have hnamed := @KmsService.Lawful.createAlias_named K hlaw account
      (m.buildAlias walletIndex chainId) keyId course
    unfold importExistingKey
    dsimp only
    rcases hcreated : K.createAlias account (m.buildAlias walletIndex chainId) keyId course with
      ⟨account', e | _⟩
    all_goals rw [hcreated] at hgrows hnamed
    · exact .failed _ hgrows.toKept
    · exact .aliased hgrows (hnamed rfl)

end Import

end AwsKmsWalletManager
end Rrelayer
