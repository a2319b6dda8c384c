import Rrelayer.KmsKeys
import Rrelayer.Lib.Machine

/-! Wallets over AWS KMS through whole runs: any number of processes and calls in progress, every
call to AWS a step that may be turned down or lose its answer, and restarts that lose the signers
held in memory. -/
namespace Rrelayer

structure SignerCacheKey where
  walletIndex : ℕ
  lookupChainId : ChainId
  signingChainId : ChainId
  deriving DecidableEq, Repr

/-- A call in progress. -/
inductive KmsCall where
  | signer (walletIndex : ℕ) (chainId : WalletManagerChainId) (stage : SignerStage)
  | importing (kmsKeyId : KmsKeyRef) (walletIndex : ℕ) (chainId : ChainId)
      (expectedAddress : EvmAddress) (stage : ImportStage)
  deriving DecidableEq, Repr

structure KmsTask where
  process : ℕ
  call : KmsCall
  deriving DecidableEq, Repr

/-- A signer as it was handed out: the address and every signature of a wallet come from one. -/
structure WalletSigner where
  walletIndex : ℕ
  lookupChainId : ChainId
  signer : AwsSigner
  deriving DecidableEq, Repr

/-- An import that was reported as done. -/
structure ImportedKey where
  walletIndex : ℕ
  chainId : ChainId
  expectedAddress : EvmAddress
  deriving DecidableEq, Repr

/-- The account, the processes over it, and what they have answered. -/
structure KmsWorld (K : KmsService) where
  account : K.Account
  signers : ℕ → SignerCacheKey → Option AwsSigner
  tasks : List KmsTask
  answers : List WalletSigner
  imports : List ImportedKey

/-- A call to a manager, a call to AWS that one of the calls in progress makes, a restart, or what
somebody else makes of the account. -/
inductive KmsEvent (K : KmsService) where
  | request (process : ℕ) (walletIndex : ℕ) (chainId : WalletManagerChainId)
  | importKey (process : ℕ) (kmsKeyId : KmsKeyRef) (walletIndex : ℕ) (chainId : ChainId)
      (expectedAddress : EvmAddress)
  | reply (task : ℕ) (course : K.Course)
  | restart (process : ℕ)
  | outside (account : K.Account)

def signerCacheKey (walletIndex : ℕ) (chainId : WalletManagerChainId) : SignerCacheKey :=
  ⟨walletIndex, chainId.clonedFromChainIdOrDefault, chainId.main⟩

namespace KmsWorld

variable (m : AwsKmsWalletManager) {K : KmsService} (s : KmsWorld K)

/-- The cache is read first; a call that finds no signer starts to ask AWS. -/
def request (process walletIndex : ℕ) (chainId : WalletManagerChainId) : KmsWorld K :=
  match s.signers process (signerCacheKey walletIndex chainId) with
  | some signer => { s with
      answers := ⟨walletIndex, chainId.clonedFromChainIdOrDefault, signer⟩ :: s.answers }
  | none => { s with
      tasks := s.tasks ++ [⟨process, .signer walletIndex chainId .validating⟩] }

/-- A finished call leaves its signer in the cache of its process. -/
def finish (process walletIndex : ℕ) (chainId : WalletManagerChainId) (signer : AwsSigner) :
    KmsWorld K :=
  { s with
    signers := Function.update s.signers process
      (Function.update (s.signers process) (signerCacheKey walletIndex chainId) (some signer))
    answers := ⟨walletIndex, chainId.clonedFromChainIdOrDefault, signer⟩ :: s.answers }

/-- A call for a signer goes on to its next stage or ends. -/
def signerReplied (i process walletIndex : ℕ) (chainId : WalletManagerChainId) :
    K.Account × KmsStep SignerStage AwsSigner → KmsWorld K
  | (account, .next stage) => { s with
      account := account
      tasks := s.tasks.set i ⟨process, .signer walletIndex chainId stage⟩ }
  | (account, .failed _) => { s with account := account, tasks := s.tasks.eraseIdx i }
  | (account, .done signer) =>
      { s with account := account, tasks := s.tasks.eraseIdx i }.finish process walletIndex chainId
        signer

def importReplied (i process : ℕ) (kmsKeyId : KmsKeyRef) (walletIndex : ℕ) (chainId : ChainId)
    (expectedAddress : EvmAddress) : K.Account × KmsStep ImportStage String → KmsWorld K
  | (account, .next stage) => { s with
      account := account
      tasks := s.tasks.set i
        ⟨process, .importing kmsKeyId walletIndex chainId expectedAddress stage⟩ }
  | (account, .failed _) => { s with account := account, tasks := s.tasks.eraseIdx i }
  | (account, .done _) => { s with
      account := account
      tasks := s.tasks.eraseIdx i
      imports := ⟨walletIndex, chainId, expectedAddress⟩ :: s.imports }

/-- The call at a position gets the answer it waits for. -/
def reply (i : ℕ) (course : K.Course) : KmsWorld K :=
  match s.tasks[i]? with
  | none => s
  | some ⟨process, .signer walletIndex chainId stage⟩ =>
      s.signerReplied i process walletIndex chainId
        (m.getOrInitializeSigner s.account walletIndex chainId course stage)
  | some ⟨process, .importing kmsKeyId walletIndex chainId expectedAddress stage⟩ =>
      s.importReplied i process kmsKeyId walletIndex chainId expectedAddress
        (m.importExistingKey s.account kmsKeyId walletIndex chainId expectedAddress course stage)

def step (s : KmsWorld K) : KmsEvent K → KmsWorld K
  | .request process walletIndex chainId => s.request process walletIndex chainId
  | .importKey process kmsKeyId walletIndex chainId expectedAddress => { s with
      tasks := s.tasks ++
        [⟨process, .importing kmsKeyId walletIndex chainId expectedAddress .verifying⟩] }
  | .reply i course => s.reply m i course
  | .restart process => { s with
      signers := Function.update s.signers process fun _ => none
      tasks := s.tasks.filter (·.process != process) }
  | .outside account => { s with account := account }

abbrev run (s : KmsWorld K) (es : List (KmsEvent K)) : KmsWorld K := EventMachine.run (step m) s es

/-- An account in which no process has asked for anything yet. -/
def fresh (account : K.Account) : KmsWorld K := ⟨account, fun _ _ => none, [], [], []⟩

end KmsWorld

/-- The alias a call looks its key up under. -/
def KmsCall.aliasName (m : AwsKmsWalletManager) : KmsCall → String
  | .signer walletIndex chainId _ => m.buildAlias walletIndex chainId.clonedFromChainIdOrDefault
  | .importing _ walletIndex chainId _ _ => m.buildAlias walletIndex chainId

/-- The key a call has settled on. -/
def KmsCall.keyId : KmsCall → Option KmsKeyId
  | .signer _ _ (.initialising k) => some k
  | .signer _ _ (.caching held) => some held.keyId
  | _ => none

/-- The key a call has created and not yet named. -/
def KmsCall.unnamed : KmsCall → Option KmsKeyId
  | .signer _ _ (.creatingAlias k) => some k
  | _ => none

/-- The signer a call is about to hand out. -/
def KmsCall.signer? : KmsCall → Option AwsSigner
  | .signer _ _ (.caching held) => some held
  | _ => none

def WalletSigner.aliasName (m : AwsKmsWalletManager) (a : WalletSigner) : String :=
  m.buildAlias a.walletIndex a.lookupChainId

namespace KmsWorld

variable {m : AwsKmsWalletManager} {K : KmsService} {s : KmsWorld K} {e : KmsEvent K}
  {aliasName : String} {keyId : KmsKeyId}

/-- A key in use for an alias: a call has settled on it, a process holds a signer of it, or a signer
of it was handed out. -/
inductive Uses (m : AwsKmsWalletManager) (s : KmsWorld K) : String → KmsKeyId → Prop where
  | task {t : KmsTask} {keyId : KmsKeyId} (ht : t ∈ s.tasks) (hkey : t.call.keyId = some keyId) :
      Uses m s (t.call.aliasName m) keyId
  | cached {process : ℕ} {key : SignerCacheKey} {signer : AwsSigner}
      (hsigner : s.signers process key = some signer) :
      Uses m s (m.buildAlias key.walletIndex key.lookupChainId) signer.keyId
  | answered {a : WalletSigner} (ha : a ∈ s.answers) : Uses m s (a.aliasName m) a.signer.keyId

/-- Every key in use is the key of its alias. -/
def Named (m : AwsKmsWalletManager) (s : KmsWorld K) : Prop :=
  ∀ aliasName keyId, s.Uses m aliasName keyId → K.aliases s.account aliasName = some keyId

/-- Nobody else takes a key away or moves an alias that is in place. -/
def Undisturbed (s : KmsWorld K) : KmsEvent K → Prop
  | .outside account => K.Kept s.account account
  | _ => True

/-- The alias a step tries to give to a key created for a wallet. -/
def naming (m : AwsKmsWalletManager) (s : KmsWorld K) : KmsEvent K → Option (String × KmsKeyId)
  | .reply i _ => s.tasks[i]?.bind fun t => t.call.unnamed.map fun keyId =>
      (t.call.aliasName m, keyId)
  | _ => none

/-- The call to AWS that the step makes is carried out. -/
def CarriedOut : KmsEvent K → Prop
  | .reply _ course => K.carriesOut course = true
  | _ => False

/-- A created key gets its alias: the alias is free and AWS carries the call out, or the key has the
alias already. -/
def BindsAlias (m : AwsKmsWalletManager) (s : KmsWorld K) (e : KmsEvent K) : Prop :=
  ∀ p ∈ s.naming m e, K.aliases s.account p.1 = some p.2 ∨
    K.aliases s.account p.1 = none ∧ CarriedOut e

theorem BindsAlias.of_none (h : s.naming m e = none) : s.BindsAlias m e := by
  intro p hp
  rw [h] at hp
  cases hp

theorem BindsAlias.of_free (h : s.naming m e = some (aliasName, keyId))
    (hfree : K.aliases s.account aliasName = none) (hcourse : CarriedOut e) :
    s.BindsAlias m e := by
  intro p hp
  rw [h] at hp
  cases hp
  exact .inr ⟨hfree, hcourse⟩

/-- What a call to AWS does: nothing, where no call in progress makes it, or what it makes of one. -/
theorem reply_cases (hlaw : K.Lawful) (i : ℕ) (course : K.Course) :
    s.reply m i course = s ∨
    (∃ process walletIndex chainId stage o,
      s.tasks[i]? = some ⟨process, .signer walletIndex chainId stage⟩ ∧
      m.SignerLeaves s.account walletIndex chainId course stage o ∧
      s.reply m i course = s.signerReplied i process walletIndex chainId o) ∨
    ∃ process kmsKeyId walletIndex chainId expectedAddress stage o,
      s.tasks[i]? = some ⟨process, .importing kmsKeyId walletIndex chainId expectedAddress stage⟩ ∧
      m.ImportLeaves s.account kmsKeyId walletIndex chainId expectedAddress stage o ∧
      s.reply m i course =
        s.importReplied i process kmsKeyId walletIndex chainId expectedAddress o := by
  unfold reply
  split
  · exact .inl rfl
  · rename_i process walletIndex chainId stage htask
    exact .inr (.inl ⟨process, walletIndex, chainId, stage, _, htask,
      AwsKmsWalletManager.getOrInitializeSigner_leaves hlaw course stage, rfl⟩)
  · rename_i process kmsKeyId walletIndex chainId expectedAddress stage htask
    exact .inr (.inr ⟨process, kmsKeyId, walletIndex, chainId, expectedAddress, stage, _, htask,
      AwsKmsWalletManager.importExistingKey_leaves hlaw course stage, rfl⟩)

section Grows

variable {walletIndex : ℕ} {course : K.Course} {account : K.Account}

theorem signer_kept (hlaw : K.Lawful) {chainId : WalletManagerChainId} {stage : SignerStage}
    {o : K.Account × KmsStep SignerStage AwsSigner}
    (h : m.SignerLeaves account walletIndex chainId course stage o) : K.Kept account o.1 := by
  cases h with
  | failed error h => exact h.toKept
  | created h _ _ => exact h.toKept
  | aliased keyId => exact hlaw.createAlias_grows.toKept
  | validated | found _ | notFound | identified | initialised _ | cached _ => exact .refl _

theorem import_kept {kmsKeyId : KmsKeyRef} {chainId : ChainId} {expectedAddress : EvmAddress}
    {stage : ImportStage} {o : K.Account × KmsStep ImportStage String}
    (h : m.ImportLeaves account kmsKeyId walletIndex chainId expectedAddress stage o) :
    K.Kept account o.1 := by
  cases h with
  | failed error h => exact h
  | aliased h _ => exact h.toKept
  | verified _ _ | validated | described _ | free _ | existing _ => exact .refl _

theorem signerReplied_account {i process : ℕ} {chainId : WalletManagerChainId}
    {o : K.Account × KmsStep SignerStage AwsSigner} :
    (s.signerReplied i process walletIndex chainId o).account = o.1 := by
  obtain ⟨account, stage | error | signer⟩ := o <;> rfl

theorem importReplied_account {i process : ℕ} {kmsKeyId : KmsKeyRef} {chainId : ChainId}
    {expectedAddress : EvmAddress} {o : K.Account × KmsStep ImportStage String} :
    (s.importReplied i process kmsKeyId walletIndex chainId expectedAddress o).account = o.1 := by
  obtain ⟨account, stage | error | aliasName⟩ := o <;> rfl

theorem request_account {process : ℕ} {chainId : WalletManagerChainId} :
    (s.request process walletIndex chainId).account = s.account := by
  unfold request
  split <;> rfl

/-- No key is taken away and no alias is moved, unless somebody else does it. -/
theorem step_kept (hlaw : K.Lawful) (e : KmsEvent K) (h : s.Undisturbed e) :
    K.Kept s.account (step m s e).account := by
  cases e with
  | request process walletIndex chainId =>
    show K.Kept s.account (s.request process walletIndex chainId).account
    rw [request_account]
    exact .refl _
  | importKey | restart => exact .refl _
  | reply i course =>
    show K.Kept s.account (s.reply m i course).account
    obtain hsame | ⟨_, _, _, _, o, -, hleaves, hstep⟩ | ⟨_, _, _, _, _, _, o, -, hleaves, hstep⟩ :=
      reply_cases (m := m) (s := s) hlaw i course
    · rw [hsame]
      exact .refl _
    · rw [hstep, signerReplied_account]
      exact signer_kept hlaw hleaves
    · rw [hstep, importReplied_account]
      exact import_kept hleaves
  | outside account => exact h

end Grows

section Parts

variable {p process walletIndex : ℕ} {chainId : WalletManagerChainId} {key : SignerCacheKey}
  {held signer : AwsSigner}

/-- What a finished call leaves in the cache, beside what was there. -/
theorem finish_signers
    (h : (s.finish process walletIndex chainId signer).signers p key = some held) :
    s.signers p key = some held ∨ key = signerCacheKey walletIndex chainId ∧ held = signer := by
  by_cases hp : p = process
  · subst hp
    by_cases hk : key = signerCacheKey walletIndex chainId
    · have hsame : signer = held := by simpa [finish, hk] using h
      exact .inr ⟨hk, hsame.symm⟩
    · exact .inl (by simpa [finish, hk] using h)
  · exact .inl (by simpa [finish, hp] using h)

/-- A restart leaves the signers of the other processes. -/
theorem restart_signers (h : (step m s (.restart process)).signers p key = some held) :
    s.signers p key = some held := by
  by_cases hp : p = process
  · simp [step, hp] at h
  · simpa [step, hp] using h

variable {P : KmsTask → Prop} {t : KmsTask} {i : ℕ}

theorem mem_started (hcall : P t) : ∀ u ∈ s.tasks ++ [t], u ∈ s.tasks ∨ P u := by
  intro u hu
  rcases List.mem_append.mp hu with hu | hu
  · exact .inl hu
  · rw [List.mem_singleton.mp hu]
    exact .inr hcall

theorem mem_next (hcall : P t) : ∀ u ∈ s.tasks.set i t, u ∈ s.tasks ∨ P u := by
  intro u hu
  rcases List.mem_or_eq_of_mem_set hu with hu | rfl
  · exact .inl hu
  · exact .inr hcall

theorem mem_ended : ∀ u ∈ s.tasks.eraseIdx i, u ∈ s.tasks ∨ P u :=
  fun _ hu => .inl (List.mem_of_mem_eraseIdx hu)

theorem mem_unstopped {stays : KmsTask → Bool} : ∀ u ∈ s.tasks.filter stays, u ∈ s.tasks ∨ P u :=
  fun _ hu => .inl (List.mem_of_mem_filter hu)

end Parts

/-- A finished call puts its own key to use. -/
theorem uses_finish {process walletIndex : ℕ} {chainId : WalletManagerChainId} {signer : AwsSigner}
    (h : (s.finish process walletIndex chainId signer).Uses m aliasName keyId) :
    s.Uses m aliasName keyId ∨
      aliasName = m.buildAlias walletIndex chainId.clonedFromChainIdOrDefault ∧
        keyId = signer.keyId := by
  cases h with
  | task ht hkey => exact .inl (.task ht hkey)
  | cached hheld =>
    rcases finish_signers hheld with hheld | ⟨rfl, rfl⟩
    · exact .inl (.cached hheld)
    · exact .inr ⟨rfl, rfl⟩
  | @answered a ha =>
    rcases List.mem_cons.mp ha with rfl | ha
    · exact .inr ⟨rfl, rfl⟩
    · exact .inl (.answered ha)

/-- Calls that have settled on no key put none to use. -/
theorem uses_fewer {s' : KmsWorld K} (h : s'.Uses m aliasName keyId)
    (hsigners : ∀ p key signer, s'.signers p key = some signer → s.signers p key = some signer)
    (hanswers : s'.answers = s.answers)
    (htasks : ∀ t ∈ s'.tasks, t ∈ s.tasks ∨ t.call.keyId = none) : s.Uses m aliasName keyId := by
  cases h with
  | task ht hkey =>
    rcases htasks _ ht with ht | hnone
    · exact .task ht hkey
    · rw [hnone] at hkey
      cases hkey
  | cached hheld => exact .cached (hsigners _ _ _ hheld)
  | answered ha => exact .answered (hanswers ▸ ha)

/-- A call that goes on puts at most the key of its new stage to use. -/
theorem uses_next {account : K.Account} {i : ℕ} {t : KmsTask}
    (h : ({ s with account := account, tasks := s.tasks.set i t } : KmsWorld K).Uses m aliasName
      keyId) :
    s.Uses m aliasName keyId ∨ aliasName = t.call.aliasName m ∧ t.call.keyId = some keyId := by
  cases h with
  | task ht hkey =>
    rcases List.mem_or_eq_of_mem_set ht with ht | rfl
    · exact .inl (.task ht hkey)
    · exact .inr ⟨rfl, hkey⟩
  | cached hheld => exact .inl (.cached hheld)
  | answered ha => exact .inl (.answered ha)

/-- A call that is answered from the cache uses what is cached. -/
theorem uses_request {process walletIndex : ℕ} {chainId : WalletManagerChainId}
    (h : (s.request process walletIndex chainId).Uses m aliasName keyId) :
    s.Uses m aliasName keyId := by
  unfold request at h
  split at h
  · rename_i signer hcached
    cases h with
    | task ht hkey => exact .task ht hkey
    | cached hheld => exact .cached hheld
    | answered ha =>
      have hused : s.Uses m (m.buildAlias walletIndex chainId.clonedFromChainIdOrDefault)
          signer.keyId :=
        @Uses.cached K m s process (signerCacheKey walletIndex chainId) signer hcached
      rcases List.mem_cons.mp ha with rfl | ha
      · exact hused
      · exact .answered ha
  · exact uses_fewer h (fun _ _ _ h => h) rfl (mem_started rfl)

/-- Where the key comes from that a call for a signer puts to use. -/
theorem uses_signer {i process walletIndex : ℕ} {chainId : WalletManagerChainId}
    {course : K.Course} {stage : SignerStage} {o : K.Account × KmsStep SignerStage AwsSigner}
    (htask : s.tasks[i]? = some ⟨process, .signer walletIndex chainId stage⟩)
    (hleaves : m.SignerLeaves s.account walletIndex chainId course stage o)
    (h : (s.signerReplied i process walletIndex chainId o).Uses m aliasName keyId) :
    s.Uses m aliasName keyId ∨ K.aliases s.account aliasName = some keyId ∨
      s.naming m (.reply i course) = some (aliasName, keyId) := by
  have hmem := List.mem_of_getElem? htask
  cases hleaves with
  | failed error _ => exact .inl (uses_fewer h (fun _ _ _ h => h) rfl mem_ended)
  | cached signer =>
    rcases uses_finish h with h | ⟨rfl, rfl⟩
    · exact .inl (uses_fewer h (fun _ _ _ h => h) rfl mem_ended)
    · exact .inl (.task hmem rfl)
  | validated | notFound | identified | created _ _ _ =>
    rcases uses_next h with h | ⟨-, hkey⟩
    · exact .inl h
    · cases hkey
  | found hfound =>
    rcases uses_next h with h | ⟨rfl, hkey⟩
    · exact .inl h
    · cases hkey
      exact .inr (.inl hfound)
  | aliased k =>
    rcases uses_next h with h | ⟨rfl, hkey⟩
    · exact .inl h
    · cases hkey
      refine .inr (.inr ?_)
      simp [naming, htask, KmsCall.unnamed, KmsCall.aliasName]
  | @initialised signer _ =>
    have hused : s.Uses m (m.buildAlias walletIndex chainId.clonedFromChainIdOrDefault)
        signer.keyId := .task hmem rfl
    rcases uses_next h with h | ⟨rfl, hkey⟩
    · exact .inl h
    · cases hkey
      exact .inl hused

/-- An import puts no key to use. -/
theorem uses_import {i process walletIndex : ℕ} {kmsKeyId : KmsKeyRef} {chainId : ChainId}
    {expectedAddress : EvmAddress} {stage : ImportStage}
    {o : K.Account × KmsStep ImportStage String}
    (hleaves : m.ImportLeaves s.account kmsKeyId walletIndex chainId expectedAddress stage o)
    (h : (s.importReplied i process kmsKeyId walletIndex chainId expectedAddress o).Uses m aliasName
      keyId) : s.Uses m aliasName keyId := by
  cases hleaves with
  | failed error _ | existing _ | aliased _ _ =>
    exact uses_fewer h (fun _ _ _ h => h) rfl mem_ended
  | verified _ _ | validated | described _ | free _ =>
    rcases uses_next h with h | ⟨-, hkey⟩
    · exact h
    · cases hkey

/-- Where a key in use comes from: it was in use, or it is found under its alias, or it was created
for the alias and the attempt to name it is over. -/
theorem uses_step (hlaw : K.Lawful) (h : (step m s e).Uses m aliasName keyId) :
    s.Uses m aliasName keyId ∨ K.aliases s.account aliasName = some keyId ∨
      s.naming m e = some (aliasName, keyId) := by
  cases e with
  | request process walletIndex chainId => exact .inl (uses_request h)
  | importKey process kmsKeyId walletIndex chainId expectedAddress =>
    exact .inl (uses_fewer h (fun _ _ _ h => h) rfl (mem_started rfl))
  | restart process =>
    exact .inl (uses_fewer h (fun _ _ _ h => restart_signers h) rfl mem_unstopped)
  | outside account => exact .inl (uses_fewer h (fun _ _ _ h => h) rfl fun t ht => .inl ht)
  | reply i course =>
    change (s.reply m i course).Uses m aliasName keyId at h
    obtain hsame | ⟨process, walletIndex, chainId, stage, o, htask, hleaves, hstep⟩ |
        ⟨process, kmsKeyId, walletIndex, chainId, expectedAddress, stage, o, -, hleaves, hstep⟩ :=
      reply_cases (m := m) (s := s) hlaw i course
    · rw [hsame] at h
      exact .inl h
    · rw [hstep] at h
      exact uses_signer htask hleaves h
    · rw [hstep] at h
      exact .inl (uses_import hleaves h)

theorem unnamed_some {call : KmsCall} (h : call.unnamed = some keyId) :
    ∃ walletIndex chainId, call = .signer walletIndex chainId (.creatingAlias keyId) := by
  unfold KmsCall.unnamed at h
  split at h
  · cases h
    exact ⟨_, _, rfl⟩
  · cases h

/-- An attempt to name a key is the answer a call at `create_alias` waits for. -/
theorem naming_some (h : s.naming m e = some (aliasName, keyId)) :
    ∃ i course process walletIndex chainId, e = .reply i course ∧
      s.tasks[i]? = some ⟨process, .signer walletIndex chainId (.creatingAlias keyId)⟩ ∧
      aliasName = m.buildAlias walletIndex chainId.clonedFromChainIdOrDefault := by
  cases e with
  | reply i course =>
    obtain ⟨⟨process, call⟩, htask, hmap⟩ := Option.bind_eq_some_iff.mp h
    obtain ⟨k, hk, hpair⟩ := Option.map_eq_some_iff.mp hmap
    obtain ⟨walletIndex, chainId, rfl⟩ := unnamed_some hk
    cases hpair
    exact ⟨i, course, process, walletIndex, chainId, rfl, htask, rfl⟩
  | request | importKey | restart | outside => cases h

/-- What a naming attempt leaves under the alias. -/
theorem naming_bound_iff (hlaw : K.Lawful) (h : s.naming m e = some (aliasName, keyId)) :
    K.aliases (step m s e).account aliasName = some keyId ↔
      K.aliases s.account aliasName = some keyId ∨
        K.aliases s.account aliasName = none ∧ CarriedOut e := by
  obtain ⟨i, course, process, walletIndex, chainId, rfl, htask, rfl⟩ := naming_some h
  have hstep : (step m s (.reply i course)).account = (K.createAlias s.account
      (m.buildAlias walletIndex chainId.clonedFromChainIdOrDefault) keyId course).1 := by
    simp [step, reply, htask, signerReplied_account, AwsKmsWalletManager.getOrInitializeSigner]
  rw [hstep]
  exact hlaw.createAlias_named_iff

/-- A key that was tried to be named is in use from then on. -/
theorem uses_naming (h : s.naming m e = some (aliasName, keyId)) :
    (step m s e).Uses m aliasName keyId := by
  obtain ⟨i, course, process, walletIndex, chainId, rfl, htask, rfl⟩ := naming_some h
  have hmem : (⟨process, .signer walletIndex chainId (.initialising keyId)⟩ : KmsTask) ∈
      (step m s (.reply i course)).tasks := by
    simp only [step, reply, htask, AwsKmsWalletManager.getOrInitializeSigner, signerReplied]
    exact List.mem_set (List.getElem?_eq_some_iff.mp htask).1 _
  exact .task hmem rfl

theorem named_step (hlaw : K.Lawful) (hundisturbed : s.Undisturbed e) (hbinds : s.BindsAlias m e)
    (hs : s.Named m) : (step m s e).Named m := by
  intro aliasName keyId huses
  have hextends := (step_kept (m := m) hlaw e hundisturbed).aliases
  rcases uses_step hlaw huses with h | h | h
  · exact hextends _ _ (hs _ _ h)
  · exact hextends _ _ h
  · exact (naming_bound_iff hlaw h).mpr (hbinds _ h)

/-- In runs in which nobody else moves an alias, every key in use belongs to its alias at any time
exactly when every key created on the way gets its alias. -/
theorem keys_named_iff (hlaw : K.Lawful) {es : List (KmsEvent K)}
    (hundisturbed : EventMachine.Along (step m) Undisturbed s es) (hs : s.Named m) :
    EventMachine.Along (step m) (BindsAlias m) s es ↔
      ∀ before after, es = before ++ after → (s.run m before).Named m := by
  constructor
  · rintro hbinds before after rfl
    have hboth := (EventMachine.along_append.mp (hundisturbed.and hbinds)).1
    exact hboth.invariant (fun s e h hnamed => named_step hlaw h.1 h.2 hnamed) hs
  · intro hnamed
    rw [EventMachine.along_iff_split]
    intro before e after hes p hp
    have hafter := hnamed (before ++ [e]) after (by rw [hes]; simp)
    have hrun : s.run m (before ++ [e]) = step m (s.run m before) e := by simp [run, EventMachine.run]
    rw [hrun] at hafter
    exact (naming_bound_iff hlaw hp).mp (hafter _ _ (uses_naming hp))

theorem fresh_named (account : K.Account) : (fresh account).Named m := by
  intro aliasName keyId h
  cases h with
  | task ht => cases ht
  | cached hsigner => cases hsigner
  | answered ha => cases ha

/-- Keys numbered as they were created. A call is turned down, or is carried out and gives a created
key the address. -/
def listedKms : KmsService where
  Account := List EvmAddress × (String → Option KmsKeyId)
  Course := Option EvmAddress
  address account keyId := account.1[keyId]?
  aliases account := account.2
  carriesOut course := course.isSome
  getCallerIdentity course := match course with
    | none => .error "refused"
    | some _ => .ok ⟨some "111122223333", some "arn:aws:iam::111122223333:user/relayer"⟩
  describeKey account ref course := match course with
    | none => .error (.failed "refused")
    | some _ =>
        match (match ref with | .keyId n => some n | .aliasName name => account.2 name) with
        | none => .error (.notFoundException "NotFoundException")
        | some n => .ok (some ⟨n, some .eccSecgP256K1, some .signVerify⟩)
  createKey account _ course := match course with
    | none => (account, .error "refused")
    | some address => ((account.1 ++ [address], account.2), .ok (some account.1.length))
  createAlias account aliasName keyId course := match course, account.2 aliasName with
    | none, _ => (account, .error "refused")
    | some _, some _ => (account, .error "AlreadyExistsException")
    | some _, none => ((account.1, Directory.bind account.2 aliasName keyId), .ok ())
  awsSigner account ref chainId course := match course with
    | none => .error "refused"
    | some _ =>
        match (match ref with | .keyId n => some n | .aliasName name => account.2 name) with
        | none => .error "NotFoundException"
        | some n =>
            match account.1[n]? with
            | none => .error "NotFoundException"
            | some address => .ok ⟨n, address, chainId⟩

theorem listedKms_lawful : listedKms.Lawful where
  describeKey_keyId {account ref course metadata} h := by
    cases course with
    | none => cases h
    | some address =>
      cases ref with
      | keyId n =>
        cases h
        rfl
      | aliasName name =>
        simp only [listedKms] at h
        split at h
        · cases h
        · rename_i hnamed
          cases h
          exact hnamed
  awsSigner_key {account ref chainId course signer} h := by
    cases course with
    | none => cases h
    | some address =>
      simp only [listedKms] at h
      split at h
      · cases h
      · rename_i n hresolve
        split at h
        · cases h
        · rename_i held haddress
          cases h
          refine ⟨?_, haddress⟩
          cases ref with
          | keyId n => exact hresolve
          | aliasName name => exact hresolve
  createKey_keys account description course := by
    cases course with
    | none => exact .refl _
    | some address =>
      intro n held hheld
      exact (List.getElem?_append_left (List.getElem?_eq_some_iff.mp hheld).1).trans hheld
  createKey_aliases account description course := by
    cases course <;> rfl
  createKey_new {account description course keyId} h := by
    cases course with
    | none => cases h
    | some address =>
      cases h
      simp [listedKms]
  createAlias_keys account aliasName keyId course := by
    simp only [listedKms]
    split <;> rfl
  createAlias_aliases account aliasName keyId course := by
    simp only [listedKms]
    split
    · rfl
    · rename_i hnamed
      simp [Directory.bind, hnamed]
    · rfl
  createAlias_named {account aliasName keyId course} h := by
    simp only [listedKms] at h ⊢
    split at h
    · cases h
    · cases h
    · rename_i hfree
      simp [Directory.bind_self_of_free hfree]

/-- An account without keys. -/
def emptyAccount : listedKms.Account := ([], fun _ => none)

/-- One process creates the key of a wallet and hands its signer out twice, then it restarts and
another process finds the key. -/
def createdAndFound : List (KmsEvent listedKms) :=
  .request 0 3 (.chainId 1) :: List.replicate 7 (.reply 0 (some 7)) ++
    .request 0 3 (.chainId 1) :: .restart 0 :: .request 1 3 (.chainId 1) ::
      List.replicate 4 (.reply 0 (some 7))

theorem createdAndFound_undisturbed :
    EventMachine.Along (step (.new none)) Undisturbed (fresh emptyAccount) createdAndFound :=
  ⟨trivial, trivial, trivial, trivial, trivial, trivial, trivial, trivial, trivial, trivial, trivial,
    trivial, trivial, trivial, trivial, trivial⟩

theorem createdAndFound_binds : EventMachine.Along (step (.new none)) (BindsAlias (.new none))
    (fresh emptyAccount) createdAndFound :=
  ⟨.of_none rfl, .of_none rfl, .of_none rfl, .of_none rfl, .of_none rfl,
    @BindsAlias.of_free _ _ _ _ "alias/rrelayer-wallet-3-1" 0 rfl rfl rfl, .of_none rfl,
    .of_none rfl, .of_none rfl, .of_none rfl, .of_none rfl, .of_none rfl, .of_none rfl,
    .of_none rfl, .of_none rfl, trivial⟩

theorem keys_named_found :
    EventMachine.Along (step (.new none)) (BindsAlias (.new none)) (fresh emptyAccount)
        createdAndFound ↔
      ∀ before after, createdAndFound = before ++ after →
        ((fresh emptyAccount).run (.new none) before).Named (.new none) :=
  keys_named_iff listedKms_lawful createdAndFound_undisturbed (fresh_named emptyAccount)

/-- A signer about to be handed out, held by a process, or handed out. -/
inductive HasSigner (s : KmsWorld K) : AwsSigner → Prop where
  | task {t : KmsTask} {signer : AwsSigner} (ht : t ∈ s.tasks)
      (hsigner : t.call.signer? = some signer) : HasSigner s signer
  | cached {process : ℕ} {key : SignerCacheKey} {signer : AwsSigner}
      (hsigner : s.signers process key = some signer) : HasSigner s signer
  | answered {a : WalletSigner} (ha : a ∈ s.answers) : HasSigner s a.signer

/-- The signer has the address of its key. -/
def OfKey (account : K.Account) (signer : AwsSigner) : Prop :=
  K.address account signer.keyId = some signer.address

section Signers

variable {signer : AwsSigner}

theorem hasSigner_finish {process walletIndex : ℕ} {chainId : WalletManagerChainId}
    {held : AwsSigner} (h : (s.finish process walletIndex chainId held).HasSigner signer) :
    s.HasSigner signer ∨ signer = held := by
  cases h with
  | task ht hsigner => exact .inl (.task ht hsigner)
  | cached hsigner =>
    rcases finish_signers hsigner with hsigner | ⟨-, rfl⟩
    · exact .inl (.cached hsigner)
    · exact .inr rfl
  | @answered a ha =>
    rcases List.mem_cons.mp ha with rfl | ha
    · exact .inr rfl
    · exact .inl (.answered ha)

/-- Calls that are not about to hand out a signer add none. -/
theorem hasSigner_fewer {s' : KmsWorld K} (h : s'.HasSigner signer)
    (hsigners : ∀ p key held, s'.signers p key = some held → s.signers p key = some held)
    (hanswers : s'.answers = s.answers)
    (htasks : ∀ t ∈ s'.tasks, t ∈ s.tasks ∨ t.call.signer? = none) : s.HasSigner signer := by
  cases h with
  | task ht hsigner =>
    rcases htasks _ ht with ht | hnone
    · exact .task ht hsigner
    · rw [hnone] at hsigner
      cases hsigner
  | cached hsigner => exact .cached (hsigners _ _ _ hsigner)
  | answered ha => exact .answered (hanswers ▸ ha)

/-- A call that goes on adds at most the signer of its new stage. -/
theorem hasSigner_next {account : K.Account} {i : ℕ} {t : KmsTask}
    (h : ({ s with account := account, tasks := s.tasks.set i t } : KmsWorld K).HasSigner signer) :
    s.HasSigner signer ∨ t.call.signer? = some signer := by
  cases h with
  | task ht hsigner =>
    rcases List.mem_or_eq_of_mem_set ht with ht | rfl
    · exact .inl (.task ht hsigner)
    · exact .inr hsigner
  | cached hsigner => exact .inl (.cached hsigner)
  | answered ha => exact .inl (.answered ha)

theorem hasSigner_request {process walletIndex : ℕ} {chainId : WalletManagerChainId}
    (h : (s.request process walletIndex chainId).HasSigner signer) : s.HasSigner signer := by
  unfold request at h
  split at h
  · rename_i held hcached
    cases h with
    | task ht hsigner => exact .task ht hsigner
    | cached hsigner => exact .cached hsigner
    | answered ha =>
      rcases List.mem_cons.mp ha with rfl | ha
      · exact .cached hcached
      · exact .answered ha
  · exact hasSigner_fewer h (fun _ _ _ h => h) rfl (mem_started rfl)

theorem hasSigner_signer {i process walletIndex : ℕ} {chainId : WalletManagerChainId}
    {course : K.Course} {stage : SignerStage} {o : K.Account × KmsStep SignerStage AwsSigner}
    (htask : s.tasks[i]? = some ⟨process, .signer walletIndex chainId stage⟩)
    (hleaves : m.SignerLeaves s.account walletIndex chainId course stage o)
    (h : (s.signerReplied i process walletIndex chainId o).HasSigner signer) :
    s.HasSigner signer ∨ OfKey s.account signer := by
  have hmem := List.mem_of_getElem? htask
  cases hleaves with
  | failed error _ => exact .inl (hasSigner_fewer h (fun _ _ _ h => h) rfl mem_ended)
  | cached held =>
    rcases hasSigner_finish h with h | rfl
    · exact .inl (hasSigner_fewer h (fun _ _ _ h => h) rfl mem_ended)
    · exact .inl (.task hmem rfl)
  | validated | found _ | notFound | identified | created _ _ _ | aliased _ =>
    rcases hasSigner_next h with h | hsigner
    · exact .inl h
    · cases hsigner
  | initialised haddress =>
    rcases hasSigner_next h with h | hsigner
    · exact .inl h
    · cases hsigner
      exact .inr haddress

theorem hasSigner_import {i process walletIndex : ℕ} {kmsKeyId : KmsKeyRef} {chainId : ChainId}
    {expectedAddress : EvmAddress} {stage : ImportStage}
    {o : K.Account × KmsStep ImportStage String}
    (hleaves : m.ImportLeaves s.account kmsKeyId walletIndex chainId expectedAddress stage o)
    (h : (s.importReplied i process kmsKeyId walletIndex chainId expectedAddress o).HasSigner
      signer) : s.HasSigner signer := by
  cases hleaves with
  | failed error _ | existing _ | aliased _ _ =>
    exact hasSigner_fewer h (fun _ _ _ h => h) rfl mem_ended
  | verified _ _ | validated | described _ | free _ =>
    rcases hasSigner_next h with h | hsigner
    · exact h
    · cases hsigner

/-- A signer is made for a key of the account. -/
theorem hasSigner_step (hlaw : K.Lawful) (h : (step m s e).HasSigner signer) :
    s.HasSigner signer ∨ OfKey s.account signer := by
  cases e with
  | request process walletIndex chainId => exact .inl (hasSigner_request h)
  | importKey process kmsKeyId walletIndex chainId expectedAddress =>
    exact .inl (hasSigner_fewer h (fun _ _ _ h => h) rfl (mem_started rfl))
  | restart process =>
    exact .inl (hasSigner_fewer h (fun _ _ _ h => restart_signers h) rfl mem_unstopped)
  | outside account => exact .inl (hasSigner_fewer h (fun _ _ _ h => h) rfl fun t ht => .inl ht)
  | reply i course =>
    change (s.reply m i course).HasSigner signer at h
    obtain hsame | ⟨process, walletIndex, chainId, stage, o, htask, hleaves, hstep⟩ |
        ⟨process, kmsKeyId, walletIndex, chainId, expectedAddress, stage, o, -, hleaves, hstep⟩ :=
      reply_cases (m := m) (s := s) hlaw i course
    · rw [hsame] at h
      exact .inl h
    · rw [hstep] at h
      exact hasSigner_signer htask hleaves h
    · rw [hstep] at h
      exact .inl (hasSigner_import hleaves h)

theorem ofKey_step (hlaw : K.Lawful) (hundisturbed : s.Undisturbed e)
    (hs : ∀ signer, s.HasSigner signer → OfKey s.account signer) :
    ∀ signer, (step m s e).HasSigner signer → OfKey (step m s e).account signer := by
  intro signer h
  have hkept := step_kept (m := m) hlaw e hundisturbed
  have hbefore : OfKey s.account signer := (hasSigner_step hlaw h).elim (hs signer) id
  exact hkept.keys _ _ hbefore

/-- Every signer of a run has the address of its key. -/
theorem fresh_ofKey (hlaw : K.Lawful) {account : K.Account} {es : List (KmsEvent K)}
    (hundisturbed : EventMachine.Along (step m) Undisturbed (fresh account) es) :
    ∀ signer, ((fresh account).run m es).HasSigner signer →
      OfKey ((fresh account).run m es).account signer := by
  have hstart : ∀ signer, (fresh account).HasSigner signer → OfKey account signer := by
    intro signer h
    cases h with
    | task ht => cases ht
    | cached hsigner => cases hsigner
    | answered ha => cases ha
  exact hundisturbed.invariant (P := fun s => ∀ signer, s.HasSigner signer → OfKey s.account signer)
    (fun s e h hs => ofKey_step hlaw h hs) hstart

end Signers

/-- A wallet keeps its key through calls in any order, failures and restarts: all its signers are of
one key, and have one address, as long as created keys get their alias and no alias is moved. -/
theorem one_key_for_a_wallet (hlaw : K.Lawful) {account : K.Account} {es : List (KmsEvent K)}
    (hundisturbed : EventMachine.Along (step m) Undisturbed (fresh account) es)
    (hbinds : EventMachine.Along (step m) (BindsAlias m) (fresh account) es) :
    ∀ a ∈ ((fresh account).run m es).answers, ∀ b ∈ ((fresh account).run m es).answers,
      a.walletIndex = b.walletIndex → a.lookupChainId = b.lookupChainId →
        a.signer.keyId = b.signer.keyId ∧ a.signer.address = b.signer.address := by
  intro a ha b hb hindex hchain
  have hnamed := (keys_named_iff hlaw hundisturbed (fresh_named account)).mp hbinds es [] (by simp)
  have hofKey := fresh_ofKey hlaw hundisturbed
  have hkeyA := hnamed _ _ (.answered ha)
  have hkeyB := hnamed _ _ (.answered hb)
  have hsame : a.aliasName m = b.aliasName m := by
    unfold WalletSigner.aliasName
    rw [hindex, hchain]
  rw [hsame, hkeyB] at hkeyA
  have hkey : a.signer.keyId = b.signer.keyId := (Option.some.inj hkeyA).symm
  have haddressA : K.address _ a.signer.keyId = some a.signer.address := hofKey _ (.answered ha)
  have haddressB : K.address _ b.signer.keyId = some b.signer.address := hofKey _ (.answered hb)
  rw [hkey, haddressB] at haddressA
  exact ⟨hkey, (Option.some.inj haddressA).symm⟩

theorem one_key_found :
    ((fresh emptyAccount).run (.new none) createdAndFound).answers.length = 3 ∧
      ∀ a ∈ ((fresh emptyAccount).run (.new none) createdAndFound).answers,
        ∀ b ∈ ((fresh emptyAccount).run (.new none) createdAndFound).answers,
          a.walletIndex = b.walletIndex → a.lookupChainId = b.lookupChainId →
            a.signer.keyId = b.signer.keyId ∧ a.signer.address = b.signer.address :=
  ⟨by decide,
    one_key_for_a_wallet listedKms_lawful createdAndFound_undisturbed createdAndFound_binds⟩

section Imports

/-- What an import has found out so far still holds. -/
def ImportRight (account : K.Account) : KmsCall → Prop
  | .importing kmsKeyId _ _ expectedAddress .validating
  | .importing kmsKeyId _ _ expectedAddress .describing => ∃ keyId,
      K.resolve account kmsKeyId = some keyId ∧ K.address account keyId = some expectedAddress
  | .importing _ _ _ expectedAddress (.checkingAlias keyId)
  | .importing _ _ _ expectedAddress (.creatingAlias keyId) =>
      K.address account keyId = some expectedAddress
  | _ => True

/-- Every import in progress is right so far, and every finished one has its alias at a key with the
address it was asked for. -/
structure ImportsRight (m : AwsKmsWalletManager) (s : KmsWorld K) : Prop where
  tasks : ∀ t ∈ s.tasks, ImportRight s.account t.call
  imports : ∀ i ∈ s.imports, ∃ keyId,
    K.aliases s.account (m.buildAlias i.walletIndex i.chainId) = some keyId ∧
      K.address s.account keyId = some i.expectedAddress

theorem ImportRight.kept {account account' : K.Account} (h : K.Kept account account')
    {call : KmsCall} (hcall : ImportRight account call) : ImportRight account' call := by
  unfold ImportRight at hcall ⊢
  split
  · obtain ⟨keyId, hkey, haddress⟩ := hcall
    exact ⟨keyId, h.resolve hkey, h.keys _ _ haddress⟩
  · obtain ⟨keyId, hkey, haddress⟩ := hcall
    exact ⟨keyId, h.resolve hkey, h.keys _ _ haddress⟩
  · exact h.keys _ _ hcall
  · exact h.keys _ _ hcall
  · trivial

/-- Calls that are right beside the earlier ones, and no import that ended. -/
theorem ImportsRight.of_tasks {s' : KmsWorld K} (hs : s.ImportsRight m)
    (hkept : K.Kept s.account s'.account)
    (htasks : ∀ t ∈ s'.tasks, t ∈ s.tasks ∨ ImportRight s'.account t.call)
    (himports : s'.imports = s.imports) : s'.ImportsRight m where
  tasks t ht := (htasks t ht).elim (fun ht => (hs.tasks t ht).kept hkept) id
  imports i hi := by
    obtain ⟨keyId, hnamed, haddress⟩ := hs.imports i (himports ▸ hi)
    exact ⟨keyId, hkept.aliases _ _ hnamed, hkept.keys _ _ haddress⟩

/-- An import that is reported as done has its alias at the key it was right about. -/
theorem ImportsRight.imported (hs : s.ImportsRight m) {account : K.Account}
    (hkept : K.Kept s.account account) {i walletIndex : ℕ} {chainId : ChainId}
    {expectedAddress : EvmAddress} (haddress : K.address s.account keyId = some expectedAddress)
    (hnamed : K.aliases account (m.buildAlias walletIndex chainId) = some keyId) :
    ({ s with
      account := account
      tasks := s.tasks.eraseIdx i
      imports := ⟨walletIndex, chainId, expectedAddress⟩ :: s.imports } :
        KmsWorld K).ImportsRight m := by
  refine ⟨fun t ht => (hs.tasks t (List.mem_of_mem_eraseIdx ht)).kept hkept, fun j hj => ?_⟩
  rcases List.mem_cons.mp hj with rfl | hj
  · exact ⟨keyId, hnamed, hkept.keys _ _ haddress⟩
  · obtain ⟨k, hnamed, haddress⟩ := hs.imports j hj
    exact ⟨k, hkept.aliases _ _ hnamed, hkept.keys _ _ haddress⟩

theorem ImportsRight.importReplied (hs : s.ImportsRight m) {i process walletIndex : ℕ}
    {kmsKeyId : KmsKeyRef} {chainId : ChainId} {expectedAddress : EvmAddress} {stage : ImportStage}
    {o : K.Account × KmsStep ImportStage String}
    (htask : s.tasks[i]? =
      some ⟨process, .importing kmsKeyId walletIndex chainId expectedAddress stage⟩)
    (hleaves : m.ImportLeaves s.account kmsKeyId walletIndex chainId expectedAddress stage o) :
    (s.importReplied i process kmsKeyId walletIndex chainId expectedAddress o).ImportsRight m := by
  have hkept := import_kept hleaves
  have hright := hs.tasks _ (List.mem_of_getElem? htask)
  cases hleaves with
  | failed error _ =>
    exact hs.of_tasks hkept mem_ended rfl
  | verified hkey haddress => exact hs.of_tasks hkept (mem_next ⟨_, hkey, haddress⟩) rfl
  | validated => exact hs.of_tasks hkept (mem_next hright) rfl
  | described hkey =>
    obtain ⟨keyId, hbefore, haddress⟩ := hright
    obtain rfl := Option.some.inj (hkey.symm.trans hbefore)
    exact hs.of_tasks hkept (mem_next haddress) rfl
  | free keyId => exact hs.of_tasks hkept (mem_next hright) rfl
  | existing hnamed => exact hs.imported hkept hright hnamed
  | aliased _ hnamed => exact hs.imported hkept hright hnamed

theorem importsRight_step (hlaw : K.Lawful) (hundisturbed : s.Undisturbed e)
    (hs : s.ImportsRight m) : (step m s e).ImportsRight m := by
  have hkept := step_kept (m := m) hlaw e hundisturbed
  cases e with
  | request process walletIndex chainId =>
    change (s.request process walletIndex chainId).ImportsRight m
    unfold request
    split
    · exact hs.of_tasks (.refl _) (fun t ht => .inl ht) rfl
    · exact hs.of_tasks (.refl _) (mem_started trivial) rfl
  | importKey => exact hs.of_tasks hkept (mem_started trivial) rfl
  | restart => exact hs.of_tasks hkept mem_unstopped rfl
  | outside => exact hs.of_tasks hkept (fun t ht => .inl ht) rfl
  | reply i course =>
    change (s.reply m i course).ImportsRight m
    change K.Kept s.account (s.reply m i course).account at hkept
    obtain hsame | ⟨_, _, _, _, o, -, -, hstep⟩ | ⟨_, _, _, _, _, _, o, htask, hleaves, hstep⟩ :=
      reply_cases (m := m) (s := s) hlaw i course
    · rw [hsame]
      exact hs
    · rw [hstep] at hkept ⊢
      obtain ⟨account, next | error | signer⟩ := o
      · exact hs.of_tasks hkept (mem_next trivial) rfl
      · exact hs.of_tasks hkept mem_ended rfl
      · exact hs.of_tasks hkept mem_ended rfl
    · rw [hstep]
      exact hs.importReplied htask hleaves

/-- A wallet whose key was imported signs for the address the import was asked for, before the import
as after it. -/
theorem imported_wallet_signs (hlaw : K.Lawful) {account : K.Account} {es : List (KmsEvent K)}
    (hundisturbed : EventMachine.Along (step m) Undisturbed (fresh account) es)
    (hbinds : EventMachine.Along (step m) (BindsAlias m) (fresh account) es) :
    ∀ i ∈ ((fresh account).run m es).imports, ∀ a ∈ ((fresh account).run m es).answers,
      a.walletIndex = i.walletIndex → a.lookupChainId = i.chainId →
        a.signer.address = i.expectedAddress := by
  intro i hi a ha hindex hchain
  have hnamed := (keys_named_iff hlaw hundisturbed (fresh_named account)).mp hbinds es [] (by simp)
  have hright : ((fresh account).run m es).ImportsRight m :=
    hundisturbed.invariant (fun s e h hs => importsRight_step hlaw h hs)
      ⟨fun _ ht => (List.not_mem_nil ht).elim, fun _ hj => (List.not_mem_nil hj).elim⟩
  obtain ⟨keyId, hkey, haddress⟩ := hright.imports i hi
  have haddressA : K.address _ a.signer.keyId = some a.signer.address :=
    fresh_ofKey hlaw hundisturbed _ (.answered ha)
  have hkeyA := hnamed _ _ (.answered ha)
  unfold WalletSigner.aliasName at hkeyA
  rw [hindex, hchain, hkey] at hkeyA
  obtain rfl := Option.some.inj hkeyA
  rw [haddress] at haddressA
  exact (Option.some.inj haddressA).symm

/-- A key is imported for a wallet and then asked for. -/
def importedAndFound : List (KmsEvent listedKms) :=
  .importKey 0 (.keyId 0) 3 1 9 :: List.replicate 5 (.reply 0 (some 0)) ++
    .request 0 3 (.chainId 1) :: List.replicate 4 (.reply 0 (some 0))

def accountWithKey : listedKms.Account := ([9], fun _ => none)

theorem imported_wallet_found :
    ((fresh accountWithKey).run (.new none) importedAndFound).answers.length = 1 ∧
      ∀ i ∈ ((fresh accountWithKey).run (.new none) importedAndFound).imports,
        ∀ a ∈ ((fresh accountWithKey).run (.new none) importedAndFound).answers,
          a.walletIndex = i.walletIndex → a.lookupChainId = i.chainId →
            a.signer.address = i.expectedAddress := by
  refine ⟨by decide, imported_wallet_signs listedKms_lawful ?_ ?_⟩
  · exact ⟨trivial, trivial, trivial, trivial, trivial, trivial, trivial, trivial, trivial, trivial,
      trivial, trivial⟩
  · exact ⟨.of_none rfl, .of_none rfl, .of_none rfl, .of_none rfl, .of_none rfl, .of_none rfl,
      .of_none rfl, .of_none rfl, .of_none rfl, .of_none rfl, .of_none rfl, trivial⟩

end Imports

section Separate

/-- Only calls for signers, their answers and restarts: no key is imported, nobody else is at work. -/
def Alone : KmsEvent K → Prop
  | .importKey .. | .outside .. => False
  | _ => True

/-- A key somebody may sign with for an alias: in use for it, created for it, or standing under it. -/
inductive Claims (m : AwsKmsWalletManager) (s : KmsWorld K) : String → KmsKeyId → Prop where
  | used {aliasName : String} {keyId : KmsKeyId} (h : s.Uses m aliasName keyId) :
      Claims m s aliasName keyId
  | unnamed {t : KmsTask} {keyId : KmsKeyId} (ht : t ∈ s.tasks)
      (hkey : t.call.unnamed = some keyId) : Claims m s (t.call.aliasName m) keyId
  | named {aliasName : String} {keyId : KmsKeyId} (h : K.aliases s.account aliasName = some keyId) :
      Claims m s aliasName keyId

/-- Every call in progress is one for a signer. -/
def OnlySigners (s : KmsWorld K) : Prop :=
  ∀ t ∈ s.tasks, ∃ walletIndex chainId stage, t.call = .signer walletIndex chainId stage

/-- Every claimed key exists and is claimed for one alias only. -/
structure KeysSeparate (m : AwsKmsWalletManager) (s : KmsWorld K) : Prop where
  exist : ∀ aliasName keyId, s.Claims m aliasName keyId →
    (K.address s.account keyId).isSome = true
  separate : ∀ a b keyId, s.Claims m a keyId → s.Claims m b keyId → a = b
  signers : s.OnlySigners

/-- The step creates the key, for the alias. -/
def Creates (m : AwsKmsWalletManager) (s : KmsWorld K) (e : KmsEvent K) (aliasName : String)
    (keyId : KmsKeyId) : Prop :=
  K.address s.account keyId = none ∧ (K.address (step m s e).account keyId).isSome = true ∧
    ∃ i course process walletIndex chainId, e = .reply i course ∧
      s.tasks[i]? = some ⟨process, .signer walletIndex chainId .creatingKey⟩ ∧
      aliasName = m.buildAlias walletIndex chainId.clonedFromChainIdOrDefault

theorem creates_unique {a b : String} {j k : KmsKeyId} (ha : s.Creates m e a j)
    (hb : s.Creates m e b k) : a = b := by
  obtain ⟨-, -, i, course, process, walletIndex, chainId, rfl, htask, rfl⟩ := ha
  obtain ⟨-, -, _, _, process', walletIndex', chainId', he, htask', rfl⟩ := hb
  cases he
  rw [htask] at htask'
  cases htask'
  rfl

/-- While no key is imported, a call to AWS is made for a signer. -/
theorem reply_signer (hlaw : K.Lawful) (hs : s.OnlySigners) (i : ℕ) (course : K.Course) :
    s.reply m i course = s ∨ ∃ process walletIndex chainId stage o,
      s.tasks[i]? = some ⟨process, .signer walletIndex chainId stage⟩ ∧
      m.SignerLeaves s.account walletIndex chainId course stage o ∧
      s.reply m i course = s.signerReplied i process walletIndex chainId o := by
  obtain hsame | hsigner | ⟨_, _, _, _, _, _, _, htask, -⟩ :=
    reply_cases (m := m) (s := s) hlaw i course
  · exact .inl hsame
  · exact .inr hsigner
  · obtain ⟨_, _, _, hcall⟩ := hs _ (List.mem_of_getElem? htask)
    cases hcall

/-- A key that waits for its alias was waiting before, or was just created. -/
theorem unnamed_signer {i process walletIndex : ℕ} {chainId : WalletManagerChainId}
    {course : K.Course} {stage : SignerStage} {o : K.Account × KmsStep SignerStage AwsSigner}
    (htask : s.tasks[i]? = some ⟨process, .signer walletIndex chainId stage⟩)
    (hleaves : m.SignerLeaves s.account walletIndex chainId course stage o)
    (hstep : s.reply m i course = s.signerReplied i process walletIndex chainId o) {t : KmsTask}
    (ht : t ∈ (s.signerReplied i process walletIndex chainId o).tasks)
    (hkey : t.call.unnamed = some keyId) :
    t ∈ s.tasks ∨ s.Creates m (.reply i course) (t.call.aliasName m) keyId := by
  cases hleaves with
  | failed error _ | cached _ => exact .inl (List.mem_of_mem_eraseIdx ht)
  | validated | found _ | notFound | identified | aliased _ | initialised _ =>
    rcases List.mem_or_eq_of_mem_set ht with ht | rfl
    · exact .inl ht
    · cases hkey
  | @created account' k _ hnew hexists =>
    rcases List.mem_or_eq_of_mem_set ht with ht | rfl
    · exact .inl ht
    · cases hkey
      have haccount : (step m s (.reply i course)).account = account' := by
        show (s.reply m i course).account = account'
        rw [hstep, signerReplied_account]
      refine .inr ⟨hnew, ?_, i, course, process, walletIndex, chainId, rfl, htask, rfl⟩
      rw [haccount]
      exact hexists

theorem unnamed_step (hlaw : K.Lawful) (halone : Alone e) (hs : s.OnlySigners) {t : KmsTask}
    (ht : t ∈ (step m s e).tasks) (hkey : t.call.unnamed = some keyId) :
    t ∈ s.tasks ∨ s.Creates m e (t.call.aliasName m) keyId := by
  cases e with
  | importKey | outside => cases halone
  | request process walletIndex chainId =>
    change t ∈ (s.request process walletIndex chainId).tasks at ht
    unfold request at ht
    split at ht
    · exact .inl ht
    · rcases List.mem_append.mp ht with ht | ht
      · exact .inl ht
      · rw [List.mem_singleton.mp ht] at hkey
        cases hkey
  | restart process => exact .inl (List.mem_filter.mp ht).1
  | reply i course =>
    change t ∈ (s.reply m i course).tasks at ht
    obtain hsame | ⟨_, _, _, _, _, htask, hleaves, hstep⟩ :=
      reply_signer (m := m) hlaw hs i course
    · rw [hsame] at ht
      exact .inl ht
    · exact unnamed_signer htask hleaves hstep (hstep ▸ ht) hkey

/-- An alias stood for its key before, or it was given to the key that was created for it. -/
theorem aliases_step (hlaw : K.Lawful) (halone : Alone e) (hs : s.OnlySigners)
    (h : K.aliases (step m s e).account aliasName = some keyId) : s.Claims m aliasName keyId := by
  cases e with
  | importKey | outside => cases halone
  | request process walletIndex chainId =>
    change K.aliases (s.request process walletIndex chainId).account aliasName = some keyId at h
    rw [request_account] at h
    exact .named h
  | restart process => exact .named h
  | reply i course =>
    change K.aliases (s.reply m i course).account aliasName = some keyId at h
    obtain hsame | ⟨_, _, _, _, o, htask, hleaves, hstep⟩ :=
      reply_signer (m := m) hlaw hs i course
    · rw [hsame] at h
      exact .named h
    · rw [hstep, signerReplied_account] at h
      cases hleaves with
      | failed error hgrows | created hgrows _ _ =>
        rcases hgrows.named _ _ h with h | h
        · exact .named h
        · cases h
      | aliased k =>
        rcases hlaw.createAlias_grows.named _ _ h with h | h
        · exact .named h
        · cases h
          exact .unnamed (List.mem_of_getElem? htask) rfl
      | validated | found _ | notFound | identified | initialised _ | cached _ => exact .named h

/-- A claim was there before, or it is the claim on a key that was just created. -/
theorem claims_step (hlaw : K.Lawful) (halone : Alone e) (hs : s.KeysSeparate m)
    (h : (step m s e).Claims m aliasName keyId) :
    s.Claims m aliasName keyId ∨ s.Creates m e aliasName keyId := by
  cases h with
  | used h =>
    rcases uses_step hlaw h with h | h | h
    · exact .inl (.used h)
    · exact .inl (.named h)
    · obtain ⟨i, course, process, walletIndex, chainId, -, htask, rfl⟩ := naming_some h
      exact .inl (.unnamed (List.mem_of_getElem? htask) rfl)
  | unnamed ht hkey =>
    rcases unnamed_step hlaw halone hs.signers ht hkey with ht | hcreates
    · exact .inl (.unnamed ht hkey)
    · exact .inr hcreates
  | named h => exact .inl (aliases_step hlaw halone hs.signers h)

theorem signers_step (hlaw : K.Lawful) (halone : Alone e) (hs : s.OnlySigners) :
    (step m s e).OnlySigners := by
  intro t ht
  cases e with
  | importKey | outside => cases halone
  | request process walletIndex chainId =>
    change t ∈ (s.request process walletIndex chainId).tasks at ht
    unfold request at ht
    split at ht
    · exact hs t ht
    · rcases List.mem_append.mp ht with ht | ht
      · exact hs t ht
      · rw [List.mem_singleton.mp ht]
        exact ⟨_, _, _, rfl⟩
  | restart process => exact hs t (List.mem_filter.mp ht).1
  | reply i course =>
    change t ∈ (s.reply m i course).tasks at ht
    obtain hsame | ⟨_, _, _, _, o, -, -, hstep⟩ := reply_signer (m := m) hlaw hs i course
    · rw [hsame] at ht
      exact hs t ht
    · rw [hstep] at ht
      obtain ⟨account, next | error | signer⟩ := o
      · rcases List.mem_or_eq_of_mem_set ht with ht | rfl
        · exact hs t ht
        · exact ⟨_, _, _, rfl⟩
      · exact hs t (List.mem_of_mem_eraseIdx ht)
      · exact hs t (List.mem_of_mem_eraseIdx ht)

theorem keysSeparate_step (hlaw : K.Lawful) (halone : Alone e) (hs : s.KeysSeparate m) :
    (step m s e).KeysSeparate m := by
  have hundisturbed : s.Undisturbed e := by
    cases e with
    | outside => cases halone
    | request | importKey | reply | restart => trivial
  have hkept := (step_kept (m := m) hlaw e hundisturbed).keys
  have hnew {a : String} {k : KmsKeyId} (hclaim : s.Claims m a k) {b : String}
      (hcreates : s.Creates m e b k) : False := by
    have hexists := hs.exist _ _ hclaim
    rw [hcreates.1] at hexists
    cases hexists
  refine ⟨fun a k h => ?_, fun a b k ha hb => ?_, signers_step hlaw halone hs.signers⟩
  · rcases claims_step hlaw halone hs h with h | ⟨-, hexists, -⟩
    · obtain ⟨address, haddress⟩ := Option.isSome_iff_exists.mp (hs.exist a k h)
      rw [hkept _ _ haddress]
      rfl
    · exact hexists
  · rcases claims_step hlaw halone hs ha with ha | hcreatesA
    · rcases claims_step hlaw halone hs hb with hb | hcreatesB
      · exact hs.separate a b k ha hb
      · exact (hnew ha hcreatesB).elim
    · rcases claims_step hlaw halone hs hb with hb | hcreatesB
      · exact (hnew hb hcreatesA).elim
      · exact creates_unique hcreatesA hcreatesB

/-- No key serves two wallets, whatever fails on the way, when every alias of the account stands for a
key of its own and no key is imported. -/
theorem wallets_of_one_key (hlaw : K.Lawful) {account : K.Account} {es : List (KmsEvent K)}
    (hseparate : Directory.Separate (K.aliases account))
    (hexist : ∀ aliasName keyId, K.aliases account aliasName = some keyId →
      (K.address account keyId).isSome = true)
    (halone : ∀ e ∈ es, Alone e) :
    ∀ a ∈ ((fresh account).run m es).answers, ∀ b ∈ ((fresh account).run m es).answers,
      a.signer.keyId = b.signer.keyId →
        a.walletIndex = b.walletIndex ∧ a.lookupChainId = b.lookupChainId := by
  have hclaims {aliasName : String} {keyId : KmsKeyId}
      (h : (fresh account).Claims m aliasName keyId) : K.aliases account aliasName = some keyId := by
    cases h with
    | used h => exact fresh_named account _ _ h
    | unnamed ht => cases ht
    | named h => exact h
  have hfresh : (fresh account).KeysSeparate m :=
    ⟨fun n k h => hexist n k (hclaims h),
      fun a b k ha hb => hseparate a b k (hclaims ha) (hclaims hb),
      fun t ht => (List.not_mem_nil ht).elim⟩
  have halong : EventMachine.Along (step m) (fun _ e => Alone e) (fresh account) es := by
    rw [EventMachine.along_iff_split]
    rintro before e after rfl
    exact halone e (by simp)
  have hrun : ((fresh account).run m es).KeysSeparate m :=
    halong.invariant (fun s e h hs => keysSeparate_step hlaw h hs) hfresh
  intro a ha b hb hkey
  have hclaimA : ((fresh account).run m es).Claims m (a.aliasName m) b.signer.keyId :=
    hkey ▸ .used (.answered ha)
  have hsame := hrun.separate _ _ _ hclaimA (.used (.answered hb))
  exact AwsKmsWalletManager.buildAlias_inj hsame

theorem wallets_of_found :
    ((fresh emptyAccount).run (.new none) createdAndFound).answers.length = 3 ∧
      ∀ a ∈ ((fresh emptyAccount).run (.new none) createdAndFound).answers,
        ∀ b ∈ ((fresh emptyAccount).run (.new none) createdAndFound).answers,
          a.signer.keyId = b.signer.keyId →
            a.walletIndex = b.walletIndex ∧ a.lookupChainId = b.lookupChainId := by
  refine ⟨by decide, ?_⟩
  apply wallets_of_one_key listedKms_lawful
  · intro a b keyId ha
    cases ha
  · intro a keyId ha
    cases ha
  · simp [createdAndFound, Alone, List.replicate]

end Separate

end KmsWorld
end Rrelayer
