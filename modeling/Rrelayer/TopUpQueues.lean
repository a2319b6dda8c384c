import Rrelayer.AutomaticTopUp
import Rrelayer.ExternalIds
import Rrelayer.AppState

/-! What becomes of the top-ups of the automatic top-up task: whether a cycle really queues another
transfer, and on which chain. -/
namespace Rrelayer

namespace Locked

variable {l : Locked} {env : AdmissionEnv} {toSend : TransactionToSend} {externalId : String}
  {t : Transaction}

/-- The operation left a new row and a new entry of the pending queue, both with the given id. -/
def Creates (l l' : Locked) (id : TransactionId) : Prop :=
  (∃ r, r.id = id ∧ l'.db.rows = l.db.rows ++ [r]) ∧
    ∃ t, t.id = id ∧
      l'.queue.pendingTransactions.Perm (t :: l.queue.pendingTransactions)

def Unbound (l : Locked) (externalId : String) : Prop :=
  l.db.externalIdTaken l.queue.relayer.id (some externalId) = false

theorem admitNew_creates {n : ℕ}
    (hfree : l.db.externalIdTaken l.queue.relayer.id toSend.externalId = false)
    (h : (l.admitNew env toSend n).2 = .ok t) :
    l.Creates (l.admitNew env toSend n).1 toSend.id := by
  obtain ⟨hwrite, gasPrice, blobGasPrice, gasLimit, hprices, hestimate⟩ :=
    admitNew_accepted hfree h
  have hreserve : l.admitNew env toSend n =
      l.reserveAndSave env (l.admittedTransaction env toSend n) gasLimit := by
    simp [admitNew, hprices, hestimate]
  rw [hreserve] at h ⊢
  unfold reserveAndSave at h ⊢
  dsimp only at h ⊢
  split at h
  · rename_i db hsave
    unfold saveAdmitted at hsave
    rw [if_pos hwrite] at hsave
    obtain ⟨inserted, hinsert, rfl⟩ := Option.map_eq_some_iff.mp hsave
    have hrows := (Db.insert_eq_some hinsert).1
    refine ⟨⟨_, ?_, hrows⟩, _, ?_, List.perm_orderedInsert _ _ _⟩
    · rfl
    · rfl
  · unfold resolveAdmissionInsertError at h
    have hunbound : l.db.externalIdTaken l.queue.relayer.id
        (l.reserved (l.admittedTransaction env toSend n) gasLimit).externalId = false := hfree
    simp [hunbound] at h

theorem findAdmittedTransaction_eq_none {db : Db} {served : Bool} {relayerId : RelayerId}
    {digest : RequestDigest} :
    db.findAdmittedTransaction served relayerId (some externalId) digest = .ok none ↔
      served = true ∧ db.externalIdTaken relayerId (some externalId) = false := by
  have htaken : db.externalIdTaken relayerId (some externalId) = false ↔
      db.rows.find? (fun r => r.relayerId == relayerId && r.externalId == some externalId) =
        none := by
    simp [Db.externalIdTaken]
  rw [htaken]
  unfold Db.findAdmittedTransaction
  cases served with
  | false => simp
  | true =>
    cases hfind : db.rows.find?
        (fun r => r.relayerId == relayerId && r.externalId == some externalId) with
    | none => simp [hfind]
    | some r =>
      by_cases hdigest : r.requestDigest = some digest
      · simp [hfind, hdigest]
      · simp [hfind, hdigest]

/-- An accepted request with an external id makes something new exactly if the id was free. -/
theorem addTransaction_creates (hext : toSend.externalId = some externalId)
    (h : (l.addTransaction env toSend).2 = .ok t) :
    l.Creates (l.addTransaction env toSend).1 toSend.id ↔ l.Unbound externalId := by
  constructor
  · rintro ⟨⟨r, -, hrows⟩, -⟩
    by_contra hbound
    have hsame : (l.addTransaction env toSend).1 = l := by
      unfold addTransaction
      rw [hext]
      split
      · rfl
      · rfl
      · rename_i hnone
        exact absurd (findAdmittedTransaction_eq_none.mp hnone).2 hbound
    rw [hsame] at hrows
    have hlength := congrArg List.length hrows
    simp at hlength
  · intro hfree
    unfold addTransaction at h ⊢
    rw [hext] at h ⊢
    split at h
    · cases h
    · rename_i stored hstored
      exfalso
      cases hread : env.read with
      | false => simp [Db.findAdmittedTransaction, hread] at hstored
      | true =>
        rw [findAdmittedTransaction_eq_none.mpr ⟨hread, hfree⟩] at hstored
        cases hstored
    · rename_i hnone
      split at h
      · cases h
      · rename_i hpaused
        rw [if_neg hpaused]
        split at h
        · cases h
        · rename_i hblobs
          rw [if_neg hblobs]
          split at h
          · cases h
          · exact admitNew_creates (by rw [hext]; exact hfree) h

end Locked

namespace AutomaticTopUpTask

variable {w : AutomaticTopUpTask} {chainId : ChainId} {from_ : TopUpFrom} {asset : TopUpAsset}
  {address : EvmAddress} {env : TopUpEnv} {id : TransactionId}

def externalId (from_ : TopUpFrom) (address : EvmAddress) : TopUpAsset → String
  | .native _ => nativeExternalId from_.relayer address
  | .erc20 token => erc20ExternalId token.address from_.relayer address

/-- The transfer that a top-up makes, by itself or as a call of a Safe. -/
def assetCall (address : EvmAddress) (env : TopUpEnv) :
    TopUpAsset → EvmAddress × ℕ × TransactionData
  | .native native => (address, native.topUpAmount, [])
  | .erc20 token => (token.address, 0, env.encodeTransfer address token.topUpAmount)

theorem sendAsset_eq : w.sendAsset chainId from_ asset address env =
    w.sendTopUp chainId from_ address (assetCall address env asset)
      (externalId from_ address asset) env := by
  cases asset with
  | native => rfl
  | erc20 => rfl

/-- The top-up is a new row and a new pending entry of the queue that it was given to. -/
def Creates (w : AutomaticTopUpTask) (chainId : ChainId) (from_ : TopUpFrom) (asset : TopUpAsset)
    (address : EvmAddress) (env : TopUpEnv) : Prop :=
  ∃ relayer toSend l l', w.prepareTopUp chainId from_ address (assetCall address env asset)
      (externalId from_ address asset) env = .ok (relayer, toSend) ∧
    (w.queues relayer.id).lock = some l ∧
    ((w.sendAsset chainId from_ asset address env).1.queues relayer.id).lock = some l' ∧
    l.Creates l' toSend.id

/-- No transaction of the funding relayer carries the external id of the top-up. -/
def Unbound (w : AutomaticTopUpTask) (chainId : ChainId) (from_ : TopUpFrom) (asset : TopUpAsset)
    (address : EvmAddress) (env : TopUpEnv) : Prop :=
  ∀ relayer, w.fundingRelayer env.values env.lookup chainId from_.relayer = .ok relayer →
    ∀ l, (w.queues relayer.id).lock = some l → l.Unbound (externalId from_ address asset)

theorem prepareTopUp_ok {call : EvmAddress × ℕ × TransactionData} {ext : String}
    {relayer : RelayerRecord} {toSend : TransactionToSend}
    (h : w.prepareTopUp chainId from_ address call ext env = .ok (relayer, toSend)) :
    w.fundingRelayer env.values env.lookup chainId from_.relayer = .ok relayer ∧
      toSend.id = env.id ∧ toSend.externalId = some ext := by
  unfold prepareTopUp at h
  obtain ⟨_, -, h⟩ := Except.bind_eq_ok.mp h
  obtain ⟨final, -, h⟩ := Except.bind_eq_ok.mp h
  obtain ⟨funding, hfunding, h⟩ := Except.bind_eq_ok.mp h
  obtain ⟨rfl, rfl⟩ : funding = relayer ∧ _ = toSend := by
    simpa using Except.ok.inj h
  exact ⟨hfunding, rfl, rfl⟩

theorem sendTopUp_ok {call : EvmAddress × ℕ × TransactionData} {ext : String}
    (h : (w.sendTopUp chainId from_ address call ext env).2 = .ok id) :
    ∃ relayer toSend l t,
      w.prepareTopUp chainId from_ address call ext env = .ok (relayer, toSend) ∧
      (w.queues relayer.id).lock = some l ∧ (l.addTransaction env.admission toSend).2 = .ok t ∧
      ((w.sendTopUp chainId from_ address call ext env).1.queues relayer.id).lock =
        some { (l.addTransaction env.admission toSend).1 with
          blockTimeMs := (w.queues relayer.id).blockTimeMs } := by
  unfold sendTopUp at h ⊢
  cases hprepare : w.prepareTopUp chainId from_ address call ext env with
  | error error =>
    rw [hprepare] at h
    cases h
  | ok prepared =>
    obtain ⟨relayer, toSend⟩ := prepared
    rw [hprepare] at h
    dsimp only at h ⊢
    cases hlock : (w.queues relayer.id).lock with
    | none =>
      simp [TransactionsQueues.addTransaction, hlock] at h
    | some l =>
      simp only [TransactionsQueues.addTransaction, hlock] at h ⊢
      cases hadd : (l.addTransaction env.admission toSend).2 with
      | error error =>
        rw [hadd] at h
        cases h
      | ok t =>
        refine ⟨relayer, toSend, l, t, rfl, hlock, hadd, ?_⟩
        rw [Function.update_self]
        rfl

/-- A top-up that is reported as queued makes something new exactly if its external id was free on
the funding relayer. -/
theorem sendAsset_creates (h : (w.sendAsset chainId from_ asset address env).2 = .ok id) :
    w.Creates chainId from_ asset address env ↔ w.Unbound chainId from_ asset address env := by
  rw [sendAsset_eq] at h
  obtain ⟨relayer, toSend, l, t, hprepare, hlock, hadd, hafter⟩ := sendTopUp_ok h
  obtain ⟨hfunding, -, hext⟩ := prepareTopUp_ok hprepare
  have hiff := Locked.addTransaction_creates hext hadd
  constructor
  · rintro ⟨relayer', toSend', k, k', hprepare', hlock', hafter', hcreates⟩
    rw [hprepare] at hprepare'
    obtain ⟨rfl, rfl⟩ : relayer = relayer' ∧ toSend = toSend' := by
      simpa using Except.ok.inj hprepare'
    obtain rfl : l = k := Option.some.inj (hlock.symm.trans hlock')
    rw [sendAsset_eq, hafter] at hafter'
    obtain rfl := Option.some.inj hafter'
    have hunbound := hiff.mp hcreates
    intro funding hfunding' l' hl'
    rw [hfunding] at hfunding'
    obtain rfl : relayer = funding := Except.ok.inj hfunding'
    obtain rfl : l = l' := Option.some.inj (hlock.symm.trans hl')
    exact hunbound
  · intro hunbound
    have hcreates := hiff.mpr (hunbound relayer hfunding l hlock)
    rw [← sendAsset_eq] at hafter
    exact ⟨relayer, toSend, l, _, hprepare, hlock, hafter, hcreates⟩

/-- Every top-up of the event that is reported as queued has the property, in the state in which it
is made. -/
def EachQueued (P : AutomaticTopUpTask → ChainId → TopUpFrom → TopUpAsset → EvmAddress →
    TopUpEnv → Prop) (w : AutomaticTopUpTask) : TopUpEvent → Prop
  | .topUp chainId config asset served balances envs =>
      EventMachine.Along (topUpStep chainId config.from_ asset envs)
        (fun w topUp => ∀ id,
          (w.sendAsset chainId config.from_ asset topUp.1 (envs topUp.2)).2 = .ok id →
            P w chainId config.from_ asset topUp.1 (envs topUp.2))
        w (w.decided served chainId config asset balances).zipIdx
  | _ => True

/-- In every run of the task, with anything else going on in the queues, each top-up of a cycle
that is reported as queued is a new row and a new queue entry exactly if no transaction of the
funding relayer carries its external id. -/
theorem top_ups_create (w : AutomaticTopUpTask) (es : List TopUpEvent) :
    EventMachine.Along step (EachQueued fun w chainId from_ asset address env =>
      w.Creates chainId from_ asset address env ↔ w.Unbound chainId from_ asset address env)
      w es := by
  apply EventMachine.along_iff_split.mpr
  intro before e after _
  cases e with
  | topUp chainId config asset served balances envs =>
    apply EventMachine.along_iff_split.mpr
    intro earlier topUp later _ id hqueued
    exact sendAsset_creates hqueued
  | relayers => trivial
  | refresh => trivial
  | queue => trivial

section Example

/-- A funding relayer with address 7 and a relayer with address 2 on chain 1. -/
def twoRelayers : AutomaticTopUpTask where
  table := [⟨0, 1, none, 7, 0, false, false⟩, ⟨1, 1, none, 2, 1, false, false⟩]
  relayerCache := []
  queues _ := freshRelayer

def fundedBySeven : NetworkAutomaticTopUpConfig := ⟨⟨7, none⟩, .all, some ⟨100, 5⟩, none⟩

def servedTopUp (id : TransactionId) : TopUpEnv where
  id := id
  validate := true
  findWallet := true
  createSafeTransaction _ _ _ := .ok []
  encodeTransfer _ _ := []
  values := []
  lookup := true
  admission := servedAdd 0

/-- The balance of the relayer at address 2 is low in every cycle. -/
def lowBalance : BalanceEnv where
  getBalance address := .ok (if address = 2 then 0 else 10 ^ 18)
  getErc20Balance _ _ := .ok 0
  getGasPrice := .ok 1

def nativeCycle (id : TransactionId) : TopUpEvent :=
  .topUp 1 fundedBySeven (.native ⟨100, 5⟩) true lowBalance fun _ => servedTopUp id

/-- The second cycle decides on the same top-up and is answered with the row of the first. -/
theorem top_ups_create_fails :
    ¬ ∀ (w : AutomaticTopUpTask) (es : List TopUpEvent),
      EventMachine.Along step (EachQueued Creates) w es := by
  intro hcreates
  have hsecond := (hcreates twoRelayers [nativeCycle 0, nativeCycle 1]).2.1
  have hdecided : ((twoRelayers.step (nativeCycle 0)).decided true 1 fundedBySeven
      (.native ⟨100, 5⟩) lowBalance).zipIdx = [(2, 0)] := by
    decide +kernel
  simp only [nativeCycle, EachQueued] at hsecond hdecided
  rw [hdecided] at hsecond
  have hqueued := hsecond.1 0 (by decide +kernel)
  have hunbound := (@sendAsset_creates _ _ _ _ _ _ 0 (by decide +kernel)).mp hqueued
  have hfree := hunbound ⟨0, 1, none, 7, 0, false, false⟩ (by decide +kernel) _ rfl
  revert hfree
  unfold Locked.Unbound
  decide +kernel

end Example

end AutomaticTopUpTask

end Rrelayer
