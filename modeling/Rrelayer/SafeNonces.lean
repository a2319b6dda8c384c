import Rrelayer.WriteTrace
import Rrelayer.SignedPayloads
import Mathlib.Logic.Function.Basic

/-! Safe proxies on chain, shared by the relayers of a chain. A Safe accepts a call signed with
its own nonce and then moves to the next one; every send reads that nonce from the contract. -/
namespace Rrelayer

/-- The relayers of one chain and the nonces of its Safe contracts. -/
structure SafeWorld (ι : Type) where
  relayers : ι → TransactionsQueues
  safeNonce : EvmAddress → ℕ

structure SafeEvent (ι : Type) where
  relayer : ι
  event : Event

/-- The Safe whose call in the given input is signed with the contract's nonce. -/
def acceptedCall (safeCall : TransactionData → Option SafeTransaction)
    (safeNonce : EvmAddress → ℕ) (signed : SignedTransaction) : Bool :=
  (safeCall signed.transaction.input).any fun call =>
    call.nonce == safeNonce signed.transaction.toAddress

namespace SafeWorld

variable {ι : Type} [DecidableEq ι] (safeCall : TransactionData → Option SafeTransaction)

/-- The Safe that an event makes execute a call: the included transaction is the account's next
one and its call is accepted. Any other call reverts. -/
def executed (w : SafeWorld ι) (e : SafeEvent ι) : Option EvmAddress :=
  match e.event with
  | .included signed =>
      if signed.nonce = (w.relayers e.relayer).chain.length ∧
          acceptedCall safeCall w.safeNonce signed then
        some signed.transaction.toAddress
      else none
  | _ => none

def step (w : SafeWorld ι) (e : SafeEvent ι) : SafeWorld ι where
  relayers := Function.update w.relayers e.relayer ((w.relayers e.relayer).step e.event)
  safeNonce a := w.safeNonce a + if w.executed safeCall e = some a then 1 else 0

abbrev run (w : SafeWorld ι) (es : List (SafeEvent ι)) : SafeWorld ι :=
  EventMachine.run (step safeCall) w es

/-- No call of the Safe is executed in the run. -/
def Idle (a : EvmAddress) (w : SafeWorld ι) (es : List (SafeEvent ι)) : Prop :=
  EventMachine.Along (step safeCall) (fun w e => w.executed safeCall e ≠ some a) w es

/-- The answers of the chain and of the Safe encoding: a served read is the contract's nonce, and
the encoded call can be read back. -/
def Truthful (w : SafeWorld ι) (e : SafeEvent ι) : Prop :=
  ∀ env ∈ e.event.sendEnv,
    (∀ a n, env.getSafeNonce a = .ok n → n = w.safeNonce a) ∧
    ∀ a call data, env.encodeSafe a call = .ok data → safeCall data = some call

/-- The event makes its relayer sign a transaction routed through the Safe: the envelope carries
the Safe call of some transaction. -/
def Routes (w : SafeWorld ι) (e : SafeEvent ι) (a : EvmAddress) (signed : SignedTransaction) :
    Prop :=
  ∃ l ∈ (w.relayers e.relayer).lock, ∃ env ∈ e.event.sendEnv, ∃ t t' sent working,
    prepareSend l.queue.toSendConfig env t = (t', .ok (signed, sent)) ∧
    routeThroughSafe l.queue.toSendConfig env t = .ok (true, working) ∧
    signed.Carries working ∧ working.toAddress = a

variable {safeCall} {w : SafeWorld ι} {e : SafeEvent ι} {a : EvmAddress}

theorem run_append (es fs : List (SafeEvent ι)) :
    w.run safeCall (es ++ fs) = (w.run safeCall es).run safeCall fs :=
  EventMachine.run_append (step safeCall) w es fs

/-- A routed payload is the Safe call the encoding made of the contract's answer. -/
theorem routeThroughSafe_via {config : SendConfig} {env : SendEnv} {t working : Transaction}
    (h : routeThroughSafe config env t = .ok (true, working)) :
    ∃ nonce, env.getSafeNonce working.toAddress = .ok nonce ∧
      env.encodeSafe working.toAddress ⟨t.toAddress, t.value, t.data, nonce⟩ =
        .ok working.data := by
  unfold routeThroughSafe at h
  dsimp only at h
  split at h
  · cases h
  · obtain ⟨nonce, hnonce, h⟩ := except_bind_ok h
    obtain ⟨data, hdata, h⟩ := except_bind_ok h
    cases h
    exact ⟨nonce, mapError_ok hnonce, mapError_ok hdata⟩

omit [DecidableEq ι] in
/-- The Safe nonce of a routed payload is the contract's nonce at the send. -/
theorem Routes.nonce {signed : SignedTransaction} (htruth : w.Truthful safeCall e)
    (h : w.Routes e a signed) :
    signed.transaction.toAddress = a ∧
      ∃ call, safeCall signed.transaction.input = some call ∧ call.nonce = w.safeNonce a := by
  obtain ⟨l, -, env, henv, t, t', sent, working, -, hroute, ⟨haddress, hinput⟩, hsafe⟩ := h
  obtain ⟨nonce, hread, hencode⟩ := routeThroughSafe_via hroute
  obtain ⟨hnonce, hdecode⟩ := htruth env henv
  constructor
  · exact haddress.trans hsafe
  · rw [hinput]
    refine ⟨_, hdecode _ _ _ hencode, ?_⟩
    rw [← hsafe]
    exact hnonce _ _ hread

/-- A step moves a Safe's nonce exactly when it executes a call of the Safe. -/
theorem safeNonce_step (w : SafeWorld ι) (e : SafeEvent ι) (a : EvmAddress) :
    w.safeNonce a ≤ (w.step safeCall e).safeNonce a ∧
      ((w.step safeCall e).safeNonce a = w.safeNonce a ↔ w.executed safeCall e ≠ some a) := by
  unfold step
  dsimp only
  by_cases h : w.executed safeCall e = some a
  · simp [h]
  · simp [h]

/-- Over a run a Safe's nonce never falls, and stays exactly when none of its calls is executed. -/
theorem safeNonce_run (w : SafeWorld ι) (es : List (SafeEvent ι)) (a : EvmAddress) :
    w.safeNonce a ≤ (w.run safeCall es).safeNonce a ∧
      ((w.run safeCall es).safeNonce a = w.safeNonce a ↔ w.Idle safeCall a es) := by
  induction es generalizing w with
  | nil => simp [Idle, EventMachine.Along]
  | cons e es ih =>
    obtain ⟨hle, hiff⟩ := @safeNonce_step ι _ safeCall w e a
    obtain ⟨hle', hiff'⟩ := ih (w.step safeCall e)
    constructor
    · exact hle.trans hle'
    · show ((w.step safeCall e).run safeCall es).safeNonce a = w.safeNonce a ↔
        w.executed safeCall e ≠ some a ∧ (w.step safeCall e).Idle safeCall a es
      rw [← hiff, ← hiff']
      omega

omit [DecidableEq ι] in
theorem executed_included {signed : SignedTransaction} (i : ι) :
    w.executed safeCall ⟨i, .included signed⟩ = some a ↔
      signed.nonce = (w.relayers i).chain.length ∧ signed.transaction.toAddress = a ∧
        ∃ call, safeCall signed.transaction.input = some call ∧ call.nonce = w.safeNonce a := by
  unfold executed acceptedCall
  dsimp only
  split
  · rename_i h
    simp only [Option.any_eq_true, beq_iff_eq] at h
    obtain ⟨hnonce, call, hcall, haccepted⟩ := h
    constructor
    · intro ha
      cases ha
      exact ⟨hnonce, rfl, call, hcall, haccepted⟩
    · intro h
      rw [h.2.1]
  · rename_i h
    constructor
    · intro ha
      cases ha
    · rintro ⟨hnonce, rfl, call, hcall, haccepted⟩
      exact absurd ⟨hnonce, by simp [hcall, haccepted]⟩ h

/-- A Safe nonce is read at the send. So the nonces of two routed payloads follow the order of
their sends, they differ exactly when a call of the Safe was executed in between, and a routed
payload is executed on inclusion exactly when no call of the Safe was executed since its send. -/
theorem safe_nonce_read_at_send (w : SafeWorld ι) (before middle : List (SafeEvent ι))
    (e e' : SafeEvent ι) (signed signed' : SignedTransaction)
    (htruth : (w.run safeCall before).Truthful safeCall e)
    (htruth' : (w.run safeCall (before ++ e :: middle)).Truthful safeCall e')
    (hroutes : (w.run safeCall before).Routes e a signed)
    (hroutes' : (w.run safeCall (before ++ e :: middle)).Routes e' a signed') :
    (∃ call call', safeCall signed.transaction.input = some call ∧
      safeCall signed'.transaction.input = some call' ∧
      call.nonce = (w.run safeCall before).safeNonce a ∧
      call'.nonce = (w.run safeCall (before ++ e :: middle)).safeNonce a ∧
      call.nonce ≤ call'.nonce ∧
      (call.nonce = call'.nonce ↔ (w.run safeCall before).Idle safeCall a (e :: middle))) ∧
    ∀ after i,
      signed.nonce = ((w.run safeCall (before ++ e :: after)).relayers i).chain.length →
      ((w.run safeCall (before ++ e :: after)).executed safeCall ⟨i, .included signed⟩ = some a ↔
        (w.run safeCall before).Idle safeCall a (e :: after)) := by
  obtain ⟨haddress, call, hcall, hnonce⟩ := hroutes.nonce htruth
  obtain ⟨-, call', hcall', hnonce'⟩ := hroutes'.nonce htruth'
  constructor
  · refine ⟨call, call', hcall, hcall', hnonce, hnonce', ?_⟩
    obtain ⟨hle, hiff⟩ := @safeNonce_run ι _ safeCall (w.run safeCall before)
      (e :: middle) a
    rw [← run_append] at hle hiff
    rw [hnonce, hnonce', ← hiff]
    omega
  · intro after i hincludable
    obtain ⟨-, hiff⟩ := @safeNonce_run ι _ safeCall (w.run safeCall before)
      (e :: after) a
    rw [← run_append] at hiff
    rw [executed_included, ← hiff]
    constructor
    · rintro ⟨-, -, other, hother, haccepted⟩
      rw [hcall] at hother
      cases hother
      omega
    · intro hidle
      exact ⟨hincludable, haddress, call, hcall, by omega⟩

/-- The event makes its relayer sign a payload of its own, or an expired one's no-op. -/
def Unrouted (w : SafeWorld ι) (e : SafeEvent ι) (signed : SignedTransaction) : Prop :=
  ∃ l ∈ (w.relayers e.relayer).lock, ∃ env ∈ e.event.sendEnv, ∃ t t' sent,
    prepareSend l.queue.toSendConfig env t = (t', .ok (signed, sent)) ∧
    ((∃ working, routeThroughSafe l.queue.toSendConfig env t = .ok (false, working) ∧
        signed.Carries working) ∨
      signed.transaction.toAddress = l.queue.relayer.address ∧ signed.transaction.input = [])

/-- Everything a step broadcasts is routed through a Safe or not. -/
theorem step_broadcasts (w : SafeWorld ι) (e : SafeEvent ι) :
    ∃ new, ((w.step safeCall e).relayers e.relayer).broadcasts =
        (w.relayers e.relayer).broadcasts ++ new ∧
      ∀ b ∈ new, (∃ a, w.Routes e a b.2) ∨ w.Unrouted e b.2 := by
  have hrelayer : (w.step safeCall e).relayers e.relayer =
      (w.relayers e.relayer).step e.event := by
    unfold step
    simp
  obtain ⟨new, hnew, hsigned⟩ := ((w.relayers e.relayer).step_history e.event).broadcasts
  refine ⟨new, by rw [hrelayer]; exact hnew, fun b hb => ?_⟩
  obtain ⟨t', sent, -, hsigns, -⟩ := hsigned b hb
  unfold TransactionsQueues.writer at hsigns
  rcases hlock : (w.relayers e.relayer).lock with _ | l
  · rw [hlock] at hsigns
    cases hsigns
  · rw [hlock] at hsigns
    obtain ⟨env, henv, t, hprepare⟩ := hsigns
    obtain ⟨working, gasLimit, request, blobGas, hprepared⟩ := prepareSend_ok hprepare
    obtain ⟨viaSafe, hroute⟩ := priceAndLimit_route hprepared.priced
    rcases hprepared.payload with hcarries | hnoop
    · cases viaSafe with
      | true =>
        exact .inl ⟨working.toAddress, l, hlock, env, henv, t, t', sent, working, hprepare,
          hroute, hcarries, rfl⟩
      | false =>
        exact .inr ⟨l, hlock, env, henv, t, t', sent, hprepare, .inl ⟨working, hroute, hcarries⟩⟩
    · exact .inr ⟨l, hlock, env, henv, t, t', sent, hprepare, .inr hnoop⟩

end SafeWorld

/-- A call as numbers, and back. -/
def plainSafeData (call : SafeTransaction) : TransactionData :=
  call.toAddress :: call.value :: call.nonce :: call.data

def plainSafeCall : TransactionData → Option SafeTransaction
  | toAddress :: value :: nonce :: data => some ⟨toAddress, value, data, nonce⟩
  | _ => none

/-- A relayer behind the Safe 77, and nothing executed yet. -/
def safeRelayer : SafeWorld Unit where
  relayers _ := { freshRelayer with queue := some { freshQueue with safeProxies := [⟨77, [7], 1⟩] } }
  safeNonce _ := 0

def safeSend : SendEnv :=
  { servedSend (.ok ()) with encodeSafe := fun _ call => .ok (plainSafeData call) }

def safePass : SafeEvent Unit :=
  ⟨(), .processPending { servedPending (.ok ()) (servedClient [] 0) [] with send := safeSend }⟩

/-- Two payments wait for their first send. -/
def safePayments : List (SafeEvent Unit) :=
  [⟨(), .add (servedAdd 0) (payment 0 5)⟩, ⟨(), .add (servedAdd 0) (payment 1 6)⟩]

def safeEnvelope (nonce value : ℕ) : SignedTransaction :=
  ⟨⟨1, nonce, 70200, 77, 0, [9, value, 0], .eip1559 1 10⟩, 0⟩

theorem safePass_truthful {w : SafeWorld Unit} (h : w.safeNonce = fun _ => 0) :
    w.Truthful plainSafeCall safePass := by
  intro env henv
  cases henv
  constructor
  · intro a n hread
    cases hread
    rw [h]
  · intro a call data hencode
    cases hencode
    rfl

/-- The head of the pending queue is routed when its preparation shows it. -/
theorem safePass_routes {w : SafeWorld Unit} {signed : SignedTransaction}
    (h : ∃ l ∈ (w.relayers ()).lock, ∃ t ∈ l.queue.pendingTransactions.head?,
      (prepareSend l.queue.toSendConfig safeSend t).2 =
        .ok (signed, ⟨t.id, signed, ⟨1, 10, none, none⟩, none⟩) ∧
      ∃ routed ∈ (routeThroughSafe l.queue.toSendConfig safeSend t).toOption,
        routed.1 = true ∧ routed.2.toAddress = 77 ∧
        signed.transaction.toAddress = routed.2.toAddress ∧
        signed.transaction.input = routed.2.data) : w.Routes safePass 77 signed := by
  obtain ⟨l, hl, t, -, hprepare, ⟨viaSafe, working⟩, hroute, rfl, hsafe, haddress, hinput⟩ := h
  refine ⟨l, hl, safeSend, rfl, t, _, _, working, Prod.ext rfl hprepare, ?_,
    ⟨haddress, hinput⟩, hsafe⟩
  cases hresult : routeThroughSafe l.queue.toSendConfig safeSend t with
  | error e =>
    rw [hresult] at hroute
    cases hroute
  | ok routed =>
    rw [hresult] at hroute
    cases hroute
    rfl

theorem firstPayment_routes :
    (safeRelayer.run plainSafeCall safePayments).Routes safePass 77 (safeEnvelope 0 5) :=
  safePass_routes (by decide +kernel)

theorem secondPayment_routes :
    (safeRelayer.run plainSafeCall (safePayments ++ safePass :: [])).Routes safePass 77
      (safeEnvelope 1 6) :=
  safePass_routes (by decide +kernel)

theorem safePayments_idle (es : List (SafeEvent Unit))
    (h : ∀ e ∈ es, ∀ signed, e.event ≠ .included signed) :
    (safeRelayer.run plainSafeCall es).safeNonce = fun _ => 0 := by
  funext a
  have hidle : ∀ w : SafeWorld Unit, w.Idle plainSafeCall a es := by
    induction es with
    | nil => exact fun _ => trivial
    | cons e es ih =>
      intro w
      have hnone : w.executed plainSafeCall e = none := by
        unfold SafeWorld.executed
        split
        · rename_i signed hincluded
          exact absurd hincluded (h e (List.mem_cons_self ..) signed)
        · rfl
      constructor
      · simp [hnone]
      · exact ih (fun e he => h e (List.mem_cons_of_mem _ he)) _
  exact (SafeWorld.safeNonce_run safeRelayer es a).2.mpr (hidle _)

/-- Two payments of one relayer in flight. -/
theorem safe_nonce_read_at_send_payments :
    ∃ call call', plainSafeCall (safeEnvelope 0 5).transaction.input = some call ∧
      plainSafeCall (safeEnvelope 1 6).transaction.input = some call' ∧
      call.nonce ≤ call'.nonce := by
  obtain ⟨⟨call, call', hcall, hcall', -, -, hle, -⟩, -⟩ :=
    SafeWorld.safe_nonce_read_at_send safeRelayer safePayments [] safePass safePass
      (safeEnvelope 0 5) (safeEnvelope 1 6)
      (safePass_truthful (safePayments_idle _ (by simp [safePayments])))
      (safePass_truthful (safePayments_idle _ (by simp [safePayments, safePass])))
      firstPayment_routes secondPayment_routes
  exact ⟨call, call', hcall, hcall', hle⟩

/-- Two transactions of one relayer are live under the same Safe nonce. -/
theorem safe_nonces_distinct_fails :
    ¬ ∀ (safeCall : TransactionData → Option SafeTransaction) (w : SafeWorld Unit)
      (before middle : List (SafeEvent Unit)) (e e' : SafeEvent Unit) (a : EvmAddress)
      (signed signed' : SignedTransaction),
      (w.run safeCall before).Truthful safeCall e →
      (w.run safeCall (before ++ e :: middle)).Truthful safeCall e' →
      (w.run safeCall before).Routes e a signed →
      (w.run safeCall (before ++ e :: middle)).Routes e' a signed' →
      signed.nonce ≠ signed'.nonce →
      ((w.run safeCall (before ++ e :: middle)).relayers ()).chain.length ≤ signed.nonce →
      ((w.run safeCall (before ++ e :: middle)).relayers ()).chain.length ≤ signed'.nonce →
      ∀ call call', safeCall signed.transaction.input = some call →
        safeCall signed'.transaction.input = some call' → call.nonce ≠ call'.nonce := by
  intro hdistinct
  exact hdistinct plainSafeCall safeRelayer safePayments [] safePass safePass 77
    (safeEnvelope 0 5) (safeEnvelope 1 6)
    (safePass_truthful (safePayments_idle _ (by simp [safePayments])))
    (safePass_truthful (safePayments_idle _ (by simp [safePayments, safePass])))
    firstPayment_routes secondPayment_routes (by decide) (by decide +kernel) (by decide +kernel)
    ⟨9, 5, [], 0⟩ ⟨9, 6, [], 0⟩ rfl rfl rfl

end Rrelayer
