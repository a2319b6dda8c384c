import Rrelayer.System

/-! Admission under an external id. Other writers may insert rows between any two database steps
of a call; the unique index and the lookups of the call keep one row for each external id. -/
namespace Rrelayer

/-- The row holds the given external id of the given relayer. -/
def Row.boundTo (relayerId : RelayerId) (externalId : Option String) (r : Row) : Bool :=
  r.relayerId == relayerId && r.externalId == externalId

namespace Db

/-- An insert of another writer; a refused one changes nothing. -/
def join (db : Db) (r : Row) : Db := (db.insert r).getD db

def joined (db : Db) (rows : List Row) : Db := rows.foldl join db

def UniqueExternalIds (db : Db) : Prop :=
  ∀ relayerId externalId,
    (db.rows.filter (Row.boundTo relayerId (some externalId))).length ≤ 1

theorem insert_eq_some {db db' : Db} {r : Row} (h : db.insert r = some db') :
    db'.rows = db.rows ++ [r] ∧ db.externalIdTaken r.relayerId r.externalId = false := by
  unfold insert at h
  split at h
  · cases h
  · rename_i hfree
    simp only [Bool.or_eq_true, not_or, Bool.not_eq_true] at hfree
    cases h
    exact ⟨rfl, hfree.2⟩

theorem externalIdTaken_of_bound {db : Db} {r : Row} {relayerId : RelayerId}
    {externalId : String} (hr : r ∈ db.rows) (hb : r.boundTo relayerId (some externalId)) :
    db.externalIdTaken relayerId (some externalId) = true := by
  simp only [externalIdTaken, Option.isSome_some, Bool.true_and, List.any_eq_true]
  exact ⟨r, hr, hb⟩

theorem filter_bound_of_free {db : Db} {relayerId : RelayerId} {externalId : String}
    (h : db.externalIdTaken relayerId (some externalId) = false) :
    db.rows.filter (Row.boundTo relayerId (some externalId)) = [] := by
  apply List.filter_eq_nil_iff.mpr
  intro r hr hb
  have htaken := externalIdTaken_of_bound hr hb
  rw [h] at htaken
  cases htaken

/-- The unique index: an insert that is accepted binds a free external id. -/
theorem UniqueExternalIds.append {db : Db} (h : db.UniqueExternalIds) {r : Row} {rows : List Row}
    (hrows : rows = db.rows ++ [r]) (hfree : db.externalIdTaken r.relayerId r.externalId = false)
    (audit : List Row) : (Db.mk rows audit).UniqueExternalIds := by
  intro relayerId externalId
  subst hrows
  simp only [List.filter_append, List.length_append]
  by_cases hb : r.boundTo relayerId (some externalId) = true
  · have hb' := hb
    simp only [Row.boundTo, Bool.and_eq_true, beq_iff_eq] at hb'
    rw [hb'.1, hb'.2] at hfree
    rw [filter_bound_of_free hfree]
    simp [hb]
  · have hother := h relayerId externalId
    simpa [hb] using hother

theorem UniqueExternalIds.of_rows {db db' : Db} (h : db.UniqueExternalIds)
    (hrows : db'.rows = db.rows) : db'.UniqueExternalIds := by
  unfold UniqueExternalIds
  rw [hrows]
  exact h

theorem UniqueExternalIds.insert {db db' : Db} (h : db.UniqueExternalIds) {r : Row}
    (hi : db.insert r = some db') : db'.UniqueExternalIds := by
  obtain ⟨hrows, hfree⟩ := insert_eq_some hi
  exact h.append hrows hfree db'.audit

theorem UniqueExternalIds.join {db : Db} (h : db.UniqueExternalIds) (r : Row) :
    (db.join r).UniqueExternalIds := by
  unfold Db.join
  cases hi : db.insert r with
  | none => exact h
  | some db' => exact h.insert hi

theorem UniqueExternalIds.joined {db : Db} (h : db.UniqueExternalIds) (rows : List Row) :
    (db.joined rows).UniqueExternalIds := by
  induction rows generalizing db with
  | nil => exact h
  | cons r rows ih => exact ih (h.join r)

theorem mem_join {db : Db} {r : Row} (hr : r ∈ db.rows) (x : Row) : r ∈ (db.join x).rows := by
  unfold join
  cases hi : db.insert x with
  | none => exact hr
  | some db' =>
    simp only [Option.getD_some]
    rw [(insert_eq_some hi).1]
    exact List.mem_append_left _ hr

theorem mem_joined {db : Db} {r : Row} (hr : r ∈ db.rows) (rows : List Row) :
    r ∈ (db.joined rows).rows := by
  induction rows generalizing db with
  | nil => exact hr
  | cons x rows ih => exact ih (mem_join hr x)

theorem UniqueExternalIds.find {db : Db} (h : db.UniqueExternalIds) {r : Row}
    {relayerId : RelayerId} {externalId : String} (hr : r ∈ db.rows)
    (hb : r.boundTo relayerId (some externalId)) :
    db.rows.find? (Row.boundTo relayerId (some externalId)) = some r := by
  have hmem : r ∈ db.rows.filter (Row.boundTo relayerId (some externalId)) :=
    List.mem_filter.mpr ⟨hr, hb⟩
  have hlength := h relayerId externalId
  rw [← List.head?_filter]
  match hfilter : db.rows.filter (Row.boundTo relayerId (some externalId)) with
  | [] => simp [hfilter] at hmem
  | [x] =>
    rw [hfilter] at hmem
    simp [List.mem_singleton.mp hmem]
  | x :: y :: rest => simp [hfilter] at hlength

theorem UniqueExternalIds.eq {db : Db} (h : db.UniqueExternalIds) {r x : Row}
    {relayerId : RelayerId} {externalId : String} (hr : r ∈ db.rows) (hx : x ∈ db.rows)
    (hbr : r.boundTo relayerId (some externalId)) (hbx : x.boundTo relayerId (some externalId)) :
    r = x := by
  have hfind := h.find hr hbr
  rw [h.find hx hbx] at hfind
  cases hfind
  rfl

theorem findAdmittedTransaction_free {db : Db} {relayerId : RelayerId}
    {externalId : Option String} (hfree : db.externalIdTaken relayerId externalId = false)
    (digest : RequestDigest) :
    db.findAdmittedTransaction true relayerId externalId digest = .ok none := by
  unfold findAdmittedTransaction
  cases externalId with
  | none => rfl
  | some id =>
    have hnone : db.rows.find? (fun r => r.relayerId == relayerId && r.externalId == some id) =
        none := by
      simpa [externalIdTaken] using hfree
    simp [hnone]

/-- What a request is answered from the row that holds its external id. -/
def storedAnswer (served : Bool) (r : Row) (externalId : String) (digest : RequestDigest) :
    AddResult :=
  if !served then .error .couldNotSaveTransactionDb
  else if r.requestDigest = some digest then .ok r.toTransaction
  else .error (.externalIdConflict externalId)

theorem findAdmittedTransaction_bound {db : Db} (h : db.UniqueExternalIds) {r : Row}
    {relayerId : RelayerId} {externalId : String} (hr : r ∈ db.rows)
    (hb : r.boundTo relayerId (some externalId)) (served : Bool) (digest : RequestDigest) :
    db.findAdmittedTransaction served relayerId (some externalId) digest =
      (storedAnswer served r externalId digest).map some := by
  have hfind : db.rows.find? (fun r => r.relayerId == relayerId &&
      r.externalId == some externalId) = some r := h.find hr hb
  unfold findAdmittedTransaction storedAnswer
  cases served with
  | false => simp [Except.map]
  | true =>
    by_cases hdigest : r.requestDigest = some digest <;> simp [hfind, hdigest, Except.map]

/-- The statement of a save meets the unique index. -/
theorem saveTransaction_bound {db : Db} {r : Row} {relayerId : RelayerId} {t : Transaction}
    {externalId : String} (hext : t.externalId = some externalId) (hr : r ∈ db.rows)
    (hb : r.boundTo relayerId (some externalId)) : db.saveTransaction relayerId t = none := by
  have htaken := externalIdTaken_of_bound hr hb
  simp [saveTransaction, insert, Row.blank, hext, htaken]

theorem transactionFailedOnSend_bound {db : Db} {r : Row} {relayerId : RelayerId}
    {t : Transaction} {externalId : String} (hext : t.externalId = some externalId)
    (hr : r ∈ db.rows) (hb : r.boundTo relayerId (some externalId)) (reason : String)
    (now : DateTime) : db.transactionFailedOnSend relayerId t reason now = none := by
  have htaken := externalIdTaken_of_bound hr hb
  simp [transactionFailedOnSend, insert, Row.blank, hext, htaken]

theorem UniqueExternalIds.save {db db' : Db} (h : db.UniqueExternalIds) {relayerId : RelayerId}
    {t : Transaction} (hs : db.saveTransaction relayerId t = some db') :
    db'.UniqueExternalIds := by
  unfold saveTransaction at hs
  obtain ⟨inserted, hi, rfl⟩ := Option.map_eq_some_iff.mp hs
  exact (h.insert hi).of_rows rfl

theorem UniqueExternalIds.failedOnSend {db db' : Db} (h : db.UniqueExternalIds)
    {relayerId : RelayerId} {t : Transaction} {reason : String} {now : DateTime}
    (hs : db.transactionFailedOnSend relayerId t reason now = some db') :
    db'.UniqueExternalIds := by
  unfold transactionFailedOnSend at hs
  obtain ⟨inserted, hi, rfl⟩ := Option.map_eq_some_iff.mp hs
  exact (h.insert hi).of_rows rfl

end Db

/-- A call of `add_transaction`, with what other writers insert before it, between its lookup
and its insert, and after its insert. -/
structure AdmissionCall where
  env : AdmissionEnv
  toSend : TransactionToSend
  earlier : List Row
  between : List Row
  later : List Row

namespace Locked

def joined (l : Locked) (rows : List Row) : Locked := { l with db := l.db.joined rows }

section Among

variable (l : Locked) (env : AdmissionEnv) (toSend : TransactionToSend) (later : List Row)

/-- The refused insert is judged on the table it met, the lookup reads the table after it. -/
def resolveAdmissionInsertErrorAmong (t : Transaction) : AddResult :=
  let race := env.write && (l.db.row t.id).isNone &&
    l.db.externalIdTaken l.queue.relayer.id t.externalId
  if !race then .error .couldNotSaveTransactionDb
  else match (l.db.joined later).findAdmittedTransaction env.readAfterRace l.queue.relayer.id
      t.externalId (requestDigest t.toAddress t.value t.data t.speed) with
    | .error e => .error e
    | .ok (some stored) => .ok stored
    | .ok none => .error .couldNotSaveTransactionDb

def admissionFailedAmong (t : Transaction) (error : AddTransactionError) : Locked × AddResult :=
  let saved := if env.write then l.db.transactionFailedOnSend l.queue.relayer.id
      { t with status := .failed } (alwaysFailing (env.describe error)) env.nowFailed else none
  match saved with
  | some db => ({ l with db := db }, .error error)
  | none => (l, l.resolveAdmissionInsertErrorAmong env later { t with status := .failed })

def reserveAndSaveAmong (t : Transaction) (gasLimit : GasLimit) : Locked × AddResult :=
  let (assigned, manager) := l.queue.nonceManager.getAndIncrement
  let t := l.reserved t gasLimit
  match l.saveAdmitted env t with
  | some db =>
      ({ l with
        db := db
        queue := { l.queue with nonceManager := manager }.addPendingTransaction t }, .ok t)
  | none =>
      let released := { l with
        queue := { l.queue with nonceManager := manager.releaseUnbroadcastNonce assigned } }
      (released, l.resolveAdmissionInsertErrorAmong env later t)

def admitNewAmong (onchainNonce : ℕ) : Locked × AddResult :=
  let t := l.admittedTransaction env toSend onchainNonce
  match l.computeTransactionGasPrices env t with
  | .error e => (l, .error (.transactionGasPriceError e))
  | .ok (gasPrice, blobGasPrice) =>
      match l.estimateAndValidateGas env t gasPrice blobGasPrice with
      | .error e => l.admissionFailedAmong env later t e
      | .ok gasLimit => l.reserveAndSaveAmong env later t gasLimit

end Among

/-- What follows a lookup that found nothing. -/
def admitUnbound (l : Locked) (env : AdmissionEnv) (toSend : TransactionToSend)
    (later : List Row) : Locked × AddResult :=
  if l.queue.relayer.paused then (l, .error (.relayerIsPaused l.queue.relayer.id))
  else if toSend.blobs.isSome && !l.queue.supportsBlobs then
    (l, .error (.unsupportedTransactionType unsupportedBlobs))
  else match pendingNonceAcrossClients env.clients with
    | .error e => (l, .error (.couldNotGetCurrentOnChainNonce l.queue.relayer.id e))
    | .ok onchainNonce =>
        { l with
          queue := { l.queue with
            nonceManager := l.queue.nonceManager.syncWithOnchainNonce onchainNonce }
          }.admitNewAmong env toSend later onchainNonce

/-- `add_transaction` while other writers insert rows. -/
def addTransactionAmong (l : Locked) (c : AdmissionCall) : Locked × AddResult :=
  let others := l.joined c.between
  let (state, answer) : Locked × AddResult :=
    match l.db.findAdmittedTransaction c.env.read l.queue.relayer.id c.toSend.externalId
        (toSendDigest c.toSend) with
    | .error e => (others, .error e)
    | .ok (some stored) => (others, .ok stored)
    | .ok none => others.admitUnbound c.env c.toSend c.later
  (state.joined c.later, answer)

/-- Without other writers it is `add_transaction`. -/
theorem addTransactionAmong_alone (l : Locked) (env : AdmissionEnv) (toSend : TransactionToSend) :
    l.addTransactionAmong ⟨env, toSend, [], [], []⟩ = l.addTransaction env toSend := by
  unfold addTransactionAmong addTransaction
  have hjoined : ∀ s : Locked, s.joined [] = s := fun s => rfl
  simp only [hjoined]
  cases l.db.findAdmittedTransaction env.read l.queue.relayer.id toSend.externalId
      (toSendDigest toSend) with
  | error e => rfl
  | ok found =>
    cases found with
    | some stored => rfl
    | none => rfl

/-! A bound external id: the call writes nothing, and the answer is the stored row. -/

theorem saveAdmitted_bound {l : Locked} {env : AdmissionEnv} {t : Transaction}
    {externalId : String} {r : Row} (hext : t.externalId = some externalId)
    (hr : r ∈ l.db.rows) (hb : r.boundTo l.queue.relayer.id (some externalId)) :
    l.saveAdmitted env t = none := by
  unfold saveAdmitted
  split
  · exact Db.saveTransaction_bound hext hr hb
  · rfl

theorem resolveAmong_bound {l : Locked} (h : l.db.UniqueExternalIds) {env : AdmissionEnv}
    {t : Transaction} {externalId : String} {r : Row} (hext : t.externalId = some externalId)
    (hr : r ∈ l.db.rows) (hb : r.boundTo l.queue.relayer.id (some externalId))
    (later : List Row) :
    l.resolveAdmissionInsertErrorAmong env later t =
      if env.write && (l.db.row t.id).isNone then
        Db.storedAnswer env.readAfterRace r externalId
          (requestDigest t.toAddress t.value t.data t.speed)
      else .error .couldNotSaveTransactionDb := by
  have htaken := Db.externalIdTaken_of_bound hr hb
  have hlookup := Db.findAdmittedTransaction_bound (h.joined later) (Db.mem_joined hr later) hb
    env.readAfterRace (requestDigest t.toAddress t.value t.data t.speed)
  unfold resolveAdmissionInsertErrorAmong
  rw [hext, htaken, hlookup, Bool.and_true]
  cases env.write && (l.db.row t.id).isNone with
  | false => rfl
  | true =>
    generalize Db.storedAnswer env.readAfterRace r externalId
      (requestDigest t.toAddress t.value t.data t.speed) = stored
    cases stored <;> rfl

/-- The answers a call can give when its insert meets the row of another writer. -/
def Answered (r : Row) (externalId : String) (digest : RequestDigest) (answer : AddResult) :
    Prop :=
  answer = Db.storedAnswer true r externalId digest ∨ ∃ e, answer = .error e

theorem answered_stored (served : Bool) (r : Row) (externalId : String)
    (digest : RequestDigest) :
    Answered r externalId digest (Db.storedAnswer served r externalId digest) := by
  cases served with
  | false => exact .inr ⟨_, rfl⟩
  | true => exact .inl rfl

theorem admitNewAmong_bound {l : Locked} (h : l.db.UniqueExternalIds) (env : AdmissionEnv)
    {toSend : TransactionToSend} {externalId : String} {r : Row}
    (hext : toSend.externalId = some externalId) (hr : r ∈ l.db.rows)
    (hb : r.boundTo l.queue.relayer.id (some externalId)) (later : List Row) (n : ℕ) :
    (l.admitNewAmong env toSend later n).1 = l ∧
    Answered r externalId (toSendDigest toSend)
      (l.admitNewAmong env toSend later n).2 := by
  have hanswered : ∀ t : Transaction, t.externalId = some externalId →
      requestDigest t.toAddress t.value t.data t.speed = toSendDigest toSend →
      Answered r externalId (toSendDigest toSend)
        (l.resolveAdmissionInsertErrorAmong env later t) := by
    intro t ht hdigest
    rw [resolveAmong_bound h ht hr hb later, hdigest]
    split
    · exact answered_stored _ _ _ _
    · exact .inr ⟨_, rfl⟩
  unfold admitNewAmong
  dsimp only
  split
  · exact ⟨rfl, .inr ⟨_, rfl⟩⟩
  · split
    · rename_i e _
      have hsave : (if env.write then l.db.transactionFailedOnSend l.queue.relayer.id
          { l.admittedTransaction env toSend n with status := .failed }
          (alwaysFailing (env.describe e)) env.nowFailed else none) = none := by
        split
        · exact Db.transactionFailedOnSend_bound hext hr hb _ _
        · rfl
      unfold admissionFailedAmong
      simp only [hsave]
      exact ⟨trivial, hanswered _ hext rfl⟩
    · rename_i gasLimit _
      have hsave : l.saveAdmitted env
          (l.reserved (l.admittedTransaction env toSend n) gasLimit) = none :=
        saveAdmitted_bound hext hr hb
      unfold reserveAndSaveAmong
      simp only [hsave]
      constructor
      · simp
      · exact hanswered _ hext rfl

/-- Without a conflicting row only a served write can end in an accepted transaction. -/
theorem admitNew_accepted {l : Locked} {env : AdmissionEnv} {toSend : TransactionToSend} {n : ℕ}
    {t : Transaction}
    (hfree : l.db.externalIdTaken l.queue.relayer.id toSend.externalId = false)
    (h : (l.admitNew env toSend n).2 = .ok t) :
    env.write = true ∧
    ∃ gasPrice blobGasPrice gasLimit,
      l.computeTransactionGasPrices env (l.admittedTransaction env toSend n) =
        .ok (gasPrice, blobGasPrice) ∧
      l.estimateAndValidateGas env (l.admittedTransaction env toSend n) gasPrice blobGasPrice =
        .ok gasLimit := by
  have hunresolved : ∀ t : Transaction, t.externalId = toSend.externalId →
      l.resolveAdmissionInsertError env t = .error .couldNotSaveTransactionDb := by
    intro t ht
    unfold resolveAdmissionInsertError
    simp [ht, hfree]
  unfold admitNew at h
  dsimp only at h
  split at h
  · cases h
  · rename_i gasPrice blobGasPrice hprices
    split at h
    · unfold admissionFailed at h
      dsimp only at h
      split at h
      · cases h
      · rw [hunresolved _ rfl] at h
        cases h
    · rename_i gasLimit hestimate
      unfold reserveAndSave at h
      dsimp only at h
      split at h
      · rename_i db hsave
        unfold saveAdmitted at hsave
        split at hsave
        · rename_i hwrite
          exact ⟨hwrite, gasPrice, blobGasPrice, gasLimit, hprices, hestimate⟩
        · cases hsave
      · rw [hunresolved _ rfl] at h
        cases h

/-- A request that would be accepted without the other writers is answered from the row that
arrived before its insert. -/
theorem admitNewAmong_raced {l : Locked} (h : l.db.UniqueExternalIds) {env : AdmissionEnv}
    {toSend : TransactionToSend} {externalId : String} {r : Row} {others later : List Row} {n : ℕ}
    {t : Transaction} (hext : toSend.externalId = some externalId)
    (hfree : l.db.externalIdTaken l.queue.relayer.id toSend.externalId = false)
    (halone : (l.admitNew env toSend n).2 = .ok t)
    (hr : r ∈ (l.joined others).db.rows)
    (hb : r.boundTo l.queue.relayer.id (some externalId))
    (hid : (l.joined others).db.row toSend.id = none) :
    ((l.joined others).admitNewAmong env toSend later n).2 =
      Db.storedAnswer env.readAfterRace r externalId (toSendDigest toSend) := by
  obtain ⟨hwrite, gasPrice, blobGasPrice, gasLimit, hprices, hestimate⟩ :=
    admitNew_accepted hfree halone
  have hprices' : (l.joined others).computeTransactionGasPrices env
      ((l.joined others).admittedTransaction env toSend n) = .ok (gasPrice, blobGasPrice) :=
    hprices
  have hestimate' : (l.joined others).estimateAndValidateGas env
      ((l.joined others).admittedTransaction env toSend n) gasPrice blobGasPrice =
        .ok gasLimit := hestimate
  have hsave : (l.joined others).saveAdmitted env ((l.joined others).reserved
      ((l.joined others).admittedTransaction env toSend n) gasLimit) = none :=
    saveAdmitted_bound hext hr hb
  have hresolve := @resolveAmong_bound (l.joined others) (h.joined others) env
    ((l.joined others).reserved ((l.joined others).admittedTransaction env toSend n) gasLimit)
    externalId r hext hr hb later
  unfold admitNewAmong
  simp only [hprices', hestimate']
  unfold reserveAndSaveAmong
  simp only [hsave]
  rw [hresolve]
  have hnone : (l.joined others).db.row ((l.joined others).reserved
      ((l.joined others).admittedTransaction env toSend n) gasLimit).id = none := hid
  rw [hwrite, hnone]
  rfl

/-- The queue after a call that reserved nothing: at most its counter has followed the chain. -/
def Resynced (queue : TransactionsQueue) (env : AdmissionEnv) (after : TransactionsQueue) : Prop :=
  after = queue ∨ ∃ n, pendingNonceAcrossClients env.clients = .ok n ∧
    after = { queue with nonceManager := queue.nonceManager.syncWithOnchainNonce n }

theorem admitUnbound_bound {l : Locked} (h : l.db.UniqueExternalIds) (env : AdmissionEnv)
    {toSend : TransactionToSend} {externalId : String} {r : Row}
    (hext : toSend.externalId = some externalId) (hr : r ∈ l.db.rows)
    (hb : r.boundTo l.queue.relayer.id (some externalId)) (later : List Row) :
    (l.admitUnbound env toSend later).1.db = l.db ∧
    (l.admitUnbound env toSend later).1.broadcasts = l.broadcasts ∧
    Resynced l.queue env (l.admitUnbound env toSend later).1.queue ∧
    Answered r externalId (toSendDigest toSend)
      (l.admitUnbound env toSend later).2 := by
  unfold admitUnbound
  split
  · exact ⟨rfl, rfl, .inl rfl, .inr ⟨_, rfl⟩⟩
  · split
    · exact ⟨rfl, rfl, .inl rfl, .inr ⟨_, rfl⟩⟩
    · cases hclients : pendingNonceAcrossClients env.clients with
      | error e => exact ⟨rfl, rfl, .inl rfl, .inr ⟨_, rfl⟩⟩
      | ok n =>
        dsimp only
        have hsynced := @admitNewAmong_bound { l with
          queue := { l.queue with
            nonceManager := l.queue.nonceManager.syncWithOnchainNonce n } }
          h env toSend externalId r hext hr hb later n
        obtain ⟨hstate, hanswer⟩ := hsynced
        rw [hstate]
        exact ⟨rfl, rfl, .inr ⟨n, hclients, rfl⟩, hanswer⟩

theorem admitUnbound_raced {l : Locked} (h : l.db.UniqueExternalIds) {env : AdmissionEnv}
    {toSend : TransactionToSend} {externalId : String} {r : Row} {others later : List Row}
    {t : Transaction} (hext : toSend.externalId = some externalId)
    (hfree : l.db.externalIdTaken l.queue.relayer.id toSend.externalId = false)
    (halone : (l.admitUnbound env toSend []).2 = .ok t)
    (hr : r ∈ (l.joined others).db.rows)
    (hb : r.boundTo l.queue.relayer.id (some externalId))
    (hid : (l.joined others).db.row toSend.id = none) :
    ((l.joined others).admitUnbound env toSend later).2 =
      Db.storedAnswer env.readAfterRace r externalId (toSendDigest toSend) := by
  unfold admitUnbound at halone ⊢
  have hpaused : (l.joined others).queue = l.queue := rfl
  rw [hpaused]
  split at halone
  · cases halone
  · rename_i hrunning
    rw [if_neg hrunning]
    split at halone
    · cases halone
    · rename_i hblobs
      rw [if_neg hblobs]
      split at halone
      · cases halone
      · rename_i n hclients
        exact @admitNewAmong_raced { l with
          queue := { l.queue with
            nonceManager := l.queue.nonceManager.syncWithOnchainNonce n } }
          h env toSend externalId r others later n t hext hfree halone hr hb hid

/-- A call that finds its external id bound changes nothing and is answered from the row. -/
def Repeats (s : Locked) (c : AdmissionCall) (externalId : String) (r : Row) : Prop :=
  s.addTransactionAmong c = ((s.joined c.between).joined c.later,
    Db.storedAnswer c.env.read r externalId (toSendDigest c.toSend))

/-- A call that meets a bound external id at its insert writes no row, reserves no nonce and
queues nothing; unless it fails earlier, it is answered from that row. -/
structure Races (s : Locked) (c : AdmissionCall) (externalId : String) (r : Row) : Prop where
  rows : (s.addTransactionAmong c).1.db = ((s.joined c.between).joined c.later).db
  broadcasts : (s.addTransactionAmong c).1.broadcasts = s.broadcasts
  queue : Resynced s.queue c.env (s.addTransactionAmong c).1.queue
  answered : Answered r externalId (toSendDigest c.toSend) (s.addTransactionAmong c).2
  stored : (∃ t, (s.addTransaction c.env c.toSend).2 = .ok t) →
    (s.joined c.between).db.row c.toSend.id = none → c.env.readAfterRace = true →
    (s.addTransactionAmong c).2 = Db.storedAnswer true r externalId (toSendDigest c.toSend)

theorem repeats_of_bound {s : Locked} (h : s.db.UniqueExternalIds) {c : AdmissionCall}
    {externalId : String} {r : Row} (hext : c.toSend.externalId = some externalId)
    (hr : r ∈ s.db.rows) (hb : r.boundTo s.queue.relayer.id (some externalId)) :
    s.Repeats c externalId r := by
  have hlookup := Db.findAdmittedTransaction_bound h hr hb c.env.read (toSendDigest c.toSend)
  unfold Repeats addTransactionAmong
  rw [hext, hlookup]
  generalize Db.storedAnswer c.env.read r externalId (toSendDigest c.toSend) = stored
  cases stored <;> rfl

theorem addTransaction_eq (s : Locked) (env : AdmissionEnv) (toSend : TransactionToSend) :
    (s.addTransaction env toSend).2 =
      match s.db.findAdmittedTransaction env.read s.queue.relayer.id toSend.externalId
          (toSendDigest toSend) with
      | .error e => .error e
      | .ok (some stored) => .ok stored
      | .ok none => (s.admitUnbound env toSend []).2 := by
  rw [← addTransactionAmong_alone]
  unfold addTransactionAmong
  dsimp only
  split <;> rfl

/-- The lookup already finds the row. -/
theorem races_of_earlier {s : Locked} (h : s.db.UniqueExternalIds) {c : AdmissionCall}
    {externalId : String} {r : Row} (hext : c.toSend.externalId = some externalId)
    (hearlier : r ∈ s.db.rows)
    (hb : r.boundTo s.queue.relayer.id (some externalId)) : s.Races c externalId r := by
  have hrepeat := repeats_of_bound h hext hearlier hb
  unfold Repeats at hrepeat
  constructor
  · rw [hrepeat]
  · rw [hrepeat]
    rfl
  · rw [hrepeat]
    exact .inl rfl
  · rw [hrepeat]
    exact answered_stored _ _ _ _
  · intro ⟨t, ht⟩ _ _
    rw [hrepeat]
    cases hread : c.env.read with
    | true => rfl
    | false =>
      rw [addTransaction_eq, hread, hext] at ht
      simp [Db.findAdmittedTransaction] at ht

/-- The row arrives between the lookup and the insert. -/
theorem races_of_later {s : Locked} (h : s.db.UniqueExternalIds) {c : AdmissionCall}
    {externalId : String} {r : Row} (hext : c.toSend.externalId = some externalId)
    (hr : r ∈ (s.joined c.between).db.rows) (hearlier : r ∉ s.db.rows)
    (hb : r.boundTo s.queue.relayer.id (some externalId)) : s.Races c externalId r := by
  have hfree : s.db.externalIdTaken s.queue.relayer.id c.toSend.externalId = false := by
    rw [Bool.eq_false_iff]
    intro htaken
    simp only [Db.externalIdTaken, Bool.and_eq_true, List.any_eq_true] at htaken
    obtain ⟨-, x, hx, hbx⟩ := htaken
    rw [hext, ← Bool.and_eq_true] at hbx
    have heq := (h.joined c.between).eq hr (Db.mem_joined hx c.between) hb hbx
    exact hearlier (heq ▸ hx)
  cases hread : c.env.read with
  | false =>
    have hlookup : s.db.findAdmittedTransaction c.env.read s.queue.relayer.id
        c.toSend.externalId (toSendDigest c.toSend) = .error .couldNotSaveTransactionDb := by
      rw [hread, hext]
      rfl
    have hcall : s.addTransactionAmong c =
        ((s.joined c.between).joined c.later, .error .couldNotSaveTransactionDb) := by
      unfold addTransactionAmong
      rw [hlookup]
    constructor
    · rw [hcall]
    · rw [hcall]
      rfl
    · rw [hcall]
      exact .inl rfl
    · rw [hcall]
      exact .inr ⟨_, rfl⟩
    · intro ⟨t, ht⟩ _ _
      rw [addTransaction_eq, hlookup] at ht
      cases ht
  | true =>
    have hlookup : s.db.findAdmittedTransaction c.env.read s.queue.relayer.id
        c.toSend.externalId (toSendDigest c.toSend) = .ok none := by
      rw [hread]
      exact Db.findAdmittedTransaction_free hfree _
    have hcall : s.addTransactionAmong c =
        (((s.joined c.between).admitUnbound c.env c.toSend c.later).1.joined c.later,
          ((s.joined c.between).admitUnbound c.env c.toSend c.later).2) := by
      unfold addTransactionAmong
      rw [hlookup]
    obtain ⟨hrows, hbroadcasts, hqueue, hanswer⟩ :=
      @admitUnbound_bound (s.joined c.between) (h.joined c.between) c.env c.toSend externalId r
        hext hr hb c.later
    constructor
    · rw [hcall]
      exact congrArg (Db.joined · c.later) hrows
    · rw [hcall]
      exact hbroadcasts
    · rw [hcall]
      exact hqueue
    · rw [hcall]
      exact hanswer
    · intro ⟨t, ht⟩ hid hserved
      rw [addTransaction_eq, hlookup] at ht
      rw [hcall, ← hserved]
      exact admitUnbound_raced h hext hfree ht hr hb hid

theorem races_of_bound {s : Locked} (h : s.db.UniqueExternalIds) {c : AdmissionCall}
    {externalId : String} {r : Row} (hext : c.toSend.externalId = some externalId)
    (hr : r ∈ (s.joined c.between).db.rows)
    (hb : r.boundTo s.queue.relayer.id (some externalId)) : s.Races c externalId r := by
  by_cases hearlier : r ∈ s.db.rows
  · exact races_of_earlier h hext hearlier hb
  · exact races_of_later h hext hr hearlier hb

/-- Own inserts go through the unique index as well. -/
theorem admitNewAmong_unique {l : Locked} (h : l.db.UniqueExternalIds) (env : AdmissionEnv)
    (toSend : TransactionToSend) (later : List Row) (n : ℕ) :
    (l.admitNewAmong env toSend later n).1.db.UniqueExternalIds := by
  unfold admitNewAmong
  dsimp only
  split
  · exact h
  · split
    · unfold admissionFailedAmong
      dsimp only
      split
      · rename_i db hsave
        split at hsave
        · exact h.failedOnSend hsave
        · cases hsave
      · exact h
    · unfold reserveAndSaveAmong
      dsimp only
      split
      · rename_i db hsave
        unfold saveAdmitted at hsave
        split at hsave
        · exact h.save hsave
        · cases hsave
      · exact h

theorem addTransactionAmong_unique {s : Locked} (h : s.db.UniqueExternalIds)
    (c : AdmissionCall) : (s.addTransactionAmong c).1.db.UniqueExternalIds := by
  have hunbound : ((s.joined c.between).admitUnbound c.env c.toSend
      c.later).1.db.UniqueExternalIds := by
    unfold admitUnbound
    split
    · exact h.joined c.between
    · split
      · exact h.joined c.between
      · split
        · exact h.joined c.between
        · exact admitNewAmong_unique (h.joined c.between) _ _ _ _
  unfold addTransactionAmong
  dsimp only
  split
  · exact (h.joined c.between).joined c.later
  · exact (h.joined c.between).joined c.later
  · exact hunbound.joined c.later

/-- A call with what other writers insert before it. -/
def admission (l : Locked) (c : AdmissionCall) : Locked :=
  ((l.joined c.earlier).addTransactionAmong c).1

/-- The calls of a process, one after the other under the queues lock. -/
abbrev admissions (l : Locked) (calls : List AdmissionCall) : Locked :=
  EventMachine.run admission l calls

theorem admissions_unique {l : Locked} (h : l.db.UniqueExternalIds)
    (calls : List AdmissionCall) : (l.admissions calls).db.UniqueExternalIds := by
  induction calls generalizing l with
  | nil => exact h
  | cons c calls ih => exact ih (addTransactionAmong_unique (h.joined c.earlier) c)

/-- Over any sequence of calls among other writers an external id has at most one row. A call
that finds it bound, or meets it bound at its insert, writes no row, reserves no nonce, queues
nothing and is answered from that row. -/
theorem external_id_admission (l : Locked) (h : l.db.UniqueExternalIds)
    (calls : List AdmissionCall) (c : AdmissionCall) :
    let s := (l.admissions calls).joined c.earlier
    s.db.UniqueExternalIds ∧ (s.addTransactionAmong c).1.db.UniqueExternalIds ∧
    ∀ externalId, c.toSend.externalId = some externalId → ∀ r,
      r.boundTo s.queue.relayer.id (some externalId) →
      (r ∈ s.db.rows → s.Repeats c externalId r) ∧
      (r ∈ (s.joined c.between).db.rows → s.Races c externalId r) := by
  intro s
  have hs : s.db.UniqueExternalIds := (admissions_unique h calls).joined c.earlier
  constructor
  · exact hs
  · constructor
    · exact addTransactionAmong_unique hs c
    · intro externalId hext r hb
      constructor
      · intro hr
        exact repeats_of_bound hs hext hr hb
      · intro hr
        exact races_of_bound hs hext hr hb

/-- A relayer that has just come up, and a row that another writer binds to `k`. -/
def freshLocked : Locked := ⟨freshQueue, some 1000, .empty, []⟩

def foreignRow : Row :=
  { Row.blank (freshLocked.admittedTransaction (servedAdd 0) (payment 1 5) 0) with
    externalId := some "k" }

/-- Another payload under `k` while the chain is ahead of the counter. -/
def lateConflict : AdmissionCall :=
  ⟨servedAdd 5, { payment 2 7 with externalId := some "k" }, [], [foreignRow], []⟩

/-- The rejected request leaves the counter at the chain's nonce. -/
theorem external_id_conflict_moves_counter :
    foreignRow.requestDigest ≠ some (toSendDigest lateConflict.toSend) ∧
    (freshLocked.addTransactionAmong lateConflict).2 = .error (.externalIdConflict "k") ∧
    freshLocked.queue.nonceManager.nonce = 0 ∧
    (freshLocked.addTransactionAmong lateConflict).1.queue.nonceManager.nonce = 5 := by
  decide +kernel

theorem freshLocked_unique : freshLocked.db.UniqueExternalIds := fun _ _ => Nat.zero_le 1

theorem external_id_admission_late :
    freshLocked.db.UniqueExternalIds ∧ freshLocked.Races lateConflict "k" foreignRow := by
  constructor
  · exact freshLocked_unique
  · exact ((external_id_admission freshLocked freshLocked_unique [] lateConflict).2.2 "k" rfl
      foreignRow rfl).2 (by decide +kernel)

end Locked
end Rrelayer
