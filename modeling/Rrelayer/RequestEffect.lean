import Rrelayer.Effects
import Rrelayer.Admission
import Rrelayer.Compete

/-! Admission, cancel and replace as actions of the book. -/
namespace Rrelayer
namespace Locked

section Admission

variable {l : Locked} {env : AdmissionEnv} {toSend : TransactionToSend}

/-- The manager has caught up with the chain before a payload is tried. -/
def synced (l : Locked) (onchainNonce : ℕ) : Locked :=
  { l with
    queue := { l.queue with
      nonceManager := l.queue.nonceManager.syncWithOnchainNonce onchainNonce } }

theorem synced_book (l : Locked) (m : ℕ) :
    (l.synced m).queue.book = { l.queue.book with next := max l.queue.book.next m } := by
  simp [synced, TransactionsQueue.book]

/-- The action of an admission that has read the chain's nonce. -/
def admissionAction (l : Locked) (env : AdmissionEnv) (toSend : TransactionToSend)
    (onchainNonce : ℕ) : Action :=
  let t := l.admittedTransaction env toSend onchainNonce
  match l.computeTransactionGasPrices env t with
  | .error _ => .refuse toSend.id onchainNonce
  | .ok (gasPrice, blobGasPrice) =>
      match l.estimateAndValidateGas env t gasPrice blobGasPrice with
      | .error _ => .refuse toSend.id onchainNonce
      | .ok gasLimit =>
          if (l.saveAdmitted env (l.reserved t gasLimit)).isSome then .reserve toSend.id onchainNonce
          else .refuse toSend.id onchainNonce

def addAction (l : Locked) (env : AdmissionEnv) (toSend : TransactionToSend) : Action :=
  match l.db.findAdmittedTransaction env.read l.queue.relayer.id toSend.externalId
      (toSendDigest toSend) with
  | .error _ | .ok (some _) => .keep
  | .ok none =>
      if l.queue.relayer.paused || (toSend.blobs.isSome && !l.queue.supportsBlobs) then .keep
      else match pendingNonceAcrossClients env.clients with
        | .error _ => .keep
        | .ok onchainNonce => (l.synced onchainNonce).admissionAction env toSend onchainNonce

theorem refused_effect {id : TransactionId} {m : ℕ} {db : Db}
    (hdb : l.db.Within (l.queue.book.Writes (.refuse id m)) db) :
    l.Effect (.refuse id m) { l.synced m with db := db } := by
  refine ⟨?_, hdb, ⟨[], by simp [synced], by simp⟩, rfl⟩
  show l.queue.book.Step _ (l.synced m).queue.book
  rw [synced_book]
  exact .refuse

theorem admissionFailed_effect {m : ℕ} {error : AddTransactionError} :
    l.Effect (.refuse toSend.id m) ((l.synced m).admissionFailed env
      ((l.synced m).admittedTransaction env toSend m) error).1 := by
  unfold admissionFailed
  dsimp only
  split
  · rename_i db hsaved
    split at hsaved
    · exact refused_effect (Db.transactionFailedOnSend_within (.inr ⟨rfl, rfl⟩) hsaved)
    · cases hsaved
  · exact refused_effect (.refl _)

theorem reserveAndSave_effect {m : ℕ} {t : Transaction} {gasLimit : GasLimit} :
    l.Effect (if ((l.synced m).saveAdmitted env ((l.synced m).reserved t gasLimit)).isSome
        then .reserve t.id m else .refuse t.id m)
      ((l.synced m).reserveAndSave env t gasLimit).1 := by
  have hnext : (l.synced m).queue.nonceManager.nonce = max l.queue.book.next m :=
    congrArg Book.next (synced_book l m)
  have hslot : ((l.synced m).reserved t gasLimit).slot = (t.id, max l.queue.book.next m) :=
    Prod.ext rfl hnext
  unfold reserveAndSave
  dsimp only
  rcases hsave : (l.synced m).saveAdmitted env ((l.synced m).reserved t gasLimit) with _ | db
  · simp only [Option.isSome_none, Bool.false_eq_true, if_false,
      NonceManager.release_getAndIncrement]
    exact refused_effect (.refl _)
  · simp only [Option.isSome_some, if_true]
    have hdb : l.db.Within (l.queue.book.Writes (.reserve t.id m)) db := by
      unfold saveAdmitted at hsave
      split at hsave
      · exact Db.saveTransaction_within (t := (l.synced m).reserved t gasLimit)
          (.inr (Prod.ext_iff.mp hslot)) hsave
      · cases hsave
    refine ⟨?_, hdb, ⟨[], by simp [synced], by simp⟩, rfl⟩
    have hpending := TransactionsQueue.book_addPendingTransaction
      { (l.synced m).queue with nonceManager := (l.synced m).queue.nonceManager.getAndIncrement.2 }
      ((l.synced m).reserved t gasLimit)
    rw [hslot] at hpending
    have hstep : l.queue.book.Step (.reserve t.id m) _ := .reserve hpending
    convert hstep using 1
    show Book.mk _ _ _ = _
    congr 1
    show (l.synced m).queue.nonceManager.nonce + 1 = _
    rw [hnext]

theorem admitNew_effect {m : ℕ} :
    l.Effect ((l.synced m).admissionAction env toSend m)
      ((l.synced m).admitNew env toSend m).1 := by
  unfold admissionAction admitNew
  dsimp only
  rcases (l.synced m).computeTransactionGasPrices env
    ((l.synced m).admittedTransaction env toSend m) with e | ⟨gasPrice, blobGasPrice⟩
  · exact refused_effect (.refl _)
  · dsimp only
    rcases (l.synced m).estimateAndValidateGas env ((l.synced m).admittedTransaction env toSend m)
      gasPrice blobGasPrice with e | gasLimit
    · exact admissionFailed_effect
    · exact reserveAndSave_effect

/-- An admission does to the book what its action says. -/
theorem addTransaction_effect (l : Locked) (env : AdmissionEnv) (toSend : TransactionToSend) :
    l.Effect (l.addAction env toSend) (l.addTransaction env toSend).1 := by
  unfold addAction addTransaction
  rcases l.db.findAdmittedTransaction env.read l.queue.relayer.id toSend.externalId
    (toSendDigest toSend) with e | _ | stored
  · exact .refl l
  · dsimp only
    by_cases hpaused : l.queue.relayer.paused = true
    · simp only [hpaused, Bool.true_or, if_true]
      exact .refl l
    · by_cases hblobs : (toSend.blobs.isSome && !l.queue.supportsBlobs) = true
      · simp only [hpaused, hblobs, Bool.or_true, if_true, Bool.false_eq_true, if_false]
        exact .refl l
      · simp only [hpaused, hblobs, Bool.or_false, Bool.false_eq_true, if_false]
        rcases pendingNonceAcrossClients env.clients with e | m
        · exact .refl l
        · exact admitNew_effect
  · exact .refl l

theorem addAction_newNonce {m : ℕ} (h : m ∈ (l.addAction env toSend).newNonce) :
    pendingNonceAcrossClients env.clients = .ok m := by
  unfold addAction at h
  split at h
  · cases h
  · cases h
  · split at h
    · cases h
    · split at h
      · cases h
      · rename_i onchainNonce hanswer
        have hm : ((l.synced onchainNonce).admissionAction env toSend onchainNonce).newNonce =
            some onchainNonce := by
          unfold admissionAction
          dsimp only
          split
          · rfl
          · split
            · rfl
            · split <;> rfl
        rw [hm] at h
        rw [← Option.some.inj h]
        exact hanswer

end Admission

section Compete

variable {l : Locked} {env : CompeteEnv} {request : RelayTransactionRequest}
  {original competitor : Transaction}

/-- The action of a competitor's send, by how it ended. -/
def competitorAction (env : CompeteEnv) (original : Transaction) : CompetitorOutcome → Action
  | .attached hash => .attach env.newId hash
  | _ => .attempt env.newId original.nonce

/-- The competitor a cancel sends for an in-mempool original. -/
def cancelCompetitor (l : Locked) (env : CompeteEnv) (original : Transaction) :
    Option Transaction :=
  original.sentWithGas.map fun gas =>
    { l.competitor env original with sentWithGas := some (competitorGas gas) }

/-- The competitor a replace sends for an in-mempool original. -/
def replaceCompetitor (l : Locked) (env : CompeteEnv) (request : RelayTransactionRequest)
    (original : Transaction) : Option Transaction :=
  match replacementExternalId original request.externalId true, decodeBlobs request,
      original.sentWithGas, original.gasLimit with
  | .ok externalId, .ok blobs, some gas, some gasLimit =>
      let t := l.replacement env request original externalId blobs gasLimit
      match l.replacementBlobGas env t with
      | .error _ => none
      | .ok blobGas => some { t with
          sentWithGas := some (competitorGas gas), sentWithBlobGas := blobGas }
  | _, _, _, _ => none

/-- The in-mempool original a cancel or replace that is not held back addresses. -/
def raced (l : Locked) (env : CompeteEnv) (id : TransactionId) : Option Transaction :=
  if l.queue.relayer.paused || !env.guard then none
  else match l.queue.getEditableTransactionById id with
    | some (.inmempool original) => some original
    | _ => none

def cancelAction (l : Locked) (env : CompeteEnv) (id : TransactionId) : Action :=
  match (l.raced env id).bind fun original =>
      (l.cancelCompetitor env original).map (original, ·) with
  | none => .keep
  | some (original, competitor) => competitorAction env original
      (l.sendCompetitor env original competitor .cancel).2

def replaceAction (l : Locked) (env : CompeteEnv) (request : RelayTransactionRequest)
    (id : TransactionId) : Action :=
  match (l.raced env id).bind fun original =>
      (l.replaceCompetitor env request original).map (original, ·) with
  | none => .keep
  | some (original, competitor) => competitorAction env original
      (l.sendCompetitor env original competitor .replace).2

theorem competitorAction_newNonce (env : CompeteEnv) (original : Transaction)
    (o : CompetitorOutcome) : (competitorAction env original o).newNonce = none := by
  cases o <;> rfl

theorem cancelAction_newNonce (l : Locked) (env : CompeteEnv) (id : TransactionId) :
    (l.cancelAction env id).newNonce = none := by
  unfold cancelAction
  split
  · rfl
  · exact competitorAction_newNonce ..

theorem replaceAction_newNonce (l : Locked) (env : CompeteEnv) (request : RelayTransactionRequest)
    (id : TransactionId) : (l.replaceAction env request id).newNonce = none := by
  unfold replaceAction
  split
  · rfl
  · exact competitorAction_newNonce ..

theorem rewritePending_effect {t : Transaction} (rewritten : Transaction) {l' : Locked}
    (hfind : l.queue.pendingTransactions.find? (·.id == rewritten.id) = some t)
    (hslot : rewritten.slot = t.slot) (h : l.rewritePending env rewritten = some l') :
    l.Effect .keep l' := by
  unfold rewritePending at h
  split at h
  · cases h
    have hlive : (rewritten.id, rewritten.nonce) ∈ l.queue.book.live := by
      rw [show (rewritten.id, rewritten.nonce) = (t.id, t.nonce) from hslot]
      refine mem_live ?_
      unfold TransactionsQueue.liveTransactions
      exact List.mem_append_left _ (List.mem_of_find?_eq_some hfind)
    have hbook := TransactionsQueue.book_updatePendingTransaction hfind hslot
    refine ⟨?_, Db.transactionUpdate_within (.inl hlive), ⟨[], by simp, by simp⟩, rfl⟩
    show l.queue.book.Step .keep (l.queue.updatePendingTransaction rewritten).book
    rw [hbook]
    exact .keep
  · cases h

/-- A competitor shares its original's nonce, whether it gets attached or not. -/
theorem sendCompetitor_effect {type : CompetitionType}
    {c : CompetitiveTransaction}
    (hfind : l.queue.inmempoolTransactions.find? (·.original.id == original.id) = some c)
    (hc : c.original = original) (hid : competitor.id = env.newId)
    (hnonce : competitor.nonce = original.nonce) :
    l.Effect (competitorAction env original (l.sendCompetitor env original competitor type).2)
      (l.sendCompetitor env original competitor type).1 := by
  have hmem : c ∈ l.queue.inmempoolTransactions := List.mem_of_find?_eq_some hfind
  have hattempt {l' : Locked} (hqueue : l'.queue = l.queue) :
      l'.Effect (.attempt env.newId original.nonce) l' := by
    refine ⟨?_, .refl _, ⟨[], by simp, by simp⟩, rfl⟩
    rw [hqueue]
    have hentry : c.entry ∈ l.queue.book.inmempool :=
      List.mem_map_of_mem (f := CompetitiveTransaction.entry) hmem
    have hentryNonce : c.entry.original.nonce = original.nonce := by rw [← hc]; rfl
    rw [← hentryNonce]
    exact .attempt hentry
  have hreach : competitor.id = env.newId ∧ competitor.nonce = original.nonce := ⟨hid, hnonce⟩
  have hspec := send_spec l env.send competitor
  unfold sendCompetitor
  rcases hsend : l.send env.send competitor with ⟨sentCompetitor, l', e | sent⟩
  · rw [hsend] at hspec
    have hfailed := hspec.effect (.inr hreach) (.inr hreach) (hattempt hspec.queue)
    cases e with
    | transactionSendError e =>
      dsimp only
      split
      · split <;> exact hfailed
      · exact hfailed
    | _ => exact hfailed
  · rw [hsend] at hspec
    obtain ⟨_, hsentNonce⟩ := hspec.ok sent rfl
    have hhash : sent.hash.nonce = original.nonce := hsentNonce.trans hnonce
    have horiginal : (original.id, original.nonce) ∈ l.queue.book.live :=
      entry_mem_live hmem (by rw [← hc]; exact List.mem_cons_self ..)
    have hlinked (a : Action) : l'.db.Within (l'.queue.book.Writes a) (l'.db.transactionUpdate
        { original with cancelledByTransactionId := some competitor.id } env.nowWrite) := by
      rw [hspec.queue]
      exact Db.transactionUpdate_within
        (t := { original with cancelledByTransactionId := some competitor.id }) (.inl horiginal)
    dsimp only
    split
    · exact hspec.effect (.inr hreach) (.inr hreach) (hattempt hspec.queue)
    · split
      · refine hspec.effect (.inr hreach) (.inr hreach) ?_
        exact .of_db (hlinked _) (hattempt hspec.queue)
      · rename_i q' hadd
        have hreach' : competitor.id = env.newId ∧ competitor.nonce = sent.hash.nonce :=
          ⟨hid, hsentNonce.symm⟩
        refine hspec.effect (.inr hreach') (.inr hreach') ?_
        refine .of_db (hlinked _) ⟨?_, .refl _, ⟨[], by simp, by simp⟩, ?_⟩
        · rw [hspec.queue] at hadd
          have hfront : ∃ c ∈ l.queue.inmempoolTransactions.head?,
              c.original.nonce = sent.hash.nonce := by
            obtain ⟨front, rest, hlist, hfrontId, -⟩ := TransactionsQueue.addCompetitor_ok hadd
            have hfrontFind := List.find?_cons_of_pos
              (p := fun c : CompetitiveTransaction => c.original.id == original.id)
              (l := rest) (beq_iff_eq.mpr hfrontId)
            rw [← hlist] at hfrontFind
            have hfrontEq : front = c := Option.some.inj (hfrontFind.symm.trans hfind)
            refine ⟨front, by rw [hlist]; rfl, ?_⟩
            rw [hfrontEq, hc, hhash]
          have hsameNonce : sentCompetitor.nonce = sent.hash.nonce :=
            hspec.nonce.trans hsentNonce.symm
          have hstep := TransactionsQueue.book_addCompetitor hfront (by exact hsameNonce)
            (by rfl) hadd
          have hcompetitorId : sentCompetitor.id = env.newId := hspec.id.trans hid
          show l'.queue.book.Step (.attach env.newId sent.hash) q'.book
          rw [hspec.queue, ← hcompetitorId]
          exact hstep
        · show q'.relayer = l'.queue.relayer
          obtain ⟨front, rest, -, -, rfl⟩ := TransactionsQueue.addCompetitor_ok hadd
          rfl

theorem raced_some {id : TransactionId} (h : l.raced env id = some original) :
    l.queue.relayer.paused = false ∧ env.guard = true ∧
      l.queue.getEditableTransactionById id = some (.inmempool original) := by
  unfold raced at h
  split at h
  · cases h
  · rename_i hheld
    split at h
    · rename_i o heditable
      cases h
      have hheld : l.queue.relayer.paused = false ∧ env.guard = true := by simpa using hheld
      exact ⟨hheld.1, hheld.2, heditable⟩
    · cases h

/-- What every competitor has from its request and from the original. -/
structure CompetesWith (env : CompeteEnv) (original competitor : Transaction) : Prop where
  id : competitor.id = env.newId
  relayerId : competitor.relayerId = original.relayerId
  nonce : competitor.nonce = original.nonce
  status : competitor.status = .pending
  link : competitor.cancelledByTransactionId = none

theorem cancelCompetitor_competes (h : l.cancelCompetitor env original = some competitor) :
    CompetesWith env original competitor := by
  obtain ⟨gas, -, rfl⟩ := Option.map_eq_some_iff.mp h
  exact ⟨rfl, rfl, rfl, rfl, rfl⟩

theorem replaceCompetitor_competes
    (h : l.replaceCompetitor env request original = some competitor) :
    CompetesWith env original competitor := by
  unfold replaceCompetitor at h
  split at h
  · dsimp only at h
    split at h
    · cases h
    · cases h
      exact ⟨rfl, rfl, rfl, rfl, rfl⟩
  · cases h

theorem cancelCompetitor_unsent (h : l.cancelCompetitor env original = some competitor) :
    competitor.knownTransactionHash = none := by
  obtain ⟨gas, -, rfl⟩ := Option.map_eq_some_iff.mp h
  rfl

theorem replaceCompetitor_unsent (h : l.replaceCompetitor env request original = some competitor) :
    competitor.knownTransactionHash = none := by
  unfold replaceCompetitor at h
  split at h
  · dsimp only at h
    split at h
    · cases h
    · cases h
      rfl
  · cases h

/-- A cancel leaves the relayer as it is, rewrites a pending transaction, or sends a competitor. -/
theorem cancelTransaction_cases (l : Locked) (env : CompeteEnv) (id : TransactionId) :
    (l.cancelTransaction env id).1 = l ∨
    (∃ t, l.queue.getEditableTransactionById id = some (.pending t) ∧
      l.rewritePending env (l.cancelledPending t) = some (l.cancelTransaction env id).1) ∨
    ∃ original competitor, l.raced env id = some original ∧
      l.cancelCompetitor env original = some competitor ∧
      (l.cancelTransaction env id).1 = (l.sendCompetitor env original competitor .cancel).1 := by
  unfold cancelTransaction raced
  by_cases hpaused : l.queue.relayer.paused = true
  · rw [if_pos hpaused]
    exact .inl rfl
  rw [if_neg hpaused]
  rcases heditable : l.queue.getEditableTransactionById id with _ | t | original
  · exact .inl rfl
  · dsimp only
    split
    · exact .inl rfl
    · rcases hrewrite : l.rewritePending env (l.cancelledPending t) with _ | l'
      · exact .inl rfl
      · exact .inr (.inl ⟨t, rfl, hrewrite⟩)
  · dsimp only
    split
    · exact .inl rfl
    · rename_i hguard
      unfold cancelInmempool
      split
      · exact .inl rfl
      · rename_i gas hgas
        refine .inr (.inr ⟨original, _, ?_, ?_, rfl⟩)
        · simp [hpaused, hguard]
        · simp [cancelCompetitor, hgas]

/-- A replacement does too; the replacement of a pending transaction carries the request's blobs. -/
theorem replaceTransaction_cases (l : Locked) (env : CompeteEnv)
    (request : RelayTransactionRequest) (id : TransactionId) :
    (l.replaceTransaction env request id).1 = l ∨
    (∃ t blobs, l.queue.getEditableTransactionById id = some (.pending t) ∧
      l.rewritePending env (transactionReplace request t blobs) =
        some (l.replaceTransaction env request id).1) ∨
    ∃ original competitor, l.raced env id = some original ∧
      l.replaceCompetitor env request original = some competitor ∧
      (l.replaceTransaction env request id).1 =
        (l.sendCompetitor env original competitor .replace).1 := by
  unfold replaceTransaction raced
  by_cases hpaused : l.queue.relayer.paused = true
  · rw [if_pos hpaused]
    exact .inl rfl
  rw [if_neg hpaused]
  rcases heditable : l.queue.getEditableTransactionById id with _ | t | original
  · exact .inl rfl
  · dsimp only
    split
    · exact .inl rfl
    · split
      · exact .inl rfl
      · unfold replacePending
        split
        · exact .inl rfl
        · rename_i blobs _
          dsimp only
          rcases hrewrite : l.rewritePending env (transactionReplace request t blobs) with _ | l'
          · exact .inl rfl
          · exact .inr (.inl ⟨t, blobs, rfl, hrewrite⟩)
  · dsimp only
    split
    · exact .inl rfl
    · rename_i hguard
      split
      · exact .inl rfl
      · rename_i externalId hexternal
        unfold replaceInmempool
        split
        · exact .inl rfl
        · rename_i blobs hblobs
          split
          · rename_i gas gasLimit hgas hlimit
            dsimp only
            split
            · exact .inl rfl
            · rename_i blobGas hblobGas
              refine .inr (.inr ⟨original, _, ?_, ?_, rfl⟩)
              · simp [hpaused, hguard]
              · simp [replaceCompetitor, hexternal, hblobs, hgas, hlimit, hblobGas]
          · exact .inl rfl

/-- A cancel does to the book what its action says. -/
theorem cancelTransaction_effect (l : Locked) (env : CompeteEnv) (id : TransactionId) :
    l.Effect (l.cancelAction env id) (l.cancelTransaction env id).1 := by
  unfold cancelAction cancelTransaction raced
  by_cases hpaused : l.queue.relayer.paused = true
  · simp only [hpaused, Bool.true_or, if_true, Option.bind_none]
    exact .refl l
  by_cases hguard : env.guard = true
  · simp only [hpaused, hguard, Bool.not_true, Bool.or_false, Bool.false_eq_true, if_false]
    rcases heditable : l.queue.getEditableTransactionById id with _ | t | original
    · exact .refl l
    · obtain ⟨hfind, hid⟩ := TransactionsQueue.getEditable_pending heditable
      dsimp only [Option.bind_none]
      rcases hrewrite : l.rewritePending env (l.cancelledPending t) with _ | l'
      · exact .refl l
      · rw [← hid] at hfind
        exact rewritePending_effect (l.cancelledPending t) hfind rfl hrewrite
    · obtain ⟨c, hfind, hc, hid⟩ := TransactionsQueue.getEditable_inmempool heditable
      rw [← hid] at hfind
      dsimp only [Option.bind_some]
      unfold cancelInmempool cancelCompetitor
      rcases original.sentWithGas with _ | gas
      · exact .refl l
      · exact sendCompetitor_effect hfind hc rfl rfl
  · simp only [hpaused, hguard, Bool.not_false, Bool.or_true, if_true, Bool.false_eq_true,
      if_false, Option.bind_none]
    split <;> exact .refl l

/-- A replacement does to the book what its action says. -/
theorem replaceTransaction_effect (l : Locked) (env : CompeteEnv)
    (request : RelayTransactionRequest) (id : TransactionId) :
    l.Effect (l.replaceAction env request id) (l.replaceTransaction env request id).1 := by
  unfold replaceAction replaceTransaction raced
  by_cases hpaused : l.queue.relayer.paused = true
  · simp only [hpaused, Bool.true_or, if_true, Option.bind_none]
    exact .refl l
  by_cases hguard : env.guard = true
  · simp only [hpaused, hguard, Bool.not_true, Bool.or_false, Bool.false_eq_true, if_false]
    rcases heditable : l.queue.getEditableTransactionById id with _ | t | original
    · exact .refl l
    · obtain ⟨hfind, hid⟩ := TransactionsQueue.getEditable_pending heditable
      dsimp only [Option.bind_none]
      rcases replacementExternalId t request.externalId false with e | externalId
      · exact .refl l
      · dsimp only
        unfold replacePending
        rcases decodeBlobs request with e | blobs
        · exact .refl l
        · dsimp only
          rcases hrewrite : l.rewritePending env (transactionReplace request t blobs) with _ | l'
          · exact .refl l
          · rw [← hid] at hfind
            exact rewritePending_effect (transactionReplace request t blobs) hfind rfl
              hrewrite
    · obtain ⟨c, hfind, hc, hid⟩ := TransactionsQueue.getEditable_inmempool heditable
      rw [← hid] at hfind
      dsimp only [Option.bind_some]
      unfold replaceCompetitor
      rcases replacementExternalId original request.externalId true with e | externalId
      · exact .refl l
      · dsimp only
        unfold replaceInmempool
        rcases decodeBlobs request with e | blobs
        · exact .refl l
        · dsimp only
          rcases original.sentWithGas with _ | gas <;> rcases original.gasLimit with _ | gasLimit
          · exact .refl l
          · exact .refl l
          · exact .refl l
          · dsimp only
            rcases l.replacementBlobGas env
              (l.replacement env request original externalId blobs gasLimit) with e | blobGas
            · exact .refl l
            · exact sendCompetitor_effect hfind hc rfl rfl
  · simp only [hpaused, hguard, Bool.not_false, Bool.or_true, if_true, Bool.false_eq_true,
      if_false, Option.bind_none]
    split <;> exact .refl l

end Compete

end Locked
end Rrelayer
