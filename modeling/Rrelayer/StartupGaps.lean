import Rrelayer.StartupRows

/-! Nonce gaps after a startup. The repairs fail single rows by local evidence; whether the live
nonces stay contiguous depends on what lies above the failed ones. -/
namespace Rrelayer

/-- The row waits for its nonce to be consumed. -/
def Row.Live (r : Row) : Prop := r.status = .pending ∨ r.status = .inmempool

instance (r : Row) : Decidable r.Live := inferInstanceAs (Decidable (_ ∨ _))

namespace Db

/-- A live row of the relayer holds the nonce. -/
def LiveAt (db : Db) (relayerId : RelayerId) (n : ℕ) : Prop :=
  ∃ r ∈ db.rows, r.relayerId = relayerId ∧ r.Live ∧ r.nonce = n

instance (db : Db) (relayerId : RelayerId) (n : ℕ) : Decidable (db.LiveAt relayerId n) :=
  inferInstanceAs (Decidable (∃ r ∈ db.rows, _))

/-- Every nonce from `base` up to a live one is held by a live row. -/
def Contiguous (db : Db) (relayerId : RelayerId) (base : ℕ) : Prop :=
  ∀ r ∈ db.rows, r.relayerId = relayerId → r.Live →
    ∀ n ≤ r.nonce, base ≤ n → db.LiveAt relayerId n

instance (db : Db) (relayerId : RelayerId) (base : ℕ) : Decidable (db.Contiguous relayerId base) :=
  inferInstanceAs (Decidable (∀ r ∈ db.rows, _))

instance (db : Db) : Decidable db.PrimaryKey := inferInstanceAs (Decidable (List.Nodup _))

/-- The same rows in the same order, as far as their ids are concerned. -/
def SameIds (db db' : Db) : Prop := db'.rows.map (·.id) = db.rows.map (·.id)

theorem SameIds.trans {db db' db'' : Db} (h : db.SameIds db') (h' : db'.SameIds db'') :
    db.SameIds db'' := Eq.trans h' h

theorem SameIds.primaryKey {db db' : Db} (h : db.SameIds db') (hkey : db.PrimaryKey) :
    db'.PrimaryKey := by
  unfold PrimaryKey
  rw [h]
  exact hkey

theorem sameIds_map {db : Db} {g : Row → Row} {audit : List Row} (hg : ∀ r, (g r).id = r.id) :
    db.SameIds ⟨db.rows.map g, audit⟩ := by
  unfold SameIds
  rw [List.map_map]
  exact List.map_congr_left fun r _ => hg r

theorem update_sameIds (db : Db) (x : TransactionId) {f g : Row → Row} (hf : ∀ r, (f r).id = r.id) :
    db.SameIds ((db.update x f).log x g) := by
  refine sameIds_map fun r => ?_
  split
  · exact hf r
  · rfl

theorem repairPoisoned_sameIds (db : Db) (relayerId : RelayerId) :
    db.SameIds (db.repairPoisonedPendingTransactionsForRelayer relayerId) := by
  refine sameIds_map fun r => ?_
  split <;> rfl

/-- Rows and log of a transaction are the same in both databases. -/
structure Untouched (x : TransactionId) (db db' : Db) : Prop where
  rows : db'.rows.filter (·.id == x) = db.rows.filter (·.id == x)
  audit : db'.audit.filter (·.id == x) = db.audit.filter (·.id == x)

theorem Untouched.attempts {x : TransactionId} {db db' : Db} (h : Untouched x db db') :
    db'.getRecordedTransactionAttempts x = db.getRecordedTransactionAttempts x := by
  unfold getRecordedTransactionAttempts
  rw [h.rows, h.audit]

theorem Untouched.row {x : TransactionId} {db db' : Db} (h : Untouched x db db') :
    db'.row x = db.row x := by
  unfold Db.row
  rw [← List.head?_filter, ← List.head?_filter, h.rows]

theorem Untouched.trans {x : TransactionId} {db db' db'' : Db} (h : Untouched x db db')
    (h' : Untouched x db' db'') : Untouched x db db'' :=
  ⟨h'.rows.trans h.rows, h'.audit.trans h.audit⟩

/-- The poisoned repair touches poisoned rows only. -/
theorem repairPoisoned_untouched {db : Db} (relayerId : RelayerId) (hkey : db.PrimaryKey)
    {x : TransactionId} {r : Row} (hr : db.row x = some r) (hp : poisoned relayerId r = false) :
    Untouched x db (db.repairPoisonedPendingTransactionsForRelayer relayerId) := by
  have hown : ∀ s ∈ db.rows, s.id = x → poisoned relayerId s = false := by
    intro s hs hid
    have hsx := row_of_mem hkey hs
    rw [hid, hr] at hsx
    rw [← Option.some.inj hsx]
    exact hp
  constructor
  · refine filter_map_eq fun s hs hid => ?_
    have hid : s.id = x := by
      rcases hid with hid | hid
      · simpa using hid
      · split at hid <;> simpa using hid
    rw [if_neg (by rw [hown s hs hid]; exact Bool.false_ne_true)]
  · refine filter_append_of_ne fun s hs hid => ?_
    obtain ⟨s₀, hs₀, rfl⟩ := List.mem_map.mp hs
    obtain ⟨hmem, hpoisoned⟩ := List.mem_filter.mp hs₀
    rw [hown s₀ hmem hid] at hpoisoned
    cases hpoisoned

theorem evidence_sent {relayerId : RelayerId} {r : Row} (h : hasAttemptEvidence relayerId r = true) :
    r.sentAt.isSome = true := by
  unfold hasAttemptEvidence at h
  simp only [Bool.and_eq_true] at h
  exact h.1.1.2

/-- Poisoned rows have no attempt evidence, so the candidates are those before the repair. -/
theorem candidates_repairPoisoned (db : Db) (relayerId : RelayerId) :
    (db.repairPoisonedPendingTransactionsForRelayer
      relayerId).getPendingTransactionsWithAttemptEvidenceForRelayer relayerId =
    db.getPendingTransactionsWithAttemptEvidenceForRelayer relayerId := by
  unfold getPendingTransactionsWithAttemptEvidenceForRelayer
    repairPoisonedPendingTransactionsForRelayer
  dsimp only
  rw [filter_map_eq]
  intro r _ hevidence
  by_cases hp : poisoned relayerId r = true
  · rw [if_pos hp] at hevidence
    have hsent : r.sentAt.isSome = true := hevidence.elim evidence_sent evidence_sent
    unfold poisoned at hp
    simp only [Bool.and_eq_true, Option.isNone_iff_eq_none] at hp
    rw [hp.2] at hsent
    cases hsent
  · rw [if_neg hp]

theorem mem_candidates {db : Db} {relayerId : RelayerId} {t : Transaction} :
    t ∈ db.getPendingTransactionsWithAttemptEvidenceForRelayer relayerId ↔
      ∃ r ∈ db.rows, hasAttemptEvidence relayerId r = true ∧ r.toTransaction = t := by
  unfold getPendingTransactionsWithAttemptEvidenceForRelayer orderByNonce
  simp only [List.mem_map, List.mem_insertionSort, List.mem_filter, and_assoc]

theorem candidates_nodup {db : Db} (hkey : db.PrimaryKey) (relayerId : RelayerId) :
    ((db.getPendingTransactionsWithAttemptEvidenceForRelayer relayerId).map (·.id)).Nodup := by
  unfold getPendingTransactionsWithAttemptEvidenceForRelayer orderByNonce
  rw [List.map_map]
  have hperm := (List.perm_insertionSort (fun a b : Row => a.nonce ≤ b.nonce)
    (db.rows.filter (hasAttemptEvidence relayerId))).map fun r : Row => r.id
  refine hperm.nodup_iff.mpr ?_
  exact List.Nodup.sublist (List.filter_sublist.map _) hkey

end Db

section Repair

variable {relayer : Relayer} {env : StartupEnv} {chainNonce : ℕ} {db : Db}

theorem repairCandidates_sameIds (ts : List Transaction) :
    db.SameIds (repairCandidates relayer env chainNonce db ts).1 := by
  have hone (db : Db) (t : Transaction) :
      db.SameIds (repairCandidate relayer env chainNonce db t).1 := by
    have hrecover (hash : TransactionHash) (gas : GasPriceResult)
        (blobGas : Option BlobGasPriceResult) (legacy : Bool) (now : DateTime) :
        db.SameIds (db.recoverLandedTransactionAttempt relayer.id t.id hash gas blobGas legacy
          now).2 := by
      unfold Db.recoverLandedTransactionAttempt
      dsimp only
      split
      · split
        · exact Db.update_sameIds db t.id fun _ => rfl
        · rfl
      · rfl
    unfold repairCandidate
    split
    · rfl
    · dsimp only
      split
      · rfl
      · split
        · rfl
        · split <;> rfl
        · split
          · rfl
          · split
            · rfl
            · rename_i attempt _ _ gas _ _
              have hserved := hrecover attempt.hash gas attempt.sentWithBlobGas
                (!relayer.eip1559Enabled) env.nowRepair
              split
              · rename_i heq
                rw [heq] at hserved
                exact hserved
              · rename_i heq
                rw [heq] at hserved
                exact hserved
  induction ts generalizing db with
  | nil => rfl
  | cons t ts ih =>
    have hfirst := hone db t
    unfold repairCandidates
    split
    · rename_i heq
      rw [heq] at hfirst
      exact hfirst
    · rename_i db₁ absent heq
      rw [heq] at hfirst
      have hrest := @ih db₁
      split
      · rename_i heq'
        rw [heq'] at hrest
        exact hfirst.trans hrest
      · rename_i heq'
        rw [heq'] at hrest
        exact hfirst.trans hrest

theorem AbsentEverywhere.unknown {clients : List RpcClient}
    {attempts : List RecordedTransactionAttempt} (h : AbsentEverywhere clients attempts) :
    ∀ a ∈ attempts, ¬ Known clients a.hash := by
  rintro a ha ⟨c, hc, hknown⟩
  rw [h.absent a ha c hc] at hknown
  cases hknown

/-- A transaction no provider knows is left alone by the repair of the candidates. -/
theorem repairCandidates_untouched (relayer : Relayer) (chainNonce : ℕ) {x : TransactionId}
    (ts : List Transaction)
    (h : ∀ a ∈ db.getRecordedTransactionAttempts x, ¬ Known env.clients a.hash) :
    Db.Untouched x db (repairCandidates relayer env chainNonce db ts).1 := by
  have hone {db : Db} (t : Transaction)
      (h : ∀ a ∈ db.getRecordedTransactionAttempts x, ¬ Known env.clients a.hash) :
      Db.Untouched x db (repairCandidate relayer env chainNonce db t).1 := by
    by_cases hid : t.id = x
    · have hsame : (repairCandidate relayer env chainNonce db t).1 = db := by
        unfold repairCandidate
        split
        · rfl
        · dsimp only
          split
          · rfl
          · split
            · rfl
            · split
              · rfl
              · rfl
            · rename_i attempt hlanded
              obtain ⟨hrecorded, hknown⟩ := landed_found hlanded
              rw [hid] at hrecorded
              exact absurd hknown (h attempt hrecorded)
      rw [hsame]
      exact ⟨rfl, rfl⟩
    · have hwithin := repairCandidate_within relayer env chainNonce db t
      have hne : ∀ n : ℕ, ¬ (fun y (_ : ℕ) => y = t.id) x n := fun _ heq => hid heq.symm
      exact ⟨hwithin.rowsFrame x hne, hwithin.auditFrame x hne⟩
  induction ts generalizing db with
  | nil => exact ⟨rfl, rfl⟩
  | cons t ts ih =>
    have hfirst := hone t h
    unfold repairCandidates
    split
    · rename_i heq
      rw [heq] at hfirst
      exact hfirst
    · rename_i db₁ absent heq
      rw [heq] at hfirst
      have hrest := @ih db₁ (hfirst.attempts.symm ▸ h)
      split
      · rename_i heq'
        rw [heq'] at hrest
        exact hfirst.trans hrest
      · rename_i heq'
        rw [heq'] at hrest
        exact hfirst.trans hrest

/-- The startup repairs fail the row: it failed before it was ever sent, or every candidate was
checked and no provider knows an attempt of this one, whose nonce is off the chain's. -/
inductive Terminalised (relayer : Relayer) (env : StartupEnv) (db : Db) (r : Row) : Prop where
  | poisoned (hserved : env.repairPoisoned = true) (h : Db.poisoned relayer.id r = true)
  | absent {chainNonce : ℕ} (hserved : env.repairPoisoned = true)
      (hnonce : pendingNonceAcrossClients env.clients = .ok chainNonce)
      (hcandidates : env.loadCandidates = true)
      (hchecked : ∀ s ∈ db.rows, Db.hasAttemptEvidence relayer.id s = true →
        CandidateChecked relayer env db s.id)
      (hwrite : env.repairAbsent = true)
      (hevidence : Db.hasAttemptEvidence relayer.id r = true) (hoff : r.nonce ≠ chainNonce)
      (hloaded : env.loadAttempts r.id = true)
      (hattempts : AbsentEverywhere env.clients (db.getRecordedTransactionAttempts r.id))

theorem Db.evidence_not_poisoned {relayerId : RelayerId} {r : Row}
    (h : Db.hasAttemptEvidence relayerId r = true) : Db.poisoned relayerId r = false := by
  have hsent := Db.evidence_sent h
  unfold Db.poisoned
  rcases hs : r.sentAt with _ | sentAt
  · rw [hs] at hsent
    cases hsent
  · simp

theorem nonCurrentNonce_of_evidence {relayerId : RelayerId} {r : Row}
    (h : Db.hasAttemptEvidence relayerId r = true) :
    (nonCurrentNoncePendingRepairHash r.toTransaction chainNonce).isSome = true ↔
      r.nonce ≠ chainNonce := by
  unfold Db.hasAttemptEvidence at h
  simp only [Bool.and_eq_true] at h
  obtain ⟨⟨⟨⟨-, hstatus⟩, hsent⟩, -⟩, hhash⟩ := h
  unfold nonCurrentNoncePendingRepairHash
  by_cases hoff : r.nonce = chainNonce
  · simp [hoff]
  · simp [hstatus, hsent, hhash, hoff]

/-- On a row with evidence, being checked absent and being terminalised differ only in whether the
repair comes to an end. -/
theorem checkedAbsent_iff (hkey : db.PrimaryKey) {r : Row} (hr : r ∈ db.rows)
    (hevidence : Db.hasAttemptEvidence relayer.id r = true) :
    CheckedAbsent env chainNonce (db.repairPoisonedPendingTransactionsForRelayer relayer.id)
        r.toTransaction ↔
      env.loadAttempts r.id = true ∧
        AbsentEverywhere env.clients (db.getRecordedTransactionAttempts r.id) ∧
          r.nonce ≠ chainNonce := by
  have huntouched := Db.repairPoisoned_untouched relayer.id hkey (Db.row_of_mem hkey hr)
    (Db.evidence_not_poisoned hevidence)
  rw [← nonCurrentNonce_of_evidence hevidence, ← huntouched.attempts]
  exact ⟨fun ⟨h₁, h₂, h₃⟩ => ⟨h₁, h₂, h₃⟩, fun ⟨h₁, h₂, h₃⟩ => ⟨h₁, h₂, h₃⟩⟩

/-- The candidates' checks give the same answers before and after the poisoned repair. -/
theorem repairCandidates_ok_iff_checked (hkey : db.PrimaryKey) :
    (∃ absent, (repairCandidates relayer env chainNonce
        (db.repairPoisonedPendingTransactionsForRelayer relayer.id)
        (db.getPendingTransactionsWithAttemptEvidenceForRelayer relayer.id)).2 = .ok absent) ↔
      ∀ r ∈ db.rows, Db.hasAttemptEvidence relayer.id r = true →
        CandidateChecked relayer env db r.id := by
  rw [repairCandidates_ok_iff (Db.candidates_nodup hkey relayer.id)]
  have hone {r : Row} (hr : r ∈ db.rows) (hevidence : Db.hasAttemptEvidence relayer.id r = true) :
      (∃ absent, (repairCandidate relayer env chainNonce
          (db.repairPoisonedPendingTransactionsForRelayer relayer.id) r.toTransaction).2 =
            .ok absent) ↔ CandidateChecked relayer env db r.id := by
    have huntouched := Db.repairPoisoned_untouched relayer.id hkey (Db.row_of_mem hkey hr)
      (Db.evidence_not_poisoned hevidence)
    rw [repairCandidate_congr relayer env chainNonce huntouched.rows huntouched.audit]
    exact repairCandidate_ok_iff ..
  constructor
  · intro hall r hr hevidence
    exact (hone hr hevidence).mp (hall _ (Db.mem_candidates.mpr ⟨r, hr, hevidence, rfl⟩))
  · intro hall t ht
    obtain ⟨r, hr, hevidence, rfl⟩ := Db.mem_candidates.mp ht
    exact (hone hr hevidence).mpr (hall r hr hevidence)

/-- What a row becomes: it stays where it is, and stays live unless it is terminalised. -/
structure Fate (terminalised : Prop) (r r' : Row) : Prop where
  id : r'.id = r.id
  relayerId : r'.relayerId = r.relayerId
  nonce : r'.nonce = r.nonce
  live : r'.Live ↔ r.Live ∧ ¬ terminalised

theorem Fate.of_kept {terminalised : Prop} {r r' : Row} (h : Db.Kept (some r) (some r'))
    (hnot : r.Live → ¬ terminalised) : Fate terminalised r r' := by
  rcases h with heq | ⟨s, s', hs, hs', hrec⟩
  · obtain rfl := Option.some.inj heq
    exact ⟨rfl, rfl, rfl, fun hlive => ⟨hlive, hnot hlive⟩, And.left⟩
  · obtain rfl := Option.some.inj hs
    obtain rfl := Option.some.inj hs'
    have hlive : r.Live := .inl hrec.pending
    exact ⟨hrec.id, hrec.relayerId, hrec.nonce, fun _ => ⟨hlive, hnot hlive⟩,
      fun _ => .inr hrec.inmempool⟩

/-- A failed row is no longer live. -/
theorem Fate.of_failed {terminalised : Prop} {r r' : Row} (hid : r'.id = r.id)
    (hrelayer : r'.relayerId = r.relayerId) (hnonce : r'.nonce = r.nonce)
    (hfailed : r'.status = .failed) (h : terminalised) : Fate terminalised r r' := by
  refine ⟨hid, hrelayer, hnonce, fun hlive => ?_, fun hlive => absurd h hlive.2⟩
  rcases hlive with hlive | hlive <;> rw [hfailed] at hlive <;> cases hlive

theorem Fate.exists_of_kept {terminalised : Prop} {r : Row} {o' : Option Row}
    (h : Db.Kept (some r) o') (hnot : r.Live → ¬ terminalised) :
    ∃ r', o' = some r' ∧ Fate terminalised r r' := by
  have hexists : ∃ r', o' = some r' := by
    rcases h with rfl | ⟨s, s', -, rfl, -⟩
    · exact ⟨r, rfl⟩
    · exact ⟨s', rfl⟩
  obtain ⟨r', rfl⟩ := hexists
  exact ⟨r', rfl, .of_kept h hnot⟩

/-- The database once the candidates have been repaired. -/
def afterCandidates (relayer : Relayer) (env : StartupEnv) (chainNonce : ℕ) (db : Db) :
    Db × Except RepairRecordedAttemptsError AbsentTransactions :=
  repairCandidates relayer env chainNonce (db.repairPoisonedPendingTransactionsForRelayer relayer.id)
    (db.getPendingTransactionsWithAttemptEvidenceForRelayer relayer.id)

/-- The repair of the recorded attempts comes to its end. -/
structure Finished (relayer : Relayer) (env : StartupEnv) (db : Db) (chainNonce : ℕ)
    (absent : AbsentTransactions) : Prop where
  nonce : pendingNonceAcrossClients env.clients = .ok chainNonce
  loaded : env.loadCandidates = true
  checked : (afterCandidates relayer env chainNonce db).2 = .ok absent
  written : absent = [] ∨ env.repairAbsent = true

/-- Short of its end the repair fails no row; at its end it fails the absent ones. -/
theorem startupRepair_cases (relayer : Relayer) (env : StartupEnv) (db : Db)
    (hserved : env.repairPoisoned = true) :
    ((∀ x, Db.Kept ((db.repairPoisonedPendingTransactionsForRelayer relayer.id).row x)
        ((startupRepair relayer env db).1.row x)) ∧
      ∀ chainNonce absent, ¬ Finished relayer env db chainNonce absent) ∨
    ∃ chainNonce absent, Finished relayer env db chainNonce absent ∧
      (startupRepair relayer env db).1 =
        (afterCandidates relayer env chainNonce db).1.repairAbsentPendingTransactionsForRelayer
          relayer.id chainNonce absent absentRepairReason env.nowRepair := by
  have hkept (chainNonce : ℕ) (x : TransactionId) :
      Db.Kept ((db.repairPoisonedPendingTransactionsForRelayer relayer.id).row x)
        ((afterCandidates relayer env chainNonce db).1.row x) := repairCandidates_kept ..
  unfold startupRepair repairRecordedAttemptsForRelayer
  rw [if_neg (by simpa using hserved), db.candidates_repairPoisoned relayer.id]
  rcases hnonce : pendingNonceAcrossClients env.clients with e | chainNonce
  · refine .inl ⟨fun x => .inl rfl, fun c absent hfin => ?_⟩
    rw [hfin.nonce] at hnonce
    cases hnonce
  dsimp only
  by_cases hloaded : env.loadCandidates = true
  swap
  · rw [if_pos (by simpa using hloaded)]
    exact .inl ⟨fun x => .inl rfl, fun c absent hfin => hloaded hfin.loaded⟩
  rw [if_neg (by simpa using hloaded)]
  have hnonceEq {c : ℕ} {absent : AbsentTransactions} (hfin : Finished relayer env db c absent) :
      c = chainNonce := Except.ok.inj (hfin.nonce.symm.trans hnonce)
  have hafter := hkept chainNonce
  show (_ ∧ _) ∨ _
  rcases hcandidates : afterCandidates relayer env chainNonce db with ⟨db₂, e | absent⟩
  · have hcandidates' := hcandidates
    unfold afterCandidates at hcandidates'
    rw [hcandidates] at hafter
    rw [hcandidates']
    refine .inl ⟨hafter, fun c absent hfin => ?_⟩
    have hchecked := hfin.checked
    rw [hnonceEq hfin, hcandidates] at hchecked
    cases hchecked
  · have hcandidates' := hcandidates
    unfold afterCandidates at hcandidates'
    rw [hcandidates] at hafter
    rw [hcandidates']
    dsimp only
    by_cases hempty : absent = []
    · subst hempty
      refine .inr ⟨chainNonce, [], ⟨hnonce, hloaded, by rw [hcandidates], .inl rfl⟩, ?_⟩
      rw [hcandidates]
      rfl
    · rw [if_neg (by simpa using hempty)]
      by_cases hwrite : env.repairAbsent = true
      · rw [if_neg (by simpa using hwrite)]
        refine .inr ⟨chainNonce, absent, ⟨hnonce, hloaded, by rw [hcandidates], .inr hwrite⟩, ?_⟩
        rw [hcandidates]
      · rw [if_pos (by simpa using hwrite)]
        refine .inl ⟨hafter, fun c absent' hfin => ?_⟩
        have hchecked := hfin.checked
        rw [hnonceEq hfin, hcandidates] at hchecked
        obtain rfl : absent = absent' := Except.ok.inj hchecked
        exact hfin.written.elim hempty hwrite

/-- Whoever the repair lists as absent was checked and is off the chain nonce. -/
theorem Finished.mem_absent {absent : AbsentTransactions} (hkey : db.PrimaryKey)
    (h : Finished relayer env db chainNonce absent) {x : TransactionId}
    {hashes : List TransactionHash} :
    (x, hashes) ∈ absent ↔ ∃ r ∈ db.rows, r.id = x ∧ Db.hasAttemptEvidence relayer.id r = true ∧
      env.loadAttempts r.id = true ∧
      AbsentEverywhere env.clients (db.getRecordedTransactionAttempts r.id) ∧
      r.nonce ≠ chainNonce ∧ hashes = (db.getRecordedTransactionAttempts x).map (·.hash) := by
  rw [repairCandidates_absent (Db.candidates_nodup hkey relayer.id) h.checked]
  have huntouched {r : Row} (hr : r ∈ db.rows)
      (hevidence : Db.hasAttemptEvidence relayer.id r = true) :=
    Db.repairPoisoned_untouched relayer.id hkey (Db.row_of_mem hkey hr)
      (Db.evidence_not_poisoned hevidence)
  constructor
  · rintro ⟨t, ht, rfl, habsent, rfl⟩
    obtain ⟨r, hr, hevidence, rfl⟩ := Db.mem_candidates.mp ht
    obtain ⟨hload, hall, hoff⟩ := (checkedAbsent_iff hkey hr hevidence).mp habsent
    exact ⟨r, hr, rfl, hevidence, hload, hall, hoff, by rw [(huntouched hr hevidence).attempts]⟩
  · rintro ⟨r, hr, rfl, hevidence, hload, hall, hoff, rfl⟩
    exact ⟨r.toTransaction, Db.mem_candidates.mpr ⟨r, hr, hevidence, rfl⟩, rfl,
      (checkedAbsent_iff hkey hr hevidence).mpr ⟨hload, hall, hoff⟩,
      by rw [(huntouched hr hevidence).attempts]⟩

theorem Finished.absent_nodup {absent : AbsentTransactions} (hkey : db.PrimaryKey)
    (h : Finished relayer env db chainNonce absent) : (absent.map (·.1)).Nodup :=
  List.Nodup.sublist (repairCandidates_absent_sublist h.checked)
    (Db.candidates_nodup hkey relayer.id)

/-- A chain nonce and a list of absent transactions are determined by the environment. -/
theorem Finished.unique {chainNonce' : ℕ} {absent absent' : AbsentTransactions}
    (h : Finished relayer env db chainNonce absent)
    (h' : Finished relayer env db chainNonce' absent') :
    chainNonce = chainNonce' ∧ absent = absent' := by
  obtain rfl : chainNonce = chainNonce' := Except.ok.inj (h.nonce.symm.trans h'.nonce)
  have hsame := h.checked.symm.trans h'.checked
  exact ⟨rfl, Except.ok.inj hsame⟩

/-- A poisoned row is failed at once, and no later statement finds it pending. -/
theorem startupRepair_row_poisoned {relayer : Relayer} {env : StartupEnv} (hkey : db.PrimaryKey)
    (hserved : env.repairPoisoned = true) {x : TransactionId} {r : Row} (hr : db.row x = some r)
    (hp : Db.poisoned relayer.id r = true) :
    ∃ r', (startupRepair relayer env db).1.row x = some r' ∧
      Fate (Terminalised relayer env db r) r r' := by
  have hrow := db.row_repairPoisoned relayer.id x
  rw [hr, Option.map_some, if_pos hp] at hrow
  have hfate {o' : Option Row} (hkept : Db.Kept
      ((db.repairPoisonedPendingTransactionsForRelayer relayer.id).row x) o') :
      ∃ r', o' = some r' ∧ Fate (Terminalised relayer env db r) r r' := by
    rw [hrow] at hkept
    rcases hkept with hsame | ⟨s, s', hs, -, hrec⟩
    · exact ⟨_, hsame, .of_failed rfl rfl rfl rfl (.poisoned hserved hp)⟩
    · obtain rfl := Option.some.inj hs
      cases hrec.pending
  rcases startupRepair_cases relayer env db hserved with ⟨hkept, -⟩ | ⟨c, absent, hfin, hdb⟩
  · exact hfate (hkept x)
  · have hnot : ∀ entry ∈ absent, entry.1 ≠ x := by
      rintro ⟨y, hashes⟩ hentry rfl
      obtain ⟨s, hs, hsid, hevidence, -⟩ := (hfin.mem_absent hkey).mp hentry
      have hsame : db.row y = some s := hsid ▸ Db.row_of_mem hkey hs
      obtain rfl := Option.some.inj (hr.symm.trans hsame)
      rw [Db.evidence_not_poisoned hevidence] at hp
      cases hp
    rw [hdb, repairAbsent_row_of_not_mem _ _ _ _ hnot]
    exact hfate (repairCandidates_kept ..)

/-- A row that is terminalised without being poisoned is on the list of a finished check. -/
theorem Terminalised.listed {relayer : Relayer} {env : StartupEnv} (hkey : db.PrimaryKey)
    {x : TransactionId} {r : Row} (hr : db.row x = some r)
    (hp : ¬Db.poisoned relayer.id r = true) (h : Terminalised relayer env db r) :
    ∃ c absent, Finished relayer env db c absent ∧
      (x, (db.getRecordedTransactionAttempts x).map (·.hash)) ∈ absent := by
  cases h with
  | poisoned _ h => exact absurd h hp
  | @absent c _ hnonce hcandidates hchecked hwrite hevidence hoff hloaded hattempts =>
    obtain ⟨absent, hok⟩ := (repairCandidates_ok_iff_checked hkey).mpr hchecked
    have hfin : Finished relayer env db c absent := ⟨hnonce, hcandidates, hok, .inr hwrite⟩
    exact ⟨c, absent, hfin, (hfin.mem_absent hkey).mpr ⟨r, Db.mem_of_row hr, Db.row_id hr,
      hevidence, hloaded, hattempts, hoff, rfl⟩⟩

/-- No provider knows an attempt of a listed row, so it is as before when the absent are failed. -/
theorem Finished.row_listed {relayer : Relayer} {env : StartupEnv} {c : ℕ}
    {absent : AbsentTransactions} (hfin : Finished relayer env db c absent) (hkey : db.PrimaryKey)
    (hserved : env.repairPoisoned = true) {x : TransactionId} {hashes : List TransactionHash}
    {r : Row} (hr : db.row x = some r) (hlisted : (x, hashes) ∈ absent) :
    ∃ r', ((afterCandidates relayer env c db).1.repairAbsentPendingTransactionsForRelayer
        relayer.id c absent absentRepairReason env.nowRepair).row x = some r' ∧
      Fate (Terminalised relayer env db r) r r' := by
  obtain ⟨s, hs, hsid, hevidence, hload, hattempts, hoff, rfl⟩ := (hfin.mem_absent hkey).mp hlisted
  have hid : r.id = x := Db.row_id hr
  have hsame : db.row x = some s := hsid ▸ Db.row_of_mem hkey hs
  obtain rfl := Option.some.inj (hr.symm.trans hsame)
  have huntouched := Db.repairPoisoned_untouched relayer.id hkey hr
    (Db.evidence_not_poisoned hevidence)
  have huntouched₂ := huntouched.trans (repairCandidates_untouched relayer c
    (db.getPendingTransactionsWithAttemptEvidenceForRelayer relayer.id)
    (huntouched.attempts.symm ▸ hid ▸ hattempts.unknown))
  have hguard := absentGuard_of_evidence hs hevidence hoff
  rw [hid, ← absentGuard_congr (hid.symm ▸ huntouched₂.audit)] at hguard
  have hfailed := repairAbsent_row_of_mem absentRepairReason env.nowRepair
    (hfin.absent_nodup hkey) hlisted (huntouched₂.row.trans hr) hguard
  refine ⟨_, hfailed, .of_failed rfl rfl rfl rfl ?_⟩
  have hwrite : env.repairAbsent = true := by
    rcases hfin.written with rfl | hwrite
    · cases hlisted
    · exact hwrite
  have hchecked := (repairCandidates_ok_iff_checked hkey).mp ⟨absent, hfin.checked⟩
  exact .absent hserved hfin.nonce hfin.loaded hchecked hwrite hevidence hoff hload hattempts

/-- Every row after the startup repairs is the fate of the row it was before. -/
theorem startupRepair_row (relayer : Relayer) (env : StartupEnv) (hkey : db.PrimaryKey)
    {x : TransactionId} {r : Row} (hr : db.row x = some r) :
    ∃ r', (startupRepair relayer env db).1.row x = some r' ∧
      Fate (Terminalised relayer env db r) r r' := by
  by_cases hserved : env.repairPoisoned = true
  swap
  · have hsame : (startupRepair relayer env db).1 = db := by
      unfold startupRepair
      rw [if_pos (by simpa using hserved)]
    rw [hsame]
    refine ⟨r, hr, .of_kept (.inl rfl) fun _ hterm => ?_⟩
    cases hterm with
    | poisoned h | absent h => exact hserved h
  by_cases hp : Db.poisoned relayer.id r = true
  · exact startupRepair_row_poisoned hkey hserved hr hp
  · have hrow := db.row_repairPoisoned relayer.id x
    rw [hr, Option.map_some, if_neg hp] at hrow
    rcases startupRepair_cases relayer env db hserved with
      ⟨hkept, hunfinished⟩ | ⟨c, absent, hfin, hdb⟩
    · have hkept := hkept x
      rw [hrow] at hkept
      refine Fate.exists_of_kept hkept fun _ h => ?_
      obtain ⟨c, absent, hfin, -⟩ := h.listed hkey hr hp
      exact hunfinished c absent hfin
    · rw [hdb]
      by_cases hlisted : ∃ hashes, (x, hashes) ∈ absent
      · obtain ⟨hashes, hlisted⟩ := hlisted
        exact hfin.row_listed hkey hserved hr hlisted
      · have hnot : ∀ entry ∈ absent, entry.1 ≠ x := fun entry hentry heq =>
          hlisted ⟨entry.2, heq ▸ hentry⟩
        rw [repairAbsent_row_of_not_mem _ _ _ _ hnot]
        have hkept : Db.Kept (some r) ((afterCandidates relayer env c db).1.row x) := by
          rw [← hrow]
          exact repairCandidates_kept ..
        refine Fate.exists_of_kept hkept fun _ h => ?_
        obtain ⟨c', absent', hfin', hmem⟩ := h.listed hkey hr hp
        obtain ⟨rfl, rfl⟩ := hfin.unique hfin'
        exact hlisted ⟨_, hmem⟩

theorem startupRepair_sameIds (relayer : Relayer) (env : StartupEnv) (db : Db) :
    db.SameIds (startupRepair relayer env db).1 := by
  have habsent (db : Db) (chainNonce : ℕ) (absent : AbsentTransactions) :
      db.SameIds (db.repairAbsentPendingTransactionsForRelayer relayer.id chainNonce absent
        absentRepairReason env.nowRepair) := by
    unfold Db.repairAbsentPendingTransactionsForRelayer
    induction absent generalizing db with
    | nil => rfl
    | cons entry absent ih =>
      refine Db.SameIds.trans ?_ (ih _)
      unfold Db.repairAbsentOne
      dsimp only
      split
      · split
        · exact Db.update_sameIds db entry.1 fun _ => rfl
        · rfl
      · rfl
  by_cases hserved : env.repairPoisoned = true
  · have hpoisoned := db.repairPoisoned_sameIds relayer.id
    unfold startupRepair repairRecordedAttemptsForRelayer
    rw [if_neg (by simpa using hserved), db.candidates_repairPoisoned relayer.id]
    rcases pendingNonceAcrossClients env.clients with e | chainNonce
    · exact hpoisoned
    dsimp only
    by_cases hloaded : env.loadCandidates = true
    swap
    · rw [if_pos (by simpa using hloaded)]
      exact hpoisoned
    rw [if_neg (by simpa using hloaded)]
    have hcandidates : db.SameIds (afterCandidates relayer env chainNonce db).1 :=
      hpoisoned.trans (repairCandidates_sameIds _)
    unfold afterCandidates at hcandidates
    split
    · rename_i heq
      split at heq
      · rename_i heq'
        rw [heq'] at hcandidates
        cases heq
        exact hcandidates
      · rename_i heq'
        rw [heq'] at hcandidates
        split at heq
        · cases heq
        · split at heq
          · cases heq
            exact hcandidates
          · cases heq
    · rename_i heq
      split at heq
      · cases heq
      · rename_i heq'
        rw [heq'] at hcandidates
        split at heq
        · cases heq
          exact hcandidates
        · split at heq
          · cases heq
          · cases heq
            exact hcandidates.trans (habsent ..)
  · unfold startupRepair
    rw [if_pos (by simpa using hserved)]
    rfl

end Repair

end Rrelayer
