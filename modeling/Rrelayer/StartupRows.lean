import Rrelayer.LandedAttempts

/-! What the startup repairs do to each row. -/
namespace Rrelayer

namespace Db

theorem row_of_mem {db : Db} (h : db.PrimaryKey) {r : Row} (hr : r ∈ db.rows) :
    db.row r.id = some r := by
  obtain ⟨rows, audit⟩ := db
  change (rows.map (·.id)).Nodup at h
  change r ∈ rows at hr
  show rows.find? (·.id == r.id) = some r
  induction rows with
  | nil => cases hr
  | cons r₀ rs ih =>
    rw [List.map_cons, List.nodup_cons] at h
    rcases List.mem_cons.mp hr with rfl | hr
    · exact List.find?_cons_of_pos (p := fun s : Row => s.id == r.id) (by simp)
    · have hne : r₀.id ≠ r.id := fun heq => h.1 (heq ▸ List.mem_map_of_mem hr)
      rw [List.find?_cons_of_neg (by simpa using hne)]
      exact ih h.2 hr

theorem mem_of_row {db : Db} {x : TransactionId} {r : Row} (h : db.row x = some r) : r ∈ db.rows :=
  List.mem_of_find?_eq_some h

/-- The first recording of a hash stays. -/
theorem mem_keepFirst {attempts : List RecordedTransactionAttempt} {a : RecordedTransactionAttempt}
    (h : a ∈ attempts) : ∃ b ∈ keepFirst attempts, b.hash = a.hash := by
  induction attempts with
  | nil => cases h
  | cons a₀ as ih =>
    rw [keepFirst]
    by_cases hash : a.hash = a₀.hash
    · exact ⟨a₀, List.mem_cons_self .., hash.symm⟩
    · have ha : a ∈ as := by
        rcases List.mem_cons.mp h with rfl | ha
        · exact absurd rfl hash
        · exact ha
      obtain ⟨b, hb, hbhash⟩ := ih ha
      refine ⟨b, List.mem_cons_of_mem _ (List.mem_filter.mpr ⟨hb, ?_⟩), hbhash⟩
      rw [hbhash]
      simpa using hash

/-- A row or a log entry with a hash and a send time is a recorded attempt. -/
theorem mem_recorded {db : Db} {x : TransactionId} {r : Row} {hash : TransactionHash}
    (hr : r ∈ db.rows ∨ r ∈ db.audit) (hid : r.id = x)
    (hhash : r.knownTransactionHash = some hash) (hsent : r.sentAt.isSome = true) :
    hash ∈ (db.getRecordedTransactionAttempts x).map (·.hash) := by
  obtain ⟨sentAt, hsentAt⟩ := Option.isSome_iff_exists.mp hsent
  have hattempt : attemptOf r = some ⟨hash, r.sentWithGas, r.sentWithBlobGas⟩ := by
    unfold attemptOf
    rw [hhash, hsentAt]
  have hmem : r ∈ db.audit.filter (·.id == x) ++ db.rows.filter (·.id == x) := by
    rcases hr with hr | hr
    · exact List.mem_append_right _ (List.mem_filter.mpr ⟨hr, by simpa using hid⟩)
    · exact List.mem_append_left _ (List.mem_filter.mpr ⟨hr, by simpa using hid⟩)
  obtain ⟨b, hb, hbhash⟩ := mem_keepFirst (List.mem_filterMap.mpr ⟨r, hmem, hattempt⟩)
  exact List.mem_map.mpr ⟨b, hb, hbhash⟩

theorem row_repairPoisoned (db : Db) (relayerId : RelayerId) (x : TransactionId) :
    (db.repairPoisonedPendingTransactionsForRelayer relayerId).row x =
      (db.row x).map fun r => if poisoned relayerId r then
        { r with
          status := .failed
          failedReason := r.failedReason.or (some poisonedReason) } else r := by
  unfold repairPoisonedPendingTransactionsForRelayer row
  rw [List.find?_map]
  congr 1
  refine congrArg (fun p => db.rows.find? p) (funext fun r => ?_)
  show ((if poisoned relayerId r then _ else r : Row).id == x) = (r.id == x)
  split <;> rfl

/-- The row of a transaction that a recovery has moved to the mempool. -/
structure Recovered (r r' : Row) : Prop where
  id : r'.id = r.id
  relayerId : r'.relayerId = r.relayerId
  nonce : r'.nonce = r.nonce
  pending : r.status = .pending
  unfailed : r.failedAt = none
  inmempool : r'.status = .inmempool

/-- The row is as before, or a recovery moved it. -/
def Kept (o o' : Option Row) : Prop := o' = o ∨ ∃ r r', o = some r ∧ o' = some r' ∧ Recovered r r'

theorem Kept.trans {o o' o'' : Option Row} (h : Kept o o') (h' : Kept o' o'') : Kept o o'' := by
  rcases h with rfl | ⟨r, r', hr, hr', hrec⟩
  · exact h'
  · rcases h' with rfl | ⟨s, s', hs, -, hrec'⟩
    · exact .inr ⟨r, r', hr, hr', hrec⟩
    · obtain rfl := Option.some.inj (hr'.symm.trans hs)
      have := hrec'.pending
      rw [hrec.inmempool] at this
      cases this

end Db

section Candidates

theorem repairCandidate_within (relayer : Relayer) (env : StartupEnv) (chainNonce : ℕ) (db : Db)
    (t : Transaction) :
    db.Within (fun x _ => x = t.id) (repairCandidate relayer env chainNonce db t).1 := by
  unfold repairCandidate
  split
  · exact .refl _
  · dsimp only
    split
    · exact .refl _
    · split
      · exact .refl _
      · split <;> exact .refl _
      · split
        · exact .refl _
        · split
          · exact .refl _
          · rename_i attempt _ _ gas _ _
            have hwithin : db.Within (fun x _ => x = t.id) (db.recoverLandedTransactionAttempt
                relayer.id t.id attempt.hash gas attempt.sentWithBlobGas (!relayer.eip1559Enabled)
                env.nowRepair).2 := Db.recoverLanded_within (n := 0) rfl
            split
            · rename_i heq
              rw [heq] at hwithin
              exact hwithin
            · rename_i heq
              rw [heq] at hwithin
              exact hwithin

/-- A landed recovery keeps every row but the one it moves to the mempool. -/
theorem recoverLanded_kept (db : Db) (relayerId : RelayerId) (id : TransactionId) (hash : TransactionHash)
    (gas : GasPriceResult) (blobGas : Option BlobGasPriceResult) (legacy : Bool) (now : DateTime)
    (x : TransactionId) :
    Db.Kept (db.row x)
      ((db.recoverLandedTransactionAttempt relayerId id hash gas blobGas legacy now).2.row x) := by
  unfold Db.recoverLandedTransactionAttempt
  dsimp only
  split
  · rename_i r hr
    split
    · rename_i hguard
      simp only [Bool.and_eq_true, beq_iff_eq, Option.isNone_iff_eq_none] at hguard
      obtain ⟨⟨⟨-, hstatus⟩, hfailed⟩, -⟩ := hguard
      by_cases hx : x = id
      · subst hx
        refine .inr ⟨r, _, hr, Db.row_update_self db (by intro; rfl) hr, ?_⟩
        exact ⟨rfl, rfl, rfl, hstatus, hfailed, rfl⟩
      · refine .inl ?_
        rw [Db.row_log, Db.row_update]
        · rcases hrow : db.row x with _ | r₀
          · rfl
          · have hne : r₀.id ≠ id := by rw [Db.row_id hrow]; exact hx
            simp [hne]
        · intro r
          rfl
    · exact .inl rfl
  · exact .inl rfl

theorem repairCandidate_kept (relayer : Relayer) (env : StartupEnv) (chainNonce : ℕ) (db : Db)
    (t : Transaction) (x : TransactionId) :
    Db.Kept (db.row x) ((repairCandidate relayer env chainNonce db t).1.row x) := by
  unfold repairCandidate
  split
  · exact .inl rfl
  · dsimp only
    split
    · exact .inl rfl
    · split
      · exact .inl rfl
      · split <;> exact .inl rfl
      · split
        · exact .inl rfl
        · split
          · exact .inl rfl
          · rename_i attempt _ _ gas _ _
            have hkept := recoverLanded_kept db relayer.id t.id attempt.hash gas
              attempt.sentWithBlobGas (!relayer.eip1559Enabled) env.nowRepair x
            split
            · rename_i heq
              rw [heq] at hkept
              exact hkept
            · rename_i heq
              rw [heq] at hkept
              exact hkept

theorem repairCandidates_kept (relayer : Relayer) (env : StartupEnv) (chainNonce : ℕ) (db : Db)
    (ts : List Transaction) (x : TransactionId) :
    Db.Kept (db.row x) ((repairCandidates relayer env chainNonce db ts).1.row x) := by
  induction ts generalizing db with
  | nil => exact .inl rfl
  | cons t ts ih =>
    have hfirst := repairCandidate_kept relayer env chainNonce db t x
    unfold repairCandidates
    split
    · rename_i heq
      rw [heq] at hfirst
      exact hfirst
    · rename_i db₁ absent heq
      rw [heq] at hfirst
      have hrest := ih db₁
      split
      · rename_i heq'
        rw [heq'] at hrest
        exact hfirst.trans hrest
      · rename_i heq'
        rw [heq'] at hrest
        exact hfirst.trans hrest

/-- The candidate is absent: no provider knows an attempt of it, and it is off the chain nonce. -/
structure CheckedAbsent (env : StartupEnv) (chainNonce : ℕ) (db : Db) (t : Transaction) : Prop where
  loaded : env.loadAttempts t.id = true
  attempts : AbsentEverywhere env.clients (db.getRecordedTransactionAttempts t.id)
  evidence : (nonCurrentNoncePendingRepairHash t chainNonce).isSome = true

theorem findLandedAttempt_of_absent {clients : List RpcClient}
    {attempts : List RecordedTransactionAttempt} (h : AbsentEverywhere clients attempts) :
    findLandedAttempt clients attempts = .ok none :=
  findLandedLoop_none.mpr fun a ha =>
    transactionExists_false.mpr ⟨h.providers, h.absent a ha⟩

/-- The check of a candidate ends well: its attempts are read, and either no provider knows one of
them or the first known one is written. -/
def CandidateChecked (relayer : Relayer) (env : StartupEnv) (db : Db) (id : TransactionId) : Prop :=
  env.loadAttempts id = true ∧
    (AbsentEverywhere env.clients (db.getRecordedTransactionAttempts id) ∨
      ∃ a, RepairWritesAttempt relayer env db id a)

theorem repairCandidate_ok_iff (relayer : Relayer) (env : StartupEnv) (chainNonce : ℕ) (db : Db)
    (t : Transaction) :
    (∃ absent, (repairCandidate relayer env chainNonce db t).2 = .ok absent) ↔
      CandidateChecked relayer env db t.id := by
  unfold repairCandidate CandidateChecked
  by_cases hload : env.loadAttempts t.id = true
  swap
  · simp [hload]
  by_cases hempty : db.getRecordedTransactionAttempts t.id = []
  · have hnotabsent : ¬ AbsentEverywhere env.clients (db.getRecordedTransactionAttempts t.id) :=
      fun habsent => habsent.recorded hempty
    rw [hempty] at hnotabsent
    have hnotwritten : ¬ ∃ a, RepairWritesAttempt relayer env db t.id a := by
      rintro ⟨a, ha⟩
      have hfirst := ha.first
      rw [hempty] at hfirst
      cases hfirst
    simp [hload, hempty, hnotabsent, hnotwritten]
  have hnonempty : (db.getRecordedTransactionAttempts t.id).isEmpty = false :=
    List.isEmpty_eq_false_iff.mpr hempty
  simp only [hload, hnonempty, Bool.not_true, Bool.false_eq_true, if_false, true_and]
  have hwritten {a : RecordedTransactionAttempt} (ha : RepairWritesAttempt relayer env db t.id a) :
      findLandedAttempt env.clients (db.getRecordedTransactionAttempts t.id) = .ok (some a) :=
    findLandedAttempt_some.mpr ⟨ha.answered, ha.first⟩
  rcases hfind : findLandedAttempt env.clients (db.getRecordedTransactionAttempts t.id) with
    e | _ | a
  · constructor
    · rintro ⟨absent, habsent⟩
      cases habsent
    · rintro (habsent | ⟨a, ha⟩)
      · rw [findLandedAttempt_of_absent habsent] at hfind
        cases hfind
      · rw [hwritten ha] at hfind
        cases hfind
  · refine ⟨fun _ => .inl (findLandedAttempt_none hempty hfind), fun _ => ?_⟩
    dsimp only
    split
    · exact ⟨_, rfl⟩
    · exact ⟨_, rfl⟩
  · obtain ⟨hanswered, hfirst⟩ := findLandedAttempt_some.mp hfind
    have hright : (AbsentEverywhere env.clients (db.getRecordedTransactionAttempts t.id) ∨
        ∃ b, RepairWritesAttempt relayer env db t.id b) ↔
          repairAdopts relayer env db t.id a = true := by
      constructor
      · rintro (habsent | ⟨b, hb⟩)
        · rw [findLandedAttempt_of_absent habsent] at hfind
          cases hfind
        · obtain rfl := Option.some.inj (hfirst.symm.trans hb.first)
          exact hb.adopts
      · intro hadopts
        exact .inr ⟨a, hload, hanswered, hfirst, hadopts⟩
    rw [hright]
    unfold repairAdopts
    dsimp only
    rcases a.sentWithGas with _ | gas
    · simp
    · dsimp only
      by_cases hserve : env.recoverLanded t.id = true
      · simp only [hserve, Bool.not_true, Bool.false_eq_true, if_false, Bool.true_and]
        rcases db.recoverLandedTransactionAttempt relayer.id t.id a.hash gas a.sentWithBlobGas
          (!relayer.eip1559Enabled) env.nowRepair with ⟨served, db₁⟩
        cases served
        · simp
        · simp
      · simp [hserve]

/-- What one candidate adds to the absent transactions. -/
theorem repairCandidate_absent (relayer : Relayer) (env : StartupEnv) (chainNonce : ℕ) (db : Db)
    (t : Transaction) {absent : AbsentTransactions}
    (h : (repairCandidate relayer env chainNonce db t).2 = .ok absent) :
    (CheckedAbsent env chainNonce db t ∧
        absent = [(t.id, (db.getRecordedTransactionAttempts t.id).map (·.hash))]) ∨
      (¬ CheckedAbsent env chainNonce db t ∧ absent = []) := by
  unfold repairCandidate at h
  split at h
  · cases h
  · rename_i hload
    dsimp only at h
    split at h
    · cases h
    · rename_i hempty
      have hload : env.loadAttempts t.id = true := by simpa using hload
      have hrecorded : db.getRecordedTransactionAttempts t.id ≠ [] := by simpa using hempty
      split at h
      · cases h
      · rename_i hnone
        split at h
        · rename_i hevidence
          refine .inl ⟨⟨hload, findLandedAttempt_none hrecorded hnone, hevidence⟩, ?_⟩
          exact (Except.ok.inj h).symm
        · rename_i hevidence
          exact .inr ⟨fun habsent => hevidence habsent.evidence, (Except.ok.inj h).symm⟩
      · rename_i attempt hlanded
        have hnot : ¬ CheckedAbsent env chainNonce db t := by
          intro habsent
          rw [findLandedAttempt_of_absent habsent.attempts] at hlanded
          cases hlanded
        refine .inr ⟨hnot, ?_⟩
        split at h
        · cases h
        · split at h
          · cases h
          · split at h
            · cases h
            · exact (Except.ok.inj h).symm

/-- The candidates are checked each on its own: repairing one does not show in another. -/
theorem repairCandidates_absent {relayer : Relayer} {env : StartupEnv} {chainNonce : ℕ} {db : Db}
    {ts : List Transaction} {absent : AbsentTransactions}
    (hids : (ts.map (·.id)).Nodup)
    (h : (repairCandidates relayer env chainNonce db ts).2 = .ok absent) (x : TransactionId)
    (hashes : List TransactionHash) :
    (x, hashes) ∈ absent ↔ ∃ t ∈ ts, t.id = x ∧ CheckedAbsent env chainNonce db t ∧
      hashes = (db.getRecordedTransactionAttempts x).map (·.hash) := by
  induction ts generalizing db absent with
  | nil =>
    obtain rfl : [] = absent := Except.ok.inj h
    simp
  | cons t ts ih =>
    rw [List.map_cons, List.nodup_cons] at hids
    obtain ⟨hnew, hids⟩ := hids
    unfold repairCandidates at h
    have hwithin := repairCandidate_within relayer env chainNonce db t
    have hfirst : ∀ absent, (repairCandidate relayer env chainNonce db t).2 = .ok absent → _ :=
      fun _ => repairCandidate_absent relayer env chainNonce db t
    split at h
    · cases h
    · rename_i db₁ first heq
      rw [heq] at hwithin hfirst
      have hrest := fun absent => @ih db₁ absent hids
      split at h
      · cases h
      · rename_i db₂ more heq'
        obtain rfl : first ++ more = absent := Except.ok.inj h
        have hmore := hrest more (by rw [heq'])
        have hattempts {u : Transaction} (hu : u ∈ ts) :
            db₁.getRecordedTransactionAttempts u.id = db.getRecordedTransactionAttempts u.id :=
          hwithin.attempts_eq fun _ heq => hnew (heq ▸ List.mem_map_of_mem hu)
        have hchecked {u : Transaction} (hu : u ∈ ts) :
            CheckedAbsent env chainNonce db₁ u ↔ CheckedAbsent env chainNonce db u := by
          constructor
          · rintro ⟨hload, hall, hevidence⟩
            exact ⟨hload, hattempts hu ▸ hall, hevidence⟩
          · rintro ⟨hload, hall, hevidence⟩
            exact ⟨hload, (hattempts hu).symm ▸ hall, hevidence⟩
        rw [List.mem_append, hmore]
        constructor
        · rintro (hmem | ⟨u, hu, rfl, habsent, rfl⟩)
          · rcases hfirst _ rfl with ⟨habsent, rfl⟩ | ⟨-, rfl⟩
            · obtain ⟨rfl, rfl⟩ := Prod.ext_iff.mp (List.mem_singleton.mp hmem)
              exact ⟨t, List.mem_cons_self .., rfl, habsent, rfl⟩
            · cases hmem
          · exact ⟨u, List.mem_cons_of_mem _ hu, rfl, (hchecked hu).mp habsent, by rw [hattempts hu]⟩
        · rintro ⟨u, hu, rfl, habsent, rfl⟩
          rcases List.mem_cons.mp hu with rfl | hu
          · rcases hfirst _ rfl with ⟨-, rfl⟩ | ⟨hnot, -⟩
            · exact .inl (List.mem_singleton_self _)
            · exact absurd habsent hnot
          · exact .inr ⟨u, hu, rfl, (hchecked hu).mpr habsent, by rw [hattempts hu]⟩

/-- The absent transactions are candidates, in the candidates' order. -/
theorem repairCandidates_absent_sublist {relayer : Relayer} {env : StartupEnv} {chainNonce : ℕ}
    {db : Db} {ts : List Transaction} {absent : AbsentTransactions}
    (h : (repairCandidates relayer env chainNonce db ts).2 = .ok absent) :
    (absent.map (·.1)).Sublist (ts.map (·.id)) := by
  induction ts generalizing db absent with
  | nil =>
    obtain rfl : [] = absent := Except.ok.inj h
    exact List.Sublist.refl _
  | cons t ts ih =>
    have hfirst : ∀ absent, (repairCandidate relayer env chainNonce db t).2 = .ok absent → _ :=
      fun _ => repairCandidate_absent relayer env chainNonce db t
    unfold repairCandidates at h
    split at h
    · cases h
    · rename_i db₁ first heq
      rw [heq] at hfirst
      split at h
      · cases h
      · rename_i db₂ more heq'
        obtain rfl : first ++ more = absent := Except.ok.inj h
        have hmore : (more.map (·.1)).Sublist (ts.map (·.id)) := ih (by rw [heq'])
        rw [List.map_append, List.map_cons]
        rcases hfirst _ rfl with ⟨-, rfl⟩ | ⟨-, rfl⟩
        · exact hmore.cons_cons t.id
        · exact hmore.cons t.id

/-- The guard of a landed recovery reads only the transaction's own row and log. -/
theorem recoverLanded_congr {db db' : Db} {id : TransactionId} (hrow : db'.row id = db.row id)
    (haudit : db'.audit.filter (·.id == id) = db.audit.filter (·.id == id)) (relayerId : RelayerId)
    (hash : TransactionHash) (gas : GasPriceResult) (blobGas : Option BlobGasPriceResult)
    (legacy : Bool) (now : DateTime) :
    (db'.recoverLandedTransactionAttempt relayerId id hash gas blobGas legacy now).1 =
      (db.recoverLandedTransactionAttempt relayerId id hash gas blobGas legacy now).1 := by
  have hany (audit : List Row) : (audit.any fun a => a.id == id &&
      a.knownTransactionHash == some hash && a.sentAt.isSome) =
        (audit.filter (·.id == id)).any fun a =>
          a.knownTransactionHash == some hash && a.sentAt.isSome := by
    rw [List.any_filter]
    simp only [Bool.and_assoc]
  unfold Db.recoverLandedTransactionAttempt
  dsimp only
  rw [hany, hany, haudit, hrow]
  split
  · split <;> rfl
  · rfl

/-- The check of a candidate reads only the transaction's own rows and log. -/
theorem repairCandidate_congr {db db' : Db} {t : Transaction} (relayer : Relayer) (env : StartupEnv)
    (chainNonce : ℕ) (hrows : db'.rows.filter (·.id == t.id) = db.rows.filter (·.id == t.id))
    (haudit : db'.audit.filter (·.id == t.id) = db.audit.filter (·.id == t.id)) :
    (repairCandidate relayer env chainNonce db' t).2 =
      (repairCandidate relayer env chainNonce db t).2 := by
  have hattempts : db'.getRecordedTransactionAttempts t.id =
      db.getRecordedTransactionAttempts t.id := by
    unfold Db.getRecordedTransactionAttempts
    rw [hrows, haudit]
  have hrow : db'.row t.id = db.row t.id := by
    unfold Db.row
    rw [← List.head?_filter, ← List.head?_filter, hrows]
  unfold repairCandidate
  rw [hattempts]
  split
  · rfl
  · dsimp only
    split
    · rfl
    · split
      · rfl
      · split <;> rfl
      · split
        · rfl
        · split
          · rfl
          · rename_i attempt _ _ gas _ _
            have hserved := recoverLanded_congr hrow haudit relayer.id attempt.hash gas
              attempt.sentWithBlobGas (!relayer.eip1559Enabled) env.nowRepair
            rcases hdb' : db'.recoverLandedTransactionAttempt relayer.id t.id attempt.hash gas
              attempt.sentWithBlobGas (!relayer.eip1559Enabled) env.nowRepair with ⟨served', db₁'⟩
            rcases hdb : db.recoverLandedTransactionAttempt relayer.id t.id attempt.hash gas
              attempt.sentWithBlobGas (!relayer.eip1559Enabled) env.nowRepair with ⟨served, db₁⟩
            rw [hdb', hdb] at hserved
            obtain rfl : served' = served := hserved
            cases served' <;> rfl

/-- The repair of the candidates succeeds exactly when each candidate's own check does. -/
theorem repairCandidates_ok_iff {relayer : Relayer} {env : StartupEnv} {chainNonce : ℕ} {db : Db}
    {ts : List Transaction} (hids : (ts.map (·.id)).Nodup) :
    (∃ absent, (repairCandidates relayer env chainNonce db ts).2 = .ok absent) ↔
      ∀ t ∈ ts, ∃ absent, (repairCandidate relayer env chainNonce db t).2 = .ok absent := by
  induction ts generalizing db with
  | nil => simp [repairCandidates]
  | cons t ts ih =>
    rw [List.map_cons, List.nodup_cons] at hids
    obtain ⟨hnew, hids⟩ := hids
    have hwithin := repairCandidate_within relayer env chainNonce db t
    rw [List.forall_mem_cons]
    unfold repairCandidates
    split
    · rename_i heq
      rw [heq]
      simp
    · rename_i db₁ first heq
      rw [heq] at hwithin ⊢
      have hsame : ∀ u ∈ ts, (repairCandidate relayer env chainNonce db₁ u).2 =
          (repairCandidate relayer env chainNonce db u).2 := by
        intro u hu
        have hne : ∀ n : ℕ, ¬ (fun x (_ : ℕ) => x = t.id) u.id n :=
          fun _ heq => hnew (heq ▸ List.mem_map_of_mem hu)
        exact repairCandidate_congr relayer env chainNonce (hwithin.rowsFrame u.id hne)
          (hwithin.auditFrame u.id hne)
      have hrest : (∃ more, (repairCandidates relayer env chainNonce db₁ ts).2 = .ok more) ↔
          ∀ u ∈ ts, ∃ absent, (repairCandidate relayer env chainNonce db u).2 = .ok absent := by
        rw [ih hids]
        exact forall_congr' fun u => forall_congr' fun hu => by rw [hsame u hu]
      rw [← hrest]
      split
      · rename_i heq'
        simp [heq']
      · rename_i heq'
        simp [heq']

end Candidates

section Absent

variable {relayerId : RelayerId} {chainNonce : ℕ} {reason : String} {now : DateTime}

/-- The row of an absent transaction after its repair. -/
def failedRow (reason : String) (now : DateTime) (r : Row) : Row :=
  { r with status := .failed, failedAt := some now, failedReason := r.failedReason.or (some reason) }

theorem repairAbsentOne_within (relayerId : RelayerId) (chainNonce : ℕ) (reason : String)
    (now : DateTime) (db : Db) (entry : TransactionId × List TransactionHash) :
    db.Within (fun x _ => x = entry.1)
      (Db.repairAbsentOne relayerId chainNonce reason now db entry) := by
  unfold Db.repairAbsentOne
  dsimp only
  split
  · split
    · exact Db.updateLog_within (n := 0) rfl (fun _ => rfl) (fun _ => .inl rfl) fun _ => rfl
    · exact .refl _
  · exact .refl _

theorem repairAbsentOne_row {db : Db} {entry : TransactionId × List TransactionHash} {r : Row}
    (hr : db.row entry.1 = some r)
    (hguard : Db.absentGuard db relayerId chainNonce entry.2 r = true) :
    (Db.repairAbsentOne relayerId chainNonce reason now db entry).row entry.1 =
      some (failedRow reason now r) := by
  unfold Db.repairAbsentOne
  dsimp only
  rw [hr]
  dsimp only
  rw [if_pos hguard, Db.row_log]
  exact Db.row_update_self db (by intro; rfl) hr

theorem absentGuard_congr {db db' : Db} {hashes : List TransactionHash} {r : Row}
    (haudit : db'.audit.filter (·.id == r.id) = db.audit.filter (·.id == r.id)) :
    Db.absentGuard db' relayerId chainNonce hashes r =
      Db.absentGuard db relayerId chainNonce hashes r := by
  have hall (audit : List Row) : (audit.all fun a => !(a.id == r.id && a.sentAt.isSome &&
      a.knownTransactionHash.any (!hashes.contains ·))) =
        (audit.filter (·.id == r.id)).all fun a => !(a.sentAt.isSome &&
          a.knownTransactionHash.any (!hashes.contains ·)) := by
    rw [List.all_filter]
    simp only [Bool.and_assoc, Bool.not_and]
  unfold Db.absentGuard
  rw [hall, hall, haudit]

/-- Transactions that are not on the list keep their row. -/
theorem repairAbsent_row_of_not_mem (relayerId : RelayerId) (chainNonce : ℕ) (reason : String)
    (now : DateTime) {db : Db} {absent : AbsentTransactions} {x : TransactionId}
    (hx : ∀ entry ∈ absent, entry.1 ≠ x) :
    (db.repairAbsentPendingTransactionsForRelayer relayerId chainNonce absent reason now).row x =
      db.row x := by
  unfold Db.repairAbsentPendingTransactionsForRelayer
  induction absent generalizing db with
  | nil => rfl
  | cons entry absent ih =>
    rw [List.foldl_cons, ih fun e he => hx e (List.mem_cons_of_mem _ he)]
    exact (repairAbsentOne_within ..).row_eq fun _ heq => hx entry (List.mem_cons_self ..) heq.symm

/-- A listed transaction whose guard holds is failed. -/
theorem repairAbsent_row_of_mem (reason : String) (now : DateTime) {db : Db} {absent : AbsentTransactions}
    (hkeys : (absent.map (·.1)).Nodup) {x : TransactionId} {hashes : List TransactionHash}
    (hx : (x, hashes) ∈ absent) {r : Row} (hr : db.row x = some r)
    (hguard : Db.absentGuard db relayerId chainNonce hashes r = true) :
    (db.repairAbsentPendingTransactionsForRelayer relayerId chainNonce absent reason now).row x =
      some (failedRow reason now r) := by
  unfold Db.repairAbsentPendingTransactionsForRelayer
  induction absent generalizing db with
  | nil => cases hx
  | cons entry absent ih =>
    rw [List.map_cons, List.nodup_cons] at hkeys
    obtain ⟨hnew, hkeys⟩ := hkeys
    rw [List.foldl_cons]
    rcases List.mem_cons.mp hx with rfl | hx
    · have hrest : ∀ e ∈ absent, e.1 ≠ x := fun e he heq =>
        hnew (heq ▸ List.mem_map_of_mem (f := (·.1)) he)
      refine (repairAbsent_row_of_not_mem relayerId chainNonce reason now hrest).trans ?_
      exact repairAbsentOne_row hr hguard
    · have hne : x ≠ entry.1 := fun heq => hnew (heq ▸ List.mem_map_of_mem hx)
      have hwithin := repairAbsentOne_within relayerId chainNonce reason now db entry
      refine ih hkeys hx ((hwithin.row_eq fun _ heq => hne heq).trans hr) ?_
      rw [absentGuard_congr (hwithin.auditFrame r.id fun _ heq => hne ((Db.row_id hr) ▸ heq))]
      exact hguard

end Absent

/-- The guard of the absent repair holds for a checked candidate's row. -/
theorem absentGuard_of_evidence {db : Db} {relayerId : RelayerId} {chainNonce : ℕ} {r : Row}
    (hr : r ∈ db.rows) (hevidence : Db.hasAttemptEvidence relayerId r = true)
    (hoff : r.nonce ≠ chainNonce) :
    Db.absentGuard db relayerId chainNonce
      ((db.getRecordedTransactionAttempts r.id).map (·.hash)) r = true := by
  unfold Db.hasAttemptEvidence at hevidence
  simp only [Bool.and_eq_true] at hevidence
  obtain ⟨⟨⟨⟨hrelayer, hstatus⟩, hsent⟩, hfailed⟩, hhash⟩ := hevidence
  obtain ⟨hash, hhash⟩ := Option.isSome_iff_exists.mp hhash
  have hown := Db.mem_recorded (.inl hr) rfl hhash hsent
  have hlog : db.audit.all (fun a => !(a.id == r.id && a.sentAt.isSome && a.knownTransactionHash.any
      (!((db.getRecordedTransactionAttempts r.id).map (·.hash)).contains ·))) = true := by
    rw [List.all_eq_true]
    intro a ha
    by_cases hid : a.id = r.id
    · cases hsentAt : a.sentAt.isSome with
      | false => simp
      | true =>
        rcases hknown : a.knownTransactionHash with _ | hash'
        · simp
        · have := Db.mem_recorded (.inr ha) hid hknown hsentAt
          simpa [hid] using this
    · simp [hid]
  unfold Db.absentGuard
  simp only [hrelayer, hstatus, hsent, hfailed, hhash, hlog, Bool.true_and, Option.any_some,
    Bool.and_eq_true, bne_iff_ne, ne_eq]
  exact ⟨⟨by simpa using hown, trivial⟩, hoff⟩

/-- A startup leaves the database as its repairs leave it. -/
theorem startupTransactionsQueues_db (relayer : Relayer) (env : StartupEnv) (db : Db) :
    (startupTransactionsQueues relayer env db).1 =
      if env.providerFound then (startupRepair relayer env db).1 else db := by
  unfold startupTransactionsQueues
  by_cases hprovider : env.providerFound = true
  · simp only [hprovider, Bool.not_true, Bool.false_eq_true, if_false, if_true]
    rcases startupRepair relayer env db with ⟨db', _ | _⟩
    · rfl
    · dsimp only
      split
      · rfl
      · split <;> rfl
  · simp [hprovider]

/-- A queue that comes up is the one repopulated from the database the startup leaves. -/
theorem startupTransactionsQueues_queue {relayer : Relayer} {env : StartupEnv} {db : Db}
    {q : TransactionsQueue} (h : (startupTransactionsQueues relayer env db).2 = some q) :
    ∃ onchainNonce, pendingNonceAcrossClients env.startupClients = .ok onchainNonce ∧
      q = repopulatedQueue relayer env (startupTransactionsQueues relayer env db).1 onchainNonce := by
  unfold startupTransactionsQueues at h ⊢
  by_cases hprovider : env.providerFound = true
  · simp only [hprovider, Bool.not_true, Bool.false_eq_true, if_false] at h ⊢
    generalize startupRepair relayer env db = repaired at h ⊢
    obtain ⟨db', _ | _⟩ := repaired
    · cases h
    · dsimp only at h ⊢
      by_cases hrepopulate : env.repopulate = true
      · simp only [hrepopulate, Bool.not_true, Bool.false_eq_true, if_false] at h ⊢
        rcases hanswer : pendingNonceAcrossClients env.startupClients with e | onchainNonce
        · rw [hanswer] at h
          cases h
        · rw [hanswer] at h
          exact ⟨onchainNonce, rfl, (Option.some.inj h).symm⟩
      · simp [hrepopulate] at h
  · simp [hprovider] at h

namespace Db

variable {db : Db} {relayerId : RelayerId} {status : TransactionStatus}

theorem mem_getTransactionsByStatus_iff {t : Transaction} :
    t ∈ db.getTransactionsByStatusForRelayer relayerId status ↔
      ∃ r ∈ db.rows, r.relayerId = relayerId ∧ r.status = status ∧ r.toTransaction = t := by
  unfold getTransactionsByStatusForRelayer orderByNonce
  simp only [List.mem_map, List.mem_insertionSort, List.mem_filter, Bool.and_eq_true, beq_iff_eq,
    and_assoc]

theorem mem_getTransactionsByStatus {t : Transaction}
    (h : t ∈ db.getTransactionsByStatusForRelayer relayerId status) :
    ∃ r ∈ db.rows, r.status = status ∧ r.toTransaction = t := by
  obtain ⟨r, hr, -, hstatus, heq⟩ := mem_getTransactionsByStatus_iff.mp h
  exact ⟨r, hr, hstatus, heq⟩

theorem getTransactionsByStatus_nodup (hkey : db.PrimaryKey) :
    ((db.getTransactionsByStatusForRelayer relayerId status).map (·.id)).Nodup := by
  have hids : (db.getTransactionsByStatusForRelayer relayerId status).map (·.id) =
      (orderByNonce (db.rows.filter fun r =>
        r.relayerId == relayerId && r.status == status)).map (·.id) := by
    unfold getTransactionsByStatusForRelayer
    rw [List.map_map]
    rfl
  rw [hids]
  have hperm := List.perm_insertionSort (fun a b : Row => a.nonce ≤ b.nonce)
    (db.rows.filter fun r => r.relayerId == relayerId && r.status == status)
  apply (hperm.map (·.id)).nodup_iff.mpr
  exact List.Nodup.sublist (List.filter_sublist.map _) hkey

end Db

/-- No transaction that is linked as a competitor is linked to a competitor itself. -/
def FlatLinks (rows : List Transaction) : Prop :=
  ∀ a ∈ rows, ∀ b ∈ rows, a.cancelledByTransactionId = some b.id →
    ∀ c ∈ rows, c.cancelledByTransactionId ≠ some a.id

/-- With flat links, every row is in an entry. -/
theorem repopulateLoop_holds {all : List Transaction} (hnodup : (all.map (·.id)).Nodup)
    (hflat : FlatLinks all) {t : Transaction} (ht : t ∈ all) :
    ∃ c ∈ repopulateLoop all all [], ∃ u ∈ c.transactions, u.id = t.id := by
  by_cases hlinked : ∃ a ∈ all, a.cancelledByTransactionId = some t.id
  · obtain ⟨a, ha, hlink⟩ := hlinked
    obtain ⟨c, hc, hopens⟩ := repopulateLoop_opens ha hnodup (List.not_mem_nil)
      (hflat a ha t ht hlink) fun _ hu => hu
    obtain ⟨competitor, hfind⟩ : ∃ competitor, all.find? (·.id == t.id) = some competitor := by
      apply Option.isSome_iff_exists.mp
      apply List.find?_isSome.mpr
      exact ⟨t, ht, by simp⟩
    have hid : competitor.id = t.id := by simpa using List.find?_some hfind
    refine ⟨c, hc, competitor, ?_, hid⟩
    unfold CompetitiveTransaction.transactions
    rw [hopens.competitive hlink hfind]
    exact List.mem_cons_of_mem _ (List.mem_singleton_self _)
  · obtain ⟨c, hc, hopens⟩ := repopulateLoop_opens ht hnodup (List.not_mem_nil)
      (fun a ha hlink => hlinked ⟨a, ha, hlink⟩) fun _ hu => hu
    exact ⟨c, hc, c.original, List.mem_cons_self .., hopens.original_id⟩

/-- The next nonce lies above every one that a repopulated transaction holds. -/
theorem lt_effectiveStartupNonce {onchainNonce : ℕ} {pending : List Transaction}
    {inmempool : List CompetitiveTransaction} {t : Transaction}
    (ht : t ∈ pending ++ inmempool.flatMap (·.transactions)) :
    t.nonce < effectiveStartupNonce onchainNonce pending inmempool := by
  have hheld (ts : List Transaction) (ht : t ∈ ts) :
      t.nonce < ts.foldr (fun t n => max (t.nonce + 1) n) 0 := by
    induction ts with
    | nil => cases ht
    | cons u ts ih =>
      rw [List.foldr_cons]
      rcases List.mem_cons.mp ht with rfl | ht
      · exact lt_of_lt_of_le (Nat.lt_succ_self _) (Nat.le_max_left ..)
      · exact lt_of_lt_of_le (ih ht) (Nat.le_max_right ..)
  unfold effectiveStartupNonce
  exact lt_of_lt_of_le (hheld _ ht) (Nat.le_max_right ..)

/-- A nonce below the next one is below the node's answer, or not above one that is held. -/
theorem lt_of_lt_effectiveStartupNonce {onchainNonce n : ℕ} {pending : List Transaction}
    {inmempool : List CompetitiveTransaction}
    (h : n < effectiveStartupNonce onchainNonce pending inmempool) :
    n < onchainNonce ∨ ∃ t ∈ pending ++ inmempool.flatMap (·.transactions), n ≤ t.nonce := by
  have hheld (ts : List Transaction) (hlt : n < ts.foldr (fun t n => max (t.nonce + 1) n) 0) :
      ∃ t ∈ ts, n ≤ t.nonce := by
    induction ts with
    | nil => cases hlt
    | cons u ts ih =>
      rw [List.foldr_cons] at hlt
      rcases Nat.lt_or_ge n (u.nonce + 1) with hhead | hlater
      · exact ⟨u, List.mem_cons_self .., Nat.le_of_lt_succ hhead⟩
      · obtain ⟨t, ht, hle⟩ := ih (by omega)
        exact ⟨t, List.mem_cons_of_mem _ ht, hle⟩
  unfold effectiveStartupNonce at h
  rcases lt_max_iff.mp h with hanswer | hrows
  · exact .inl hanswer
  · exact .inr (hheld _ hrows)

end Rrelayer
