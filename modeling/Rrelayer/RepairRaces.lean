import Rrelayer.MemoryCopies
import Rrelayer.StartupRows

/-! The repair of recorded attempts while others write to the database. A candidate's attempts are
read and looked up before its guarded update, which sees whatever the row and its audit history have
become. -/
namespace Rrelayer

/-- The moments of a repair at which others may have changed the database: before the attempts of
the candidate at a position are read, and before each guarded update. -/
inductive RepairMoment where
  | read (candidate : ℕ)
  | recover (candidate : ℕ)
  | repair (position : ℕ)
  deriving DecidableEq, Repr

/-- A guarded update, with the candidate it is for and the attempts read for it. -/
structure GuardedUpdate where
  candidate : ℕ
  id : TransactionId
  attempts : List RecordedTransactionAttempt
  before : Db
  after : Db

/-- A checked candidate none of whose attempts any provider knows. -/
structure AbsentCandidate where
  candidate : ℕ
  id : TransactionId
  attempts : List RecordedTransactionAttempt

structure RepairRun (α : Type) where
  db : Db
  updates : List GuardedUpdate
  result : Except RepairRecordedAttemptsError α

section Repair

variable (relayer : Relayer) (env : StartupEnv) (clients : ℕ → List RpcClient)
  (others : RepairMoment → Db → Db)

/-- `repairCandidate` among others; `clients` are the providers as they answer for a candidate. -/
def repairCandidateAmong (chainNonce : ℕ) (i : ℕ) (db : Db) (t : Transaction) :
    RepairRun (List AbsentCandidate) :=
  if !env.loadAttempts t.id then ⟨db, [], .error (.couldNotLoadAttempts relayer.id t.id)⟩
  else
    let db := others (.read i) db
    let attempts := db.getRecordedTransactionAttempts t.id
    if attempts.isEmpty then ⟨db, [], .error (.missingAttempts relayer.id t.id)⟩
    else match findLandedAttempt (clients i) attempts with
      | .error e => ⟨db, [], .error (.couldNotCheckAttempts relayer.id t.id e)⟩
      | .ok none =>
          if (nonCurrentNoncePendingRepairHash t chainNonce).isSome then
            ⟨db, [], .ok [⟨i, t.id, attempts⟩]⟩
          else ⟨db, [], .ok []⟩
      | .ok (some attempt) =>
          match attempt.sentWithGas with
          | none => ⟨db, [], .error (.missingGasEvidence relayer.id t.id attempt.hash)⟩
          | some gas =>
              if !env.recoverLanded t.id then
                ⟨db, [], .error (.couldNotRecoverLandedAttempt relayer.id t.id)⟩
              else
                let before := others (.recover i) db
                let (recovered, after) := before.recoverLandedTransactionAttempt relayer.id t.id
                  attempt.hash gas attempt.sentWithBlobGas (!relayer.eip1559Enabled) env.nowRepair
                ⟨after, [⟨i, t.id, attempts, before, after⟩],
                  if recovered then .ok []
                  else .error (.landedAttemptStateChanged relayer.id t.id)⟩

/-- The candidates from a position on; the first error ends the repair. -/
def repairCandidatesAmong (chainNonce : ℕ) :
    ℕ → Db → List Transaction → RepairRun (List AbsentCandidate)
  | _, db, [] => ⟨db, [], .ok []⟩
  | i, db, t :: ts =>
      let first := repairCandidateAmong relayer env clients others chainNonce i db t
      match first.result with
      | .error e => ⟨first.db, first.updates, .error e⟩
      | .ok absent =>
          let rest := repairCandidatesAmong chainNonce (i + 1) first.db ts
          ⟨rest.db, first.updates ++ rest.updates, rest.result.map (absent ++ ·)⟩

/-- The guarded updates of the absent transactions from a position on. -/
def repairAbsentAmong (chainNonce : ℕ) : ℕ → Db → List AbsentCandidate → Db × List GuardedUpdate
  | _, db, [] => (db, [])
  | i, db, c :: cs =>
      let before := others (.repair i) db
      let after := before.repairAbsentOne relayer.id chainNonce absentRepairReason env.nowRepair
        (c.id, c.attempts.map (·.hash))
      let rest := repairAbsentAmong chainNonce (i + 1) after cs
      (rest.1, ⟨c.candidate, c.id, c.attempts, before, after⟩ :: rest.2)

/-- The repair over the candidates its pages returned. -/
def repairRecordedAttemptsAmong (candidates : List Transaction) (db : Db) : RepairRun Unit :=
  match pendingNonceAcrossClients env.clients with
  | .error e => ⟨db, [], .error (.couldNotGetChainNonce relayer.id e)⟩
  | .ok chainNonce =>
      if !env.loadCandidates then ⟨db, [], .error (.couldNotLoadCandidates relayer.id)⟩
      else
        let checked := repairCandidatesAmong relayer env clients others chainNonce 0 db candidates
        match checked.result with
        | .error e => ⟨checked.db, checked.updates, .error e⟩
        | .ok absent =>
            if absent.isEmpty then ⟨checked.db, checked.updates, .ok ()⟩
            else if !env.repairAbsent then
              ⟨checked.db, checked.updates, .error (.couldNotRepairAbsentAttempts relayer.id)⟩
            else
              let repaired := repairAbsentAmong relayer env others chainNonce 0 checked.db absent
              ⟨repaired.1, checked.updates ++ repaired.2, .ok ()⟩

end Repair

section Alone

variable {relayer : Relayer} {env : StartupEnv}

/-- With nobody else writing, a candidate is repaired as before. -/
theorem repairCandidateAmong_alone (chainNonce i : ℕ) (db : Db) (t : Transaction) :
    let run := repairCandidateAmong relayer env (fun _ => env.clients) (fun _ db => db) chainNonce i
      db t
    (run.db, run.result.map (·.map fun c => (c.id, c.attempts.map (·.hash)))) =
      repairCandidate relayer env chainNonce db t := by
  unfold repairCandidateAmong repairCandidate
  dsimp only
  split
  · rfl
  · split
    · rfl
    · rcases findLandedAttempt env.clients (db.getRecordedTransactionAttempts t.id) with
        e | _ | attempt
      · rfl
      · dsimp only
        split
        · rfl
        · rfl
      · dsimp only
        rcases attempt.sentWithGas with _ | gas
        · rfl
        · dsimp only
          split
          · rfl
          · rcases db.recoverLandedTransactionAttempt relayer.id t.id attempt.hash gas
              attempt.sentWithBlobGas (!relayer.eip1559Enabled) env.nowRepair with ⟨_ | _, after⟩
            · rfl
            · rfl

theorem repairCandidatesAmong_alone (chainNonce i : ℕ) (db : Db) (ts : List Transaction) :
    let run := repairCandidatesAmong relayer env (fun _ => env.clients) (fun _ db => db) chainNonce i
      db ts
    (run.db, run.result.map (·.map fun c => (c.id, c.attempts.map (·.hash)))) =
      repairCandidates relayer env chainNonce db ts := by
  induction ts generalizing i db with
  | nil => rfl
  | cons t ts ih =>
    have hfirst := @repairCandidateAmong_alone relayer env chainNonce i db t
    dsimp only at hfirst
    unfold repairCandidatesAmong repairCandidates
    rw [← hfirst]
    dsimp only
    rcases (repairCandidateAmong relayer env (fun _ => env.clients) (fun _ db => db) chainNonce i db
      t).result with e | absent
    · rfl
    · dsimp only [Except.map]
      rw [← ih (i + 1)]
      rcases (repairCandidatesAmong relayer env (fun _ => env.clients) (fun _ db => db) chainNonce
        (i + 1) _ ts).result with e | more
      · rfl
      · simp [Except.map]

theorem repairAbsentAmong_alone (chainNonce i : ℕ) (db : Db) (cs : List AbsentCandidate) :
    (repairAbsentAmong relayer env (fun _ db => db) chainNonce i db cs).1 =
      db.repairAbsentPendingTransactionsForRelayer relayer.id chainNonce
        (cs.map fun c => (c.id, c.attempts.map (·.hash))) absentRepairReason env.nowRepair := by
  induction cs generalizing i db with
  | nil => rfl
  | cons c cs ih => exact ih (i + 1) _

/-- With nobody else writing, the repair is the startup's. -/
theorem repairRecordedAttemptsAmong_alone (db : Db) :
    let run := repairRecordedAttemptsAmong relayer env (fun _ => env.clients) (fun _ db => db)
      (db.getPendingTransactionsWithAttemptEvidenceForRelayer relayer.id) db
    (run.db, run.result) = repairRecordedAttemptsForRelayer relayer env db := by
  unfold repairRecordedAttemptsAmong repairRecordedAttemptsForRelayer
  rcases pendingNonceAcrossClients env.clients with e | chainNonce
  · rfl
  · dsimp only
    by_cases hload : (!env.loadCandidates) = true
    · rw [if_pos hload, if_pos hload]
    · rw [if_neg hload, if_neg hload]
      have hchecked := @repairCandidatesAmong_alone relayer env chainNonce 0 db
        (db.getPendingTransactionsWithAttemptEvidenceForRelayer relayer.id)
      dsimp only at hchecked
      rw [← hchecked]
      rcases (repairCandidatesAmong relayer env (fun _ => env.clients) (fun _ db => db) chainNonce 0
        db _).result with e | absent
      · rfl
      · dsimp only [Except.map]
        rw [List.isEmpty_map, ← repairAbsentAmong_alone chainNonce 0]
        by_cases hempty : absent.isEmpty = true
        · rw [if_pos hempty, if_pos hempty]
        · rw [if_neg hempty, if_neg hempty]
          by_cases hrepair : (!env.repairAbsent) = true
          · rw [if_pos hrepair, if_pos hrepair]
          · rw [if_neg hrepair, if_neg hrepair]

end Alone

namespace Db

/-- What a recovery asks of the live row and its audit history. -/
structure Recoverable (db : Db) (relayerId : RelayerId) (id : TransactionId)
    (a : RecordedTransactionAttempt) (r : Row) : Prop where
  row : db.row id = some r
  relayer : r.relayerId = relayerId
  pending : r.status = .pending
  unfailed : r.failedAt = none
  recorded : db.Recorded id a.hash

section Recovery

variable {db : Db} {relayerId : RelayerId} {id : TransactionId} {a : RecordedTransactionAttempt}
  {gas : GasPriceResult} {legacy : Bool} {now : DateTime}

/-- A recovery is served exactly on a recoverable row. -/
theorem recoverLanded_served_iff :
    (db.recoverLandedTransactionAttempt relayerId id a.hash gas a.sentWithBlobGas legacy now).1 =
        true ↔ ∃ r, db.Recoverable relayerId id a r := by
  have hrecorded : (db.audit.any fun entry => entry.id == id &&
      entry.knownTransactionHash == some a.hash && entry.sentAt.isSome) = true ↔
      db.Recorded id a.hash := by
    simp [Recorded, and_assoc]
  unfold recoverLandedTransactionAttempt
  dsimp only
  constructor
  · intro h
    split at h
    · rename_i r hr
      split at h
      · rename_i hguard
        simp only [Bool.and_eq_true, beq_iff_eq, Option.isNone_iff_eq_none] at hguard
        obtain ⟨⟨⟨hrelayer, hpending⟩, hunfailed⟩, hany⟩ := hguard
        exact ⟨r, hr, hrelayer, hpending, hunfailed, hrecorded.mp hany⟩
      · cases h
    · cases h
  · rintro ⟨r, hr, hrelayer, hpending, hunfailed, hany⟩
    rw [hr]
    simp [hrelayer, hpending, hunfailed, hrecorded.mpr hany]

theorem recoverLanded_refused
    (h : (db.recoverLandedTransactionAttempt relayerId id a.hash gas a.sentWithBlobGas legacy
      now).1 = false) :
    (db.recoverLandedTransactionAttempt relayerId id a.hash gas a.sentWithBlobGas legacy now).2 =
      db := by
  unfold recoverLandedTransactionAttempt at h ⊢
  dsimp only at h ⊢
  split at h
  · split at h
    · cases h
    · rename_i hguard
      rw [if_neg hguard]
  · rfl

/-- A recoverable row shows the attempt in the mempool. -/
theorem recoverLanded_row (hgas : a.sentWithGas = some gas)
    (h : ∃ r, db.Recoverable relayerId id a r) :
    ∃ r, (db.recoverLandedTransactionAttempt relayerId id a.hash gas a.sentWithBlobGas legacy
      now).2.row id = some r ∧ r.status = .inmempool ∧ r.knownTransactionHash = some a.hash := by
  have hserved := (@recoverLanded_served_iff db relayerId id a gas legacy now).mpr h
  rcases recoverLanded_spec db relayerId id legacy now hgas with
    hsame | ⟨db', _, r', hdone, -, -, -, hrow, hadopts⟩
  · rw [hsame] at hserved
    cases hserved
  · rw [hdone]
    obtain ⟨hstatus, hhash, -⟩ := hadopts r' hrow
    exact ⟨r', hrow, hstatus, hhash⟩

/-- A recovery writes `INMEMPOOL` only. -/
theorem recoverLanded_failed {r : Row}
    (hr : r ∈ (db.recoverLandedTransactionAttempt relayerId id a.hash gas a.sentWithBlobGas legacy
      now).2.rows) (hfailed : r.status = .failed) : r ∈ db.rows := by
  rcases hresult : db.recoverLandedTransactionAttempt relayerId id a.hash gas a.sentWithBlobGas
    legacy now with ⟨_ | _, db'⟩
  · have hsame := recoverLanded_refused (congrArg Prod.fst hresult)
    rwa [hsame] at hr
  · rw [hresult, recoverLanded_true hresult] at hr
    obtain ⟨r₀, hr₀, ⟨-, rfl⟩ | ⟨-, rfl⟩⟩ := mem_update hr
    · cases hfailed
    · exact hr₀

/-- An absent repair fails its own row only, when every hash recorded by then was checked. -/
theorem repairAbsentOne_failed (hkey : db.PrimaryKey) {chainNonce : ℕ} {reason : String}
    {hashes : List TransactionHash} {r : Row}
    (hr : r ∈ (repairAbsentOne relayerId chainNonce reason now db (id, hashes)).rows) :
    r ∈ db.rows ∨ r.id = id ∧ db.getRecordedTransactionAttempts id ≠ [] ∧
      ∀ b ∈ db.getRecordedTransactionAttempts id, b.hash ∈ hashes := by
  unfold repairAbsentOne at hr
  dsimp only at hr
  split at hr
  · rename_i live hlive
    split at hr
    · rename_i hguard
      obtain ⟨r₀, hr₀, ⟨hid, rfl⟩ | ⟨-, rfl⟩⟩ := mem_update hr
      · unfold absentGuard at hguard
        simp only [Bool.and_eq_true, List.all_eq_true] at hguard
        obtain ⟨⟨⟨⟨⟨-, hsentAt⟩, -⟩, hown⟩, haudit⟩, -⟩ := hguard
        obtain ⟨hash, hhash, -⟩ := (Option.any_eq_true _ _).mp hown
        have hlisted := mem_recorded (.inl (mem_of_row hlive)) (row_id hlive) hhash hsentAt
        refine .inr ⟨hid, fun hnone => by simp [hnone] at hlisted, fun b hb => ?_⟩
        obtain ⟨s, hs, hsid, hhash, hsent⟩ := source_of_mem hb
        rcases hs with hs | hs
        · have hchecked := haudit s hs
          simpa [hsid, row_id hlive, hsent, hhash] using hchecked
        · have hlive' := row_of_mem hkey hs
          rw [hsid, hlive] at hlive'
          cases hlive'
          simpa [hhash] using hown
      · exact .inl hr₀
    · exact .inl hr
  · exact .inl hr

end Recovery

end Db

section Run

variable {relayer : Relayer} {env : StartupEnv} {clients : ℕ → List RpcClient}
  {others : RepairMoment → Db → Db} {chainNonce : ℕ}

/-- A candidate's check writes for that candidate, fails no row, and collects it only when every
attempt it read is absent everywhere. -/
theorem repairCandidateAmong_updates {i : ℕ} {db : Db} {t : Transaction} :
    let run := repairCandidateAmong relayer env clients others chainNonce i db t
    (∀ u ∈ run.updates, u.candidate = i ∧ u.id = t.id ∧
      ∀ r ∈ u.after.rows, r.status = .failed → r ∈ u.before.rows) ∧
    ∀ absent, run.result = .ok absent → ∀ c ∈ absent, c.candidate = i ∧ c.id = t.id ∧
      AbsentEverywhere (clients i) c.attempts := by
  unfold repairCandidateAmong
  dsimp only
  split
  · simp
  · split
    · simp
    · rename_i hread
      have hread : (others (.read i) db).getRecordedTransactionAttempts t.id ≠ [] := by
        simpa using hread
      split
      · simp
      · rename_i hnone
        have habsent := findLandedAttempt_none hread hnone
        split
        · simpa using habsent
        · simp
      · rename_i attempt _
        split
        · simp
        · split
          · simp
          · refine ⟨?_, ?_⟩
            · intro u hu
              obtain rfl := List.mem_singleton.mp hu
              exact ⟨rfl, rfl, fun r hr hfailed => Db.recoverLanded_failed hr hfailed⟩
            · intro absent hresult c hc
              dsimp only at hresult
              split at hresult
              · cases hresult
                cases hc
              · cases hresult

/-- The checks from a position on. -/
theorem repairCandidatesAmong_updates {i : ℕ} {db : Db} {ts : List Transaction} :
    let run := repairCandidatesAmong relayer env clients others chainNonce i db ts
    (∀ u ∈ run.updates, (∃ j t, u.candidate = i + j ∧ ts[j]? = some t ∧ u.id = t.id) ∧
      ∀ r ∈ u.after.rows, r.status = .failed → r ∈ u.before.rows) ∧
    ∀ absent, run.result = .ok absent → ∀ c ∈ absent,
      (∃ j t, c.candidate = i + j ∧ ts[j]? = some t ∧ c.id = t.id) ∧
      AbsentEverywhere (clients c.candidate) c.attempts := by
  induction ts generalizing i db with
  | nil => simp [repairCandidatesAmong]
  | cons t ts ih =>
    obtain ⟨hupdates, habsent⟩ := @repairCandidateAmong_updates relayer env clients others
      chainNonce i db t
    have hhere {k : ℕ} {x : TransactionId} (hk : k = i) (hx : x = t.id) :
        ∃ j t', k = i + j ∧ (t :: ts)[j]? = some t' ∧ x = t'.id := ⟨0, t, by omega, rfl, hx⟩
    have hlater {k : ℕ} {x : TransactionId}
        (h : ∃ j t', k = i + 1 + j ∧ ts[j]? = some t' ∧ x = t'.id) :
        ∃ j t', k = i + j ∧ (t :: ts)[j]? = some t' ∧ x = t'.id := by
      obtain ⟨j, t', hk, ht', hx⟩ := h
      exact ⟨j + 1, t', by omega, by simpa using ht', hx⟩
    rw [repairCandidatesAmong]
    dsimp only at hupdates habsent ⊢
    split
    · refine ⟨fun u hu => ?_, fun absent hresult => by cases hresult⟩
      obtain ⟨hi, hid, hfailed⟩ := hupdates u hu
      exact ⟨hhere hi hid, hfailed⟩
    · rename_i found hfirst
      obtain ⟨hrest, hmore⟩ := @ih (i + 1)
        (repairCandidateAmong relayer env clients others chainNonce i db t).db
      refine ⟨fun u hu => ?_, fun absent hresult c hc => ?_⟩
      · rcases List.mem_append.mp hu with hu | hu
        · obtain ⟨hi, hid, hfailed⟩ := hupdates u hu
          exact ⟨hhere hi hid, hfailed⟩
        · exact ⟨hlater (hrest u hu).1, (hrest u hu).2⟩
      · rcases htail : (repairCandidatesAmong relayer env clients others chainNonce (i + 1)
          (repairCandidateAmong relayer env clients others chainNonce i db t).db ts).result with
          e | more
        · rw [htail] at hresult
          cases hresult
        · rw [htail] at hresult
          cases hresult
          rcases List.mem_append.mp hc with hc | hc
          · obtain ⟨hi, hid, hall⟩ := habsent found hfirst c hc
            exact ⟨hhere hi hid, hi ▸ hall⟩
          · exact ⟨hlater (hmore more htail c hc).1, (hmore more htail c hc).2⟩

/-- Each update of the absent transactions is one guarded repair. -/
theorem repairAbsentAmong_updates {i : ℕ} {db : Db} {cs : List AbsentCandidate} {u : GuardedUpdate}
    (hu : u ∈ (repairAbsentAmong relayer env others chainNonce i db cs).2) :
    ∃ c ∈ cs, u.candidate = c.candidate ∧ u.id = c.id ∧ u.attempts = c.attempts ∧
      u.after = u.before.repairAbsentOne relayer.id chainNonce absentRepairReason env.nowRepair
        (c.id, c.attempts.map (·.hash)) := by
  induction cs generalizing i db with
  | nil => cases hu
  | cons c cs ih =>
    rcases List.mem_cons.mp hu with rfl | hu
    · exact ⟨c, List.mem_cons_self .., rfl, rfl, rfl, rfl⟩
    · obtain ⟨c', hc', hrest⟩ := ih hu
      exact ⟨c', List.mem_cons_of_mem _ hc', hrest⟩

/-- Checks that go well before a position leave the rest to be checked from there. -/
theorem repairCandidatesAmong_append {i : ℕ} {db : Db} {ts₁ ts₂ : List Transaction}
    {absent : List AbsentCandidate}
    (h : (repairCandidatesAmong relayer env clients others chainNonce i db ts₁).result =
      .ok absent) :
    let first := repairCandidatesAmong relayer env clients others chainNonce i db ts₁
    let rest := repairCandidatesAmong relayer env clients others chainNonce (i + ts₁.length)
      first.db ts₂
    repairCandidatesAmong relayer env clients others chainNonce i db (ts₁ ++ ts₂) =
      ⟨rest.db, first.updates ++ rest.updates, rest.result.map (absent ++ ·)⟩ := by
  induction ts₁ generalizing i db absent with
  | nil =>
    simp only [repairCandidatesAmong, Except.ok.injEq] at h
    subst h
    simp only [repairCandidatesAmong, List.nil_append, List.length_nil, Nat.add_zero]
    rcases repairCandidatesAmong relayer env clients others chainNonce i db ts₂ with
      ⟨db', updates, e | more⟩
    · rfl
    · rfl
  | cons t ts₁ ih =>
    rw [List.cons_append]
    rw [repairCandidatesAmong] at h
    rw [repairCandidatesAmong, repairCandidatesAmong]
    dsimp only at h ⊢
    rcases hfirst : (repairCandidateAmong relayer env clients others chainNonce i db t).result with
      e | found
    · rw [hfirst] at h
      cases h
    · rw [hfirst] at h
      dsimp only at h ⊢
      rcases htail : (repairCandidatesAmong relayer env clients others chainNonce (i + 1)
        (repairCandidateAmong relayer env clients others chainNonce i db t).db ts₁).result with
        e | more
      · rw [htail] at h
        cases h
      · rw [htail] at h
        cases h
        have hlength : i + 1 + ts₁.length = i + (t :: ts₁).length := by
          simp only [List.length_cons]
          omega
        rw [ih htail, hlength]
        rcases repairCandidatesAmong relayer env clients others chainNonce (i + (t :: ts₁).length)
          _ ts₂ with ⟨db', updates, e | last⟩
        · simp [Except.map]
        · simp [Except.map]

/-- The run keeps the updates of its checks, and ends where a check fails. -/
theorem repairRecordedAttemptsAmong_checked {candidates : List Transaction} {db : Db}
    (hnonce : pendingNonceAcrossClients env.clients = .ok chainNonce)
    (hload : env.loadCandidates = true) :
    let checked := repairCandidatesAmong relayer env clients others chainNonce 0 db candidates
    let run := repairRecordedAttemptsAmong relayer env clients others candidates db
    (∀ u ∈ checked.updates, u ∈ run.updates) ∧
      ∀ e, checked.result = .error e → run = ⟨checked.db, checked.updates, .error e⟩ := by
  unfold repairRecordedAttemptsAmong
  rw [hnonce, hload]
  dsimp only
  rw [if_neg (by simp)]
  rcases (repairCandidatesAmong relayer env clients others chainNonce 0 db candidates).result with
    e | absent
  · simp
  · refine ⟨fun u hu => ?_, fun e he => by cases he⟩
    dsimp only
    split
    · exact hu
    · split
      · exact hu
      · exact List.mem_append_left _ hu

/-- The repair comes to the candidate at a position, with the database as it is then. -/
structure RepairReaches (relayer : Relayer) (env : StartupEnv) (clients : ℕ → List RpcClient)
    (others : RepairMoment → Db → Db) (candidates : List Transaction) (db : Db) (i : ℕ)
    (t : Transaction) (db' : Db) : Prop where
  candidate : candidates[i]? = some t
  loaded : env.loadCandidates = true
  checked : ∃ chainNonce absent, pendingNonceAcrossClients env.clients = .ok chainNonce ∧
    (repairCandidatesAmong relayer env clients others chainNonce 0 db
      (candidates.take i)).result = .ok absent ∧
    (repairCandidatesAmong relayer env clients others chainNonce 0 db (candidates.take i)).db = db'

/-- A candidate that is reached makes its update in the run, and its error ends the run. -/
theorem RepairReaches.run {candidates : List Transaction} {db db' : Db} {i : ℕ} {t : Transaction}
    (h : RepairReaches relayer env clients others candidates db i t db') :
    let run := repairRecordedAttemptsAmong relayer env clients others candidates db
    ∃ chainNonce, let check := repairCandidateAmong relayer env clients others chainNonce i db' t
      (∀ u ∈ check.updates, u ∈ run.updates) ∧
      ∀ e, check.result = .error e → run.db = check.db ∧ run.result = .error e ∧
        ∀ u ∈ run.updates, u.candidate < i ∨ u ∈ check.updates := by
  obtain ⟨chainNonce, absent, hnonce, hchecked, hdb⟩ := h.checked
  refine ⟨chainNonce, ?_⟩
  obtain ⟨hi, hget⟩ := List.getElem?_eq_some_iff.mp h.candidate
  have hsplit : candidates.take i ++ t :: candidates.drop (i + 1) = candidates := by
    rw [← hget, ← List.drop_eq_getElem_cons hi]
    exact List.take_append_drop i candidates
  have hlength : 0 + (candidates.take i).length = i := by
    rw [List.length_take]
    omega
  have hrun := @repairCandidatesAmong_append relayer env clients others chainNonce 0 db
    (candidates.take i) (t :: candidates.drop (i + 1)) absent hchecked
  have hbefore := (@repairCandidatesAmong_updates relayer env clients others chainNonce 0 db
    (candidates.take i)).1
  obtain ⟨hkept, hended⟩ := @repairRecordedAttemptsAmong_checked relayer env clients others
    chainNonce candidates db hnonce h.loaded
  dsimp only at hrun hkept hended
  rw [hsplit, hlength, hdb, repairCandidatesAmong] at hrun
  dsimp only at hrun ⊢
  rcases hcheck : (repairCandidateAmong relayer env clients others chainNonce i db' t).result with
    e | found
  · rw [hcheck] at hrun
    dsimp only [Except.map] at hrun
    rw [hrun] at hkept hended
    refine ⟨fun u hu => hkept u (List.mem_append_right _ hu), fun e' he => ?_⟩
    cases he
    rw [hended e rfl]
    refine ⟨rfl, rfl, fun u hu => ?_⟩
    rcases List.mem_append.mp hu with hu | hu
    · obtain ⟨⟨j, t', hj, ht', -⟩, -⟩ := hbefore u hu
      have hjlt := (List.getElem?_eq_some_iff.mp ht').1
      rw [List.length_take] at hjlt
      exact .inl (by omega)
    · exact .inr hu
  · rw [hcheck] at hrun
    dsimp only at hrun
    rw [hrun] at hkept
    exact ⟨fun u hu => hkept u (List.mem_append_right _ (List.mem_append_left _ hu)),
      fun e he => by cases he⟩

/-- The rows that an update fails had every hash recorded by then checked and absent. -/
def GuardedUpdate.FailsOnlyAbsent (u : GuardedUpdate) (clients : List RpcClient) : Prop :=
  ∀ r ∈ u.after.rows, r.status = .failed → r ∈ u.before.rows ∨
    r.id = u.id ∧ AbsentEverywhere clients (u.before.getRecordedTransactionAttempts u.id)

/-- Every update of the repair is for a candidate, and fails its row only on evidence that still
covers the whole record. -/
theorem repairRecordedAttemptsAmong_failed {candidates : List Transaction} {db : Db}
    {u : GuardedUpdate}
    (hu : u ∈ (repairRecordedAttemptsAmong relayer env clients others candidates db).updates) :
    (∃ t, candidates[u.candidate]? = some t ∧ u.id = t.id) ∧
      (u.before.PrimaryKey → u.FailsOnlyAbsent (clients u.candidate)) := by
  unfold repairRecordedAttemptsAmong at hu
  dsimp only at hu
  split at hu
  · cases hu
  · rename_i chainNonce _
    split at hu
    · cases hu
    · obtain ⟨hchecks, hcollected⟩ := @repairCandidatesAmong_updates relayer env clients others
        chainNonce 0 db candidates
      have hcheck (h : u ∈ (repairCandidatesAmong relayer env clients others chainNonce 0 db
          candidates).updates) : (∃ t, candidates[u.candidate]? = some t ∧ u.id = t.id) ∧
            (u.before.PrimaryKey → u.FailsOnlyAbsent (clients u.candidate)) := by
        obtain ⟨⟨j, t, hj, ht, hid⟩, hfailed⟩ := hchecks u h
        have hj : u.candidate = j := by omega
        exact ⟨⟨t, hj ▸ ht, hid⟩, fun _ r hr hstatus => .inl (hfailed r hr hstatus)⟩
      split at hu
      · exact hcheck hu
      · rename_i absent habsent
        split at hu
        · exact hcheck hu
        · split at hu
          · exact hcheck hu
          · rcases List.mem_append.mp hu with hu | hu
            · exact hcheck hu
            · obtain ⟨c, hc, hcandidate, hid, -, hafter⟩ := repairAbsentAmong_updates hu
              obtain ⟨⟨j, t, hj, ht, htid⟩, hall⟩ := hcollected absent habsent c hc
              have hj : u.candidate = j := by omega
              refine ⟨⟨t, hj ▸ ht, hid.trans htid⟩, fun hkey r hr _ => ?_⟩
              rw [hafter] at hr
              rcases Db.repairAbsentOne_failed hkey hr with hr | ⟨hrid, hrecorded, hchecked⟩
              · exact .inl hr
              · rw [hcandidate, hid]
                refine .inr ⟨hrid, hrecorded, hall.providers, fun b hb => ?_⟩
                obtain ⟨a, ha, hash⟩ := List.mem_map.mp (hchecked b hb)
                rw [← hash]
                exact hall.absent a ha

/-- A search that ends well had every lookup answered. -/
theorem findLandedAttempt_answered {clients : List RpcClient}
    {attempts : List RecordedTransactionAttempt} {landed : Option RecordedTransactionAttempt}
    (h : findLandedAttempt clients attempts = .ok landed) : Answered clients attempts := by
  cases landed with
  | none => exact fun a ha => ⟨false, findLandedLoop_none.mp h a ha⟩
  | some a => exact (findLandedAttempt_some.mp h).1

section Check

variable (relayer chainNonce) {i : ℕ} {db : Db} {t : Transaction} {a : RecordedTransactionAttempt}

/-- A failed lookup ends a candidate's check right after its attempts were read. -/
theorem repairCandidateAmong_unanswered (hload : env.loadAttempts t.id = true)
    (h : ¬ Answered (clients i)
      ((others (.read i) db).getRecordedTransactionAttempts t.id)) :
    ∃ e, repairCandidateAmong relayer env clients others chainNonce i db t =
      ⟨others (.read i) db, [], .error (.couldNotCheckAttempts relayer.id t.id e)⟩ := by
  have hread : ((others (.read i) db).getRecordedTransactionAttempts t.id).isEmpty = false := by
    rw [List.isEmpty_eq_false_iff]
    intro hempty
    rw [hempty] at h
    exact h fun a ha => by cases ha
  unfold repairCandidateAmong
  simp only [hload, hread, Bool.not_true, Bool.false_eq_true, ↓reduceIte]
  rcases hfound : findLandedAttempt (clients i)
    ((others (.read i) db).getRecordedTransactionAttempts t.id) with e | landed
  · exact ⟨e, rfl⟩
  · exact absurd (findLandedAttempt_answered hfound) h

/-- What the check of a candidate with a landed attempt comes to. -/
theorem repairCandidateAmong_landed (hload : env.loadAttempts t.id = true)
    (hanswered : Answered (clients i)
      ((others (.read i) db).getRecordedTransactionAttempts t.id))
    (hfirst : firstKnown (clients i)
      ((others (.read i) db).getRecordedTransactionAttempts t.id) = some a) :
    repairCandidateAmong relayer env clients others chainNonce i db t =
      match a.sentWithGas with
      | none => ⟨others (.read i) db, [], .error (.missingGasEvidence relayer.id t.id a.hash)⟩
      | some gas =>
          if !env.recoverLanded t.id then
            ⟨others (.read i) db, [], .error (.couldNotRecoverLandedAttempt relayer.id t.id)⟩
          else
            let before := others (.recover i) (others (.read i) db)
            let (recovered, after) := before.recoverLandedTransactionAttempt relayer.id t.id
              a.hash gas a.sentWithBlobGas (!relayer.eip1559Enabled) env.nowRepair
            ⟨after, [⟨i, t.id, (others (.read i) db).getRecordedTransactionAttempts t.id, before,
                after⟩],
              if recovered then .ok [] else .error (.landedAttemptStateChanged relayer.id t.id)⟩ := by
  have hread : ((others (.read i) db).getRecordedTransactionAttempts t.id).isEmpty = false := by
    rw [List.isEmpty_eq_false_iff]
    exact List.ne_nil_of_mem (List.mem_of_find?_eq_some hfirst)
  unfold repairCandidateAmong
  simp only [hload, hread, Bool.not_true, Bool.false_eq_true, ↓reduceIte,
    findLandedAttempt_some.mpr ⟨hanswered, hfirst⟩]

end Check

/-- The startup repair of recorded attempts, whatever others write meanwhile. An update fails a row
only when every provider reported every attempt recorded at that moment absent. A failed lookup, or
a landed attempt without gas, ends the repair with nothing written after it. The first recorded
attempt that a provider knows is written to the row as long as it is still pending, unfailed and
recorded; the repair ends otherwise. -/
theorem repairRecordedAttempts_among (relayer : Relayer) (env : StartupEnv)
    (clients : ℕ → List RpcClient) (others : RepairMoment → Db → Db) (candidates : List Transaction)
    (db : Db) :
    let run := repairRecordedAttemptsAmong relayer env clients others candidates db
    (∀ u ∈ run.updates, (∃ t, candidates[u.candidate]? = some t ∧ u.id = t.id) ∧
      (u.before.PrimaryKey → u.FailsOnlyAbsent (clients u.candidate))) ∧
    ∀ i t db', RepairReaches relayer env clients others candidates db i t db' →
      env.loadAttempts t.id = true →
      let read := others (.read i) db'
      let attempts := read.getRecordedTransactionAttempts t.id
      (¬ Answered (clients i) attempts →
        run.db = read ∧ (∀ u ∈ run.updates, u.candidate < i) ∧
          ∃ e, run.result = .error (.couldNotCheckAttempts relayer.id t.id e)) ∧
      ∀ a, Answered (clients i) attempts → firstKnown (clients i) attempts = some a →
        (a.sentWithGas = none →
          run.db = read ∧ (∀ u ∈ run.updates, u.candidate < i) ∧
            run.result = .error (.missingGasEvidence relayer.id t.id a.hash)) ∧
        (a.sentWithGas.isSome = true → env.recoverLanded t.id = true →
          ∃ u ∈ run.updates, u.candidate = i ∧ u.id = t.id ∧ u.before = others (.recover i) read ∧
            ((∃ r, u.before.Recoverable relayer.id t.id a r) →
              ∃ r, u.after.row t.id = some r ∧ r.status = .inmempool ∧
                r.knownTransactionHash = some a.hash) ∧
            ((¬ ∃ r, u.before.Recoverable relayer.id t.id a r) → u.after = u.before ∧
              run.db = u.before ∧
                run.result = .error (.landedAttemptStateChanged relayer.id t.id))) := by
  refine ⟨fun u hu => repairRecordedAttemptsAmong_failed hu, fun i t db' hreached hload => ?_⟩
  obtain ⟨chainNonce, hkept, hended⟩ := hreached.run
  dsimp only at hkept hended ⊢
  -- a check that ends in an error without an update ends the run where it read
  have hstops {e : RepairRecordedAttemptsError}
      (hcheck : repairCandidateAmong relayer env clients others chainNonce i db' t =
        ⟨others (.read i) db', [], .error e⟩) :
      (repairRecordedAttemptsAmong relayer env clients others candidates db).db =
          others (.read i) db' ∧
        (∀ u ∈ (repairRecordedAttemptsAmong relayer env clients others candidates db).updates,
          u.candidate < i) ∧
        (repairRecordedAttemptsAmong relayer env clients others candidates db).result =
          .error e := by
    rw [hcheck] at hended
    obtain ⟨hdb, hresult, hupdates⟩ := hended e rfl
    exact ⟨hdb, fun u hu => (hupdates u hu).resolve_right (List.not_mem_nil), hresult⟩
  refine ⟨fun hunanswered => ?_, fun a hanswered hfirst => ⟨fun hgas => ?_, fun hgas hserved => ?_⟩⟩
  · obtain ⟨e, hcheck⟩ := repairCandidateAmong_unanswered relayer chainNonce hload hunanswered
    obtain ⟨hdb, hupdates, hresult⟩ := hstops hcheck
    exact ⟨hdb, hupdates, e, hresult⟩
  · have hcheck := repairCandidateAmong_landed relayer chainNonce hload hanswered hfirst
    rw [hgas] at hcheck
    exact hstops hcheck
  · obtain ⟨gas, hgas⟩ := Option.isSome_iff_exists.mp hgas
    have hcheck := repairCandidateAmong_landed relayer chainNonce hload hanswered hfirst
    rw [hgas, hserved] at hcheck
    simp only [Bool.not_true, Bool.false_eq_true, ↓reduceIte] at hcheck
    rw [hcheck] at hkept hended
    refine ⟨_, hkept _ (List.mem_singleton_self _), rfl, rfl, rfl,
      fun hrecoverable => Db.recoverLanded_row hgas hrecoverable, fun hunrecoverable => ?_⟩
    have hrefused := mt (@Db.recoverLanded_served_iff _ relayer.id t.id a gas
      (!relayer.eip1559Enabled) env.nowRepair).mp hunrecoverable
    rw [Bool.not_eq_true] at hrefused
    have hsame := Db.recoverLanded_refused hrefused
    obtain ⟨hdb, hresult, -⟩ := hended _ (if_neg (by rw [hrefused]; exact Bool.false_ne_true))
    exact ⟨hsame, hdb.trans hsame, hresult⟩

end Run

/-- A provider that knows both attempts whose answers were lost. -/
def bothAttemptsClient : RpcClient :=
  servedClient [paymentEnvelope 0 5 1 10, paymentEnvelope 0 5 2 20] 1

/-- Two attempts of one row are found, and the row cannot take both hashes. -/
theorem repairRecordedAttempts_found_fails :
    ¬ ∀ relayer env clients candidates db i t db',
      RepairReaches relayer env clients (fun _ db => db) candidates db i t db' →
      env.loadAttempts t.id = true → env.recoverLanded t.id = true →
      Answered (clients i) (db'.getRecordedTransactionAttempts t.id) →
      ∀ a ∈ db'.getRecordedTransactionAttempts t.id, Known (clients i) a.hash →
        a.sentWithGas.isSome = true → ∃ r,
          (repairRecordedAttemptsAmong relayer env clients (fun _ db => db) candidates db).db.row
            t.id = some r ∧ r.status = .inmempool ∧ r.knownTransactionHash = some a.hash := by
  intro hfound
  have hrun : ∃ t ∈ (freshRelayer.run
        lostAnswersRun).db.getPendingTransactionsWithAttemptEvidenceForRelayer
          freshRelayer.relayer.id, t.id = 0 ∧
      ((freshRelayer.run lostAnswersRun).db.getRecordedTransactionAttempts 0).map (·.hash) =
        [paymentEnvelope 0 5 1 10, paymentEnvelope 0 5 2 20] ∧
      ∀ a ∈ (freshRelayer.run lostAnswersRun).db.getRecordedTransactionAttempts 0,
        a.sentWithGas.isSome = true ∧
          transactionExistsAcrossClients [bothAttemptsClient] a.hash = .ok true := by
    decide +kernel
  obtain ⟨t, -, hid, hashes, hattempts⟩ := hrun
  set db := (freshRelayer.run lostAnswersRun).db with hdb
  have hreached : RepairReaches freshRelayer.relayer (servedStartup bothAttemptsClient)
      (fun _ => [bothAttemptsClient]) (fun _ db => db) [t] db 0 t db :=
    ⟨rfl, rfl, 1, [], by decide, rfl, rfl⟩
  have hanswered : Answered [bothAttemptsClient] (db.getRecordedTransactionAttempts t.id) := by
    rw [hid]
    exact fun a ha => ⟨true, (hattempts a ha).2⟩
  have hadopts := hfound _ _ _ _ _ _ _ _ hreached rfl rfl hanswered
  rw [hid] at hadopts
  have htaken (hash : TransactionHash)
      (h : hash ∈ (db.getRecordedTransactionAttempts 0).map (·.hash)) :
      ∃ r, (repairRecordedAttemptsAmong freshRelayer.relayer (servedStartup bothAttemptsClient)
        (fun _ => [bothAttemptsClient]) (fun _ db => db) [t] db).db.row 0 = some r ∧
          r.knownTransactionHash = some hash := by
    obtain ⟨a, ha, rfl⟩ := List.mem_map.mp h
    obtain ⟨r, hr, -, hshown⟩ := hadopts a ha (transactionExists_true.mp (hattempts a ha).2)
      (hattempts a ha).1
    exact ⟨r, hr, hshown⟩
  rw [hashes] at htaken
  obtain ⟨r, hr, hfirst⟩ := htaken (paymentEnvelope 0 5 1 10) (List.mem_cons_self ..)
  obtain ⟨r', hr', hsecond⟩ := htaken (paymentEnvelope 0 5 2 20)
    (List.mem_cons_of_mem _ (List.mem_singleton_self _))
  obtain rfl := Option.some.inj (hr.symm.trans hr')
  have hsame := Option.some.inj (hfirst.symm.trans hsecond)
  revert hsame
  decide

end Rrelayer
