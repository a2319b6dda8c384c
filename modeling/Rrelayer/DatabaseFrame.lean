import Rrelayer.Database

/-! What a statement leaves alone. `Within P` says that a change of the database only touches
transactions `x` with `P x n` for some nonce `n`, and only writes such nonces. -/
namespace Rrelayer
namespace Db

/-- The primary key of the table. -/
def PrimaryKey (db : Db) : Prop := (db.rows.map (·.id)).Nodup

structure Within (P : TransactionId → ℕ → Prop) (db db' : Db) : Prop where
  rowsFrame : ∀ x, (∀ n, ¬ P x n) →
    db'.rows.filter (·.id == x) = db.rows.filter (·.id == x)
  auditFrame : ∀ x, (∀ n, ¬ P x n) →
    db'.audit.filter (·.id == x) = db.audit.filter (·.id == x)
  nonces : ∀ r' ∈ db'.rows, P r'.id r'.nonce ∨ ∃ r ∈ db.rows, r.id = r'.id ∧ r.nonce = r'.nonce
  kept : ∀ r ∈ db.rows, ∃ r' ∈ db'.rows, r'.id = r.id
  primaryKey : db.PrimaryKey → db'.PrimaryKey

/-- Every row has the id and the nonce of an earlier row. -/
def KeepsNonces (db db' : Db) : Prop :=
  ∀ r' ∈ db'.rows, ∃ r ∈ db.rows, r.id = r'.id ∧ r.nonce = r'.nonce

theorem KeepsNonces.refl (db : Db) : db.KeepsNonces db := fun r hr => ⟨r, hr, rfl, rfl⟩

variable {P P' : TransactionId → ℕ → Prop} {db db' db'' : Db}

theorem KeepsNonces.trans (h : db.KeepsNonces db') (h' : db'.KeepsNonces db'') :
    db.KeepsNonces db'' := by
  intro r'' hr''
  obtain ⟨r', hr', hid', hn'⟩ := h' r'' hr''
  obtain ⟨r, hr, hid, hn⟩ := h r' hr'
  exact ⟨r, hr, hid.trans hid', hn.trans hn'⟩

/-- A rewrite of some rows that changes neither id nor nonce. -/
theorem keepsNonces_map {g : Row → Row} {audit : List Row}
    (hg : ∀ r, (g r).id = r.id ∧ (g r).nonce = r.nonce) :
    db.KeepsNonces ⟨db.rows.map g, audit⟩ := by
  intro r' hr'
  obtain ⟨r, hr, rfl⟩ := List.mem_map.mp hr'
  exact ⟨r, hr, (hg r).1.symm, (hg r).2.symm⟩

theorem Within.refl (db : Db) : db.Within P db where
  rowsFrame _ _ := rfl
  auditFrame _ _ := rfl
  nonces r hr := .inr ⟨r, hr, rfl, rfl⟩
  kept r hr := ⟨r, hr, rfl⟩
  primaryKey h := h

theorem Within.trans (h : db.Within P db') (h' : db'.Within P db'') : db.Within P db'' where
  rowsFrame x hx := (h'.rowsFrame x hx).trans (h.rowsFrame x hx)
  auditFrame x hx := (h'.auditFrame x hx).trans (h.auditFrame x hx)
  nonces r'' hr'' := by
    rcases h'.nonces r'' hr'' with hp | ⟨r', hr', hid, hn⟩
    · exact .inl hp
    · rw [← hid, ← hn]
      exact h.nonces r' hr'
  kept r hr := by
    obtain ⟨r', hr', hid⟩ := h.kept r hr
    obtain ⟨r'', hr'', hid'⟩ := h'.kept r' hr'
    exact ⟨r'', hr'', hid'.trans hid⟩
  primaryKey hkey := h'.primaryKey (h.primaryKey hkey)

theorem Within.mono (hP : ∀ x n, P x n → P' x n) (h : db.Within P db') : db.Within P' db' where
  rowsFrame x hx := h.rowsFrame x fun n hn => hx n (hP x n hn)
  auditFrame x hx := h.auditFrame x fun n hn => hx n (hP x n hn)
  nonces r' hr' := (h.nonces r' hr').imp (hP _ _) id
  kept := h.kept
  primaryKey := h.primaryKey

/-- A transaction out of reach keeps its row and its recorded attempts. -/
theorem Within.row_eq (h : db.Within P db') {x : TransactionId} (hx : ∀ n, ¬ P x n) :
    db'.row x = db.row x := by
  unfold row
  rw [← List.head?_filter, ← List.head?_filter, h.rowsFrame x hx]

theorem Within.attempts_eq (h : db.Within P db') {x : TransactionId} (hx : ∀ n, ¬ P x n) :
    db'.getRecordedTransactionAttempts x = db.getRecordedTransactionAttempts x := by
  unfold getRecordedTransactionAttempts
  rw [h.rowsFrame x hx, h.auditFrame x hx]

theorem Within.row_isSome (h : db.Within P db') {x : TransactionId}
    (hx : (db.row x).isSome = true) : (db'.row x).isSome = true := by
  unfold row at hx ⊢
  rw [List.find?_isSome] at hx ⊢
  obtain ⟨r, hr, hid⟩ := hx
  obtain ⟨r', hr', hid'⟩ := h.kept r hr
  exact ⟨r', hr', by rw [hid']; exact hid⟩

/-- A rewrite that only changes rows outside a selection does not show in it. -/
theorem filter_map_eq {rows : List Row} {p : Row → Bool} {g : Row → Row}
    (hg : ∀ r ∈ rows, p r = true ∨ p (g r) = true → g r = r) :
    (rows.map g).filter p = rows.filter p := by
  induction rows with
  | nil => rfl
  | cons r rs ih =>
    have hr := hg r (List.mem_cons_self ..)
    rw [List.map_cons, List.filter_cons, List.filter_cons,
      ih fun s hs => hg s (List.mem_cons_of_mem _ hs)]
    by_cases hp : p r = true
    · rw [hr (.inl hp)]
    · by_cases hpg : p (g r) = true
      · rw [hr (.inr hpg)]
      · rw [if_neg hp, if_neg hpg]

theorem update_within {x : TransactionId} {n : ℕ} {f : Row → Row} (hx : P x n)
    (hid : ∀ r, (f r).id = r.id)
    (hnonce : ∀ r, (f r).nonce = r.nonce ∨ P x (f r).nonce) : db.Within P (db.update x f) where
  rowsFrame y hy := by
    refine filter_map_eq fun r _ hr => ?_
    have hne : r.id ≠ x := by
      rintro rfl
      simp only [BEq.rfl, ↓reduceIte, hid, or_self, beq_iff_eq] at hr
      exact hy n (hr ▸ hx)
    simp [hne]
  auditFrame _ _ := rfl
  nonces r' hr' := by
    obtain ⟨r, hr, rfl⟩ := List.mem_map.mp hr'
    by_cases hrx : r.id = x
    · simp only [hrx, BEq.rfl, ↓reduceIte]
      rcases hnonce r with hn | hn
      · exact .inr ⟨r, hr, (hid r).symm, hn.symm⟩
      · exact .inl (by rw [hid, hrx]; exact hn)
    · simp only [beq_iff_eq, hrx, ↓reduceIte]
      exact .inr ⟨r, hr, rfl, rfl⟩
  kept r hr := by
    refine ⟨_, List.mem_map_of_mem hr, ?_⟩
    split
    · exact hid r
    · rfl
  primaryKey hkey := by
    have hids : (db.update x f).rows.map (·.id) = db.rows.map (·.id) := by
      unfold update
      rw [List.map_map]
      apply List.map_congr_left
      intro r _
      show (if r.id == x then f r else r).id = r.id
      split
      · exact hid r
      · rfl
    unfold PrimaryKey
    rw [hids]
    exact hkey

theorem filter_append_of_ne {audit added : List Row} {y : TransactionId}
    (h : ∀ r ∈ added, r.id ≠ y) :
    (audit ++ added).filter (·.id == y) = audit.filter (·.id == y) := by
  have hnil : added.filter (·.id == y) = [] :=
    List.filter_eq_nil_iff.mpr fun r hr => by simpa using h r hr
  rw [List.filter_append, hnil, List.append_nil]

/-- A log entry of a transaction within reach. -/
theorem append_audit_within {added : List Row} (h : ∀ r ∈ added, ∃ n, P r.id n) :
    db.Within P { db with audit := db.audit ++ added } where
  rowsFrame _ _ := rfl
  auditFrame y hy := by
    refine filter_append_of_ne fun r hr hry => ?_
    obtain ⟨n, hn⟩ := h r hr
    exact hy n (hry ▸ hn)
  nonces r hr := .inr ⟨r, hr, rfl, rfl⟩
  kept r hr := ⟨r, hr, rfl⟩
  primaryKey hkey := hkey

theorem log_within {x : TransactionId} {n : ℕ} {snapshot : Row → Row} (hx : P x n)
    (hid : ∀ r, (snapshot r).id = r.id) : db.Within P (db.log x snapshot) := by
  refine append_audit_within fun r hr => ⟨n, ?_⟩
  obtain ⟨r₀, hr₀, rfl⟩ := List.mem_map.mp hr
  have hr₀x : r₀.id = x := by simpa using (List.mem_filter.mp hr₀).2
  rw [hid, hr₀x]
  exact hx

/-- The shape of every statement on one row: the row first, then its log entry. -/
theorem updateLog_within {x : TransactionId} {n : ℕ} {f snapshot : Row → Row} (hx : P x n)
    (hid : ∀ r, (f r).id = r.id) (hnonce : ∀ r, (f r).nonce = r.nonce ∨ P x (f r).nonce)
    (hsnapshot : ∀ r, (snapshot r).id = r.id) : db.Within P ((db.update x f).log x snapshot) :=
  (update_within hx hid hnonce).trans (log_within hx hsnapshot)

theorem insert_within {r : Row} (h : db.insert r = some db') (hr : P r.id r.nonce) :
    db.Within P db' := by
  unfold insert at h
  split at h
  · cases h
  · rename_i hfree
    cases h
    refine ⟨fun y hy => ?_, fun _ _ => rfl, fun r' hr' => ?_, fun r' hr' => ?_, fun hkey => ?_⟩
    · refine filter_append_of_ne fun r' hr' hry => ?_
      rw [List.mem_singleton.mp hr'] at hry
      exact hy r.nonce (hry ▸ hr)
    · rcases List.mem_append.mp hr' with hr' | hr'
      · exact .inr ⟨r', hr', rfl, rfl⟩
      · rw [List.mem_singleton.mp hr']
        exact .inl hr
    · exact ⟨r', List.mem_append_left _ hr', rfl⟩
    · have hnone : db.row r.id = none := by
        rcases hrow : db.row r.id with _ | r₀
        · rfl
        · simp [hrow] at hfree
      have hnew : r.id ∉ db.rows.map (·.id) := by
        intro hmem
        obtain ⟨r₀, hr₀, hid⟩ := List.mem_map.mp hmem
        have := List.find?_eq_none.mp hnone r₀ hr₀
        exact this (by simpa using hid)
      unfold PrimaryKey
      rw [List.map_append, List.map_singleton, List.nodup_append_comm]
      exact List.nodup_cons.mpr ⟨hnew, hkey⟩

section Statements

variable {x : TransactionId} {n : ℕ} {t : Transaction} {relayerId : RelayerId}

theorem transactionBroadcastAttempt_within {hash : TransactionHash} {gas : GasPriceResult}
    {blobGas : Option BlobGasPriceResult} {legacy : Bool} {now : DateTime} (hx : P t.id t.nonce)
    (h : db.transactionBroadcastAttempt relayerId t hash gas blobGas legacy now = some db') :
    db.Within P db' := by
  unfold transactionBroadcastAttempt at h
  dsimp only at h
  split at h
  · cases h
    exact updateLog_within hx (fun _ => rfl) (fun _ => .inr hx) fun _ => rfl
  · obtain ⟨db₁, hi, rfl⟩ := Option.map_eq_some_iff.mp h
    exact (insert_within hi hx).trans (log_within hx fun _ => rfl)

theorem transactionSent_within {hash : TransactionHash} {gas : GasPriceResult}
    {blobGas : Option BlobGasPriceResult} {legacy : Bool} {now : DateTime} (hx : P x n) :
    db.Within P (db.transactionSent x hash gas blobGas legacy now) :=
  updateLog_within hx (fun _ => rfl) (fun _ => .inl rfl) fun _ => rfl

theorem recoverLanded_within {hash : TransactionHash} {gas : GasPriceResult}
    {blobGas : Option BlobGasPriceResult} {legacy : Bool} {now : DateTime} (hx : P x n) :
    db.Within P
      (db.recoverLandedTransactionAttempt relayerId x hash gas blobGas legacy now).2 := by
  unfold recoverLandedTransactionAttempt
  dsimp only
  split
  · split
    · exact updateLog_within hx (fun _ => rfl) (fun _ => .inl rfl) fun _ => rfl
    · exact .refl db
  · exact .refl db

theorem saveTransaction_within (hx : P t.id t.nonce)
    (h : db.saveTransaction relayerId t = some db') : db.Within P db' := by
  obtain ⟨db₁, hi, rfl⟩ := Option.map_eq_some_iff.mp h
  refine (insert_within hi hx).trans (append_audit_within fun r hr => ⟨t.nonce, ?_⟩)
  rw [List.mem_singleton.mp hr]
  exact hx

theorem transactionFailedOnSend_within {reason : String} {now : DateTime} (hx : P t.id t.nonce)
    (h : db.transactionFailedOnSend relayerId t reason now = some db') : db.Within P db' := by
  obtain ⟨db₁, hi, rfl⟩ := Option.map_eq_some_iff.mp h
  refine (insert_within hi hx).trans (append_audit_within fun r hr => ⟨t.nonce, ?_⟩)
  rw [List.mem_singleton.mp hr]
  exact hx

theorem updateTransactionFailed_within {reason : String} {now : DateTime} (hx : P x n) :
    db.Within P (db.updateTransactionFailed x reason now) :=
  updateLog_within hx (fun _ => rfl) (fun _ => .inl rfl) fun _ => rfl

theorem transactionMined_within {receipt : Receipt} {now : DateTime} (hx : P t.id t.nonce) :
    db.Within P (db.transactionMined t receipt now) :=
  updateLog_within hx (fun _ => rfl) (fun _ => .inr hx) fun _ => rfl

theorem transactionConfirmed_within {now : DateTime} (hx : P x n) :
    db.Within P (db.transactionConfirmed x now) :=
  updateLog_within hx (fun _ => rfl) (fun _ => .inl rfl) fun _ => rfl

theorem transactionUpdateNonce_within (hx : P x n) : db.Within P (db.transactionUpdateNonce x n) :=
  updateLog_within hx (fun _ => rfl) (fun _ => .inr hx) fun _ => rfl

theorem transactionExpired_within {now : DateTime} (hx : P x n) :
    db.Within P (db.transactionExpired x now) :=
  updateLog_within hx (fun _ => rfl) (fun _ => .inl rfl) fun _ => rfl

theorem transactionUpdate_within {now : DateTime} (hx : P t.id t.nonce) :
    db.Within P (db.transactionUpdate t now) :=
  updateLog_within hx (fun _ => rfl) (fun _ => .inr hx) fun _ => rfl

end Statements

end Db
end Rrelayer
