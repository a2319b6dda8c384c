import Rrelayer.MirroredRows

/-! Conservation of the queue: every id in one place, the pending transactions by nonce, and the
movers exact on what they are asked to move. -/
namespace Rrelayer
namespace TransactionsQueue

/-- The ids of the pending transactions, of both sides of every race and of the mined map. -/
def ids (q : TransactionsQueue) : List TransactionId :=
  q.pendingTransactions.map (·.id) ++ (q.entryIds ++ q.minedTransactions.map (·.id))

def PendingSorted (q : TransactionsQueue) : Prop :=
  (q.pendingTransactions.map (·.nonce)).Pairwise (· ≤ ·)

/-- Every id occurs once over the three containers, and pending transactions stand by nonce. -/
structure Conserved (q : TransactionsQueue) : Prop where
  ids : q.ids.Nodup
  sorted : q.PendingSorted

section InPlace

variable (q : TransactionsQueue)

variable {q}

end InPlace

variable {q q' : TransactionsQueue}

/-- The winner of the front is one of its two transactions. -/
theorem resolveCompetition_winner_id {a : EvmAddress} {c : CompetitiveTransaction}
    {id : TransactionId} {receipt : Receipt} {now : DateTime} {r : CompetitionResolutionResult}
    (h : resolveCompetition a c id receipt now = some r) : r.winner.id = id ∧ id ∈ c.ids := by
  obtain ⟨hid, hslot, -⟩ := resolveCompetition_slots h
  refine ⟨hid, ?_⟩
  obtain ⟨t, ht, hsame⟩ := List.mem_map.mp hslot
  have htid : t.id = id := (congrArg Prod.fst hsame).trans hid
  exact List.mem_map.mpr ⟨t, ht, htid⟩

/-- What a change of the queue keeps: no id appears but a new one, and the order by nonce. -/
structure Keeps (newId : Option TransactionId) (q q' : TransactionsQueue) : Prop where
  ids : q'.ids.Subperm (newId.toList ++ q.ids)
  sorted : q.PendingSorted → q'.PendingSorted

variable {newId : Option TransactionId}

theorem Keeps.of_same (hids : q'.ids = q.ids)
    (hsorted : q'.pendingTransactions.map (·.nonce) = q.pendingTransactions.map (·.nonce)) :
    Keeps newId q q' := by
  constructor
  · rw [hids]
    exact (List.sublist_append_right ..).subperm
  · unfold PendingSorted
    rw [hsorted]
    exact id

theorem Keeps.refl (newId : Option TransactionId) (q : TransactionsQueue) : Keeps newId q q :=
  .of_same rfl rfl

/-- A kept queue is conserved again, when the new id is one the queue does not hold. -/
theorem Keeps.conserved (h : Keeps newId q q') (hq : q.Conserved)
    (hfresh : ∀ x ∈ newId, x ∉ q.ids) : q'.Conserved := by
  refine ⟨?_, h.sorted hq.sorted⟩
  have hnodup : (newId.toList ++ q.ids).Nodup := by
    rcases newId with _ | x
    · exact hq.ids
    · exact List.nodup_cons.mpr ⟨hfresh x rfl, hq.ids⟩
  obtain ⟨l, hperm, hsub⟩ := h.ids
  exact hperm.nodup_iff.mp (hnodup.sublist hsub)

/-- Inserted before the first larger nonce, a transaction keeps the order. -/
theorem orderedInsert_nonce_sorted {t : Transaction} {ts : List Transaction}
    (h : (ts.map (·.nonce)).Pairwise (· ≤ ·)) :
    ((ts.orderedInsert (fun a b => a.nonce < b.nonce) t).map (·.nonce)).Pairwise (· ≤ ·) := by
  induction ts with
  | nil => simp
  | cons u ts ih =>
    rw [List.map_cons, List.pairwise_cons] at h
    unfold List.orderedInsert
    split
    · rename_i hless
      have hless : t.nonce < u.nonce := hless
      have hall : ∀ n ∈ (u :: ts).map (·.nonce), t.nonce ≤ n := by
        intro n hn
        rcases List.mem_cons.mp hn with rfl | hn
        · exact Nat.le_of_lt hless
        · exact Nat.le_trans (Nat.le_of_lt hless) (h.1 n hn)
      rw [List.map_cons, List.pairwise_cons]
      refine ⟨hall, ?_⟩
      rw [List.map_cons, List.pairwise_cons]
      exact h
    · rename_i hless
      have hless : ¬ t.nonce < u.nonce := hless
      rw [List.map_cons, List.pairwise_cons]
      refine ⟨?_, ih h.2⟩
      intro n hn
      obtain ⟨v, hv, rfl⟩ := List.mem_map.mp hn
      rcases (List.mem_orderedInsert (r := fun a b : Transaction => a.nonce < b.nonce)).mp hv with
        rfl | hv
      · exact Nat.le_of_not_lt hless
      · exact h.1 v.nonce (List.mem_map_of_mem hv)

theorem keeps_addPendingTransaction {t : Transaction} :
    Keeps (some t.id) q (q.addPendingTransaction t) := by
  constructor
  · have hperm := (List.perm_orderedInsert (fun a b : Transaction => a.nonce < b.nonce) t
      q.pendingTransactions).map (·.id)
    exact (hperm.append_right (q.entryIds ++ q.minedTransactions.map (·.id))).subperm
  · exact orderedInsert_nonce_sorted

theorem keeps_movePendingToInmempool {t : Transaction} {sent : TransactionSentWithRelayer}
    {now : DateTime} (h : q.movePendingToInmempool t sent now = .ok q') : Keeps newId q q' := by
  obtain ⟨queued, rest, hlist, hqueued, hsent, rfl⟩ := movePendingToInmempool_ok h
  have hid : t.id = queued.id := hsent.trans hqueued.symm
  constructor
  · have hmoved : ids { q with
        pendingTransactions := rest
        inmempoolTransactions :=
          q.inmempoolTransactions ++ [.new (sentTransaction t sent now)] } =
        rest.map (·.id) ++ (q.entryIds ++ [queued.id] ++ q.minedTransactions.map (·.id)) := by
      have hentry : (CompetitiveTransaction.new (sentTransaction t sent now)).ids =
          [queued.id] := by
        rw [← hid]
        rfl
      unfold ids entryIds
      simp only [List.flatMap_append, List.flatMap_cons, List.flatMap_nil, hentry,
        List.append_nil]
    have hbefore : q.ids = queued.id :: (rest.map (·.id) ++
        (q.entryIds ++ q.minedTransactions.map (·.id))) := by
      unfold ids
      rw [hlist]
      rfl
    have hperm : (rest.map (·.id) ++ (q.entryIds ++ [queued.id] ++
        q.minedTransactions.map (·.id))).Perm q.ids := by
      rw [hbefore, List.append_assoc, List.singleton_append, ← List.append_assoc,
        ← List.append_assoc]
      exact List.perm_middle
    rw [hmoved]
    exact hperm.subperm.trans (List.sublist_append_right ..).subperm
  · intro hsorted
    unfold PendingSorted at hsorted ⊢
    rw [hlist, List.map_cons, List.pairwise_cons] at hsorted
    exact hsorted.2

/-- An edit that keeps the nonce of the transaction it replaces. -/
theorem keeps_updatePendingTransaction {t u : Transaction}
    (hfind : q.pendingTransactions.find? (·.id == u.id) = some t) (hnonce : u.nonce = t.nonce) :
    Keeps newId q (q.updatePendingTransaction u) := by
  have hsame (t' : Transaction) (h : q.pendingTransactions.find? (·.id == u.id) = some t') :
      u.id = t'.id ∧ u.nonce = t'.nonce := by
    have hid : t'.id = u.id := by simpa using List.find?_some h
    rw [hfind] at h
    cases h
    exact ⟨hid.symm, hnonce⟩
  have hids : (q.updatePendingTransaction u).pendingTransactions.map (·.id) =
      q.pendingTransactions.map (·.id) :=
    map_updateFirst fun t' h => (hsame t' h).1
  have hnonces : (q.updatePendingTransaction u).pendingTransactions.map (·.nonce) =
      q.pendingTransactions.map (·.nonce) :=
    map_updateFirst fun t' h => (hsame t' h).2
  apply Keeps.of_same
  · unfold ids
    rw [hids]
    rfl
  · exact hnonces

theorem sortPendingTransactions_sorted (ts : List Transaction) :
    ((sortPendingTransactions ts).map (·.nonce)).Pairwise (· ≤ ·) := by
  have htotal : Std.Total fun a b : Transaction => a.nonce ≤ b.nonce :=
    ⟨fun a b => Nat.le_total a.nonce b.nonce⟩
  have htrans : IsTrans Transaction fun a b => a.nonce ≤ b.nonce :=
    ⟨fun _ _ _ hab hbc => Nat.le_trans hab hbc⟩
  unfold sortPendingTransactions
  apply List.pairwise_map.mpr
  exact List.pairwise_insertionSort _ _

theorem keeps_updatePendingTransactionNonce {id : TransactionId} {m : ℕ} :
    Keeps newId q (q.updatePendingTransactionNonce id m) := by
  constructor
  · have hids := @ids_updatePendingTransactionNonce q id m
    have hperm : (q.updatePendingTransactionNonce id m).ids.Perm q.ids := by
      unfold ids entryIds
      rw [updatePendingTransactionNonce_inmempoolTransactions,
        updatePendingTransactionNonce_minedTransactions]
      exact hids.append_right _
    exact hperm.subperm.trans (List.sublist_append_right ..).subperm
  · intro hsorted
    unfold updatePendingTransactionNonce
    split
    · exact sortPendingTransactions_sorted _
    · exact hsorted

theorem keeps_addCompetitor {originalId : TransactionId} {competitor : Transaction}
    {type : CompetitionType}
    (h : q.addCompetitorToInmempoolTransaction originalId competitor type = .ok q') :
    Keeps (some competitor.id) q q' := by
  obtain ⟨front, rest, hlist, -, rfl⟩ := addCompetitor_ok h
  constructor
  · -- The front keeps its original; a competitor it had gives way to the new one.
    have hfront : (front.addCompetitor competitor type).ids.Subperm
        (competitor.id :: front.ids) := by
      have hswap : [front.original.id, competitor.id].Perm
          [competitor.id, front.original.id] := List.Perm.swap ..
      have hsub : [competitor.id, front.original.id].Sublist (competitor.id :: front.ids) := by
        apply List.Sublist.cons_cons
        rw [race_ids]
        exact List.Sublist.cons_cons _ (List.nil_sublist _)
      exact hswap.subperm.trans hsub.subperm
    have hentries : (front.addCompetitor competitor type :: rest).flatMap (·.ids) |>.Subperm
        (competitor.id :: q.entryIds) := by
      unfold entryIds
      rw [hlist, List.flatMap_cons, List.flatMap_cons, ← List.cons_append]
      exact (List.subperm_append_right _).mpr hfront
    have hrest := (List.subperm_append_left (q.pendingTransactions.map (·.id))).mpr
      ((List.subperm_append_right (q.minedTransactions.map (·.id))).mpr hentries)
    apply hrest.trans
    rw [List.cons_append]
    exact List.perm_middle.subperm
  · exact id

/-- An update of an entry that keeps ids keeps the list of ids. -/
theorem keeps_of_entries (hpending : q'.pendingTransactions = q.pendingTransactions)
    (hmined : q'.minedTransactions = q.minedTransactions)
    (hentries : q'.inmempoolTransactions.map (·.ids) = q.inmempoolTransactions.map (·.ids)) :
    Keeps newId q q' := by
  apply Keeps.of_same
  · unfold ids entryIds
    rw [hpending, hmined, List.flatMap_def, List.flatMap_def, hentries]
  · rw [hpending]

theorem keeps_updateFrontById {id : TransactionId} {f : Transaction → Transaction}
    (hf : ∀ u, (f u).id = u.id) : Keeps newId q (q.updateFrontById id f) := by
  obtain ⟨hpending, hmined⟩ := Locked.updateFrontById_lists q id f
  apply keeps_of_entries hpending hmined
  unfold updateFrontById
  split
  · rename_i front rest hlist
    have hfront : (front.updateTransactionById id f).ids = front.ids :=
      Locked.updateTransactionById_ids hf
    rw [hlist, List.map_cons, List.map_cons, hfront]
  · rfl

theorem keeps_updateInmempoolTransactionNonce {id : TransactionId} {m : ℕ} :
    Keeps newId q (q.updateInmempoolTransactionNonce id m) := by
  apply keeps_of_entries
  · rfl
  · rfl
  · exact map_updateFirst fun _ _ => Locked.updateTransactionById_ids fun _ => rfl

/-- The front leaves with both sides of its race; at most its winner is in the map afterwards. -/
theorem keeps_moveInmempoolToMining {id : TransactionId} {receipt : Receipt} {now : DateTime}
    {r : CompetitionResolutionResult}
    (h : q.moveInmempoolToMining id receipt now = .ok (r, q')) : Keeps newId q q' := by
  unfold moveInmempoolToMining at h
  split at h
  · cases h
  · rename_i front rest hlist
    split at h
    · cases h
    · rename_i resolution hresolve
      obtain ⟨hwinner, hmember⟩ := resolveCompetition_winner_id hresolve
      cases h
      constructor
      · have hentries : q.entryIds = front.ids ++ rest.flatMap (·.ids) := by
          unfold entryIds
          rw [hlist, List.flatMap_cons]
        have hmined : (if r.winner.status == .mined then insertMined q.minedTransactions r.winner
            else q.minedTransactions).map (·.id) |>.Subperm
              (front.ids ++ q.minedTransactions.map (·.id)) := by
          split
          · unfold insertMined
            rw [List.map_append, List.map_cons, List.map_nil, hwinner]
            have hold := (List.filter_sublist (p := fun u : Transaction => u.id != r.winner.id)
              (l := q.minedTransactions)).map (·.id)
            have hnew : [id].Subperm front.ids := List.singleton_subperm_iff.mpr hmember
            rw [hwinner] at hold
            apply List.perm_append_comm.subperm.trans
            apply ((List.subperm_append_left [id]).mpr hold.subperm).trans
            exact (List.subperm_append_right _).mpr hnew
          · exact (List.sublist_append_right ..).subperm
        have hrest := (List.subperm_append_left (rest.flatMap (·.ids))).mpr hmined
        have hperm : (rest.flatMap (·.ids) ++ (front.ids ++ q.minedTransactions.map (·.id))).Perm
            (q.entryIds ++ q.minedTransactions.map (·.id)) := by
          rw [hentries, ← List.append_assoc]
          exact List.perm_append_comm.append_right _
        have hafter := (List.subperm_append_left (q.pendingTransactions.map (·.id))).mpr
          (hrest.trans hperm.subperm)
        exact hafter.trans (List.sublist_append_right ..).subperm
      · intro hsorted
        exact hsorted

theorem keeps_moveMiningToConfirmed {id : TransactionId} :
    Keeps newId q (q.moveMiningToConfirmed id) := by
  constructor
  · have hsub := (List.filter_sublist (p := fun u : Transaction => u.id != id)
      (l := q.minedTransactions)).map (·.id)
    have hids : (q.moveMiningToConfirmed id).ids.Sublist q.ids :=
      (hsub.append_left q.entryIds).append_left (q.pendingTransactions.map (Transaction.id ·))
    exact hids.subperm.trans (List.sublist_append_right ..).subperm
  · intro hsorted
    exact hsorted

end TransactionsQueue
end Rrelayer
