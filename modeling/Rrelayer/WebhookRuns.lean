import Rrelayer.Webhooks

/-! What happens to webhook deliveries when no two passes work on the same one: the copies of a pass
and the map agree on what was sent and what got through. -/
namespace Rrelayer

namespace WebhookManager

variable {m : WebhookManager} {e : WebhookEvent}

/-- The copy knows how often its delivery was sent and whether it got through. -/
structure Faithful (requests delivered : List ℕ) (d : WebhookDelivery) : Prop where
  settled : d.id ∈ delivered → d.shouldRetry = false
  counted : d.shouldRetry = true → requests.count d.id = d.attempts

def Sending (requests delivered : List ℕ) (t : SendTask) : Prop :=
  match t.stage with
  | .spawned => t.delivery.shouldRetry = true ∧ t.delivery.id ∉ delivered ∧
      requests.count t.delivery.id = t.delivery.attempts
  | .requested => t.delivery.shouldRetry = true ∧ t.delivery.id ∉ delivered ∧
      requests.count t.delivery.id = t.delivery.attempts + 1
  | .finished => Faithful requests delivered t.delivery
  | .panicked => True

/-- A delivery that was created, with its retry configuration. -/
def Known (m : WebhookManager) (d : WebhookDelivery) : Prop :=
  m.retries[d.id]? = some d.maxRetries

structure Consistent (m : WebhookManager) : Prop where
  pendingIds : (m.pendingDeliveries.map (·.id)).Nodup
  taskIds : (m.tasks.map (·.delivery.id)).Nodup
  pendingKnown : ∀ d ∈ m.pendingDeliveries, m.Known d
  tasksKnown : ∀ t ∈ m.tasks, m.Known t.delivery
  requestsKnown : ∀ id ∈ m.requests, id < m.retries.length
  deliveredKnown : ∀ id ∈ m.delivered, id < m.retries.length
  bounded : ∀ id, m.requests.count id ≤ m.retries.getD id 0
  /-- The map is behind only where a task has sent a request. -/
  pending : ∀ d ∈ m.pendingDeliveries,
    (∀ t ∈ m.tasks, t.delivery.id = d.id → t.stage = .spawned ∨ t.stage = .panicked) →
      Faithful m.requests m.delivered d
  tasks : ∀ t ∈ m.tasks, Sending m.requests m.delivered t

theorem Known.lt {d : WebhookDelivery} (h : m.Known d) : d.id < m.retries.length := by
  obtain ⟨hlt, -⟩ := List.getElem?_eq_some_iff.mp h
  exact hlt

theorem Known.getD {d : WebhookDelivery} (h : m.Known d) :
    m.retries.getD d.id 0 = d.maxRetries := by
  rw [List.getD_eq_getElem?_getD, h]
  rfl

theorem attempts_lt {d : WebhookDelivery} (h : d.shouldRetry = true) :
    d.attempts < d.maxRetries := by
  simp only [WebhookDelivery.shouldRetry, Bool.and_eq_true, decide_eq_true_eq] at h
  exact h.2

section Tasks

variable {tasks : List SendTask} {i : ℕ} {t t' u : SendTask}

theorem map_set_id (hi : tasks[i]? = some t) (hid : t'.delivery.id = t.delivery.id) :
    (tasks.set i t').map (·.delivery.id) = tasks.map (·.delivery.id) := by
  rw [List.map_set, hid]
  apply List.ext_getElem?
  intro j
  rw [List.getElem?_set]
  split
  · rename_i hij
    subst hij
    obtain ⟨hlt, hget⟩ := List.getElem?_eq_some_iff.mp hi
    simp [hlt, hget]
  · rfl

/-- A task that is replaced by one for the same delivery. -/
theorem mem_set_task (hnodup : (tasks.map (·.delivery.id)).Nodup) (hi : tasks[i]? = some t)
    (hid : t'.delivery.id = t.delivery.id) (hu : u ∈ tasks.set i t') :
    u = t' ∨ u ∈ tasks ∧ u.delivery.id ≠ t'.delivery.id := by
  obtain ⟨j, hj⟩ := List.mem_iff_getElem?.mp hu
  rw [List.getElem?_set] at hj
  split at hj
  · left
    split at hj
    · exact (Option.some.inj hj).symm
    · cases hj
  · rename_i hij
    right
    refine ⟨List.mem_of_getElem? hj, ?_⟩
    intro hsame
    apply hij
    obtain ⟨hilt, higet⟩ := List.getElem?_eq_some_iff.mp hi
    obtain ⟨hjlt, hjget⟩ := List.getElem?_eq_some_iff.mp hj
    apply (@List.Nodup.getElem_inj_iff _ _ hnodup i (by simpa using hilt) j
      (by simpa using hjlt)).mp
    simp only [List.getElem_map, higet, hjget]
    rw [hsame, hid]

theorem mem_set_of_ne (hi : tasks[i]? = some t) (hu : u ∈ tasks) (hne : u ≠ t) :
    u ∈ tasks.set i t' := by
  obtain ⟨j, hj⟩ := List.mem_iff_getElem?.mp hu
  apply List.mem_of_getElem? (i := j)
  rw [List.getElem?_set, if_neg]
  · exact hj
  · rintro rfl
    exact hne (Option.some.inj (hj.symm.trans hi))

end Tasks

section Records

variable {requests delivered requests' delivered' : List ℕ}

/-- A copy is faithful to any record that says the same of its delivery. -/
theorem Faithful.of_same {d : WebhookDelivery} (h : Faithful requests delivered d)
    (hcount : requests'.count d.id = requests.count d.id)
    (hdelivered : d.id ∈ delivered' ↔ d.id ∈ delivered) : Faithful requests' delivered' d := by
  constructor
  · intro hin
    exact h.settled (hdelivered.mp hin)
  · intro hretry
    rw [← h.counted hretry]
    exact hcount

theorem Sending.of_same {t : SendTask} (h : Sending requests delivered t)
    (hcount : requests'.count t.delivery.id = requests.count t.delivery.id)
    (hdelivered : t.delivery.id ∈ delivered' ↔ t.delivery.id ∈ delivered) :
    Sending requests' delivered' t := by
  unfold Sending at h ⊢
  cases hstage : t.stage with
  | spawned =>
    rw [hstage] at h
    exact ⟨h.1, fun hin => h.2.1 (hdelivered.mp hin), hcount.trans h.2.2⟩
  | requested =>
    rw [hstage] at h
    exact ⟨h.1, fun hin => h.2.1 (hdelivered.mp hin), hcount.trans h.2.2⟩
  | finished =>
    rw [hstage] at h
    exact Faithful.of_same h hcount hdelivered
  | panicked => trivial

end Records

theorem Consistent.eq_of_id (h : m.Consistent) {t u : SendTask} (ht : t ∈ m.tasks)
    (hu : u ∈ m.tasks) (hid : u.delivery.id = t.delivery.id) : u = t :=
  List.inj_on_of_nodup_map h.taskIds hu ht hid

/-- One task goes on; what is recorded of other deliveries stays as it is. -/
theorem Consistent.setTask {i : ℕ} {t t' : SendTask} {requests delivered : List ℕ}
    (h : m.Consistent) (hi : m.tasks[i]? = some t) (hid : t'.delivery.id = t.delivery.id)
    (hmax : t'.delivery.maxRetries = t.delivery.maxRetries)
    (hcount : ∀ id, id ≠ t.delivery.id → requests.count id = m.requests.count id)
    (hdelivered : ∀ id, id ≠ t.delivery.id → (id ∈ delivered ↔ id ∈ m.delivered))
    (hbounded : requests.count t.delivery.id ≤ t.delivery.maxRetries)
    (hown : ∀ d ∈ m.pendingDeliveries, d.id = t.delivery.id →
      (t'.stage = .spawned ∨ t'.stage = .panicked) →
        Faithful requests delivered d)
    (hsending : Sending requests delivered t') :
    Consistent { m with
      tasks := m.tasks.set i t', requests := requests, delivered := delivered } := by
  have hmem : t ∈ m.tasks := List.mem_of_getElem? hi
  have hknown : m.Known t.delivery := h.tasksKnown t hmem
  refine ⟨h.pendingIds, ?_, h.pendingKnown, ?_, ?_, ?_, ?_, ?_, ?_⟩
  · show ((m.tasks.set i t').map (·.delivery.id)).Nodup
    rw [map_set_id hi hid]
    exact h.taskIds
  · intro u hu
    obtain rfl | ⟨hu, -⟩ := mem_set_task h.taskIds hi hid hu
    · show m.retries[u.delivery.id]? = some u.delivery.maxRetries
      rw [hid, hmax]
      exact hknown
    · exact h.tasksKnown u hu
  · intro id hin
    by_cases hother : id = t.delivery.id
    · rw [hother]
      exact hknown.lt
    · apply h.requestsKnown id
      apply List.count_pos_iff.mp
      rw [← hcount id hother]
      exact List.count_pos_iff.mpr hin
  · intro id hin
    by_cases hother : id = t.delivery.id
    · rw [hother]
      exact hknown.lt
    · exact h.deliveredKnown id ((hdelivered id hother).mp hin)
  · intro id
    by_cases hother : id = t.delivery.id
    · show requests.count id ≤ m.retries.getD id 0
      rw [hother, hknown.getD]
      exact hbounded
    · show requests.count id ≤ m.retries.getD id 0
      rw [hcount id hother]
      exact h.bounded id
  · intro d hd hquiet
    by_cases hother : d.id = t.delivery.id
    · apply hown d hd hother
      apply hquiet t' _ (hid.trans hother.symm)
      obtain ⟨hlt, -⟩ := List.getElem?_eq_some_iff.mp hi
      exact List.mem_set hlt t'
    · refine (h.pending d hd ?_).of_same (hcount d.id hother) (hdelivered d.id hother)
      intro u hu hud
      apply hquiet u _ hud
      apply mem_set_of_ne hi hu
      rintro rfl
      exact hother hud.symm
  · intro u hu
    obtain rfl | ⟨hu, hother⟩ := mem_set_task h.taskIds hi hid hu
    · exact hsending
    · have hne : u.delivery.id ≠ t.delivery.id := fun heq => hother (heq.trans hid.symm)
      exact (h.tasks u hu).of_same (hcount _ hne) (hdelivered _ hne)

theorem consistent_new : new.Consistent where
  pendingIds := List.nodup_nil
  taskIds := List.nodup_nil
  pendingKnown _ h := nomatch h
  tasksKnown _ h := nomatch h
  requestsKnown _ h := nomatch h
  deliveredKnown _ h := nomatch h
  bounded _ := Nat.zero_le _
  pending _ h := nomatch h
  tasks _ h := nomatch h

theorem Consistent.sendRequest (h : m.Consistent) (i : ℕ) : (m.sendRequest i).Consistent := by
  unfold WebhookManager.sendRequest
  split
  · rename_i pass d hi
    have hold := h.tasks _ (List.mem_of_getElem? hi)
    obtain ⟨hretry, hundelivered, hcount⟩ := hold
    have hlt := attempts_lt hretry
    apply h.setTask hi
    · rfl
    · rfl
    · intro id hother
      rw [List.count_append, List.count_singleton, if_neg (by simpa using Ne.symm hother)]
      rfl
    · intro id _
      exact Iff.rfl
    · rw [List.count_append, List.count_singleton_self]
      exact hcount ▸ hlt
    · rintro d' - - (hstage | hstage)
      · cases hstage
      · cases hstage
    · refine ⟨hretry, hundelivered, ?_⟩
      show (m.requests ++ [d.id]).count d.id = d.attempts + 1
      rw [List.count_append, List.count_singleton_self]
      exact congrArg (· + 1) hcount
  · exact h

theorem answered_id {d : WebhookDelivery} {answer : WebhookAnswer} :
    (d.answered answer).id = d.id ∧ (d.answered answer).maxRetries = d.maxRetries := by
  cases answer with
  | success => exact ⟨rfl, rfl⟩
  | failure error startTime retryDelay =>
    unfold WebhookDelivery.answered WebhookDelivery.handleFailedAttempt
    dsimp only
    repeat' split
    all_goals exact ⟨rfl, rfl⟩

theorem handleFailedAttempt_attempts {d : WebhookDelivery} {error : String}
    {startTime retryDelay : ℕ} :
    (d.handleFailedAttempt error startTime retryDelay).attempts = d.attempts + 1 := by
  unfold WebhookDelivery.handleFailedAttempt
  dsimp only
  repeat' split
  all_goals rfl

theorem Consistent.receiveResponse (h : m.Consistent) (i : ℕ) (answer : WebhookAnswer) :
    (m.receiveResponse i answer).Consistent := by
  unfold WebhookManager.receiveResponse
  split
  · rename_i pass d hi
    have hmem := List.mem_of_getElem? hi
    obtain ⟨hretry, hundelivered, hcount⟩ := h.tasks _ hmem
    have hlt := attempts_lt hretry
    apply h.setTask hi
    · exact answered_id.1
    · exact answered_id.2
    · intro id _
      rfl
    · intro id hother
      split
      · rw [List.mem_append, List.mem_singleton]
        exact or_iff_left hother
      · exact Iff.rfl
    · exact hcount ▸ hlt
    · rintro d' - - (hstage | hstage)
      · cases hstage
      · cases hstage
    · show Faithful _ _ (d.answered answer)
      cases answer with
      | success =>
        constructor
        · intro _
          simp [WebhookDelivery.answered, WebhookDelivery.markCompleted,
            WebhookDelivery.shouldRetry]
        · intro hretry'
          simp [WebhookDelivery.answered, WebhookDelivery.markCompleted,
            WebhookDelivery.shouldRetry] at hretry'
      | failure error startTime retryDelay =>
        constructor
        · intro hin
          refine absurd ?_ hundelivered
          rw [answered_id.1] at hin
          simpa using hin
        · intro _
          rw [answered_id.1]
          show m.requests.count d.id = (d.handleFailedAttempt error startTime retryDelay).attempts
          rw [handleFailedAttempt_attempts]
          exact hcount
  · exact h

theorem Consistent.taskPanics (h : m.Consistent) (i : ℕ)
    (hsafe : ∀ t ∈ m.tasks[i]?, t.stage ≠ .requested) : (m.taskPanics i).Consistent := by
  unfold WebhookManager.taskPanics
  split
  · rename_i pass d hi
    have hmem := List.mem_of_getElem? hi
    apply h.setTask hi
    · rfl
    · rfl
    · intro id _
      rfl
    · intro id _
      exact Iff.rfl
    · have hbound := h.bounded d.id
      rw [(h.tasksKnown _ hmem).getD] at hbound
      exact hbound
    · intro d' hd' hid _
      apply h.pending d' hd'
      intro u hu hud
      obtain rfl := h.eq_of_id hmem hu (hud.trans hid)
      exact .inl rfl
    · trivial
  · rename_i pass d hi
    exact absurd rfl (hsafe _ hi)
  · exact h

section Insert

variable {pending updates : List WebhookDelivery} {d u : WebhookDelivery}

theorem mem_insertDelivery (hu : u ∈ insertDelivery pending d) :
    u = d ∨ u ∈ pending ∧ u.id ≠ d.id := by
  unfold insertDelivery at hu
  split at hu
  · obtain ⟨v, hv, rfl⟩ := List.mem_map.mp hu
    split
    · exact .inl rfl
    · rename_i hother
      exact .inr ⟨hv, hother⟩
  · rename_i hnew
    obtain hu | hu := List.mem_append.mp hu
    · right
      refine ⟨hu, ?_⟩
      intro hid
      exact hnew (List.any_eq_true.mpr ⟨u, hu, by simp [hid]⟩)
    · exact .inl (List.mem_singleton.mp hu)

theorem nodup_insertDelivery (h : (pending.map (·.id)).Nodup) :
    ((insertDelivery pending d).map (·.id)).Nodup := by
  unfold insertDelivery
  split
  · have hids : (pending.map fun e => if e.id = d.id then d else e).map (·.id) =
        pending.map (·.id) := by
      rw [List.map_map]
      apply List.map_congr_left
      intro e _
      show (if e.id = d.id then d else e).id = e.id
      split
      · rename_i hid
        exact hid.symm
      · rfl
    rw [hids]
    exact h
  · rename_i hnew
    rw [List.map_append, List.map_singleton, List.nodup_append]
    refine ⟨h, List.nodup_singleton _, ?_⟩
    intro a ha b hb hab
    obtain ⟨e, he, rfl⟩ := List.mem_map.mp ha
    apply hnew
    apply List.any_eq_true.mpr
    exact ⟨e, he, by simp [hab, List.mem_singleton.mp hb]⟩

theorem mem_foldl_insertDelivery (hu : u ∈ updates.foldl insertDelivery pending) :
    u ∈ updates ∨ u ∈ pending ∧ ∀ d ∈ updates, u.id ≠ d.id := by
  induction updates generalizing pending with
  | nil => exact .inr ⟨hu, fun _ h => nomatch h⟩
  | cons d updates ih =>
    obtain hin | ⟨hin, hother⟩ := ih hu
    · exact .inl (List.mem_cons_of_mem d hin)
    · obtain rfl | ⟨hin, hne⟩ := mem_insertDelivery hin
      · exact .inl List.mem_cons_self
      · right
        refine ⟨hin, ?_⟩
        intro v hv
        obtain rfl | hv := List.mem_cons.mp hv
        · exact hne
        · exact hother v hv

theorem nodup_foldl_insertDelivery (h : (pending.map (·.id)).Nodup) :
    ((updates.foldl insertDelivery pending).map (·.id)).Nodup := by
  induction updates generalizing pending with
  | nil => exact h
  | cons d updates ih => exact ih (nodup_insertDelivery h)

end Insert

theorem Consistent.createDelivery (h : m.Consistent) (maxRetries : Option ℕ) (now : ℕ) :
    (m.createDelivery maxRetries now).Consistent := by
  have hgrow {d : WebhookDelivery} (hd : m.Known d) :
      (m.createDelivery maxRetries now).Known d := by
    show (m.retries ++ [_])[d.id]? = _
    rw [List.getElem?_append_left hd.lt]
    exact hd
  have hlonger : m.retries.length ≤ (m.createDelivery maxRetries now).retries.length := by
    simp [WebhookManager.createDelivery]
  refine ⟨nodup_insertDelivery h.pendingIds, h.taskIds, ?_, ?_, ?_, ?_, ?_, ?_, h.tasks⟩
  · intro d hd
    obtain rfl | ⟨hd, -⟩ := mem_insertDelivery hd
    · show (m.retries ++ [_])[m.retries.length]? = _
      simp
    · exact hgrow (h.pendingKnown d hd)
  · intro t ht
    exact hgrow (h.tasksKnown t ht)
  · intro id hid
    exact Nat.lt_of_lt_of_le (h.requestsKnown id hid) hlonger
  · intro id hid
    exact Nat.lt_of_lt_of_le (h.deliveredKnown id hid) hlonger
  · intro id
    have hold := h.bounded id
    by_cases hid : id < m.retries.length
    · show m.requests.count id ≤ (m.retries ++ [_]).getD id 0
      rw [List.getD_eq_getElem?_getD, List.getElem?_append_left hid, ← List.getD_eq_getElem?_getD]
      exact hold
    · have hnone : m.requests.count id = 0 :=
        List.count_eq_zero.mpr fun hin => hid (h.requestsKnown id hin)
      show m.requests.count id ≤ _
      omega
  · intro d hd hquiet
    obtain rfl | ⟨hd, -⟩ := mem_insertDelivery hd
    · constructor
      · intro hin
        exact absurd (h.deliveredKnown _ hin) (Nat.lt_irrefl m.retries.length)
      · intro _
        apply List.count_eq_zero.mpr
        intro hin
        exact Nat.lt_irrefl m.retries.length (h.requestsKnown _ hin)
    · exact h.pending d hd hquiet

theorem Consistent.queueWebhook (h : m.Consistent) (maxRetries : List (Option ℕ)) (now : ℕ) :
    (m.queueWebhook maxRetries now).Consistent := by
  unfold WebhookManager.queueWebhook
  induction maxRetries generalizing m with
  | nil => exact h
  | cons retries maxRetries ih => exact ih (h.createDelivery retries now)

theorem mem_readyDeliveries {d : WebhookDelivery} {now : ℕ} (hd : d ∈ m.readyDeliveries now) :
    d ∈ m.pendingDeliveries ∧ d.shouldRetry = true := by
  obtain ⟨hin, hready⟩ := List.mem_filter.mp hd
  refine ⟨hin, ?_⟩
  unfold WebhookDelivery.isReadyForRetry at hready
  cases hretry : d.shouldRetry with
  | true => rfl
  | false =>
    rw [hretry] at hready
    cases hready

theorem Consistent.beginPass (h : m.Consistent) (now : ℕ)
    (hexclusive : ∀ d ∈ m.readyDeliveries now, ∀ t ∈ m.tasks, t.delivery.id ≠ d.id) :
    (m.beginPass now).Consistent := by
  refine ⟨h.pendingIds, ?_, h.pendingKnown, ?_, h.requestsKnown, h.deliveredKnown, h.bounded,
    ?_, ?_⟩
  · show ((m.tasks ++ (m.readyDeliveries now).map fun d =>
      SendTask.mk m.passes d .spawned).map (·.delivery.id)).Nodup
    rw [List.map_append, List.map_map, List.nodup_append]
    refine ⟨h.taskIds, ?_, ?_⟩
    · exact h.pendingIds.sublist (List.filter_sublist.map _)
    · intro a ha b hb hab
      obtain ⟨t, ht, rfl⟩ := List.mem_map.mp ha
      obtain ⟨d, hd, rfl⟩ := List.mem_map.mp hb
      exact hexclusive d hd t ht hab
  · intro t ht
    obtain ht | ht := List.mem_append.mp ht
    · exact h.tasksKnown t ht
    · obtain ⟨d, hd, rfl⟩ := List.mem_map.mp ht
      exact h.pendingKnown d (mem_readyDeliveries hd).1
  · intro d hd hquiet
    apply h.pending d hd
    intro t ht
    exact hquiet t (List.mem_append_left _ ht)
  · intro t ht
    obtain ht | ht := List.mem_append.mp ht
    · exact h.tasks t ht
    · obtain ⟨d, hd, rfl⟩ := List.mem_map.mp ht
      obtain ⟨hin, hretry⟩ := mem_readyDeliveries hd
      have hfaithful := h.pending d hin (fun t ht hid => absurd hid (hexclusive d hd t ht))
      refine ⟨hretry, ?_, hfaithful.counted hretry⟩
      intro hdelivered
      have hsettled := hfaithful.settled hdelivered
      rw [hretry] at hsettled
      cases hsettled

/-- A pass ends: its tasks go, and its results, if any, are in the map. -/
theorem Consistent.endPass {pass : ℕ} {pending : List WebhookDelivery} (h : m.Consistent)
    (hids : (pending.map (·.id)).Nodup)
    (hpending : ∀ d ∈ pending, (∃ t ∈ m.tasks, t.stage = .finished ∧ t.delivery = d) ∨
      d ∈ m.pendingDeliveries ∧ ∀ t ∈ m.tasks, t.pass = pass → t.delivery.id = d.id →
        t.stage = .spawned ∨ t.stage = .panicked) :
    Consistent { m with pendingDeliveries := pending, tasks := m.withoutPass pass } := by
  have hold {t : SendTask} (ht : t ∈ m.withoutPass pass) : t ∈ m.tasks :=
    (List.mem_filter.mp ht).1
  refine ⟨hids, ?_, ?_, ?_, h.requestsKnown, h.deliveredKnown, h.bounded, ?_, ?_⟩
  · exact h.taskIds.sublist (List.filter_sublist.map _)
  · intro d hd
    obtain ⟨t, ht, -, rfl⟩ | ⟨hd, -⟩ := hpending d hd
    · exact h.tasksKnown t ht
    · exact h.pendingKnown d hd
  · intro t ht
    exact h.tasksKnown t (hold ht)
  · intro d hd hquiet
    obtain ⟨t, ht, hstage, rfl⟩ | ⟨hd, hpass⟩ := hpending d hd
    · have hfaithful := h.tasks t ht
      unfold Sending at hfaithful
      rw [hstage] at hfaithful
      exact hfaithful
    · apply h.pending d hd
      intro t ht hid
      by_cases hours : t.pass = pass
      · exact hpass t ht hours hid
      · apply hquiet t _ hid
        exact List.mem_filter.mpr ⟨ht, by simpa using hours⟩
  · intro t ht
    exact h.tasks t (hold ht)

theorem mem_passTasks {t : SendTask} {pass : ℕ} : t ∈ m.passTasks pass ↔
    t ∈ m.tasks ∧ t.pass = pass := by
  simp [passTasks, List.mem_filter]

theorem mem_updatedDeliveries {d : WebhookDelivery} {pass : ℕ} :
    d ∈ m.updatedDeliveries pass ↔
      ∃ t ∈ m.tasks, t.stage = .finished ∧ t.pass = pass ∧ t.delivery = d := by
  simp [updatedDeliveries, passTasks, List.mem_filter, and_assoc]

theorem Consistent.writeBack (h : m.Consistent) (pass : ℕ) : (m.writeBack pass).Consistent := by
  unfold WebhookManager.writeBack
  split
  · rename_i hended
    apply h.endPass (nodup_foldl_insertDelivery h.pendingIds)
    intro d hd
    obtain hd | ⟨hd, hother⟩ := mem_foldl_insertDelivery hd
    · left
      obtain ⟨t, ht, hstage, -, hdelivery⟩ := mem_updatedDeliveries.mp hd
      exact ⟨t, ht, hstage, hdelivery⟩
    · right
      refine ⟨hd, ?_⟩
      intro t ht hpass hid
      have hstage := List.all_eq_true.mp hended t (mem_passTasks.mpr ⟨ht, hpass⟩)
      simp only [Bool.or_eq_true, beq_iff_eq] at hstage
      obtain hfinished | hpanicked := hstage
      · have hin := mem_updatedDeliveries.mpr ⟨t, ht, hfinished, hpass, rfl⟩
        exact absurd hid.symm (hother t.delivery hin)
      · exact .inr hpanicked
  · exact h

theorem Consistent.abandonPass (h : m.Consistent) (pass : ℕ)
    (hunsent : ∀ t ∈ m.passTasks pass, t.stage = .spawned) : (m.abandonPass pass).Consistent := by
  unfold WebhookManager.abandonPass
  split
  · apply h.endPass h.pendingIds
    intro d hd
    right
    refine ⟨hd, ?_⟩
    intro t ht hpass _
    exact .inl (hunsent t (mem_passTasks.mpr ⟨ht, hpass⟩))
  · exact h

theorem Consistent.cleanupDeliveries (h : m.Consistent) : m.cleanupDeliveries.Consistent := by
  have hold {d : WebhookDelivery} (hd : d ∈ m.cleanupDeliveries.pendingDeliveries) :
      d ∈ m.pendingDeliveries := (List.mem_filter.mp hd).1
  refine ⟨?_, h.taskIds, ?_, h.tasksKnown, h.requestsKnown, h.deliveredKnown, h.bounded, ?_,
    h.tasks⟩
  · exact h.pendingIds.sublist (List.filter_sublist.map _)
  · intro d hd
    exact h.pendingKnown d (hold hd)
  · intro d hd
    exact h.pending d (hold hd)

theorem Consistent.step (h : m.Consistent) (hexclusive : m.Exclusive e) :
    (m.step e).Consistent := by
  cases e with
  | queue maxRetries now => exact h.queueWebhook maxRetries now
  | begin now => exact h.beginPass now hexclusive
  | request task => exact h.sendRequest task
  | respond task answer => exact h.receiveResponse task answer
  | panic task => exact h.taskPanics task hexclusive
  | writeBack pass => exact h.writeBack pass
  | abandon pass => exact h.abandonPass pass hexclusive
  | cleanup => exact h.cleanupDeliveries

theorem retryable_eq_false {id : ℕ} : m.retryable id = false ↔
    ∀ d ∈ m.pendingDeliveries, d.id = id → d.shouldRetry = false := by
  simp [retryable]

theorem Consistent.once (h : m.Consistent) : ∀ id ∈ m.sends e, id ∉ m.delivered := by
  intro id hid
  cases e with
  | request task =>
    unfold sends at hid
    dsimp only at hid
    split at hid
    · rename_i pass d hi
      obtain rfl := Option.some.inj hid
      exact (h.tasks _ (List.mem_of_getElem? hi)).2.1
    · cases hid
  | queue => cases hid
  | begin => cases hid
  | respond => cases hid
  | panic => cases hid
  | writeBack => cases hid
  | abandon => cases hid
  | cleanup => cases hid

theorem mem_queueWebhook {n : WebhookManager} {maxRetries : List (Option ℕ)} {now : ℕ}
    (hlonger : m.retries.length ≤ n.retries.length)
    (hn : ∀ d ∈ n.pendingDeliveries, d ∈ m.pendingDeliveries ∨ m.retries.length ≤ d.id) :
    ∀ d ∈ (n.queueWebhook maxRetries now).pendingDeliveries,
      d ∈ m.pendingDeliveries ∨ m.retries.length ≤ d.id := by
  induction maxRetries generalizing n with
  | nil => exact hn
  | cons retries maxRetries ih =>
    apply @ih (n.createDelivery retries now)
    · simp only [createDelivery, List.length_append]
      omega
    · intro d hd
      obtain rfl | ⟨hd, -⟩ := mem_insertDelivery hd
      · exact .inr hlonger
      · exact hn d hd

/-- The entries of the map after a step: old ones, new deliveries, and results of a pass. -/
theorem mem_step {d : WebhookDelivery} (hd : d ∈ (m.step e).pendingDeliveries) :
    d ∈ m.pendingDeliveries ∨ m.retries.length ≤ d.id ∨
      ∃ t ∈ m.tasks, t.stage = .finished ∧ t.delivery = d := by
  cases e with
  | queue maxRetries now =>
    obtain hold | hnew := mem_queueWebhook (Nat.le_refl _) (fun d hd => .inl hd) d hd
    · exact .inl hold
    · exact .inr (.inl hnew)
  | begin now => exact .inl hd
  | request task =>
    unfold WebhookManager.step sendRequest at hd
    dsimp only at hd
    split at hd
    · exact .inl hd
    · exact .inl hd
  | respond task answer =>
    unfold WebhookManager.step receiveResponse at hd
    dsimp only at hd
    split at hd
    · exact .inl hd
    · exact .inl hd
  | panic task =>
    unfold WebhookManager.step taskPanics at hd
    dsimp only at hd
    split at hd
    · exact .inl hd
    · exact .inl hd
    · exact .inl hd
  | writeBack pass =>
    unfold WebhookManager.step WebhookManager.writeBack at hd
    dsimp only at hd
    split at hd
    · obtain hd | ⟨hd, -⟩ := mem_foldl_insertDelivery hd
      · right; right
        obtain ⟨t, ht, hstage, -, hdelivery⟩ := mem_updatedDeliveries.mp hd
        exact ⟨t, ht, hstage, hdelivery⟩
      · exact .inl hd
    · exact .inl hd
  | abandon pass =>
    unfold WebhookManager.step abandonPass at hd
    dsimp only at hd
    split at hd
    · exact .inl hd
    · exact .inl hd
  | cleanup => exact .inl (List.mem_filter.mp hd).1

theorem Consistent.settled (h : m.Consistent) :
    ∀ id ∈ m.delivered, m.retryable id = false → (m.step e).retryable id = false := by
  intro id hdelivered hsettled
  rw [retryable_eq_false] at hsettled ⊢
  rintro d hd rfl
  obtain hold | hnew | ⟨t, ht, hstage, rfl⟩ := mem_step hd
  · exact hsettled d hold rfl
  · have hlt := h.deliveredKnown d.id hdelivered
    omega
  · have hfaithful := h.tasks t ht
    unfold Sending at hfaithful
    rw [hstage] at hfaithful
    exact hfaithful.settled hdelivered

theorem kept_along {es : List WebhookEvent} (h : m.Consistent)
    (hes : EventMachine.Along step Exclusive m es) : EventMachine.Along step Kept m es :=
  hes.of_invariant (fun _ _ hexclusive h => h.step hexclusive)
    (fun _ _ hexclusive h => ⟨h.once, h.settled, (h.step hexclusive).bounded⟩) h

/-- Along every run in which no two passes work on the same delivery and no result is lost,
deliveries that have got through are neither sent again nor retried, and no delivery is sent more
often than its retry configuration allows. -/
theorem deliveries_kept {es : List WebhookEvent} (hes : EventMachine.Along step Exclusive new es) :
    EventMachine.Along step Kept new es :=
  kept_along consistent_new hes

instance (e : WebhookEvent) : Decidable (m.Exclusive e) :=
  match e with
  | .begin _ => inferInstanceAs (Decidable (∀ _ ∈ _, ∀ _ ∈ _, _))
  | .panic _ => inferInstanceAs (Decidable (∀ _ ∈ _, _))
  | .abandon _ => inferInstanceAs (Decidable (∀ _ ∈ _, _))
  | .queue _ _ | .request _ | .respond _ _ | .writeBack _ | .cleanup => .isTrue trivial

/-- A delivery fails once, is sent again by the next pass and gets through; a pass and a cleanup
after that leave it alone. -/
theorem deliveries_kept_retried :
    EventMachine.Along step Kept new [.queue [none] 0, .begin 0, .request 0,
      .respond 0 (.failure "timeout" 0 1000), .writeBack 0, .begin 1000, .request 0,
      .respond 0 .success, .writeBack 1, .begin 2000, .cleanup] :=
  deliveries_kept (by decide)

/-- Two passes take the same delivery. It gets through in the first, is sent again by the second,
and the failure there is written over the success. -/
theorem deliveries_kept_fails : ¬ ∀ es, EventMachine.Along step Kept new es := by
  intro hkept
  have hrun := hkept [.queue [none] 0, .begin 0, .begin 0, .request 0, .respond 0 .success,
    .request 1]
  obtain ⟨-, -, -, -, -, hlast, -⟩ := hrun
  exact hlast.once 0 (by decide) (by decide)

end WebhookManager

end Rrelayer
