import Rrelayer.WebhookRuns
import Mathlib.Logic.Relation
import Mathlib.Data.Nat.Find
import Mathlib.Order.Monotone.Basic

/-! Webhook deliveries when the passes run one at a time: what an endpoint answers decides how often
each delivery is sent and how it ends. -/
namespace Rrelayer

/-- What happens to the map besides passes. -/
inductive MapChange where
  | queue (maxRetries : List (Option ℕ)) (now : ℕ)
  | cleanup
  deriving DecidableEq, Repr

def MapChange.event : MapChange → WebhookEvent
  | .queue maxRetries now => .queue maxRetries now
  | .cleanup => .cleanup

inductive WebhookRound where
  | change (c : MapChange)
  /-- A pass from its start to its end, with what happens to the map meanwhile. -/
  | pass (now : ℕ) (during : List MapChange)
  deriving DecidableEq, Repr

/-- The delivery is sent in the round, if it is in the map. -/
def WebhookRound.takes : WebhookRound → WebhookDelivery → Bool
  | .change _, _ => false
  | .pass now _, d => d.isReadyForRetry now

/-- What the endpoint answers to each send of each delivery. -/
abbrev Endpoint := (id send : ℕ) → WebhookAnswer

namespace WebhookManager

variable (endpoint : Endpoint) (m : WebhookManager)

def nextAnswer (d : WebhookDelivery) : WebhookAnswer := endpoint d.id (m.requests.count d.id)

/-- The tasks of a pass, one after the other: they work on different deliveries. -/
def sendEvents (answer : WebhookDelivery → WebhookAnswer) : ℕ → List WebhookDelivery →
    List WebhookEvent
  | _, [] => []
  | task, d :: ds => .request task :: .respond task (answer d) :: sendEvents answer (task + 1) ds

/-- `process_ready_deliveries` without any other pass in between. -/
def passEvents (now : ℕ) (during : List MapChange) : List WebhookEvent :=
  .begin now :: (during.map (·.event) ++
    (sendEvents (m.nextAnswer endpoint) 0 (m.readyDeliveries now) ++ [.writeBack m.passes]))

def roundEvents : WebhookRound → List WebhookEvent
  | .change c => [c.event]
  | .pass now during => m.passEvents endpoint now during

def round (r : WebhookRound) : WebhookManager := m.run (m.roundEvents endpoint r)

/-- The manager after the first rounds of a schedule. -/
def after (rounds : ℕ → WebhookRound) : ℕ → WebhookManager
  | 0 => new
  | n + 1 => (after rounds n).round endpoint (rounds n)

def pendingOf (id : ℕ) : Option WebhookDelivery := m.pendingDeliveries.find? (·.id == id)

end WebhookManager

/-- However late it is, a pass comes later. -/
def Fair (rounds : ℕ → WebhookRound) : Prop :=
  ∀ n time, ∃ k ≥ n, ∃ now ≥ time, ∃ during, rounds k = .pass now during

/-- The delivery is sent until the first success or until `max_retries + 1` sends have failed, is
then marked, and is at all times retried or removed. -/
structure RetriesComplete (endpoint : Endpoint) (rounds : ℕ → WebhookRound) (id maxRetries : ℕ) :
    Prop where
  ends : ∃ last, (∃ n, ∀ k ≥ n,
      (WebhookManager.after endpoint rounds k).requests.count id = last + 1) ∧
    (∀ send < last, endpoint id send ≠ .success) ∧
    (last < maxRetries + 1 ∧ endpoint id last = .success ∧
        (∃ k, ∃ d ∈ (WebhookManager.after endpoint rounds k).pendingOf id, d.completed = true) ∨
      endpoint id last ≠ .success ∧ last + 1 = maxRetries + 1 ∧
        ∃ k, ∃ d ∈ (WebhookManager.after endpoint rounds k).pendingOf id, d.failed = true)
  moves : ∀ k, ∀ d ∈ (WebhookManager.after endpoint rounds k).pendingOf id,
    d.shouldRetry = true ∨ d.completed = true ∨ d.failed = true

section Map

variable {pending : List WebhookDelivery} {d : WebhookDelivery} {id : ℕ}

theorem find_map_other (hid : d.id ≠ id) :
    (pending.map fun e => if e.id = d.id then d else e).find? (·.id == id) =
      pending.find? (·.id == id) := by
  induction pending with
  | nil => rfl
  | cons e pending ih =>
    by_cases he : e.id = d.id
    · have hother : e.id ≠ id := by rwa [he]
      simp [he, hid, ih]
    · by_cases hsame : e.id = id
      · have hne : id ≠ d.id := Ne.symm hid
        simp [hsame, hne]
      · simp [he, hsame, ih]

theorem find_insertDelivery :
    (insertDelivery pending d).find? (·.id == id) =
      if d.id = id then some d else pending.find? (·.id == id) := by
  unfold insertDelivery
  by_cases hid : d.id = id
  · subst hid
    rw [if_pos rfl]
    split
    · rename_i hany
      induction pending with
      | nil => cases hany
      | cons e pending ih =>
        by_cases he : e.id = d.id
        · simp [he]
        · have hrest : (pending.any fun e => e.id == d.id) = true := by
            simpa [he] using hany
          simpa [he] using ih hrest
    · rename_i hany
      have hnone : pending.find? (·.id == d.id) = none := by
        rw [List.find?_eq_none]
        intro e he hsame
        exact hany (List.any_eq_true.mpr ⟨e, he, hsame⟩)
      rw [List.find?_append, hnone]
      simp
  · rw [if_neg hid]
    split
    · exact find_map_other hid
    · rw [List.find?_append]
      simp [hid]

theorem find_foldl_insertDelivery (updates : List WebhookDelivery) :
    (updates.foldl insertDelivery pending).find? (·.id == id) =
      (updates.reverse.find? (·.id == id)).or (pending.find? (·.id == id)) := by
  induction updates generalizing pending with
  | nil => rfl
  | cons d updates ih =>
    rw [List.foldl_cons, ih, find_insertDelivery, List.reverse_cons, List.find?_append,
      Option.or_assoc]
    by_cases hid : d.id = id
    · simp [hid]
    · simp [hid]

theorem find_of_mem (hids : (pending.map (·.id)).Nodup) (hd : d ∈ pending) :
    pending.find? (·.id == d.id) = some d := by
  induction pending with
  | nil => cases hd
  | cons e pending ih =>
    rw [List.map_cons, List.nodup_cons] at hids
    obtain rfl | hd := List.mem_cons.mp hd
    · simp
    · have hne : e.id ≠ d.id := by
        intro hid
        exact hids.1 (hid ▸ List.mem_map_of_mem hd)
      rw [List.find?_cons_of_neg (by simpa using hne)]
      exact ih hids.2 hd

theorem find_filter (hids : (pending.map (·.id)).Nodup) (p : WebhookDelivery → Bool) :
    (pending.filter p).find? (·.id == id) = (pending.find? (·.id == id)).filter p := by
  induction pending with
  | nil => rfl
  | cons e pending ih =>
    rw [List.map_cons, List.nodup_cons] at hids
    by_cases hid : e.id = id
    · have hnone : pending.find? (·.id == id) = none := by
        rw [List.find?_eq_none]
        intro d hd hsame
        apply hids.1
        rw [hid, ← beq_iff_eq.mp hsame]
        exact List.mem_map_of_mem hd
      have hrest : (pending.filter p).find? (·.id == id) = none := by
        rw [ih hids.2, hnone]
        rfl
      cases hp : p e with
      | true => simp [hid, hp, Option.filter]
      | false => simp [hid, hp, hrest, Option.filter]
    · cases hp : p e with
      | true => simp [hid, hp, ih hids.2]
      | false => simp [hid, hp, ih hids.2]

end Map

section Failures

variable {d : WebhookDelivery} {error : String} {startTime retryDelay : ℕ}

theorem handleFailedAttempt_more (error : String) (startTime retryDelay : ℕ)
    (hretry : d.shouldRetry = true) (hmore : d.attempts + 1 < d.maxRetries) :
    (d.handleFailedAttempt error startTime retryDelay).completed = false ∧
      (d.handleFailedAttempt error startTime retryDelay).failed = false := by
  have hopen := hretry
  simp only [WebhookDelivery.shouldRetry, Bool.and_eq_true, Bool.not_eq_true'] at hopen
  have hagain : (d.markAttempt startTime (some retryDelay)).shouldRetry = true := by
    simp [WebhookDelivery.markAttempt, WebhookDelivery.shouldRetry, hopen, hmore]
  unfold WebhookDelivery.handleFailedAttempt
  rw [if_pos hretry]
  dsimp only
  rw [hagain]
  exact hopen.1

theorem handleFailedAttempt_last (hlast : d.maxRetries ≤ d.attempts + 1) :
    (d.handleFailedAttempt error startTime retryDelay).failed = true := by
  have hno (delay : Option ℕ) : (d.markAttempt startTime delay).shouldRetry = false := by
    simp [WebhookDelivery.markAttempt, WebhookDelivery.shouldRetry, Nat.not_lt.mpr hlast]
  unfold WebhookDelivery.handleFailedAttempt
  dsimp only
  rw [hno]
  rfl

end Failures

/-- One delivery: its retry configuration once it is created, its entry in the map, and how often it
was sent. -/
structure DeliveryView where
  retries : Option ℕ
  entry : Option WebhookDelivery
  sent : ℕ

namespace DeliveryView

/-- What happens to a delivery besides being sent. -/
inductive Change (id : ℕ) (v : DeliveryView) : DeliveryView → Prop
  | cleaned : Change id v { v with entry := v.entry.filter fun d => !d.completed && !d.failed }
  | created (retries : Option ℕ) (now : ℕ) (hnew : v.retries = none) :
      Change id v { v with
        retries := some (WebhookDelivery.new id retries now).maxRetries
        entry := some (WebhookDelivery.new id retries now) }

def Changes (id : ℕ) : DeliveryView → DeliveryView → Prop := Relation.ReflTransGen (Change id)

def send (answers : ℕ → WebhookAnswer) (v : DeliveryView) : DeliveryView :=
  { v with entry := v.entry.map (·.answered (answers v.sent)), sent := v.sent + 1 }

/-- How the answers of the endpoint and the state of a delivery belong together. -/
inductive Tracked (answers : ℕ → WebhookAnswer) : DeliveryView → Prop
  | unborn : Tracked answers ⟨none, none, 0⟩
  | waiting (d : WebhookDelivery) (hcompleted : d.completed = false) (hfailed : d.failed = false)
      (hmore : d.attempts = 0 ∨ d.attempts < d.maxRetries)
      (hbefore : ∀ send < d.attempts, answers send ≠ .success) :
      Tracked answers ⟨some d.maxRetries, some d, d.attempts⟩
  | completed (maxRetries last : ℕ) (entry : Option WebhookDelivery) (hlast : last < maxRetries)
      (hsuccess : answers last = .success) (hbefore : ∀ send < last, answers send ≠ .success)
      (hentry : ∀ d ∈ entry, d.completed = true) :
      Tracked answers ⟨some maxRetries, entry, last + 1⟩
  | failed (maxRetries : ℕ) (entry : Option WebhookDelivery)
      (hbefore : ∀ send < maxRetries, answers send ≠ .success)
      (hentry : ∀ d ∈ entry, d.failed = true) : Tracked answers ⟨some maxRetries, entry, maxRetries⟩

variable {answers : ℕ → WebhookAnswer} {v v' : DeliveryView} {id : ℕ}

theorem Tracked.change (h : v.Tracked answers) (hv : Change id v v') : v'.Tracked answers := by
  cases hv with
  | cleaned =>
    cases h with
    | unborn => exact .unborn
    | waiting d hcompleted hfailed hmore hbefore =>
      simp only [Option.filter, hcompleted, hfailed]
      exact .waiting d hcompleted hfailed hmore hbefore
    | completed maxRetries last entry hlast hsuccess hbefore hentry =>
      apply Tracked.completed maxRetries last _ hlast hsuccess hbefore
      intro d hd
      exact hentry d (Option.mem_filter_iff.mp hd).1
    | failed maxRetries entry hbefore hentry =>
      apply Tracked.failed maxRetries _ hbefore
      intro d hd
      exact hentry d (Option.mem_filter_iff.mp hd).1
  | created retries now hnew =>
    cases h with
    | unborn =>
      apply Tracked.waiting (WebhookDelivery.new id retries now) rfl rfl (.inl rfl)
      intro send hsend
      exact absurd hsend (Nat.not_lt_zero send)
    | waiting => cases hnew
    | completed => cases hnew
    | failed => cases hnew

theorem Tracked.born {d : WebhookDelivery} (h : v.Tracked answers) (hd : v.entry = some d) :
    v.retries ≠ none := by
  cases h with
  | unborn => cases hd
  | waiting => exact Option.some_ne_none _
  | completed => exact Option.some_ne_none _
  | failed => exact Option.some_ne_none _

theorem Tracked.changes (h : v.Tracked answers) (hv : Changes id v v') : v'.Tracked answers := by
  induction hv with
  | refl => exact h
  | tail _ hlast ih => exact ih.change hlast

/-- A retryable entry stays as it is while it is not sent. -/
theorem changes_entry {d : WebhookDelivery} (hborn : v.retries ≠ none)
    (hd : v.entry = some d) (hretry : d.shouldRetry = true) (hv : Changes id v v') :
    v' = v := by
  induction hv with
  | refl => rfl
  | tail _ hlast ih =>
    rw [ih] at hlast
    cases hlast with
    | cleaned =>
      simp only [WebhookDelivery.shouldRetry, Bool.and_eq_true] at hretry
      obtain ⟨retries, entry, sent⟩ := v
      subst hd
      simp [Option.filter, hretry.1]
    | created retries now hnew => exact absurd hnew hborn

theorem changes_sent (hv : Changes id v v') : v'.sent = v.sent := by
  induction hv with
  | refl => rfl
  | tail _ hlast ih =>
    cases hlast with
    | cleaned => exact ih
    | created => exact ih

theorem changes_retries {maxRetries : ℕ} (hretries : v.retries = some maxRetries)
    (hv : Changes id v v') : v'.retries = some maxRetries := by
  induction hv with
  | refl => exact hretries
  | tail _ hlast ih =>
    cases hlast with
    | cleaned => exact ih
    | created retries now hnew =>
      rw [ih] at hnew
      cases hnew

theorem Tracked.send {d : WebhookDelivery} (h : v.Tracked answers) (hd : v.entry = some d)
    (hretry : d.shouldRetry = true) : (v.send answers).Tracked answers := by
  have hopen := hretry
  simp only [WebhookDelivery.shouldRetry, Bool.and_eq_true, Bool.not_eq_true',
    decide_eq_true_eq] at hopen
  obtain ⟨⟨hopen_completed, hopen_failed⟩, hlt⟩ := hopen
  cases h with
  | unborn => cases hd
  | waiting e hcompleted hfailed hmore hbefore =>
    obtain rfl := Option.some.inj hd
    show Tracked answers ⟨some e.maxRetries, some (e.answered (answers e.attempts)), e.attempts + 1⟩
    cases hanswer : answers e.attempts with
    | success =>
      apply Tracked.completed e.maxRetries e.attempts _ hlt hanswer hbefore
      intro d hd
      obtain rfl := Option.some.inj hd
      rfl
    | failure error startTime retryDelay =>
      have hfailures : ∀ send < e.attempts + 1, answers send ≠ .success := by
        intro send hsend hsuccess
        obtain hlt | rfl := Nat.lt_succ_iff_lt_or_eq.mp hsend
        · exact hbefore send hlt hsuccess
        · rw [hanswer] at hsuccess
          cases hsuccess
      have hattempts : (e.answered (.failure error startTime retryDelay)).attempts =
          e.attempts + 1 := WebhookManager.handleFailedAttempt_attempts
      have hmax : (e.answered (.failure error startTime retryDelay)).maxRetries = e.maxRetries :=
        WebhookManager.answered_id.2
      by_cases hagain : e.attempts + 1 < e.maxRetries
      · obtain ⟨hcompleted', hfailed'⟩ := handleFailedAttempt_more error startTime retryDelay
          hretry hagain
        rw [← hattempts, ← hmax]
        apply Tracked.waiting (e.answered (.failure error startTime retryDelay)) hcompleted'
          hfailed'
        · right
          rw [hattempts, hmax]
          exact hagain
        · rw [hattempts]
          exact hfailures
      · have hall : e.attempts + 1 = e.maxRetries := by omega
        rw [hall]
        apply Tracked.failed e.maxRetries
        · rw [← hall]
          exact hfailures
        · intro d hd
          obtain rfl := Option.some.inj hd
          exact handleFailedAttempt_last (Nat.not_lt.mp hagain)
  | completed maxRetries last entry hlast hsuccess hbefore hentry =>
    have hdone := hentry d hd
    rw [hopen_completed] at hdone
    cases hdone
  | failed maxRetries entry hbefore hentry =>
    have hdone := hentry d hd
    rw [hopen_failed] at hdone
    cases hdone

/-- No delivery is sent after its first success, nor more often than `max_retries` times. -/
theorem Tracked.sent_le {maxRetries : ℕ} (h : v.Tracked answers)
    (hv : v.retries = some maxRetries) : v.sent ≤ maxRetries := by
  cases h with
  | unborn => cases hv
  | waiting d hcompleted hfailed hmore hbefore =>
    obtain rfl := Option.some.inj hv
    show d.attempts ≤ d.maxRetries
    omega
  | completed maxRetries' last entry hlast hsuccess hbefore hentry =>
    obtain rfl := Option.some.inj hv
    exact hlast
  | failed maxRetries' entry hbefore hentry =>
    obtain rfl := Option.some.inj hv
    exact Nat.le_refl _

theorem Tracked.sent_le_success {first : ℕ} (h : v.Tracked answers)
    (hsuccess : answers first = .success) : v.sent ≤ first + 1 := by
  have hle {n : ℕ} (hbefore : ∀ send < n, answers send ≠ .success) : n ≤ first := by
    by_contra hlt
    exact hbefore first (Nat.not_le.mp hlt) hsuccess
  cases h with
  | unborn => exact Nat.zero_le _
  | waiting d hcompleted hfailed hmore hbefore => exact Nat.le_succ_of_le (hle hbefore)
  | completed maxRetries last entry hlast hanswer hbefore hentry =>
    exact Nat.succ_le_succ (hle hbefore)
  | failed maxRetries entry hbefore hentry => exact Nat.le_succ_of_le (hle hbefore)

theorem Tracked.moves {maxRetries : ℕ} {d : WebhookDelivery} (h : v.Tracked answers)
    (hv : v.retries = some maxRetries) (hpos : 0 < maxRetries) (hd : d ∈ v.entry) :
    d.shouldRetry = true ∨ d.completed = true ∨ d.failed = true := by
  cases h with
  | unborn => cases hd
  | waiting e hcompleted hfailed hmore hbefore =>
    obtain rfl := Option.some.inj hv
    obtain rfl := Option.some.inj hd
    left
    have hlt : e.attempts < e.maxRetries := by omega
    simp [WebhookDelivery.shouldRetry, hcompleted, hfailed, hlt]
  | completed maxRetries' last entry hlast hsuccess hbefore hentry =>
    exact .inr (.inl (hentry d hd))
  | failed maxRetries' entry hbefore hentry => exact .inr (.inr (hentry d hd))

/-- Until its first success a delivery that is retried often enough waits in the map. -/
theorem Tracked.waits {maxRetries first : ℕ} (h : v.Tracked answers)
    (hv : v.retries = some maxRetries) (hfirst : first < maxRetries)
    (hsuccess : answers first = .success) (hleast : ∀ send < first, answers send ≠ .success)
    (hsent : v.sent ≤ first) : ∃ d, v.entry = some d ∧ d.shouldRetry = true := by
  cases h with
  | unborn => cases hv
  | waiting d hcompleted hfailed hmore hbefore =>
    obtain rfl := Option.some.inj hv
    refine ⟨d, rfl, ?_⟩
    have hlt : d.attempts < d.maxRetries := Nat.lt_of_le_of_lt hsent hfirst
    simp [WebhookDelivery.shouldRetry, hcompleted, hfailed, hlt]
  | completed maxRetries' last entry hlast hanswer hbefore hentry =>
    exact absurd hanswer (hleast last hsent)
  | failed maxRetries' entry hbefore hentry =>
    obtain rfl := Option.some.inj hv
    exact absurd hsuccess (hbefore first hfirst)

end DeliveryView

namespace WebhookManager

variable {endpoint : Endpoint} {m : WebhookManager} {now id : ℕ}

def view (m : WebhookManager) (id : ℕ) : DeliveryView :=
  ⟨m.retries[id]?, m.pendingOf id, m.requests.count id⟩

theorem view_createDelivery (retries : Option ℕ) :
    DeliveryView.Changes id (m.view id) ((m.createDelivery retries now).view id) := by
  by_cases hid : m.retries.length = id
  · have hnew : m.retries[id]? = none := List.getElem?_eq_none (Nat.le_of_eq hid)
    have hview : (m.createDelivery retries now).view id = { m.view id with
        retries := some (WebhookDelivery.new id retries now).maxRetries
        entry := some (WebhookDelivery.new id retries now) } := by
      subst hid
      simp only [view, createDelivery, pendingOf, find_insertDelivery, WebhookDelivery.new]
      simp
    rw [hview]
    exact .single (.created retries now hnew)
  · have hview : (m.createDelivery retries now).view id = m.view id := by
      have hretries (a : ℕ) : (m.retries ++ [a])[id]? = m.retries[id]? := by
        obtain hlt | hlt := Nat.lt_or_gt_of_ne hid
        · have hlonger : (m.retries ++ [a]).length ≤ id := by
            rw [List.length_append, List.length_singleton]
            exact hlt
          rw [List.getElem?_eq_none hlonger, List.getElem?_eq_none (Nat.le_of_lt hlt)]
        · exact List.getElem?_append_left hlt
      simp only [view, createDelivery, pendingOf, find_insertDelivery, hretries]
      exact congrArg (DeliveryView.mk _ · _) (if_neg hid)
    rw [hview]
    exact .refl

/-- What the changes of the map leave alone. -/
theorem change_spec (hids : (m.pendingDeliveries.map (·.id)).Nodup) (c : MapChange) :
    ((m.step c.event).pendingDeliveries.map (·.id)).Nodup ∧
      (m.step c.event).tasks = m.tasks ∧
      ∀ id, DeliveryView.Changes id (m.view id) ((m.step c.event).view id) := by
  cases c with
  | cleanup =>
    refine ⟨hids.sublist (List.filter_sublist.map _), rfl, ?_⟩
    intro id
    have hview : (m.step .cleanup).view id = { m.view id with
        entry := (m.view id).entry.filter fun d => !d.completed && !d.failed } := by
      simp only [view, WebhookManager.step, cleanupDeliveries, pendingOf]
      rw [find_filter hids]
    show DeliveryView.Changes id (m.view id) ((m.step .cleanup).view id)
    rw [hview]
    exact .single .cleaned
  | queue maxRetries now =>
    show ((m.queueWebhook maxRetries now).pendingDeliveries.map (·.id)).Nodup ∧
      (m.queueWebhook maxRetries now).tasks = m.tasks ∧
      ∀ id, DeliveryView.Changes id (m.view id) ((m.queueWebhook maxRetries now).view id)
    unfold queueWebhook
    induction maxRetries generalizing m with
    | nil => exact ⟨hids, rfl, fun _ => .refl⟩
    | cons retries maxRetries ih =>
      obtain ⟨hids', htasks, hview⟩ := ih (m := m.createDelivery retries now)
        (nodup_insertDelivery hids)
      refine ⟨hids', htasks, ?_⟩
      intro id
      exact (view_createDelivery retries).trans (hview id)

theorem changes_spec (hids : (m.pendingDeliveries.map (·.id)).Nodup) (during : List MapChange) :
    ((m.run (during.map (·.event))).pendingDeliveries.map (·.id)).Nodup ∧
      (m.run (during.map (·.event))).tasks = m.tasks ∧
      ∀ id, DeliveryView.Changes id (m.view id) ((m.run (during.map (·.event))).view id) := by
  induction during generalizing m with
  | nil => exact ⟨hids, rfl, fun _ => .refl⟩
  | cons c during ih =>
    obtain ⟨hfirst, htasks, hview⟩ := change_spec hids c
    obtain ⟨hids', htasks', hview'⟩ := ih hfirst
    refine ⟨hids', htasks'.trans htasks, ?_⟩
    intro id
    exact (hview id).trans (hview' id)

/-- What the tasks of a pass leave: every one finished, with a request each. -/
theorem run_sendEvents (answer : WebhookDelivery → WebhookAnswer) (pass : ℕ)
    (todo : List WebhookDelivery) (finished : List SendTask) (m : WebhookManager)
    (htasks : m.tasks = finished ++ todo.map fun d => ⟨pass, d, .spawned⟩) :
    ∃ delivered, m.run (sendEvents answer finished.length todo) = { m with
      tasks := finished ++ todo.map fun d => ⟨pass, d.answered (answer d), .finished⟩
      requests := m.requests ++ todo.map (·.id)
      delivered := delivered } := by
  induction todo generalizing finished m with
  | nil =>
    refine ⟨m.delivered, ?_⟩
    simp only [List.map_nil, List.append_nil] at htasks
    simp [sendEvents, ← htasks]
  | cons d todo ih =>
    have hrequest : m.step (.request finished.length) = { m with
        tasks := finished ++ ⟨pass, d, .requested⟩ :: todo.map fun d => ⟨pass, d, .spawned⟩
        requests := m.requests ++ [d.id] } := by
      simp [WebhookManager.step, WebhookManager.sendRequest, htasks]
    obtain ⟨delivered, hrespond⟩ : ∃ delivered,
        (m.step (.request finished.length)).step (.respond finished.length (answer d)) = { m with
          tasks := (finished ++ [⟨pass, d.answered (answer d), .finished⟩]) ++
            todo.map fun d => ⟨pass, d, .spawned⟩
          requests := m.requests ++ [d.id]
          delivered := delivered } := by
      rw [hrequest]
      simp [WebhookManager.step, WebhookManager.receiveResponse]
    obtain ⟨delivered', hrest⟩ := ih (finished ++ [⟨pass, d.answered (answer d), .finished⟩])
      ((m.step (.request finished.length)).step (.respond finished.length (answer d)))
      (by rw [hrespond])
    refine ⟨delivered', ?_⟩
    rw [List.length_append, List.length_singleton, hrespond] at hrest
    show ((m.step (.request finished.length)).step (.respond finished.length (answer d))).run
      (sendEvents answer (finished.length + 1) todo) = _
    rw [hrespond, hrest]
    simp

/-- A pass inserts what its sends have left of the deliveries that were ready at its start. -/
theorem round_pass (endpoint : Endpoint) (htasks : m.tasks = [])
    (hids : (m.pendingDeliveries.map (·.id)).Nodup) (during : List MapChange) :
    ∃ delivered, m.round endpoint (.pass now during) =
      { (m.beginPass now).run (during.map (·.event)) with
        pendingDeliveries := ((m.readyDeliveries now).map fun d =>
          d.answered (m.nextAnswer endpoint d)).foldl insertDelivery
            ((m.beginPass now).run (during.map (·.event))).pendingDeliveries
        tasks := []
        requests := ((m.beginPass now).run (during.map (·.event))).requests ++
          (m.readyDeliveries now).map (·.id)
        delivered := delivered } := by
  obtain ⟨-, hspawned, -⟩ := changes_spec (m := m.beginPass now) hids during
  have hbegun : ((m.beginPass now).run (during.map (·.event))).tasks =
      [] ++ (m.readyDeliveries now).map fun d => ⟨m.passes, d, .spawned⟩ := by
    rw [hspawned]
    show m.tasks ++ _ = _
    rw [htasks]
  obtain ⟨delivered, hsent⟩ := run_sendEvents (m.nextAnswer endpoint) m.passes
    (m.readyDeliveries now) [] _ hbegun
  refine ⟨delivered, ?_⟩
  have hround : m.round endpoint (.pass now during) =
      (((m.beginPass now).run (during.map (·.event))).run (sendEvents (m.nextAnswer endpoint) 0
        (m.readyDeliveries now))).writeBack m.passes := by
    unfold WebhookManager.round roundEvents passEvents
    show (m.beginPass now).run (_ ++ (_ ++ [_])) = _
    simp only [WebhookManager.run, EventMachine.run, List.foldl_append]
    rfl
  rw [hround, show sendEvents _ 0 _ = sendEvents _ ([] : List SendTask).length _ from rfl, hsent]
  simp [WebhookManager.writeBack, ended, passTasks, updatedDeliveries, withoutPass,
    List.filter_map, Function.comp_def]

/-- Between two rounds no copy of a delivery is on its way. -/
structure Idle (m : WebhookManager) : Prop where
  tasks : m.tasks = []
  ids : (m.pendingDeliveries.map (·.id)).Nodup

theorem Idle.round (h : m.Idle) (r : WebhookRound) : (m.round endpoint r).Idle := by
  cases r with
  | change c =>
    obtain ⟨hids, htasks, -⟩ := change_spec h.ids c
    exact ⟨htasks.trans h.tasks, hids⟩
  | pass now during =>
    obtain ⟨hids, -, -⟩ := changes_spec (m := m.beginPass now) h.ids during
    obtain ⟨delivered, hround⟩ := round_pass endpoint h.tasks h.ids during
    rw [hround]
    exact ⟨rfl, nodup_foldl_insertDelivery hids⟩

theorem idle_after (endpoint : Endpoint) (rounds : ℕ → WebhookRound) (n : ℕ) :
    (after endpoint rounds n).Idle := by
  induction n with
  | zero => exact ⟨rfl, List.nodup_nil⟩
  | succ n ih => exact ih.round (rounds n)

section Pass

variable {d : WebhookDelivery}

theorem mem_readyDeliveries_iff : d ∈ m.readyDeliveries now ↔
    d ∈ m.pendingDeliveries ∧ d.isReadyForRetry now = true := List.mem_filter

theorem ids_readyDeliveries (h : m.Idle) : ((m.readyDeliveries now).map (·.id)).Nodup :=
  h.ids.sublist (List.filter_sublist.map _)

theorem find_sent (h : m.Idle) (hd : d ∈ m.readyDeliveries now)
    (answer : WebhookDelivery → WebhookAnswer) :
    ((m.readyDeliveries now).map fun d => d.answered (answer d)).reverse.find? (·.id == d.id) =
      some (d.answered (answer d)) := by
  have hsame : (d.answered (answer d)).id = d.id := answered_id.1
  rw [← hsame]
  apply find_of_mem
  · rw [List.map_reverse, List.nodup_reverse, List.map_map]
    have hids : ((m.readyDeliveries now).map fun d => (d.answered (answer d)).id) =
        (m.readyDeliveries now).map (·.id) := by
      apply List.map_congr_left
      intro e _
      exact answered_id.1
    show ((m.readyDeliveries now).map fun d => (d.answered (answer d)).id).Nodup
    rw [hids]
    exact ids_readyDeliveries h
  · rw [List.mem_reverse]
    exact List.mem_map_of_mem hd

theorem find_unsent (hnone : ∀ e ∈ m.readyDeliveries now, e.id ≠ id)
    (answer : WebhookDelivery → WebhookAnswer) :
    ((m.readyDeliveries now).map fun d => d.answered (answer d)).reverse.find? (·.id == id) =
      none := by
  rw [List.find?_eq_none]
  intro u hu hsame
  obtain ⟨e, he, rfl⟩ := List.mem_map.mp (List.mem_reverse.mp hu)
  apply hnone e he
  rw [← beq_iff_eq.mp hsame]
  exact answered_id.1.symm

/-- What a pass does to one delivery. -/
theorem view_pass (h : m.Idle) (htracked : (m.view id).Tracked (endpoint id))
    (during : List MapChange) :
    ∃ v, DeliveryView.Changes id (m.view id) v ∧ (m.round endpoint (.pass now during)).view id =
      if (m.view id).entry.any (·.isReadyForRetry now) then v.send (endpoint id) else v := by
  obtain ⟨-, -, hchanges⟩ := changes_spec (m := m.beginPass now) h.ids during
  have hchanged : DeliveryView.Changes id (m.view id) _ := hchanges id
  obtain ⟨delivered, hround⟩ := round_pass endpoint h.tasks h.ids during
  refine ⟨_, hchanged, ?_⟩
  rw [hround]
  by_cases htaken : (m.view id).entry.any (·.isReadyForRetry now) = true
  · rw [if_pos htaken]
    rw [Option.any_eq_true] at htaken
    obtain ⟨d, hd, hready⟩ := htaken
    have hfound : m.pendingDeliveries.find? (·.id == id) = some d := hd
    obtain rfl : d.id = id := by simpa using List.find?_some hfound
    have hin : d ∈ m.readyDeliveries now :=
      mem_readyDeliveries_iff.mpr ⟨List.mem_of_find?_eq_some hfound, hready⟩
    have hsame := DeliveryView.changes_entry (htracked.born hd) hd (mem_readyDeliveries hin).2
      hchanged
    have hretries := congrArg DeliveryView.retries hsame
    have hsent := congrArg DeliveryView.sent hsame
    have hcount : ((m.readyDeliveries now).map (·.id)).count d.id = 1 :=
      List.count_eq_one_of_mem (ids_readyDeliveries h) (List.mem_map_of_mem hin)
    have hsend : (m.view d.id).send (endpoint d.id) = ⟨m.retries[d.id]?,
        some (d.answered (m.nextAnswer endpoint d)), m.requests.count d.id + 1⟩ := by
      show (⟨_, (m.view d.id).entry.map _, _⟩ : DeliveryView) = _
      rw [hd]
      rfl
    rw [hsame, hsend]
    simp only [view, pendingOf, find_foldl_insertDelivery, find_sent h hin, List.count_append,
      hcount]
    congr 1
    exact congrArg (· + 1) hsent
  · rw [if_neg htaken]
    have hnone : ∀ e ∈ m.readyDeliveries now, e.id ≠ id := by
      rintro e he rfl
      obtain ⟨hin, hready⟩ := mem_readyDeliveries_iff.mp he
      apply htaken
      rw [Option.any_eq_true]
      exact ⟨e, find_of_mem h.ids hin, hready⟩
    have hcount : ((m.readyDeliveries now).map (·.id)).count id = 0 := by
      rw [List.count_eq_zero]
      intro hin
      obtain ⟨e, he, hid⟩ := List.mem_map.mp hin
      exact hnone e he hid
    simp only [view, pendingOf, find_foldl_insertDelivery, find_unsent hnone, List.count_append,
      hcount]
    rfl

/-- A round changes a delivery, and sends it if it is ready in the map of a pass. -/
theorem view_round (h : m.Idle) (htracked : (m.view id).Tracked (endpoint id)) (r : WebhookRound) :
    ∃ v, DeliveryView.Changes id (m.view id) v ∧ (m.round endpoint r).view id =
      if (m.view id).entry.any r.takes then v.send (endpoint id) else v := by
  cases r with
  | change c =>
    obtain ⟨-, -, hchanges⟩ := change_spec h.ids c
    refine ⟨_, hchanges id, ?_⟩
    rw [if_neg]
    · rfl
    · rw [Option.any_eq_true]
      rintro ⟨d, -, htakes⟩
      cases htakes
  | pass now during => exact view_pass h htracked during

theorem shouldRetry_of_takes {r : WebhookRound} (htakes : r.takes d = true) :
    d.shouldRetry = true := by
  cases r with
  | change c => cases htakes
  | pass now during =>
    cases hretry : d.shouldRetry with
    | true => rfl
    | false =>
      simp [WebhookRound.takes, WebhookDelivery.isReadyForRetry, hretry] at htakes

/-- The delivery that a round sends is sent as it was before the round. -/
theorem view_round_taken (h : m.Idle) (htracked : (m.view id).Tracked (endpoint id))
    {r : WebhookRound} (hd : (m.view id).entry = some d) (htakes : r.takes d = true) :
    (m.round endpoint r).view id = (m.view id).send (endpoint id) := by
  obtain ⟨v, hchanges, hview⟩ := view_round h htracked r
  have htaken : (m.view id).entry.any r.takes = true := by
    rw [Option.any_eq_true]
    exact ⟨d, hd, htakes⟩
  have hsame := DeliveryView.changes_entry (htracked.born hd) hd (shouldRetry_of_takes htakes)
    hchanges
  rw [hview, if_pos htaken, hsame]

theorem view_round_waiting (h : m.Idle) (htracked : (m.view id).Tracked (endpoint id))
    {r : WebhookRound} (hd : (m.view id).entry = some d) (hretry : d.shouldRetry = true)
    (htakes : r.takes d = false) : (m.round endpoint r).view id = m.view id := by
  obtain ⟨v, hchanges, hview⟩ := view_round h htracked r
  have htaken : ¬(m.view id).entry.any r.takes = true := by
    rw [hd]
    simpa using htakes
  rw [hview, if_neg htaken]
  exact DeliveryView.changes_entry (htracked.born hd) hd hretry hchanges

theorem tracked_round (h : m.Idle) (htracked : (m.view id).Tracked (endpoint id))
    (r : WebhookRound) : ((m.round endpoint r).view id).Tracked (endpoint id) := by
  by_cases htaken : (m.view id).entry.any r.takes = true
  · rw [Option.any_eq_true] at htaken
    obtain ⟨d, hd, htakes⟩ := htaken
    rw [view_round_taken h htracked hd htakes]
    exact htracked.send hd (shouldRetry_of_takes htakes)
  · obtain ⟨v, hchanges, hview⟩ := view_round h htracked r
    rw [hview, if_neg htaken]
    exact htracked.changes hchanges

end Pass

section Schedule

variable {rounds : ℕ → WebhookRound} {n k maxRetries first : ℕ} {d : WebhookDelivery}

theorem tracked_after (endpoint : Endpoint) (rounds : ℕ → WebhookRound) (id n : ℕ) :
    ((after endpoint rounds n).view id).Tracked (endpoint id) := by
  induction n with
  | zero => exact .unborn
  | succ n ih => exact tracked_round (idle_after endpoint rounds n) ih (rounds n)

theorem sent_succ_or (endpoint : Endpoint) (rounds : ℕ → WebhookRound) (id n : ℕ) :
    (∃ d, ((after endpoint rounds n).view id).entry = some d ∧
        (after endpoint rounds (n + 1)).view id =
          ((after endpoint rounds n).view id).send (endpoint id)) ∨
      ((after endpoint rounds (n + 1)).view id).sent =
        ((after endpoint rounds n).view id).sent := by
  have hidle := idle_after endpoint rounds n
  have htracked := tracked_after endpoint rounds id n
  by_cases htaken : ((after endpoint rounds n).view id).entry.any (rounds n).takes = true
  · left
    rw [Option.any_eq_true] at htaken
    obtain ⟨d, hd, htakes⟩ := htaken
    exact ⟨d, hd, view_round_taken hidle htracked hd htakes⟩
  · right
    obtain ⟨v, hchanges, hview⟩ := view_round hidle htracked (rounds n)
    show (((after endpoint rounds n).round endpoint (rounds n)).view id).sent = _
    rw [hview, if_neg htaken]
    exact DeliveryView.changes_sent hchanges

theorem sent_mono (endpoint : Endpoint) (rounds : ℕ → WebhookRound) (id : ℕ) :
    Monotone fun n => ((after endpoint rounds n).view id).sent := by
  apply monotone_nat_of_le_succ
  intro n
  obtain ⟨d, -, hview⟩ | hsame := sent_succ_or endpoint rounds id n
  · show _ ≤ ((after endpoint rounds (n + 1)).view id).sent
    rw [hview]
    exact Nat.le_succ _
  · exact Nat.le_of_eq hsame.symm

theorem retries_round (h : m.Idle) (htracked : (m.view id).Tracked (endpoint id))
    (hretries : (m.view id).retries = some maxRetries) (r : WebhookRound) :
    ((m.round endpoint r).view id).retries = some maxRetries := by
  obtain ⟨v, hchanges, hview⟩ := view_round h htracked r
  have hv := DeliveryView.changes_retries hretries hchanges
  rw [hview]
  split
  · exact hv
  · exact hv

theorem retries_after (hretries : ((after endpoint rounds n).view id).retries = some maxRetries)
    (hk : n ≤ k) : ((after endpoint rounds k).view id).retries = some maxRetries := by
  induction k, hk using Nat.le_induction with
  | base => exact hretries
  | succ k hk ih =>
    exact retries_round (idle_after endpoint rounds k) (tracked_after endpoint rounds id k) ih _

theorem requests_le (hqueued : (after endpoint rounds n).retries[id]? = some maxRetries) (k : ℕ) :
    (after endpoint rounds k).requests.count id ≤ maxRetries := by
  have hretries : ((after endpoint rounds n).view id).retries = some maxRetries := hqueued
  have hbound := (tracked_after endpoint rounds id (max k n)).sent_le
    (retries_after hretries (Nat.le_max_right k n))
  have hmore := sent_mono endpoint rounds id (Nat.le_max_left k n)
  exact Nat.le_trans hmore hbound

/-- A pass that is late enough takes every retryable delivery. -/
theorem takes_pass {time : ℕ} {during : List MapChange} (hretry : d.shouldRetry = true)
    (htime : d.nextRetryAt.getD 0 ≤ time) : (WebhookRound.pass time during).takes d = true := by
  unfold WebhookRound.takes WebhookDelivery.isReadyForRetry
  dsimp only
  rw [hretry]
  cases hnext : d.nextRetryAt with
  | none => rfl
  | some retryTime =>
    rw [hnext] at htime
    simpa using htime

/-- A retryable delivery is sent again, as it is. -/
theorem next_send (hfair : Fair rounds) (hd : ((after endpoint rounds n).view id).entry = some d)
    (hretry : d.shouldRetry = true) : ∃ k ≥ n, (after endpoint rounds (k + 1)).view id =
      ((after endpoint rounds n).view id).send (endpoint id) := by
  have hexists : ∃ k, n ≤ k ∧ (rounds k).takes d = true := by
    obtain ⟨k, hk, time, htime, during, hround⟩ := hfair n (d.nextRetryAt.getD 0)
    refine ⟨k, hk, ?_⟩
    rw [hround]
    exact takes_pass hretry htime
  obtain ⟨hle, htakes⟩ := Nat.find_spec hexists
  -- until the first round that takes it, nothing happens to the delivery
  have hwaiting : ∀ k, n ≤ k → k ≤ Nat.find hexists →
      (after endpoint rounds k).view id = (after endpoint rounds n).view id := by
    intro k hk
    induction k, hk using Nat.le_induction with
    | base => exact fun _ => rfl
    | succ k hk ih =>
      intro hlt
      have hview := ih (Nat.le_of_succ_le hlt)
      have hnot := Nat.find_min hexists hlt
      have hnottaken : (rounds k).takes d = false := by
        rw [← Bool.not_eq_true]
        exact fun htaken => hnot ⟨hk, htaken⟩
      have hround := view_round_waiting (idle_after endpoint rounds k)
        (tracked_after endpoint rounds id k) (hview ▸ hd) hretry hnottaken
      exact hround.trans hview
  have hview := hwaiting _ hle (Nat.le_refl _)
  refine ⟨Nat.find hexists, hle, ?_⟩
  have hround := view_round_taken (idle_after endpoint rounds _)
    (tracked_after endpoint rounds id _) (hview ▸ hd) htakes
  rw [← hview]
  exact hround

/-- A delivery that can be retried up to its first success gets there. -/
theorem reaches_success (hfair : Fair rounds)
    (hretries : ((after endpoint rounds n).view id).retries = some maxRetries)
    (hfirst : first < maxRetries) (hsuccess : endpoint id first = .success)
    (hleast : ∀ send < first, endpoint id send ≠ .success) (sends : ℕ)
    (hsends : sends ≤ first + 1) :
    ∃ k ≥ n, sends ≤ ((after endpoint rounds k).view id).sent := by
  induction sends with
  | zero => exact ⟨n, Nat.le_refl n, Nat.zero_le _⟩
  | succ sends ih =>
    obtain ⟨k, hk, hsent⟩ := ih (Nat.le_of_succ_le hsends)
    obtain hsent | hsent := Nat.lt_or_eq_of_le hsent
    · exact ⟨k, hk, hsent⟩
    · have htracked := tracked_after endpoint rounds id k
      obtain ⟨d, hd, hretry⟩ := htracked.waits (retries_after hretries hk) hfirst hsuccess
        hleast (by omega)
      obtain ⟨j, hj, hview⟩ := next_send hfair hd hretry
      refine ⟨j + 1, by omega, ?_⟩
      rw [hview, hsent]
      exact Nat.le_refl _

/-- The send that gets through leaves a completed delivery in the map. -/
theorem completed_at_success (hsuccess : endpoint id first = .success)
    (hsent : ∃ k, first + 1 ≤ ((after endpoint rounds k).view id).sent) :
    ∃ k, ∃ d ∈ (after endpoint rounds k).pendingOf id, d.completed = true := by
  have hspec := Nat.find_spec hsent
  cases hk : Nat.find hsent with
  | zero =>
    rw [hk] at hspec
    exact absurd hspec (Nat.not_succ_le_zero first)
  | succ k =>
    have hbefore := Nat.find_min hsent (m := k) (by omega)
    rw [hk] at hspec
    refine ⟨k + 1, ?_⟩
    obtain ⟨d, hd, hview⟩ | hsame := sent_succ_or endpoint rounds id k
    · rw [hview] at hspec
      have hlast : ((after endpoint rounds k).view id).sent = first := by
        have hle : first + 1 ≤ ((after endpoint rounds k).view id).sent + 1 := hspec
        omega
      have hentry := congrArg DeliveryView.entry hview
      refine ⟨d.markCompleted, ?_, rfl⟩
      show ((after endpoint rounds (k + 1)).view id).entry = some d.markCompleted
      rw [hentry]
      show ((after endpoint rounds k).view id).entry.map _ = _
      rw [hd, hlast, hsuccess]
      rfl
    · omega

end Schedule

/-- Under passes that go on and run one at a time, a delivery that is retried at most `max_retries`
times gets what the sender's log announces exactly when one of its first `max_retries` sends gets
through. -/
theorem retriesComplete_iff {rounds : ℕ → WebhookRound} {n id maxRetries : ℕ}
    (hfair : Fair rounds) (hqueued : (after endpoint rounds n).retries[id]? = some maxRetries) :
    RetriesComplete endpoint rounds id maxRetries ↔
      ∃ send < maxRetries, endpoint id send = .success := by
  have hretries : ((after endpoint rounds n).view id).retries = some maxRetries := hqueued
  constructor
  · intro h
    obtain ⟨last, ⟨k, hsent⟩, -, hlast⟩ := h.ends
    have hbound := (hsent k (Nat.le_refl k)).symm.trans_le (requests_le hqueued k)
    obtain ⟨-, hsuccess, -⟩ | ⟨-, hannounced, -⟩ := hlast
    · exact ⟨last, by omega, hsuccess⟩
    · omega
  · intro hsuccess
    obtain ⟨hfirst, hanswer⟩ := Nat.find_spec hsuccess
    have hleast : ∀ send < Nat.find hsuccess, endpoint id send ≠ .success := by
      intro send hsend hearlier
      exact Nat.find_min hsuccess hsend ⟨Nat.lt_trans hsend hfirst, hearlier⟩
    obtain ⟨k, -, hreached⟩ := reaches_success hfair hretries hfirst hanswer hleast _
      (Nat.le_refl _)
    constructor
    · refine ⟨Nat.find hsuccess, ⟨k, ?_⟩, hleast, .inl ⟨by omega, hanswer, ?_⟩⟩
      · intro j hj
        have hmore := sent_mono endpoint rounds id hj
        have hless := (tracked_after endpoint rounds id j).sent_le_success hanswer
        show ((after endpoint rounds j).view id).sent = _
        dsimp only at hmore
        omega
      · exact completed_at_success hanswer ⟨k, hreached⟩
    · intro j d hd
      have htracked := tracked_after endpoint rounds id j
      obtain ⟨retries, hborn⟩ := Option.ne_none_iff_exists'.mp (htracked.born hd)
      have hsame : retries = maxRetries := by
        have hleft := retries_after hborn (Nat.le_max_left j n)
        have hright := retries_after hretries (Nat.le_max_right j n)
        rw [hleft] at hright
        exact Option.some.inj hright
      rw [hsame] at hborn
      exact htracked.moves hborn (Nat.zero_lt_of_lt hfirst) hd

/-- One event, and passes ever after. -/
def onceQueued (maxRetries : Option ℕ) : ℕ → WebhookRound
  | 0 => .change (.queue [maxRetries] 0)
  | n + 1 => .pass n []

theorem fair_onceQueued (maxRetries : Option ℕ) : Fair (onceQueued maxRetries) := by
  intro n time
  refine ⟨max n time + 1, ?_, max n time, Nat.le_max_right n time, [], rfl⟩
  exact Nat.le_succ_of_le (Nat.le_max_left n time)

theorem retriesComplete_second_send : RetriesComplete
    (fun _ send => if send = 0 then .failure "timeout" 0 5 else .success) (onceQueued none) 0 3 :=
  (retriesComplete_iff (n := 1) (fair_onceQueued none) rfl).mpr ⟨1, by decide, rfl⟩

/-- An endpoint that would accept the last send that the log announces is not sent it, and a
delivery without retries is never sent, nor marked. -/
theorem retriesComplete_fails :
    (Fair (onceQueued none) ∧ ¬RetriesComplete
      (fun _ send => if send = 3 then .success else .failure "timeout" 0 5)
      (onceQueued none) 0 3) ∧
    Fair (onceQueued (some 0)) ∧
      ¬RetriesComplete (fun _ _ => .success) (onceQueued (some 0)) 0 0 := by
  refine ⟨⟨fair_onceQueued none, ?_⟩, fair_onceQueued (some 0), ?_⟩
  · intro h
    obtain ⟨last, ⟨k, hsent⟩, -, hlast⟩ := h.ends
    have hbound := (hsent k (Nat.le_refl k)).symm.trans_le (requests_le (n := 1) rfl k)
    have hthree : last = 3 := by
      obtain ⟨-, hsuccess, -⟩ | ⟨-, hannounced, -⟩ := hlast
      · by_contra hother
        simp [hother] at hsuccess
      · omega
    rw [hthree] at hbound
    exact absurd hbound (by decide)
  · intro h
    have hstuck := h.moves 1 (WebhookDelivery.new 0 (some 0) 0) rfl
    simp [WebhookDelivery.new, WebhookDelivery.shouldRetry] at hstuck

end WebhookManager

end Rrelayer
