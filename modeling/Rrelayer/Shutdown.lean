import Rrelayer.Lib.Machine
import Mathlib.Data.Finset.Card

/-! The shutdown coordinator: tasks enter and leave operations, and a shutdown waits until the
counter of active operations is zero. Each event is one atomic access of one task. -/
namespace Rrelayer

abbrev TaskId := ℕ

/-- Where a task stands between `enter_operation` and the drop of its guard. A task that is
`checked` has read the flag as unset and is about to count itself. -/
inductive OperationPhase where
  | outside | checked | running | notifying
  deriving DecidableEq, Repr

/-- Where a task stands in `request_shutdown`. -/
inductive RequestPhase where
  | idle | waiting | parking | parked
  | returned (complete : Bool)
  deriving DecidableEq, Repr

structure ShutdownCoordinator where
  activeOperations : ℕ
  shutdownRequested : Bool
  operation : TaskId → OperationPhase
  request : TaskId → RequestPhase

inductive ShutdownEvent where
  | loadFlag (t : TaskId)
  | increment (t : TaskId)
  | decrement (t : TaskId)
  | notifyWaiters (t : TaskId)
  | storeFlag (t : TaskId)
  | loadCount (t : TaskId)
  | awaitNotified (t : TaskId)
  | timeout (t : TaskId)
  deriving DecidableEq, Repr

namespace ShutdownCoordinator

def new : ShutdownCoordinator where
  activeOperations := 0
  shutdownRequested := false
  operation _ := .outside
  request _ := .idle

section Accesses

variable (s : ShutdownCoordinator) (t : TaskId)

def setOperation (phase : OperationPhase) : ShutdownCoordinator :=
  { s with operation := Function.update s.operation t phase }

def setRequest (phase : RequestPhase) : ShutdownCoordinator :=
  { s with request := Function.update s.request t phase }

/-- The check of `enter_operation`; without entry the task stays outside. -/
def loadFlag : ShutdownCoordinator :=
  if s.operation t == .outside && !s.shutdownRequested then s.setOperation t .checked else s

def increment : ShutdownCoordinator :=
  if s.operation t == .checked then
    { s with activeOperations := s.activeOperations + 1 }.setOperation t .running
  else s

/-- `exit_operation`: the last one to leave is the one that notifies. -/
def decrement : ShutdownCoordinator :=
  if s.operation t == .running then
    { s with activeOperations := s.activeOperations - 1 }.setOperation t
      (if s.activeOperations == 1 then .notifying else .outside)
  else s

def wake : RequestPhase → RequestPhase
  | .parked => .waiting
  | phase => phase

def notifyWaiters : ShutdownCoordinator :=
  if s.operation t == .notifying then
    { s with request := fun u => wake (s.request u) }.setOperation t .outside
  else s

def storeFlag : ShutdownCoordinator :=
  if s.request t == .idle then { s with shutdownRequested := true }.setRequest t .waiting else s

/-- The loop head of `wait_for_operations_complete`. -/
def loadCount : ShutdownCoordinator :=
  if s.request t == .waiting then
    s.setRequest t (if s.activeOperations == 0 then .returned true else .parking)
  else s

def awaitNotified : ShutdownCoordinator :=
  if s.request t == .parking then s.setRequest t .parked else s

/-- The other arm of the `select`. -/
def timeout : ShutdownCoordinator :=
  match s.request t with
  | .waiting | .parking | .parked => s.setRequest t (.returned false)
  | _ => s

end Accesses

def step (s : ShutdownCoordinator) : ShutdownEvent → ShutdownCoordinator
  | .loadFlag t => s.loadFlag t
  | .increment t => s.increment t
  | .decrement t => s.decrement t
  | .notifyWaiters t => s.notifyWaiters t
  | .storeFlag t => s.storeFlag t
  | .loadCount t => s.loadCount t
  | .awaitNotified t => s.awaitNotified t
  | .timeout t => s.timeout t

abbrev run (s : ShutdownCoordinator) (es : List ShutdownEvent) : ShutdownCoordinator :=
  EventMachine.run step s es

/-- The counter counts the running operations, and whoever waits has set the flag. -/
structure Counted (s : ShutdownCoordinator) : Prop where
  count : ∃ running : Finset TaskId, (∀ t, t ∈ running ↔ s.operation t = .running) ∧
    running.card = s.activeOperations
  flag : ∀ t, s.request t ≠ .idle → s.shutdownRequested = true

variable {s : ShutdownCoordinator} {e : ShutdownEvent} {t u : TaskId}

theorem operation_setOperation {phase : OperationPhase} :
    (s.setOperation t phase).operation u = if u = t then phase else s.operation u :=
  Function.update_apply s.operation t phase u

/-- A task that changes its phase without starting or ending an operation. -/
theorem Counted.move {phase : OperationPhase} (h : s.Counted) (hbefore : s.operation t ≠ .running)
    (hafter : phase ≠ .running) : (s.setOperation t phase).Counted := by
  obtain ⟨⟨running, hmem, hcard⟩, hflag⟩ := h
  refine ⟨⟨running, ?_, hcard⟩, hflag⟩
  intro u
  rw [operation_setOperation, hmem]
  by_cases hu : u = t
  · subst hu
    simp [hbefore, hafter]
  · simp [hu]

/-- A request that is under way moves on; the flag was set for it. -/
theorem Counted.wait {phase : RequestPhase} (h : s.Counted) (hbusy : s.request t ≠ .idle) :
    (s.setRequest t phase).Counted :=
  ⟨h.count, fun _ _ => h.flag t hbusy⟩

theorem Counted.loadFlag (h : s.Counted) : (s.loadFlag t).Counted := by
  unfold ShutdownCoordinator.loadFlag
  split
  · rename_i houtside
    simp only [Bool.and_eq_true, beq_iff_eq] at houtside
    apply h.move
    · rw [houtside.1]
      exact fun h => nomatch h
    · exact fun h => nomatch h
  · exact h

theorem Counted.increment (h : s.Counted) : (s.increment t).Counted := by
  obtain ⟨⟨running, hmem, hcard⟩, hflag⟩ := h
  unfold ShutdownCoordinator.increment
  split
  · rename_i hchecked
    have hchecked : s.operation t = .checked := by simpa using hchecked
    have hnew : t ∉ running := by
      rw [hmem, hchecked]
      exact fun h => nomatch h
    refine ⟨⟨insert t running, ?_, ?_⟩, hflag⟩
    · intro u
      rw [operation_setOperation, Finset.mem_insert, hmem]
      by_cases hu : u = t
      · simp [hu]
      · simp [hu]
    · rw [Finset.card_insert_of_notMem hnew, hcard]
      rfl
  · exact ⟨⟨running, hmem, hcard⟩, hflag⟩

theorem Counted.decrement (h : s.Counted) : (s.decrement t).Counted := by
  obtain ⟨⟨running, hmem, hcard⟩, hflag⟩ := h
  unfold ShutdownCoordinator.decrement
  split
  · rename_i hrunning
    have hrunning : s.operation t = .running := by simpa using hrunning
    have hold : t ∈ running := (hmem t).mpr hrunning
    refine ⟨⟨running.erase t, ?_, ?_⟩, hflag⟩
    · intro u
      rw [operation_setOperation, Finset.mem_erase, hmem]
      by_cases hu : u = t
      · simp only [hu, ne_eq, not_true, false_and, if_true, false_iff]
        split
        · exact fun h => nomatch h
        · exact fun h => nomatch h
      · simp [hu]
    · rw [Finset.card_erase_of_mem hold, hcard]
      rfl
  · exact ⟨⟨running, hmem, hcard⟩, hflag⟩

theorem Counted.notifyWaiters (h : s.Counted) : (s.notifyWaiters t).Counted := by
  unfold ShutdownCoordinator.notifyWaiters
  split
  · rename_i hnotifying
    have hnotifying : s.operation t = .notifying := by simpa using hnotifying
    have hwoken : ({ s with request := fun u => wake (s.request u) } :
        ShutdownCoordinator).Counted := by
      refine ⟨h.count, ?_⟩
      intro u hu
      apply h.flag u
      intro hidle
      exact hu (by simp [hidle, wake])
    apply hwoken.move
    · show s.operation t ≠ .running
      rw [hnotifying]
      exact fun h => nomatch h
    · exact fun h => nomatch h
  · exact h

theorem Counted.storeFlag (h : s.Counted) : (s.storeFlag t).Counted := by
  unfold ShutdownCoordinator.storeFlag
  split
  · exact ⟨h.count, fun _ _ => rfl⟩
  · exact h

theorem Counted.loadCount (h : s.Counted) : (s.loadCount t).Counted := by
  unfold ShutdownCoordinator.loadCount
  split
  · rename_i hwaiting
    have hwaiting : s.request t = .waiting := by simpa using hwaiting
    apply h.wait
    rw [hwaiting]
    exact fun h => nomatch h
  · exact h

theorem Counted.awaitNotified (h : s.Counted) : (s.awaitNotified t).Counted := by
  unfold ShutdownCoordinator.awaitNotified
  split
  · rename_i hparking
    have hparking : s.request t = .parking := by simpa using hparking
    apply h.wait
    rw [hparking]
    exact fun h => nomatch h
  · exact h

theorem Counted.timeout (h : s.Counted) : (s.timeout t).Counted := by
  unfold ShutdownCoordinator.timeout
  split
  · rename_i hphase
    exact h.wait (by rw [hphase]; exact fun h => nomatch h)
  · rename_i hphase
    exact h.wait (by rw [hphase]; exact fun h => nomatch h)
  · rename_i hphase
    exact h.wait (by rw [hphase]; exact fun h => nomatch h)
  · exact h

theorem Counted.step (h : s.Counted) : (s.step e).Counted := by
  cases e with
  | loadFlag t => exact h.loadFlag
  | increment t => exact h.increment
  | decrement t => exact h.decrement
  | notifyWaiters t => exact h.notifyWaiters
  | storeFlag t => exact h.storeFlag
  | loadCount t => exact h.loadCount
  | awaitNotified t => exact h.awaitNotified
  | timeout t => exact h.timeout

theorem counted_run {es : List ShutdownEvent} (h : s.Counted) : (s.run es).Counted :=
  EventMachine.run_invariant (fun _ _ h => h.step) h es

theorem new_counted : new.Counted := by
  refine ⟨⟨∅, ?_, rfl⟩, ?_⟩
  · intro t
    simp [new]
  · intro t ht
    exact absurd rfl ht

/-- Nobody is in an operation or on the way into one, and nobody gets in. -/
structure Closed (s : ShutdownCoordinator) : Prop where
  flag : s.shutdownRequested = true
  operation : ∀ t, s.operation t ≠ .checked ∧ s.operation t ≠ .running

theorem Closed.move {phase : OperationPhase} (h : s.Closed)
    (hphase : phase ≠ .checked ∧ phase ≠ .running) : (s.setOperation t phase).Closed := by
  refine ⟨h.flag, ?_⟩
  intro u
  rw [operation_setOperation]
  split
  · exact hphase
  · exact h.operation u

theorem Closed.step (h : s.Closed) : (s.step e).Closed := by
  cases e with
  | loadFlag t =>
    have hrefused : s.loadFlag t = s := by simp [ShutdownCoordinator.loadFlag, h.flag]
    show (s.loadFlag t).Closed
    rw [hrefused]
    exact h
  | increment t =>
    have hnothing : s.increment t = s := by
      simp [ShutdownCoordinator.increment, (h.operation t).1]
    show (s.increment t).Closed
    rw [hnothing]
    exact h
  | decrement t =>
    have hnothing : s.decrement t = s := by
      simp [ShutdownCoordinator.decrement, (h.operation t).2]
    show (s.decrement t).Closed
    rw [hnothing]
    exact h
  | notifyWaiters t =>
    show (s.notifyWaiters t).Closed
    unfold ShutdownCoordinator.notifyWaiters
    split
    · have hwoken : ({ s with request := fun u => wake (s.request u) } :
          ShutdownCoordinator).Closed := ⟨h.flag, h.operation⟩
      exact hwoken.move ⟨(fun h => nomatch h), (fun h => nomatch h)⟩
    · exact h
  | storeFlag t =>
    show (s.storeFlag t).Closed
    unfold ShutdownCoordinator.storeFlag
    split
    · exact ⟨rfl, h.operation⟩
    · exact h
  | loadCount t =>
    show (s.loadCount t).Closed
    unfold ShutdownCoordinator.loadCount
    split
    · exact ⟨h.flag, h.operation⟩
    · exact h
  | awaitNotified t =>
    show (s.awaitNotified t).Closed
    unfold ShutdownCoordinator.awaitNotified
    split
    · exact ⟨h.flag, h.operation⟩
    · exact h
  | timeout t =>
    show (s.timeout t).Closed
    unfold ShutdownCoordinator.timeout
    split
    · exact ⟨h.flag, h.operation⟩
    · exact ⟨h.flag, h.operation⟩
    · exact ⟨h.flag, h.operation⟩
    · exact h

theorem Closed.run {es : List ShutdownEvent} (h : s.Closed) : (s.run es).Closed :=
  EventMachine.run_invariant (fun _ _ h => h.step) h es

/-- The wait reads a counter of zero, so the request returns that all operations have completed. -/
def Completes (s : ShutdownCoordinator) (t : TaskId) : Prop :=
  s.request t = .waiting ∧ s.activeOperations = 0

theorem Completes.returned (h : s.Completes t) : (s.loadCount t).request t = .returned true := by
  simp [ShutdownCoordinator.loadCount, setRequest, h.1, h.2]

theorem Completes.operation (h : s.Completes t) : (s.loadCount t).operation = s.operation := by
  simp [ShutdownCoordinator.loadCount, setRequest, h.1]

theorem Counted.none_running (h : s.Counted) (hzero : s.activeOperations = 0) :
    s.operation u ≠ .running := by
  obtain ⟨⟨running, hmem, hcard⟩, -⟩ := h
  rw [hzero, Finset.card_eq_zero] at hcard
  intro hrunning
  have hin := (hmem u).mpr hrunning
  rw [hcard] at hin
  exact absurd hin (Finset.notMem_empty u)

/-- A completed shutdown is a barrier, in every continuation of the run, exactly when no task is
between the check of the flag and the count at the moment the counter is read. -/
theorem shutdown_barrier {es : List ShutdownEvent} (h : (new.run es).Completes t) :
    (∀ fs u, (new.run (es ++ .loadCount t :: fs)).operation u ≠ .running) ↔
      ∀ u, (new.run es).operation u ≠ .checked := by
  have hcounted : (new.run es).Counted := counted_run new_counted
  have hafter (fs : List ShutdownEvent) :
      new.run (es ++ .loadCount t :: fs) = ((new.run es).loadCount t).run fs := by
    unfold ShutdownCoordinator.run
    rw [EventMachine.run_append, EventMachine.run_cons]
    rfl
  constructor
  · -- The task that was let in counts itself after the counter was read.
    intro hbarrier u hchecked
    apply hbarrier [.increment u] u
    rw [hafter]
    show (((new.run es).loadCount t).increment u).operation u = .running
    have hlate : ((new.run es).loadCount t).operation u = .checked := by
      rw [h.operation]
      exact hchecked
    simp [ShutdownCoordinator.increment, hlate, setOperation]
  · intro hnobody fs u
    rw [hafter]
    have hclosed : ((new.run es).loadCount t).Closed := by
      constructor
      · have hflag := hcounted.flag t (by rw [h.1]; exact fun h => nomatch h)
        simpa [ShutdownCoordinator.loadCount, setRequest, h.1] using hflag
      · intro v
        rw [h.operation]
        exact ⟨hnobody v, hcounted.none_running h.2⟩
    exact (hclosed.run.operation u).2

/-- A task runs an operation to its end, and the shutdown waits for it. -/
theorem shutdown_barrier_waited :
    (new.run [.loadFlag 0, .increment 0, .storeFlag 1, .loadCount 1, .awaitNotified 1,
        .decrement 0, .notifyWaiters 0]).Completes 1 ∧
      ∀ fs u, (new.run ([.loadFlag 0, .increment 0, .storeFlag 1, .loadCount 1, .awaitNotified 1,
        .decrement 0, .notifyWaiters 0] ++ .loadCount 1 :: fs)).operation u ≠ .running := by
  refine ⟨⟨by decide, by decide⟩, ?_⟩
  apply (shutdown_barrier (t := 1) ⟨by decide, by decide⟩).mpr
  intro u
  by_cases hu : u = 0
  · subst hu
    decide
  · simp [ShutdownCoordinator.run, EventMachine.run, step, new, loadFlag,
      ShutdownCoordinator.increment, ShutdownCoordinator.decrement, notifyWaiters, storeFlag,
      loadCount, awaitNotified, setOperation, setRequest, Function.update]

/-- A task has read the flag before the shutdown sets it, and counts itself after the shutdown has
read the counter. -/
theorem shutdown_barrier_fails :
    ¬ ∀ es, (∃ t, (new.run es).request t = .returned true) →
      ∀ u, (new.run es).operation u ≠ .running := by
  intro hbarrier
  apply hbarrier [.loadFlag 0, .storeFlag 1, .loadCount 1, .increment 0] ⟨1, by decide⟩ 0
  decide

end ShutdownCoordinator

end Rrelayer
