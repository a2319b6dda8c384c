import Rrelayer.CronJobs
import Rrelayer.Intervals
import Rrelayer.Lib.Machine

/-! The schedule of the cron jobs. Each enabled job has a task of its own, which sleeps, queues a
transaction and writes down in the database when it did; a restart reads that time back. The clock
counts nanoseconds since the epoch, a timestamp column microseconds. -/
namespace Rrelayer

structure CronJobScheduleConfig where
  every : String
  runOnStartup : Option Bool
  deriving DecidableEq, Repr

structure ScheduledCronJob extends CronJobConfig where
  name : String
  enabled : Bool
  schedule : CronJobScheduleConfig
  deriving DecidableEq, Repr

/-- A row of `cron_job_state`. -/
structure CronJobState where
  projectName : String
  jobName : String
  /-- In microseconds. -/
  lastRanAt : ℤ
  deriving DecidableEq, Repr

namespace CronJobState

def hasKey (projectName jobName : String) (row : CronJobState) : Bool :=
  row.projectName == projectName && row.jobName == jobName

def getCronJobLastRanAt (table : List CronJobState) (projectName jobName : String) :
    Option ℤ :=
  (table.find? (hasKey projectName jobName)).map (·.lastRanAt)

/-- An insert that updates the row of the same key where there is one. -/
def markCronJobRan (table : List CronJobState) (projectName jobName : String)
    (ranAt : ℤ) : List CronJobState :=
  if table.any (hasKey projectName jobName) then
    table.map fun row =>
      if hasKey projectName jobName row then { row with lastRanAt := ranAt / 1000 } else row
  else table ++ [⟨projectName, jobName, ranAt / 1000⟩]

variable {table : List CronJobState} {projectName jobName otherName : String} {ranAt : ℤ}

theorem getCronJobLastRanAt_markCronJobRan :
    getCronJobLastRanAt (markCronJobRan table projectName jobName ranAt) projectName jobName =
      some (ranAt / 1000) := by
  unfold getCronJobLastRanAt markCronJobRan
  by_cases hany : table.any (hasKey projectName jobName) = true
  · rw [if_pos hany]
    induction table with
    | nil => simp at hany
    | cons row table ih =>
      by_cases hrow : hasKey projectName jobName row = true
      · have hkept : hasKey projectName jobName { row with lastRanAt := ranAt / 1000 } = true :=
          hrow
        rw [List.map_cons, if_pos hrow, List.find?_cons_of_pos hkept]
        rfl
      · rw [List.map_cons, if_neg hrow, List.find?_cons_of_neg hrow]
        exact ih (by simpa [hrow] using hany)
  · rw [if_neg hany]
    have hnone : table.find? (hasKey projectName jobName) = none := by
      simpa [List.find?_eq_none] using hany
    simp [List.find?_append, hnone, hasKey]

/-- The mark of one job leaves the other jobs' rows alone. -/
theorem getCronJobLastRanAt_markCronJobRan_other (hname : otherName ≠ jobName) :
    getCronJobLastRanAt (markCronJobRan table projectName jobName ranAt) projectName otherName =
      getCronJobLastRanAt table projectName otherName := by
  have hapart (row : CronJobState) (hrow : hasKey projectName jobName row = true) :
      hasKey projectName otherName row = false := by
    unfold hasKey at hrow ⊢
    simp only [Bool.and_eq_true, beq_iff_eq] at hrow
    simp [hrow.2, hname.symm]
  unfold getCronJobLastRanAt markCronJobRan
  by_cases hany : table.any (hasKey projectName jobName) = true
  · rw [if_pos hany]
    clear hany
    induction table with
    | nil => rfl
    | cons row table ih =>
      by_cases hrow : hasKey projectName jobName row = true
      · have hother := hapart row hrow
        have hkept : hasKey projectName otherName { row with lastRanAt := ranAt / 1000 } = false :=
          hother
        rw [List.map_cons, if_pos hrow, List.find?_cons_of_neg (by simp [hkept]),
          List.find?_cons_of_neg (by simp [hother])]
        exact ih
      · rw [List.map_cons, if_neg hrow]
        by_cases hother : hasKey projectName otherName row = true
        · rw [List.find?_cons_of_pos hother, List.find?_cons_of_pos hother]
        · rw [List.find?_cons_of_neg hother, List.find?_cons_of_neg hother]
          exact ih
  · rw [if_neg hany]
    have hnew : hasKey projectName otherName ⟨projectName, jobName, ranAt / 1000⟩ = false := by
      simp [hasKey, hname.symm]
    simp [List.find?_append, hnew]

end CronJobState

/-- What the tasks are started with; that no name is used twice is checked when the file is read. -/
structure CronSetup where
  name : String
  networks : List SetupNetwork
  cronJobs : Option (List ScheduledCronJob)
  parseValue : String → Option TransactionValue
  build : Build
  names : ((cronJobs.getD []).map (·.name)).Nodup

def CronSetup.enabledJobs (c : CronSetup) : List ScheduledCronJob :=
  (c.cronJobs.getD []).filter (·.enabled)

/-- The interval of a job whose task does not end at once. -/
def ScheduledCronJob.interval (job : ScheduledCronJob) (build : Build) : Option ℕ :=
  match parseCronJobInterval build job.schedule.every with
  | some (.ok seconds) => some (seconds * 1000000000)
  | _ => none

/-- Where the task of a job is. -/
inductive CronTask where
  | stopped
  /-- The time of the last run is being read. -/
  | reading
  /-- The schedule anchor is being written. -/
  | anchoring (anchor : ℤ)
  | sleeping (wakeAt : ℤ)
  | enqueueing
  /-- The transaction is queued, and its mark is being written. -/
  | marking (ranAt : ℤ)
  deriving DecidableEq, Repr

/-- The last instant that has a date. -/
def maxDate : ℤ := 8210266876799999999999

def waitForDelayOrShutdown (now : ℤ) (delay : ℕ) : CronTask :=
  if delay = 0 then .enqueueing else .sleeping (now + delay)

/-- The first delay, as the stage it leads to; a date out of range ends the task. -/
def nextCronJobDelay (job : ScheduledCronJob) (interval : ℕ) (now : ℤ) :
    Except String (Option ℤ) → CronTask
  | .ok (some lastRanAt) =>
      let nextRunAt := lastRanAt * 1000 + interval
      if maxDate < nextRunAt then .stopped
      else if nextRunAt ≤ now then .enqueueing
      else .sleeping nextRunAt
  | .ok none => if job.schedule.runOnStartup.getD false then .enqueueing else .anchoring now
  | .error _ => waitForDelayOrShutdown now interval

/-- The answers an attempt gets: the relayers read, the random draw, the transaction built and the
admission. -/
structure EnqueueEnv where
  served : ChainId → Except String (List Relayer)
  choice : ℕ
  built : Except String TransactionToSend
  added : RelayerId → TransactionToSend → Except String TransactionId

def enqueueCronJobTransaction (c : CronSetup) (job : ScheduledCronJob) (env : EnqueueEnv) :
    Except String (RelayerId × TransactionId) :=
  match job.selectCronJobRelayer c.parseValue c.networks env.served env.choice with
  | .error e => .error e
  | .ok relayer =>
      match env.built with
      | .error e => .error e
      | .ok transactionToSend =>
          match env.added relayer.id transactionToSend with
          | .error e => .error e
          | .ok transactionId => .ok (relayer.id, transactionId)

/-- A transaction a job has queued, with the process that did and whether its mark was written. -/
structure CronRun where
  relayerId : RelayerId
  transactionId : TransactionId
  queuedAt : ℤ
  process : ℕ
  marked : Bool
  deriving DecidableEq, Repr

/-- The mark of the newest run is written. -/
def markNewest : List CronRun → List CronRun
  | [] => []
  | run :: runs => { run with marked := true } :: runs

structure CronWorld where
  now : ℤ
  /-- How many processes have been started so far. -/
  process : ℕ
  table : List CronJobState
  tasks : ScheduledCronJob → CronTask
  /-- What each job has queued, the newest first. -/
  runs : ScheduledCronJob → List CronRun

/-- What a task waits for. A write may be carried out or not, whatever the answer; a task that ends
may leave such a write behind. -/
inductive CronTaskEvent where
  | read (served : Bool)
  | anchored (stored : Bool)
  | wake
  | shutdown
  | enqueued (env : EnqueueEnv)
  | marked (stored : Bool)
  | died (stored : Bool)

inductive CronEvent where
  | tick (elapsed : ℕ)
  /-- A process starts, after the one before it has ended. -/
  | start
  | task (job : ScheduledCronJob) (e : CronTaskEvent)

namespace CronWorld

variable (c : CronSetup) (s : CronWorld) (job : ScheduledCronJob)

def setTask (task : CronTask) : CronWorld :=
  { s with tasks := Function.update s.tasks job task }

def lastRanAt : Option ℤ := CronJobState.getCronJobLastRanAt s.table c.name job.name

def mark (ranAt : ℤ) (stored : Bool) : CronWorld :=
  if stored then { s with table := CronJobState.markCronJobRan s.table c.name job.name ranAt }
  else s

/-- The mark of the run that is being marked. -/
def markRun (ranAt : ℤ) (stored : Bool) : CronWorld :=
  if stored then
    { s.mark c job ranAt true with runs := Function.update s.runs job (markNewest (s.runs job)) }
  else s

def taskStep (interval : ℕ) : CronTask → CronTaskEvent → CronWorld
  | .reading, .read served =>
      let answer := if served then .ok (s.lastRanAt c job) else .error "unavailable"
      s.setTask job (nextCronJobDelay job interval s.now answer)
  | .anchoring anchor, .anchored stored =>
      (s.mark c job anchor stored).setTask job (waitForDelayOrShutdown s.now interval)
  | .sleeping wakeAt, .wake => if wakeAt ≤ s.now then s.setTask job .enqueueing else s
  | .sleeping _, .shutdown => s.setTask job .stopped
  | .enqueueing, .enqueued env =>
      match enqueueCronJobTransaction c job env with
      | .error _ => s.setTask job (waitForDelayOrShutdown s.now interval)
      | .ok (relayerId, transactionId) =>
          let run : CronRun := ⟨relayerId, transactionId, s.now, s.process, false⟩
          { s with runs := Function.update s.runs job (run :: s.runs job) }.setTask job
            (.marking s.now)
  | .marking ranAt, .marked stored =>
      (s.markRun c job ranAt stored).setTask job (waitForDelayOrShutdown s.now interval)
  | .anchoring anchor, .died stored => (s.mark c job anchor stored).setTask job .stopped
  | .marking ranAt, .died stored => (s.markRun c job ranAt stored).setTask job .stopped
  | _, .died _ => s.setTask job .stopped
  | _, _ => s

/-- The tasks of a process, one for each enabled job. -/
def runCronJobTasks : CronWorld :=
  { s with
    process := s.process + 1
    tasks := fun job =>
      if job ∈ c.enabledJobs ∧ (job.interval c.build).isSome then .reading else .stopped }

def step (s : CronWorld) : CronEvent → CronWorld
  | .tick elapsed => { s with now := s.now + elapsed }
  | .start => if ∀ job ∈ c.enabledJobs, s.tasks job = .stopped then s.runCronJobTasks c else s
  | .task job e =>
      if job ∈ c.enabledJobs then
        match job.interval c.build with
        | none => s
        | some interval => s.taskStep c job interval (s.tasks job) e
      else s

abbrev run (s : CronWorld) (es : List CronEvent) : CronWorld := EventMachine.run (step c) s es

/-- No process has been started, and no recorded time is ahead of the clock. -/
structure Fresh : Prop where
  stopped : ∀ job, s.tasks job = .stopped
  runs : ∀ job, s.runs job = []
  past : ∀ row ∈ s.table, row.lastRanAt * 1000 ≤ s.now

end CronWorld

/-- Two jobs of the configuration have two names. -/
theorem CronSetup.name_ne {c : CronSetup} {job other : ScheduledCronJob}
    (hjob : job ∈ c.enabledJobs) (hother : other ∈ c.enabledJobs) (hne : other ≠ job) :
    job.name ≠ other.name := by
  intro hname
  have hjob := (List.mem_filter.mp hjob).1
  have hother := (List.mem_filter.mp hother).1
  exact hne (List.inj_on_of_nodup_map c.names hother hjob hname.symm)

/-- What concerns one job. -/
structure CronView where
  now : ℤ
  process : ℕ
  last : Option ℤ
  task : CronTask
  runs : List CronRun

/-- What one step can do to a job; the event is one of its own task, if it is given. -/
inductive CronView.Moves (job : ScheduledCronJob) (interval : ℕ) :
    Option CronTaskEvent → CronView → CronView → Prop where
  | rests (e : Option CronTaskEvent) (v : CronView) : Moves job interval e v v
  | ticks (v : CronView) (elapsed : ℕ) :
      Moves job interval none v { v with now := v.now + elapsed }
  | starts (v : CronView) {task : CronTask} (htask : task = .reading ∨ task = .stopped) :
      Moves job interval none v { v with process := v.process + 1, task := task }
  | reads (v : CronView) (served : Bool) (htask : v.task = .reading) :
      Moves job interval (some (.read served)) v { v with
        task := nextCronJobDelay job interval v.now
          (if served then .ok v.last else .error "unavailable") }
  | anchors (v : CronView) {e : CronTaskEvent} {anchor : ℤ} (stored : Bool)
      {task : CronTask} (htask : v.task = .anchoring anchor)
      (hnext : task = waitForDelayOrShutdown v.now interval ∨ task = .stopped) :
      Moves job interval (some e) v { v with
        last := if stored then some (anchor / 1000) else v.last
        task := task }
  | wakes (v : CronView) {wakeAt : ℤ} (htask : v.task = .sleeping wakeAt)
      (hdue : wakeAt ≤ v.now) : Moves job interval (some .wake) v { v with task := .enqueueing }
  | ends (v : CronView) (e : CronTaskEvent) :
      Moves job interval (some e) v { v with task := .stopped }
  | fails (v : CronView) (env : EnqueueEnv) (htask : v.task = .enqueueing) :
      Moves job interval (some (.enqueued env)) v
        { v with task := waitForDelayOrShutdown v.now interval }
  | queues (v : CronView) (env : EnqueueEnv) (relayerId : RelayerId)
      (transactionId : TransactionId) (htask : v.task = .enqueueing) :
      Moves job interval (some (.enqueued env)) v { v with
        task := .marking v.now
        runs := ⟨relayerId, transactionId, v.now, v.process, false⟩ :: v.runs }
  | marks (v : CronView) {e : CronTaskEvent} {ranAt : ℤ} (stored : Bool)
      {task : CronTask} (htask : v.task = .marking ranAt)
      (hnext : task = waitForDelayOrShutdown v.now interval ∨ task = .stopped) :
      Moves job interval (some e) v { v with
        last := if stored then some (ranAt / 1000) else v.last
        task := task
        runs := if stored then markNewest v.runs else v.runs }

/-- The event of the job's own task. -/
def CronEvent.own (job : ScheduledCronJob) : CronEvent → Option CronTaskEvent
  | .task other e => if other = job then some e else none
  | _ => none

namespace CronWorld

variable {c : CronSetup} {s : CronWorld} {job other : ScheduledCronJob} {interval : ℕ}
  {task : CronTask} {ranAt : ℤ} {stored : Bool}

def view (c : CronSetup) (s : CronWorld) (job : ScheduledCronJob) : CronView :=
  ⟨s.now, s.process, s.lastRanAt c job, s.tasks job, s.runs job⟩

theorem view_setTask : (s.setTask job task).view c job = { s.view c job with task := task } := by
  simp [view, setTask, lastRanAt]

theorem view_setTask_other (hne : other ≠ job) :
    (s.setTask other task).view c job = s.view c job := by
  simp [view, setTask, lastRanAt, Function.update_of_ne hne.symm]

theorem view_mark : (s.mark c job ranAt stored).view c job =
    { s.view c job with last := if stored then some (ranAt / 1000) else s.lastRanAt c job } := by
  cases stored with
  | false => rfl
  | true => simp [view, mark, lastRanAt, CronJobState.getCronJobLastRanAt_markCronJobRan]

theorem view_mark_other (hname : job.name ≠ other.name) :
    (s.mark c other ranAt stored).view c job = s.view c job := by
  cases stored with
  | false => rfl
  | true =>
    simp [view, mark, lastRanAt, CronJobState.getCronJobLastRanAt_markCronJobRan_other hname]

theorem view_markRun : (s.markRun c job ranAt stored).view c job = { s.view c job with
      last := if stored then some (ranAt / 1000) else s.lastRanAt c job
      runs := if stored then markNewest (s.runs job) else s.runs job } := by
  cases stored with
  | false => rfl
  | true => simp [view, markRun, mark, lastRanAt, CronJobState.getCronJobLastRanAt_markCronJobRan]

theorem view_markRun_other (hne : other ≠ job) (hname : job.name ≠ other.name) :
    (s.markRun c other ranAt stored).view c job = s.view c job := by
  cases stored with
  | false => rfl
  | true =>
    simp [view, markRun, mark, lastRanAt, Function.update_of_ne hne.symm,
      CronJobState.getCronJobLastRanAt_markCronJobRan_other hname]

/-- The step of another job's task changes nothing for this one. -/
theorem view_taskStep_other (hne : other ≠ job) (hname : job.name ≠ other.name)
    (e : CronTaskEvent) : (s.taskStep c other interval task e).view c job = s.view c job := by
  unfold taskStep
  split
  · exact view_setTask_other hne
  · rw [view_setTask_other hne, view_mark_other hname]
  · split
    · exact view_setTask_other hne
    · rfl
  · exact view_setTask_other hne
  · split
    · exact view_setTask_other hne
    · rw [view_setTask_other hne]
      simp [view, lastRanAt, Function.update_of_ne hne.symm]
  · rw [view_setTask_other hne, view_markRun_other hne hname]
  · rw [view_setTask_other hne, view_mark_other hname]
  · rw [view_setTask_other hne, view_markRun_other hne hname]
  · exact view_setTask_other hne
  · rfl

/-- The step of the job's own task. -/
theorem taskStep_moves (htask : s.tasks job = task) (e : CronTaskEvent) :
    CronView.Moves job interval (some e) (s.view c job)
      ((s.taskStep c job interval task e).view c job) := by
  unfold taskStep
  split
  next served =>
    rw [view_setTask]
    exact .reads _ served htask
  next anchor stored =>
    rw [view_setTask, view_mark]
    exact .anchors _ stored htask (.inl rfl)
  next wakeAt =>
    split
    next hdue =>
      rw [view_setTask]
      exact .wakes _ htask hdue
    next => exact .rests _ _
  next =>
    rw [view_setTask]
    exact .ends _ _
  next env =>
    split
    next =>
      rw [view_setTask]
      exact .fails _ env htask
    next relayerId transactionId _ =>
      have hqueued : CronView.Moves job interval _ _ _ :=
        .queues (s.view c job) env relayerId transactionId htask
      rw [view_setTask]
      simpa [view, lastRanAt] using hqueued
  next ranAt stored =>
    rw [view_setTask, view_markRun]
    exact .marks _ stored htask (.inl rfl)
  next anchor stored =>
    rw [view_setTask, view_mark]
    exact .anchors _ stored htask (.inr rfl)
  next ranAt stored =>
    rw [view_setTask, view_markRun]
    exact .marks _ stored htask (.inr rfl)
  next =>
    rw [view_setTask]
    exact .ends _ _
  next => exact .rests _ _

theorem step_moves (hjob : job ∈ c.enabledJobs) (hinterval : job.interval c.build = some interval)
    (e : CronEvent) :
    CronView.Moves job interval (e.own job) (s.view c job) ((s.step c e).view c job) := by
  cases e with
  | tick elapsed => exact .ticks _ elapsed
  | start =>
    unfold step
    dsimp only
    split
    · refine .starts _ ?_
      unfold runCronJobTasks
      dsimp only
      split
      · exact .inl rfl
      · exact .inr rfl
    · exact .rests _ _
  | task other e =>
    unfold step
    dsimp only
    by_cases hother : other ∈ c.enabledJobs
    · rw [if_pos hother]
      by_cases hsame : other = job
      · subst hsame
        rw [hinterval]
        have hown : (CronEvent.task other e).own other = some e := if_pos rfl
        rw [hown]
        exact taskStep_moves rfl e
      · cases other.interval c.build with
        | none => exact .rests _ _
        | some otherInterval =>
          dsimp only
          rw [view_taskStep_other hsame (CronSetup.name_ne hjob hother hsame)]
          exact .rests _ _
    · rw [if_neg hother]
      exact .rests _ _

end CronWorld

/-- An attempt that ends, or a recorded time that cannot be read. -/
def CronTaskEvent.Postpones : CronTaskEvent → Prop
  | .enqueued _ | .read false => True
  | _ => False

namespace CronView

variable {job : ScheduledCronJob} {interval : ℕ} {v v' : CronView} {e : Option CronTaskEvent}
  {t t' : ℤ}

/-- The earlier of two transactions of a job is an interval ahead of the later one, up to the
precision of the column, if one process queued both or its mark was written. -/
def Spaced (interval : ℕ) (later earlier : CronRun) : Prop :=
  earlier.process = later.process ∨ earlier.marked = true →
    earlier.queuedAt + interval < later.queuedAt + 1000

/-- Nothing that this process or the table knows of is less than an interval before. -/
def Clear (interval : ℕ) (v : CronView) (t : ℤ) : Prop :=
  (∀ l ∈ v.last, l * 1000 + interval ≤ t) ∧
    ∀ run ∈ v.runs, run.process = v.process → run.queuedAt + interval ≤ t

/-- The process has not queued anything yet. -/
def New (v : CronView) : Prop := ∀ run ∈ v.runs, run.process < v.process

/-- What each stage of the task stands for. -/
def StageOk (interval : ℕ) (v : CronView) : CronTask → Prop
  | .stopped => True
  | .reading => v.New
  | .anchoring anchor => v.New ∧ v.last = none ∧ anchor ≤ v.now
  | .sleeping wakeAt => v.Clear interval wakeAt
  | .enqueueing => v.Clear interval v.now
  | .marking ranAt => ranAt ≤ v.now ∧ (∀ l ∈ v.last, l * 1000 ≤ ranAt) ∧
      ∃ run runs, v.runs = run :: runs ∧ run.queuedAt = ranAt

structure Scheduled (interval : ℕ) (v : CronView) : Prop where
  past : ∀ l ∈ v.last, l * 1000 ≤ v.now
  queued : ∀ run ∈ v.runs, run.queuedAt ≤ v.now ∧ run.process ≤ v.process
  recorded : ∀ run ∈ v.runs, run.marked = true → ∃ l ∈ v.last, run.queuedAt / 1000 ≤ l
  spaced : v.runs.Pairwise (Spaced interval)
  stage : v.StageOk interval v.task

theorem Clear.mono (h : v.Clear interval t) (ht : t ≤ t') : v.Clear interval t' :=
  ⟨fun l hl => (h.1 l hl).trans ht, fun run hrun hp => (h.2 run hrun hp).trans ht⟩

/-- A process that has queued nothing has only the table to heed. -/
theorem New.clear (h : v.New) (hlast : ∀ l ∈ v.last, l * 1000 + interval ≤ t) :
    v.Clear interval t :=
  ⟨hlast, fun run hrun hp => absurd (h run hrun) (by omega)⟩

/-- A wait from now on is long enough. -/
theorem stageOk_wait (hlast : ∀ l ∈ v.last, l * 1000 ≤ v.now)
    (hruns : ∀ run ∈ v.runs, run.queuedAt ≤ v.now) :
    v.StageOk interval (waitForDelayOrShutdown v.now interval) := by
  have hclear : v.Clear interval (v.now + interval) := by
    constructor
    · intro l hl
      have := hlast l hl
      omega
    · intro run hrun _
      have := hruns run hrun
      omega
  unfold waitForDelayOrShutdown
  split_ifs with hzero
  · have hnow : v.now + interval = v.now := by omega
    rw [hnow] at hclear
    exact hclear
  · exact hclear

theorem stageOk_after {task : CronTask} (hlast : ∀ l ∈ v.last, l * 1000 ≤ v.now)
    (hruns : ∀ run ∈ v.runs, run.queuedAt ≤ v.now)
    (hnext : task = waitForDelayOrShutdown v.now interval ∨ task = .stopped) :
    v.StageOk interval task := by
  rcases hnext with rfl | rfl
  · exact stageOk_wait hlast hruns
  · trivial

/-- The first delay ends an interval after the last run the table knows of. -/
theorem stageOk_next (hnew : v.New) (hlast : ∀ l ∈ v.last, l * 1000 ≤ v.now)
    (hruns : ∀ run ∈ v.runs, run.queuedAt ≤ v.now) (served : Bool) :
    v.StageOk interval (nextCronJobDelay job interval v.now
      (if served then .ok v.last else .error "unavailable")) := by
  cases served with
  | false => exact stageOk_wait hlast hruns
  | true =>
    rw [if_pos rfl]
    unfold nextCronJobDelay
    cases hl : v.last with
    | some lastRanAt =>
      have hclear (t : ℤ) (ht : lastRanAt * 1000 + interval ≤ t) :
          v.Clear interval t := by
        apply hnew.clear
        intro l hmem
        rw [hl] at hmem
        obtain rfl := Option.mem_some.mp hmem
        exact ht
      dsimp only
      split_ifs with hmax hdue
      · trivial
      · exact hclear _ hdue
      · exact hclear _ le_rfl
    | none =>
      dsimp only
      split_ifs
      · exact hnew.clear (by simp [hl])
      · exact ⟨hnew, hl, le_rfl⟩

theorem Scheduled.queues (h : v.Scheduled interval) (htask : v.task = .enqueueing)
    (relayerId : RelayerId) (transactionId : TransactionId) :
    Scheduled interval { v with
      task := .marking v.now
      runs := ⟨relayerId, transactionId, v.now, v.process, false⟩ :: v.runs } := by
  have hclear : v.Clear interval v.now := by
    have hstage := h.stage
    rw [htask] at hstage
    exact hstage
  constructor
  · exact h.past
  · exact List.forall_mem_cons.mpr ⟨⟨le_rfl, le_rfl⟩, h.queued⟩
  · exact List.forall_mem_cons.mpr ⟨fun hmarked => absurd hmarked Bool.false_ne_true, h.recorded⟩
  · refine List.pairwise_cons.mpr ⟨fun earlier hearlier hknown => ?_, h.spaced⟩
    show earlier.queuedAt + interval < v.now + 1000
    rcases hknown with hprocess | hmarked
    · have := hclear.2 earlier hearlier hprocess
      omega
    · obtain ⟨l, hl, hle⟩ := h.recorded earlier hearlier hmarked
      have := hclear.1 l hl
      omega
  · exact ⟨le_rfl, h.past, _, _, rfl, rfl⟩

/-- The anchor is written by a process that has queued nothing, where the table has no row. -/
theorem Scheduled.anchors (h : v.Scheduled interval) (htask : v.task = .anchoring t) (stored : Bool)
    {task : CronTask} (hnext : task = waitForDelayOrShutdown v.now interval ∨ task = .stopped) :
    Scheduled interval { v with
      last := if stored then some (t / 1000) else v.last
      task := task } := by
  obtain ⟨hnew, hnone, hanchor⟩ : v.StageOk interval (.anchoring t) := by
    have hstage := h.stage
    rw [htask] at hstage
    exact hstage
  have hruns := fun run hrun => (h.queued run hrun).1
  cases stored with
  | false =>
    exact ⟨h.past, h.queued, h.recorded, h.spaced, stageOk_after (v := v) h.past hruns hnext⟩
  | true =>
    have hpast : ∀ l ∈ some (t / 1000), l * 1000 ≤ v.now := by
      rintro l ⟨⟩
      omega
    refine ⟨hpast, h.queued, fun run hrun hmarked => ?_, h.spaced,
      stageOk_after (v := { v with last := some (t / 1000) }) hpast hruns hnext⟩
    obtain ⟨l, hl, -⟩ := h.recorded run hrun hmarked
    rw [hnone] at hl
    cases hl

/-- The mark that is written is that of the newest transaction. -/
theorem Scheduled.marks (h : v.Scheduled interval) (htask : v.task = .marking t) (stored : Bool)
    {task : CronTask} (hnext : task = waitForDelayOrShutdown v.now interval ∨ task = .stopped) :
    Scheduled interval { v with
      last := if stored then some (t / 1000) else v.last
      task := task
      runs := if stored then markNewest v.runs else v.runs } := by
  obtain ⟨hranAt, hlast, run, runs, hruns, hqueuedAt⟩ : v.StageOk interval (.marking t) := by
    have hstage := h.stage
    rw [htask] at hstage
    exact hstage
  cases stored with
  | false =>
    have hruns := fun run hrun => (h.queued run hrun).1
    exact ⟨h.past, h.queued, h.recorded, h.spaced, stageOk_after (v := v) h.past hruns hnext⟩
  | true =>
    have hpast : ∀ l ∈ some (t / 1000), l * 1000 ≤ v.now := by
      rintro l ⟨⟩
      omega
    have hqueued : ∀ run' ∈ markNewest v.runs,
        run'.queuedAt ≤ v.now ∧ run'.process ≤ v.process := by
      have hqueued := h.queued
      rw [hruns] at hqueued ⊢
      exact List.forall_mem_cons.mpr (List.forall_mem_cons.mp hqueued)
    have hstage := stageOk_after
      (v := { v with last := some (t / 1000), runs := markNewest v.runs }) hpast
      (fun run' hrun' => (hqueued run' hrun').1) hnext
    refine ⟨hpast, hqueued, ?_, ?_, hstage⟩
    · show ∀ run' ∈ markNewest v.runs, run'.marked = true →
        ∃ l ∈ some (t / 1000), run'.queuedAt / 1000 ≤ l
      have hrecorded := h.recorded
      rw [hruns] at hrecorded ⊢
      refine List.forall_mem_cons.mpr ⟨fun _ => ⟨_, rfl, ?_⟩, fun run' hrun' hmarked => ?_⟩
      · show run.queuedAt / 1000 ≤ t / 1000
        rw [hqueuedAt]
      · obtain ⟨l, hl, hle⟩ := hrecorded run' (List.mem_cons_of_mem _ hrun') hmarked
        have := hlast l hl
        exact ⟨_, rfl, by omega⟩
    · show (markNewest v.runs).Pairwise (Spaced interval)
      have hspaced := h.spaced
      rw [hruns] at hspaced ⊢
      obtain ⟨hnewest, hrest⟩ := List.pairwise_cons.mp hspaced
      exact List.pairwise_cons.mpr ⟨hnewest, hrest⟩

/-- No step of a job's task, and none of anything else, queues too early. -/
theorem Scheduled.moves (h : v.Scheduled interval) (hmoves : Moves job interval e v v') :
    v'.Scheduled interval := by
  have hruns := fun run hrun => (h.queued run hrun).1
  have hstage {task : CronTask} (htask : v.task = task) : v.StageOk interval task := by
    rw [← htask]
    exact h.stage
  cases hmoves with
  | rests => exact h
  | ticks _ elapsed =>
    have hlater : v.now ≤ v.now + elapsed := by omega
    constructor
    · exact fun l hl => (h.past l hl).trans hlater
    · exact fun run hrun => ⟨(h.queued run hrun).1.trans hlater, (h.queued run hrun).2⟩
    · exact h.recorded
    · exact h.spaced
    · show StageOk interval { v with now := v.now + elapsed } v.task
      have hstage := h.stage
      revert hstage
      cases v.task with
      | stopped | reading => exact id
      | anchoring anchor =>
        exact fun ⟨hnew, hnone, hanchor⟩ => ⟨hnew, hnone, hanchor.trans hlater⟩
      | sleeping wakeAt => exact id
      | enqueueing => exact fun hclear => Clear.mono (v := v) hclear hlater
      | marking ranAt => exact fun ⟨hranAt, hrest⟩ => ⟨hranAt.trans hlater, hrest⟩
  | starts _ htask =>
    refine ⟨h.past, fun run hrun => ⟨hruns run hrun, ?_⟩, h.recorded, h.spaced, ?_⟩
    · exact (h.queued run hrun).2.trans (Nat.le_succ _)
    · rcases htask with rfl | rfl
      · exact fun run hrun => Nat.lt_succ_of_le (h.queued run hrun).2
      · trivial
  | reads _ served htask =>
    exact ⟨h.past, h.queued, h.recorded, h.spaced,
      stageOk_next (v := v) (hstage htask) h.past hruns served⟩
  | anchors _ stored htask hnext => exact h.anchors htask stored hnext
  | wakes _ htask hdue => exact ⟨h.past, h.queued, h.recorded, h.spaced, (hstage htask).mono hdue⟩
  | ends => exact ⟨h.past, h.queued, h.recorded, h.spaced, trivial⟩
  | fails _ env htask =>
    exact ⟨h.past, h.queued, h.recorded, h.spaced, stageOk_wait (v := v) h.past hruns⟩
  | queues _ env relayerId transactionId htask => exact h.queues htask relayerId transactionId
  | marks _ stored htask hnext => exact h.marks htask stored hnext

/-- The table has a row, and a task that sleeps wakes up by the given time. -/
structure Due (interval : ℕ) (l wakeAt : ℤ) (v : CronView) : Prop where
  row : v.last = some l
  early : l * 1000 + interval ≤ wakeAt
  stage : v.task = .stopped ∨ v.task = .reading ∨ v.task = .enqueueing ∨
    ∃ t ≤ wakeAt, v.task = .sleeping t

theorem Due.moves {l wakeAt : ℤ} (h : v.Due interval l wakeAt)
    (hmoves : Moves job interval e v v') (hcalm : ∀ e' ∈ e, ¬ e'.Postpones) :
    v'.Due interval l wakeAt := by
  have hstage {task : CronTask} (htask : v.task = task) : task = .stopped ∨ task = .reading ∨
      task = .enqueueing ∨ ∃ t ≤ wakeAt, task = .sleeping t := by
    rw [← htask]
    exact h.stage
  cases hmoves with
  | rests | ticks => exact ⟨h.row, h.early, h.stage⟩
  | starts _ htask =>
    refine ⟨h.row, h.early, ?_⟩
    rcases htask with rfl | rfl
    · exact .inr (.inl rfl)
    · exact .inl rfl
  | reads _ served htask =>
    cases served with
    | false => exact absurd trivial (hcalm _ rfl)
    | true =>
      refine ⟨h.row, h.early, ?_⟩
      rw [if_pos rfl, h.row]
      unfold nextCronJobDelay
      dsimp only
      split_ifs
      · exact .inl rfl
      · exact .inr (.inr (.inl rfl))
      · exact .inr (.inr (.inr ⟨_, h.early, rfl⟩))
  | anchors _ stored htask hnext =>
    rcases hstage htask with hstage | hstage | hstage | ⟨t, -, hstage⟩ <;> cases hstage
  | wakes _ htask hdue => exact ⟨h.row, h.early, .inr (.inr (.inl rfl))⟩
  | ends => exact ⟨h.row, h.early, .inl rfl⟩
  | fails _ env htask => exact absurd trivial (hcalm _ rfl)
  | queues _ env relayerId transactionId htask => exact absurd trivial (hcalm _ rfl)
  | marks _ stored htask hnext =>
    rcases hstage htask with hstage | hstage | hstage | ⟨t, -, hstage⟩ <;> cases hstage

end CronView

namespace CronWorld

variable {c : CronSetup} {s : CronWorld} {job : ScheduledCronJob} {interval : ℕ}

theorem Fresh.scheduled (h : s.Fresh) : (s.view c job).Scheduled interval := by
  constructor
  · intro l hl
    obtain ⟨row, hrow, rfl⟩ := Option.map_eq_some_iff.mp hl
    exact h.past row (List.mem_of_find?_eq_some hrow)
  · simp [view, h.runs]
  · simp [view, h.runs]
  · simp [view, h.runs]
  · show CronView.StageOk interval _ (s.tasks job)
    rw [h.stopped]
    trivial

theorem scheduled_run (hs : s.Fresh) (hjob : job ∈ c.enabledJobs)
    (hinterval : job.interval c.build = some interval) (es : List CronEvent) :
    ((s.run c es).view c job).Scheduled interval := by
  apply EventMachine.run_invariant (P := fun s : CronWorld => (s.view c job).Scheduled interval)
  · exact fun _ e h => h.moves (step_moves hjob hinterval e)
  · exact hs.scheduled

/-- In every run, whatever the failures, crashes and restarts, two transactions of a job are an
interval apart, unless another process queued the first one and its mark was lost. -/
theorem runs_spaced (hs : s.Fresh) (hjob : job ∈ c.enabledJobs)
    (hinterval : job.interval c.build = some interval) (es : List CronEvent) :
    ((s.run c es).runs job).Pairwise (CronView.Spaced interval) :=
  (scheduled_run hs hjob hinterval es).spaced

def hourlyJob : ScheduledCronJob where
  network := "mainnet"
  relayers := .all
  transaction := ⟨9, none⟩
  name := "job"
  enabled := true
  schedule := ⟨"1h", none⟩

def hourlySetup : CronSetup where
  name := "project"
  networks := [cronNetwork]
  cronJobs := some [hourlyJob]
  parseValue := parseCronValue
  build := .release
  names := List.nodup_singleton _

def freshCron : CronWorld := ⟨0, 0, [], fun _ => .stopped, fun _ => []⟩

theorem freshCron_fresh : freshCron.Fresh :=
  ⟨fun _ => rfl, fun _ => rfl, fun _ hrow => (List.not_mem_nil hrow).elim⟩

/-- An hour, in nanoseconds. -/
def hour : ℕ := 3600000000000

def servedEnqueue : EnqueueEnv where
  served _ := .ok [⟨3, 1, 7, none, false, true⟩]
  choice := 0
  built := .ok ⟨0, 9, 0, [], .fast, none, none⟩
  added _ transactionToSend := .ok transactionToSend.id

/-- The job sleeps for the first time. -/
def hourlyAnchored : List CronEvent :=
  [.start, .task hourlyJob (.read true), .task hourlyJob (.anchored true)]

/-- It wakes up, queues its transaction and marks it. -/
def hourlyQueued : List CronEvent :=
  [.tick hour, .task hourlyJob .wake, .task hourlyJob (.enqueued servedEnqueue),
    .task hourlyJob (.marked true)]

/-- The process ends, and the next one reads the recorded time. -/
def hourlyRestarted : List CronEvent :=
  [.task hourlyJob (.died false), .start, .task hourlyJob (.read true)]

theorem hourlyJob_enabled : hourlyJob ∈ hourlySetup.enabledJobs := by decide

theorem hourlyJob_interval : hourlyJob.interval hourlySetup.build = some hour := by decide +kernel

theorem runs_spaced_hourly :
    let s := freshCron.run hourlySetup
      (hourlyAnchored ++ hourlyQueued ++ hourlyRestarted ++ hourlyQueued)
    (s.runs hourlyJob).map (·.process) = [2, 1] ∧
      (s.runs hourlyJob).Pairwise (CronView.Spaced hour) :=
  ⟨by decide +kernel, runs_spaced freshCron_fresh hourlyJob_enabled hourlyJob_interval _⟩

/-- The mark of the first transaction is lost, and the next process queues another one at once. -/
example : ((freshCron.run hourlySetup (hourlyAnchored ++ hourlyQueued.take 3 ++ hourlyRestarted ++
    hourlyQueued.drop 2)).runs hourlyJob).map (·.queuedAt) = [3600000000000, 3600000000000] := by
  decide +kernel

/-- A restart does not postpone: once a job with a recorded time sleeps, then as long as no attempt
ends and the recorded time can be read, it never sleeps past the time it would have woken up. -/
theorem restarts_postpone_nothing {before after : List CronEvent} {wakeAt later : ℤ}
    (hs : s.Fresh) (hjob : job ∈ c.enabledJobs) (hinterval : job.interval c.build = some interval)
    (hrow : (s.run c before).lastRanAt c job ≠ none)
    (hsleeping : (s.run c before).tasks job = .sleeping wakeAt)
    (hcalm : ∀ e ∈ after, ∀ e' ∈ e.own job, ¬ e'.Postpones)
    (hlater : (s.run c (before ++ after)).tasks job = .sleeping later) : later ≤ wakeAt := by
  obtain ⟨l, hl⟩ := Option.ne_none_iff_exists'.mp hrow
  have hstage : ((s.run c before).view c job).StageOk interval (.sleeping wakeAt) := by
    have hstage := (scheduled_run hs hjob hinterval before).stage
    have htask : ((s.run c before).view c job).task = .sleeping wakeAt := hsleeping
    rw [htask] at hstage
    exact hstage
  have hdue : ((s.run c before).view c job).Due interval l wakeAt :=
    ⟨hl, hstage.1 l hl, .inr (.inr (.inr ⟨wakeAt, le_rfl, hsleeping⟩))⟩
  have hdueLater : (((s.run c before).run c after).view c job).Due interval l wakeAt := by
    clear hlater hsleeping hrow hl hstage
    generalize s.run c before = s' at hdue ⊢
    induction after generalizing s' with
    | nil => exact hdue
    | cons e after ih =>
      obtain ⟨he, hafter⟩ := List.forall_mem_cons.mp hcalm
      exact ih hafter _ (hdue.moves (step_moves hjob hinterval e) he)
  have hsplit : s.run c (before ++ after) = (s.run c before).run c after :=
    EventMachine.run_append _ _ _ _
  rw [hsplit] at hlater
  have htask : (((s.run c before).run c after).view c job).task = .sleeping later := hlater
  rcases hdueLater.stage with hstage | hstage | hstage | ⟨t, ht, hstage⟩
  · cases htask.symm.trans hstage
  · cases htask.symm.trans hstage
  · cases htask.symm.trans hstage
  · cases htask.symm.trans hstage
    exact ht

/-- Half an hour after the anchor the process is restarted, and the job still wakes up an hour after
the anchor. -/
theorem restarts_postpone_nothing_hourly :
    ∃ later, (freshCron.run hourlySetup
      (hourlyAnchored ++ .tick 1800000000000 :: hourlyRestarted)).tasks hourlyJob =
        .sleeping later ∧ later ≤ 3600000000000 := by
  have hlater : (freshCron.run hourlySetup
      (hourlyAnchored ++ .tick 1800000000000 :: hourlyRestarted)).tasks hourlyJob =
        .sleeping 3600000000000 := by decide +kernel
  refine ⟨_, hlater, restarts_postpone_nothing freshCron_fresh hourlyJob_enabled
    hourlyJob_interval ?_ ?_ ?_ hlater⟩
  · decide +kernel
  · decide +kernel
  · intro e he e' he' hpostpones
    simp only [hourlyRestarted, List.mem_cons, List.not_mem_nil, or_false] at he
    rcases he with rfl | rfl | rfl | rfl
    · cases he'
    · cases he'
      exact hpostpones
    · cases he'
    · cases he'
      exact hpostpones

end CronWorld

end Rrelayer
