import Rrelayer.Lib.Machine
import Mathlib.Data.List.Nodup

/-! Webhook deliveries: the map of pending deliveries, and the passes that copy ready deliveries out
of it, send the copies without its lock and write them back. -/
namespace Rrelayer

structure WebhookDelivery where
  id : ℕ
  attempts : ℕ
  maxRetries : ℕ
  createdAt : ℕ
  lastAttemptAt : Option ℕ
  nextRetryAt : Option ℕ
  completed : Bool
  failed : Bool
  errorMessage : Option String
  deriving DecidableEq, Repr

namespace WebhookDelivery

def new (id : ℕ) (maxRetries : Option ℕ) (now : ℕ) : WebhookDelivery where
  id := id
  attempts := 0
  maxRetries := maxRetries.getD 3
  createdAt := now
  lastAttemptAt := none
  nextRetryAt := none
  completed := false
  failed := false
  errorMessage := none

variable (d : WebhookDelivery)

def shouldRetry : Bool := !d.completed && !d.failed && decide (d.attempts < d.maxRetries)

def isReadyForRetry (now : ℕ) : Bool :=
  if !d.shouldRetry then false
  else
    match d.nextRetryAt with
    | some retryTime => decide (now ≥ retryTime)
    | none => true

def markAttempt (now : ℕ) (nextRetryDelayMs : Option ℕ) : WebhookDelivery :=
  { d with
    attempts := d.attempts + 1
    lastAttemptAt := some now
    nextRetryAt := match nextRetryDelayMs with
      | some delayMs => some (now + delayMs)
      | none => d.nextRetryAt }

def markCompleted : WebhookDelivery := { d with completed := true, nextRetryAt := none }

def markFailed (error : String) : WebhookDelivery :=
  { d with failed := true, errorMessage := some error, nextRetryAt := none }

def handleFailedAttempt (error : String) (now retryDelay : ℕ) : WebhookDelivery :=
  let nextRetryDelay := if d.shouldRetry then some retryDelay else none
  let attempted := d.markAttempt now nextRetryDelay
  if !attempted.shouldRetry then attempted.markFailed error else attempted

end WebhookDelivery

/-- How a request ends: with a success status, or with an error. The delay before the next attempt
is a floating point computation. -/
inductive WebhookAnswer where
  | success
  | failure (error : String) (startTime retryDelay : ℕ)
  deriving DecidableEq, Repr

def WebhookDelivery.answered (d : WebhookDelivery) : WebhookAnswer → WebhookDelivery
  | .success => d.markCompleted
  | .failure error startTime retryDelay => d.handleFailedAttempt error startTime retryDelay

/-- How far the task that sends a copy has come. -/
inductive SendStage where
  | spawned | requested | finished | panicked
  deriving DecidableEq, Repr

/-- The copy of a delivery that a pass has taken out of the map. -/
structure SendTask where
  pass : ℕ
  delivery : WebhookDelivery
  stage : SendStage
  deriving DecidableEq, Repr

structure WebhookManager where
  pendingDeliveries : List WebhookDelivery
  tasks : List SendTask
  passes : ℕ
  /-- The retry configuration of each delivery that was created, at its id. -/
  retries : List ℕ
  /-- The ids of the requests made. -/
  requests : List ℕ
  /-- The ids of the requests answered with success. -/
  delivered : List ℕ
  deriving DecidableEq, Repr

inductive WebhookEvent where
  /-- Deliveries of one event, one for each matching webhook with its own retries. -/
  | queue (maxRetries : List (Option ℕ)) (now : ℕ)
  | begin (now : ℕ)
  | request (task : ℕ)
  | respond (task : ℕ) (answer : WebhookAnswer)
  | panic (task : ℕ)
  | writeBack (pass : ℕ)
  /-- A pass of the retry task that does not get the lock to go on. -/
  | abandon (pass : ℕ)
  | cleanup
  deriving DecidableEq, Repr

/-- The `insert` of the map. -/
def insertDelivery (pending : List WebhookDelivery) (d : WebhookDelivery) : List WebhookDelivery :=
  if pending.any (·.id == d.id) then pending.map fun e => if e.id = d.id then d else e
  else pending ++ [d]

namespace WebhookManager

def new : WebhookManager where
  pendingDeliveries := []
  tasks := []
  passes := 0
  retries := []
  requests := []
  delivered := []

variable (m : WebhookManager)

def createDelivery (m : WebhookManager) (maxRetries : Option ℕ) (now : ℕ) : WebhookManager :=
  let delivery := WebhookDelivery.new m.retries.length maxRetries now
  { m with
    pendingDeliveries := insertDelivery m.pendingDeliveries delivery
    retries := m.retries ++ [delivery.maxRetries] }

def queueWebhook (maxRetries : List (Option ℕ)) (now : ℕ) : WebhookManager :=
  maxRetries.foldl (fun m retries => m.createDelivery retries now) m

def readyDeliveries (now : ℕ) : List WebhookDelivery :=
  m.pendingDeliveries.filter (·.isReadyForRetry now)

def beginPass (now : ℕ) : WebhookManager :=
  { m with
    tasks := m.tasks ++ (m.readyDeliveries now).map fun d => ⟨m.passes, d, .spawned⟩
    passes := m.passes + 1 }

def sendRequest (task : ℕ) : WebhookManager :=
  match m.tasks[task]? with
  | some ⟨pass, d, .spawned⟩ =>
      { m with
        tasks := m.tasks.set task ⟨pass, d, .requested⟩
        requests := m.requests ++ [d.id] }
  | _ => m

def receiveResponse (task : ℕ) (answer : WebhookAnswer) : WebhookManager :=
  match m.tasks[task]? with
  | some ⟨pass, d, .requested⟩ =>
      { m with
        tasks := m.tasks.set task ⟨pass, d.answered answer, .finished⟩
        delivered := if answer = .success then m.delivered ++ [d.id] else m.delivered }
  | _ => m

def taskPanics (task : ℕ) : WebhookManager :=
  match m.tasks[task]? with
  | some ⟨pass, d, .spawned⟩ | some ⟨pass, d, .requested⟩ =>
      { m with tasks := m.tasks.set task ⟨pass, d, .panicked⟩ }
  | _ => m

def passTasks (pass : ℕ) : List SendTask := m.tasks.filter (·.pass == pass)

def withoutPass (pass : ℕ) : List SendTask := m.tasks.filter (·.pass != pass)

/-- The results of a pass, once all its tasks have ended. -/
def updatedDeliveries (pass : ℕ) : List WebhookDelivery :=
  ((m.passTasks pass).filter (·.stage == .finished)).map (·.delivery)

def ended (pass : ℕ) : Bool :=
  (m.passTasks pass).all fun t => t.stage == .finished || t.stage == .panicked

def writeBack (pass : ℕ) : WebhookManager :=
  if m.ended pass then
    { m with
      pendingDeliveries := (m.updatedDeliveries pass).foldl insertDelivery m.pendingDeliveries
      tasks := m.withoutPass pass }
  else m

/-- The retry task asks for the lock before it sends and before it writes back. -/
def abandonPass (pass : ℕ) : WebhookManager :=
  if m.ended pass || (m.passTasks pass).all (·.stage == .spawned) then
    { m with tasks := m.withoutPass pass }
  else m

def cleanupDeliveries : WebhookManager :=
  { m with pendingDeliveries := m.pendingDeliveries.filter fun d => !d.completed && !d.failed }

def step (m : WebhookManager) : WebhookEvent → WebhookManager
  | .queue maxRetries now => m.queueWebhook maxRetries now
  | .begin now => m.beginPass now
  | .request task => m.sendRequest task
  | .respond task answer => m.receiveResponse task answer
  | .panic task => m.taskPanics task
  | .writeBack pass => m.writeBack pass
  | .abandon pass => m.abandonPass pass
  | .cleanup => m.cleanupDeliveries

abbrev run (m : WebhookManager) (es : List WebhookEvent) : WebhookManager :=
  EventMachine.run step m es

/-- The delivery that an event sends to its endpoint. -/
def sends (m : WebhookManager) : WebhookEvent → Option ℕ
  | .request task =>
      match m.tasks[task]? with
      | some ⟨_, d, .spawned⟩ => some d.id
      | _ => none
  | _ => none

/-- A pass would pick the delivery up again, now or later. -/
def retryable (id : ℕ) : Bool := m.pendingDeliveries.any fun d => d.id == id && d.shouldRetry

/-- What a step has to leave alone: deliveries that have got through are not sent again and do not
become retryable again, and no delivery is sent more often than it may be. -/
structure Kept (m : WebhookManager) (e : WebhookEvent) : Prop where
  once : ∀ id ∈ m.sends e, id ∉ m.delivered
  settled : ∀ id ∈ m.delivered, m.retryable id = false → (m.step e).retryable id = false
  bounded : ∀ id, (m.step e).requests.count id ≤ (m.step e).retries.getD id 0

/-- A pass takes no delivery that another pass has taken, and no request is forgotten: its task does
not panic and its pass writes back. -/
def Exclusive (m : WebhookManager) : WebhookEvent → Prop
  | .begin now => ∀ d ∈ m.readyDeliveries now, ∀ t ∈ m.tasks, t.delivery.id ≠ d.id
  | .panic task => ∀ t ∈ m.tasks[task]?, t.stage ≠ .requested
  | .abandon pass => ∀ t ∈ m.passTasks pass, t.stage = .spawned
  | _ => True

end WebhookManager

end Rrelayer
