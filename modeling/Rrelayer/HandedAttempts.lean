import Rrelayer.ExpiredPayloads
import Rrelayer.Lib.Journal

/-! The attempts a run hands to the network, each with the copy its send started from. -/
namespace Rrelayer

/-- A signed attempt and what it was prepared from; `subject` is the original a competitor was
made for, and any other transaction itself. -/
structure Attempt where
  config : SendConfig
  env : SendEnv
  copy : Transaction
  subject : TransactionId
  signed : SignedTransaction

def Locked.subject (l : Locked) (e : Event) (t : Transaction) : TransactionId :=
  ((l.requested e).map (·.2.1.id)).getD t.id

abbrev AttemptJournal := EventMachine.Journal TransactionsQueues Attempt

namespace TransactionsQueues

/-- The attempt a step hands out. -/
def hands (s : TransactionsQueues) (e : Event) : Option Attempt :=
  s.lock.bind fun l => (l.sendsFrom e).bind fun (env, t) =>
    ((s.step e).broadcasts.drop s.broadcasts.length).head?.map fun b =>
      ⟨l.queue.toSendConfig, env, t, l.subject e t, b.2⟩

/-- The step that notes the attempt it hands out. -/
abbrev noteStep : AttemptJournal → Event → AttemptJournal := EventMachine.note step hands

/-- The attempts of a run, newest first. -/
def attempts (s : TransactionsQueues) (es : List Event) : List Attempt :=
  (EventMachine.run noteStep ⟨s, []⟩ es).entries

variable {s : TransactionsQueues} {e : Event} {a : Attempt}

/-- What is handed out was prepared from its copy, and is the one new broadcast. -/
theorem hands_some (h : s.hands e = some a) :
    (∃ l, s.lock = some l ∧ a.config = l.queue.toSendConfig ∧
      l.sendsFrom e = some (a.env, a.copy) ∧ a.subject = l.subject e a.copy) ∧
    (∃ t' sent, prepareSend a.config a.env a.copy = (t', .ok (a.signed, sent))) ∧
      (s.step e).broadcasts = s.broadcasts ++ [(a.copy.id, a.signed)] := by
  obtain ⟨l, hlock, h⟩ := Option.bind_eq_some_iff.mp h
  obtain ⟨⟨env, t⟩, hsends, h⟩ := Option.bind_eq_some_iff.mp h
  obtain ⟨b, hb, rfl⟩ := Option.map_eq_some_iff.mp h
  refine ⟨⟨l, hlock, rfl, hsends, rfl⟩, ?_⟩
  rcases step_broadcasts s e with hsame | ⟨l', hl', env', t₁, t', signed, sent, hsends', hprepare,
    hnew⟩
  · rw [hsame, List.drop_length] at hb
    cases hb
  · rw [hlock] at hl'
    cases hl'
    rw [hsends] at hsends'
    cases hsends'
    rw [hnew, List.drop_left] at hb
    cases hb
    exact ⟨⟨t', sent, hprepare⟩, hnew⟩

theorem hands_none (h : s.hands e = none) : (s.step e).broadcasts = s.broadcasts := by
  rcases step_broadcasts s e with hsame | ⟨l, hl, env, t, t', signed, sent, hsends, -, hnew⟩
  · exact hsame
  · unfold hands at h
    rw [Option.mem_def.mp hl, Option.bind_some, hsends, Option.bind_some, hnew,
      List.drop_left] at h
    cases h

/-- The entries are what was handed out after the given broadcasts. -/
def Tells (before : Broadcasts) (j : AttemptJournal) : Prop :=
  j.state.broadcasts = before ++ j.entries.reverse.map fun a => (a.copy.id, a.signed)

theorem Tells.step {before : Broadcasts} {j : AttemptJournal} (h : Tells before j) (e : Event) :
    Tells before (noteStep j e) := by
  unfold Tells at h ⊢
  dsimp only [noteStep, EventMachine.note]
  rcases hhands : j.state.hands e with _ | a
  · rw [hands_none hhands]
    exact h
  · rw [(hands_some hhands).2.2, h]
    simp

theorem Tells.run {before : Broadcasts} {j : AttemptJournal} (h : Tells before j)
    (es : List Event) : Tells before (EventMachine.run noteStep j es) :=
  EventMachine.run_invariant (fun _ e h => h.step e) h es

/-- The attempts are the broadcasts of the run. -/
theorem attempts_broadcasts (s : TransactionsQueues) (es : List Event) :
    (s.run es).broadcasts =
      s.broadcasts ++ (s.attempts es).reverse.map fun a => (a.copy.id, a.signed) := by
  have hstart : Tells s.broadcasts ⟨s, []⟩ := by simp [Tells]
  have hrun := hstart.run es
  unfold Tells at hrun
  rwa [EventMachine.run_note_state] at hrun

end TransactionsQueues
end Rrelayer
