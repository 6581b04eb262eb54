import Blackwing.Server.RateLimit

/-!
# Admission of sessions

`spawn_session_task` and the resources of `handle_session` (`bw-server/src/main.rs`). A connection
that passes the limiter takes one of four permits, and its task gives the permit back when it ends.
The timeout of the handshake is around the whole of `handle_session`, so it also ends a session that
is authenticated. Its clock starts when the task first runs, and it may be served late. The sender
task and the pipelines are spawned apart and are not ended by it: a sender stops when a write to the
client fails, or when its queue closes because no pipeline has a handle of it any more.

* `spawnSessionTask`, `serverStep`: what the server does with a connection and with what follows.
* `TaskEffect`: what an event can do to the tasks.
* `Serving`: what holds at every moment of a run. `Serving.step`: every event keeps it.
* `sessions_are_bounded`: at most four sessions run, and no message of a session is dispatched after
  its timeout is served.
* `senders_are_unbounded`: one client that stays within its limits leaves any number of senders
  behind, as long as a pipeline of each session runs.
-/

namespace Blackwing.Server

open Relay (IpAddr)

/-! ## The server -/

/-- `MAX_CONCURRENT_HANDSHAKES`. -/
def maxConcurrentHandshakes : Nat := 4

/-- `HANDSHAKE_TIMEOUT` in nanoseconds. -/
def handshakeTimeout : Nat := 15 * 10 ^ 9

/-- A task of `spawn_session_task`. -/
structure SessionTask where
  /-- When its timeout is due, once it has run for the first time. -/
  deadline : Option Nat
  /-- `server_establish` has returned. -/
  authenticated : Bool

/-- What has a handle of the queue of a sender. -/
inductive Pipeline where
  | video
  | audio
  | clipboard
deriving DecidableEq

structure ServerState where
  now : Nat
  rateLimiter : PerIpRateLimiter
  /-- The permits that `handshake_semaphore` has left. -/
  permits : Nat
  /-- How many connections were admitted; they are numbered in this order. -/
  admitted : Nat
  tasks : HashMap Nat SessionTask
  /-- The sender tasks, each with the pipelines that run for it. -/
  senders : HashMap Nat (List Pipeline)

/-- What happens to the server, with the number of the connection. -/
inductive ServerEvent where
  | accept (ip : IpAddr)
  /-- The task runs for the first time. -/
  | start (id : Nat)
  /-- `server_establish` returns `Ok`, and these pipelines start. -/
  | authenticate (id : Nat) (pipelines : List Pipeline)
  /-- `recv_message` returns `Ok`. -/
  | message (id : Nat)
  /-- `handle_session` returns or panics. -/
  | finish (id : Nat)
  /-- The timer of the task is served. -/
  | timeout (id : Nat)
  /-- A write of the sender fails. -/
  | writeFails (id : Nat)
  /-- The pipeline drops its handle. -/
  | pipelineEnds (id : Nat) (pipeline : Pipeline)
  /-- `out_rx.recv` returns `None`. -/
  | queueCloses (id : Nat)
  | wait (duration : Nat)

inductive ServerOutput where
  | silent
  | closed (reason : String)
  | spawned (id : Nat)
  | started (id : Nat)
  | authenticated (id : Nat)
  /-- A message for the dispatcher. -/
  | dispatched (id : Nat)
  | finished (id : Nat)
  | timedOut (id : Nat)
deriving DecidableEq

/-- `spawn_session_task`, up to the task. -/
def spawnSessionTask (ip : IpAddr) (s : ServerState) : ServerOutput × ServerState :=
  let checked := checkAndRecord s.rateLimiter ⟨ip, s.now⟩
  let s := { s with rateLimiter := checked.2 }
  if checked.1 = false then (.closed "rate limit exceeded", s)
  else if s.permits = 0 then (.closed "too many concurrent handshakes", s)
  else (.spawned s.admitted, { s with
    permits := s.permits - 1
    admitted := s.admitted + 1
    tasks := s.tasks.insert s.admitted ⟨none, false⟩ })

/-- The task ends and drops its permit. -/
def ServerState.release (s : ServerState) (id : Nat) : ServerState :=
  { s with permits := s.permits + 1, tasks := s.tasks.erase id }

/-- One event. One that cannot happen changes nothing. -/
def serverStep (s : ServerState) : ServerEvent → ServerOutput × ServerState
  | .accept ip => spawnSessionTask ip s
  | .start id =>
    match s.tasks.lookup id with
    | some ⟨none, _⟩ => (.started id,
        { s with tasks := s.tasks.insert id ⟨some (s.now + handshakeTimeout), false⟩ })
    | _ => (.silent, s)
  | .authenticate id pipelines =>
    match s.tasks.lookup id with
    | some ⟨some deadline, false⟩ => (.authenticated id, { s with
        tasks := s.tasks.insert id ⟨some deadline, true⟩
        senders := s.senders.insert id pipelines })
    | _ => (.silent, s)
  | .message id =>
    match s.tasks.lookup id with
    | some ⟨_, true⟩ => (.dispatched id, s)
    | _ => (.silent, s)
  | .finish id =>
    match s.tasks.lookup id with
    | some ⟨some _, _⟩ => (.finished id, s.release id)
    | _ => (.silent, s)
  | .timeout id =>
    match s.tasks.lookup id with
    | some ⟨some deadline, _⟩ =>
      if deadline ≤ s.now then (.timedOut id, s.release id) else (.silent, s)
    | _ => (.silent, s)
  | .writeFails id => (.silent, { s with senders := s.senders.erase id })
  | .pipelineEnds id pipeline =>
    match s.senders.lookup id with
    | some running =>
      (.silent, { s with senders := s.senders.insert id (running.erase pipeline) })
    | none => (.silent, s)
  | .queueCloses id =>
    match s.senders.lookup id with
    | some [] => (.silent, { s with senders := s.senders.erase id })
    | _ => (.silent, s)
  | .wait duration => (.silent, { s with now := s.now + duration })

def ServerState.start (now : Nat) : ServerState := ⟨now, ∅, maxConcurrentHandshakes, 0, ∅, ∅⟩

abbrev ServerEntry : Type := Entry ServerState ServerEvent ServerOutput

/-! ## Tasks -/

/-- What an event can do to the tasks. -/
inductive TaskEffect (s : ServerState) : ServerOutput → ServerState → Prop where
  | silent {s' : ServerState} (htasks : s'.tasks = s.tasks) (hpermits : s'.permits = s.permits)
      (hadmitted : s'.admitted = s.admitted) : TaskEffect s .silent s'
  | closed {s' : ServerState} (reason : String) (htasks : s'.tasks = s.tasks)
      (hpermits : s'.permits = s.permits) (hadmitted : s'.admitted = s.admitted)
      (hreason : reason = "too many concurrent handshakes" → s.permits = 0) :
      TaskEffect s (.closed reason) s'
  | dispatched (id : Nat) (deadline : Option Nat)
      (hlookup : s.tasks.lookup id = some ⟨deadline, true⟩) : TaskEffect s (.dispatched id) s
  | spawned {s' : ServerState} (htasks : s'.tasks = s.tasks.insert s.admitted ⟨none, false⟩)
      (hpermits : s.permits = s'.permits + 1) (hadmitted : s'.admitted = s.admitted + 1) :
      TaskEffect s (.spawned s.admitted) s'
  | started {s' : ServerState} (id : Nat) (authenticated : Bool)
      (hlookup : s.tasks.lookup id = some ⟨none, authenticated⟩)
      (htasks : s'.tasks = s.tasks.insert id ⟨some (s.now + handshakeTimeout), false⟩)
      (hpermits : s'.permits = s.permits) (hadmitted : s'.admitted = s.admitted) :
      TaskEffect s (.started id) s'
  | authenticated {s' : ServerState} (id deadline : Nat)
      (hlookup : s.tasks.lookup id = some ⟨some deadline, false⟩)
      (htasks : s'.tasks = s.tasks.insert id ⟨some deadline, true⟩)
      (hpermits : s'.permits = s.permits) (hadmitted : s'.admitted = s.admitted) :
      TaskEffect s (.authenticated id) s'
  | finished (id : Nat) (task : SessionTask) (hlookup : s.tasks.lookup id = some task) :
      TaskEffect s (.finished id) (s.release id)
  | timedOut (id deadline : Nat) (authenticated : Bool)
      (hlookup : s.tasks.lookup id = some ⟨some deadline, authenticated⟩)
      (hdue : deadline ≤ s.now) : TaskEffect s (.timedOut id) (s.release id)

theorem serverStep_effect (s : ServerState) (event : ServerEvent) :
    TaskEffect s (serverStep s event).1 (serverStep s event).2 := by
  cases event with
  | accept ip =>
    simp only [serverStep, spawnSessionTask]
    split_ifs with hlimit hfull
    · exact .closed _ rfl rfl rfl fun h => absurd h (by decide)
    · exact .closed _ rfl rfl rfl fun _ => hfull
    · exact .spawned rfl (Nat.succ_pred_eq_of_ne_zero hfull).symm rfl
  | start id =>
    simp only [serverStep]
    split
    · next hlookup => exact .started id _ hlookup rfl rfl rfl
    · exact .silent rfl rfl rfl
  | authenticate id pipelines =>
    simp only [serverStep]
    split
    · next hlookup => exact .authenticated id _ hlookup rfl rfl rfl
    · exact .silent rfl rfl rfl
  | message id =>
    simp only [serverStep]
    split
    · next hlookup => exact .dispatched id _ hlookup
    · exact .silent rfl rfl rfl
  | finish id =>
    simp only [serverStep]
    split
    · next hlookup => exact .finished id _ hlookup
    · exact .silent rfl rfl rfl
  | timeout id =>
    simp only [serverStep]
    split
    · next hlookup =>
      split_ifs with hdue
      · exact .timedOut id _ _ hlookup hdue
      · exact .silent rfl rfl rfl
    · exact .silent rfl rfl rfl
  | writeFails id => exact .silent rfl rfl rfl
  | pipelineEnds id pipeline =>
    simp only [serverStep]
    split <;> exact .silent rfl rfl rfl
  | queueCloses id =>
    simp only [serverStep]
    split <;> exact .silent rfl rfl rfl
  | wait duration => exact .silent rfl rfl rfl

/-! ## Sessions -/

/-- The session ends in this entry. -/
def Ends (id : Nat) (e : ServerEntry) : Prop := e.out = .finished id ∨ e.out = .timedOut id

/-- How many connections the history admits. -/
def admissions (history : List ServerEntry) : Nat :=
  history.countP fun e => match e.out with
    | .spawned _ => true
    | _ => false

/-- How many sessions the history ends. -/
def endings (history : List ServerEntry) : Nat :=
  history.countP fun e => match e.out with
    | .finished _ | .timedOut _ => true
    | _ => false

/-- What the limits say of an entry, with the entries before it. -/
structure WithinLimits (before : List ServerEntry) (e : ServerEntry) : Prop where
  bounded : admissions (before ++ [e]) ≤ endings (before ++ [e]) + maxConcurrentHandshakes
  /-- A connection is refused for want of a permit only while as many sessions run as may. -/
  refused : e.out = .closed "too many concurrent handshakes" →
    admissions before = endings before + maxConcurrentHandshakes
  /-- A message is dispatched only from a session that is authenticated and has not ended. -/
  dispatched : ∀ id, e.out = .dispatched id →
    (∃ e' ∈ before, e'.out = .authenticated id) ∧ ∀ e' ∈ before, ¬ Ends id e'
  /-- A session is timed out once, 15 s after its task first ran or later. -/
  timedOut : ∀ id, e.out = .timedOut id →
    (∃ e' ∈ before, e'.out = .started id ∧ e'.pre.now + handshakeTimeout ≤ e.pre.now) ∧
      ∀ e' ∈ before, ¬ Ends id e'

/-- What the history has of a task. -/
structure Recorded (history : List ServerEntry) (id : Nat) (task : SessionTask) : Prop where
  authenticated : task.authenticated = true → ∃ e ∈ history, e.out = .authenticated id
  deadline : ∀ deadline, task.deadline = some deadline →
    ∃ e ∈ history, e.out = .started id ∧ e.pre.now + handshakeTimeout = deadline
  running : ∀ e ∈ history, ¬ Ends id e

/-- What holds at every moment. -/
structure Serving (history : List ServerEntry) (s : ServerState) : Prop where
  permits : s.permits + HashMap.size s.tasks = maxConcurrentHandshakes
  running : admissions history = endings history + HashMap.size s.tasks
  recorded : ∀ id task, s.tasks.lookup id = some task → Recorded history id task
  /-- The next numbers are not yet used. -/
  fresh : ∀ id, s.admitted ≤ id → s.tasks.lookup id = none ∧ ∀ e ∈ history, ¬ Ends id e

namespace AdmissionLemmas

variable {history : List ServerEntry} {s s' : ServerState} {id : Nat} {e : ServerEntry}
  {task : SessionTask}

theorem not_ends_snoc (h : ∀ e ∈ history, ¬ Ends id e) (hend : ¬ Ends id e) :
    ∀ e' ∈ history ++ [e], ¬ Ends id e' :=
  List.forall_mem_append.mpr ⟨h, List.forall_mem_singleton.mpr hend⟩

theorem Recorded.snoc (h : Recorded history id task) (hend : ¬ Ends id e) :
    Recorded (history ++ [e]) id task where
  authenticated hauth := by
    obtain ⟨e', he', hout⟩ := h.authenticated hauth
    exact ⟨e', List.mem_append_left _ he', hout⟩
  deadline deadline hdeadline := by
    obtain ⟨e', he', hout⟩ := h.deadline deadline hdeadline
    exact ⟨e', List.mem_append_left _ he', hout⟩
  running := not_ends_snoc h.running hend

section

variable (h : Serving history s)
include h

/-- An entry that ends no session and changes at most the task of one. -/
theorem Serving.of_insert (hend : ∀ id, ¬ Ends id e) (hlookup : s.tasks.lookup id = some task)
    {task' : SessionTask} (htasks : s'.tasks = s.tasks.insert id task')
    (hrecorded : Recorded (history ++ [e]) id task') (hpermits : s'.permits = s.permits)
    (hadmitted : s'.admitted = s.admitted)
    (hspawned : admissions (history ++ [e]) = admissions history)
    (hended : endings (history ++ [e]) = endings history) : Serving (history ++ [e]) s' where
  permits := by
    rw [hpermits, htasks, HashMap.size_insert_of_lookup hlookup, h.permits]
  running := by
    rw [hspawned, hended, htasks, HashMap.size_insert_of_lookup hlookup, h.running]
  recorded id' task'' hl := by
    rw [htasks, HashMap.lookup_insert_eq] at hl
    split_ifs at hl with heq
    · cases hl
      exact heq ▸ hrecorded
    · exact Recorded.snoc (h.recorded id' task'' hl) (hend id')
  fresh id' hid' := by
    obtain ⟨hnone, hpast⟩ := h.fresh id' (hadmitted ▸ hid')
    refine ⟨?_, not_ends_snoc hpast (hend id')⟩
    rw [htasks, HashMap.lookup_insert_eq, if_neg ?_]
    · exact hnone
    · rintro rfl
      cases hnone.symm.trans hlookup

theorem Serving.of_same (hend : ∀ id, ¬ Ends id e) (htasks : s'.tasks = s.tasks)
    (hpermits : s'.permits = s.permits) (hadmitted : s'.admitted = s.admitted)
    (hspawned : admissions (history ++ [e]) = admissions history)
    (hended : endings (history ++ [e]) = endings history) : Serving (history ++ [e]) s' where
  permits := by rw [hpermits, htasks, h.permits]
  running := by rw [hspawned, hended, htasks, h.running]
  recorded id task hl := Recorded.snoc (h.recorded id task (htasks ▸ hl)) (hend id)
  fresh id hid := by
    obtain ⟨hnone, hpast⟩ := h.fresh id (hadmitted ▸ hid)
    exact ⟨htasks ▸ hnone, not_ends_snoc hpast (hend id)⟩

theorem Serving.spawned (hend : ∀ id, ¬ Ends id e)
    (htasks : s'.tasks = s.tasks.insert s.admitted ⟨none, false⟩)
    (hpermits : s.permits = s'.permits + 1) (hadmitted : s'.admitted = s.admitted + 1)
    (hspawned : admissions (history ++ [e]) = admissions history + 1)
    (hended : endings (history ++ [e]) = endings history) : Serving (history ++ [e]) s' := by
  obtain ⟨hnone, hpast⟩ := h.fresh s.admitted (Nat.le_refl _)
  have hsize := HashMap.size_insert_of_fresh hnone (⟨none, false⟩ : SessionTask)
  refine ⟨?_, ?_, fun id task hl => ?_, fun id hid => ?_⟩
  · rw [htasks, hsize, ← h.permits, hpermits, Nat.add_right_comm, Nat.add_assoc]
  · rw [hspawned, hended, htasks, hsize, h.running, Nat.add_assoc]
  · rw [htasks, HashMap.lookup_insert_eq] at hl
    split_ifs at hl with heq
    · cases hl
      exact ⟨nofun, nofun, heq ▸ not_ends_snoc hpast (hend _)⟩
    · exact Recorded.snoc (h.recorded id task hl) (hend id)
  · rw [hadmitted] at hid
    obtain ⟨hnone', hpast'⟩ := h.fresh id (Nat.le_of_succ_le hid)
    refine ⟨?_, not_ends_snoc hpast' (hend id)⟩
    rw [htasks, HashMap.lookup_insert_eq, if_neg (Nat.ne_of_gt hid), hnone']

theorem Serving.release (hlookup : s.tasks.lookup id = some task)
    (hend : ∀ id', Ends id' e → id' = id)
    (hspawned : admissions (history ++ [e]) = admissions history)
    (hended : endings (history ++ [e]) = endings history + 1) :
    Serving (history ++ [e]) (s.release id) where
  permits := by
    have hsize := HashMap.size_erase_of_lookup hlookup
    have hpermits := h.permits
    simp only [ServerState.release]
    omega
  running := by
    have hsize := HashMap.size_erase_of_lookup hlookup
    have hrunning := h.running
    simp only [ServerState.release]
    omega
  recorded id' task' hl := by
    rw [ServerState.release, HashMap.lookup_erase_eq] at hl
    split_ifs at hl with heq
    exact Recorded.snoc (h.recorded id' task' hl) fun hends => heq (hend id' hends)
  fresh id' hid' := by
    obtain ⟨hnone, hpast⟩ := h.fresh id' hid'
    have hne : id' ≠ id := by
      rintro rfl
      cases hnone.symm.trans hlookup
    refine ⟨?_, not_ends_snoc hpast fun hends => hne (hend id' hends)⟩
    rw [ServerState.release, HashMap.lookup_erase_eq, if_neg hne, hnone]

theorem Serving.step (event : ServerEvent) :
    Serving (history ++ [stepEntry serverStep s event]) (serverStep s event).2 := by
  have heffect := serverStep_effect s event
  have hout : (stepEntry serverStep s event).out = (serverStep s event).1 := rfl
  have hpre : (stepEntry serverStep s event).pre = s := rfl
  generalize stepEntry serverStep s event = e at hout hpre
  generalize (serverStep s event).1 = out at hout heffect
  generalize (serverStep s event).2 = s' at heffect
  cases heffect with
  | silent htasks hpermits hadmitted =>
    refine Serving.of_same h (by simp [Ends, hout]) htasks hpermits hadmitted ?_ ?_ <;>
      simp [admissions, endings, hout]
  | closed reason htasks hpermits hadmitted =>
    refine Serving.of_same h (by simp [Ends, hout]) htasks hpermits hadmitted ?_ ?_ <;>
      simp [admissions, endings, hout]
  | dispatched id deadline hlookup =>
    refine Serving.of_same h (by simp [Ends, hout]) rfl rfl rfl ?_ ?_ <;>
      simp [admissions, endings, hout]
  | spawned htasks hpermits hadmitted =>
    refine Serving.spawned h (by simp [Ends, hout]) htasks hpermits hadmitted ?_ ?_ <;>
      simp [admissions, endings, hout]
  | started id authenticated hlookup htasks hpermits hadmitted =>
    refine Serving.of_insert h (by simp [Ends, hout]) hlookup htasks ⟨nofun, ?_, ?_⟩ hpermits
      hadmitted ?_ ?_
    · rintro deadline ⟨⟩
      exact ⟨e, List.mem_append_right _ List.mem_cons_self, hout, by rw [hpre]⟩
    · exact (Recorded.snoc (h.recorded id _ hlookup) (by simp [Ends, hout])).running
    · simp [admissions, hout]
    · simp [endings, hout]
  | authenticated id deadline hlookup htasks hpermits hadmitted =>
    have hrecorded := Recorded.snoc (e := e) (h.recorded id _ hlookup) (by simp [Ends, hout])
    refine Serving.of_insert h (by simp [Ends, hout]) hlookup htasks
      ⟨fun _ => ?_, hrecorded.deadline, hrecorded.running⟩ hpermits hadmitted ?_ ?_
    · exact ⟨e, List.mem_append_right _ List.mem_cons_self, hout⟩
    · simp [admissions, hout]
    · simp [endings, hout]
  | finished id task hlookup =>
    refine Serving.release h hlookup (by simp [Ends, hout]) ?_ ?_ <;>
      simp [admissions, endings, hout]
  | timedOut id deadline authenticated hlookup hdue =>
    refine Serving.release h hlookup (by simp [Ends, hout]) ?_ ?_ <;>
      simp [admissions, endings, hout]

theorem WithinLimits.step (event : ServerEvent) :
    WithinLimits history (stepEntry serverStep s event) := by
  have heffect := serverStep_effect s event
  refine ⟨?_, fun hout => ?_, fun id hout => ?_, fun id hout => ?_⟩
  · have hnext := Serving.step h event
    rw [hnext.running, ← hnext.permits]
    omega
  · change (serverStep s event).1 = _ at hout
    rw [hout] at heffect
    cases heffect with
    | closed _ _ _ _ hreason =>
      rw [h.running, ← h.permits, hreason rfl, Nat.zero_add]
  · change (serverStep s event).1 = _ at hout
    rw [hout] at heffect
    generalize (serverStep s event).2 = s' at heffect
    cases heffect with
    | dispatched _ deadline hlookup =>
      have hrecorded := h.recorded id _ hlookup
      exact ⟨hrecorded.authenticated rfl, hrecorded.running⟩
  · change (serverStep s event).1 = _ at hout
    rw [hout] at heffect
    generalize (serverStep s event).2 = s' at heffect
    cases heffect with
    | timedOut _ deadline authenticated hlookup hdue =>
      have hrecorded := h.recorded id _ hlookup
      obtain ⟨e, he, hstarted, hdeadline⟩ := hrecorded.deadline deadline rfl
      exact ⟨⟨e, he, hstarted, hdeadline ▸ hdue⟩, hrecorded.running⟩

end

end AdmissionLemmas

open AdmissionLemmas

/-- The limits hold at every entry of every run, whatever the clients do. -/
theorem sessions_are_bounded (now : Nat) (events : List ServerEvent) (before : List ServerEntry)
    (e : ServerEntry) (after : List ServerEntry)
    (hrun : run serverStep (.start now) events = before ++ e :: after) : WithinLimits before e := by
  have hall : (∀ before e after, run serverStep (.start now) events = before ++ e :: after →
        WithinLimits before e) ∧
      Serving (run serverStep (.start now) events) (endState serverStep (.start now) events) := by
    refine run_induction (P := fun h s => (∀ before e after, h = before ++ e :: after →
      WithinLimits before e) ∧ Serving h s) ?_ ?_ events
    · refine ⟨fun before e after h => absurd h (by simp), rfl, rfl, nofun, fun _ _ => ⟨rfl, nofun⟩⟩
    · rintro h s event ⟨hbefore, hserving⟩
      exact ⟨forall_split_snoc.mpr ⟨WithinLimits.step hserving event, hbefore⟩,
        Serving.step hserving event⟩
  exact hall.1 before e after hrun

/-- A client is admitted and authenticated, and its session is timed out 20 s after it began. -/
def lateTimeout : List ServerEvent :=
  [.accept (.v4 (Bytes.fill 4 10)), .start 0, .authenticate 0 [.video], .message 0,
    .wait (20 * 10 ^ 9), .message 0]

theorem sessions_are_bounded_late :
    (serverStep (endState serverStep (.start 0) lateTimeout) (.timeout 0)).1 = .timedOut 0 ∧
      WithinLimits (run serverStep (.start 0) lateTimeout)
        (stepEntry serverStep (endState serverStep (.start 0) lateTimeout) (.timeout 0)) :=
  ⟨rfl, sessions_are_bounded 0 (lateTimeout ++ [.timeout 0]) _ _ [] (run_snoc ..)⟩

/-! ## Senders -/

/-- A client connects, is authenticated and stays, while one pipeline of its session runs. The
session is timed out, and the next attempt comes a window of the limiter later. -/
def patientClient (ip : IpAddr) (pipeline : Nat → Pipeline) (id : Nat) : List ServerEvent :=
  [.accept ip, .start id, .authenticate id [pipeline id], .wait ipRateWindow, .timeout id]

/-- The server after `n` attempts of the client. -/
def afterAttempts (ip : IpAddr) (pipeline : Nat → Pipeline) (now n : Nat) : ServerState :=
  endState serverStep (.start now) ((List.range n).flatMap (patientClient ip pipeline))

/-- The server between two attempts of the client. -/
structure LeftBehind (ip : IpAddr) (pipeline : Nat → Pipeline) (n : Nat) (s : ServerState) :
    Prop where
  admitted : s.admitted = n
  size : HashMap.size s.senders = n
  senders : ∀ id, s.senders.lookup id = if id < n then some [pipeline id] else none
  permits : s.permits = maxConcurrentHandshakes
  tasks : HashMap.size s.tasks = 0
  window : ∀ entry, s.rateLimiter.lookup ip = some entry → ipRateWindow ≤ s.now - entry.2

namespace AdmissionLemmas

variable {ip : IpAddr} {pipeline : Nat → Pipeline} {s : ServerState}

/-- An attempt after the window opens a new one. -/
theorem checkAndRecord_of_passed
    (h : ∀ entry, s.rateLimiter.lookup ip = some entry → ipRateWindow ≤ s.now - entry.2) :
    checkAndRecord s.rateLimiter ⟨ip, s.now⟩ =
      (true, (evictStale s.now s.rateLimiter).insert ip (1, s.now)) := by
  have hwindow : currentWindow s.rateLimiter ⟨ip, s.now⟩ = (0, s.now) := by
    rcases RateLimitLemmas.currentWindow_cases s.rateLimiter ⟨ip, s.now⟩ with
      ⟨-, hw⟩ | ⟨_, -, -, hw⟩ | ⟨window, hl, hfresh, -⟩
    · exact hw
    · exact hw
    · exact absurd (h window hl) (Nat.not_le.mpr hfresh)
  have hfree : ¬ Blocks s.rateLimiter ⟨ip, s.now⟩ := by
    rw [Blocks, hwindow]
    exact Nat.not_le.mpr (by decide : 0 < maxAuthAttemptsPerIp)
  rw [RateLimitLemmas.checkAndRecord_eq, if_neg hfree, hwindow]

theorem LeftBehind.round {n : Nat} (h : LeftBehind ip pipeline n s) :
    LeftBehind ip pipeline (n + 1) (endState serverStep s (patientClient ip pipeline n)) := by
  have hspawn : serverStep s (.accept ip) = (.spawned n, { s with
      rateLimiter := (evictStale s.now s.rateLimiter).insert ip (1, s.now)
      permits := maxConcurrentHandshakes - 1
      admitted := n + 1
      tasks := s.tasks.insert n ⟨none, false⟩ }) := by
    simp [serverStep, spawnSessionTask, checkAndRecord_of_passed h.window, h.permits, h.admitted,
      maxConcurrentHandshakes]
  have hdue : s.now + handshakeTimeout ≤ s.now + ipRateWindow := Nat.add_le_add_left (by decide) _
  have hround : endState serverStep s (patientClient ip pipeline n) =
      { now := s.now + ipRateWindow
        rateLimiter := (evictStale s.now s.rateLimiter).insert ip (1, s.now)
        permits := maxConcurrentHandshakes
        admitted := n + 1
        tasks := (s.tasks.insert n ⟨some (s.now + handshakeTimeout), true⟩).erase n
        senders := s.senders.insert n [pipeline n] } := by
    rw [patientClient, endState_cons, hspawn]
    simp [serverStep, ServerState.release, hdue, maxConcurrentHandshakes]
  have hfresh : s.senders.lookup n = none := by rw [h.senders, if_neg (Nat.lt_irrefl n)]
  rw [hround]
  refine ⟨rfl, ?_, fun id => ?_, rfl, ?_, fun entry hentry => ?_⟩
  · rw [HashMap.size_insert_of_fresh hfresh, h.size]
  · rw [HashMap.lookup_insert_eq, h.senders]
    split_ifs with heq hlt hle <;> first | omega | rw [heq] | rfl
  · have herase := HashMap.size_erase_of_lookup (AList.lookup_insert (a := n)
      (b := (⟨some (s.now + handshakeTimeout), true⟩ : SessionTask)) s.tasks)
    rw [HashMap.size_insert_of_fresh (HashMap.lookup_of_size_zero h.tasks n), h.tasks] at herase
    exact Nat.succ.inj herase
  · rw [AList.lookup_insert] at hentry
    cases hentry
    exact (Nat.add_sub_cancel_left s.now ipRateWindow).ge

end AdmissionLemmas

/-- A client that connects once in a window of the limiter leaves a sender behind each time, for as
long as a pipeline of each of its sessions runs, with all permits free. -/
theorem senders_are_unbounded (ip : IpAddr) (pipeline : Nat → Pipeline) (now n : Nat) :
    HashMap.size (afterAttempts ip pipeline now n).senders = n ∧
      (∀ id, (afterAttempts ip pipeline now n).senders.lookup id =
        if id < n then some [pipeline id] else none) ∧
      (afterAttempts ip pipeline now n).permits = maxConcurrentHandshakes := by
  have hrounds : LeftBehind ip pipeline n (afterAttempts ip pipeline now n) :=
    endState_rounds ⟨rfl, rfl, fun _ => rfl, rfl, rfl, nofun⟩ n fun _ _ _ h => LeftBehind.round h
  exact ⟨hrounds.size, hrounds.senders, hrounds.permits⟩

end Blackwing.Server
