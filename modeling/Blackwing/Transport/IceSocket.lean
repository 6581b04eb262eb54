import Blackwing.Lib.Queue
import Blackwing.Transport.RelaySocket

/-!
# The socket over an ICE connection

`bw-transport/src/ice_socket.rs`: the UDP socket under Quinn when the peers have a direct path. A
task bridges the two: it sends what `try_send` has put into a channel, and puts what it receives
into a queue that `poll_recv` drains. `poll_recv` stores the waker of its task before it looks at
the queue, and the bridge wakes after it has put a datagram there; the two use different locks. One
task of Quinn polls, and each call polls anew: a wake-up from before it does not count.

A run is an interleaving of the accesses of the bridge and of Quinn, with what the connection does.

* `IceLink.step`, `IceLink.Effect`: the machine, and what a step of it can do.
* `ice_no_lost_wakeup`: a task that waits beside a datagram is about to be woken.
* `ice_in_order`: datagrams pass in order, none lost and none twice, until the bridge stops.
* `ice_silent_after_stop`: when the connection has failed, polls never report it.
-/

namespace Blackwing.Transport

open Blackwing.Relay RelaySocketLemmas

/-- Where the bridge is. -/
inductive Bridge where
  | select
  /-- It waits for `conn.send`. -/
  | sending
  /-- It has put a datagram into the queue and takes the waker next. -/
  | waking
  | stopped
deriving DecidableEq, Repr

/-- Where the task of Quinn is. -/
inductive Driver where
  | elsewhere
  /-- `poll_recv` has a first buffer, has stored the waker, and looks at the queue next. -/
  | registered (buf : List UInt8) (bufs : List (List UInt8)) (metas : List RecvMeta)
  /-- Its last poll was `Pending`. -/
  | waiting

/-- `IceUdpSocket` with the two tasks that use it. -/
structure IceLink where
  remote : SocketAddr
  recvQueue : List (SocketAddr × List UInt8)
  /-- A waker is stored. -/
  recvWaker : Bool
  /-- The channel from `send_tx` to `send_rx`. -/
  sendQueue : List (List UInt8)
  /-- Quinn still has the socket, and so the sender of the channel. -/
  live : Bool
  bridge : Bridge
  driver : Driver
  /-- The task was woken after its last poll began. -/
  woken : Bool

inductive IceStep where
  | trySend (transmit : Transmit)
  | pollRecv (buffers : RecvBuffers)
  /-- The second half of `poll_recv`. -/
  | look
  /-- `send_rx.recv()` is ready. -/
  | dequeue
  | sent (ok : Bool)
  /-- `conn.recv(&mut buf)` is ready. -/
  | received (result : Except Unit (List UInt8))
  | wake
  /-- Quinn drops the socket. -/
  | close

inductive IceReply where
  | trySend (result : Except IoErrorKind Unit)
  | pollRecv (result : Outcome IoErrorKind (Poll Nat)) (buffers : RecvBuffers)
  /-- The bridge calls `conn.send`. -/
  | send (data : List UInt8)

namespace IceLink

def new (remote : SocketAddr) : IceLink where
  remote := remote
  recvQueue := []
  recvWaker := false
  sendQueue := []
  live := true
  bridge := .select
  driver := .elsewhere
  woken := false

/-- What Quinn does; without the socket nothing. -/
def trySend (s : IceLink) (transmit : Transmit) : Option IceReply × IceLink :=
  if s.live then
    -- the error is a `ConnectionReset`, a kind that is not told apart here
    if s.bridge = .stopped then (some (.trySend (.error .other)), s)
    else (some (.trySend (.ok ())), { s with sendQueue := s.sendQueue ++ [transmit.contents] })
  else (none, s)

def pollRecv (s : IceLink) (buffers : RecvBuffers) : Option IceReply × IceLink :=
  match s.live, s.driver, buffers.bufs with
  | false, _, _ | true, .registered .., _ => (none, s)
  | true, _, [] =>
    (some (.pollRecv (.ok (.ready 0)) buffers), { s with driver := .elsewhere, woken := false })
  | true, _, buf :: bufs =>
    (none, { s with
      driver := .registered buf bufs buffers.metas, recvWaker := true, woken := false })

def look (s : IceLink) : Option IceReply × IceLink :=
  match s.driver, s.recvQueue with
  | .registered buf bufs metas, (addr, data) :: queue =>
    (some (.pollRecv (RelayUdpSocket.handOver addr buf bufs data ⟨buf :: bufs, metas⟩).1
        (RelayUdpSocket.handOver addr buf bufs data ⟨buf :: bufs, metas⟩).2),
      { s with recvQueue := queue, driver := .elsewhere })
  | .registered buf bufs metas, [] =>
    (some (.pollRecv (.ok .pending) ⟨buf :: bufs, metas⟩), { s with driver := .waiting })
  | _, _ => (none, s)

/-- The bridge leaves its loop: `send_rx` is dropped with all that is in the channel. -/
def stop (s : IceLink) : IceLink := { s with bridge := .stopped, sendQueue := [] }

/-- What the bridge does. -/
def dequeue (s : IceLink) : Option IceReply × IceLink :=
  match s.bridge, s.sendQueue with
  | .select, data :: queue => (some (.send data), { s with sendQueue := queue, bridge := .sending })
  | .select, [] => if s.live then (none, s) else (none, s.stop)
  | _, _ => (none, s)

def sent (s : IceLink) (ok : Bool) : IceLink :=
  match s.bridge with
  | .sending => if ok then { s with bridge := .select } else s.stop
  | _ => s

def received (s : IceLink) (result : Except Unit (List UInt8)) : IceLink :=
  match s.bridge, result with
  | .select, .ok [] => s
  | .select, .ok data =>
    { s with recvQueue := s.recvQueue ++ [(s.remote, data)], bridge := .waking }
  | .select, .error _ => s.stop
  | _, _ => s

def wake (s : IceLink) : IceLink :=
  match s.bridge with
  | .waking => { s with recvWaker := false, woken := s.woken || s.recvWaker, bridge := .select }
  | _ => s

def step (s : IceLink) : IceStep → Option IceReply × IceLink
  | .trySend transmit => s.trySend transmit
  | .pollRecv buffers => s.pollRecv buffers
  | .look => s.look
  | .dequeue => s.dequeue
  | .sent ok => (none, s.sent ok)
  | .received result => (none, s.received result)
  | .wake => (none, s.wake)
  | .close => (none, { s with live := false })

/-! ## What a step does -/

/-- What a step does: the input, the reply, and the state after. -/
inductive Effect (s : IceLink) : IceStep → Option IceReply → IceLink → Prop where
  /-- It cannot come now, or has nothing to do. -/
  | idle (input : IceStep)
      (hidle : ∀ data, input = .received (.ok data) → s.bridge = .select → data = []) :
      Effect s input none s
  | refused (transmit : Transmit) :
      Effect s (.trySend transmit) (some (.trySend (.error .other))) s
  | queued (transmit : Transmit) :
      Effect s (.trySend transmit) (some (.trySend (.ok ())))
        { s with sendQueue := s.sendQueue ++ [transmit.contents] }
  | noBuffer (buffers : RecvBuffers) :
      Effect s (.pollRecv buffers) (some (.pollRecv (.ok (.ready 0)) buffers))
        { s with driver := .elsewhere, woken := false }
  | registered {buffers : RecvBuffers} {buf : List UInt8} {bufs : List (List UInt8)}
      (hbufs : buffers.bufs = buf :: bufs) :
      Effect s (.pollRecv buffers) none
        { s with driver := .registered buf bufs buffers.metas, recvWaker := true, woken := false }
  | pending {buf : List UInt8} {bufs : List (List UInt8)} {metas : List RecvMeta}
      (hdriver : s.driver = .registered buf bufs metas) (hqueue : s.recvQueue = []) :
      Effect s .look (some (.pollRecv (.ok .pending) ⟨buf :: bufs, metas⟩))
        { s with driver := .waiting }
  | handedOver {buf : List UInt8} {bufs : List (List UInt8)} {metas : List RecvMeta}
      {addr : SocketAddr} {data : List UInt8} {queue : List (SocketAddr × List UInt8)}
      (hdriver : s.driver = .registered buf bufs metas)
      (hqueue : s.recvQueue = (addr, data) :: queue) :
      Effect s .look
        (some (.pollRecv (RelayUdpSocket.handOver addr buf bufs data ⟨buf :: bufs, metas⟩).1
          (RelayUdpSocket.handOver addr buf bufs data ⟨buf :: bufs, metas⟩).2))
        { s with recvQueue := queue, driver := .elsewhere }
  | dequeued {data : List UInt8} {queue : List (List UInt8)} (hbridge : s.bridge = .select)
      (hqueue : s.sendQueue = data :: queue) :
      Effect s .dequeue (some (.send data)) { s with sendQueue := queue, bridge := .sending }
  | stopped (input : IceStep) (hinput : ∀ data, input ≠ .received (.ok data))
      (hbridge : s.bridge = .select ∨ s.bridge = .sending) : Effect s input none s.stop
  | sent (hbridge : s.bridge = .sending) :
      Effect s (.sent true) none { s with bridge := .select }
  | received {data : List UInt8} (hbridge : s.bridge = .select) (hdata : data ≠ []) :
      Effect s (.received (.ok data)) none
        { s with recvQueue := s.recvQueue ++ [(s.remote, data)], bridge := .waking }
  | woke (hbridge : s.bridge = .waking) :
      Effect s .wake none
        { s with recvWaker := false, woken := s.woken || s.recvWaker, bridge := .select }
  | closed : Effect s .close none { s with live := false }

theorem step_effect (s : IceLink) (input : IceStep) :
    Effect s input (s.step input).1 (s.step input).2 := by
  cases input with
  | trySend transmit =>
    rw [step, trySend]
    split_ifs
    · exact .refused transmit
    · exact .queued transmit
    · exact .idle _ nofun
  | pollRecv buffers =>
    rw [step, pollRecv]
    split
    · exact .idle _ nofun
    · exact .idle _ nofun
    · exact .noBuffer buffers
    · next hbufs _ => exact .registered hbufs
  | look =>
    rw [step, look]
    split
    · next hdriver hqueue => exact .handedOver hdriver hqueue
    · next hdriver hqueue => exact .pending hdriver hqueue
    · exact .idle _ nofun
  | dequeue =>
    rw [step, dequeue]
    split
    · next hbridge hqueue => exact .dequeued hbridge hqueue
    · next hbridge _ =>
      split_ifs
      · exact .idle _ nofun
      · exact .stopped _ nofun (Or.inl hbridge)
    · exact .idle _ nofun
  | sent ok =>
    rw [step, sent]
    split
    · next hbridge => cases ok with
      | false => exact .stopped _ nofun (Or.inr hbridge)
      | true => exact .sent hbridge
    · exact .idle _ nofun
  | received result =>
    show Effect s _ none (s.received result)
    unfold received
    cases hbridge : s.bridge with
    | select =>
      rcases result with _ | (_ | ⟨b, data⟩)
      · exact .stopped _ nofun (Or.inl hbridge)
      · exact .idle _ fun _ hdata _ => by cases hdata; rfl
      · exact .received hbridge (List.cons_ne_nil b data)
    | sending | waking | stopped =>
      exact .idle _ fun _ _ hselect => nomatch hbridge.symm.trans hselect
  | wake =>
    rw [step, wake]
    split
    · next hbridge => exact .woke hbridge
    · exact .idle _ nofun
  | close => exact .closed

end IceLink

/-! ## Wake-ups -/

/-- A task that polls has its waker stored until it is woken; one that waits has no datagram beside
it, unless the bridge is about to wake it. -/
structure Alert (s : IceLink) : Prop where
  registered : ∀ buf bufs metas, s.driver = .registered buf bufs metas → s.woken = false →
    s.recvWaker = true
  waiting : s.driver = .waiting → s.woken = false →
    s.recvWaker = true ∧ (s.recvQueue = [] ∨ s.bridge = .waking)

namespace Alert

variable {s : IceLink}

theorem of_elsewhere (h : s.driver = .elsewhere) : Alert s where
  registered _ _ _ hdriver := by cases h.symm.trans hdriver
  waiting hdriver := by cases h.symm.trans hdriver

/-- A step that has to do neither with the wake-ups nor with the queue. -/
theorem keep {s' : IceLink} (h : Alert s) (hdriver : s'.driver = s.driver)
    (hwoken : s'.woken = s.woken) (hwaker : s'.recvWaker = s.recvWaker)
    (hqueue : s'.recvQueue = s.recvQueue) (hbridge : s.bridge = .waking → s'.bridge = .waking) :
    Alert s' where
  registered buf bufs metas hd hw := by
    rw [hwaker]
    exact h.registered buf bufs metas (hdriver ▸ hd) (hwoken ▸ hw)
  waiting hd hw := by
    rw [hwaker, hqueue]
    exact (h.waiting (hdriver ▸ hd) (hwoken ▸ hw)).imp_right (Or.imp_right hbridge)

theorem step (h : Alert s) (input : IceStep) : Alert (s.step input).2 := by
  have heffect := s.step_effect input
  generalize (s.step input).1 = out at heffect
  generalize (s.step input).2 = s' at heffect ⊢
  cases heffect with
  | idle | refused => exact h
  | queued | closed => exact h.keep rfl rfl rfl rfl id
  | noBuffer | handedOver => exact of_elsewhere rfl
  | registered => exact ⟨fun _ _ _ _ _ => rfl, nofun⟩
  | pending hdriver hqueue =>
    -- the queue is empty when the task begins to wait, and its waker was stored before
    exact ⟨nofun, fun _ hwoken => ⟨h.registered _ _ _ hdriver hwoken, Or.inl hqueue⟩⟩
  | dequeued hbridge =>
    exact h.keep rfl rfl rfl rfl fun hwaking => nomatch hbridge.symm.trans hwaking
  | stopped _ _ hbridge =>
    refine h.keep rfl rfl rfl rfl fun hwaking => ?_
    rw [hwaking] at hbridge
    exact hbridge.elim nofun nofun
  | sent hbridge => exact h.keep rfl rfl rfl rfl fun hwaking => nomatch hbridge.symm.trans hwaking
  | received =>
    -- a datagram that is put beside a waiting task sends the bridge to the waker
    exact ⟨h.registered, fun hdriver hwoken => ⟨(h.waiting hdriver hwoken).1, Or.inr rfl⟩⟩
  | woke =>
    -- the bridge takes the waker away only by waking
    refine ⟨fun buf bufs metas hdriver hwoken => ?_, fun hdriver hwoken => ?_⟩
    · obtain ⟨hw, hwaker⟩ := Bool.or_eq_false_iff.mp hwoken
      cases hwaker.symm.trans (h.registered buf bufs metas hdriver hw)
    · obtain ⟨hw, hwaker⟩ := Bool.or_eq_false_iff.mp hwoken
      cases hwaker.symm.trans (h.waiting hdriver hw).1

end Alert

/-- In every interleaving a task of Quinn that waits, and has not been woken since, has its waker
stored; and if there is a datagram for it, the bridge is about to wake it and the next step of the
bridge does. -/
theorem ice_no_lost_wakeup (remote : SocketAddr) (inputs : List IceStep) (s : IceLink)
    (hs : s = endState IceLink.step (IceLink.new remote) inputs) (hwaiting : s.driver = .waiting)
    (hwoken : s.woken = false) :
    s.recvWaker = true ∧ (s.recvQueue ≠ [] → s.bridge = .waking ∧ s.wake.woken = true) := by
  have halert : Alert s := by
    rw [hs]
    clear hs hwaiting hwoken
    induction inputs using List.reverseRecOn with
    | nil => exact Alert.of_elsewhere rfl
    | append_singleton inputs input ih =>
      rw [endState_snoc]
      exact ih.step input
  obtain ⟨hwaker, hqueue⟩ := halert.waiting hwaiting hwoken
  refine ⟨hwaker, fun hne => ?_⟩
  have hbridge := hqueue.resolve_left hne
  exact ⟨hbridge, by simp [IceLink.wake, hbridge, hwaker]⟩

/-- The task waits, and a datagram has come that the bridge has not yet woken it for. -/
def iceWaiting : List IceStep :=
  [.pollRecv ⟨[[0]], [⟨.v4 (Bytes.fill 4 0) 0, 0, 0⟩]⟩, .look, .received (.ok [7])]

theorem ice_no_lost_wakeup_one :
    (endState IceLink.step (IceLink.new (.v4 (Bytes.fill 4 1) 5)) iceWaiting).bridge = .waking :=
  ((ice_no_lost_wakeup (.v4 (Bytes.fill 4 1) 5) iceWaiting _ rfl rfl rfl).2 nofun).1

/-! ## A bridge that has stopped -/

/-- The bridge has stopped: nothing was put into the queue since, and nobody was woken. -/
structure StoppedSince (s t : IceLink) : Prop where
  stopped : t.bridge = .stopped
  queue : t.recvQueue <:+ s.recvQueue
  woken : t.woken = true → s.woken = true

theorem StoppedSince.step {s t : IceLink} (h : StoppedSince s t) (input : IceStep) :
    StoppedSince s (t.step input).2 := by
  have heffect := t.step_effect input
  generalize (t.step input).1 = out at heffect
  generalize (t.step input).2 = t' at heffect ⊢
  have hstopped := h.stopped
  cases heffect with
  | idle | refused => exact h
  | queued | pending | closed => exact ⟨hstopped, h.queue, h.woken⟩
  | noBuffer | registered => exact ⟨hstopped, h.queue, nofun⟩
  | handedOver _ hqueue =>
    exact ⟨hstopped, (List.suffix_cons _ _).trans (hqueue ▸ h.queue), h.woken⟩
  | dequeued hbridge | received hbridge | woke hbridge | sent hbridge =>
    cases hstopped.symm.trans hbridge
  | stopped _ _ hbridge =>
    rw [hstopped] at hbridge
    exact hbridge.elim nofun nofun

theorem stopped_step {s : IceLink} (h : s.bridge = .stopped) (input : IceStep) :
    (s.step input).2.bridge = .stopped :=
  (StoppedSince.step ⟨h, List.suffix_refl _, id⟩ input).stopped

/-! ## Order -/

/-- An entry of a run. -/
abbrev IceEvent : Type := Entry IceLink IceStep (Option IceReply)

namespace IceEvent

/-- The datagram that the bridge gets from the connection. -/
def arrived (e : IceEvent) : List (SocketAddr × List UInt8) :=
  match e.input, e.pre.bridge with
  | .received (.ok (b :: data)), .select => [(e.pre.remote, b :: data)]
  | _, _ => []

/-- The datagram that Quinn gets from a poll. -/
def yielded (e : IceEvent) : List (SocketAddr × List UInt8) :=
  match e.out with
  | some (.pollRecv (.ok (.ready 1)) buffers) => buffers.yielded.toList
  | _ => []

/-- The datagram that `try_send` accepts. -/
def accepted (e : IceEvent) : List (List UInt8) :=
  match e.input, e.out with
  | .trySend transmit, some (.trySend (.ok ())) => [transmit.contents]
  | _, _ => []

/-- The datagram that the bridge hands to the connection. -/
def handed (e : IceEvent) : List (List UInt8) :=
  match e.out with
  | some (.send data) => [data]
  | _ => []

/-- What the channel has when the bridge stops. -/
def dropped (e : IceEvent) : List (List UInt8) :=
  if e.pre.bridge ≠ .stopped ∧ e.post.bridge = .stopped then e.pre.sendQueue else []

end IceEvent

/-- Quinn gives room for `n` bytes, and the connection gives no datagram that is longer. -/
def IceStep.Suits (n : Nat) : IceStep → Prop
  | .pollRecv buffers => buffers.bufs = [] ∨ buffers.Fits n
  | .received (.ok data) => data.length ≤ n
  | _ => True

/-- What the queue has fits into the buffers of a poll. -/
structure IceLink.Fits (n : Nat) (s : IceLink) : Prop where
  queue : ∀ datagram ∈ s.recvQueue, datagram.2.length ≤ n
  buffers : ∀ buf bufs metas, s.driver = .registered buf bufs metas →
    n ≤ buf.length ∧ metas ≠ []

open IceEvent

section Order

variable {n : Nat} {s : IceLink}

/-- Every step keeps what the buffers have room for. -/
theorem IceLink.Fits.step (h : s.Fits n) {input : IceStep} (hinput : input.Suits n) :
    (s.step input).2.Fits n := by
  have heffect := s.step_effect input
  generalize (s.step input).1 = out at heffect
  generalize (s.step input).2 = s' at heffect ⊢
  cases heffect with
  | idle | refused => exact h
  | queued | dequeued | stopped | sent | woke | closed => exact ⟨h.queue, h.buffers⟩
  | noBuffer | pending => exact ⟨h.queue, nofun⟩
  | registered hbufs =>
    refine ⟨h.queue, fun _ _ _ hdriver => ?_⟩
    cases hdriver
    rcases hinput with hnone | ⟨buf, bufs, m, metas, rfl, hlen⟩
    · cases hnone.symm.trans hbufs
    · cases hbufs
      exact ⟨hlen, List.cons_ne_nil m metas⟩
  | handedOver _ hqueue =>
    exact ⟨fun datagram hd => h.queue datagram (hqueue ▸ List.mem_cons_of_mem _ hd), nofun⟩
  | received =>
    exact ⟨List.forall_mem_append.mpr ⟨h.queue, List.forall_mem_singleton.mpr hinput⟩, h.buffers⟩

theorem arrived_eq_nil {e : IceEvent}
    (h : ∀ data, e.input = .received (.ok data) → e.pre.bridge = .select → data = []) :
    arrived e = [] := by
  unfold arrived
  split
  · next hinput hbridge => cases h _ hinput hbridge
  · rfl

/-- A poll that finds a datagram hands it over whole. -/
theorem conserves_recvQueue (h : s.Fits n) (input : IceStep) :
    Conserves IceLink.step IceLink.recvQueue arrived yielded s input := by
  have heffect := s.step_effect input
  simp only [Conserves, stepEntry]
  generalize (s.step input).1 = out at heffect ⊢
  generalize (s.step input).2 = s' at heffect ⊢
  cases heffect with
  | idle _ hidle =>
    rw [arrived_eq_nil hidle]
    exact List.append_nil _
  | stopped _ hinput =>
    rw [arrived_eq_nil fun data hdata => absurd hdata (hinput data)]
    exact List.append_nil _
  | handedOver hdriver hqueue =>
    obtain ⟨hlen, hmetas⟩ := h.buffers _ _ _ hdriver
    obtain ⟨m, metas, rfl⟩ := List.exists_cons_of_ne_nil hmetas
    have hdata := h.queue _ (hqueue ▸ List.mem_cons_self)
    simp [arrived, yielded, hqueue, handOver_fits (hdata.trans hlen), RecvBuffers.yielded]
  | received hbridge hdata =>
    obtain ⟨b, data, rfl⟩ := List.exists_cons_of_ne_nil hdata
    simp [arrived, yielded, hbridge]
  | _ => simp [arrived, yielded]

/-- What is accepted is handed over, dropped or in the channel. -/
theorem conserves_sendQueue (s : IceLink) (input : IceStep) :
    Conserves IceLink.step IceLink.sendQueue accepted (fun e => handed e ++ dropped e) s input := by
  have heffect := s.step_effect input
  simp only [Conserves, stepEntry]
  generalize (s.step input).1 = out at heffect ⊢
  generalize (s.step input).2 = s' at heffect ⊢
  cases heffect with
  | dequeued hbridge hqueue => simp [accepted, handed, dropped, hqueue]
  | stopped _ _ hbridge =>
    rcases hbridge with hbridge | hbridge <;> simp [accepted, handed, dropped, IceLink.stop,
      hbridge]
  | _ => simp [accepted, handed, dropped]

end Order

/-- Until the bridge stops, nothing is dropped. -/
theorem nothing_dropped (remote : SocketAddr) (inputs : List IceStep)
    (h : (endState IceLink.step (IceLink.new remote) inputs).bridge ≠ .stopped) :
    (run IceLink.step (IceLink.new remote) inputs).flatMap (fun e => handed e ++ dropped e) =
      (run IceLink.step (IceLink.new remote) inputs).flatMap handed := by
  induction inputs using List.reverseRecOn with
  | nil => rfl
  | append_singleton inputs input ih =>
    rw [endState_snoc] at h
    have hkept : dropped (stepEntry IceLink.step (endState IceLink.step (IceLink.new remote) inputs)
        input) = [] := if_neg fun hstops => h hstops.2
    rw [run_snoc, List.flatMap_append, List.flatMap_append,
      ih fun hstopped => h (stopped_step hstopped input), List.flatMap_singleton,
      List.flatMap_singleton, hkept, List.append_nil]

/-- In every interleaving what Quinn gets from its polls, followed by what is still queued, is what
the bridge got from the connection, in this order; and what the bridge handed to the connection,
followed by what is still queued, is what `try_send` accepted, as long as the bridge has not
stopped. When it stops, what is queued is dropped, and nothing else is. -/
theorem ice_in_order (n : Nat) (remote : SocketAddr) (inputs : List IceStep)
    (hinputs : ∀ i ∈ inputs, i.Suits n) (history : List IceEvent) (s : IceLink)
    (hhistory : history = run IceLink.step (IceLink.new remote) inputs)
    (hs : s = endState IceLink.step (IceLink.new remote) inputs) :
    history.flatMap arrived = history.flatMap yielded ++ s.recvQueue ∧
      (s.bridge ≠ .stopped → history.flatMap accepted = history.flatMap handed ++ s.sendQueue) ∧
      history.flatMap accepted =
        history.flatMap (fun e => handed e ++ dropped e) ++ s.sendQueue := by
  subst hhistory hs
  have hout : (run IceLink.step (IceLink.new remote) inputs).flatMap accepted = _ :=
    run_conserves (P := fun _ => True) (G := fun _ _ => True) (s := IceLink.new remote) trivial
      (fun s i _ _ => ⟨trivial, conserves_sendQueue s i⟩) fun _ _ => trivial
  refine ⟨?_, fun hlive => ?_, hout⟩
  · refine run_conserves (P := IceLink.Fits n) (G := fun _ i => i.Suits n) (s := IceLink.new remote)
      ⟨nofun, nofun⟩ (fun s i hs hi => ⟨hs.step hi, conserves_recvQueue hs i⟩) fun e he => ?_
    exact hinputs e.input (input_mem_of_mem_run he)
  · rw [hout, nothing_dropped remote inputs hlive]

/-- Two datagrams come, Quinn polls once with a buffer of 1500 bytes and sends two, and the bridge
takes the first. -/
def iceTraffic : List IceStep :=
  [.received (.ok [7]), .wake, .received (.ok [8, 9]),
    .pollRecv ⟨[List.replicate 1500 0], [⟨.v4 (Bytes.fill 4 0) 0, 0, 0⟩]⟩, .look,
    .trySend ⟨.v4 (Bytes.fill 4 1) 5, [1]⟩, .trySend ⟨.v4 (Bytes.fill 4 1) 5, [2]⟩, .wake, .dequeue]

theorem ice_in_order_two :
    (run IceLink.step (IceLink.new (.v4 (Bytes.fill 4 1) 5)) iceTraffic).flatMap accepted =
      (run IceLink.step (IceLink.new (.v4 (Bytes.fill 4 1) 5)) iceTraffic).flatMap handed ++
        (endState IceLink.step (IceLink.new (.v4 (Bytes.fill 4 1) 5)) iceTraffic).sendQueue := by
  refine (ice_in_order 1500 (.v4 (Bytes.fill 4 1) 5) iceTraffic ?_ _ _ rfl rfl).2.1 (by decide)
  simp only [iceTraffic, List.forall_mem_cons, IceStep.Suits]
  exact ⟨by decide, trivial, by decide, Or.inr ⟨_, _, _, _, rfl, List.length_replicate.ge⟩, trivial,
    trivial, trivial, trivial, trivial, nofun⟩

/-! ## After the connection has failed -/

theorem setMeta_ne_err (addr : SocketAddr) (len : Nat) (buffers : RecvBuffers)
    (kind : IoErrorKind) :
    (RelayUdpSocket.setMeta addr len buffers).1 ≠ .err kind := by
  rw [RelayUdpSocket.setMeta, Call.getState_bind, Outcome.store]
  split
  · exact nofun
  · exact nofun

/-- A poll that finds a datagram does not fail, whether or not there is room for it. -/
theorem handOver_ne_err (addr : SocketAddr) (buf : List UInt8) (bufs : List (List UInt8))
    (data : List UInt8) (buffers : RecvBuffers) (kind : IoErrorKind) :
    (RelayUdpSocket.handOver addr buf bufs data buffers).1 ≠ .err kind := by
  have hready : ∀ (len : Nat) (b : RecvBuffers),
      ((RelayUdpSocket.setMeta addr len >>= fun _ => pure (Poll.ready 1)) b).1 ≠ .err kind := by
    intro len b
    rw [Call.bind_apply]
    have hmeta := setMeta_ne_err addr len b kind
    split
    · exact nofun
    · next heq =>
      rw [heq] at hmeta
      exact fun herr => hmeta (by rw [Outcome.err.inj herr])
    · exact nofun
  unfold RelayUdpSocket.handOver
  split
  · exact hready 0 buffers
  · exact hready data.length _

theorem pollRecv_ne_err (s : IceLink) (input : IceStep) {result : Outcome IoErrorKind (Poll Nat)}
    {buffers : RecvBuffers} (hout : (s.step input).1 = some (.pollRecv result buffers))
    (kind : IoErrorKind) : result ≠ .err kind := by
  have heffect := s.step_effect input
  rw [hout] at heffect
  generalize (s.step input).2 = s' at heffect
  cases heffect with
  | noBuffer | pending => exact nofun
  | handedOver => exact handOver_ne_err _ _ _ _ _ kind

/-- Once the bridge has stopped, nothing is received and no task is woken any more; `try_send`
reports an error, and no poll ever does. -/
theorem ice_silent_after_stop (s : IceLink) (hstop : s.bridge = .stopped) (inputs : List IceStep) :
    ∀ e ∈ run IceLink.step s inputs, StoppedSince s e.post ∧
      (∀ transmit, e.input = .trySend transmit → e.pre.live = true →
        e.out = some (.trySend (.error .other))) ∧
      ∀ result buffers, e.out = some (.pollRecv result buffers) → ∀ kind, result ≠ .err kind := by
  have hrun : ∀ js : List IceStep, StoppedSince s (endState IceLink.step s js) := by
    intro js
    induction js using List.reverseRecOn with
    | nil => exact ⟨hstop, List.suffix_refl _, id⟩
    | append_singleton js input ih =>
      rw [endState_snoc]
      exact ih.step input
  intro e he
  obtain ⟨before, -, -, hentry⟩ := mem_run he
  generalize e.input = input at hentry
  subst hentry
  refine ⟨(hrun before).step input, fun transmit htransmit hlive => ?_,
    fun result buffers hout kind => ?_⟩
  · obtain rfl : input = .trySend transmit := htransmit
    have hbridge := (hrun before).stopped
    have hlive : (endState IceLink.step s before).live = true := hlive
    simp [stepEntry, IceLink.step, IceLink.trySend, hlive, hbridge]
  · exact pollRecv_ne_err _ input hout kind

/-- The connection fails before Quinn polls. -/
theorem ice_silent_after_stop_one :
    StoppedSince ((IceLink.new (.v4 (Bytes.fill 4 1) 5)).received (.error ()))
      (((IceLink.new (.v4 (Bytes.fill 4 1) 5)).received (.error ())).step
        (.pollRecv ⟨[[0]], [⟨.v4 (Bytes.fill 4 0) 0, 0, 0⟩]⟩)).2 :=
  (ice_silent_after_stop ((IceLink.new (.v4 (Bytes.fill 4 1) 5)).received (.error ())) rfl
    [.pollRecv ⟨[[0]], [⟨.v4 (Bytes.fill 4 0) 0, 0, 0⟩]⟩] _ List.mem_cons_self).1

end Blackwing.Transport
