import Blackwing.Encoder.H264
import Blackwing.Lib.Run
import Mathlib.Order.Lattice.Nat

/-!
# The capture thread

The loop of `CaptureThread::spawn_with_config` (`bw-capture/src/thread.rs`). It offers frames to the
channel with `try_send` and does not look at what becomes of an offer. Between two passes any time
may go by, and a sleep may take longer than asked.

* `capturePass`: one pass. `Paced`: what holds between two passes.
* `capture_is_paced`: in every run the offers keep their distance, across idle times and restarts of
  the backend, and a refresh repeats the newest frame that was captured, with the cursor of now.
-/

namespace Blackwing.Capture

open Encoder (Frame)

/-! ## The loop -/

/-- `FrameTimerConfig`. -/
structure FrameTimerConfig where
  idleSleepMs : Nat
  refreshIntervalMs : Nat
  minFrameIntervalMs : Nat

/-- `FrameTimerConfig::default`. -/
def FrameTimerConfig.default : FrameTimerConfig := ⟨16, 1000, 33⟩

/-- `Duration::from_millis`, in nanoseconds. -/
def fromMillis (ms : Nat) : Nat := ms * 10 ^ 6

/-- The errors of `next_frame` that the loop tells apart. -/
inductive CaptureError where
  | stopped
  | other

/-- `CursorInfo`, as far as the compositor reads it. -/
structure CursorInfo where
  x : Int32
  y : Int32
  visible : Bool
deriving DecidableEq

/-- A frame with its cursor. -/
structure CursorFrame extends Frame where
  cursor : Option CursorInfo
deriving DecidableEq

/-- What a pass is given: whether it is told to stop, what `next_frame` and `cursor_info` return,
whether the backend can be started again, the time until `next_frame` returns, and the delay of the
pass after that. -/
structure CapturePass where
  stop : Bool
  frame : Except CaptureError CursorFrame
  cursorInfo : Except CaptureError CursorInfo
  restarts : Bool
  elapsed : Nat
  delay : Nat

/-- The variables of the loop, with the last reading of the clock. -/
structure CaptureLoop where
  lastFrame : Option CursorFrame
  lastRealFrameTime : Nat
  clock : Nat
  running : Bool

/-- A frame that is offered to the channel, and the time that is noted with it. -/
structure Offer where
  frame : CursorFrame
  refresh : Bool
  time : Nat

/-- The frame of a refresh. It keeps the cursor of the cached one if there is no newer. -/
def refreshFrame (cursorInfo : Except CaptureError CursorInfo) (cached : CursorFrame) : CursorFrame :=
  let frame := { cached with isRefresh := true, timestampUs := 0 }
  match cursorInfo with
  | .ok cursor => { frame with cursor := some cursor }
  | .error _ => frame

/-- The variables when the thread begins. -/
def CaptureLoop.start (now : Nat) : CaptureLoop := ⟨none, now, now, true⟩

variable (config : FrameTimerConfig)

/-- What is done with a frame, empty while the screen is idle. -/
def captured (l : CaptureLoop) (p : CapturePass) (frame : CursorFrame) : Option Offer × CaptureLoop :=
  if frame.buffer.isEmpty then
    let now := l.clock + p.elapsed + fromMillis config.idleSleepMs
    match l.lastFrame with
    | some cached =>
      if 0 < config.refreshIntervalMs ∧
          now - l.lastRealFrameTime ≥ fromMillis config.refreshIntervalMs then
        (some ⟨refreshFrame p.cursorInfo cached, true, now + p.delay⟩,
          { l with lastRealFrameTime := now + p.delay, clock := now + p.delay })
      else (none, { l with clock := now })
    | none => (none, { l with clock := now })
  else
    let now := l.clock + p.elapsed
    let slept := fromMillis config.minFrameIntervalMs - (now - l.lastRealFrameTime)
    (some ⟨frame, false, now + slept + p.delay⟩,
      ⟨some frame, now + slept + p.delay, now + slept + p.delay, l.running⟩)

/-- One pass. A loop that has ended does nothing. -/
def capturePass (l : CaptureLoop) (p : CapturePass) : Option Offer × CaptureLoop :=
  if l.running = false then (none, l)
  else if p.stop then (none, { l with running := false })
  else
    match p.frame with
    | .ok frame => captured config l p frame
    | .error .stopped => (none, { l with running := false })
    | .error .other =>
      if p.restarts then
        let now := l.clock + p.elapsed + fromMillis 200 + p.delay
        (none, ⟨none, now, now, true⟩)
      else (none, { l with running := false })

/-! ## Offers -/

/-- The least distance of two offers. -/
def FrameTimerConfig.gap : Nat :=
  if config.refreshIntervalMs = 0 then fromMillis config.minFrameIntervalMs
  else min (fromMillis config.minFrameIntervalMs) (fromMillis config.refreshIntervalMs)

/-- The newest offer that is not a refresh. -/
def newestCaptured (offers : List Offer) : Option Offer := (offers.filter (!·.refresh)).getLast?

/-- An offer of a pass, with the offers before it: the frame of the pass, or a refresh of the newest
captured one. -/
def Repeats (before : List Offer) (p : CapturePass) (o : Offer) : Prop :=
  if o.refresh then
    (newestCaptured before).map (refreshFrame p.cursorInfo ∘ Offer.frame) = some o.frame
  else p.frame = .ok o.frame

/-- What holds of the offers so far and of the variables. -/
structure Paced (offers : List Offer) (l : CaptureLoop) : Prop where
  clock : l.lastRealFrameTime ≤ l.clock
  past : ∀ o ∈ offers, o.time ≤ l.lastRealFrameTime
  spaced : offers.Pairwise fun o o' => o.time + config.gap ≤ o'.time
  cached : ∀ frame, l.lastFrame = some frame → (newestCaptured offers).map Offer.frame = some frame

namespace Paced

variable {config} {offers : List Offer} {l l' : CaptureLoop}

section

variable (h : Paced config offers l)
include h

theorem quiet (hclock : l'.lastRealFrameTime ≤ l'.clock)
    (hlast : l.lastRealFrameTime ≤ l'.lastRealFrameTime)
    (hframe : l'.lastFrame = none ∨ l'.lastFrame = l.lastFrame) : Paced config offers l' where
  clock := hclock
  past o ho := (h.past o ho).trans hlast
  spaced := h.spaced
  cached frame hf := by
    rcases hframe with hnone | hsame
    · cases hnone.symm.trans hf
    · exact h.cached frame (hsame ▸ hf)

theorem offer {o : Offer} (hclock : l'.clock = o.time) (hlast : l'.lastRealFrameTime = o.time)
    (hgap : l.lastRealFrameTime + config.gap ≤ o.time)
    (hcached : ∀ frame, l'.lastFrame = some frame →
      (newestCaptured (offers ++ [o])).map Offer.frame = some frame) :
    Paced config (offers ++ [o]) l' where
  clock := by rw [hclock, hlast]
  past := by
    refine List.forall_mem_append.mpr ⟨fun o' ho' => ?_, List.forall_mem_singleton.mpr hlast.ge⟩
    rw [hlast]
    exact (h.past o' ho').trans ((Nat.le_add_right _ _).trans hgap)
  spaced := by
    refine List.pairwise_append.mpr ⟨h.spaced, List.pairwise_singleton _ _, fun o' ho' o'' ho'' => ?_⟩
    rw [List.mem_singleton.mp ho'']
    exact (Nat.add_le_add_right (h.past o' ho') _).trans hgap
  cached := hcached

theorem captured (p : CapturePass) (frame : CursorFrame) :
    Paced config (offers ++ (Capture.captured config l p frame).1.toList)
      (Capture.captured config l p frame).2 := by
  have hclock := h.clock
  unfold Capture.captured
  split
  · have hidle : Paced config (offers ++ [])
        { l with clock := l.clock + p.elapsed + fromMillis config.idleSleepMs } := by
      rw [List.append_nil]
      exact h.quiet (by dsimp only; omega) le_rfl (Or.inr rfl)
    split
    · next cached hcached =>
      dsimp only
      split
      · next hdue =>
        have hgap : config.gap ≤ fromMillis config.refreshIntervalMs := by
          rw [FrameTimerConfig.gap, if_neg hdue.1.ne']
          exact min_le_right _ _
        have hnewest := h.cached cached hcached
        refine h.offer rfl rfl (by dsimp only; omega) fun frame hframe => ?_
        rw [newestCaptured, List.filter_append]
        exact hframe.symm.trans hcached ▸ (by simpa [newestCaptured] using hnewest)
      · exact hidle
    · exact hidle
  · have hgap : config.gap ≤ fromMillis config.minFrameIntervalMs := by
      rw [FrameTimerConfig.gap]
      split
      · exact le_rfl
      · exact min_le_left _ _
    refine h.offer rfl rfl (by dsimp only; omega) fun frame' hframe => ?_
    rw [← hframe]
    simp [newestCaptured]

theorem pass (p : CapturePass) :
    Paced config (offers ++ (capturePass config l p).1.toList) (capturePass config l p).2 := by
  have hstay : ∀ running, Paced config (offers ++ []) { l with running := running } := fun _ => by
    rw [List.append_nil]
    exact h.quiet h.clock le_rfl (Or.inr rfl)
  have hclock := h.clock
  unfold capturePass
  split
  · exact hstay l.running
  split
  · exact hstay false
  split
  · exact h.captured p _
  · exact hstay false
  · split
    · rw [Option.toList_none, List.append_nil]
      exact h.quiet le_rfl (by dsimp only; omega) (Or.inl rfl)
    · exact hstay false

theorem repeats {p : CapturePass} {o : Offer} (hout : (capturePass config l p).1 = some o) :
    Repeats offers p o := by
  unfold capturePass at hout
  split at hout
  · cases hout
  split at hout
  · cases hout
  split at hout
  · next frame hframe =>
    unfold Capture.captured at hout
    split at hout
    · split at hout
      · next cached hcached =>
        dsimp only at hout
        split at hout
        · cases hout
          rw [Repeats, if_pos rfl, ← Option.map_map, h.cached cached hcached]
          rfl
        · cases hout
      · cases hout
    · cases hout
      exact hframe
  · cases hout
  · split at hout <;> cases hout

end

end Paced

/-- The run of the loop. -/
def captureRun (now : Nat) (passes : List CapturePass) :
    List (Entry CaptureLoop CapturePass (Option Offer)) :=
  run (capturePass config) (.start now) passes

/-- Two offers are apart by the shorter of the two intervals. Each is the frame that the backend
returned in the pass or a refresh, which repeats the frame that was captured last, also if the
channel had no room for it, with the cursor of now if the backend knows it. -/
theorem capture_is_paced (now : Nat) (passes : List CapturePass) :
    (((captureRun config now passes).filterMap Entry.out).Pairwise fun o o' =>
      o.time + config.gap ≤ o'.time) ∧
    ∀ before e after, captureRun config now passes = before ++ e :: after →
      ∀ o, e.out = some o → Repeats (before.filterMap Entry.out) e.input o := by
  have hrun : Paced config ((captureRun config now passes).filterMap Entry.out)
        (endState (capturePass config) (.start now) passes) ∧
      ∀ before e after, captureRun config now passes = before ++ e :: after →
        ∀ o, e.out = some o → Repeats (before.filterMap Entry.out) e.input o := by
    refine run_induction (P := fun h l => Paced config (h.filterMap Entry.out) l ∧
      ∀ before e after, h = before ++ e :: after → ∀ o, e.out = some o →
        Repeats (before.filterMap Entry.out) e.input o) ?_ ?_ passes
    · exact ⟨⟨le_rfl, nofun, List.Pairwise.nil, nofun⟩, fun before e after h => absurd h (by simp)⟩
    · rintro h l p ⟨hpaced, hrepeats⟩
      rw [filterMap_snoc]
      exact ⟨hpaced.pass p, forall_split_snoc.mpr ⟨fun o hout => hpaced.repeats hout, hrepeats⟩⟩
  exact ⟨hrun.1.spaced, hrun.2⟩

/-- A picture, and a second later an idle screen with the cursor elsewhere. -/
def idlePasses (picture : CursorFrame) (cursor : CursorInfo) : List CapturePass :=
  [⟨false, .ok picture, .ok cursor, true, 0, 0⟩,
    ⟨false, .ok { picture with buffer := [] }, .ok cursor, true, 10 ^ 9, 0⟩]

/-- The refresh has the cursor where it is by then. -/
theorem capture_is_paced_idle :
    let picture : CursorFrame := ⟨⟨1, 1, 4, 7, [0, 0, 0, 255], false⟩, some ⟨0, 0, true⟩⟩
    ∃ before e o, captureRun .default 0 (idlePasses picture ⟨5, 6, true⟩) = before ++ [e] ∧
      e.out = some o ∧ o.frame = refreshFrame (.ok ⟨5, 6, true⟩) picture ∧
      Repeats (before.filterMap Entry.out) e.input o :=
  ⟨[_], _, _, rfl, rfl, rfl, (capture_is_paced .default 0 (idlePasses _ _)).2 [_] _ [] rfl _ rfl⟩

end Blackwing.Capture
