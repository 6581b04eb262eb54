import Blackwing.Encoder.Conversion
import Blackwing.Lib.RefChain
import Blackwing.Lib.Run

/-!
# The encoder thread

`bw-encoder/src/pipeline.rs`: a thread drains its input channel to the newest frame,
encodes it, and offers the result to a bounded channel. A frame that finds the channel
full is dropped, although the encoder will refer to it; so the thread then asks for a
keyframe.

* `pass`: one pass of the loop. `Pass` holds what it is given from outside, among it
  whether the channel is full.
* `Streaming`: the invariant. Unless an IDR picture comes next, the last frame that was
  encoded was delivered, and the counter has seen every frame since the last IDR picture.
* `video_reference_chain`: for every run, the numbering, the references and the spacing
  of the IDR pictures.
-/

namespace Blackwing.Encoder

variable {L : OpenH264}

/-- The result of `try_send`. -/
inductive TrySend where
  | sent
  | full
  | closed
deriving DecidableEq

/-- What one pass of the loop is given: the frame it receives, the newer ones it drains, what the
crate sees, and the state of the output channel. -/
structure Pass (L : OpenH264) where
  frame : Frame
  newer : List Frame
  oracle : L.Oracle
  trySend : TrySend

/-- The frame that is left after draining. -/
def Pass.newest (p : Pass L) : Frame := p.newer.foldl (fun _ newer => newer) p.frame

/-- A frame that was encoded, and whether it was delivered. -/
structure Encoded where
  frame : EncodedFrame
  sent : Bool
deriving DecidableEq

/-- The thread of `EncoderPipeline`. It stops running when the output is closed, and when it
panics. -/
structure EncoderThread (L : OpenH264) where
  backend : OpenH264Backend L
  sequence : UInt64
  running : Bool

namespace EncoderThread

/-- `EncoderPipeline::spawn`. -/
def spawn (backend : OpenH264Backend L) : EncoderThread L := ⟨backend, 0, true⟩

/-- The refresh of the references that a refresh frame asks for. -/
def refreshed (t : EncoderThread L) (frame : Frame) : EncoderThread L :=
  { t with backend := if frame.isRefresh then t.backend.forceKeyframe else t.backend }

/-- What follows the result of `try_send`. -/
def afterSend (t : EncoderThread L) : TrySend → EncoderThread L
  | .sent =>
    match (Outcome.add64 t.sequence 1 : Outcome Unit UInt64) with
    | .ok sequence => { t with sequence }
    | _ => { t with running := false }
  | .full => { t with backend := t.backend.forceKeyframe }
  | .closed => { t with backend := t.backend.stop, running := false }

/-- One pass of the loop. -/
def pass (t : EncoderThread L) (p : Pass L) : Option Encoded × EncoderThread L :=
  if t.running then
    match (t.refreshed p.newest).backend.encodeFrame p.oracle p.newest t.sequence with
    | (.ok frame, backend) =>
      (some ⟨frame, p.trySend = .sent⟩, afterSend { t with backend } p.trySend)
    | (.err _, backend) => (none, { t with backend })
    | (.panicked, backend) => (none, { t with backend, running := false })
  else (none, t)

end EncoderThread

open EncoderThread OpenH264Backend

/-- A call of `start`. -/
structure StartCall (L : OpenH264) where
  oracle : L.Oracle
  width : UInt32
  height : UInt32
  config : EncoderConfig

/-- A new backend on which `start` was called, any number of times. -/
def OpenH264Backend.started (starts : List (StartCall L)) : OpenH264Backend L :=
  starts.foldl (fun b c => (start c.oracle c.width c.height c.config b).2) .new

/-- The frames that are encoded in a run of the thread, oldest first. -/
def encodedFrames (backend : OpenH264Backend L) (passes : List (Pass L)) : List Encoded :=
  (run pass (.spawn backend) passes).filterMap Entry.out

/-- Those of them that are delivered. -/
def delivered (encoded : List Encoded) : List EncodedFrame :=
  (encoded.filter (·.sent)).map (·.frame)

/-- The delivered frames are numbered from 0. -/
def Numbered (encoded : List Encoded) : Prop :=
  (delivered encoded).map (·.sequence.toNat) = List.range (delivered encoded).length

def Encoded.Idr (e : Encoded) : Prop := IsIdr e.frame.payload

def Encoded.Sent (e : Encoded) : Prop := e.sent = true

/-! ## The invariant -/

/-- What a running thread keeps, given the frames encoded so far. -/
structure Ready (interval : UInt32) (h : List Encoded) (t : EncoderThread L) : Prop where
  interval : t.backend.config.keyframeInterval = interval
  next : t.sequence.toNat = (delivered h).length
  due : t.backend.IntraNext ∨
    EndsSent Encoded.Sent h ∧ Since Encoded.Idr t.backend.framesSinceIdr.toNat h

/-- The invariant of the thread. -/
structure Streaming (interval : UInt32) (h : List Encoded) (t : EncoderThread L) : Prop where
  numbered : Numbered h
  chained : Chained Encoded.Idr Encoded.Sent h
  spaced : 0 < interval → Spaced Encoded.Idr interval.toNat h
  ready : t.running = true → Ready interval h t

namespace PipelineLemmas

variable {interval : UInt32} {h : List Encoded} {t : EncoderThread L}

theorem delivered_sent (h : List Encoded) (f : EncodedFrame) :
    delivered (h ++ [⟨f, true⟩]) = delivered h ++ [f] := by
  simp [delivered]

theorem delivered_dropped (h : List Encoded) (f : EncodedFrame) :
    delivered (h ++ [⟨f, false⟩]) = delivered h := by
  simp [delivered]

theorem ready_refreshed (hL : L.Specified) (ht : Ready interval h t) (frame : Frame) :
    Ready interval h (t.refreshed frame) := by
  unfold refreshed
  split
  · exact ⟨ht.interval, ht.next, Or.inl (forceKeyframe_intraNext hL _)⟩
  · exact ht

theorem numbered_sent {f : EncodedFrame} (hn : Numbered h)
    (hf : f.sequence.toNat = (delivered h).length) : Numbered (h ++ [⟨f, true⟩]) := by
  rw [Numbered, delivered_sent, List.map_append, hn, List.length_append, List.map_singleton, hf]
  exact List.range_succ.symm

theorem numbered_dropped {f : EncodedFrame} (hn : Numbered h) : Numbered (h ++ [⟨f, false⟩]) := by
  rw [Numbered, delivered_dropped]
  exact hn

/-- The frame is appended to the history, and the thread goes on as `try_send` says. -/
theorem streaming_encoded (hL : L.Specified) (hs : Streaming interval h t)
    (ht : Ready interval h t) {f : EncodedFrame} {b : OpenH264Backend L} {r : TrySend}
    (hinterval : b.config.keyframeInterval = interval) (hnumbered : f.sequence = t.sequence)
    (hchain : ¬ IsIdr f.payload → EndsSent Encoded.Sent h)
    (hspace : 0 < interval → Since Encoded.Idr interval.toNat (h ++ [⟨f, r = .sent⟩]))
    (hsince : Since Encoded.Idr b.framesSinceIdr.toNat (h ++ [⟨f, r = .sent⟩])) :
    Streaming interval (h ++ [⟨f, r = .sent⟩]) (afterSend { t with backend := b } r) := by
  have hchained : Chained Encoded.Idr Encoded.Sent (h ++ [⟨f, r = .sent⟩]) :=
    chained_snoc hs.chained fun _ => hchain
  have hspaced : 0 < interval → Spaced Encoded.Idr interval.toNat (h ++ [⟨f, r = .sent⟩]) :=
    fun hpos => spaced_snoc (hs.spaced hpos) (hspace hpos)
  cases r with
  | sent =>
    refine ⟨numbered_sent hs.numbered (hnumbered ▸ ht.next), hchained, hspaced, fun hrun => ?_⟩
    unfold afterSend at hrun ⊢
    rcases Outcome.add64_cases (ε := Unit) t.sequence 1 with ⟨n, hn, hadd⟩ | ⟨-, hadd⟩
    · rw [hadd]
      refine ⟨hinterval, ?_, Or.inr ⟨⟨h, _, rfl, rfl⟩, hsince⟩⟩
      show n.toNat = (delivered (h ++ [⟨f, true⟩])).length
      rw [delivered_sent, List.length_append, ← ht.next]
      exact hn
    · rw [hadd] at hrun
      cases hrun
  | full =>
    -- the frame is lost, and an IDR picture comes next
    refine ⟨numbered_dropped hs.numbered, hchained, hspaced, fun _ => ⟨hinterval, ?_, ?_⟩⟩
    · show t.sequence.toNat = (delivered (h ++ [⟨f, false⟩])).length
      rw [delivered_dropped]
      exact ht.next
    · exact Or.inl (forceKeyframe_intraNext hL b)
  | closed => exact ⟨numbered_dropped hs.numbered, hchained, hspaced, fun hrun => nomatch hrun⟩

/-- One pass keeps the invariant. -/
theorem streaming_pass (hL : L.Specified) (hs : Streaming interval h t) (p : Pass L) :
    Streaming interval (h ++ (pass t p).1.toList) (pass t p).2 := by
  unfold EncoderThread.pass
  split
  · next hrun =>
    have ht := ready_refreshed hL (hs.ready hrun) p.newest
    have hcases := encodeFrame_cases hL p.oracle p.newest t.sequence (t.refreshed p.newest).backend
    generalize (t.refreshed p.newest).backend.encodeFrame p.oracle p.newest t.sequence = x
      at hcases ⊢
    cases hcases with
    | idr f b hconfig hnumbered hidr =>
      refine streaming_encoded hL hs (hs.ready hrun) (hconfig ▸ ht.interval) hnumbered
        (fun hno => absurd hidr hno) (fun _ => since_snoc_key hidr) (since_snoc_key hidr)
    | inter f b hconfig hnumbered hno hnotDue hwithin hcounted =>
      obtain ⟨hlast, hsince⟩ := ht.due.resolve_left hnotDue
      have hsince' := since_snoc (a := ⟨f, p.trySend = .sent⟩) hsince
      refine streaming_encoded hL hs (hs.ready hrun) (hconfig ▸ ht.interval) hnumbered
        (fun _ => hlast) (fun hpos => hsince'.mono ?_) (hcounted ▸ hsince')
      rw [WithinInterval, ht.interval] at hwithin
      exact UInt32.lt_iff_toNat_lt.mp (hwithin hpos)
    | failed e b hkept =>
      rw [Option.toList_none, List.append_nil]
      refine ⟨hs.numbered, hs.chained, hs.spaced,
        fun _ => ⟨hkept.config ▸ ht.interval, ht.next, ?_⟩⟩
      rcases hkept.next with hnext | rfl
      · exact Or.inl hnext
      · exact ht.due
    | panicked b =>
      rw [Option.toList_none, List.append_nil]
      exact ⟨hs.numbered, hs.chained, hs.spaced, fun hstop => nomatch hstop⟩
  · rw [Option.toList_none, List.append_nil]
    exact hs

theorem started_intraNext (hL : L.Specified) (starts : List (StartCall L)) :
    (OpenH264Backend.started starts).IntraNext := by
  unfold OpenH264Backend.started
  refine List.foldlRecOn starts _ (motive := IntraNext) (fun e he => nomatch he) ?_
  intro b hb c _
  have hstart := @start_wp L c.oracle b hL c.width c.height c.config
  unfold Call.wp at hstart
  split at hstart
  · next hs => rw [hs]; exact hstart.2
  · next hs => rw [hs, hstart]; exact hb
  · next hs => rw [hs, hstart]; exact hb

/-- Every run keeps the invariant. -/
theorem streaming_run (hL : L.Specified) (starts : List (StartCall L)) (passes : List (Pass L)) :
    Streaming (OpenH264Backend.started starts).config.keyframeInterval
      (encodedFrames (.started starts) passes)
      (endState pass (.spawn (.started starts)) passes) := by
  refine run_induction (P := fun h t => Streaming _ (h.filterMap Entry.out) t) ?_ ?_ passes
  · exact ⟨rfl, chained_nil, fun _ => spaced_nil,
      fun _ => ⟨rfl, rfl, Or.inl (started_intraNext hL starts)⟩⟩
  · intro h t p hs
    rw [filterMap_snoc]
    exact streaming_pass hL hs p

end PipelineLemmas

open PipelineLemmas

/-- For every run of the thread, whatever fails, is dropped, refreshed or resized: the delivered
frames are numbered from 0; the frame encoded before a delivered frame that is no IDR picture was
delivered; and under a positive keyframe interval at most so many frames in a row are no IDR
pictures. -/
theorem video_reference_chain (hL : L.Specified) (starts : List (StartCall L))
    (passes : List (Pass L)) :
    (delivered (encodedFrames (.started starts) passes)).map (·.sequence.toNat) =
      List.range (delivered (encodedFrames (.started starts) passes)).length ∧
    (∀ before e after, encodedFrames (.started starts) passes = before ++ e :: after →
      e.sent = true → ¬ IsIdr e.frame.payload →
      ∃ earlier e', before = earlier ++ [e'] ∧ e'.sent = true) ∧
    (0 < (OpenH264Backend.started starts).config.keyframeInterval →
      ∀ frames, frames <:+: encodedFrames (.started starts) passes →
        (∀ e ∈ frames, ¬ IsIdr e.frame.payload) →
        frames.length ≤ (OpenH264Backend.started starts).config.keyframeInterval.toNat) :=
  have hs := streaming_run hL starts passes
  ⟨hs.numbered, hs.chained, hs.spaced⟩

/-- An encoder whose state is whether an intra frame comes next. Its calls fail when they are told
to. -/
def OpenH264.plain : OpenH264 where
  State := Bool
  Oracle := Bool
  create fails := if fails then .err "no encoder" else .ok true
  forceIntraFrame _ := true
  encode fails _ intra :=
    if fails then (.err "no bitstream", intra)
    else (.ok [0, 0, 0, 1, if intra then 0x65 else 0x41, 0x88], false)

theorem OpenH264.plain_specified : OpenH264.plain.Specified := by
  have hintra : OpenH264.plain.IntraNext true := by
    intro fails source payload h
    cases fails with
    | false =>
      cases h
      exact isIdr_sound (by decide)
    | true => cases h
  refine ⟨fun {fails e} h => ?_, fun _ => hintra, fun {fails source e reason} h => ?_⟩
  · cases fails with
    | false =>
      cases h
      exact hintra
    | true => cases h
  · cases fails with
    | false => cases h
    | true => rfl

/-- A captured frame of 16 by 16 pixels. -/
def Frame.small (isRefresh : Bool) : Frame where
  width := 16
  height := 16
  stride := 64
  timestampUs := 0
  buffer := List.replicate 1024 128
  isRefresh

/-- The thread with a plain encoder of this size. -/
def smallThread (intra : Bool) (framesSinceIdr : UInt32) (sequence : UInt64) : EncoderThread .plain :=
  ⟨⟨some intra, 16, 16, .default, framesSinceIdr⟩, sequence, true⟩

namespace PipelineLemmas

theorem hasPixels_small (isRefresh : Bool) : (Frame.small isRefresh).hasPixels = true := by
  rw [Frame.hasPixels, Frame.small, List.length_replicate]
  dsimp only
  decide

theorem pass_of_err {t u : EncoderThread L} {p : Pass L} {e : EncoderError} (hrun : t.running = true)
    (hflag : t.refreshed p.newest = u)
    (hencode : u.backend.encodeFrame p.oracle p.newest t.sequence = (.err e, t.backend)) :
    pass t p = (none, t) := by
  unfold EncoderThread.pass
  rw [if_pos hrun, hflag, hencode]

theorem pass_of_ok {t u : EncoderThread L} {p : Pass L} {f : EncodedFrame} {b : OpenH264Backend L}
    (hrun : t.running = true) (hflag : t.refreshed p.newest = u)
    (hencode : u.backend.encodeFrame p.oracle p.newest t.sequence = (.ok f, b)) :
    pass t p = (some ⟨f, p.trySend = .sent⟩, afterSend { t with backend := b } p.trySend) := by
  unfold EncoderThread.pass
  rw [if_pos hrun, hflag, hencode]

/-- The plain encoder does not look at the picture. -/
theorem encodeFrame_small (fails isRefresh intra : Bool) {n : UInt32} (hn : n < 120) (sequence : UInt64)
    (r : Outcome EncoderError EncodedFrame) (b : OpenH264Backend .plain)
    (h : encodeSource (L := .plain) fails (.small isRefresh) sequence ⟨16, 16, [], [], []⟩ intra
      (smallThread intra n sequence).backend = (r, b)) :
    encodeFrame (L := .plain) fails (.small isRefresh) sequence (smallThread intra n sequence).backend =
      (r, b) := by
  let buffer := (Frame.small isRefresh).buffer
  have hyuv : bgraToYuv420p buffer 16 16 = .ok (converted buffer 16 16) :=
    @bgraToYuv420p_eq buffer 16 16 rfl rfl (by decide) List.length_replicate.ge
  obtain ⟨source, hsource⟩ : ∃ source, basicYuvSource 16 16 (converted buffer 16 16) = .ok source :=
    ⟨_, @basicYuvSource_eq 16 16 _ (by decide) length_converted⟩
  have hencode := @encodePrepared_of_source .plain fails (.small isRefresh) sequence
    (smallThread intra n sequence).backend intra _ _ rfl hyuv hsource
  have hstarted : ensureStarted (L := .plain) fails (.small isRefresh)
      (smallThread intra n sequence).backend = (.ok (), (smallThread intra n sequence).backend) :=
    if_neg (not_or.mpr ⟨Bool.false_ne_true, not_or.mpr ⟨not_not.mpr rfl, not_not.mpr rfl⟩⟩)
  have hinterval : forceAtInterval (smallThread intra n sequence).backend =
      (.ok (), (smallThread intra n sequence).backend) := if_neg fun h => UInt32.not_le.mpr hn h.2
  have hprepare := (prepare_of_pixels (L := .plain) (hasPixels_small isRefresh) fails _).trans
    ((Call.bind_of_ok hstarted _).trans hinterval)
  exact (Call.bind_of_ok hprepare _).trans (hencode.trans h)

end PipelineLemmas

/-- Six passes: an IDR picture, a failed encode, two frames that refer to the one before them of
which the second is dropped, the IDR picture after that, and a refresh. -/
theorem video_reference_chain_six_passes :
    let starts : List (StartCall .plain) := [⟨false, 16, 16, .default⟩]
    let passes : List (Pass .plain) :=
      [⟨.small false, [], false, .sent⟩, ⟨.small false, [.small true, .small false], true, .sent⟩,
        ⟨.small false, [], false, .sent⟩, ⟨.small false, [], false, .full⟩,
        ⟨.small false, [], false, .sent⟩, ⟨.small false, [.small true], false, .sent⟩]
    (encodedFrames (.started starts) passes).map (fun e => (isIdr e.frame.payload, e.sent)) =
        [(true, true), (false, true), (false, false), (true, true), (true, true)] ∧
      (delivered (encodedFrames (.started starts) passes)).map (·.sequence.toNat) =
        List.range (delivered (encodedFrames (.started starts) passes)).length := by
  intro starts passes
  refine ⟨?_, (video_reference_chain OpenH264.plain_specified starts passes).1⟩
  have h0 : (smallThread true 0 0).pass ⟨.small false, [], false, .sent⟩ = (_, smallThread false 0 1) :=
    pass_of_ok (u := smallThread true 0 0) rfl rfl (encodeFrame_small _ _ _ (by decide) _ (.ok _) _ rfl)
  have h1 : (smallThread false 0 1).pass ⟨.small false, [.small true, .small false], true, .sent⟩ =
      (none, smallThread false 0 1) :=
    pass_of_err (u := smallThread false 0 1) rfl rfl
      (encodeFrame_small _ _ _ (by decide) _ (.err _) _ rfl)
  have h2 : (smallThread false 0 1).pass ⟨.small false, [], false, .sent⟩ =
      (_, smallThread false 1 2) :=
    pass_of_ok (u := smallThread false 0 1) (b := (smallThread false 1 1).backend) rfl rfl
      (encodeFrame_small _ _ _ (by decide) _ (.ok _) _ rfl)
  have h3 : (smallThread false 1 2).pass ⟨.small false, [], false, .full⟩ = (_, smallThread true 0 2) :=
    pass_of_ok (u := smallThread false 1 2) (b := (smallThread false 2 2).backend) rfl rfl
      (encodeFrame_small _ _ _ (by decide) _ (.ok _) _ rfl)
  have h4 : (smallThread true 0 2).pass ⟨.small false, [], false, .sent⟩ = (_, smallThread false 0 3) :=
    pass_of_ok (u := smallThread true 0 2) rfl rfl (encodeFrame_small _ _ _ (by decide) _ (.ok _) _ rfl)
  have h5 : (smallThread false 0 3).pass ⟨.small false, [.small true], false, .sent⟩ =
      (_, smallThread false 0 4) :=
    pass_of_ok (u := smallThread true 0 3) rfl rfl (encodeFrame_small _ _ _ (by decide) _ (.ok _) _ rfl)
  have hspawn : EncoderThread.spawn (.started starts) = smallThread true 0 0 := rfl
  simp only [encodedFrames, hspawn, passes, run_cons, run_nil, stepEntry, h0, h1, h2, h3, h4, h5]
  decide

end Blackwing.Encoder
