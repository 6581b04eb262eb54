import Blackwing.Encoder.OddSizes

/-!
# Refresh frames that are superseded

A refresh frame asks for a keyframe. The encoder thread drains its channel to the newest frame
before it looks at the flag, so the flag of a frame that is drained with a newer one behind it is
lost.

What is assumed of the crate is less than `OpenH264.Specified`: an encoder that is new, or that was
asked for an intra frame, owes an IDR picture until an encode succeeds (`OpenH264.KeepsIntra`).

1. `Attempt`: what `encode_frame` can do, with the sizes and with what is owed.
2. `LastEncoded`: where the last picture of a run came from, when no IDR picture is owed.
3. `Superseded`: the batches of frames in which a flag is lost.
4. `refresh_answered_iff`: in a schedule without these every refresh frame is answered by an IDR
   picture, whatever the crate does; and in any other schedule some crate answers it by another one.
-/

namespace Blackwing.Encoder

open EncoderThread OpenH264Backend PipelineLemmas

variable {L : OpenH264}

/-! ## Schedules -/

/-- The frames that one pass takes from the channel, oldest first. -/
structure Batch where
  frame : Frame
  newer : List Frame
deriving DecidableEq

def Batch.newest (a : Batch) : Frame := a.newer.foldl (fun _ newer => newer) a.frame

/-- A refresh frame is among the frames. -/
def Batch.HasRefresh (a : Batch) : Prop := ∃ f ∈ a.frame :: a.newer, f.isRefresh = true

instance (a : Batch) : Decidable a.HasRefresh := inferInstanceAs (Decidable (∃ f ∈ _, _))

def Pass.batch (p : Pass L) : Batch := ⟨p.frame, p.newer⟩

/-- The first frame encoded from the pass on that takes a refresh frame is an IDR picture. -/
def RefreshAnswered (backend : OpenH264Backend L) (passes : List (Pass L)) : Prop :=
  ∀ before p after, passes = before ++ p :: after → p.batch.HasRefresh →
    ∀ e, ((run pass (endState pass (.spawn backend) before) (p :: after)).filterMap
      Entry.out).head? = some e → e.Idr

/-- An encode of the frame can succeed. -/
structure Frame.Encodable (frame : Frame) : Prop where
  pixels : frame.hasPixels = true
  convertible : frame.Convertible

def Frame.SameSize (f g : Frame) : Prop := f.width = g.width ∧ f.height = g.height

instance (f g : Frame) : Decidable (f.SameSize g) := inferInstanceAs (Decidable (_ ∧ _))

/-- A refresh frame arrives after the batch `a` and up to the batch `m`. The newest frames of `a`
and of `m` can be encoded, at one size. No newest frame after `a` asks for a refresh, and none
before `m` stops the thread. -/
structure Superseded (a : Batch) (between : List Batch) (m : Batch) : Prop where
  first : a.newest.Encodable
  last : m.newest.Encodable
  size : m.newest.SameSize a.newest
  arrives : ∃ r ∈ between ++ [m], r.HasRefresh
  lost : ∀ r ∈ between ++ [m], r.newest.isRefresh = false
  alive : ∀ r ∈ between, r.newest.hasPixels = true → r.newest.SameSize a.newest →
    r.newest.Convertible

/-! ## What an encode can do -/

/-- The encoders in a state of `due` owe an IDR picture: the next encode that succeeds is one. -/
structure OpenH264.KeepsIntra (L : OpenH264) (due : L.State → Prop) : Prop where
  created : ∀ {ω e}, L.create ω = .ok e → due e
  forced : ∀ e, due (L.forceIntraFrame e)
  encoded : ∀ {ω source e payload}, due e → (L.encode ω source e).1 = .ok payload → IsIdr payload
  failed : ∀ {ω source e reason}, due e → (L.encode ω source e).1 = .err reason →
    due (L.encode ω source e).2

/-- The encoder, if there is one, owes an IDR picture. -/
def OpenH264Backend.Owes (due : L.State → Prop) (b : OpenH264Backend L) : Prop :=
  ∀ e, b.encoder = some e → due e

/-- The encoder runs at the size of the frame. -/
def OpenH264Backend.SizedFor (b : OpenH264Backend L) (frame : Frame) : Prop :=
  b.width = frame.width ∧ b.height = frame.height

/-- What `encode_frame` can do. A picture that is not an IDR picture comes from an encoder that owes
none and runs at the size of the frame. An error leaves an encoder that owes one, or one of the same
size as before. -/
inductive Attempt (due : L.State → Prop) (b : OpenH264Backend L) (frame : Frame) :
    Outcome EncoderError EncodedFrame × OpenH264Backend L → Prop
  | encoded (f : EncodedFrame) (b' : OpenH264Backend L) (frame_ok : frame.Encodable)
      (sized : b'.SizedFor frame) (key : IsIdr f.payload ∨ ¬ b.Owes due ∧ b.SizedFor frame) :
      Attempt due b frame (.ok f, b')
  | failed (e : EncoderError) (b' : OpenH264Backend L) (owes : b.Owes due → b'.Owes due)
      (kept : b'.Owes due ∨ (b'.width = b.width ∧ b'.height = b.height ∧
        (frame.hasPixels = true → b.SizedFor frame → frame.Convertible))) :
      Attempt due b frame (.err e, b')
  | panicked (b' : OpenH264Backend L) : Attempt due b frame (.panicked, b')

/-- What one pass of the thread can do. -/
inductive PassResult (due : L.State → Prop) (t : EncoderThread L) (p : Pass L) :
    Option Encoded × EncoderThread L → Prop
  | idle (stopped : t.running = false) : PassResult due t p (none, t)
  | encoded (e : Encoded) (t' : EncoderThread L) (alive : t.running = true)
      (frame_ok : p.newest.Encodable)
      (next : t'.backend.Owes due ∨ t'.backend.SizedFor p.newest ∨ t'.running = false)
      (key : e.Idr ∨
        p.newest.isRefresh = false ∧ ¬ t.backend.Owes due ∧ t.backend.SizedFor p.newest) :
      PassResult due t p (some e, t')
  | failed (t' : EncoderThread L) (alive : t.running = true)
      (owes : t.backend.Owes due → t'.backend.Owes due)
      (kept : t'.backend.Owes due ∨ (p.newest.isRefresh = false ∧
        t'.backend.width = t.backend.width ∧ t'.backend.height = t.backend.height ∧
        (p.newest.hasPixels = true → t.backend.SizedFor p.newest → p.newest.Convertible))) :
      PassResult due t p (none, t')
  | panicked (t' : EncoderThread L) (stopped : t'.running = false) : PassResult due t p (none, t')

/-- The entries of a run that ended in the backend: the last of them with a picture, at the size at
which the encoder runs, and those after it, none of which stopped the thread or asked for a
keyframe. -/
def LastEncoded (h : List (Entry (EncoderThread L) (Pass L) (Option Encoded)))
    (b : OpenH264Backend L) : Prop :=
  ∃ before e after, h = before ++ e :: after ∧ e.out.isSome = true ∧ e.input.newest.Encodable ∧
    b.SizedFor e.input.newest ∧ ∀ e' ∈ after, e'.out = none ∧ e'.input.newest.isRefresh = false ∧
      (e'.input.newest.hasPixels = true → e'.input.newest.SameSize e.input.newest →
        e'.input.newest.Convertible)

namespace RefreshLemmas

variable {due : L.State → Prop} {ω : L.Oracle} {frame : Frame} {sequence : UInt64}
  {b : OpenH264Backend L}

theorem owes_forceKeyframe (hL : L.KeepsIntra due) (b : OpenH264Backend L) :
    b.forceKeyframe.Owes due := by
  intro e he
  obtain ⟨e', -, rfl⟩ := Option.map_eq_some_iff.mp he
  exact hL.forced e'

theorem length_of_pixels (h : frame.hasPixels = true) :
    4 * (frame.width.toNat * frame.height.toNat) ≤ frame.buffer.length := by
  rw [Nat.mul_comm]
  exact ((hasPixels_iff frame).mp h).2

variable {e : L.State}

theorem forceAtInterval_cases (hL : L.KeepsIntra due) (hencoder : b.encoder = some e) :
    ∃ b₁ e₁, forceAtInterval b = (.ok (), b₁) ∧ b₁.encoder = some e₁ ∧ b₁.width = b.width ∧
      b₁.height = b.height ∧ (due e₁ ∨ b₁ = b) := by
  unfold forceAtInterval
  split
  · rw [hencoder]
    exact ⟨_, _, rfl, rfl, rfl, rfl, Or.inl (hL.forced e)⟩
  · exact ⟨b, e, rfl, hencoder, rfl, rfl, Or.inr rfl⟩

/-- Before the conversion: the call ends where it began, without pixels or without the encoder it
needs, or there is an encoder of the size of the frame. -/
theorem prepare_cases (hL : L.KeepsIntra due) (ω : L.Oracle) (frame : Frame)
    (b : OpenH264Backend L) :
    (∃ e, prepare ω frame b = (.err e, b) ∧ (frame.hasPixels = false ∨ b.Restarts frame)) ∨
    (∃ b₁ e₁, prepare ω frame b = (.ok (), b₁) ∧ frame.hasPixels = true ∧ b₁.encoder = some e₁ ∧
      b₁.SizedFor frame ∧ (due e₁ ∨ b₁ = b)) ∨
    ∃ b₁, prepare ω frame b = (.panicked, b₁) := by
  cases hpixels : frame.hasPixels with
  | false => exact Or.inl ⟨_, prepare_of_no_pixels hpixels ω b, Or.inl rfl⟩
  | true =>
    by_cases hrestarts : b.Restarts frame
    · cases hcreate : L.create ω with
      | ok e =>
        obtain ⟨b₁, e₁, hforce, hencoder, hwidth, hheight, hdue⟩ := forceAtInterval_cases hL
          (b := ⟨some e, frame.width, frame.height, b.config, 0⟩) rfl
        refine Or.inr (Or.inl ⟨b₁, e₁, ?_, rfl, hencoder, ⟨hwidth, hheight⟩, Or.inl ?_⟩)
        · rw [prepare_of_pixels hpixels,
            Call.bind_of_ok (ensureStarted_of_created hrestarts hcreate), hforce]
        · rcases hdue with hdue | rfl
          · exact hdue
          · cases hencoder
            exact hL.created hcreate
      | err e =>
        exact Or.inl ⟨_, prepare_of_not_created hpixels hrestarts hcreate, Or.inr hrestarts⟩
      | panicked =>
        have hpanic : ensureStarted ω frame b = (.panicked, b) := by
          rw [ensureStarted_of_restarts hrestarts, start_eq, hcreate]
        refine Or.inr (Or.inr ⟨b, ?_⟩)
        rw [prepare_of_pixels hpixels, Call.bind_of_panicked hpanic]
    · obtain ⟨⟨e, hencoder⟩, hwidth, hheight⟩ := not_restarts_iff.mp hrestarts
      obtain ⟨b₁, e₁, hforce, hencoder₁, hwidth₁, hheight₁, hdue⟩ := forceAtInterval_cases hL hencoder
      refine Or.inr (Or.inl ⟨b₁, e₁, ?_, rfl, hencoder₁,
        ⟨hwidth₁.trans hwidth, hheight₁.trans hheight⟩, hdue⟩)
      rw [prepare_of_pixels hpixels, Call.bind_of_ok (ensureStarted_of_running hrestarts ω), hforce]

/-- The second half of `encode_frame`, on a frame that can be converted. -/
theorem encodePrepared_eq (hencoder : b.encoder = some e) (hsized : b.SizedFor frame)
    (hlen : 4 * (frame.width.toNat * frame.height.toNat) ≤ frame.buffer.length)
    (hframe : frame.Convertible) :
    encodePrepared ω frame sequence b = encodeSource ω frame sequence (picture frame) e b := by
  have hpicture := pictureOf_eq hlen
  rw [if_pos hframe, Outcome.bind_eq_ok] at hpicture
  obtain ⟨yuv, hyuv, hsource⟩ := hpicture
  rw [← hsized.1, ← hsized.2] at hsource
  exact encodePrepared_of_source hencoder hyuv hsource

theorem encodePrepared_of_convertible (ω : L.Oracle) (sequence : UInt64)
    (hencoder : b.encoder = some e) (hsized : b.SizedFor frame)
    (hlen : 4 * (frame.width.toNat * frame.height.toNat) ≤ frame.buffer.length)
    (hframe : frame.Convertible) :
    (∃ payload f b', (L.encode ω (picture frame) e).1 = .ok payload ∧
      encodePrepared ω frame sequence b = (.ok f, b') ∧ f.payload = payload ∧
      b'.width = b.width ∧ b'.height = b.height) ∨
    (∃ reason, (L.encode ω (picture frame) e).1 = .err reason ∧
      encodePrepared ω frame sequence b = (.err (.encodeFailed reason),
        { b with encoder := some (L.encode ω (picture frame) e).2 })) ∨
    ∃ b', encodePrepared ω frame sequence b = (.panicked, b') := by
  rw [encodePrepared_eq hencoder hsized hlen hframe, encodeSource, Call.getState_bind]
  have hcall : ∀ {r}, (L.encode ω (picture frame) e).1 = r →
      encodeYuv ω (picture frame) e b = (r.mapErr .encodeFailed,
        { b with encoder := some (L.encode ω (picture frame) e).2 }) := by
    rintro _ rfl
    rfl
  cases hencode : (L.encode ω (picture frame) e).1 with
  | ok payload =>
    rw [Call.bind_of_ok (hcall hencode)]
    rcases countFrame_cases (isIdr payload)
        { b with encoder := some (L.encode ω (picture frame) e).2 } with ⟨n, hcount, -⟩ | hcount
    · rw [Call.bind_of_ok hcount]
      exact Or.inl ⟨payload, _, _, rfl, rfl, rfl, rfl, rfl⟩
    · exact Or.inr (Or.inr ⟨_, Call.bind_of_panicked hcount _⟩)
  | err reason => exact Or.inr (Or.inl ⟨reason, rfl, Call.bind_of_err (hcall hencode) _⟩)
  | panicked => exact Or.inr (Or.inr ⟨_, Call.bind_of_panicked (hcall hencode) _⟩)

/-- What `encode_frame` can do from the conversion on, with the backend `b₁` that `b` became. -/
theorem encodePrepared_attempt (hL : L.KeepsIntra due) {b₁ : OpenH264Backend L} {e₁ : L.State}
    (hpixels : frame.hasPixels = true) (hencoder : b₁.encoder = some e₁)
    (hsized : b₁.SizedFor frame) (hdue : due e₁ ∨ b₁ = b) :
    Attempt due b frame (encodePrepared ω frame sequence b₁) := by
  have hlen := length_of_pixels hpixels
  -- what the backend owes, the encoder that is called owes
  have howes : b.Owes due → due e₁ := by
    intro h
    rcases hdue with hdue | rfl
    · exact hdue
    · exact h e₁ hencoder
  by_cases hframe : frame.Convertible
  · rcases encodePrepared_of_convertible ω sequence hencoder hsized hlen hframe
      with ⟨payload, f, b', hencode, hcall, hpayload, hwidth, hheight⟩ |
        ⟨reason, hencode, hcall⟩ | ⟨b', hcall⟩
    · rw [hcall]
      refine .encoded f b' ⟨hpixels, hframe⟩ ⟨hwidth.trans hsized.1, hheight.trans hsized.2⟩ ?_
      by_cases hidr : IsIdr f.payload
      · exact Or.inl hidr
      · have hnot : ¬ due e₁ := fun h => hidr (hpayload ▸ hL.encoded h hencode)
        obtain rfl := hdue.resolve_left hnot
        exact Or.inr ⟨fun h => hnot (howes h), hsized⟩
    · rw [hcall]
      have hkept : due e₁ → ({ b₁ with encoder := some (L.encode ω (picture frame) e₁).2 } :
          OpenH264Backend L).Owes due := by
        rintro h _ ⟨⟩
        exact hL.failed h hencode
      refine .failed _ _ (fun h => hkept (howes h)) ?_
      rcases hdue with hdue | rfl
      · exact Or.inl (hkept hdue)
      · exact Or.inr ⟨rfl, rfl, fun _ _ => hframe⟩
    · rw [hcall]
      exact .panicked b'
  · rw [encodePrepared_panics hencoder hsized.1 hsized.2 hlen hframe]
    exact .panicked b₁

/-- What `encode_frame` can do. -/
theorem encodeFrame_attempt (hL : L.KeepsIntra due) (ω : L.Oracle) (frame : Frame)
    (sequence : UInt64) (b : OpenH264Backend L) :
    Attempt due b frame (encodeFrame ω frame sequence b) := by
  rw [encodeFrame]
  rcases prepare_cases hL ω frame b with ⟨e, hprepare, hwhy⟩ |
    ⟨b₁, e₁, hprepare, hpixels, hencoder, hsized, hdue⟩ | ⟨b₁, hprepare⟩
  · rw [Call.bind_of_err hprepare]
    refine .failed e b id ?_
    rcases hwhy with hpixels | hnone | hwidth | hheight
    · exact Or.inr ⟨rfl, rfl, fun h => absurd (hpixels.symm.trans h) Bool.false_ne_true⟩
    · left
      intro e he
      rw [he] at hnone
      cases hnone
    · exact Or.inr ⟨rfl, rfl, fun _ h => absurd h.1.symm hwidth⟩
    · exact Or.inr ⟨rfl, rfl, fun _ h => absurd h.2.symm hheight⟩
  · rw [Call.bind_of_ok hprepare]
    exact encodePrepared_attempt hL hpixels hencoder hsized hdue
  · rw [Call.bind_of_panicked hprepare]
    exact .panicked b₁

variable {t : EncoderThread L} {h : List (Entry (EncoderThread L) (Pass L) (Option Encoded))}

theorem refreshed_of_not (h : frame.isRefresh = false) (t : EncoderThread L) :
    t.refreshed frame = t := by
  unfold refreshed
  rw [h]
  rfl

section

variable (hL : L.KeepsIntra due)
include hL

/-- After a refresh frame an IDR picture is owed. -/
theorem owes_refreshed (h : frame.isRefresh = true) (t : EncoderThread L) :
    (t.refreshed frame).backend.Owes due := by
  unfold refreshed
  rw [h]
  exact owes_forceKeyframe hL _

theorem pass_result (t : EncoderThread L) (p : Pass L) :
    PassResult due t p (pass t p) := by
  have hflag : (t.refreshed p.newest).backend.Owes due ∨
      p.newest.isRefresh = false ∧ (t.refreshed p.newest).backend = t.backend := by
    cases hrefresh : p.newest.isRefresh with
    | true => exact Or.inl (owes_refreshed hL hrefresh t)
    | false => exact Or.inr ⟨rfl, by rw [refreshed_of_not hrefresh]⟩
  have howes : t.backend.Owes due → (t.refreshed p.newest).backend.Owes due := fun h =>
    hflag.elim id fun hsame => hsame.2.symm ▸ h
  unfold EncoderThread.pass
  split
  · next hrun =>
    have hattempt := encodeFrame_attempt hL p.oracle p.newest t.sequence (t.refreshed p.newest).backend
    generalize (t.refreshed p.newest).backend.encodeFrame p.oracle p.newest t.sequence = x
      at hattempt ⊢
    cases hattempt with
    | encoded f b' hframe hsized hkey =>
      refine .encoded _ _ hrun hframe ?_ (hkey.imp id fun hkey => ?_)
      · unfold afterSend
        cases p.trySend with
        | sent =>
          rcases Outcome.add64_cases (ε := Unit) t.sequence 1 with ⟨n, -, hadd⟩ | ⟨-, hadd⟩
          · simp only [hadd]
            exact Or.inr (Or.inl hsized)
          · simp [hadd]
        | full => exact Or.inl (owes_forceKeyframe hL b')
        | closed => exact Or.inr (Or.inr rfl)
      · obtain ⟨hflag, hsame⟩ := hflag.resolve_left hkey.1
        exact ⟨hflag, hsame ▸ hkey⟩
    | failed e b' hkeeps hkept =>
      refine .failed _ hrun (fun h => hkeeps (howes h)) ?_
      rcases hflag with hnow | ⟨hflag, hsame⟩
      · exact Or.inl (hkeeps hnow)
      · rw [hsame] at hkept
        exact hkept.imp id fun h => ⟨hflag, h⟩
    | panicked b' => exact .panicked _ rfl
  · next hstopped => exact .idle (Bool.eq_false_iff.mpr hstopped)

/-- One pass keeps the invariant: the encoder owes an IDR picture, or it is known where the last
picture came from. -/
theorem lastEncoded_pass (p : Pass L)
    (ht : t.running = true → t.backend.Owes due ∨ LastEncoded h t.backend)
    (hrun : (pass t p).2.running = true) :
    (pass t p).2.backend.Owes due ∨ LastEncoded (h ++ [stepEntry pass t p]) (pass t p).2.backend := by
  have hresult := pass_result hL t p
  unfold stepEntry
  generalize pass t p = x at hresult hrun ⊢
  cases hresult with
  | idle hstopped => cases hstopped.symm.trans hrun
  | encoded e t' _ hframe hnext _ =>
    rcases hnext with hnext | hsized | hstopped
    · exact Or.inl hnext
    · exact Or.inr ⟨h, _, [], rfl, rfl, hframe, hsized, fun _ he => absurd he List.not_mem_nil⟩
    · cases hstopped.symm.trans hrun
  | failed t' halive howes hkept =>
    rcases hkept with hnow | ⟨hflag, hwidth, hheight, hconvertible⟩
    · exact Or.inl hnow
    · refine (ht halive).imp howes ?_
      rintro ⟨before, e, after, rfl, hout, hframe, hsized, hafter⟩
      refine ⟨before, e, after ++ [_], by rw [List.append_assoc]; rfl, hout, hframe,
        ⟨hwidth.trans hsized.1, hheight.trans hsized.2⟩, ?_⟩
      rw [List.forall_mem_append, List.forall_mem_singleton]
      refine ⟨hafter, rfl, hflag, fun hpixels hsame => hconvertible hpixels ?_⟩
      exact ⟨hsized.1.trans hsame.1.symm, hsized.2.trans hsame.2.symm⟩
  | panicked t' hstopped => cases hstopped.symm.trans hrun

theorem owes_started (starts : List (StartCall L)) :
    (OpenH264Backend.started starts).Owes due := by
  unfold OpenH264Backend.started
  refine List.foldlRecOn starts _ (motive := Owes due) (fun e he => nomatch he) ?_
  intro b hb c _
  rw [start_eq]
  cases hcreate : L.create c.oracle with
  | ok e =>
    rintro _ ⟨⟩
    exact hL.created hcreate
  | err e => exact hb
  | panicked => exact hb

/-- Every run keeps the invariant. -/
theorem lastEncoded_run (starts : List (StartCall L)) (passes : List (Pass L)) :
    let t := endState pass (.spawn (.started starts)) passes
    t.running = true →
      t.backend.Owes due ∨ LastEncoded (run pass (.spawn (.started starts)) passes) t.backend :=
  run_induction (P := fun h t => t.running = true → t.backend.Owes due ∨ LastEncoded h t.backend)
    (fun _ => Or.inl (owes_started hL starts)) (fun _ _ p ht => lastEncoded_pass hL p ht) passes

/-- A picture that is not an IDR picture supersedes a refresh frame that came after the one before
it. -/
theorem superseded_of_inter {starts : List (StartCall L)} {before pre : List (Pass L)}
    {q : Pass L} {e : Encoded}
    (hnone : ∀ e' ∈ run pass (endState pass (.spawn (.started starts)) before) pre, e'.out = none)
    (hout : (pass (endState pass (.spawn (.started starts)) (before ++ pre)) q).1 = some e)
    (hidr : ¬ e.Idr) (hrefresh : ∃ p ∈ pre ++ [q], p.batch.HasRefresh) :
    ∃ earlier a middle, before = earlier ++ a :: middle ∧
      Superseded a.batch ((middle ++ pre).map Pass.batch) q.batch := by
  have hinv := lastEncoded_run hL starts (before ++ pre)
  have hresult := pass_result hL (endState pass (.spawn (.started starts)) (before ++ pre)) q
  generalize pass (endState pass (.spawn (.started starts)) (before ++ pre)) q = x at hresult hout
  cases hresult with
  | idle _ => cases hout
  | failed _ _ _ _ => cases hout
  | panicked _ _ => cases hout
  | encoded e' t' halive hframe _ hkey =>
    cases hout
    obtain ⟨hflag, hnot, hsized⟩ := hkey.resolve_left hidr
    obtain ⟨_, e₀, later, hsplit, hsome, hframe₀, hsized₀, hlater⟩ :=
      (hinv halive).resolve_left hnot
    -- the last picture came before the refresh frame, since none was encoded from there on
    have hnot₀ : e₀ ∉ run pass (endState pass (.spawn (.started starts)) before) pre := by
      intro hmem
      rw [hnone e₀ hmem] at hsome
      cases hsome
    obtain ⟨earlier, middle, hbefore, hinputs⟩ := run_append_split hsplit hnot₀
    have hafter : ∀ r ∈ (middle ++ pre).map Pass.batch,
        r.newest.isRefresh = false ∧ (r.newest.hasPixels = true →
          r.newest.SameSize e₀.input.batch.newest → r.newest.Convertible) := by
      rw [← hinputs, List.map_map]
      intro r hr
      obtain ⟨e', he', rfl⟩ := List.mem_map.mp hr
      exact (hlater e' he').2
    refine ⟨earlier, e₀.input, middle, hbefore, hframe₀, hframe,
      ⟨hsized.1.symm.trans hsized₀.1, hsized.2.symm.trans hsized₀.2⟩, ?_, ?_,
      fun r hr => (hafter r hr).2⟩
    · obtain ⟨p, hp, hhas⟩ := hrefresh
      refine ⟨p.batch, ?_, hhas⟩
      rw [List.map_append, List.append_assoc]
      refine List.mem_append_right _ ?_
      have hmem := List.mem_map_of_mem (f := Pass.batch) hp
      rwa [List.map_append] at hmem
    · rw [List.forall_mem_append, List.forall_mem_singleton]
      exact ⟨fun r hr => (hafter r hr).1, hflag⟩

theorem refreshAnswered_of_not_superseded (starts : List (StartCall L)) (passes : List (Pass L))
    (hsafe : ∀ earlier a between m rest,
      passes.map Pass.batch = earlier ++ a :: (between ++ m :: rest) → ¬ Superseded a between m) :
    RefreshAnswered (.started starts) passes := by
  intro before p after hpasses hrefresh e hfirst
  by_contra hidr
  obtain ⟨pre, q, post, hsplit, hnone, hout⟩ := exists_first_out hfirst
  rw [← endState_append] at hout
  have hmem : p ∈ pre ++ [q] := by
    cases pre with
    | nil => exact List.mem_singleton.mpr (List.cons.inj hsplit).1
    | cons p' pre => exact List.mem_cons.mpr (Or.inl (List.cons.inj hsplit).1)
  obtain ⟨earlier, a, middle, rfl, hsuperseded⟩ :=
    superseded_of_inter hL hnone hout hidr ⟨p, hmem, hrefresh⟩
  refine hsafe (earlier.map Pass.batch) a.batch _ q.batch (post.map Pass.batch) ?_ hsuperseded
  rw [hpasses, hsplit]
  simp

end

/-! ### Passes right after an IDR picture -/

/-- No intra frame is due while the counter is at 0. -/
theorem forceAtInterval_of_zero (h : b.framesSinceIdr = 0) : forceAtInterval b = (.ok (), b) := by
  refine if_neg fun hdue => ?_
  rw [h] at hdue
  exact absurd hdue.1 (UInt32.not_lt.mpr hdue.2)

/-- A call with an encoder of the size of the frame. -/
theorem encodeFrame_of_running (ω : L.Oracle) (sequence : UInt64) (hframe : frame.Encodable)
    (hencoder : b.encoder = some e) (hsized : b.SizedFor frame) (hcount : b.framesSinceIdr = 0) :
    encodeFrame ω frame sequence b = encodeSource ω frame sequence (picture frame) e b := by
  have hrunning : ¬ b.Restarts frame := not_restarts_iff.mpr ⟨⟨e, hencoder⟩, hsized⟩
  have hprepare : prepare ω frame b = (.ok (), b) := by
    rw [prepare_of_pixels hframe.pixels, Call.bind_of_ok (ensureStarted_of_running hrunning ω),
      forceAtInterval_of_zero hcount]
  rw [encodeFrame, Call.bind_of_ok hprepare,
    encodePrepared_eq hencoder hsized (length_of_pixels hframe.pixels) hframe.convertible]

/-- A call that starts an encoder. -/
theorem encodeFrame_of_created (ω : L.Oracle) (sequence : UInt64) (hframe : frame.Encodable)
    (hrestarts : b.Restarts frame) (hcreate : L.create ω = .ok e) :
    encodeFrame ω frame sequence b =
      encodeSource ω frame sequence (picture frame) e
        ⟨some e, frame.width, frame.height, b.config, 0⟩ := by
  have hprepare : prepare ω frame b = (.ok (), ⟨some e, frame.width, frame.height, b.config, 0⟩) := by
    rw [prepare_of_pixels hframe.pixels,
      Call.bind_of_ok (ensureStarted_of_created hrestarts hcreate), forceAtInterval_of_zero rfl]
  rw [encodeFrame, Call.bind_of_ok hprepare]
  exact encodePrepared_eq rfl ⟨rfl, rfl⟩ (length_of_pixels hframe.pixels) hframe.convertible

theorem encodeFrame_of_no_pixels (h : frame.hasPixels = false) (ω : L.Oracle) (sequence : UInt64)
    (b : OpenH264Backend L) : ∃ e, encodeFrame ω frame sequence b = (.err e, b) :=
  ⟨_, Call.bind_of_err (prepare_of_no_pixels h ω b) _⟩

theorem refreshed_new (frame : Frame) :
    (spawn (L := L) .new).refreshed frame = .spawn .new := by
  unfold refreshed
  split <;> rfl

/-! ### A crate that encodes an IDR picture only when it must -/

theorem plain_keepsIntra : OpenH264.plain.KeepsIntra (· = true) := by
  refine ⟨fun {fails e} h => ?_, fun _ => rfl, fun {fails source e payload} he h => ?_,
    fun {fails source e reason} he h => ?_⟩
  · cases fails <;> cases h
    rfl
  · subst he
    cases fails <;> cases h
    exact isIdr_sound (by decide)
  · cases fails <;> cases h
    exact he

theorem plain_inter_not_idr : ¬ IsIdr [0, 0, 0, 1, 0x41, 0x88] := by
  rintro ⟨i, hcode, hlt, htype⟩
  have hi : i < 3 := Nat.lt_of_add_lt_add_right (n := 3) hlt
  match i, hi with
  | 0, _ => exact absurd hcode (by decide)
  | 1, _ => exact absurd htype (by decide)
  | 2, _ => exact absurd hcode (by decide)

/-- A pass on the batch in which the crate fails, and one in which it does not. -/
def failing (r : Batch) : Pass .plain := ⟨r.frame, r.newer, true, .sent⟩

@[inherit_doc failing]
def succeeding (r : Batch) : Pass .plain := ⟨r.frame, r.newer, false, .sent⟩

/-- The thread after its first picture, of the size of a frame. -/
def afterFirst (f : Frame) : EncoderThread .plain :=
  ⟨⟨some false, f.width, f.height, .default, 0⟩, 1, true⟩

theorem pass_failing_new (r : Batch) : pass (.spawn .new) (failing r) = (none, .spawn .new) := by
  have hencode : ∃ e, encodeFrame (L := .plain) true r.newest 0 .new = (.err e, .new) := by
    cases hpixels : r.newest.hasPixels with
    | false => exact encodeFrame_of_no_pixels hpixels _ _ _
    | true => exact ⟨_, Call.bind_of_err (prepare_of_not_created hpixels (Or.inl rfl) rfl) _⟩
  obtain ⟨e, hencode⟩ := hencode
  exact pass_of_err rfl (refreshed_new _) hencode

theorem pass_failing_afterFirst {f : Frame} {r : Batch} (hflag : r.newest.isRefresh = false)
    (halive : r.newest.hasPixels = true → r.newest.SameSize f → r.newest.Convertible) :
    pass (afterFirst f) (failing r) = (none, afterFirst f) := by
  have hencode : ∃ e, encodeFrame (L := .plain) true r.newest 1 (afterFirst f).backend =
      (.err e, (afterFirst f).backend) := by
    cases hpixels : r.newest.hasPixels with
    | false => exact encodeFrame_of_no_pixels hpixels _ _ _
    | true =>
      by_cases hsize : r.newest.SameSize f
      · exact ⟨_, encodeFrame_of_running _ _ ⟨hpixels, halive hpixels hsize⟩ rfl
          ⟨hsize.1.symm, hsize.2.symm⟩ rfl⟩
      · have hrestarts : (afterFirst f).backend.Restarts r.newest := Or.inr (not_and_or.mp hsize)
        exact ⟨_, Call.bind_of_err (prepare_of_not_created hpixels hrestarts rfl) _⟩
  obtain ⟨e, hencode⟩ := hencode
  exact pass_of_err rfl (refreshed_of_not hflag _) hencode

/-- The first picture. -/
theorem pass_succeeding_new {a : Batch} (ha : a.newest.Encodable) :
    (pass (.spawn .new) (succeeding a)).2 = afterFirst a.newest := by
  have hencode := encodeFrame_of_created (L := .plain) (b := .new) false 0 ha (Or.inl rfl)
    (e := true) rfl
  exact congrArg Prod.snd (pass_of_ok (p := succeeding a) rfl (refreshed_new _) hencode)

/-- The picture after it, at the same size. -/
theorem pass_succeeding_afterFirst {f : Frame} {m : Batch} (hm : m.newest.Encodable)
    (hsize : m.newest.SameSize f) (hflag : m.newest.isRefresh = false) :
    ∃ e, (pass (afterFirst f) (succeeding m)).1 = some e ∧ ¬ e.Idr := by
  have hencode := encodeFrame_of_running (L := .plain) (b := (afterFirst f).backend) false 1 hm
    (e := false) rfl ⟨hsize.1.symm, hsize.2.symm⟩ rfl
  have hpass := pass_of_ok (p := succeeding m) (t := afterFirst f) rfl (refreshed_of_not hflag _)
    hencode
  exact ⟨_, congrArg Prod.fst hpass, plain_inter_not_idr⟩

theorem endState_first (earlier : List Batch) {a : Batch} (ha : a.newest.Encodable) :
    endState pass (.spawn (.started [])) (earlier.map failing ++ [succeeding a]) =
      afterFirst a.newest := by
  have hnew : endState pass (.spawn (.started [])) (earlier.map failing) = .spawn .new := by
    refine endState_of_fixed fun p hp => ?_
    obtain ⟨r, -, rfl⟩ := List.mem_map.mp hp
    exact congrArg Prod.snd (pass_failing_new r)
  rw [endState_snoc, hnew]
  exact pass_succeeding_new ha

/-- A schedule in which a refresh frame is superseded, with a crate that fails except in the two
passes around it. -/
theorem not_answered_of_superseded {a m : Batch} {between : List Batch} (h : Superseded a between m)
    (earlier rest : List Batch) :
    ¬ RefreshAnswered (.started []) (earlier.map failing ++ succeeding a ::
      (between.map failing ++ succeeding m :: rest.map failing)) := by
  have hfails : ∀ p ∈ between.map failing, pass (afterFirst a.newest) p =
      (none, afterFirst a.newest) := by
    intro p hp
    obtain ⟨r, hr, rfl⟩ := List.mem_map.mp hp
    exact pass_failing_afterFirst (h.lost r (List.mem_append_left _ hr)) (h.alive r hr)
  obtain ⟨e, hout, hidr⟩ := pass_succeeding_afterFirst h.last h.size
    (h.lost m (List.mem_append_right _ (List.mem_singleton.mpr rfl)))
  -- from any place between the two pictures on, the second one is the first
  have hhead : ∀ c d, between.map failing = c ++ d →
      ((run pass (endState pass (.spawn (.started []))
        ((earlier.map failing ++ [succeeding a]) ++ c))
          (d ++ succeeding m :: rest.map failing)).filterMap Entry.out).head? = some e := by
    intro c d hsplit
    rw [hsplit, List.forall_mem_append] at hfails
    rw [endState_append, endState_first earlier h.first,
      endState_of_fixed fun p hp => by rw [hfails.1 p hp]]
    exact head?_out_of_silent hfails.2 hout _
  obtain ⟨r, hr, hrefresh⟩ := h.arrives
  intro hanswered
  rcases List.mem_append.mp hr with hbetween | hlast
  · obtain ⟨c, d, rfl⟩ := List.append_of_mem hbetween
    rw [List.map_append] at hhead
    refine hidr (hanswered _ (failing r) _ ?_ hrefresh e (hhead (c.map failing) _ rfl))
    simp
  · obtain rfl := List.mem_singleton.mp hlast
    refine hidr (hanswered _ (succeeding r) _ ?_ hrefresh e (hhead (between.map failing) [] ?_))
    · simp
    · rw [List.append_nil]

end RefreshLemmas

open RefreshLemmas

/-- The frames that arrive, and when they are drained, decide whether every refresh frame is
answered by an IDR picture, whatever the crate and the output channel do: exactly if none is
superseded. -/
theorem refresh_answered_iff (batches : List Batch) :
    (∀ (L : OpenH264) (due : L.State → Prop), L.KeepsIntra due →
        ∀ (starts : List (StartCall L)) (passes : List (Pass L)),
          passes.map Pass.batch = batches → RefreshAnswered (.started starts) passes) ↔
      ∀ earlier a between m rest, batches = earlier ++ a :: (between ++ m :: rest) →
        ¬ Superseded a between m := by
  constructor
  · intro hall earlier a between m rest hbatches hsuperseded
    refine not_answered_of_superseded hsuperseded earlier rest
      (hall .plain _ plain_keepsIntra [] _ ?_)
    have hfailing : ∀ l : List Batch, (l.map failing).map Pass.batch = l := by
      intro l
      rw [List.map_map]
      exact List.map_id l
    rw [hbatches]
    simp only [List.map_append, List.map_cons, hfailing]
    rfl
  · rintro hsafe L due hL starts passes rfl
    exact refreshAnswered_of_not_superseded hL starts passes hsafe

/-- A refresh frame with a newer frame behind it, after a first picture. -/
theorem drained_refresh_unanswered :
    OpenH264.plain.KeepsIntra (· = true) ∧
    ¬ RefreshAnswered (L := .plain) (.started [])
      [⟨.small false, [], false, .sent⟩, ⟨.small true, [.small false], false, .sent⟩] := by
  have hsmall : (Frame.small false).Encodable := ⟨hasPixels_small false, by decide +kernel⟩
  have hsuperseded : Superseded ⟨.small false, []⟩ [] ⟨.small true, [.small false]⟩ :=
    ⟨hsmall, hsmall, ⟨rfl, rfl⟩, ⟨_, List.mem_singleton_self _, _, List.mem_cons_self, rfl⟩,
      List.forall_mem_singleton.mpr rfl, nofun⟩
  exact ⟨plain_keepsIntra, not_answered_of_superseded hsuperseded [] []⟩

end Blackwing.Encoder
