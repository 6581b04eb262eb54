import Blackwing.Lib.Toggle
import Blackwing.Server.Input

/-!
# Mouse buttons

The mouse handler means to keep every button as the client of the session reports it: a
bit that appears is pressed once, a bit that disappears is released once. It does so as
long as the mask it remembers is what it has injected. The two come apart when an
envelope fails after its first click, since the mask is stored at the end only, and when
the masks of all sessions are forgotten at the 65th.

* `clicks`, `held`: the clicks that a session caused, and whether it holds a button.
* `ButtonsFollow`: in a run, presses and releases alternate, and an envelope that is
  handled leaves the buttons as its mask has them.
* `Misled`: the handler acts on a remembered bit that is not what the session holds.
* `buttons_follow_iff`: the buttons follow exactly in the runs without such a step.
-/

namespace Blackwing.Server

/-! ## What a session holds -/

/-- The bit of a button in a mask. -/
def MouseButton.bit : MouseButton → UInt8
  | left => 0b001
  | right => 0b010
  | middle => 0b100

/-- The mask has the button down. -/
def isDown (mask : UInt8) (button : MouseButton) : Bool := isSet mask button.bit

/-- The position a click brings the button to. -/
def clickOf (button : MouseButton) : InjectedInput → Option Bool
  | .mouseClick b down => if b = button then some down else none
  | _ => none

/-- The clicks of a button that a session caused, oldest first. -/
def clicks (sessionId : SessionId) (button : MouseButton)
    (injected : List (SessionId × InjectedInput)) : List Bool :=
  injected.filterMap fun p => if p.1 = sessionId then clickOf button p.2 else none

/-- The session has pressed the button and not released it. -/
def held (sessionId : SessionId) (button : MouseButton)
    (injected : List (SessionId × InjectedInput)) : Bool :=
  lastOn (clicks sessionId button injected)

/-- A mouse envelope handled with `Ok` leaves its session holding the buttons of its mask. -/
def Settles (d : Delivery) (out : Outcome DispatchError Unit) (after : InputState) : Prop :=
  ∀ event, d.envelope.message = .mouse (some event) → out = .ok () →
    ∀ button, held d.envelope.sessionId button after.injected = isDown event.buttonsMask button

/-- In the run on these envelopes the buttons follow the clients. -/
structure ButtonsFollow (deliveries : List Delivery) : Prop where
  /-- Press, release, press, ... for each session and button. -/
  alternate : ∀ sessionId button,
    Alternates (clicks sessionId button (endState handleInput .new deliveries).injected)
  settled : ∀ e ∈ run handleInput .new deliveries, Settles e.input e.out e.post

/-- For some button the remembered bit is not what the session holds, and the handler acts on it: it
delivers a click for it, or it takes the button to be as reported and handles the envelope to its
end. -/
def Misled (s : InputState) (d : Delivery) : Prop :=
  ∃ event, d.envelope.message = .mouse (some event) ∧
    ∃ button,
      isDown (recordedMask s d.envelope.sessionId) button ≠
        held d.envelope.sessionId button s.injected ∧
      if isDown event.buttonsMask button = isDown (recordedMask s d.envelope.sessionId) button then
        ∀ input ∈ planned s d.envelope.sessionId event, (d.backend input).accepted = true
      else
        .mouseClick button (isDown event.buttonsMask button) ∈
          carriedOut s d.envelope.sessionId event d.backend

namespace ButtonsLemmas

variable {sessionId : SessionId} {button : MouseButton} {event : MouseEvent} {s : InputState}
  {d : Delivery}

theorem clicks_append (l l' : List (SessionId × InjectedInput)) :
    clicks sessionId button (l ++ l') = clicks sessionId button l ++ clicks sessionId button l' :=
  List.filterMap_append

theorem clicks_own (inputs : List InjectedInput) :
    clicks sessionId button (inputs.map (sessionId, ·)) = inputs.filterMap (clickOf button) := by
  rw [clicks, List.filterMap_map]
  simp

theorem clicks_other {sessionId' : SessionId} (h : sessionId' ≠ sessionId)
    (inputs : List InjectedInput) : clicks sessionId button (inputs.map (sessionId', ·)) = [] := by
  rw [clicks, List.filterMap_map]
  simp [h]

theorem clickOf_eq_some {input : InjectedInput} {down : Bool} :
    clickOf button input = some down ↔ input = .mouseClick button down := by
  unfold clickOf
  split
  · next b down' =>
    rw [InjectedInput.mouseClick.injEq]
    split <;> simp_all
  · next hno => exact iff_of_false (fun h => nomatch h) fun h => hno _ _ h

theorem mem_clickOf {inputs : List InjectedInput} {down : Bool} :
    down ∈ inputs.filterMap (clickOf button) ↔ .mouseClick button down ∈ inputs := by
  rw [List.mem_filterMap]
  constructor
  · rintro ⟨input, hmem, hclick⟩
    rwa [← clickOf_eq_some.mp hclick]
  · exact fun hmem => ⟨_, hmem, clickOf_eq_some.mpr rfl⟩

/-- A mouse event leads to at most one click of a button, to where its mask has it. -/
theorem clickOf_planned :
    (planned s sessionId event).filterMap (clickOf button) =
      if isDown event.buttonsMask button = isDown (recordedMask s sessionId) button then []
      else [isDown event.buttonsMask button] := by
  have hmove : (moveOf event).filterMap (clickOf button) = [] := by
    unfold moveOf
    split_ifs <;> rfl
  have hclick : ∀ prevMask mask (p : UInt8 × MouseButton),
      (transition prevMask mask p).bind (clickOf button) =
        if p.2 = button then
          if isSet mask p.1 = isSet prevMask p.1 then none else some (isSet mask p.1)
        else none := by
    intro prevMask mask p
    unfold transition
    dsimp only
    split_ifs <;> simp_all [clickOf]
  rw [planned, List.filterMap_append, hmove, List.nil_append, List.filterMap_filterMap,
    funext (hclick _ _)]
  unfold isDown buttonBits
  cases button <;> simp [List.filterMap_cons, MouseButton.bit] <;> split_ifs with h <;> simp [h]

variable {backend : InputBackend}

/-- The click is delivered, or none of this button is. -/
theorem clickOf_carriedOut :
    (carriedOut s sessionId event backend).filterMap (clickOf button) =
      if .mouseClick button (isDown event.buttonsMask button) ∈ carriedOut s sessionId event backend
      then [isDown event.buttonsMask button] else [] := by
  have hsplit := @clickOf_planned sessionId button event s
  rw [← List.takeWhile_append_dropWhile (p := fun input => (backend input).accepted)
    (l := planned s sessionId event), ← carriedOut, List.filterMap_append] at hsplit
  have hmem := @mem_clickOf button (carriedOut s sessionId event backend)
    (isDown event.buttonsMask button)
  cases hdelivered : (carriedOut s sessionId event backend).filterMap (clickOf button) with
  | nil =>
    rw [hdelivered] at hmem
    exact (if_neg fun hclick => List.not_mem_nil (hmem.mpr hclick)).symm
  | cons down rest =>
    rw [hdelivered] at hsplit hmem
    split at hsplit
    · cases hsplit
    · obtain ⟨rfl, hrest⟩ := List.cons_eq_cons.mp hsplit
      rw [(List.append_eq_nil_iff.mp hrest).1, if_pos (hmem.mp List.mem_cons_self)]

/-- What a mouse event adds to the clicks of its own session, and of any other. -/
theorem clicks_handleMouse (sessionId' : SessionId) :
    clicks sessionId' button (handleMouse backend sessionId (some event) s).2.injected =
      clicks sessionId' button s.injected ++
        if sessionId = sessionId' ∧ .mouseClick button (isDown event.buttonsMask button) ∈
          carriedOut s sessionId event backend
        then [isDown event.buttonsMask button] else [] := by
  rw [(handleMouse_spec backend sessionId event s).2, clicks_append]
  by_cases hown : sessionId = sessionId'
  · subst hown
    rw [clicks_own, clickOf_carriedOut]
    simp
  · rw [clicks_other hown, if_neg fun h => hown h.1]

/-- Only a mouse event that can be decoded causes clicks. -/
theorem handleInput_cases (s : InputState) (d : Delivery) :
    (∃ event, d.envelope.message = .mouse (some event) ∧
      handleInput s d = handleMouse d.backend d.envelope.sessionId (some event) s) ∨
    (∀ event, d.envelope.message ≠ .mouse (some event)) ∧
      ∀ sessionId button, clicks sessionId button (handleInput s d).2.injected =
        clicks sessionId button s.injected := by
  unfold handleInput
  cases d.envelope.message with
  | keyboard event =>
    refine Or.inr ⟨(fun _ h => nomatch h), fun sessionId button => ?_⟩
    cases event with
    | none => rfl
    | some event =>
      show clicks _ _ (inject d.backend d.envelope.sessionId _ s).2.injected = _
      unfold inject Call.attempt
      dsimp only
      split
      · rw [clicks_append]
        simp [clicks, clickOf]
      · rfl
  | mouse event =>
    cases event with
    | none => exact Or.inr ⟨(fun _ h => nomatch h), fun _ _ => rfl⟩
    | some event => exact Or.inl ⟨event, rfl, rfl⟩

/-- The clicks caused up to some step of a run are the first of those caused in the whole run. -/
theorem isPrefix_clicks_run (deliveries : List Delivery) (sessionId : SessionId)
    (button : MouseButton) :
    ∀ e ∈ run handleInput .new deliveries,
      clicks sessionId button e.pre.injected <+: clicks sessionId button e.post.injected ∧
      clicks sessionId button e.post.injected <+:
        clicks sessionId button (endState handleInput .new deliveries).injected := by
  have hstep : ∀ (s : InputState) (d : Delivery), clicks sessionId button s.injected <+:
      clicks sessionId button (handleInput s d).2.injected := by
    intro s d
    rcases handleInput_cases s d with ⟨event, -, heq⟩ | ⟨-, hsame⟩
    · rw [heq, clicks_handleMouse]
      exact List.prefix_append _ _
    · exact ⟨[], by rw [List.append_nil, hsame]⟩
  refine @run_induction _ _ _ handleInput (fun h t => ∀ e ∈ h,
    clicks sessionId button e.pre.injected <+: clicks sessionId button e.post.injected ∧
    clicks sessionId button e.post.injected <+: clicks sessionId button t.injected)
    .new (fun e he => absurd he List.not_mem_nil) ?_ deliveries
  intro h t d ih e he
  rcases List.mem_append.mp he with he | he
  · exact ⟨(ih e he).1, (ih e he).2.trans (hstep t d)⟩
  · rw [List.mem_singleton.mp he]
    exact ⟨hstep t d, List.prefix_rfl⟩

/-- No click is planned for a button whose remembered bit is the reported one. -/
theorem not_mem_carriedOut {down : Bool}
    (hsame : isDown event.buttonsMask button = isDown (recordedMask s sessionId) button) :
    .mouseClick button down ∉ carriedOut s sessionId event backend := by
  intro hclick
  have hplanned := mem_clickOf.mpr ((List.takeWhile_subset _) hclick)
  rw [clickOf_planned, if_pos hsame] at hplanned
  exact List.not_mem_nil hplanned

/-- An envelope that is handled to its end leaves a button as reported, or as it was if its
remembered bit is the reported one. -/
theorem held_of_accepted
    (hall : ∀ input ∈ planned s sessionId event, (backend input).accepted = true) :
    held sessionId button (handleMouse backend sessionId (some event) s).2.injected =
      if isDown event.buttonsMask button = isDown (recordedMask s sessionId) button then
        held sessionId button s.injected
      else isDown event.buttonsMask button := by
  unfold held
  rw [clicks_handleMouse]
  by_cases hchanged : isDown event.buttonsMask button = isDown (recordedMask s sessionId) button
  · rw [if_neg fun h => not_mem_carriedOut hchanged h.2, List.append_nil, if_pos hchanged]
  · have hclick : .mouseClick button (isDown event.buttonsMask button) ∈
        carriedOut s sessionId event backend := by
      rw [carriedOut, List.takeWhile_eq_self_iff.mpr hall, ← mem_clickOf, clickOf_planned,
        if_neg hchanged]
      exact List.mem_singleton.mpr rfl
    rw [if_pos ⟨rfl, hclick⟩, lastOn_snoc, if_neg hchanged]

/-- The clicks still alternate exactly when the one that is delivered finds the button in the other
position. -/
theorem alternates_handleMouse
    (hpre : ∀ sessionId button, Alternates (clicks sessionId button s.injected)) :
    (∀ sessionId' button, Alternates
      (clicks sessionId' button (handleMouse backend sessionId (some event) s).2.injected)) ↔
    ∀ button, .mouseClick button (isDown event.buttonsMask button) ∈
      carriedOut s sessionId event backend →
      held sessionId button s.injected ≠ isDown event.buttonsMask button := by
  constructor
  · intro h button hclick
    have hb := h sessionId button
    rw [clicks_handleMouse, if_pos ⟨rfl, hclick⟩] at hb
    exact (alternates_snoc_iff.mp hb).2
  · intro h sessionId' button
    rw [clicks_handleMouse]
    split
    · next hown =>
      obtain ⟨rfl, hclick⟩ := hown
      exact alternates_snoc_iff.mpr ⟨hpre sessionId button, h button hclick⟩
    · rw [List.append_nil]
      exact hpre sessionId' button

/-- One button. Its click finds it in the other position, and an envelope that is handled to its end
leaves it as reported, exactly when the handler does not act on a bit that is not what is held. -/
theorem button_follows_iff :
    ((.mouseClick button (isDown event.buttonsMask button) ∈ carriedOut s sessionId event backend →
        held sessionId button s.injected ≠ isDown event.buttonsMask button) ∧
      ((∀ input ∈ planned s sessionId event, (backend input).accepted = true) →
        held sessionId button (handleMouse backend sessionId (some event) s).2.injected =
          isDown event.buttonsMask button)) ↔
    ¬ (isDown (recordedMask s sessionId) button ≠ held sessionId button s.injected ∧
      if isDown event.buttonsMask button = isDown (recordedMask s sessionId) button then
        ∀ input ∈ planned s sessionId event, (backend input).accepted = true
      else .mouseClick button (isDown event.buttonsMask button) ∈
        carriedOut s sessionId event backend) := by
  by_cases hsame : isDown event.buttonsMask button = isDown (recordedMask s sessionId) button
  · -- no click is sent, and the button is left as it is held
    rw [if_pos hsame, and_iff_right fun hclick => absurd hclick (not_mem_carriedOut hsame), not_and',
      not_not]
    refine forall_congr' fun hall => ?_
    rw [held_of_accepted hall, if_pos hsame, hsame, eq_comm]
  · -- the click that is sent brings the button to the reported position
    rw [if_neg hsame, and_iff_left fun hall => (held_of_accepted hall).trans (if_neg hsame), not_and',
      not_not]
    refine forall_congr' fun _ => ?_
    rw [Bool.eq_not_of_ne (Ne.symm hsame)]
    cases held sessionId button s.injected <;> cases isDown event.buttonsMask button <;> decide

/-- A step keeps the buttons following exactly when it is not misled. -/
theorem follows_iff_not_misled (s : InputState) (d : Delivery)
    (hpre : ∀ sessionId button, Alternates (clicks sessionId button s.injected)) :
    ((∀ sessionId button, Alternates (clicks sessionId button (handleInput s d).2.injected)) ∧
      Settles d (handleInput s d).1 (handleInput s d).2) ↔ ¬ Misled s d := by
  rcases handleInput_cases s d with ⟨event, hmessage, heq⟩ | ⟨hno, hsame⟩
  · have hone : ∀ P : MouseEvent → Prop,
        (∀ event', d.envelope.message = .mouse (some event') → P event') ↔ P event := by
      intro P
      rw [hmessage]
      simp only [InputMessage.mouse.injEq, Option.some.injEq, forall_eq']
    rw [heq, alternates_handleMouse hpre, Settles, hone, (handleMouse_spec _ _ _ _).1]
    constructor
    · rintro ⟨hclicks, hsettled⟩ ⟨event', hmessage', button, hmisled⟩
      cases hmessage.symm.trans hmessage'
      exact button_follows_iff.mp ⟨hclicks button, fun hall => hsettled hall button⟩ hmisled
    · intro hno
      have hbutton := fun button => button_follows_iff.mpr fun hmisled =>
        hno ⟨event, hmessage, button, hmisled⟩
      exact ⟨fun button => (hbutton button).1, fun hall button => (hbutton button).2 hall⟩
  · refine iff_of_true ⟨fun sessionId button => ?_, fun event h => absurd h (hno event)⟩ ?_
    · rw [hsame]
      exact hpre sessionId button
    · rintro ⟨event, h, -⟩
      exact hno event h

end ButtonsLemmas

open ButtonsLemmas

/-- For every sequence of envelopes and every pattern of refused inputs, the buttons follow the
clients exactly when no step is misled. -/
theorem buttons_follow_iff (deliveries : List Delivery) :
    ButtonsFollow deliveries ↔ ∀ e ∈ run handleInput .new deliveries, ¬ Misled e.pre e.input := by
  constructor
  · intro hfollow e he
    have halternate : ∀ sessionId button, Alternates (clicks sessionId button e.post.injected) :=
      fun sessionId button => (hfollow.alternate sessionId button).of_isPrefix
        (isPrefix_clicks_run deliveries sessionId button e he).2
    refine (follows_iff_not_misled e.pre e.input fun sessionId button => ?_).mp ⟨?_, ?_⟩
    · exact (halternate sessionId button).of_isPrefix
        (isPrefix_clicks_run deliveries sessionId button e he).1
    · rw [← post_eq_of_mem_run he]
      exact halternate
    · rw [← post_eq_of_mem_run he, ← out_eq_of_mem_run he]
      exact hfollow.settled e he
  · intro hno
    have hrun := @run_guarded _ _ _ handleInput (fun s d => ¬ Misled s d)
      (fun h t => (∀ sessionId button, Alternates (clicks sessionId button t.injected)) ∧
        ∀ e ∈ h, Settles e.input e.out e.post)
      .new ⟨fun _ _ => alternates_nil, fun e he => absurd he List.not_mem_nil⟩ ?_ deliveries hno
    · exact ⟨hrun.1, hrun.2⟩
    · intro h t d ih hstep
      obtain ⟨halternate, hsettled⟩ := (follows_iff_not_misled t d ih.1).mpr hstep
      refine ⟨halternate, fun e he => ?_⟩
      rcases List.mem_append.mp he with he | he
      · exact ih.2 e he
      · rw [List.mem_singleton.mp he]
        exact hsettled

/-- A mouse envelope that only reports buttons. -/
def reports (session mask : UInt8) (backend : InputBackend) : Delivery where
  envelope := ⟨Bytes.fill 16 session, .mouse (some ⟨0, 0, mask, false⟩)⟩
  backend := backend

/-- A backend that refuses the press of the right button. -/
def refuseRight : InputBackend
  | .mouseClick .right true => .err (.injectionFailed 0 1)
  | _ => .ok ()

/-- A client presses left and right together. The right press is refused and the mask is not stored,
so the next report presses left again. -/
def pressedTogether : List Delivery :=
  [reports 0 0b011 refuseRight, reports 0 0b011 fun _ => .ok ()]

/-- A client holds left while 64 others appear; then it releases left. -/
def heldByTheFirst : List Delivery :=
  (reports 0 0b001 (fun _ => .ok ()) ::
    (List.range 64).map fun i => reports (UInt8.ofNat (i + 1)) 0 fun _ => .ok ()) ++
    [reports 0 0 fun _ => .ok ()]

/-- Left is pressed twice after a press that was refused; and with no input refused, the release of
a client is lost when 64 others have appeared. -/
theorem press_repeated_release_lost :
    clicks (Bytes.fill 16 0) .left (endState handleInput .new pressedTogether).injected =
        [true, true] ∧
      ¬ ButtonsFollow pressedTogether ∧
    (∀ e ∈ run handleInput .new heldByTheFirst, e.out = .ok ()) ∧
      held (Bytes.fill 16 0) .left (endState handleInput .new heldByTheFirst).injected = true ∧
      ¬ ButtonsFollow heldByTheFirst := by
  have htwice : clicks (Bytes.fill 16 0) .left
      (endState handleInput .new pressedTogether).injected = [true, true] := by decide +kernel
  have hfirst : (∀ e ∈ run handleInput .new heldByTheFirst, e.out = .ok ()) ∧
      held (Bytes.fill 16 0) .left (endState handleInput .new heldByTheFirst).injected = true := by
    decide +kernel
  obtain ⟨hok, hheld⟩ := hfirst
  refine ⟨htwice, fun hfollow => ?_, hok, hheld, fun hfollow => ?_⟩
  · have halternate := hfollow.alternate (Bytes.fill 16 0) .left
    rw [htwice] at halternate
    exact absurd halternate (by decide)
  · -- the last envelope is handled and reports no button
    obtain ⟨e, he, hinput, hpost⟩ := @exists_last_entry _ _ _ handleInput .new _ _
    have hreleased := hfollow.settled e he
    rw [hinput, hpost] at hreleased
    have hreleased := hreleased _ rfl (hok e he) .left
    exact absurd (hheld.symm.trans hreleased) (by decide)

end Blackwing.Server
