import Blackwing.Lib.Bytes
import Blackwing.Lib.Effects
import Blackwing.Lib.HashMap
import Blackwing.Lib.Run
import Mathlib.Data.List.TakeWhile

/-!
# Remote input

`register_input_handlers` of `bw-server/src/lib.rs` and the injector of `bw-input`. The
mouse handler turns the button mask that a client reports into presses and releases, by
comparing it with the last mask of the same session. It keeps the masks of up to 64
sessions and forgets all of them when another one appears.

An envelope is its session and what `as_keyboard_event` or `as_mouse_event` makes of its
message. What the backend does with each input is given with the envelope, since within
one envelope no input is sent twice. The state keeps the inputs that were delivered, with
the session that caused them.

* `handleInput`: the two handlers.
* `planned`: the inputs that a mouse event leads to if none is refused.
* `handleMouse_spec`: the handler delivers them up to the first that is refused, and returns
  `Ok` when none is.
-/

namespace Blackwing.Server

/-! ## Events and inputs -/

abbrev SessionId : Type := Bytes 16

structure KeyboardEvent where
  keycode : UInt16
  isDown : Bool
deriving DecidableEq

structure MouseEvent where
  dx : Int32
  dy : Int32
  buttonsMask : UInt8
  isAbsolute : Bool
deriving DecidableEq

inductive MouseButton where
  | left
  | right
  | middle
deriving DecidableEq

inductive InjectedInput where
  | mouseMove (dx dy : Int32)
  | mouseMoveAbsolute (normX normY : Int32)
  | mouseClick (button : MouseButton) (down : Bool)
  | keyboard (keycode : UInt16) (down : Bool)
deriving DecidableEq

inductive InputError where
  | unsupportedPlatform
  | injectionFailed (inserted requested : UInt32)
deriving DecidableEq

def InputError.display : InputError → String
  | unsupportedPlatform => "input injection is not supported on this platform"
  | injectionFailed inserted requested =>
    s!"SendInput inserted {inserted} of {requested} input events"

/-- `DispatchError`, as far as the handlers return it. -/
inductive DispatchError where
  | handler (reason : String)
deriving DecidableEq

/-- `InputBackend::send`. -/
abbrev InputBackend : Type := InjectedInput → Outcome InputError Unit

/-- What is decoded from the message of an envelope, if it can be. -/
inductive InputMessage where
  | keyboard (event : Option KeyboardEvent)
  | mouse (event : Option MouseEvent)
deriving DecidableEq

structure InputEnvelope where
  sessionId : SessionId
  message : InputMessage
deriving DecidableEq

/-! ## The handlers -/

/-- `BUTTON_BITS`. -/
def buttonBits : List (UInt8 × MouseButton) :=
  [(0b001, .left), (0b010, .right), (0b100, .middle)]

/-- The masks that the mouse handler remembers, and what was injected, oldest first. -/
structure InputState where
  buttonStates : HashMap SessionId UInt8
  injected : List (SessionId × InjectedInput)

/-- The state after `register_input_handlers`. -/
def InputState.new : InputState := ⟨∅, []⟩

/-- A method of `InputInjector`, with its error converted. -/
def inject (backend : InputBackend) (sessionId : SessionId) :
    InjectedInput → Call InputState DispatchError Unit :=
  Call.attempt (fun input => (backend input).mapErr fun e => .handler e.display)
    fun s input => { s with injected := s.injected ++ [(sessionId, input)] }

def handleKeyboard (backend : InputBackend) (sessionId : SessionId) (event : Option KeyboardEvent) :
    Call InputState DispatchError Unit := do
  let event ← Call.ofOutcome (.okOr (.handler "undecodable keyboard event payload") event)
  inject backend sessionId (.keyboard event.keycode event.isDown)

/-- The mouse handler: the movement. -/
def injectMove (backend : InputBackend) (sessionId : SessionId) (event : MouseEvent) :
    Call InputState DispatchError Unit :=
  if event.dx ≠ 0 ∨ event.dy ≠ 0 then
    if event.isAbsolute then inject backend sessionId (.mouseMoveAbsolute event.dx event.dy)
    else inject backend sessionId (.mouseMove event.dx event.dy)
  else pure ()

/-- The mouse handler: the bound on the remembered sessions. -/
def boundStates (sessionId : SessionId) (s : InputState) : InputState :=
  if 64 ≤ HashMap.size s.buttonStates ∧ (s.buttonStates.lookup sessionId).isNone then
    { s with buttonStates := ∅ }
  else s

/-- The bit is set in the mask. -/
def isSet (mask bit : UInt8) : Bool := mask &&& bit != 0

/-- The mouse handler: one button. -/
def injectButton (backend : InputBackend) (sessionId : SessionId) (prevMask mask : UInt8) :
    UInt8 × MouseButton → Call InputState DispatchError Unit
  | (bit, button) =>
    let wasDown := isSet prevMask bit
    let isDown := isSet mask bit
    if isDown && !wasDown then inject backend sessionId (.mouseClick button true)
    else if !isDown && wasDown then inject backend sessionId (.mouseClick button false)
    else pure ()

def handleMouse (backend : InputBackend) (sessionId : SessionId) (event : Option MouseEvent) :
    Call InputState DispatchError Unit := do
  let event ← Call.ofOutcome (.okOr (.handler "undecodable mouse event payload") event)
  injectMove backend sessionId event
  Call.update (boundStates sessionId)
  let s ← Call.getState
  let prevMask := (s.buttonStates.lookup sessionId).getD 0
  buttonBits.forM (injectButton backend sessionId prevMask event.buttonsMask)
  Call.update fun s =>
    { s with buttonStates := s.buttonStates.insert sessionId event.buttonsMask }

/-- An envelope that arrives, and what the backend does with the inputs it leads to. -/
structure Delivery where
  envelope : InputEnvelope
  backend : InputBackend

/-- The handler that is registered for the type of the message. -/
def handleInput (s : InputState) (d : Delivery) : Outcome DispatchError Unit × InputState :=
  match d.envelope.message with
  | .keyboard event => handleKeyboard d.backend d.envelope.sessionId event s
  | .mouse event => handleMouse d.backend d.envelope.sessionId event s

/-! ## What a mouse event leads to -/

/-- The movement of an event. -/
def moveOf (event : MouseEvent) : List InjectedInput :=
  if event.dx ≠ 0 ∨ event.dy ≠ 0 then
    if event.isAbsolute then [.mouseMoveAbsolute event.dx event.dy]
    else [.mouseMove event.dx event.dy]
  else []

/-- The press or the release of a button between two masks. -/
def transition (prevMask mask : UInt8) : UInt8 × MouseButton → Option InjectedInput
  | (bit, button) =>
    if isSet mask bit = isSet prevMask bit then none
    else some (.mouseClick button (isSet mask bit))

/-- The mask that the handler takes for the last one of the session. -/
def recordedMask (s : InputState) (sessionId : SessionId) : UInt8 :=
  ((boundStates sessionId s).buttonStates.lookup sessionId).getD 0

/-- The inputs that a mouse event leads to, in the order of the handler. -/
def planned (s : InputState) (sessionId : SessionId) (event : MouseEvent) : List InjectedInput :=
  moveOf event ++ buttonBits.filterMap (transition (recordedMask s sessionId) event.buttonsMask)

/-- Those that are delivered. -/
def carriedOut (s : InputState) (sessionId : SessionId) (event : MouseEvent)
    (backend : InputBackend) : List InjectedInput :=
  (planned s sessionId event).takeWhile fun input => (backend input).accepted

variable {backend : InputBackend} {sessionId : SessionId} {event : MouseEvent} {s : InputState}

theorem injectMove_eq :
    injectMove backend sessionId event = (moveOf event).forM (inject backend sessionId) := by
  unfold injectMove moveOf
  split_ifs
  · rw [Call.forM_singleton]
  · rw [Call.forM_singleton]
  · rfl

theorem injectButton_eq (prevMask mask : UInt8) (p : UInt8 × MouseButton) :
    injectButton backend sessionId prevMask mask p =
      (transition prevMask mask p).elim (pure ()) (inject backend sessionId) := by
  obtain ⟨bit, button⟩ := p
  unfold injectButton transition
  dsimp only
  cases isSet mask bit <;> cases isSet prevMask bit <;> rfl

theorem injectButtons_eq (prevMask mask : UInt8) :
    buttonBits.forM (injectButton backend sessionId prevMask mask) =
      (buttonBits.filterMap (transition prevMask mask)).forM (inject backend sessionId) := by
  rw [funext (injectButton_eq prevMask mask), Call.forM_optional]

/-- Inputs are delivered up to the first that is refused. -/
theorem forM_inject (inputs : List InjectedInput) (s : InputState) :
    inputs.forM (inject backend sessionId) s =
      (inputs.forM fun input => (backend input).mapErr fun e => .handler e.display,
        { s with injected := s.injected ++
          (inputs.takeWhile fun input => (backend input).accepted).map (sessionId, ·) }) := by
  have hrecord : ∀ (delivered : List InjectedInput) (s : InputState),
      delivered.foldl (fun s input => { s with injected := s.injected ++ [(sessionId, input)] }) s =
        { s with injected := s.injected ++ delivered.map (sessionId, ·) } := by
    intro delivered
    induction delivered with
    | nil => simp
    | cons input delivered ih => simp [ih]
  unfold inject
  rw [Call.forM_attempt, hrecord]
  simp

theorem boundStates_injected (sessionId : SessionId) (s : InputState)
    (injected : List (SessionId × InjectedInput)) :
    boundStates sessionId { s with injected } =
      { boundStates sessionId s with injected } := by
  unfold boundStates
  dsimp only
  split <;> rfl

/-- The handler returns `Ok` exactly when no planned input is refused, and it has delivered those
before the first that is. -/
theorem handleMouse_spec (backend : InputBackend) (sessionId : SessionId) (event : MouseEvent)
    (s : InputState) :
    ((handleMouse backend sessionId (some event) s).1 = .ok () ↔
      ∀ input ∈ planned s sessionId event, (backend input).accepted = true) ∧
    (handleMouse backend sessionId (some event) s).2.injected =
      s.injected ++ (carriedOut s sessionId event backend).map (sessionId, ·) := by
  have haccept : ∀ inputs : List InjectedInput,
      (inputs.forM fun input => (backend input).mapErr fun e => DispatchError.handler e.display) =
        .ok () ↔ ∀ input ∈ inputs, (backend input).accepted = true := fun inputs =>
    Call.forM_eq_ok_iff.trans (by simp)
  unfold handleMouse carriedOut planned
  rw [Outcome.okOr, Call.ofOutcome_ok_bind, injectMove_eq, List.forall_mem_append, Call.bind_apply,
    forM_inject, ← haccept, ← haccept]
  cases hmove : (moveOf event).forM fun input =>
      (backend input).mapErr fun e => DispatchError.handler e.display with
  | ok u =>
    have hall := (haccept _).mp hmove
    dsimp only
    rw [Call.update_bind, Call.getState_bind, boundStates_injected, injectButtons_eq,
      Call.bind_apply, forM_inject, List.takeWhile_append_of_pos hall,
      List.takeWhile_eq_self_iff.mpr hall]
    dsimp only
    rw [← recordedMask]
    cases (buttonBits.filterMap (transition (recordedMask s sessionId) event.buttonsMask)).forM
        fun input => (backend input).mapErr fun e => DispatchError.handler e.display with
    | ok u => simp
    | err e => simp
    | panicked => simp
  | err e =>
    rw [takeWhile_append_of_refused fun hall => by rw [(haccept _).mpr hall] at hmove; cases hmove]
    simp
  | panicked =>
    rw [takeWhile_append_of_refused fun hall => by rw [(haccept _).mpr hall] at hmove; cases hmove]
    simp

end Blackwing.Server
