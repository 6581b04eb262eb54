import Blackwing.Server.Input

/-!
# The cursor

A mouse event moves the cursor by its coordinates, or to them when they are absolute. The
handler skips an event whose coordinates are both 0. For a relative event this is no
movement; for an absolute one it is the upper left corner of the screen.

* `cursor`: the position after the injected movements.
* `Position.report`: the position that an envelope asks for.
* `cursor_follows_iff`: the two agree exactly when the last absolute event of the run, if
  it names the corner, finds the cursor there already.
-/

namespace Blackwing.Server

structure Position where
  x : Int
  y : Int
deriving DecidableEq

/-- Where the client wants the cursor after an event. -/
def Position.follow (p : Position) (event : MouseEvent) : Position :=
  if event.isAbsolute then ⟨event.dx.toInt, event.dy.toInt⟩
  else ⟨p.x + event.dx.toInt, p.y + event.dy.toInt⟩

/-- Where an input that is injected leaves the cursor. -/
def Position.move (p : Position) : InjectedInput → Position
  | .mouseMove dx dy => ⟨p.x + dx.toInt, p.y + dy.toInt⟩
  | .mouseMoveAbsolute normX normY => ⟨normX.toInt, normY.toInt⟩
  | .mouseClick _ _ => p
  | .keyboard _ _ => p

/-- The cursor after what was injected. -/
def cursor (start : Position) (injected : List (SessionId × InjectedInput)) : Position :=
  injected.foldl (fun p i => p.move i.2) start

/-- The mouse event of an envelope. -/
def Delivery.mouseEvent (d : Delivery) : Option MouseEvent :=
  match d.envelope.message with
  | .mouse event => event
  | .keyboard _ => none

/-- Where the client wants the cursor after an envelope. -/
def Position.report (p : Position) (d : Delivery) : Position := d.mouseEvent.elim p p.follow

/-- The envelope sets the cursor to a position. -/
def Delivery.isAbsolute (d : Delivery) : Bool := d.mouseEvent.any (·.isAbsolute)

/-- The envelope sets the cursor to the position `(0, 0)`. -/
def Delivery.toOrigin (d : Delivery) : Bool :=
  d.mouseEvent.any fun event => event.isAbsolute && event.dx == 0 && event.dy == 0

namespace CursorLemmas

variable {start : Position} {s : InputState} {d : Delivery}

theorem cursor_append (l l' : List (SessionId × InjectedInput)) :
    cursor start (l ++ l') = cursor (cursor start l) l' := List.foldl_append

theorem cursor_clicks (p : Position) (sessionId : SessionId) (prevMask mask : UInt8)
    (bits : List (UInt8 × MouseButton)) :
    cursor p ((bits.filterMap (transition prevMask mask)).map (sessionId, ·)) = p := by
  induction bits with
  | nil => rfl
  | cons bit bits ih =>
    rw [List.filterMap_cons]
    unfold transition
    dsimp only
    split_ifs
    · exact ih
    · exact ih

theorem cursor_moveOf (p : Position) (sessionId : SessionId) (event : MouseEvent) :
    cursor p ((moveOf event).map (sessionId, ·)) =
      if event.isAbsolute && event.dx == 0 && event.dy == 0 then p else p.follow event := by
  unfold moveOf Position.follow
  by_cases hzero : event.dx = 0 ∧ event.dy = 0
  · obtain ⟨hx, hy⟩ := hzero
    cases event.isAbsolute <;> simp [hx, hy, cursor]
  · rw [if_pos (Decidable.not_and_iff_or_not.mp hzero)]
    cases event.isAbsolute <;> simp_all [cursor, Position.move]

/-- An envelope that is handled moves the cursor where its client wants it, unless that is the
origin. -/
theorem cursor_handleInput (hok : (handleInput s d).1 = .ok ()) :
    cursor start (handleInput s d).2.injected =
      if d.toOrigin then cursor start s.injected else (cursor start s.injected).report d := by
  unfold handleInput at hok ⊢
  unfold Delivery.toOrigin Position.report Delivery.mouseEvent
  cases hmessage : d.envelope.message with
  | keyboard event =>
    cases event with
    | none =>
      rw [hmessage] at hok
      cases hok
    | some event =>
      show cursor start (inject d.backend d.envelope.sessionId _ s).2.injected = _
      unfold inject Call.attempt
      dsimp only
      split
      · exact cursor_append _ _
      · rfl
  | mouse event =>
    cases event with
    | none =>
      rw [hmessage] at hok
      cases hok
    | some event =>
      rw [hmessage] at hok
      obtain ⟨hiff, hinjected⟩ := handleMouse_spec d.backend d.envelope.sessionId event s
      dsimp only at hok ⊢
      rw [hinjected, carriedOut, List.takeWhile_eq_self_iff.mpr (hiff.mp hok), planned,
        List.map_append, cursor_append, cursor_append, cursor_clicks, cursor_moveOf]
      rfl

theorem report_toOrigin (h : d.toOrigin = true) (p : Position) : p.report d = ⟨0, 0⟩ := by
  unfold Delivery.toOrigin at h
  unfold Position.report
  cases hevent : d.mouseEvent with
  | none => simp [hevent] at h
  | some event =>
    rw [hevent] at h
    simp only [Option.any_some, Bool.and_eq_true, beq_iff_eq] at h
    obtain ⟨⟨habs, hx⟩, hy⟩ := h
    simp [Position.follow, habs, hx, hy]

theorem isAbsolute_of_toOrigin (h : d.toOrigin = true) : d.isAbsolute = true := by
  unfold Delivery.toOrigin at h
  unfold Delivery.isAbsolute
  cases hevent : d.mouseEvent with
  | none => simp [hevent] at h
  | some event =>
    rw [hevent] at h
    simp only [Option.any_some, Bool.and_eq_true] at h ⊢
    exact h.1.1

/-- An absolute event forgets where the cursor was; any other keeps two positions apart. -/
theorem report_eq_iff (p q : Position) :
    p.report d = q.report d ↔ d.isAbsolute = true ∨ p = q := by
  obtain ⟨px, py⟩ := p
  obtain ⟨qx, qy⟩ := q
  unfold Position.report Delivery.isAbsolute
  cases d.mouseEvent with
  | none => simp
  | some event => cases habs : event.isAbsolute <;> simp [Position.follow, habs]

end CursorLemmas

open CursorLemmas

/-- When every envelope is handled, the cursor is where the client wants it, from any start, exactly
when the last absolute event, if it names the origin, finds the cursor there. -/
theorem cursor_follows_iff (deliveries : List Delivery)
    (hok : ∀ e ∈ run handleInput .new deliveries, e.out = .ok ()) (start : Position) :
    cursor start (endState handleInput .new deliveries).injected =
        deliveries.foldl Position.report start ↔
      ∀ before d after, deliveries = before ++ d :: after → d.toOrigin = true →
        (∀ d' ∈ after, d'.isAbsolute = false) →
        cursor start (endState handleInput .new before).injected = ⟨0, 0⟩ := by
  induction deliveries using List.reverseRecOn with
  | nil =>
    refine iff_of_true rfl fun before d after h => ?_
    cases before <;> cases h
  | append_singleton deliveries d ih =>
    rw [run_snoc] at hok
    have hlast := hok _ (List.mem_append_right _ (List.mem_singleton.mpr rfl))
    have ih := ih fun e he => hok e (List.mem_append_left _ he)
    rw [endState_snoc, List.foldl_append, cursor_handleInput hlast, List.foldl_cons, List.foldl_nil,
      forall_split_snoc]
    simp only [List.forall_mem_append, List.forall_mem_singleton]
    cases habs : d.isAbsolute with
    | true =>
      -- no event before an absolute one counts
      cases horigin : d.toOrigin with
      | true => simp [report_toOrigin horigin]
      | false => simp [report_eq_iff, habs]
    | false =>
      have horigin : d.toOrigin = false :=
        Bool.eq_false_iff.mpr fun h => nomatch habs.symm.trans (isAbsolute_of_toOrigin h)
      rw [horigin, if_neg Bool.false_ne_true, report_eq_iff, ih, habs]
      simp

/-- A mouse envelope that only moves, through a backend that refuses nothing. -/
def moves (dx dy : Int32) (isAbsolute : Bool) : Delivery where
  envelope := ⟨Bytes.fill 16 0, .mouse (some ⟨dx, dy, 0, isAbsolute⟩)⟩
  backend _ := .ok ()

/-- An absolute event and a relative one. -/
theorem cursor_follows_two_events :
    cursor ⟨7, 7⟩ (endState handleInput .new [moves 100 100 true, moves (-3) 4 false]).injected =
      [moves 100 100 true, moves (-3) 4 false].foldl Position.report ⟨7, 7⟩ := by
  have hnone : ∀ d ∈ [moves 100 100 true, moves (-3) 4 false], d.toOrigin = false := by
    decide +kernel
  refine (cursor_follows_iff _ (by decide +kernel) ⟨7, 7⟩).mpr fun before d after hl horigin => ?_
  rw [hnone d (hl ▸ List.mem_append_right _ List.mem_cons_self)] at horigin
  cases horigin

/-- The cursor stays where it is when the client moves it to the origin. -/
theorem move_to_origin_lost :
    (∀ e ∈ run handleInput .new [moves 100 100 true, moves 0 0 true], e.out = .ok ()) ∧
    cursor ⟨7, 7⟩ (endState handleInput .new [moves 100 100 true, moves 0 0 true]).injected =
      ⟨100, 100⟩ ∧
    [moves 100 100 true, moves 0 0 true].foldl Position.report ⟨7, 7⟩ = ⟨0, 0⟩ := by
  decide +kernel

end Blackwing.Server
