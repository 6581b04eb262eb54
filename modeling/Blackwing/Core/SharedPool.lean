import Blackwing.Core.Pool
import Blackwing.Lib.Holders

/-!
# The slot pool under threads

`StaticSlotPool` used by any number of threads at once. A thread's place says which atomic access to
the pool comes next, so that a run is an interleaving of single loads, stores, exchanges and lock
operations of `checkout` and of the drop of a guard. A guard cannot move to another thread, so the
thread that drops it is the one that checked it out. Accesses are sequentially consistent, and no
thread unwinds with a guard.

A dropped guard puts its slot back before it gives up the lock: the lock is a field of the guard.
The next thread that is handed the slot can therefore find it locked, and has to wait.

* `Place`, `Worker`, `SharedPool`: the machine. `Worker.act`: what a thread does next.
* `Locks`: who holds which lock, and which slots are wiped. `Locks.step`: every step keeps this.
* `guards_are_exclusive`: the guards of all threads are for different slots, a slot that is handed
  out is wiped, and no thread changes what another one holds. This is due to the locks alone and
  holds for every interleaving.
-/

namespace Blackwing.Core

open Holders

/-! ## Threads -/

/-- Where a thread is in `checkout` or in the drop of a guard. -/
inductive Place (poolSize : Nat) where
  | outside
  /-- `checkout` loads the head. -/
  | loadHead
  /-- It has the head, tests its index and loads the link. -/
  | loadNext (current : TaggedIndex)
  /-- It exchanges the head for the link. -/
  | take (current : TaggedIndex) (index : Fin poolSize) (next : Nat)
  | countTaken (index : Fin poolSize)
  | acquire (index : Fin poolSize)
  | countExhausted
  /-- The drop of a guard, which begins with the policy. -/
  | wipe (index : Fin poolSize)
  /-- `release` loads the head. -/
  | loadHeadFor (index : Fin poolSize)
  | link (index : Fin poolSize) (current : TaggedIndex)
  /-- It exchanges the head for the slot. -/
  | publish (index : Fin poolSize) (current : TaggedIndex)
  /-- `drop` has returned and the lock is given up. -/
  | unlock (index : Fin poolSize)
deriving DecidableEq, Repr

/-- A thread with its guards, oldest first. -/
structure Worker (poolSize : Nat) where
  place : Place poolSize
  guards : List (PoolGuard poolSize)
deriving DecidableEq, Repr

structure SharedPool (slotSize poolSize : Nat) where
  pool : StaticSlotPool slotSize poolSize
  workers : Nat → Worker poolSize

/-- What a thread does. The calls and the writes are its own choice, and are made outside of the
pool's code; a guard is named by its place among those of the thread. -/
inductive Move (slotSize : Nat) where
  | checkout
  | write (place : Nat) (bytes : Bytes slotSize)
  | drop (place : Nat)
  | advance (spurious : Bool)

/-- What `checkout` returns. -/
abbrev Reply (poolSize : Nat) : Type := Option (Except BwError (PoolGuard poolSize))

namespace StaticSlotPool

variable {slotSize poolSize : Nat} {pool : StaticSlotPool slotSize poolSize} {i j : Fin poolSize}
  {s : Slot slotSize}

/-- `self.memory[index]`. -/
def slot (pool : StaticSlotPool slotSize poolSize) (i : Fin poolSize) : Slot slotSize :=
  pool.memory.get i

theorem slot_new (policy : ZeroizePolicy) (i : Fin poolSize) :
    (StaticSlotPool.new policy : StaticSlotPool slotSize poolSize).slot i =
      ⟨Bytes.fill slotSize 0, false⟩ :=
  Vector.getElem_replicate i.isLt

theorem slot_setSlot_self : (pool.setSlot i s).slot i = s := memory_setSlot_self

theorem slot_setSlot_of_ne (h : j ≠ i) : (pool.setSlot i s).slot j = pool.slot j :=
  memory_setSlot_of_ne h

end StaticSlotPool

namespace Worker

variable {slotSize poolSize : Nat}

/-- The next access of a thread inside of the pool's code. -/
def advance (spurious : Bool) (w : Worker poolSize) (pool : StaticSlotPool slotSize poolSize) :
    Reply poolSize × Worker poolSize × StaticSlotPool slotSize poolSize :=
  match w.place with
  | .outside => (none, w, pool)
  | .loadHead => (none, { w with place := .loadNext pool.head }, pool)
  | .loadNext current =>
    if h : current.index < poolSize then
      (none, { w with
        place := .take current ⟨current.index, h⟩ (pool.nodes.get ⟨current.index, h⟩) }, pool)
    else
      (none, { w with place := .countExhausted }, pool)
  | .take current index next =>
    -- `compare_exchange_weak`: the head that it finds is the current one of the next round
    if pool.head = current ∧ spurious = false then
      (none, { w with place := .countTaken index },
        { pool with head := TaggedIndex.new (current.generation + 1) next })
    else
      (none, { w with place := .loadNext pool.head }, pool)
  | .countTaken index =>
    (none, { w with place := .acquire index },
      { pool with successfulCheckouts := pool.successfulCheckouts + 1 })
  | .acquire index =>
    -- a thread that finds the slot locked stays where it is
    if (pool.slot index).locked then (none, w, pool)
    else
      (some (.ok ⟨index⟩), { place := .outside, guards := w.guards ++ [⟨index⟩] },
        pool.setSlot index { pool.slot index with locked := true })
  | .countExhausted =>
    (some (.error .poolAllocationBoundaryViolated), { w with place := .outside },
      { pool with poolExhaustion := pool.poolExhaustion + 1 })
  | .wipe index =>
    (none, { w with place := .loadHeadFor index },
      if pool.policy = .onRelease then PoolGuard.write ⟨index⟩ (Bytes.fill slotSize 0) pool
      else pool)
  | .loadHeadFor index => (none, { w with place := .link index pool.head }, pool)
  | .link index current =>
    (none, { w with place := .publish index current },
      { pool with nodes := pool.nodes.set index current.index index.isLt })
  | .publish index current =>
    if pool.head = current ∧ spurious = false then
      (none, { w with place := .unlock index },
        { pool with head := TaggedIndex.new (current.generation + 1) index })
    else
      (none, { w with place := .link index pool.head }, pool)
  | .unlock index =>
    (none, { w with place := .outside },
      pool.setSlot index { pool.slot index with locked := false })

/-- What a thread does. A call inside of a call, and a guard that is not there, change nothing. -/
def act (w : Worker poolSize) (pool : StaticSlotPool slotSize poolSize) :
    Move slotSize → Reply poolSize × Worker poolSize × StaticSlotPool slotSize poolSize
  | .checkout =>
    if w.place = .outside then (none, { w with place := .loadHead }, pool) else (none, w, pool)
  | .write place bytes =>
    match w.place, w.guards[place]? with
    | .outside, some guard => (none, w, guard.write bytes pool)
    | _, _ => (none, w, pool)
  | .drop place =>
    match w.place, w.guards[place]? with
    | .outside, some guard => (none, ⟨.wipe guard.index, w.guards.eraseIdx place⟩, pool)
    | _, _ => (none, w, pool)
  | .advance spurious => w.advance spurious pool

end Worker

namespace SharedPool

variable {slotSize poolSize : Nat}

def new (policy : ZeroizePolicy) : SharedPool slotSize poolSize :=
  ⟨.new policy, fun _ => ⟨.outside, []⟩⟩

/-- One step of one thread. -/
def step (s : SharedPool slotSize poolSize) (input : Nat × Move slotSize) :
    Reply poolSize × SharedPool slotSize poolSize :=
  ((((s.workers input.1).act s.pool input.2).1),
    ⟨((s.workers input.1).act s.pool input.2).2.2,
      Function.update s.workers input.1 ((s.workers input.1).act s.pool input.2).2.1⟩)

end SharedPool

/-! ## Locks -/

/-- The slot whose lock a thread has beside those of its guards. -/
def Place.dropping {poolSize : Nat} : Place poolSize → Option (Fin poolSize)
  | .wipe i | .loadHeadFor i | .link i _ | .publish i _ | .unlock i => some i
  | _ => none

/-- The slot that a thread has wiped and not yet unlocked. -/
def Place.wiped {poolSize : Nat} : Place poolSize → Option (Fin poolSize)
  | .loadHeadFor i | .link i _ | .publish i _ | .unlock i => some i
  | _ => none

/-- The slots whose locks a thread has. -/
def Worker.holding {poolSize : Nat} (w : Worker poolSize) : List (Fin poolSize) :=
  w.place.dropping.toList ++ w.guards.map PoolGuard.index

theorem Place.dropping_of_wiped {poolSize : Nat} {p : Place poolSize} {i : Fin poolSize}
    (h : p.wiped = some i) : p.dropping = some i := by
  cases p with
  | loadHeadFor | link | publish | unlock => exact h
  | _ => cases h

/-- A slot is locked by the thread that holds it, and is wiped when it is not held. -/
structure Locks {slotSize poolSize : Nat} (s : SharedPool slotSize poolSize) : Prop where
  tallied : Tallied (fun i : Fin poolSize => (s.pool.slot i).locked = true) s.workers Worker.holding
  zeroed : s.pool.policy = .onRelease → ∀ i : Fin poolSize,
    ((s.pool.slot i).locked = false ∨ ∃ t, (s.workers t).place.wiped = some i) →
      (s.pool.slot i).bytes = Bytes.fill slotSize 0

namespace Locks

open StaticSlotPool

variable {slotSize poolSize : Nat} {s : SharedPool slotSize poolSize}

theorem new (policy : ZeroizePolicy) :
    Locks (SharedPool.new policy : SharedPool slotSize poolSize) where
  tallied := ⟨apart_const rfl, fun i => by
    simp [SharedPool.new, slot_new, Worker.holding, Place.dropping]⟩
  zeroed _ i _ := by simp [SharedPool.new, slot_new]

/-- A thread moves on with the locks it has, and the slots stay as they are. -/
theorem keep (h : Locks s) {t : Nat} {w : Worker poolSize} {pool : StaticSlotPool slotSize poolSize}
    (hholding : w.holding.Perm (s.workers t).holding)
    (hwiped : s.pool.policy = .onRelease →
      ∀ i, w.place.wiped = some i → (s.workers t).place.wiped = some i)
    (hmemory : pool.memory = s.pool.memory) (hpolicy : pool.policy = s.pool.policy) :
    Locks ⟨pool, Function.update s.workers t w⟩ where
  tallied := h.tallied.keep hholding fun i => by
    show (pool.slot i).locked = true ↔ _
    rw [slot, hmemory]
    rfl
  zeroed hp i hi := by
    show (pool.slot i).bytes = _
    have hi' : (pool.slot i).locked = false ∨
        ∃ u, (Function.update s.workers t w u).place.wiped = some i := hi
    rw [slot, hmemory] at hi' ⊢
    refine h.zeroed (hpolicy ▸ hp) i (hi'.imp_right ?_)
    rintro ⟨u, hu⟩
    rw [Function.update_apply] at hu
    split at hu
    · exact ⟨t, hwiped (hpolicy ▸ hp) i hu⟩
    · exact ⟨u, hu⟩

/-- A thread moves on and a slot that no other thread holds is written. -/
theorem put (h : Locks s) {t : Nat} {w : Worker poolSize} {i : Fin poolSize} {slot : Slot slotSize}
    (hnodup : w.holding.Nodup) (hothers : ∀ j, j ≠ i → (j ∈ w.holding ↔ j ∈ (s.workers t).holding))
    (hi : ∀ u, u ≠ t → i ∉ (s.workers u).holding) (hslot : slot.locked = true ↔ i ∈ w.holding)
    (hwiped : ∀ j, j ≠ i → w.place.wiped = some j → (s.workers t).place.wiped = some j)
    (hbytes : s.pool.policy = .onRelease → (slot.locked = false ∨ w.place.wiped = some i) →
      slot.bytes = Bytes.fill slotSize 0) :
    Locks ⟨s.pool.setSlot i slot, Function.update s.workers t w⟩ where
  tallied := by
    refine h.tallied.put hnodup hothers hi ?_ fun j hji => ?_
    · show ((s.pool.setSlot i slot).slot i).locked = true ↔ _
      rw [slot_setSlot_self, hslot]
    · show ((s.pool.setSlot i slot).slot j).locked = true ↔ _
      rw [slot_setSlot_of_ne hji]
  zeroed hp j hj := by
    show ((s.pool.setSlot i slot).slot j).bytes = _
    have hj' : ((s.pool.setSlot i slot).slot j).locked = false ∨
        ∃ u, (Function.update s.workers t w u).place.wiped = some j := hj
    by_cases hji : j = i
    · subst hji
      rw [slot_setSlot_self] at hj' ⊢
      refine hbytes hp (hj'.imp_right ?_)
      rintro ⟨u, hu⟩
      rw [Function.update_apply] at hu
      split at hu
      · exact hu
      · next hut =>
        -- another thread that has wiped the slot holds it
        refine absurd ?_ (hi u hut)
        rw [Worker.holding, Place.dropping_of_wiped hu]
        exact List.mem_append_left _ List.mem_cons_self
    · rw [slot_setSlot_of_ne hji] at hj' ⊢
      refine h.zeroed hp j (hj'.imp_right ?_)
      rintro ⟨u, hu⟩
      rw [Function.update_apply] at hu
      split at hu
      · exact ⟨t, hwiped j hji hu⟩
      · exact ⟨u, hu⟩

section Act

variable {t : Nat} {guards : List (PoolGuard poolSize)} {i : Fin poolSize}

section

variable (h : Locks s)
include h

/-- A thread moves on with the locks it has. -/
theorem moved {place place' : Place poolSize} {pool : StaticSlotPool slotSize poolSize}
    (hw : s.workers t = ⟨place, guards⟩) (hdropping : place'.dropping = place.dropping)
    (hwiped : s.pool.policy = .onRelease → place'.wiped = none ∨ place'.wiped = place.wiped)
    (hmemory : pool.memory = s.pool.memory) (hpolicy : pool.policy = s.pool.policy) :
    Locks ⟨pool, Function.update s.workers t ⟨place', guards⟩⟩ := by
  refine h.keep ?_ (fun hp i hi => ?_) hmemory hpolicy
  · rw [hw, Worker.holding, Worker.holding, hdropping]
  · rw [hw]
    rcases hwiped hp with hnone | hsame
    · cases hnone.symm.trans hi
    · exact hsame ▸ hi

theorem nodup_of_dropping {place : Place poolSize} (hw : s.workers t = ⟨place, guards⟩)
    (hdropping : place.dropping = some i) : i ∉ guards.map PoolGuard.index ∧
      (guards.map PoolGuard.index).Nodup := by
  have hnodup := h.tallied.nodup t
  rw [hw, Worker.holding, hdropping] at hnodup
  exact List.nodup_cons.mp hnodup

theorem acquired (hw : s.workers t = ⟨.acquire i, guards⟩)
    (hunlocked : (s.pool.slot i).locked = false) :
    Locks ⟨s.pool.setSlot i { s.pool.slot i with locked := true },
      Function.update s.workers t ⟨.outside, guards ++ [⟨i⟩]⟩⟩ := by
  have hnobody : ∀ u, i ∉ (s.workers u).holding :=
    h.tallied.not_holding_of_not_marked (Bool.eq_false_iff.mp hunlocked)
  have hold : (s.workers t).holding = guards.map PoolGuard.index := by rw [hw]; rfl
  have hnew : Worker.holding ⟨.outside, guards ++ [⟨i⟩]⟩ = guards.map PoolGuard.index ++ [i] := by
    simp [Worker.holding, Place.dropping]
  refine h.put ?_ (fun j hji => ?_) (fun u _ => hnobody u) ?_ nofun ?_
  · rw [hnew, ← hold]
    refine (h.tallied.nodup t).append (List.nodup_singleton i) ?_
    simpa using hnobody t
  · rw [hnew, hold, List.mem_append, List.mem_singleton]
    exact ⟨fun hj => hj.resolve_right hji, Or.inl⟩
  · rw [hnew]
    simp
  · rintro - (hlocked | hwiped)
    · cases hlocked
    · cases hwiped

theorem written {place : Nat} {guard : PoolGuard poolSize} (hw : s.workers t = ⟨.outside, guards⟩)
    (hguard : guards[place]? = some guard) (bytes : Bytes slotSize) :
    Locks ⟨guard.write bytes s.pool, Function.update s.workers t ⟨.outside, guards⟩⟩ := by
  have hmem : guard.index ∈ (s.workers t).holding := by
    rw [hw, Worker.holding]
    exact List.mem_map_of_mem (List.mem_of_getElem? hguard)
  have hlocked := (h.tallied.marked_iff guard.index).mpr ⟨t, hmem⟩
  refine h.put ?_ (fun j _ => ?_) (fun _ hu => h.tallied.not_holding hmem hu) ?_ nofun ?_
  · rw [← hw]
    exact h.tallied.nodup t
  · rw [hw]
  · rw [← hw]
    exact ⟨fun _ => hmem, fun _ => hlocked⟩
  · rintro - (hunlocked | hwiped)
    · cases hlocked.symm.trans hunlocked
    · cases hwiped

theorem wiped (hw : s.workers t = ⟨.wipe i, guards⟩) :
    Locks ⟨PoolGuard.write ⟨i⟩ (Bytes.fill slotSize 0) s.pool,
      Function.update s.workers t ⟨.loadHeadFor i, guards⟩⟩ := by
  have hholding : Worker.holding ⟨.loadHeadFor i, guards⟩ = (s.workers t).holding := by rw [hw]; rfl
  have hmem : i ∈ (s.workers t).holding := by
    rw [hw, Worker.holding]
    exact List.mem_cons_self
  refine h.put ?_ (fun j _ => ?_) (fun _ hu => h.tallied.not_holding hmem hu) ?_
    (fun j hji hj => ?_) (fun _ _ => rfl)
  · rw [hholding]
    exact h.tallied.nodup t
  · rw [hholding]
  · rw [hholding]
    exact ⟨fun _ => hmem, fun _ => (h.tallied.marked_iff i).mpr ⟨t, hmem⟩⟩
  · exact absurd (Option.some.inj hj).symm hji

theorem unlocked (hw : s.workers t = ⟨.unlock i, guards⟩) :
    Locks ⟨s.pool.setSlot i { s.pool.slot i with locked := false },
      Function.update s.workers t ⟨.outside, guards⟩⟩ := by
  have hmem : i ∈ (s.workers t).holding := by
    rw [hw, Worker.holding]
    exact List.mem_cons_self
  obtain ⟨hnot, hnodup⟩ := h.nodup_of_dropping hw rfl
  refine h.put hnodup (fun j hji => ?_) (fun _ hu => h.tallied.not_holding hmem hu) ?_ nofun ?_
  · rw [hw]
    show j ∈ guards.map PoolGuard.index ↔ j ∈ i :: guards.map PoolGuard.index
    rw [List.mem_cons]
    exact ⟨Or.inr, fun hj => hj.resolve_left hji⟩
  · exact ⟨nofun, fun hi => absurd hi hnot⟩
  · intro hp _
    exact h.zeroed hp i (Or.inr ⟨t, by rw [hw]; rfl⟩)

theorem dropped {place : Nat} {guard : PoolGuard poolSize} (hw : s.workers t = ⟨.outside, guards⟩)
    (hguard : guards[place]? = some guard) :
    Locks ⟨s.pool, Function.update s.workers t ⟨.wipe guard.index, guards.eraseIdx place⟩⟩ := by
  obtain ⟨hlt, rfl⟩ := List.getElem?_eq_some_iff.mp hguard
  refine h.keep ?_ nofun rfl rfl
  rw [hw]
  exact (List.getElem_cons_eraseIdx_perm hlt).map PoolGuard.index

end

end Act

/-- Every step keeps the locks in order. -/
theorem step (h : Locks s) (input : Nat × Move slotSize) : Locks (s.step input).2 := by
  obtain ⟨t, move⟩ := input
  rcases hw : s.workers t with ⟨place, guards⟩
  have hstay : Locks ⟨s.pool, Function.update s.workers t ⟨place, guards⟩⟩ := by
    rw [← hw, Function.update_eq_self]
    exact h
  unfold SharedPool.step
  simp only [hw]
  cases move with
  | checkout =>
    simp only [Worker.act]
    split
    · next hplace =>
      obtain rfl : place = .outside := hplace
      exact h.moved hw rfl (fun _ => Or.inl rfl) rfl rfl
    · exact hstay
  | write n bytes =>
    simp only [Worker.act]
    split
    · next hguard => exact h.written hw hguard bytes
    · exact hstay
  | drop n =>
    simp only [Worker.act]
    split
    · next hguard => exact h.dropped hw hguard
    · exact hstay
  | advance spurious =>
    simp only [Worker.act, Worker.advance]
    cases place with
    | outside => exact hstay
    | loadHead => exact h.moved hw rfl (fun _ => Or.inl rfl) rfl rfl
    | loadNext current =>
      dsimp only
      split
      · exact h.moved hw rfl (fun _ => Or.inl rfl) rfl rfl
      · exact h.moved hw rfl (fun _ => Or.inl rfl) rfl rfl
    | take current index next =>
      dsimp only
      split
      · exact h.moved hw rfl (fun _ => Or.inl rfl) rfl rfl
      · exact h.moved hw rfl (fun _ => Or.inl rfl) rfl rfl
    | countTaken index => exact h.moved hw rfl (fun _ => Or.inl rfl) rfl rfl
    | acquire index =>
      dsimp only
      split
      · exact hstay
      · next hunlocked => exact h.acquired hw (Bool.not_eq_true _ ▸ hunlocked)
    | countExhausted => exact h.moved hw rfl (fun _ => Or.inl rfl) rfl rfl
    | wipe index =>
      dsimp only
      split
      · exact h.wiped hw
      · next hpolicy => exact h.moved hw rfl (fun hp => absurd hp hpolicy) rfl rfl
    | loadHeadFor index => exact h.moved hw rfl (fun _ => Or.inr rfl) rfl rfl
    | link index current => exact h.moved hw rfl (fun _ => Or.inr rfl) rfl rfl
    | publish index current =>
      dsimp only
      split
      · exact h.moved hw rfl (fun _ => Or.inr rfl) rfl rfl
      · exact h.moved hw rfl (fun _ => Or.inr rfl) rfl rfl
    | unlock index => exact h.unlocked hw

end Locks

/-! ## Every interleaving -/

namespace Worker

open StaticSlotPool

variable {slotSize poolSize : Nat} {w : Worker poolSize} {pool : StaticSlotPool slotSize poolSize}

/-- What a step does to the slots: a slot is handed out, or a slot that the thread holds is written,
or none is. -/
theorem act_cases (w : Worker poolSize) (pool : StaticSlotPool slotSize poolSize)
    (move : Move slotSize) :
    (∃ i, (pool.slot i).locked = false ∧
      w.act pool move = (some (.ok ⟨i⟩), ⟨.outside, w.guards ++ [⟨i⟩]⟩,
        pool.setSlot i { pool.slot i with locked := true })) ∨
    ((∀ guard, (w.act pool move).1 ≠ some (.ok guard)) ∧
      (w.act pool move).2.2.policy = pool.policy ∧
      ((w.act pool move).2.2.memory = pool.memory ∨
        ∃ i ∈ w.holding, ∃ slot, (w.act pool move).2.2.memory = (pool.setSlot i slot).memory)) := by
  obtain ⟨place, guards⟩ := w
  cases move with
  | checkout =>
    refine Or.inr ?_
    dsimp only [act]
    split
    · exact ⟨nofun, rfl, Or.inl rfl⟩
    · exact ⟨nofun, rfl, Or.inl rfl⟩
  | write n bytes =>
    refine Or.inr ?_
    dsimp only [act]
    split
    · next guard hguard =>
      refine ⟨nofun, rfl, Or.inr ⟨guard.index, ?_, _, rfl⟩⟩
      exact List.mem_append_right _ (List.mem_map_of_mem (List.mem_of_getElem? hguard))
    · exact ⟨nofun, rfl, Or.inl rfl⟩
  | drop n =>
    refine Or.inr ?_
    dsimp only [act]
    split
    · exact ⟨nofun, rfl, Or.inl rfl⟩
    · exact ⟨nofun, rfl, Or.inl rfl⟩
  | advance spurious =>
    dsimp only [act, advance]
    cases place with
    | acquire i =>
      dsimp only
      split
      · exact Or.inr ⟨nofun, rfl, Or.inl rfl⟩
      · next hunlocked => exact Or.inl ⟨i, Bool.not_eq_true _ ▸ hunlocked, rfl⟩
    | wipe i =>
      dsimp only
      split
      · exact Or.inr ⟨nofun, rfl, Or.inr ⟨i, List.mem_append_left _ List.mem_cons_self, _, rfl⟩⟩
      · exact Or.inr ⟨nofun, rfl, Or.inl rfl⟩
    | unlock i =>
      exact Or.inr ⟨nofun, rfl, Or.inr ⟨i, List.mem_append_left _ List.mem_cons_self, _, rfl⟩⟩
    | loadNext | take | publish =>
      dsimp only
      split
      · exact Or.inr ⟨nofun, rfl, Or.inl rfl⟩
      · exact Or.inr ⟨nofun, rfl, Or.inl rfl⟩
    | _ => exact Or.inr ⟨nofun, rfl, Or.inl rfl⟩

theorem policy_act (move : Move slotSize) : (w.act pool move).2.2.policy = pool.policy := by
  rcases w.act_cases pool move with ⟨i, -, heq⟩ | ⟨-, hpolicy, -⟩
  · rw [heq]
    rfl
  · exact hpolicy

/-- A thread writes only to slots that it holds. -/
theorem bytes_act (move : Move slotSize) {j : Fin poolSize} (hj : j ∉ w.holding) :
    ((w.act pool move).2.2.slot j).bytes = (pool.slot j).bytes := by
  rcases w.act_cases pool move with ⟨i, -, heq⟩ | ⟨-, -, hmemory | ⟨i, hi, s, hmemory⟩⟩
  · rw [heq]
    by_cases hji : j = i
    · subst hji
      rw [slot_setSlot_self]
    · rw [slot_setSlot_of_ne hji]
  · rw [slot, hmemory]
    rfl
  · have hne : j ≠ i := fun heq => hj (heq ▸ hi)
    rw [slot, hmemory]
    exact congrArg Slot.bytes (slot_setSlot_of_ne hne)

end Worker

variable {slotSize poolSize : Nat}

/-- A slot that is handed out was unlocked, and therefore wiped. -/
theorem Locks.handed {s : SharedPool slotSize poolSize} (h : Locks s) {input : Nat × Move slotSize}
    {guard : PoolGuard poolSize} (hout : (s.step input).1 = some (.ok guard))
    (hpolicy : s.pool.policy = .onRelease) :
    guard.asSlice (s.step input).2.pool = List.replicate slotSize 0 := by
  rcases (s.workers input.1).act_cases s.pool input.2 with ⟨i, hunlocked, heq⟩ | ⟨hnot, -⟩
  · have hreply : (s.step input).1 = some (.ok ⟨i⟩) := congrArg Prod.fst heq
    have hpool : (s.step input).2.pool = s.pool.setSlot i { s.pool.slot i with locked := true } :=
      congrArg (fun r => r.2.2) heq
    obtain rfl : guard = ⟨i⟩ := by
      rw [hreply] at hout
      exact (Except.ok.inj (Option.some.inj hout)).symm
    rw [hpool, PoolGuard.asSlice, StaticSlotPool.memory_setSlot_self,
      h.zeroed hpolicy i (Or.inl hunlocked)]
    rfl
  · exact absurd hout (hnot guard)

theorem locks_endState (poolSize : Nat) (policy : ZeroizePolicy)
    (inputs : List (Nat × Move slotSize)) :
    Locks (endState SharedPool.step (SharedPool.new policy : SharedPool slotSize poolSize) inputs) ∧
      (endState SharedPool.step (SharedPool.new policy : SharedPool slotSize poolSize)
        inputs).pool.policy = policy := by
  induction inputs using List.reverseRecOn with
  | nil => exact ⟨Locks.new policy, rfl⟩
  | append_singleton inputs input ih =>
    rw [endState_snoc]
    exact ⟨ih.1.step input, (Worker.policy_act _).trans ih.2⟩

/-- In every interleaving of any number of threads no two guards are for one slot, a slot handed out
under `OnRelease` is all zero, and a step of one thread neither takes a guard from another one nor
changes what its slot shows. -/
theorem guards_are_exclusive (policy : ZeroizePolicy) (inputs : List (Nat × Move slotSize)) :
    ∀ e ∈ run SharedPool.step (SharedPool.new policy : SharedPool slotSize poolSize) inputs,
      (∀ t, (e.post.workers t).guards.Nodup) ∧
      (∀ t u guard, guard ∈ (e.post.workers t).guards → guard ∈ (e.post.workers u).guards → t = u) ∧
      (∀ guard, policy = .onRelease → e.out = some (.ok guard) →
        guard.asSlice e.post.pool = List.replicate slotSize 0) ∧
      ∀ t, t ≠ e.input.1 → (e.post.workers t).guards = (e.pre.workers t).guards ∧
        ∀ guard ∈ (e.pre.workers t).guards,
          guard.asSlice e.post.pool = guard.asSlice e.pre.pool := by
  intro e he
  obtain ⟨before, -, -, hentry⟩ := mem_run he
  generalize e.input = input at hentry
  subst hentry
  obtain ⟨hlocks, hpolicy⟩ := locks_endState poolSize policy before
  have hpost := hlocks.step input
  have hheld : ∀ {s : SharedPool slotSize poolSize} {t guard}, guard ∈ (s.workers t).guards →
      guard.index ∈ (s.workers t).holding := fun hguard =>
    List.mem_append_right _ (List.mem_map_of_mem hguard)
  refine ⟨fun t => ?_, fun t u guard ht hu => ?_, fun guard honrelease hout => ?_, fun t ht => ?_⟩
  · exact (List.nodup_append.mp (hpost.tallied.nodup t)).2.1.of_map
  · exact hpost.tallied.disjoint t u guard.index (hheld ht) (hheld hu)
  · exact hlocks.handed hout (hpolicy.trans honrelease)
  · refine ⟨congrArg Worker.guards (Function.update_of_ne ht _ _), fun guard hguard => ?_⟩
    -- the slot is held by `t`, so the thread that steps does not hold it
    refine congrArg Bytes.toList (Worker.bytes_act input.2 ?_)
    exact hlocks.tallied.not_holding (hheld hguard) ht.symm

/-- A thread checks out up to its lock. -/
def untilLock : List (Nat × Move 1) :=
  [(0, .checkout), (0, .advance false), (0, .advance false), (0, .advance false), (0, .advance false)]

theorem guards_are_exclusive_first :
    (SharedPool.step (endState SharedPool.step (SharedPool.new .onRelease : SharedPool 1 2) untilLock)
        (0, .advance false)).1 = some (.ok ⟨0⟩) ∧
      PoolGuard.asSlice ⟨0⟩ (SharedPool.step (endState SharedPool.step
        (SharedPool.new .onRelease : SharedPool 1 2) untilLock) (0, .advance false)).2.pool = [0] := by
  have hentry :
      stepEntry SharedPool.step (endState SharedPool.step (SharedPool.new .onRelease) untilLock)
      (0, .advance false) ∈ run SharedPool.step (SharedPool.new .onRelease : SharedPool 1 2)
        (untilLock ++ [(0, .advance false)]) := by
    rw [run_snoc]
    exact List.mem_append_right _ List.mem_cons_self
  exact ⟨rfl, (guards_are_exclusive .onRelease _ _ hentry).2.2.1 ⟨0⟩ rfl rfl⟩

end Blackwing.Core
