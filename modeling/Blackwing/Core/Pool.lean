import Blackwing.Lib.Bytes
import Blackwing.Lib.Call
import Blackwing.Lib.FreeList
import Blackwing.Lib.Run

/-!
# The slot pool

`StaticSlotPool` of `bw-core`: slots of a fixed size behind mutexes, a stack of the free ones that
is threaded through an array of links, and guards that give their slot back when they are dropped.
The head of the stack is one word with a generation of 16 bits, which wraps, above an index of 48
bits.

The operations here run one at a time. A `compare_exchange_weak` may still fail without a reason;
how often it does is given with each operation. No thread unwinds with a guard, so no mutex is
poisoned.

* `TaggedIndex.index_new`: the generation leaves the index alone.
* `checkout_of_free`, `checkout_of_exhausted`, `drop_eq`: what the loops do, for any number of
  failed exchanges.
* `Represents`: the pool and its guards stand for a stack of free slots and a list of held ones, and
  `Represents.step`: each operation is the one on that stack.
* `slots_accounted_for`: what holds after every sequence of operations.
-/

namespace Blackwing.Core

open FreeList

/-- The error of `bw-core` that the pool returns. -/
inductive BwError where
  | poolAllocationBoundaryViolated
deriving DecidableEq, Repr

inductive ZeroizePolicy where
  | never
  | onRelease
deriving DecidableEq, Repr

/-! ## Tagged indices -/

structure TaggedIndex where
  raw : UInt64
deriving DecidableEq, Repr

namespace TaggedIndex

def idxMask : UInt64 := 0x0000FFFFFFFFFFFF

def new (gen : UInt16) (idx : Nat) : TaggedIndex :=
  ⟨gen.toUInt64 <<< 48 ||| UInt64.ofNat idx &&& idxMask⟩

def generation (t : TaggedIndex) : UInt16 := (t.raw >>> 48).toUInt16

def index (t : TaggedIndex) : Nat := (t.raw &&& idxMask).toNat

theorem index_new (gen : UInt16) {idx : Nat} (h : idx < 2 ^ 48) : (new gen idx).index = idx := by
  have hmask : idxMask.toNat = 2 ^ 48 - 1 := by decide
  have hidx : idx % 2 ^ 64 % 2 ^ 48 = idx := by
    rw [Nat.mod_eq_of_lt (Nat.lt_trans h (by decide)), Nat.mod_eq_of_lt h]
  -- the generation is shifted above the mask
  have hgen : (gen.toUInt64 <<< 48).toNat % 2 ^ 48 = 0 := by
    have hshift : (48 : UInt64).toNat % 64 = 48 := by decide
    rw [UInt64.toNat_shiftLeft, hshift, Nat.shiftLeft_eq]
    omega
  rw [index, new, UInt64.toNat_and, UInt64.toNat_or, UInt64.toNat_and, hmask, UInt64.toNat_ofNat',
    Nat.and_two_pow_sub_one_eq_mod, Nat.and_two_pow_sub_one_eq_mod, Nat.or_mod_two_pow, hgen, hidx,
    Nat.zero_or, Nat.mod_eq_of_lt h]

end TaggedIndex

/-! ## The pool -/

/-- A `Mutex<[u8; SLOT_SIZE]>`. -/
structure Slot (slotSize : Nat) where
  bytes : Bytes slotSize
  locked : Bool
deriving DecidableEq

structure StaticSlotPool (slotSize poolSize : Nat) where
  memory : Vector (Slot slotSize) poolSize
  nodes : Vector Nat poolSize
  head : TaggedIndex
  policy : ZeroizePolicy
  successfulCheckouts : UInt64
  poolExhaustion : UInt64

/-- A guard of a slot; only `checkout` makes one, for an index inside the pool. -/
structure PoolGuard (poolSize : Nat) where
  index : Fin poolSize
deriving DecidableEq, Repr

namespace StaticSlotPool

variable {slotSize poolSize : Nat}

def new (policy : ZeroizePolicy) : StaticSlotPool slotSize poolSize where
  memory := Vector.replicate poolSize ⟨Bytes.fill slotSize 0, false⟩
  nodes := Vector.ofFn fun i => i.val + 1
  head := TaggedIndex.new 0 0
  policy := policy
  successfulCheckouts := 0
  poolExhaustion := 0

/-- A write to the slot at an index. -/
def setSlot (pool : StaticSlotPool slotSize poolSize) (i : Fin poolSize) (slot : Slot slotSize) :
    StaticSlotPool slotSize poolSize :=
  { pool with memory := pool.memory.set i slot }

/-- `self.head.compare_exchange_weak(current, new, ..)`, which may fail although the head is the
current one. -/
def compareExchangeWeak (spurious : Bool) (current new : TaggedIndex) :
    Call (StaticSlotPool slotSize poolSize) BwError (Except TaggedIndex TaggedIndex) := fun pool =>
  if pool.head = current ∧ spurious = false then (.ok (.ok current), { pool with head := new })
  else (.ok (.error pool.head), pool)

/-- `self.memory[index].lock()`. A thread that asks for a lock it holds does not get it. -/
def lock (i : Fin poolSize) : Call (StaticSlotPool slotSize poolSize) BwError Unit := fun pool =>
  if pool.memory[i].locked then (.panicked, pool)
  else (.ok (), pool.setSlot i { pool.memory[i] with locked := true })

/-- The rounds of an operation whose exchange fails so often and is then made. -/
def rounds (spurious : Nat) : List Bool := List.replicate spurious true ++ [false]

/-- The loop of `checkout`, over the rounds it is given. -/
def checkoutLoop :
    List Bool → TaggedIndex → Call (StaticSlotPool slotSize poolSize) BwError (PoolGuard poolSize)
  | [], _ => Call.ofOutcome .panicked
  | spurious :: rest, currentHead =>
    if h : currentHead.index < poolSize then do
      let pool ← Call.getState
      let nextIndex := pool.nodes[currentHead.index]
      let newHead := TaggedIndex.new (currentHead.generation + 1) nextIndex
      match ← compareExchangeWeak spurious currentHead newHead with
      | .ok _ => do
        Call.update fun pool => { pool with successfulCheckouts := pool.successfulCheckouts + 1 }
        lock ⟨currentHead.index, h⟩
        pure ⟨⟨currentHead.index, h⟩⟩
      | .error actual => checkoutLoop rest actual
    else do
      Call.update fun pool => { pool with poolExhaustion := pool.poolExhaustion + 1 }
      Call.fail .poolAllocationBoundaryViolated

def checkout (spurious : Nat) :
    Call (StaticSlotPool slotSize poolSize) BwError (PoolGuard poolSize) := do
  let pool ← Call.getState
  checkoutLoop (rounds spurious) pool.head

/-- The loop of `release`, over the rounds it is given. -/
def releaseLoop (index : Fin poolSize) :
    List Bool → TaggedIndex → Call (StaticSlotPool slotSize poolSize) BwError Unit
  | [], _ => Call.ofOutcome .panicked
  | spurious :: rest, currentHead => do
    Call.update fun pool => { pool with nodes := pool.nodes.set index currentHead.index }
    let newHead := TaggedIndex.new (currentHead.generation + 1) index
    match ← compareExchangeWeak spurious currentHead newHead with
    | .ok _ => pure ()
    | .error actual => releaseLoop index rest actual

def release (index : Fin poolSize) (spurious : Nat) :
    Call (StaticSlotPool slotSize poolSize) BwError Unit := do
  let pool ← Call.getState
  releaseLoop index (rounds spurious) pool.head

end StaticSlotPool

namespace PoolGuard

open StaticSlotPool

variable {slotSize poolSize : Nat}

/-- What `as_slice` shows. -/
def asSlice (guard : PoolGuard poolSize) (pool : StaticSlotPool slotSize poolSize) : List UInt8 :=
  pool.memory[guard.index].bytes.toList

/-- A write through `as_mut_slice`, after which the slot has these bytes. -/
def write (guard : PoolGuard poolSize) (bytes : Bytes slotSize)
    (pool : StaticSlotPool slotSize poolSize) : StaticSlotPool slotSize poolSize :=
  pool.setSlot guard.index { pool.memory[guard.index] with bytes := bytes }

/-- `Drop for PoolGuard`. The lock is a field of the guard and is given up after `drop` returns. -/
def drop (guard : PoolGuard poolSize) (spurious : Nat) :
    Call (StaticSlotPool slotSize poolSize) BwError Unit := do
  let pool ← Call.getState
  if pool.policy = .onRelease then
    Call.update (guard.write (Bytes.fill slotSize 0))
  release guard.index spurious
  Call.update fun pool =>
    pool.setSlot guard.index { pool.memory[guard.index] with locked := false }

end PoolGuard

/-! ## A pool in use -/

/-- A pool and its outstanding guards, oldest first. -/
structure PoolUse (slotSize poolSize : Nat) where
  pool : StaticSlotPool slotSize poolSize
  guards : List (PoolGuard poolSize)

/-- An operation. A guard is named by its place among the outstanding ones. -/
inductive PoolOp (slotSize : Nat) where
  | checkout (spurious : Nat)
  | write (place : Nat) (bytes : Bytes slotSize)
  | drop (place spurious : Nat)

namespace PoolUse

variable {slotSize poolSize : Nat}

def new (policy : ZeroizePolicy) : PoolUse slotSize poolSize := ⟨.new policy, []⟩

/-- One operation, with the guard that it hands out. At a place without a guard nothing is done. -/
def step (u : PoolUse slotSize poolSize) :
    PoolOp slotSize → Outcome BwError (Option (PoolGuard poolSize)) × PoolUse slotSize poolSize
  | .checkout spurious =>
    match StaticSlotPool.checkout spurious u.pool with
    | (.ok guard, pool) => (.ok (some guard), ⟨pool, u.guards ++ [guard]⟩)
    | (.err e, pool) => (.err e, { u with pool := pool })
    | (.panicked, pool) => (.panicked, { u with pool := pool })
  | .write place bytes =>
    match u.guards[place]? with
    | none => (.ok none, u)
    | some guard => (.ok none, { u with pool := guard.write bytes u.pool })
  | .drop place spurious =>
    match u.guards[place]? with
    | none => (.ok none, u)
    | some guard =>
      match guard.drop spurious u.pool with
      | (.ok _, pool) => (.ok none, ⟨pool, u.guards.eraseIdx place⟩)
      | (.err e, pool) => (.err e, { u with pool := pool })
      | (.panicked, pool) => (.panicked, { u with pool := pool })

end PoolUse

/-! ## What the loops do -/

namespace StaticSlotPool

variable {slotSize poolSize : Nat} {pool : StaticSlotPool slotSize poolSize}

theorem compareExchangeWeak_spurious (current new : TaggedIndex) :
    compareExchangeWeak true current new pool = (.ok (.error pool.head), pool) :=
  if_neg fun h => nomatch h.2

theorem compareExchangeWeak_of_eq {current : TaggedIndex} (h : pool.head = current)
    (new : TaggedIndex) :
    compareExchangeWeak false current new pool = (.ok (.ok current), { pool with head := new }) :=
  if_pos ⟨h, rfl⟩

theorem lock_of_unlocked {i : Fin poolSize} (h : pool.memory[i].locked = false) :
    lock i pool = (.ok (), pool.setSlot i { pool.memory[i] with locked := true }) :=
  if_neg (Bool.not_eq_true _ ▸ h)

/-- The pool after its top slot is handed out. -/
def taken (pool : StaticSlotPool slotSize poolSize) (h : pool.head.index < poolSize) :
    StaticSlotPool slotSize poolSize :=
  { pool with
    head := TaggedIndex.new (pool.head.generation + 1) pool.nodes[pool.head.index]
    successfulCheckouts := pool.successfulCheckouts + 1 }.setSlot ⟨pool.head.index, h⟩
      { pool.memory[pool.head.index] with locked := true }

theorem checkout_of_free (spurious : Nat) (h : pool.head.index < poolSize)
    (hunlocked : pool.memory[pool.head.index].locked = false) :
    checkout spurious pool = (.ok ⟨⟨pool.head.index, h⟩⟩, pool.taken h) := by
  show checkoutLoop (rounds spurious) pool.head pool = _
  induction spurious with
  | zero =>
    show checkoutLoop [false] pool.head pool = _
    rw [checkoutLoop, dif_pos h, Call.getState_bind,
      Call.bind_of_ok (compareExchangeWeak_of_eq rfl _)]
    exact Call.bind_of_ok (lock_of_unlocked hunlocked) _
  | succ n ih =>
    show checkoutLoop (true :: rounds n) pool.head pool = _
    rw [checkoutLoop, dif_pos h, Call.getState_bind,
      Call.bind_of_ok (compareExchangeWeak_spurious _ _)]
    exact ih

theorem checkout_of_exhausted (spurious : Nat) (h : poolSize ≤ pool.head.index) :
    checkout spurious pool = (.err .poolAllocationBoundaryViolated,
      { pool with poolExhaustion := pool.poolExhaustion + 1 }) := by
  show checkoutLoop (rounds spurious) pool.head pool = _
  -- the first round finds the end mark, whatever its exchange would do
  obtain ⟨first, rest, hrounds⟩ : ∃ first rest, rounds spurious = first :: rest := by
    cases spurious with
    | zero => exact ⟨false, [], rfl⟩
    | succ n => exact ⟨true, rounds n, rfl⟩
  rw [hrounds, checkoutLoop, dif_neg (Nat.not_lt.mpr h)]
  rfl

/-- The pool after a slot is put back on top. -/
def released (pool : StaticSlotPool slotSize poolSize) (i : Fin poolSize) :
    StaticSlotPool slotSize poolSize :=
  { pool with
    nodes := pool.nodes.set i pool.head.index
    head := TaggedIndex.new (pool.head.generation + 1) i }

theorem release_eq (i : Fin poolSize) (spurious : Nat) :
    release i spurious pool = (.ok (), pool.released i) := by
  show releaseLoop i (rounds spurious) pool.head pool = _
  induction spurious generalizing pool with
  | zero =>
    show releaseLoop i [false] pool.head pool = _
    rw [releaseLoop, Call.update_bind]
    exact Call.bind_of_ok (compareExchangeWeak_of_eq rfl _) _
  | succ n ih =>
    show releaseLoop i (true :: rounds n) pool.head pool = _
    rw [releaseLoop, Call.update_bind, Call.bind_of_ok (compareExchangeWeak_spurious _ _)]
    -- the next round writes the same link again
    refine (@ih { pool with nodes := pool.nodes.set i pool.head.index }).trans ?_
    simp only [released, Vector.set_set]

/-- The slot that a dropped guard leaves. -/
def leftSlot (pool : StaticSlotPool slotSize poolSize) (i : Fin poolSize) : Slot slotSize where
  bytes := if pool.policy = .onRelease then Bytes.fill slotSize 0 else pool.memory[i].bytes
  locked := false

theorem drop_eq (guard : PoolGuard poolSize) (spurious : Nat) :
    guard.drop spurious pool =
      (.ok (), (pool.released guard.index).setSlot guard.index (pool.leftSlot guard.index)) := by
  unfold PoolGuard.drop
  rw [Call.getState_bind]
  by_cases hpolicy : pool.policy = .onRelease
  · rw [if_pos hpolicy, Call.update_bind]
    refine (Call.bind_of_ok (release_eq _ _) _).trans ?_
    simp [setSlot, released, PoolGuard.write, leftSlot, hpolicy]
  · rw [if_neg hpolicy]
    refine (Call.bind_of_ok (release_eq _ _) _).trans ?_
    simp [setSlot, released, leftSlot, hpolicy]

end StaticSlotPool

/-! ## The stack of free slots -/

/-- A pool and its guards stand for the free slots, top first, and the held ones. -/
structure Represents {slotSize poolSize : Nat} (u : PoolUse slotSize poolSize) (a : Alloc Nat) :
    Prop where
  shares : a.Shares (List.range poolSize)
  held : u.guards.map (fun guard => guard.index.val) = a.held
  linked : Linked (fun i => u.pool.nodes[i]?) poolSize u.pool.head.index a.free
  unlocked : ∀ i : Fin poolSize, i.val ∈ a.free → u.pool.memory[i].locked = false
  zeroed : u.pool.policy = .onRelease →
    ∀ i : Fin poolSize, i.val ∈ a.free → u.pool.memory[i].bytes = Bytes.fill slotSize 0

/-- What an operation does to the free and the held slots. -/
def PoolOp.onAlloc {slotSize : Nat} : PoolOp slotSize → Alloc Nat → Alloc Nat
  | .checkout _, a => (a.take.map Prod.snd).getD a
  | .write _ _, a => a
  | .drop place _, a => a.give place

namespace StaticSlotPool

variable {slotSize poolSize : Nat} {pool : StaticSlotPool slotSize poolSize} {i j : Fin poolSize}
  {slot : Slot slotSize}

theorem memory_setSlot_self : (pool.setSlot i slot).memory[i] = slot :=
  Vector.getElem_set_self i.isLt

theorem memory_setSlot_of_ne (h : j ≠ i) : (pool.setSlot i slot).memory[j] = pool.memory[j] :=
  Vector.getElem_set_ne i.isLt j.isLt fun heq => h (Fin.ext heq).symm

end StaticSlotPool

namespace Represents

open StaticSlotPool

variable {slotSize poolSize : Nat} {u : PoolUse slotSize poolSize} {a : Alloc Nat} {i : Nat}

theorem new (policy : ZeroizePolicy) :
    Represents (PoolUse.new policy : PoolUse slotSize poolSize) ⟨List.range poolSize, []⟩ where
  shares := Alloc.shares_fresh _
  held := rfl
  linked := by
    have hlink : ∀ i < poolSize,
        (PoolUse.new policy : PoolUse slotSize poolSize).pool.nodes[i]? = some (i + 1) := by
      intro i hi
      exact (Vector.getElem?_eq_getElem hi).trans (congrArg some (Vector.getElem_ofFn hi))
    have hhead : (TaggedIndex.new 0 0).index = 0 := TaggedIndex.index_new 0 (by decide)
    show Linked _ _ (TaggedIndex.new 0 0).index (List.range poolSize)
    rw [hhead, List.range_eq_range']
    exact linked_range' hlink poolSize 0 (Nat.zero_add _)
  unlocked i _ := by simp [PoolUse.new, StaticSlotPool.new]
  zeroed _ i _ := by simp [PoolUse.new, StaticSlotPool.new]

section

variable (h : Represents u a)
include h

theorem lt_of_mem_free (hi : i ∈ a.free) : i < poolSize :=
  List.mem_range.mp ((h.shares.mem_free_iff List.nodup_range).mp hi).1

theorem not_mem_free (hi : i ∈ a.held) : i ∉ a.free := fun hfree =>
  ((h.shares.mem_free_iff List.nodup_range).mp hfree).2 hi

/-- A write to a slot that is not free. -/
theorem setSlot {i : Fin poolSize} (hi : i.val ∉ a.free) (slot : Slot slotSize) :
    Represents { u with pool := u.pool.setSlot i slot } a where
  shares := h.shares
  held := h.held
  linked := h.linked
  unlocked j hj := by
    have hne : j ≠ i := fun heq => hi (heq ▸ hj)
    exact (congrArg Slot.locked (memory_setSlot_of_ne hne)).trans (h.unlocked j hj)
  zeroed hpolicy j hj := by
    have hne : j ≠ i := fun heq => hi (heq ▸ hj)
    exact (congrArg Slot.bytes (memory_setSlot_of_ne hne)).trans (h.zeroed hpolicy j hj)

/-- Links through free slots begin in the pool or at its end mark: a tagged index can hold them. -/
theorem start_le {start : Nat} {l : List Nat}
    (hl : Linked (fun i => u.pool.nodes[i]?) poolSize start l) (hmem : ∀ i ∈ l, i ∈ a.free) :
    start ≤ poolSize := by
  rcases hl.start_mem with rfl | hstart
  · exact Nat.le_refl _
  · exact Nat.le_of_lt (h.lt_of_mem_free (hmem start hstart))

/-- The top of the free slots is handed out. -/
theorem taken (hsize : poolSize < 2 ^ 48) {rest : List Nat} (hfree : a.free = i :: rest) :
    ∃ hlt : u.pool.head.index < poolSize, u.pool.head.index ∈ a.free ∧
      Represents ⟨u.pool.taken hlt, u.guards ++ [⟨⟨u.pool.head.index, hlt⟩⟩]⟩
        ⟨rest, a.held ++ [i]⟩ := by
  have hmem : ∀ j, j ∈ rest → j ∈ a.free := fun j hj => hfree ▸ List.mem_cons_of_mem _ hj
  have hnodup : (i :: rest).Nodup :=
    hfree ▸ (List.nodup_append.mp (h.shares.nodup List.nodup_range)).1
  obtain ⟨hhead, next, hnext, hrest⟩ := (hfree ▸ h.linked).uncons
  have htop : u.pool.head.index ∈ a.free := hhead ▸ hfree ▸ List.mem_cons_self
  have hlt := h.lt_of_mem_free htop
  have hnode : u.pool.nodes[u.pool.head.index] = next :=
    Option.some.inj ((Vector.getElem?_eq_getElem hlt).symm.trans (hhead ▸ hnext))
  have hnew : (TaggedIndex.new (u.pool.head.generation + 1) u.pool.nodes[u.pool.head.index]).index =
      next := by
    rw [hnode]
    exact TaggedIndex.index_new _ (Nat.lt_of_le_of_lt (h.start_le hrest hmem) hsize)
  refine ⟨hlt, htop, setSlot (u := ⟨_, _⟩) ?_ ?_ _⟩
  · exact {
      shares := h.shares.take hfree
      held := by
        rw [List.map_append, h.held]
        exact congrArg (a.held ++ [·]) hhead
      linked := hnew.symm ▸ hrest
      unlocked := fun j hj => h.unlocked j (hmem j hj)
      zeroed := fun hpolicy j hj => h.zeroed hpolicy j (hmem j hj) }
  · exact hhead.symm ▸ (List.nodup_cons.mp hnodup).1

/-- The slot of a dropped guard becomes the top of the free ones. -/
theorem dropped (hsize : poolSize < 2 ^ 48) {place : Nat} {i : Fin poolSize}
    (hheld : a.held[place]? = some i.val) :
    Represents ⟨(u.pool.released i).setSlot i (u.pool.leftSlot i), u.guards.eraseIdx place⟩
      ⟨i :: a.free, a.held.eraseIdx place⟩ := by
  have hnot : i.val ∉ a.free := h.not_mem_free (List.mem_of_getElem? hheld)
  have hne : ∀ j : Nat, j ∈ a.free → i.val ≠ j := fun j hj heq => hnot (heq ▸ hj)
  have hnew : (TaggedIndex.new (u.pool.head.generation + 1) i).index = i :=
    TaggedIndex.index_new _ (Nat.lt_trans i.isLt hsize)
  -- the other slots are as they were
  have hslot : ∀ j : Fin poolSize, j.val ∈ a.free →
      ((u.pool.released i).setSlot i (u.pool.leftSlot i)).memory[j] = u.pool.memory[j] :=
    fun j hj => memory_setSlot_of_ne fun heq => hne j hj (congrArg Fin.val heq).symm
  refine ⟨h.shares.give hheld, ?_, ?_, ?_, ?_⟩
  · show (u.guards.eraseIdx place).map _ = a.held.eraseIdx place
    rw [← List.eraseIdx_map, h.held]
  · show Linked _ _ (TaggedIndex.new (u.pool.head.generation + 1) i).index _
    rw [hnew]
    refine h.linked.push ?_ fun j hj => ?_
    · exact Vector.getElem?_set_self i.isLt
    · exact Vector.getElem?_set_ne i.isLt (hne j hj)
  · intro j hj
    rcases List.mem_cons.mp hj with heq | hj
    · obtain rfl : j = i := Fin.ext heq
      exact congrArg Slot.locked memory_setSlot_self
    · exact (congrArg Slot.locked (hslot j hj)).trans (h.unlocked j hj)
  · intro hpolicy j hj
    rcases List.mem_cons.mp hj with heq | hj
    · obtain rfl : j = i := Fin.ext heq
      exact (congrArg Slot.bytes memory_setSlot_self).trans (if_pos hpolicy)
    · exact (congrArg Slot.bytes (hslot j hj)).trans (h.zeroed hpolicy j hj)

end

variable {op : PoolOp slotSize} {spurious : Nat}

section

variable (h : Represents u a)
include h

theorem checkout_of_nil (hfree : a.free = []) :
    u.step (.checkout spurious) = (.err .poolAllocationBoundaryViolated,
      ⟨{ u.pool with poolExhaustion := u.pool.poolExhaustion + 1 }, u.guards⟩) := by
  have hstop : u.pool.head.index = poolSize := by
    rcases (hfree ▸ h.linked).start_mem with hstop | hmem
    · exact hstop
    · exact nomatch hmem
  simp only [PoolUse.step, checkout_of_exhausted spurious (Nat.le_of_eq hstop.symm)]

theorem checkout_of_cons (hlt : u.pool.head.index < poolSize) (hfree : u.pool.head.index ∈ a.free) :
    u.step (.checkout spurious) = (.ok (some ⟨⟨u.pool.head.index, hlt⟩⟩),
      ⟨u.pool.taken hlt, u.guards ++ [⟨⟨u.pool.head.index, hlt⟩⟩]⟩) := by
  simp only [PoolUse.step, checkout_of_free spurious hlt (h.unlocked ⟨_, hlt⟩ hfree)]

/-- A checkout fails when no slot is free, and else hands out a slot. -/
theorem checkout_right (hsize : poolSize < 2 ^ 48) (spurious : Nat) :
    (a.free = [] → (u.step (.checkout spurious)).1 = .err .poolAllocationBoundaryViolated) ∧
      (a.free ≠ [] → ∃ guard, (u.step (.checkout spurious)).1 = .ok (some guard) ∧
        (u.step (.checkout spurious)).2.guards = u.guards ++ [guard] ∧
        (u.pool.policy = .onRelease →
          guard.asSlice (u.step (.checkout spurious)).2.pool = List.replicate slotSize 0)) := by
  refine ⟨fun hfree => by rw [h.checkout_of_nil hfree], fun hfree => ?_⟩
  obtain ⟨i, rest, hfree⟩ := List.exists_cons_of_ne_nil hfree
  obtain ⟨hlt, hmem, -⟩ := h.taken hsize hfree
  rw [h.checkout_of_cons hlt hmem]
  refine ⟨_, rfl, rfl, fun hpolicy => ?_⟩
  -- the lock is taken and the bytes are those of the free slot
  have hbytes : (u.pool.taken hlt).memory[u.pool.head.index].bytes = Bytes.fill slotSize 0 :=
    (congrArg Slot.bytes memory_setSlot_self).trans (h.zeroed hpolicy ⟨_, hlt⟩ hmem)
  exact congrArg Bytes.toList hbytes

/-- Each operation is the one on the free and the held slots. It does not panic and keeps the
policy. -/
theorem step (hsize : poolSize < 2 ^ 48) :
    Represents (u.step op).2 (op.onAlloc a) ∧ (u.step op).1 ≠ .panicked ∧
      (u.step op).2.pool.policy = u.pool.policy := by
  cases op with
  | checkout spurious =>
    cases hfree : a.free with
    | nil =>
      rw [h.checkout_of_nil hfree, PoolOp.onAlloc, Alloc.take_of_nil hfree]
      exact ⟨⟨h.shares, h.held, h.linked, h.unlocked, h.zeroed⟩, nofun, rfl⟩
    | cons i rest =>
      obtain ⟨hlt, hmem, htaken⟩ := h.taken hsize hfree
      rw [h.checkout_of_cons hlt hmem, PoolOp.onAlloc, Alloc.take_of_cons hfree]
      exact ⟨htaken, nofun, rfl⟩
  | write place bytes =>
    cases hguard : u.guards[place]? with
    | none =>
      simp only [PoolUse.step, hguard]
      exact ⟨h, nofun, trivial⟩
    | some guard =>
      simp only [PoolUse.step, hguard]
      refine ⟨h.setSlot (h.not_mem_free ?_) _, nofun, rfl⟩
      rw [← h.held]
      exact List.mem_map_of_mem (List.mem_of_getElem? hguard)
  | drop place spurious =>
    have hheld : a.held[place]? = u.guards[place]?.map fun guard => guard.index.val := by
      rw [← h.held, List.getElem?_map]
    cases hguard : u.guards[place]? with
    | none =>
      rw [hguard] at hheld
      simp only [PoolUse.step, hguard, PoolOp.onAlloc, Alloc.give_of_none hheld]
      exact ⟨h, nofun, trivial⟩
    | some guard =>
      rw [hguard] at hheld
      simp only [PoolUse.step, hguard, drop_eq, PoolOp.onAlloc, Alloc.give_of_some hheld]
      exact ⟨h.dropped hsize hheld, nofun, rfl⟩

end

end Represents

/-! ## Every sequence of operations -/

/-- Every slot is behind one guard or is free, and the links lead through the free ones. -/
structure Accounted {slotSize poolSize : Nat} (u : PoolUse slotSize poolSize) : Prop where
  distinct : (u.guards.map PoolGuard.index).Nodup
  free : ∃ free : List Nat, Linked (fun i => u.pool.nodes[i]?) poolSize u.pool.head.index free ∧
    free.Nodup ∧ ∀ i, i ∈ free ↔ i < poolSize ∧ ∀ guard ∈ u.guards, guard.index.val ≠ i

variable {slotSize poolSize : Nat}

theorem Represents.accounted {u : PoolUse slotSize poolSize} {a : Alloc Nat} (h : Represents u a) :
    Accounted u := by
  obtain ⟨hfree, hheld, -⟩ := List.nodup_append.mp (h.shares.nodup List.nodup_range)
  refine ⟨?_, a.free, h.linked, hfree, fun i => ?_⟩
  · rw [← h.held, ← Function.comp_def, ← List.map_map] at hheld
    exact hheld.of_map
  · rw [h.shares.mem_free_iff List.nodup_range, List.mem_range, ← h.held, List.mem_map]
    simp only [not_exists, not_and]

theorem Represents.free_eq_nil_iff {u : PoolUse slotSize poolSize} {a : Alloc Nat}
    (h : Represents u a) : a.free = [] ↔ u.guards.length = poolSize := by
  rw [h.shares.free_eq_nil_iff, ← h.held, List.length_map, List.length_range]

/-- The free and the held slots after a sequence of operations. -/
theorem represents_endState (hsize : poolSize < 2 ^ 48) (policy : ZeroizePolicy)
    (ops : List (PoolOp slotSize)) :
    Represents (endState PoolUse.step (PoolUse.new policy : PoolUse slotSize poolSize) ops)
        (ops.foldl (fun a op => op.onAlloc a) ⟨List.range poolSize, []⟩) ∧
      (endState PoolUse.step (PoolUse.new policy : PoolUse slotSize poolSize) ops).pool.policy =
        policy := by
  induction ops using List.reverseRecOn with
  | nil => exact ⟨Represents.new policy, rfl⟩
  | append_singleton ops op ih =>
    rw [endState_snoc, List.foldl_append]
    obtain ⟨hstep, -, hpolicy⟩ := ih.1.step hsize
    exact ⟨hstep, hpolicy.trans ih.2⟩

/-- After every sequence of operations the guards are for different slots and the links lead through
the other ones to the end mark. No operation panics. A checkout fails exactly when all slots are
behind guards, and what it hands out under `OnRelease` is all zero. -/
theorem slots_accounted_for (hsize : poolSize < 2 ^ 48) (policy : ZeroizePolicy)
    (ops : List (PoolOp slotSize)) :
    Accounted (endState PoolUse.step (PoolUse.new policy : PoolUse slotSize poolSize) ops) ∧
      ∀ e ∈ run PoolUse.step (PoolUse.new policy : PoolUse slotSize poolSize) ops,
        e.out ≠ .panicked ∧
        ∀ spurious, e.input = .checkout spurious →
          (e.pre.guards.length = poolSize → e.out = .err .poolAllocationBoundaryViolated) ∧
          (e.pre.guards.length ≠ poolSize → ∃ guard, e.out = .ok (some guard) ∧
            e.post.guards = e.pre.guards ++ [guard] ∧
            (policy = .onRelease → guard.asSlice e.post.pool = List.replicate slotSize 0)) := by
  refine ⟨(represents_endState hsize policy ops).1.accounted, fun e he => ?_⟩
  obtain ⟨before, -, -, hentry⟩ := mem_run he
  generalize e.input = op at hentry
  subst hentry
  obtain ⟨hpre, hpolicy⟩ := represents_endState hsize policy before
  refine ⟨(hpre.step hsize).2.1, ?_⟩
  rintro spurious rfl
  have hright := hpre.checkout_right hsize spurious
  rw [hpolicy, ne_eq, hpre.free_eq_nil_iff] at hright
  exact hright

/-- Two slots: both are handed out, a third checkout fails, and the one that was written and dropped
is handed out again. -/
def twoSlotOps : List (PoolOp 2) :=
  [.checkout 1, .write 0 (Bytes.fill 2 7), .checkout 0, .checkout 3, .drop 0 2, .checkout 0]

theorem slots_accounted_for_two :
    ((run PoolUse.step (PoolUse.new .onRelease : PoolUse 2 2) twoSlotOps).map Entry.out =
        [.ok (some ⟨0⟩), .ok none, .ok (some ⟨1⟩), .err .poolAllocationBoundaryViolated, .ok none,
          .ok (some ⟨0⟩)]) ∧
      Accounted (endState PoolUse.step (PoolUse.new .onRelease : PoolUse 2 2) twoSlotOps) :=
  ⟨by decide, (slots_accounted_for (by decide) .onRelease twoSlotOps).1⟩

end Blackwing.Core
