import Blackwing.Protocol.Encryption

/-!
# One direction of a session

A `FrameEncryptor` and the `FrameDecryptor` of its peer, joined by the queue of
frames that were sent and not yet delivered. Both machines move along one chain
of epoch keys. The sender never leaves an epoch in which it sent nothing, so the
epochs of consecutive frames differ by at most one, which is what the receiver
can follow. The receiver may run ahead of the queue: in an `EncryptionContext`
its keys rotate together with the keys of the other direction.

* `LinkAt`: the invariant, relative to the place of the last delivered frame and
  the place of the last sent one.
* `linkAt_send`, `linkAt_rotate_sender`, `linkAt_rotate_receiver`: it is kept.
* `linkAt_receive`: a delivery returns the frame that was sent exactly when the
  receiver is not already in a later epoch.
-/

namespace Blackwing.Protocol

open EncryptionLemmas

variable (P : Primitives)

/-! ## The chain of epoch keys -/

/-- The key of each epoch, for a session that starts with `key` in epoch `start`. -/
def epochKey (key : SymmetricKey) (start : Nat) : Nat → SymmetricKey
  | 0 => key
  | n + 1 =>
    if n < start then key
    else (nextKey P (epochKey key start n) (UInt32.ofNat (n + 1))).getD key

/-! ## Frames in flight -/

/-- A frame in flight, with the key it was encrypted under. -/
structure Sent where
  frame : OwnedProtocolFrame
  key : SymmetricKey
  encrypted : EncryptedFrame
deriving DecidableEq

/-- The queue after a call of `encrypt_frame` that returned `r`. -/
def enqueue (queue : List Sent) (frame : OwnedProtocolFrame) (key : SymmetricKey) :
    Outcome ProtocolError EncryptedFrame → List Sent
  | .ok e => queue ++ [⟨frame, key, e⟩]
  | _ => queue

/-- Epoch and counter of a frame in flight. -/
def Sent.place (t : Sent) : Nat × Nat := (t.encrypted.epoch.toNat, t.encrypted.nonce.counter.toNat)

/-- The place right after a frame in flight. -/
def Sent.after (t : Sent) : Nat × Nat := (t.place.1, t.place.2 + 1)

/-- A frame at `q` may follow the place `p`: later in the same epoch, or anywhere in the
next one. -/
def Continues (p q : Nat × Nat) : Prop := (q.1 = p.1 ∧ p.2 ≤ q.2) ∨ q.1 = p.1 + 1

/-- The queue leads from the place `p` to the place `l` without skipping an epoch. -/
inductive InOrder : Nat × Nat → List Sent → Nat × Nat → Prop
  | nil {p : Nat × Nat} : InOrder p [] p
  | cons {p l : Nat × Nat} {t : Sent} {q : List Sent} :
      Continues p t.place → InOrder t.after q l → InOrder p (t :: q) l

/-- The frame in flight was encrypted under the key of its epoch. -/
structure Sealed (chain : Nat → SymmetricKey) (t : Sent) : Prop where
  key : t.key = chain t.encrypted.epoch.toNat
  sealed : encryptAead P t.key t.encrypted.nonce.bytes (encodeFrame t.frame) [] =
    .ok (t.encrypted.ciphertext, t.encrypted.tag)

/-- The invariant of one direction. The queue leads from `p`, right after the last delivered
frame, to `l`, right after the last sent one. -/
structure LinkAt (chain : Nat → SymmetricKey) (start : Nat) (s : FrameEncryptor)
    (d : FrameDecryptor) (queue : List Sent) (p l : Nat × Nat) : Prop where
  sendKey : s.sendKey = chain s.epoch.toNat
  recvKey : d.recvKey = chain d.epoch.toNat
  sealed : ∀ t ∈ queue, Sealed P chain t
  inOrder : InOrder p queue l
  start_le : start ≤ p.1
  sender : (s.epoch.toNat = l.1 ∧ l.2 ≤ s.counter.toNat) ∨
    (s.epoch.toNat = l.1 + 1 ∧ s.counter.toNat = 0)
  receiver : p.1 ≤ d.epoch.toNat
  window : ∃ seen, Tracks d.replayProtection.maxCounter d.replayProtection.receivedMask seen ∧
    ∀ v ∈ seen, d.epoch.toNat = p.1 ∧ v < p.2

/-- The chain that a session with this key and start epoch follows. -/
def FollowsChain (chain : Nat → SymmetricKey) (start : Nat) : Prop :=
  ∀ e e' : UInt32, start ≤ e.toNat → e'.toNat = e.toNat + 1 →
    nextKey P (chain e.toNat) e' = some (chain e'.toNat)

namespace LinkLemmas

variable {P}

theorem epochKey_start (key : SymmetricKey) (start : Nat) : epochKey P key start start = key := by
  cases start with
  | zero => rfl
  | succ n => exact if_pos (Nat.lt_succ_self n)

theorem epochKey_followsChain (hkdf : HkdfTotal P) (key : SymmetricKey) (start : Nat) :
    FollowsChain P (epochKey P key start) start := by
  intro e e' hle he
  have hstep : epochKey P key start e'.toNat =
      (nextKey P (epochKey P key start e.toNat) (UInt32.ofNat e'.toNat)).getD key := by
    rw [he]
    exact if_neg (Nat.not_lt.mpr hle)
  rw [UInt32.ofNat_toNat] at hstep
  obtain ⟨k, hk⟩ := Option.isSome_iff_exists.mp
    (hkdf none (epochKey P key start e.toNat).toList (epochInfo e'))
  have hkey : nextKey P (epochKey P key start e.toNat) e' = some k := hk
  rw [hstep, hkey, Option.getD_some]

theorem continues_le {p q : Nat × Nat} (h : Continues p q) : p.1 ≤ q.1 := by
  rcases h with ⟨h, -⟩ | h
  · exact Nat.le_of_eq h.symm
  · exact Nat.le_of_lt (Nat.lt_of_succ_le (Nat.le_of_eq h.symm))

theorem inOrder_le {p l : Nat × Nat} {q : List Sent} (h : InOrder p q l) : p.1 ≤ l.1 := by
  induction h with
  | nil => exact Nat.le_refl _
  | cons hc _ ih => exact Nat.le_trans (continues_le hc) ih

variable {t : Sent}

theorem inOrder_snoc {p l : Nat × Nat} {q : List Sent} (h : InOrder p q l)
    (hc : Continues l t.place) : InOrder p (q ++ [t]) t.after := by
  induction h with
  | nil => exact .cons hc .nil
  | cons hc' _ ih => exact .cons hc' (ih hc)

variable {chain : Nat → SymmetricKey} {start : Nat} {s s' : FrameEncryptor} {d d' : FrameDecryptor}
  {queue : List Sent} {p l : Nat × Nat}

theorem window_new (p : Nat × Nat) (e : Nat) :
    ∃ seen, Tracks ReplayProtection.new.maxCounter ReplayProtection.new.receivedMask seen ∧
      ∀ v ∈ seen, e = p.1 ∧ v < p.2 :=
  ⟨∅, tracks_empty, fun _ hv => absurd hv (Set.notMem_empty _)⟩

/-- A window that holds only earlier counters takes the next one. -/
theorem window_accepts {w : ReplayProtection} {seen : Set Nat} {c : UInt64}
    (hw : Tracks w.maxCounter w.receivedMask seen) (hlt : ∀ v ∈ seen, v < c.toNat) :
    ∃ w', slide w.maxCounter w.receivedMask c = some w' ∧
      Tracks w'.1 w'.2 (insert c.toNat seen) := by
  cases hs : slide w.maxCounter w.receivedMask c with
  | some w' => exact ⟨w', rfl, (slide_tracks hw hs).1⟩
  | none =>
    rcases (slide_eq_none hw).mp hs with h | h
    · exact absurd (hlt _ h) (Nat.lt_irrefl _)
    · rcases hw.top_seen with ht | ht
      · rw [ht] at h
        exact absurd h (Nat.not_succ_le_zero _)
      · have := hlt _ ht
        exact absurd (Nat.lt_of_lt_of_le this (Nat.le_trans (Nat.le_add_right _ 64) h))
          (Nat.lt_irrefl _)

theorem tracks_freshWindow (n : Nonce) :
    Tracks (freshWindow n).maxCounter (freshWindow n).receivedMask {n.counter.toNat} := by
  obtain ⟨w', hs, hw'⟩ := window_accepts (w := ReplayProtection.new) (c := n.counter) tracks_empty
    (fun v hv => absurd hv (Set.notMem_empty v))
  rw [insert_empty_eq] at hw'
  have hf : freshWindow n = ⟨w'.1, w'.2⟩ := by
    simp only [freshWindow, ReplayProtection.protectReplay, hs]
  rw [hf]
  exact hw'

theorem linkAt_new (key : SymmetricKey) (e : UInt32) :
    LinkAt P (epochKey P key e.toNat) e.toNat (FrameEncryptor.new key e) (FrameDecryptor.new key e) []
      (e.toNat, 0) (e.toNat, 0) where
  sendKey := (epochKey_start key e.toNat).symm
  recvKey := (epochKey_start key e.toNat).symm
  sealed := fun _ ht => absurd ht List.not_mem_nil
  inOrder := .nil
  start_le := Nat.le_refl _
  sender := Or.inl ⟨rfl, Nat.zero_le _⟩
  receiver := Nat.le_refl _
  window := window_new _ _

section

variable (h : LinkAt P chain start s d queue p l)
include h

/-- A returned frame joins the queue, and the sender stands right after it. -/
theorem linkAt_send {f : OwnedProtocolFrame} {e : EncryptedFrame}
    (henc : FrameEncryptor.encryptFrame P f s = (.ok e, s')) :
    LinkAt P chain start s' d (queue ++ [⟨f, s.sendKey, e⟩]) p (Sent.after ⟨f, s.sendKey, e⟩) ∧
      s'.epoch.toNat = (Sent.after ⟨f, s.sendKey, e⟩).1 := by
  obtain ⟨hseal, hepoch, hnonce, c, hc, rfl⟩ := encryptor_encryptFrame_ok henc
  have hcounter : e.nonce.counter = s.counter := by
    rw [hnonce, FrameEncryptor.generateNonce, counter_new]
  have hplace : Sent.place ⟨f, s.sendKey, e⟩ = (s.epoch.toNat, s.counter.toNat) := by
    simp [Sent.place, hepoch, hcounter]
  have hafter : Sent.after ⟨f, s.sendKey, e⟩ = (s.epoch.toNat, s.counter.toNat + 1) := by
    simp [Sent.after, hplace]
  refine ⟨⟨h.sendKey, h.recvKey, ?_, ?_, h.start_le, ?_, h.receiver, h.window⟩, ?_⟩
  · intro t ht
    rcases List.mem_append.mp ht with ht | ht
    · exact h.sealed t ht
    · rw [List.mem_singleton.mp ht]
      exact ⟨by rw [h.sendKey, hepoch], hseal⟩
  · refine inOrder_snoc h.inOrder ?_
    rw [hplace]
    rcases h.sender with hs | ⟨hs, -⟩
    · exact Or.inl hs
    · exact Or.inr hs
  · rw [hafter]
    exact Or.inl ⟨rfl, Nat.le_of_eq hc.symm⟩
  · rw [hafter]

/-- The sender may rotate when it has sent a frame in its epoch. -/
theorem linkAt_rotate_sender (hchain : FollowsChain P chain start) (hl : s.epoch.toNat = l.1)
    (hrot : FrameEncryptor.rotateKeys P s = (.ok (), s')) :
    LinkAt P chain start s' d queue p l := by
  rcases encryptor_rotateKeys_cases (P := P) s with ⟨-, h'⟩ | ⟨e, -, -, h'⟩ | ⟨e, k, he, hk, h'⟩
  · rw [h'] at hrot
    cases hrot
  · rw [h'] at hrot
    cases hrot
  · rw [h'] at hrot
    cases hrot
    have hle : start ≤ s.epoch.toNat :=
      Nat.le_trans h.start_le (hl ▸ inOrder_le h.inOrder)
    rw [h.sendKey, hchain s.epoch e hle he] at hk
    exact ⟨(Option.some.inj hk).symm, h.recvKey, h.sealed, h.inOrder, h.start_le,
      Or.inr ⟨by rw [← hl]; exact he, rfl⟩, h.receiver, h.window⟩

/-- The receiver may rotate at any time; it then runs ahead with an empty window. -/
theorem linkAt_rotate_receiver (hchain : FollowsChain P chain start)
    (hrot : FrameDecryptor.rotateKeys P d = (.ok (), d')) :
    LinkAt P chain start s d' queue p l := by
  rcases decryptor_rotateKeys_cases (P := P) d with ⟨-, h'⟩ | ⟨e, -, -, h'⟩ | ⟨e, k, he, hk, h'⟩
  · rw [h'] at hrot
    cases hrot
  · rw [h'] at hrot
    cases hrot
  · rw [h'] at hrot
    cases hrot
    rw [h.recvKey, hchain d.epoch e (Nat.le_trans h.start_le h.receiver) he] at hk
    refine ⟨h.sendKey, (Option.some.inj hk).symm, h.sealed, h.inOrder, h.start_le, h.sender, ?_,
      window_new _ _⟩
    show p.1 ≤ e.toNat
    rw [he]
    exact Nat.le_succ_of_le h.receiver

end

section

variable (hrt : AeadRoundTrip P)
include hrt

theorem openFrame_sealed (h : Sealed P chain t) :
    openFrame P t.key t.encrypted = .ok (encodeFrame t.frame) := by
  rw [openFrame, hrt _ _ _ _ _ h.sealed]
  rfl

/-- A frame of the receiver's own epoch. -/
theorem decryptFrame_sealed_same {seen : Set Nat} (ht : Sealed P chain t)
    (hkey : d.recvKey = t.key) (heq : t.encrypted.epoch = d.epoch)
    (hw : Tracks d.replayProtection.maxCounter d.replayProtection.receivedMask seen)
    (hlt : ∀ v ∈ seen, v < t.encrypted.nonce.counter.toNat) :
    ∃ w : ReplayProtection,
      FrameDecryptor.decryptFrame P t.encrypted d =
        (decodeFrame P.heapAddr (encodeFrame t.frame), ⟨t.key, t.encrypted.epoch, w⟩) ∧
      Tracks w.maxCounter w.receivedMask (insert t.encrypted.nonce.counter.toNat seen) := by
  obtain ⟨w, hs, hw'⟩ := window_accepts hw hlt
  refine ⟨⟨w.1, w.2⟩, ?_, hw'⟩
  rw [decryptFrame_same heq, hs, hkey, openFrame_sealed hrt ht, heq, ← hkey]
  rfl

/-- A frame of the epoch after the receiver's. -/
theorem decryptFrame_sealed_next (ht : Sealed P chain t)
    (hkey : nextKey P d.recvKey t.encrypted.epoch = some t.key)
    (heq : t.encrypted.epoch.toNat = d.epoch.toNat + 1) :
    FrameDecryptor.decryptFrame P t.encrypted d =
      (decodeFrame P.heapAddr (encodeFrame t.frame),
        ⟨t.key, t.encrypted.epoch, freshWindow t.encrypted.nonce⟩) := by
  rw [decryptFrame_next heq, hkey]
  dsimp only
  rw [openFrame_sealed hrt ht]

/-- A delivery to a receiver that is not ahead of the frame returns what was sent, and moves
the receiver to the epoch and key of the frame. -/
theorem linkAt_deliver (hchain : FollowsChain P chain start)
    (h : LinkAt P chain start s d (t :: queue) p l)
    (hle : d.epoch.toNat ≤ t.encrypted.epoch.toNat) :
    ∃ w, FrameDecryptor.decryptFrame P t.encrypted d =
        (decodeFrame P.heapAddr (encodeFrame t.frame), ⟨t.key, t.encrypted.epoch, w⟩) ∧
      LinkAt P chain start s ⟨t.key, t.encrypted.epoch, w⟩ queue t.after l := by
  have ht : Sealed P chain t := h.sealed t List.mem_cons_self
  have hrest : ∀ u ∈ queue, Sealed P chain u := fun u hu => h.sealed u (List.mem_cons_of_mem t hu)
  have hp := h.receiver
  obtain ⟨seen, hw, hseen⟩ := h.window
  cases h.inOrder with
  | cons hc hq =>
    rcases Nat.eq_or_lt_of_le hle with heq | hlt
    · -- the receiver is in the frame's epoch already
      have hkey : d.recvKey = t.key := by rw [h.recvKey, ht.key, heq]
      have hbelow : ∀ v ∈ seen, v < t.encrypted.nonce.counter.toNat := by
        intro v hv
        obtain ⟨hde, hvp⟩ := hseen v hv
        rcases hc with ⟨-, hpc⟩ | hnext
        · exact Nat.lt_of_lt_of_le hvp hpc
        · have : t.encrypted.epoch.toNat = p.1 + 1 := hnext
          omega
      obtain ⟨w, hdec, hw'⟩ :=
        decryptFrame_sealed_same hrt ht hkey (UInt32.toNat_inj.mp heq.symm) hw hbelow
      refine ⟨w, hdec, h.sendKey, ht.key, hrest, hq, ?_, h.sender, Nat.le_refl _, _, hw', ?_⟩
      · exact Nat.le_trans h.start_le (Nat.le_trans hp hle)
      · intro v hv
        refine ⟨rfl, ?_⟩
        rcases hv with rfl | hv
        · exact Nat.lt_succ_self _
        · exact Nat.lt_succ_of_lt (hbelow v hv)
    · -- the sender rotated: the frame is of the next epoch
      have hnext : t.encrypted.epoch.toNat = d.epoch.toNat + 1 := by
        rcases hc with ⟨hsame, -⟩ | hnext
        · have : t.encrypted.epoch.toNat = p.1 := hsame
          omega
        · have : t.encrypted.epoch.toNat = p.1 + 1 := hnext
          omega
      have hkey : nextKey P d.recvKey t.encrypted.epoch = some t.key := by
        rw [h.recvKey, ht.key]
        exact hchain d.epoch t.encrypted.epoch (Nat.le_trans h.start_le hp) hnext
      refine ⟨_, decryptFrame_sealed_next hrt ht hkey hnext, h.sendKey, ht.key, hrest, hq, ?_,
        h.sender, Nat.le_refl _, _, tracks_freshWindow _, ?_⟩
      · exact Nat.le_trans h.start_le (Nat.le_trans hp hle)
      · intro v hv
        rw [Set.mem_singleton_iff.mp hv]
        exact ⟨rfl, Nat.lt_succ_self _⟩

end

/-- A delivery to a receiver in a later epoch fails and leaves the receiver as it was. -/
theorem linkAt_deliver_late (h : LinkAt P chain start s d (t :: queue) p l)
    (hlt : t.encrypted.epoch.toNat < d.epoch.toNat) :
    (∀ f, (FrameDecryptor.decryptFrame P t.encrypted d).1 ≠ .ok f) ∧
      (FrameDecryptor.decryptFrame P t.encrypted d).2 = d ∧
      LinkAt P chain start s d queue t.after l := by
  have hne : t.encrypted.epoch ≠ d.epoch := fun he => Nat.lt_irrefl _ (he ▸ hlt)
  rw [decryptFrame_other hne (fun he => by omega)]
  refine ⟨fun f hf => ?_, rfl, ?_⟩
  · split at hf <;> cases hf
  · obtain ⟨seen, hw, hseen⟩ := h.window
    cases h.inOrder with
    | cons hc hq =>
      have hpt : p.1 ≤ t.encrypted.epoch.toNat := continues_le hc
      refine ⟨h.sendKey, h.recvKey, fun u hu => h.sealed u (List.mem_cons_of_mem t hu), hq,
        Nat.le_trans h.start_le hpt, h.sender, Nat.le_of_lt hlt, seen, hw, fun v hv => ?_⟩
      -- the receiver is past the place of the last delivery, so its window is empty
      have := (hseen v hv).1
      omega

theorem enqueue_of_failed {f : OwnedProtocolFrame} {key : SymmetricKey}
    {r : Outcome ProtocolError EncryptedFrame} (hr : ∀ e, r ≠ .ok e) :
    enqueue queue f key r = queue := by
  cases r with
  | ok e => exact absurd rfl (hr e)
  | err x => rfl
  | panicked => rfl

section Context

variable {c : EncryptionContext} {n : Nat} {f : OwnedProtocolFrame}

theorem epochsWithin_add (hn : EpochsWithin n c) (k : Nat) : EpochsWithin (n + k) c :=
  ⟨Nat.le_add_right_of_le hn.send, Nat.le_add_right_of_le hn.receive⟩

/-- The epochs of a side advance with its rotations. -/
theorem epochsWithin_encryptFrame (hkdf : HkdfTotal P) (hn : EpochsWithin n c)
    (hroom : n + c.rotations P f < 2 ^ 32) :
    EpochsWithin (n + c.rotations P f) (EncryptionContext.encryptFrame P f c).2 := by
  rcases context_encryptFrame_total hkdf hn hroom with
    ⟨r, -, -, h⟩ | ⟨e, s, henc, h | ⟨s', d', hone, -, -, hs, hd, h⟩⟩
  · rw [h]
    exact epochsWithin_add hn _
  · obtain ⟨-, -, -, _, -, rfl⟩ := encryptor_encryptFrame_ok henc
    rw [h]
    exact ⟨Nat.le_add_right_of_le hn.send, Nat.le_add_right_of_le hn.receive⟩
  · obtain ⟨-, -, -, _, -, rfl⟩ := encryptor_encryptFrame_ok henc
    rw [h, hone]
    exact ⟨hs ▸ Nat.succ_le_succ hn.send, hd ▸ Nat.succ_le_succ hn.receive⟩

theorem rotations_le_one : c.rotations P f ≤ 1 := by
  unfold EncryptionContext.rotations
  split
  · split
    · exact Nat.le_refl 1
    · exact Nat.zero_le 1
  · exact Nat.zero_le 1

/-- A side that has room for one more frame and one more rotation encrypts the frame, whatever its
policy. -/
theorem context_encryptFrame_of_sealed (hkdf : HkdfTotal P) {sealed : List UInt8 × Bytes 16}
    (hseal : encryptAead P c.encryptor.sendKey c.encryptor.generateNonce.bytes (encodeFrame f) [] =
      .ok sealed)
    (hn : EpochsWithin n c) (hepoch : n + 1 < 2 ^ 32)
    (hcounter : c.encryptor.counter.toNat + 1 < 2 ^ 64) :
    ∃ e c', EncryptionContext.encryptFrame P f c = (.ok e, c') ∧ EpochsWithin (n + 1) c' ∧
      c'.encryptor.counter.toNat ≤ c.encryptor.counter.toNat + 1 := by
  have hroom : n + c.rotations P f < 2 ^ 32 :=
    Nat.lt_of_le_of_lt (Nat.add_le_add_left rotations_le_one n) hepoch
  have hepochs := epochsWithin_encryptFrame hkdf hn hroom
  have hwithin : EpochsWithin (n + 1) (EncryptionContext.encryptFrame P f c).2 :=
    ⟨Nat.le_trans hepochs.send (Nat.add_le_add_left rotations_le_one n),
      Nat.le_trans hepochs.receive (Nat.add_le_add_left rotations_le_one n)⟩
  obtain ⟨e, s, henc⟩ := encryptor_encryptFrame_of_sealed hseal hcounter
  obtain ⟨-, -, -, counter, hcount, hs⟩ := encryptor_encryptFrame_ok henc
  rcases context_encryptFrame_total hkdf hn hroom with
    ⟨r, hr, hfail, -⟩ | ⟨e', s', henc', h | ⟨s'', d', -, hrot, -, -, -, h⟩⟩
  · rw [henc] at hfail
    exact absurd (Prod.mk.inj hfail).1.symm (hr e)
  · cases henc.symm.trans henc'
    rw [h] at hwithin
    refine ⟨e, _, h, hwithin, ?_⟩
    show s.counter.toNat ≤ _
    rw [hs]
    exact Nat.le_of_eq hcount
  · -- A rotation starts the counter again.
    rw [h] at hwithin
    refine ⟨e', _, h, hwithin, ?_⟩
    rcases encryptor_rotateKeys_cases (P := P) s' with
      ⟨-, hrot'⟩ | ⟨_, -, -, hrot'⟩ | ⟨_, _, -, -, hrot'⟩
    · cases hrot.symm.trans hrot'
    · cases hrot.symm.trans hrot'
    · cases hrot.symm.trans hrot'
      exact Nat.zero_le _

/-- A side of the session sends: its own direction gains the frame, and a policy rotation
comes right after a frame. -/
theorem linkAt_context_out (hkdf : HkdfTotal P) (hchain : FollowsChain P chain start)
    (h : LinkAt P chain start c.encryptor d queue p l) (hn : EpochsWithin n c)
    (hroom : n + c.rotations P f < 2 ^ 32) :
    ∃ m, LinkAt P chain start (EncryptionContext.encryptFrame P f c).2.encryptor d
      (enqueue queue f c.encryptor.sendKey (EncryptionContext.encryptFrame P f c).1) p m := by
  rcases context_encryptFrame_total hkdf hn hroom with
    ⟨r, hr, -, hcall⟩ | ⟨e, s, henc, hcall | ⟨s', d', -, hs, -, -, -, hcall⟩⟩
  · rw [hcall, enqueue_of_failed hr]
    exact ⟨l, h⟩
  · rw [hcall]
    exact ⟨_, (linkAt_send h henc).1⟩
  · obtain ⟨hlink, hl⟩ := linkAt_send h henc
    rw [hcall]
    exact ⟨_, linkAt_rotate_sender hlink hchain hl hs⟩

/-- A frame that a side of the session returned joins its direction, whatever the policy. -/
theorem linkAt_context_sent {e : EncryptedFrame} {c' : EncryptionContext}
    (hchain : FollowsChain P chain start) (h : LinkAt P chain start c.encryptor d queue p l)
    (hcall : EncryptionContext.encryptFrame P f c = (.ok e, c')) :
    encryptAead P c.encryptor.sendKey e.nonce.bytes (encodeFrame f) [] = .ok (e.ciphertext, e.tag) ∧
      ∃ m, LinkAt P chain start c'.encryptor d (queue ++ [⟨f, c.encryptor.sendKey, e⟩]) p m := by
  rcases context_encryptFrame_cases (P := P) f c with
    ⟨r, hr, -, h'⟩ | ⟨e', s, henc, -, h'⟩ | ⟨e', s, r, c'', henc, -, hrot, h'⟩
  · rw [hcall] at h'
    cases h'
    exact absurd rfl (hr e)
  · rw [hcall] at h'
    cases h'
    exact ⟨(encryptor_encryptFrame_ok henc).1, _, (linkAt_send h henc).1⟩
  · rw [hcall, Prod.mk.injEq, eq_comm, Outcome.bind_eq_ok] at h'
    obtain ⟨⟨u, rfl, he⟩, rfl⟩ := h'
    cases he
    obtain ⟨hlink, hl⟩ := linkAt_send h henc
    exact ⟨(encryptor_encryptFrame_ok henc).1, _,
      linkAt_rotate_sender hlink hchain hl (context_rotateKeys_ok hrot)⟩

/-- A side of the session sends: a policy rotation moves the receiver of the other direction. -/
theorem linkAt_context_in (hkdf : HkdfTotal P) (hchain : FollowsChain P chain start)
    (h : LinkAt P chain start s c.decryptor queue p l) (hn : EpochsWithin n c)
    (hroom : n + c.rotations P f < 2 ^ 32) :
    LinkAt P chain start s (EncryptionContext.encryptFrame P f c).2.decryptor queue p l := by
  rcases context_encryptFrame_total hkdf hn hroom with
    ⟨r, -, -, hcall⟩ | ⟨e, s, -, hcall | ⟨s', d', -, -, hd, -, -, hcall⟩⟩
  · rw [hcall]
    exact h
  · rw [hcall]
    exact h
  · rw [hcall]
    exact linkAt_rotate_receiver h hchain hd

end Context

/-- The frames in flight are of epochs the sender has reached. -/
theorem linkAt_epoch_le (h : LinkAt P chain start s d (t :: queue) p l) :
    t.encrypted.epoch.toNat ≤ s.epoch.toNat := by
  cases h.inOrder with
  | cons _ hq =>
    have hle : t.encrypted.epoch.toNat ≤ l.1 := inOrder_le hq
    rcases h.sender with ⟨hs, -⟩ | ⟨hs, -⟩
    · exact hs ▸ hle
    · exact hs ▸ Nat.le_succ_of_le hle

/-- What a delivery does, for every place of the receiver. -/
theorem linkAt_receive (hrt : AeadRoundTrip P) (hchain : FollowsChain P chain start)
    (h : LinkAt P chain start s d (t :: queue) p l) :
    (t.frame.WellFormed → ((FrameDecryptor.decryptFrame P t.encrypted d).1 = .ok t.frame ↔
        d.epoch.toNat ≤ t.encrypted.epoch.toNat)) ∧
      (∀ n, s.epoch.toNat ≤ n → d.epoch.toNat ≤ n →
        (FrameDecryptor.decryptFrame P t.encrypted d).2.epoch.toNat ≤ n) ∧
      LinkAt P chain start s (FrameDecryptor.decryptFrame P t.encrypted d).2 queue t.after l := by
  rcases Nat.lt_or_ge t.encrypted.epoch.toNat d.epoch.toNat with hlt | hle
  · obtain ⟨hfail, hsame, hlink⟩ := linkAt_deliver_late h hlt
    rw [hsame]
    refine ⟨fun _ => ?_, fun n _ hd => hd, hlink⟩
    constructor
    · intro hok
      exact absurd hok (hfail t.frame)
    · intro hle
      exact absurd hle (Nat.not_le_of_lt hlt)
  · obtain ⟨w, hdec, hlink⟩ := linkAt_deliver hrt hchain h hle
    rw [hdec]
    refine ⟨fun hwf => ?_, fun n hs _ => Nat.le_trans (linkAt_epoch_le h) hs, hlink⟩
    constructor
    · intro _
      exact hle
    · intro _
      exact decodeFrame_encodeFrame P.heapAddr_aligned hwf

end LinkLemmas

end Blackwing.Protocol
