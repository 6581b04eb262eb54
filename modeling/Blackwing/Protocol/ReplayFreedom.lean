import Blackwing.Protocol.Link
import Blackwing.Protocol.NonceUniqueness

/-!
# No frame is accepted twice

One `FrameDecryptor`, any frames an adversary cares to deliver, any rotations in
between, and the frames that the peer's `FrameEncryptor` produced. The AEAD is
ideal on the delivered frames: a frame opens under a key only if the peer sealed
its ciphertext and tag under that key and nonce.

The window holds every counter accepted under the current key, and a key that was
left never comes back, so no counter is accepted twice under one key. The peer
uses a nonce once, so a frame of the peer is accepted at most once.

* `accepted_places_distinct`: the step from windows to runs.
* `frame_accepted_at_most_once`: the main result.
-/

namespace Blackwing.Protocol

open EncryptionLemmas LinkLemmas NonceLemmas

variable (P : Primitives)

/-! ## Runs of a decryptor -/

/-- The calls of a `FrameDecryptor`. -/
inductive DecryptorOp where
  | decryptFrame (encrypted : EncryptedFrame)
  | rotateKeys
deriving DecidableEq

/-- One call of a `FrameDecryptor`. -/
def decryptorStep (d : FrameDecryptor) : DecryptorOp → CipherOut × FrameDecryptor
  | .decryptFrame e =>
    (.decrypted (FrameDecryptor.decryptFrame P e d).1, (FrameDecryptor.decryptFrame P e d).2)
  | .rotateKeys => (.rotated (FrameDecryptor.rotateKeys P d).1, (FrameDecryptor.rotateKeys P d).2)

/-- The history of a decryptor. -/
abbrev DecryptorRun : Type := List (Entry FrameDecryptor DecryptorOp CipherOut)

/-- A delivery that returned a frame, with the key that opened it. -/
def accepted? (e : Entry FrameDecryptor DecryptorOp CipherOut) :
    Option (SymmetricKey × EncryptedFrame) :=
  match e.input, e.out with
  | .decryptFrame enc, .decrypted (.ok _) => some (e.post.recvKey, enc)
  | _, _ => none

/-- The deliveries that returned a frame, oldest first. -/
def accepted (h : DecryptorRun) : List (SymmetricKey × EncryptedFrame) := h.filterMap accepted?

/-- The key a call installed: a rotation that succeeded, or a delivery that moved to the next
epoch. -/
def installedKey? (e : Entry FrameDecryptor DecryptorOp CipherOut) : Option SymmetricKey :=
  match e.input, e.out with
  | .rotateKeys, .rotated (.ok _) => some e.post.recvKey
  | .decryptFrame _, _ => if e.post.epoch = e.pre.epoch then none else some e.post.recvKey
  | _, _ => none

/-- The keys of the epochs that a decryptor went through. -/
def epochKeys (key : SymmetricKey) (h : DecryptorRun) : List SymmetricKey :=
  key :: h.filterMap installedKey?

/-! ## The peer -/

/-- A frame the peer returned, with the key it was sealed under. -/
def produced? (e : Entry FrameEncryptor EncryptorOp CipherOut) :
    Option (SymmetricKey × EncryptedFrame) :=
  e.out.frame?.map fun f => (e.pre.sendKey, f)

/-- The frames the peer returned, oldest first. -/
def produced (h : List (Entry FrameEncryptor EncryptorOp CipherOut)) :
    List (SymmetricKey × EncryptedFrame) :=
  h.filterMap produced?

/-- The authenticated parts of two frames agree; the epoch field is not authenticated. -/
def CopyOf (a b : EncryptedFrame) : Prop :=
  a.nonce = b.nonce ∧ a.ciphertext = b.ciphertext ∧ a.tag = b.tag

instance (a b : EncryptedFrame) : Decidable (CopyOf a b) := inferInstanceAs (Decidable (_ ∧ _))

/-- On the delivered frames the AEAD is ideal: what opens was sealed by the peer. -/
def IdealAead (sealed : List (SymmetricKey × EncryptedFrame)) (ops : List DecryptorOp) : Prop :=
  ∀ enc, .decryptFrame enc ∈ ops → ∀ key plaintext, openFrame P key enc = .ok plaintext →
    ∃ f, (key, f) ∈ sealed ∧ CopyOf enc f

/-! ## The window and the history -/

/-- The window of a decryptor stands for a set of counters. -/
abbrev FrameDecryptor.Window (d : FrameDecryptor) (seen : Set Nat) : Prop :=
  Tracks d.replayProtection.maxCounter d.replayProtection.receivedMask seen

/-- The step keeps the key. The window only grows, and a frame that the step accepts is new
to it. -/
structure Stays (e : Entry FrameDecryptor DecryptorOp CipherOut) : Prop where
  key : e.post.recvKey = e.pre.recvKey
  install : installedKey? e = none
  window : ∀ seen, e.pre.Window seen → ∃ seen', seen ⊆ seen' ∧ e.post.Window seen' ∧
    ∀ a, accepted? e = some a →
      a.1 = e.pre.recvKey ∧ a.2.nonce.counter.toNat ∉ seen ∧ a.2.nonce.counter.toNat ∈ seen'

/-- The step installs a key. The new window holds at most the frame that the step accepts. -/
structure Moves (e : Entry FrameDecryptor DecryptorOp CipherOut) : Prop where
  install : installedKey? e = some e.post.recvKey
  window : ∃ seen, e.post.Window seen ∧
    ∀ a, accepted? e = some a → a.1 = e.post.recvKey ∧ a.2.nonce.counter.toNat ∈ seen

/-- Counters accepted under the current key are in the window, and no counter was accepted
twice under one key. -/
structure ReplayInv (key : SymmetricKey) (h : DecryptorRun) (d : FrameDecryptor) : Prop where
  current : d.recvKey ∈ epochKeys key h
  known : ∀ a ∈ accepted h, a.1 ∈ epochKeys key h
  window : ∃ seen, d.Window seen ∧
    ∀ a ∈ accepted h, a.1 = d.recvKey → a.2.nonce.counter.toNat ∈ seen
  distinct : (accepted h).Pairwise fun a b =>
    a.1 = b.1 → a.2.nonce.counter.toNat ≠ b.2.nonce.counter.toNat

namespace ReplayLemmas

variable {P} {key : SymmetricKey} {h : DecryptorRun} {d d' : FrameDecryptor}

theorem replayInv_new (epoch : UInt32) : ReplayInv key [] (FrameDecryptor.new key epoch) where
  current := List.mem_singleton.mpr rfl
  known := fun _ ha => absurd ha List.not_mem_nil
  window := ⟨∅, tracks_empty, fun _ ha => absurd ha List.not_mem_nil⟩
  distinct := List.Pairwise.nil

variable {a : SymmetricKey × EncryptedFrame}

theorem accepted?_eq_some {e : Entry FrameDecryptor DecryptorOp CipherOut}
    (ha : accepted? e = some a) :
    ∃ f, e.input = .decryptFrame a.2 ∧ e.out = .decrypted (.ok f) ∧ a.1 = e.post.recvKey := by
  unfold accepted? at ha
  split at ha
  · next enc f hin hout =>
    cases ha
    exact ⟨f, hin, hout, rfl⟩
  · cases ha

/-- A delivery keeps the key or moves to the next one. -/
theorem decryptFrame_stays_or_moves (d : FrameDecryptor) (enc : EncryptedFrame) :
    Stays (stepEntry (decryptorStep P) d (.decryptFrame enc)) ∨
      Moves (stepEntry (decryptorStep P) d (.decryptFrame enc)) := by
  have hcases := decryptFrame_cases (P := P) enc d
  simp only [stepEntry, decryptorStep]
  generalize FrameDecryptor.decryptFrame P enc d = call at hcases ⊢
  obtain ⟨r, d'⟩ := call
  dsimp only at hcases ⊢
  rcases hcases with ⟨hfail, rfl⟩ | ⟨w, hw, rfl, -⟩ | ⟨k, plaintext, hn, -, rfl⟩
  · refine Or.inl ⟨rfl, if_pos rfl, fun seen hseen => ⟨seen, subset_rfl, hseen, fun a ha => ?_⟩⟩
    obtain ⟨f, -, hout, -⟩ := accepted?_eq_some ha
    exact absurd (CipherOut.decrypted.inj hout) (hfail f)
  · refine Or.inl ⟨rfl, if_pos rfl, fun seen hseen =>
      ⟨insert enc.nonce.counter.toNat seen, Set.subset_insert _ _, (slide_tracks hseen hw).1,
        fun a ha => ?_⟩⟩
    obtain ⟨f, hin, -, hkey⟩ := accepted?_eq_some ha
    cases hin
    refine ⟨hkey, fun hmem => ?_, Set.mem_insert _ _⟩
    have hrefused := (slide_eq_none hseen).mpr (Or.inl hmem)
    cases hrefused.symm.trans hw
  · have hepoch : enc.epoch ≠ d.epoch := fun he => Nat.succ_ne_self _ (he ▸ hn).symm
    refine Or.inr ⟨if_neg hepoch, _, tracks_freshWindow enc.nonce, fun a ha => ?_⟩
    obtain ⟨f, hin, -, hkey⟩ := accepted?_eq_some ha
    cases hin
    exact ⟨hkey, Set.mem_singleton _⟩

/-- A rotation that fails half-way keeps the key and the window with it. -/
theorem rotateKeys_stays_or_moves (d : FrameDecryptor) :
    Stays (stepEntry (decryptorStep P) d .rotateKeys) ∨
      Moves (stepEntry (decryptorStep P) d .rotateKeys) := by
  have hcases := decryptor_rotateKeys_cases (P := P) d
  simp only [stepEntry, decryptorStep]
  generalize FrameDecryptor.rotateKeys P d = call at hcases ⊢
  rcases hcases with ⟨-, rfl⟩ | ⟨e, -, -, rfl⟩ | ⟨e, k, -, -, rfl⟩
  · exact Or.inl ⟨rfl, rfl, fun seen hseen => ⟨seen, subset_rfl, hseen, fun a ha => by cases ha⟩⟩
  · exact Or.inl ⟨rfl, rfl, fun seen hseen => ⟨seen, subset_rfl, hseen, fun a ha => by cases ha⟩⟩
  · exact Or.inr ⟨rfl, ∅, tracks_empty, fun a ha => by cases ha⟩

theorem decryptorStep_stays_or_moves (d : FrameDecryptor) (op : DecryptorOp) :
    Stays (stepEntry (decryptorStep P) d op) ∨ Moves (stepEntry (decryptorStep P) d op) := by
  cases op with
  | decryptFrame enc => exact decryptFrame_stays_or_moves d enc
  | rotateKeys => exact rotateKeys_stays_or_moves d

theorem mem_accepted_snoc {e : Entry FrameDecryptor DecryptorOp CipherOut} :
    a ∈ accepted (h ++ [e]) ↔ a ∈ accepted h ∨ accepted? e = some a := by
  simp [accepted]

theorem accepted_snoc (h : DecryptorRun) (e : Entry FrameDecryptor DecryptorOp CipherOut) :
    accepted (h ++ [e]) = accepted h ++ (accepted? e).toList := by
  cases ha : accepted? e with
  | none => simp [accepted, ha]
  | some a => simp [accepted, ha]

theorem epochKeys_snoc (key : SymmetricKey) (h : DecryptorRun)
    (e : Entry FrameDecryptor DecryptorOp CipherOut) :
    epochKeys key (h ++ [e]) = epochKeys key h ++ (installedKey? e).toList := by
  cases hk : installedKey? e with
  | none => simp [epochKeys, hk]
  | some k => simp [epochKeys, hk]

variable {e : Entry FrameDecryptor DecryptorOp CipherOut}

theorem replayInv_stays (hinv : ReplayInv key h e.pre) (hs : Stays e) :
    ReplayInv key (h ++ [e]) e.post := by
  obtain ⟨seen, hw, hseen⟩ := hinv.window
  obtain ⟨seen', hsub, hw', hnew⟩ := hs.window seen hw
  have hkeys : epochKeys key (h ++ [e]) = epochKeys key h := by
    rw [epochKeys_snoc, hs.install, Option.toList_none, List.append_nil]
  refine ⟨?_, ?_, ⟨seen', hw', ?_⟩, ?_⟩
  · rw [hkeys, hs.key]
    exact hinv.current
  · intro a ha
    rw [hkeys]
    rcases mem_accepted_snoc.mp ha with ha | ha
    · exact hinv.known a ha
    · rw [(hnew a ha).1]
      exact hinv.current
  · intro a ha hak
    rcases mem_accepted_snoc.mp ha with ha | ha
    · exact hsub (hseen a ha (hak.trans hs.key))
    · exact (hnew a ha).2.2
  · rw [accepted_snoc]
    refine List.pairwise_append.mpr ⟨hinv.distinct, ?_, fun a ha b hb hab heq => ?_⟩
    · cases accepted? e with
      | none => exact List.Pairwise.nil
      | some a => exact List.pairwise_singleton _ _
    · obtain ⟨hbk, hbn, -⟩ := hnew b (Option.mem_toList.mp hb)
      exact hbn (heq ▸ hseen a ha (hab.trans hbk))

theorem replayInv_moves (hinv : ReplayInv key h e.pre) (hm : Moves e)
    (hnodup : (epochKeys key (h ++ [e])).Nodup) : ReplayInv key (h ++ [e]) e.post := by
  obtain ⟨seen, hw, hnew⟩ := hm.window
  have hkeys : epochKeys key (h ++ [e]) = epochKeys key h ++ [e.post.recvKey] := by
    rw [epochKeys_snoc, hm.install, Option.toList_some]
  rw [hkeys] at hnodup
  -- the installed key is none of the earlier ones, so nothing was accepted under it
  have hfresh : ∀ a ∈ accepted h, a.1 ≠ e.post.recvKey := fun a ha hak =>
    (List.nodup_append.mp hnodup).2.2 _ (hinv.known a ha) _ (List.mem_singleton.mpr rfl) hak
  refine ⟨?_, ?_, ⟨seen, hw, ?_⟩, ?_⟩
  · rw [hkeys]
    exact List.mem_append_right _ (List.mem_singleton.mpr rfl)
  · intro a ha
    rw [hkeys]
    rcases mem_accepted_snoc.mp ha with ha | ha
    · exact List.mem_append_left _ (hinv.known a ha)
    · rw [(hnew a ha).1]
      exact List.mem_append_right _ (List.mem_singleton.mpr rfl)
  · intro a ha hak
    rcases mem_accepted_snoc.mp ha with ha | ha
    · exact absurd hak (hfresh a ha)
    · exact (hnew a ha).2
  · rw [accepted_snoc]
    refine List.pairwise_append.mpr ⟨hinv.distinct, ?_, fun a ha b hb hab => ?_⟩
    · cases accepted? e with
      | none => exact List.Pairwise.nil
      | some a => exact List.pairwise_singleton _ _
    · obtain ⟨hbk, -⟩ := hnew b (Option.mem_toList.mp hb)
      exact absurd (hab.trans hbk) (hfresh a ha)

/-- What was accepted opened under the key it is recorded with. -/
theorem accepted_opens {s : FrameDecryptor} {ops : List DecryptorOp}
    (ha : a ∈ accepted (run (decryptorStep P) s ops)) :
    .decryptFrame a.2 ∈ ops ∧ ∃ plaintext, openFrame P a.1 a.2 = .ok plaintext := by
  obtain ⟨e, he, hea⟩ := List.mem_filterMap.mp ha
  obtain ⟨f, hin, hout, hkey⟩ := accepted?_eq_some hea
  obtain ⟨before, after, hops, -⟩ := mem_run he
  refine ⟨?_, ?_⟩
  · rw [hops, ← hin]
    exact List.mem_append_right _ List.mem_cons_self
  · rw [out_eq_of_mem_run he, hin] at hout
    rw [hkey, post_eq_of_mem_run he, hin]
    have hok : (FrameDecryptor.decryptFrame P a.2 e.pre).1 = .ok f := CipherOut.decrypted.inj hout
    show ∃ plaintext, openFrame P (FrameDecryptor.decryptFrame P a.2 e.pre).2.recvKey a.2 = _
    rcases decryptFrame_cases (P := P) a.2 e.pre with
      ⟨hfail, -⟩ | ⟨w, -, hd, hopen⟩ | ⟨k, plaintext, -, hopen, hd⟩
    · exact absurd hok (hfail f)
    · rw [hd]
      exact hopen f hok
    · rw [hd]
      exact ⟨plaintext, hopen⟩

/-- The peer seals one frame for each nonce. -/
theorem produced_unique {s : FrameEncryptor} {ops : List EncryptorOp}
    {b : SymmetricKey × EncryptedFrame} (ha : a ∈ produced (run (encryptorStep P) s ops))
    (hb : b ∈ produced (run (encryptorStep P) s ops)) (hn : a.2.nonce = b.2.nonce) : a = b := by
  refine run_emits_unique FrameEncryptor.place produced? (fun a => a.2.nonce.place)
    (place_encryptorStep (P := P)) (fun t op c hc => ?_) ha hb (congrArg Nonce.place hn)
  obtain ⟨f, hf, rfl⟩ := Option.map_eq_some_iff.mp hc
  exact encryptorStep_frame hf

theorem mem_returnedFrames_of_produced {h : List (Entry FrameEncryptor EncryptorOp CipherOut)}
    (ha : a ∈ produced h) : a.2 ∈ returnedFrames h := by
  obtain ⟨e, he, hea⟩ := List.mem_filterMap.mp ha
  obtain ⟨f, hf, rfl⟩ := Option.map_eq_some_iff.mp hea
  exact List.mem_filterMap.mpr ⟨e, he, hf⟩

theorem length_le_one_of_pairwise {α : Type} {R : α → α → Prop} {l : List α} (hl : l.Pairwise R)
    (hR : ∀ a ∈ l, ∀ b ∈ l, ¬ R a b) : l.length ≤ 1 := by
  match l, hl with
  | [], _ => exact Nat.zero_le _
  | [_], _ => exact Nat.le_refl _
  | a :: b :: l, hl =>
    exact absurd (List.rel_of_pairwise_cons hl List.mem_cons_self)
      (hR a List.mem_cons_self b (List.mem_cons_of_mem _ List.mem_cons_self))

end ReplayLemmas

open ReplayLemmas

/-! ## Runs -/

/-- No counter is accepted twice under one key. -/
theorem accepted_places_distinct {key : SymmetricKey} {epoch : UInt32} {ops : List DecryptorOp}
    (hkeys : (epochKeys key (run (decryptorStep P) (FrameDecryptor.new key epoch) ops)).Nodup) :
    (accepted (run (decryptorStep P) (FrameDecryptor.new key epoch) ops)).Pairwise fun a b =>
      a.1 = b.1 → a.2.nonce.counter.toNat ≠ b.2.nonce.counter.toNat := by
  have hinv := @run_induction _ _ _ (decryptorStep P)
    (fun h d => (epochKeys key h).Nodup → ReplayInv key h d) (FrameDecryptor.new key epoch)
    (fun _ => replayInv_new epoch) ?_ ops
  · exact (hinv hkeys).distinct
  · intro h d op ih hnodup
    have hprev : (epochKeys key h).Nodup := by
      rw [epochKeys_snoc] at hnodup
      exact (List.nodup_append.mp hnodup).1
    rcases decryptorStep_stays_or_moves (P := P) d op with hs | hm
    · exact replayInv_stays (ih hprev) hs
    · exact replayInv_moves (ih hprev) hm hnodup

/-- In every run of a decryptor, whatever is delivered and whenever it rotates, what it accepts
is a copy of a frame of the peer, and it accepts at most one copy of each. -/
theorem frame_accepted_at_most_once {key : SymmetricKey} {epoch : UInt32} {ops : List DecryptorOp}
    {peer : FrameEncryptor} {peerOps : List EncryptorOp}
    (hideal : IdealAead P (produced (run (encryptorStep P) peer peerOps)) ops)
    (hkeys : (epochKeys key (run (decryptorStep P) (FrameDecryptor.new key epoch) ops)).Nodup) :
    (∀ a ∈ accepted (run (decryptorStep P) (FrameDecryptor.new key epoch) ops),
      ∃ f ∈ returnedFrames (run (encryptorStep P) peer peerOps), CopyOf a.2 f) ∧
    ∀ f ∈ returnedFrames (run (encryptorStep P) peer peerOps),
      ((accepted (run (decryptorStep P) (FrameDecryptor.new key epoch) ops)).filter
        fun a => CopyOf a.2 f).length ≤ 1 := by
  have hsealed : ∀ a ∈ accepted (run (decryptorStep P) (FrameDecryptor.new key epoch) ops),
      ∃ f, (a.1, f) ∈ produced (run (encryptorStep P) peer peerOps) ∧ CopyOf a.2 f := by
    intro a ha
    obtain ⟨hop, plaintext, hopen⟩ := accepted_opens ha
    exact hideal a.2 hop a.1 plaintext hopen
  constructor
  · intro a ha
    obtain ⟨f, hf, hcopy⟩ := hsealed a ha
    exact ⟨f, mem_returnedFrames_of_produced hf, hcopy⟩
  · intro f _
    refine length_le_one_of_pairwise ((accepted_places_distinct P hkeys).filter _) ?_
    intro a ha b hb hdistinct
    obtain ⟨ha, hca⟩ := List.mem_filter.mp ha
    obtain ⟨hb, hcb⟩ := List.mem_filter.mp hb
    have hnonce : a.2.nonce = b.2.nonce :=
      (of_decide_eq_true hca).1.trans (of_decide_eq_true hcb).1.symm
    obtain ⟨fa, hfa, hcfa⟩ := hsealed a ha
    obtain ⟨fb, hfb, hcfb⟩ := hsealed b hb
    -- one nonce of the peer, so one frame and one key
    have hkey : (a.1, fa) = (b.1, fb) :=
      produced_unique hfa hfb (hcfa.1.symm.trans (hnonce.trans hcfb.1))
    exact hdistinct (Prod.mk.inj hkey).1 (by rw [hnonce])

/-- The peer's first frame, its replay, a rotation, and the frame again under a forged epoch. -/
def replayAttack : List DecryptorOp :=
  [.decryptFrame (firstFrame (Bytes.fill 32 1) (sampleFrame 7)),
    .decryptFrame (firstFrame (Bytes.fill 32 1) (sampleFrame 7)), .rotateKeys,
    .decryptFrame { firstFrame (Bytes.fill 32 1) (sampleFrame 7) with epoch := 1 }]

/-- The transparent primitives are ideal on the frames of the attack. -/
theorem replayAttack_ideal :
    IdealAead .plain (produced (run (encryptorStep .plain) (FrameEncryptor.new (Bytes.fill 32 1) 0)
      [.encryptFrame (sampleFrame 7)])) replayAttack := by
  intro enc hop key plaintext hopen
  have hproduced : produced (run (encryptorStep .plain) (FrameEncryptor.new (Bytes.fill 32 1) 0)
      [.encryptFrame (sampleFrame 7)]) =
        [(Bytes.fill 32 1, firstFrame (Bytes.fill 32 1) (sampleFrame 7))] := by decide +kernel
  have hcopy : CopyOf enc (firstFrame (Bytes.fill 32 1) (sampleFrame 7)) := by
    simp only [replayAttack, List.mem_cons, List.not_mem_nil, or_false, reduceCtorEq, false_or,
      DecryptorOp.decryptFrame.injEq] at hop
    rcases hop with rfl | rfl | rfl
    · exact ⟨rfl, rfl, rfl⟩
    · exact ⟨rfl, rfl, rfl⟩
    · exact ⟨rfl, rfl, rfl⟩
  have hsealed : enc.ciphertext ++ enc.tag.toList =
      encodeFrame (sampleFrame 7) ++ plainTrailer (Bytes.fill 32 1) (Nonce.new 0 0).bytes := by
    rw [hcopy.2.1, hcopy.2.2]
    decide +kernel
  have hkey : key = Bytes.fill 32 1 :=
    plain_decryptAead hsealed (Outcome.mapErr_eq_ok.mp hopen)
  rw [hproduced, hkey]
  exact ⟨_, List.mem_singleton.mpr rfl, hcopy⟩

/-- Under the attack the frame is returned once. -/
theorem replayAttack_accepted_once :
    (∀ a ∈ accepted (run (decryptorStep .plain) (FrameDecryptor.new (Bytes.fill 32 1) 0) replayAttack),
      ∃ f ∈ returnedFrames (run (encryptorStep .plain) (FrameEncryptor.new (Bytes.fill 32 1) 0)
        [.encryptFrame (sampleFrame 7)]), CopyOf a.2 f) ∧
    ∀ f ∈ returnedFrames (run (encryptorStep .plain) (FrameEncryptor.new (Bytes.fill 32 1) 0)
        [.encryptFrame (sampleFrame 7)]),
      ((accepted (run (decryptorStep .plain) (FrameDecryptor.new (Bytes.fill 32 1) 0)
        replayAttack)).filter fun a => CopyOf a.2 f).length ≤ 1 :=
  frame_accepted_at_most_once .plain replayAttack_ideal (by decide +kernel)

end Blackwing.Protocol
