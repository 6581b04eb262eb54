import Blackwing.Lib.Run
import Blackwing.Protocol.Encryption

/-!
# Frames that do not authenticate

What a `FrameDecryptor` does with a frame whose tag checks neither under its key
nor under the key of the next epoch. A frame that claims the next epoch, or any
other epoch but the current one, leaves no trace. A frame that claims the current
epoch is entered into the replay window before its tag is checked.

* `forged_frame_harmless_iff`: exactly which forged frames are refused without a
  trace, and that a run in which all forged frames are of that kind is the run
  without them.
* `forged_counter_blocks_stream`: one forged frame of the current epoch makes the
  decryptor refuse the authentic frames that follow.
-/

namespace Blackwing.Protocol

open EncryptionLemmas

variable (P : Primitives)

/-- The AEAD check succeeds under a key. -/
def opens (key : SymmetricKey) (enc : EncryptedFrame) : Bool :=
  match openFrame P key enc with
  | .ok _ => true
  | _ => false

/-- The AEAD check fails under the receive key and under the key of the next epoch. -/
def forged (d : FrameDecryptor) (enc : EncryptedFrame) : Bool :=
  !opens P d.recvKey enc && (nextKey P d.recvKey (d.epoch + 1)).all fun k => !opens P k enc

/-- A frame of the current epoch has a counter that is too old for the window or marked in it; for a
frame of another epoch the comparison `self.epoch + 1` does not overflow. -/
def Harmless (d : FrameDecryptor) (enc : EncryptedFrame) : Prop :=
  (enc.epoch = d.epoch →
    Refused d.replayProtection.maxCounter d.replayProtection.receivedMask enc.nonce.counter) ∧
  (enc.epoch ≠ d.epoch → d.epoch.toNat + 1 < 2 ^ 32)

instance (d : FrameDecryptor) (enc : EncryptedFrame) : Decidable (Harmless d enc) :=
  inferInstanceAs (Decidable (_ ∧ _))

/-- Deliveries to one decryptor. -/
def decryptStep (d : FrameDecryptor) (enc : EncryptedFrame) :
    Outcome ProtocolError OwnedProtocolFrame × FrameDecryptor :=
  FrameDecryptor.decryptFrame P enc d

/-- The entry of a delivery whose frame was not forged. -/
def authentic (e : Entry FrameDecryptor EncryptedFrame (Outcome ProtocolError OwnedProtocolFrame)) :
    Bool :=
  !forged P e.pre e.input

namespace ForgeryLemmas

variable {P} {d : FrameDecryptor} {enc : EncryptedFrame}

theorem openFrame_of_not_opens {key : SymmetricKey} (h : opens P key enc = false) :
    openFrame P key enc = .err .encryptionError := by
  rcases openFrame_cases (P := P) key enc with ⟨plaintext, ho⟩ | ho
  · rw [opens, ho] at h
    cases h
  · exact ho

/-- A frame of the current epoch leaves no trace exactly when the window refuses its counter. -/
theorem decryptFrame_same_unchanged (he : enc.epoch = d.epoch) :
    (∃ x, FrameDecryptor.decryptFrame P enc d = (.err x, d)) ↔
      Refused d.replayProtection.maxCounter d.replayProtection.receivedMask enc.nonce.counter := by
  rw [decryptFrame_same he, ← slide_eq_none_iff_refused]
  cases hs : slide d.replayProtection.maxCounter d.replayProtection.receivedMask
      enc.nonce.counter with
  | none => exact iff_of_true ⟨_, rfl⟩ rfl
  | some w =>
    refine iff_of_false ?_ (fun h => nomatch h)
    rintro ⟨x, hx⟩
    have hw : (⟨w.1, w.2⟩ : ReplayProtection) = d.replayProtection :=
      congrArg (fun r => r.2.replayProtection) hx
    refine slide_ne hs ?_
    rw [← hw]

/-- A forged frame of the next epoch leaves no trace. -/
theorem forged_next (hf : forged P d enc = true) (he : enc.epoch.toNat = d.epoch.toNat + 1) :
    ∃ x, FrameDecryptor.decryptFrame P enc d = (.err x, d) := by
  have hsucc : d.epoch + 1 = enc.epoch := by
    apply UInt32.toNat_inj.mp
    rw [UInt32.toNat_add, he]
    exact Nat.mod_eq_of_lt (he ▸ enc.epoch.toNat_lt)
  have hall := (Bool.and_eq_true_iff.mp hf).2
  rw [hsucc] at hall
  rw [decryptFrame_next he]
  cases hk : nextKey P d.recvKey enc.epoch with
  | none => exact ⟨_, rfl⟩
  | some k =>
    rw [hk, Option.all_some, Bool.not_eq_true'] at hall
    dsimp only
    rw [openFrame_of_not_opens hall]
    exact ⟨_, rfl⟩

theorem forged_harmless_iff (hf : forged P d enc = true) :
    (∃ x, FrameDecryptor.decryptFrame P enc d = (.err x, d)) ↔ Harmless d enc := by
  by_cases he : enc.epoch = d.epoch
  · rw [decryptFrame_same_unchanged he]
    constructor
    · intro hs
      exact ⟨fun _ => hs, fun hne => absurd he hne⟩
    · intro hh
      exact hh.1 he
  · by_cases hn : enc.epoch.toNat = d.epoch.toNat + 1
    · exact iff_of_true (forged_next hf hn)
        ⟨fun h => absurd h he, fun _ => hn ▸ enc.epoch.toNat_lt⟩
    · rw [decryptFrame_other he hn]
      split
      · next hlt => exact iff_of_true ⟨_, rfl⟩ ⟨fun h => absurd h he, fun _ => hlt⟩
      · next hge => exact iff_of_false (fun ⟨x, hx⟩ => nomatch hx) fun hh => hge (hh.2 he)

end ForgeryLemmas

open ForgeryLemmas

/-- A forged frame is refused and leaves the decryptor as it was exactly when it is harmless.
A run in which every forged frame is harmless gives the authentic frames what the run without
the forged ones gives them. -/
theorem forged_frame_harmless_iff :
    (∀ d enc, forged P d enc = true →
      ((∃ x, FrameDecryptor.decryptFrame P enc d = (.err x, d)) ↔ Harmless d enc)) ∧
    (∀ d encs,
      (∀ e ∈ run (decryptStep P) d encs, forged P e.pre e.input = true → Harmless e.pre e.input) →
        run (decryptStep P) d (((run (decryptStep P) d encs).filter (authentic P)).map Entry.input) =
          (run (decryptStep P) d encs).filter (authentic P)) := by
  constructor
  · intro d enc hf
    exact forged_harmless_iff hf
  · intro d encs hall
    refine run_erase fun e he hk => ?_
    have hf : forged P e.pre e.input = true := by simpa [authentic] using hk
    obtain ⟨x, hx⟩ := (forged_harmless_iff hf).mpr (hall e he hf)
    rw [post_eq_of_mem_run he, decryptStep, hx]

/-- A forged frame of a far epoch leaves no trace, and the stream goes on as if it had not come. -/
theorem forged_far_epoch_harmless :
    (∃ x, FrameDecryptor.decryptFrame .plain (junkFrame 5 0) (FrameDecryptor.new (Bytes.fill 32 1) 0) =
      (.err x, FrameDecryptor.new (Bytes.fill 32 1) 0)) ∧
    run (decryptStep .plain) (FrameDecryptor.new (Bytes.fill 32 1) 0)
        (((run (decryptStep .plain) (FrameDecryptor.new (Bytes.fill 32 1) 0)
          [junkFrame 5 0, firstFrame (Bytes.fill 32 1) (sampleFrame 7)]).filter
            (authentic .plain)).map Entry.input) =
      (run (decryptStep .plain) (FrameDecryptor.new (Bytes.fill 32 1) 0)
        [junkFrame 5 0, firstFrame (Bytes.fill 32 1) (sampleFrame 7)]).filter (authentic .plain) :=
  ⟨((forged_frame_harmless_iff .plain).1 _ _ (by decide +kernel)).mpr (by decide +kernel),
    (forged_frame_harmless_iff .plain).2 _ _ (by decide +kernel)⟩

/-- A forged frame of the current epoch with the largest counter is refused, but its counter
stays in the window. The peer's first frame is then refused as a replay. -/
theorem forged_counter_blocks_stream :
    forged .plain (FrameDecryptor.new (Bytes.fill 32 1) 0) (junkFrame 0 0xFFFFFFFFFFFFFFFF) = true ∧
    (FrameDecryptor.decryptFrame .plain (junkFrame 0 0xFFFFFFFFFFFFFFFF)
      (FrameDecryptor.new (Bytes.fill 32 1) 0)).2 ≠ FrameDecryptor.new (Bytes.fill 32 1) 0 ∧
    (FrameEncryptor.encryptFrame .plain (sampleFrame 7) (FrameEncryptor.new (Bytes.fill 32 1) 0)).1 =
      .ok (firstFrame (Bytes.fill 32 1) (sampleFrame 7)) ∧
    (run (decryptStep .plain) (FrameDecryptor.new (Bytes.fill 32 1) 0)
        [firstFrame (Bytes.fill 32 1) (sampleFrame 7)]).map Entry.out = [.ok (sampleFrame 7)] ∧
    (run (decryptStep .plain) (FrameDecryptor.new (Bytes.fill 32 1) 0)
        [junkFrame 0 0xFFFFFFFFFFFFFFFF, firstFrame (Bytes.fill 32 1) (sampleFrame 7)]).map Entry.out =
      [.err .encryptionError, .err .replayDetected] := by
  decide +kernel

end Blackwing.Protocol
