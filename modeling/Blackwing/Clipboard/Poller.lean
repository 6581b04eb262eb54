import Blackwing.Lib.Notify

/-!
# The clipboard poller

The loop of `ClipboardPoller::spawn` (`bw-clipboard/src/poller.rs`). It polls the text and the
image of the clipboard on two timers, remembers the hash of each, and invokes the callback when a
hash is not the remembered one. Each notification resets the remembered hash of the other content.
While both are present this makes the loop notify them in turn, although nothing changes.

* `pass`: a pass of the loop, with the time it reads and what the clipboard returns.
* `schedule`: the polls that are due, from the timers and the times of the passes.
* `sim_run`: with unchanged contents, the polls of what is present are polls that make each other
  forget.
* `notified_once_iff`: when each content is notified at most once.
-/

namespace Blackwing.Clipboard

/-! ## The loop -/

/-- `ClipboardImage`. -/
structure ClipboardImage where
  width : Nat
  height : Nat
  bytes : List UInt8

/-- `ClipboardChange`. -/
structure ClipboardChange where
  isText : Bool
  text : Option String
  imageData : Option (List UInt8)
  imageWidth : Option Nat
  imageHeight : Option Nat

/-- `ClipboardPoller`. -/
structure ClipboardPoller where
  textInterval : Nat
  imageInterval : Nat

/-- The local variables of the loop. -/
structure PollLoop where
  lastTextHash : UInt64
  lastImageHash : UInt64
  textNext : Nat
  imageNext : Nat

/-- The variables before the first pass, with the times of the two timers. -/
def PollLoop.start (textNext imageNext : Nat) : PollLoop := ⟨0, 0, textNext, imageNext⟩

/-- What `get_text` and `get_image` return. An `Err` is `none`. -/
structure Contents where
  text : Option String
  image : Option ClipboardImage

section

variable (hashBytes : List UInt8 → UInt64)

/-- What the check of the text clipboard does with what it finds. -/
def pollText (text : Option String) (l : PollLoop) : Option ClipboardChange × PollLoop :=
  match text with
  | some text =>
    let hash := hashBytes text.toUTF8.data.toList
    if hash ≠ l.lastTextHash then
      (some ⟨true, some text, none, none, none⟩,
        { l with lastTextHash := hash, lastImageHash := 0 })
    else (none, l)
  | none => (none, { l with lastTextHash := 0 })

/-- What the check of the image clipboard does with what it finds. -/
def pollImage (image : Option ClipboardImage) (l : PollLoop) : Option ClipboardChange × PollLoop :=
  match image with
  | some image =>
    let hash := hashBytes image.bytes
    if hash ≠ l.lastImageHash then
      (some ⟨false, none, some image.bytes, some image.width, some image.height⟩,
        { l with lastImageHash := hash, lastTextHash := 0 })
    else (none, l)
  | none => (none, { l with lastImageHash := 0 })

/-- The check of the text when it is due. -/
def checkText (poller : ClipboardPoller) (now : Nat) (text : Option String) (l : PollLoop) :
    Option ClipboardChange × PollLoop :=
  if now ≥ l.textNext then
    pollText hashBytes text { l with textNext := now + poller.textInterval }
  else (none, l)

/-- The check of the image when it is due. -/
def checkImage (poller : ClipboardPoller) (now : Nat) (image : Option ClipboardImage)
    (l : PollLoop) : Option ClipboardChange × PollLoop :=
  if now ≥ l.imageNext then
    pollImage hashBytes image { l with imageNext := now + poller.imageInterval }
  else (none, l)

/-- A pass of the loop, with the time it reads: the callbacks, and the variables after it. -/
def pass (poller : ClipboardPoller) (l : PollLoop) (p : Nat × Contents) :
    List ClipboardChange × PollLoop :=
  let text := checkText hashBytes poller p.1 p.2.text l
  let image := checkImage hashBytes poller p.1 p.2.image text.2
  (text.1.toList ++ image.1.toList, image.2)

/-- The callbacks of passes at the given times, over contents that do not change. -/
def changes (poller : ClipboardPoller) (contents : Contents) (l : PollLoop) (times : List Nat) :
    List ClipboardChange :=
  (run (pass hashBytes poller) l (times.map (·, contents))).flatMap Entry.out

/-! ## Schedules -/

/-- The two kinds of content. -/
inductive Kind where
  | text
  | image
deriving DecidableEq

/-- The polls that are due in a pass. -/
def due (textNext imageNext now : Nat) : List Kind :=
  (if now ≥ textNext then [.text] else []) ++ (if now ≥ imageNext then [.image] else [])

/-- The polls of passes at the given times. -/
def schedule (poller : ClipboardPoller) : Nat → Nat → List Nat → List Kind
  | _, _, [] => []
  | textNext, imageNext, now :: times =>
    due textNext imageNext now ++
      schedule poller (if now ≥ textNext then now + poller.textInterval else textNext)
        (if now ≥ imageNext then now + poller.imageInterval else imageNext) times

/-- The hash of a content that is present. -/
def Contents.hash (contents : Contents) : Kind → Option UInt64
  | .text => contents.text.map fun text => hashBytes text.toUTF8.data.toList
  | .image => contents.image.map fun image => hashBytes image.bytes

/-- The content is present. -/
def Contents.present (contents : Contents) : Kind → Bool
  | .text => contents.text.isSome
  | .image => contents.image.isSome

def PollLoop.lastHash (l : PollLoop) : Kind → UInt64
  | .text => l.lastTextHash
  | .image => l.lastImageHash

/-- The content is present and has the remembered hash. -/
def PollLoop.remembers (l : PollLoop) (contents : Contents) (k : Kind) : Bool :=
  contents.hash hashBytes k = some (l.lastHash k)

end

/-- The kind of content that a callback is about. -/
def ClipboardChange.kind (c : ClipboardChange) : Kind := if c.isText then .text else .image

namespace PollerLemmas

open Notify

variable {hashBytes : List UInt8 → UInt64} {poller : ClipboardPoller} {contents : Contents}

variable (hashBytes contents) in
/-- A part of the loop does what the polls of present contents do that make each other forget. -/
structure Sim (l : PollLoop) (polls : List Kind) (out : List ClipboardChange) (l' : PollLoop) :
    Prop where
  kinds : out.map ClipboardChange.kind =
    notified (l.remembers hashBytes contents) (polls.filter contents.present)
  known : l'.remembers hashBytes contents =
    endState poll (l.remembers hashBytes contents) (polls.filter contents.present)

theorem Sim.append {l l' l'' : PollLoop} {polls polls' : List Kind}
    {out out' : List ClipboardChange} (h : Sim hashBytes contents l polls out l')
    (h' : Sim hashBytes contents l' polls' out' l'') :
    Sim hashBytes contents l (polls ++ polls') (out ++ out') l'' := by
  constructor
  · rw [List.map_append, List.filter_append, notified_append, h.kinds, h'.kinds, h.known]
  · rw [List.filter_append, endState_append, h'.known, h.known]

theorem sim_nil (l : PollLoop) : Sim hashBytes contents l [] [] l := ⟨rfl, rfl⟩

theorem sim_absent {k : Kind} {l l' : PollLoop} (habsent : contents.present k = false)
    (hknown : l'.remembers hashBytes contents = l.remembers hashBytes contents) :
    Sim hashBytes contents l [k] [] l' := by
  have hnone : [k].filter contents.present = [] := List.filter_cons_of_neg (by simp [habsent])
  refine ⟨?_, ?_⟩
  · rw [hnone]
    rfl
  · rw [hnone]
    exact hknown

theorem sim_known {k : Kind} {l : PollLoop} (hpresent : contents.present k = true)
    (hknown : l.remembers hashBytes contents k = true) : Sim hashBytes contents l [k] [] l := by
  have hone : [k].filter contents.present = [k] := List.filter_cons_of_pos hpresent
  refine ⟨?_, ?_⟩
  · rw [hone, notified_cons_of_known hknown]
    rfl
  · rw [hone, endState_cons, poll, if_pos hknown]
    rfl

theorem sim_unknown {k : Kind} {l l' : PollLoop} {c : ClipboardChange}
    (hpresent : contents.present k = true) (hunknown : l.remembers hashBytes contents k = false)
    (hkind : c.kind = k) (hknown : l'.remembers hashBytes contents = only k) :
    Sim hashBytes contents l [k] [c] l' := by
  have hone : [k].filter contents.present = [k] := List.filter_cons_of_pos hpresent
  refine ⟨?_, ?_⟩
  · rw [hone, notified_cons_of_unknown hunknown, List.map_singleton, hkind]
    rfl
  · rw [hone, endState_cons, poll, if_neg (by simp [hunknown])]
    exact hknown

section

variable (hhash : ∀ k h, contents.hash hashBytes k = some h → h ≠ 0)

include hhash in
/-- A hash that is set to zero is forgotten. -/
theorem remembers_of_zero {l : PollLoop} {k : Kind} (hzero : l.lastHash k = 0) :
    l.remembers hashBytes contents k = false := by
  refine decide_eq_false fun hsome => ?_
  exact hhash k _ hsome hzero

include hhash in
/-- The check of the text is a poll. -/
theorem sim_text (l : PollLoop) :
    Sim hashBytes contents l [.text] (pollText hashBytes contents.text l).1.toList
      (pollText hashBytes contents.text l).2 := by
  cases htext : contents.text with
  | none =>
    refine sim_absent (by simp [Contents.present, htext]) (funext fun k => ?_)
    cases k with
    | text => simp [PollLoop.remembers, Contents.hash, htext]
    | image => rfl
  | some text =>
    have hpresent : contents.present .text = true := by simp [Contents.present, htext]
    have hhash' : contents.hash hashBytes .text = some (hashBytes text.toUTF8.data.toList) := by
      simp [Contents.hash, htext]
    rw [pollText]
    split_ifs with hne
    · refine sim_unknown hpresent ?_ rfl (funext fun k => ?_)
      · simpa [PollLoop.remembers, hhash', PollLoop.lastHash] using hne
      · cases k with
        | text => simp [PollLoop.remembers, hhash', PollLoop.lastHash, only]
        | image => rw [remembers_of_zero hhash rfl]; rfl
    · refine sim_known hpresent ?_
      simpa [PollLoop.remembers, hhash', PollLoop.lastHash] using hne

include hhash in
/-- The check of the image is a poll. -/
theorem sim_image (l : PollLoop) :
    Sim hashBytes contents l [.image] (pollImage hashBytes contents.image l).1.toList
      (pollImage hashBytes contents.image l).2 := by
  cases himage : contents.image with
  | none =>
    refine sim_absent (by simp [Contents.present, himage]) (funext fun k => ?_)
    cases k with
    | text => rfl
    | image => simp [PollLoop.remembers, Contents.hash, himage]
  | some image =>
    have hpresent : contents.present .image = true := by simp [Contents.present, himage]
    have hhash' : contents.hash hashBytes .image = some (hashBytes image.bytes) := by
      simp [Contents.hash, himage]
    rw [pollImage]
    split_ifs with hne
    · refine sim_unknown hpresent ?_ rfl (funext fun k => ?_)
      · simpa [PollLoop.remembers, hhash', PollLoop.lastHash] using hne
      · cases k with
        | text => rw [remembers_of_zero hhash rfl]; rfl
        | image => simp [PollLoop.remembers, hhash', PollLoop.lastHash, only]
    · refine sim_known hpresent ?_
      simpa [PollLoop.remembers, hhash', PollLoop.lastHash] using hne

/-! ## Passes and runs -/

theorem timers_pollText (text : Option String) (l : PollLoop) :
    (pollText hashBytes text l).2.textNext = l.textNext ∧
      (pollText hashBytes text l).2.imageNext = l.imageNext := by
  cases text with
  | none => exact ⟨rfl, rfl⟩
  | some text =>
    rw [pollText]
    split_ifs <;> exact ⟨rfl, rfl⟩

theorem timers_pollImage (image : Option ClipboardImage) (l : PollLoop) :
    (pollImage hashBytes image l).2.textNext = l.textNext ∧
      (pollImage hashBytes image l).2.imageNext = l.imageNext := by
  cases image with
  | none => exact ⟨rfl, rfl⟩
  | some image =>
    rw [pollImage]
    split_ifs <;> exact ⟨rfl, rfl⟩

variable (hashBytes poller) in
theorem timers_checkText (now : Nat) (text : Option String) (l : PollLoop) :
    (checkText hashBytes poller now text l).2.textNext =
        (if now ≥ l.textNext then now + poller.textInterval else l.textNext) ∧
      (checkText hashBytes poller now text l).2.imageNext = l.imageNext := by
  rw [checkText]
  split_ifs
  · exact timers_pollText text _
  · exact ⟨rfl, rfl⟩

variable (hashBytes poller) in
theorem timers_checkImage (now : Nat) (image : Option ClipboardImage) (l : PollLoop) :
    (checkImage hashBytes poller now image l).2.textNext = l.textNext ∧
      (checkImage hashBytes poller now image l).2.imageNext =
        (if now ≥ l.imageNext then now + poller.imageInterval else l.imageNext) := by
  rw [checkImage]
  split_ifs
  · exact timers_pollImage image _
  · exact ⟨rfl, rfl⟩

variable (hashBytes poller contents) in
theorem timers_pass (l : PollLoop) (now : Nat) :
    (pass hashBytes poller l (now, contents)).2.textNext =
        (if now ≥ l.textNext then now + poller.textInterval else l.textNext) ∧
      (pass hashBytes poller l (now, contents)).2.imageNext =
        (if now ≥ l.imageNext then now + poller.imageInterval else l.imageNext) := by
  obtain ⟨htext, himage⟩ := timers_checkText hashBytes poller now contents.text l
  obtain ⟨htext', himage'⟩ := timers_checkImage hashBytes poller now contents.image
    (checkText hashBytes poller now contents.text l).2
  rw [himage] at himage'
  exact ⟨htext'.trans htext, himage'⟩

variable (poller) in
include hhash in
theorem sim_pass (l : PollLoop) (now : Nat) :
    Sim hashBytes contents l (due l.textNext l.imageNext now)
      (pass hashBytes poller l (now, contents)).1 (pass hashBytes poller l (now, contents)).2 := by
  have htext : Sim hashBytes contents l (if now ≥ l.textNext then [.text] else [])
      (checkText hashBytes poller now contents.text l).1.toList
      (checkText hashBytes poller now contents.text l).2 := by
    rw [checkText]
    split_ifs
    · have h := sim_text hhash { l with textNext := now + poller.textInterval }
      exact ⟨h.kinds, h.known⟩
    · exact sim_nil l
  have himage : ∀ l : PollLoop, Sim hashBytes contents l (if now ≥ l.imageNext then [.image] else [])
      (checkImage hashBytes poller now contents.image l).1.toList
      (checkImage hashBytes poller now contents.image l).2 := by
    intro l
    rw [checkImage]
    split_ifs
    · have h := sim_image hhash { l with imageNext := now + poller.imageInterval }
      exact ⟨h.kinds, h.known⟩
    · exact sim_nil l
  have hboth := htext.append (himage _)
  rw [(timers_checkText hashBytes poller now contents.text l).2] at hboth
  exact hboth

include hhash in
/-- The loop over unchanged contents. -/
theorem sim_run (l : PollLoop) (times : List Nat) :
    (changes hashBytes poller contents l times).map ClipboardChange.kind =
      notified (l.remembers hashBytes contents)
        ((schedule poller l.textNext l.imageNext times).filter contents.present) := by
  induction times generalizing l with
  | nil => rfl
  | cons now times ih =>
    obtain ⟨hkinds, hknown⟩ := sim_pass poller hhash l now
    obtain ⟨htext, himage⟩ := timers_pass hashBytes poller contents l now
    rw [schedule, List.filter_append, notified_append, ← hkinds, ← hknown, ← htext, ← himage, ← ih,
      ← List.map_append]
    rfl

end

/-- Each content is notified at most once, exactly if the kinds of the callbacks are distinct. -/
theorem nodup_kinds_iff {out : List ClipboardChange} :
    (out.map ClipboardChange.kind).Nodup ↔
      out.countP (·.isText) ≤ 1 ∧ out.countP (!·.isText) ≤ 1 := by
  have htext : (out.map ClipboardChange.kind).count .text = out.countP (·.isText) := by
    rw [List.count, List.countP_map]
    refine List.countP_congr fun c _ => ?_
    cases hc : c.isText <;> simp [ClipboardChange.kind, hc]
  have himage : (out.map ClipboardChange.kind).count .image = out.countP (!·.isText) := by
    rw [List.count, List.countP_map]
    refine List.countP_congr fun c _ => ?_
    cases hc : c.isText <;> simp [ClipboardChange.kind, hc]
  rw [List.nodup_iff_count_le_one, ← htext, ← himage]
  exact ⟨fun h => ⟨h .text, h .image⟩, fun h k => Kind.casesOn k h.1 h.2⟩

/-- A hash that is never zero. -/
theorem hash_one_ne_zero (contents : Contents) (k : Kind) (h : UInt64)
    (hk : contents.hash (fun _ => 1) k = some h) : h ≠ 0 := by
  obtain rfl : h = 1 := by
    cases k with
    | text => obtain ⟨text, -, rfl⟩ := Option.map_eq_some_iff.mp hk; rfl
    | image => obtain ⟨image, -, rfl⟩ := Option.map_eq_some_iff.mp hk; rfl
  decide

end PollerLemmas

open PollerLemmas

/-- While the contents do not change, the callback is invoked at most once with each, exactly if the
polls of what is present, from the first on whose content is not remembered, do not return to one
content after the other. -/
theorem notified_once_iff (hashBytes : List UInt8 → UInt64) (poller : ClipboardPoller)
    (contents : Contents) (l : PollLoop) (times : List Nat)
    (hhash : ∀ k h, contents.hash hashBytes k = some h → h ≠ 0) :
    (changes hashBytes poller contents l times).countP (·.isText) ≤ 1 ∧
        (changes hashBytes poller contents l times).countP (!·.isText) ≤ 1 ↔
      ∀ i j, i ≠ j → ¬ [i, j, i].Sublist
        (((schedule poller l.textNext l.imageNext times).filter contents.present).dropWhile
          (l.remembers hashBytes contents)) := by
  rw [← nodup_kinds_iff, sim_run hhash, Notify.nodup_notified_iff]

/-- A text and an image are present together, with the default intervals of 500 ms and 2 s in
milliseconds: as long as the text is not due again, each is notified once. -/
theorem notified_once_iff_both :
    (∀ k h, (⟨some "a", some ⟨1, 1, [0, 0, 0, 255]⟩⟩ : Contents).hash (fun _ => 1) k = some h →
        h ≠ 0) ∧
      (changes (fun _ => 1) ⟨500, 2000⟩ ⟨some "a", some ⟨1, 1, [0, 0, 0, 255]⟩⟩ (.start 0 0)
        [0, 100, 400]).countP (·.isText) ≤ 1 ∧
      (changes (fun _ => 1) ⟨500, 2000⟩ ⟨some "a", some ⟨1, 1, [0, 0, 0, 255]⟩⟩ (.start 0 0)
        [0, 100, 400]).countP (!·.isText) ≤ 1 := by
  refine ⟨hash_one_ne_zero _, (notified_once_iff _ _ _ (.start 0 0) _ (hash_one_ne_zero _)).mpr ?_⟩
  -- the polls are one of the text and one of the image
  intro i j _ hsub
  have hle := hsub.length_le
  rw [show [i, j, i].length = 3 from rfl] at hle
  exact absurd hle (by decide +kernel)

/-- A text and an image are present together: the second pass notifies the text again. -/
theorem text_notified_twice :
    (∀ k h, (⟨some "a", some ⟨1, 1, [0, 0, 0, 255]⟩⟩ : Contents).hash (fun _ => 1) k = some h →
        h ≠ 0) ∧
      (changes (fun _ => 1) ⟨500, 2000⟩ ⟨some "a", some ⟨1, 1, [0, 0, 0, 255]⟩⟩ (.start 0 0)
        [0, 500]).countP (·.isText) = 2 :=
  ⟨hash_one_ne_zero _, by decide +kernel⟩

end Blackwing.Clipboard
