import Blackwing.Lib.HashMap
import Blackwing.Lib.LookBack
import Blackwing.Relay.Message

/-!
# The authentication limiter

`PerIpRateLimiter` (`bw-server/src/main.rs`) counts the attempts of an address in windows that
open with a call and last `IP_RATE_WINDOW`. A window that has passed is forgotten with all it
counted, so the attempts at its end are not held against those that come right after it. Passed
windows are evicted once the map holds more than 1024 addresses, and only passed ones.

* `checkAndRecord_eq`: a call acts on the window it falls into, evicted or not.
* `Tracks`: what the map has of the windows of an address.
* `sliding_window_iff`: ten attempts in any 60 s are the limit exactly if each window of an address,
  read off its call times, fits in with the window before it.
* `attempts_bounded_iff`: the map stays within 1025 entries exactly if no new address comes while
  it holds that many fresh ones.
-/

namespace Blackwing.Server

open Relay (IpAddr)
open LookBack

/-! ## The limiter -/

/-- `MAX_AUTH_ATTEMPTS_PER_IP`. -/
def maxAuthAttemptsPerIp : Nat := 10

/-- `IP_RATE_WINDOW` in nanoseconds. -/
def ipRateWindow : Nat := 60 * 10 ^ 9

/-- `PerIpRateLimiter`: for each address the attempts in its window and when the window opened. -/
abbrev PerIpRateLimiter : Type := HashMap IpAddr (Nat × Nat)

/-- A call of `check_and_record`, with the `Instant` it reads. -/
structure AuthAttempt where
  ip : IpAddr
  now : Nat

/-- The eviction of stale entries. `duration_since` is zero for a later `Instant`. -/
def evictStale (now : Nat) (map : PerIpRateLimiter) : PerIpRateLimiter :=
  if HashMap.size map > 1024 then
    HashMap.retain (fun _ entry => now - entry.2 < ipRateWindow) map
  else map

/-- `check_and_record`. -/
def checkAndRecord (map : PerIpRateLimiter) (call : AuthAttempt) : Bool × PerIpRateLimiter :=
  let map := evictStale call.now map
  let entry := (map.lookup call.ip).getD (0, call.now)
  if call.now - entry.2 ≥ ipRateWindow then
    (true, map.insert call.ip (1, call.now))
  else if entry.1 ≥ maxAuthAttemptsPerIp then
    (false, map.insert call.ip entry)
  else
    (true, map.insert call.ip (entry.1 + 1, entry.2))

/-- An entry of a run. -/
abbrev AuthEntry : Type := Entry PerIpRateLimiter AuthAttempt Bool

/-! ## Windows -/

/-- The window that a call falls into: the one in the map while it lasts, or a new one. -/
def currentWindow (map : PerIpRateLimiter) (call : AuthAttempt) : Nat × Nat :=
  match map.lookup call.ip with
  | none => (0, call.now)
  | some (count, opened) =>
    if call.now - opened < ipRateWindow then (count, opened) else (0, call.now)

/-- The window of the call is used up. -/
def Blocks (map : PerIpRateLimiter) (call : AuthAttempt) : Prop :=
  maxAuthAttemptsPerIp ≤ (currentWindow map call).1

instance (map : PerIpRateLimiter) (call : AuthAttempt) : Decidable (Blocks map call) :=
  inferInstanceAs (Decidable (_ ≤ _))

/-- The time of a call for the address that returned true. -/
def allowedAt (ip : IpAddr) (e : AuthEntry) : Option Nat :=
  if e.input.ip = ip ∧ e.out = true then some e.input.now else none

/-- The times of the calls for an address. -/
def callTimes (ip : IpAddr) (calls : List AuthAttempt) : List Nat :=
  calls.filterMap fun call => if call.ip = ip then some call.now else none

/-- The map holds more than 1024 addresses, none of them stale, and the call is for another one. -/
def Overflows (map : PerIpRateLimiter) (call : AuthAttempt) : Prop :=
  1024 < HashMap.size map ∧
    (∀ ip entry, map.lookup ip = some entry → call.now - entry.2 < ipRateWindow) ∧
    map.lookup call.ip = none

namespace RateLimitLemmas

variable {map : PerIpRateLimiter} {call : AuthAttempt} {windows : List Window} {now : Nat}

/-- What the eviction leaves of an entry. -/
theorem lookup_evictStale (now : Nat) (map : PerIpRateLimiter) (ip : IpAddr) :
    (evictStale now map).lookup ip = map.lookup ip ∨
      (evictStale now map).lookup ip = none ∧
        ∃ count opened, map.lookup ip = some (count, opened) ∧ ipRateWindow ≤ now - opened := by
  rw [evictStale]
  split_ifs
  · rw [HashMap.lookup_retain]
    cases hl : map.lookup ip with
    | none => exact .inl rfl
    | some entry =>
      by_cases hfresh : now - entry.2 < ipRateWindow
      · exact .inl (Option.filter_some_pos (decide_eq_true hfresh))
      · refine .inr ⟨?_, entry.1, entry.2, rfl, Nat.not_lt.mp hfresh⟩
        exact Option.filter_some_neg (by simpa using hfresh)
  · exact .inl rfl

/-- Which window a call falls into. -/
theorem currentWindow_cases (map : PerIpRateLimiter) (call : AuthAttempt) :
    map.lookup call.ip = none ∧ currentWindow map call = (0, call.now) ∨
      (∃ window, map.lookup call.ip = some window ∧ ipRateWindow ≤ call.now - window.2 ∧
        currentWindow map call = (0, call.now)) ∨
      ∃ window, map.lookup call.ip = some window ∧ call.now - window.2 < ipRateWindow ∧
        currentWindow map call = window := by
  rw [currentWindow]
  cases map.lookup call.ip with
  | none => exact .inl ⟨rfl, rfl⟩
  | some window =>
    by_cases hfresh : call.now - window.2 < ipRateWindow
    · exact .inr (.inr ⟨window, rfl, hfresh, if_pos hfresh⟩)
    · exact .inr (.inl ⟨window, rfl, Nat.not_lt.mp hfresh, if_neg hfresh⟩)

/-- A call acts on the window it falls into, evicted or not. -/
theorem checkAndRecord_eq (map : PerIpRateLimiter) (call : AuthAttempt) :
    checkAndRecord map call =
      if Blocks map call then
        (false, (evictStale call.now map).insert call.ip (currentWindow map call))
      else
        (true, (evictStale call.now map).insert call.ip
          ((currentWindow map call).1 + 1, (currentWindow map call).2)) := by
  have hroom : ¬ maxAuthAttemptsPerIp ≤ 0 := by decide
  have hlength : ¬ ipRateWindow = 0 := by decide
  simp only [checkAndRecord, Blocks]
  rcases lookup_evictStale call.now map call.ip with heq | ⟨hnone, count, opened, hl, hstale⟩
  · rcases currentWindow_cases map call with ⟨hl, hw⟩ | ⟨window, hl, hstale, hw⟩ |
      ⟨window, hl, hfresh, hw⟩
    · simp [heq, hl, hw, hroom, hlength]
    · simp [heq, hl, hw, hstale, hroom]
    · simp [heq, hl, hw, Nat.not_le.mpr hfresh]
  · have hw : currentWindow map call = (0, call.now) := by
      simp [currentWindow, hl, Nat.not_lt.mpr hstale]
    simp [hnone, hw, hroom, hlength]

/-! ## What the map knows of an address -/

/-- What the map holds for an address with these windows: the newest one, unless it is over. -/
def Tracks (now : Nat) (windows : List Window) : Option (Nat × Nat) → Prop
  | none => ∀ win ∈ windows.head?, ipRateWindow ≤ now - win.opened
  | some entry => ∃ win older, windows = win :: older ∧
    entry = (min maxAuthAttemptsPerIp (win.later.length + 1), win.opened)

theorem Tracks.later {entry : Option (Nat × Nat)} (h : Tracks now windows entry) {later : Nat}
    (hle : now ≤ later) : Tracks later windows entry := by
  cases entry with
  | none => exact fun win hwin => Nat.le_trans (h win hwin) (Nat.sub_le_sub_right hle _)
  | some entry => exact h

theorem Tracks.evictStale {ip : IpAddr} (h : Tracks now windows (map.lookup ip)) :
    Tracks now windows ((evictStale now map).lookup ip) := by
  rcases lookup_evictStale now map ip with heq | ⟨hnone, count, opened, hl, hstale⟩
  · rw [heq]
    exact h
  · rw [hl] at h
    obtain ⟨win, older, rfl, hentry⟩ := h
    obtain rfl : opened = win.opened := congrArg Prod.snd hentry
    rw [hnone]
    exact fun _ hwin => Option.some.inj hwin ▸ hstale

/-- A call finds the count and the start of the window that its time falls into. -/
theorem Tracks.currentWindow (h : Tracks call.now windows (map.lookup call.ip)) :
    ∃ win older, addEvent ipRateWindow windows call.now = win :: older ∧
      currentWindow map call = (min maxAuthAttemptsPerIp win.later.length, win.opened) := by
  have hover {win : Window} {older : List Window} (hstale : ipRateWindow ≤ call.now - win.opened) :
      addEvent ipRateWindow (win :: older) call.now = ⟨call.now, []⟩ :: win :: older :=
    if_neg (Nat.not_lt.mpr hstale)
  rcases currentWindow_cases map call with ⟨hl, hw⟩ | ⟨window, hl, hstale, hw⟩ |
    ⟨window, hl, hfresh, hw⟩
  · rw [hl] at h
    cases windows with
    | nil => exact ⟨_, _, rfl, hw⟩
    | cons win older => exact ⟨_, _, hover (h win rfl), hw⟩
  · rw [hl] at h
    obtain ⟨win, older, rfl, rfl⟩ := h
    exact ⟨_, _, hover hstale, hw⟩
  · rw [hl] at h
    obtain ⟨win, older, rfl, rfl⟩ := h
    refine ⟨_, _, if_pos hfresh, ?_⟩
    rw [hw, List.length_append]
    rfl

variable {calls : List AuthAttempt}

theorem tracks_step {h : List AuthEntry} {ip : IpAddr}
    (htracks : Tracks call.now (windowsOf ipRateWindow (callTimes ip calls)) (map.lookup ip))
    (hallowed : h.filterMap (allowedAt ip) =
      admitted maxAuthAttemptsPerIp (windowsOf ipRateWindow (callTimes ip calls))) :
    Tracks call.now (windowsOf ipRateWindow (callTimes ip (calls ++ [call])))
        ((checkAndRecord map call).2.lookup ip) ∧
      (h ++ [stepEntry checkAndRecord map call]).filterMap (allowedAt ip) =
        admitted maxAuthAttemptsPerIp
          (windowsOf ipRateWindow (callTimes ip (calls ++ [call]))) := by
  have hstep : allowedAt ip (stepEntry checkAndRecord map call) =
      if call.ip = ip ∧ (checkAndRecord map call).1 = true then some call.now else none := rfl
  rw [filterMap_snoc, hstep, hallowed, checkAndRecord_eq, callTimes, filterMap_snoc, ← callTimes]
  by_cases hip : call.ip = ip
  · subst hip
    obtain ⟨win, older, hadd, hwindow⟩ := htracks.currentWindow
    have hblocks : Blocks map call ↔ maxAuthAttemptsPerIp ≤ win.later.length := by
      rw [Blocks, hwindow, le_min_iff]
      exact and_iff_right (Nat.le_refl _)
    rw [if_pos rfl, Option.toList_some, windowsOf_snoc, hadd, admitted_addEvent (by decide) hadd]
    by_cases hfull : maxAuthAttemptsPerIp ≤ win.later.length
    · rw [if_pos (hblocks.mpr hfull), hwindow, AList.lookup_insert, Nat.sub_eq_zero_of_le hfull]
      refine ⟨⟨win, older, rfl, ?_⟩, by simp⟩
      rw [Nat.min_eq_left hfull, Nat.min_eq_left (Nat.le_succ_of_le hfull)]
    · have hroom : win.later.length < maxAuthAttemptsPerIp := Nat.not_le.mp hfull
      rw [if_neg (mt hblocks.mp hfull), hwindow, AList.lookup_insert,
        List.take_of_length_le (Nat.sub_pos_of_lt hroom)]
      refine ⟨⟨win, older, rfl, ?_⟩, by simp⟩
      rw [Nat.min_eq_right (Nat.le_of_lt hroom), Nat.min_eq_right hroom]
  · simp only [hip, false_and, if_false, Option.toList_none, List.append_nil, and_true]
    split_ifs <;> simpa [AList.lookup_insert_ne (Ne.symm hip)] using htracks.evictStale

/-- In every run with a clock that does not go back, the map tracks the windows of every address,
and the calls allowed are the first ten of each. -/
theorem tracks_run (hclock : calls.Pairwise (·.now ≤ ·.now)) (ip : IpAddr) :
    (∀ now, (∀ c ∈ calls, c.now ≤ now) → Tracks now (windowsOf ipRateWindow (callTimes ip calls))
        ((endState checkAndRecord ∅ calls).lookup ip)) ∧
      (run checkAndRecord ∅ calls).filterMap (allowedAt ip) =
        admitted maxAuthAttemptsPerIp (windowsOf ipRateWindow (callTimes ip calls)) := by
  induction calls using List.reverseRecOn with
  | nil => exact ⟨fun _ _ win hwin => absurd hwin (by simp [callTimes, windowsOf]), rfl⟩
  | append_singleton calls call ih =>
    obtain ⟨hbefore, -, hlast⟩ := List.pairwise_append.mp hclock
    obtain ⟨htracks, hallowed⟩ := ih hbefore
    obtain ⟨htracks, hallowed⟩ :=
      tracks_step (htracks call.now fun c hc => hlast c hc call List.mem_cons_self) hallowed
    rw [run_snoc, endState_snoc]
    refine ⟨fun now hnow => htracks.later ?_, hallowed⟩
    exact hnow call (List.mem_append_right _ List.mem_cons_self)

theorem pairwise_callTimes (hclock : calls.Pairwise (·.now ≤ ·.now)) (ip : IpAddr) :
    (callTimes ip calls).Pairwise (· ≤ ·) := by
  refine hclock.filterMap _ fun c c' hle t ht t' ht' => ?_
  rw [Option.ite_none_right_eq_some] at ht ht'
  exact Option.some.inj ht.2 ▸ Option.some.inj ht'.2 ▸ hle

end RateLimitLemmas

open RateLimitLemmas

/-- In every run with a clock that does not go back, no 60 s hold more than ten allowed calls of an
address, exactly if for every address each of the windows that its calls open fits in with the one
before it. -/
theorem sliding_window_iff (calls : List AuthAttempt) (hclock : calls.Pairwise (·.now ≤ ·.now)) :
    (∀ ip a, (within ipRateWindow a
        ((run checkAndRecord ∅ calls).filterMap (allowedAt ip))).length ≤ maxAuthAttemptsPerIp) ↔
      ∀ ip, (windowsOf ipRateWindow (callTimes ip calls)).IsChain
        (Fits ipRateWindow maxAuthAttemptsPerIp) := by
  refine forall_congr' fun ip => ?_
  rw [(tracks_run hclock ip).2]
  exact within_admitted_le_iff (by decide) (by decide) (pairwise_callTimes hclock ip)

/-- Ten calls of one address at the start, and ten when their window is over. -/
def paced : List AuthAttempt :=
  List.replicate 10 ⟨.v4 (Bytes.fill 4 1), 0⟩ ++
    List.replicate 10 ⟨.v4 (Bytes.fill 4 1), 60 * 10 ^ 9⟩

/-- They stay within the limit: those of the second window no longer find the first. -/
theorem sliding_window_iff_paced :
    paced.Pairwise (·.now ≤ ·.now) ∧
      ∀ ip a, (within ipRateWindow a
        ((run checkAndRecord ∅ paced).filterMap (allowedAt ip))).length ≤ maxAuthAttemptsPerIp := by
  have hclock : paced.Pairwise (·.now ≤ ·.now) := by decide +kernel
  refine ⟨hclock, (sliding_window_iff paced hclock).mpr fun ip => ?_⟩
  by_cases hip : .v4 (Bytes.fill 4 1) = ip
  · subst hip
    have hwindows : windowsOf ipRateWindow (callTimes (.v4 (Bytes.fill 4 1)) paced) =
        [⟨60 * 10 ^ 9, List.replicate 9 (60 * 10 ^ 9)⟩, ⟨0, List.replicate 9 0⟩] := by
      decide +kernel
    rw [hwindows]
    refine List.isChain_cons_cons.mpr ⟨fun first t rest hsplit => ?_, .singleton _⟩
    change List.replicate 10 (60 * 10 ^ 9) = _ at hsplit
    have ht : t ∈ first ++ t :: rest := List.mem_append_right _ List.mem_cons_self
    have hlength := congrArg List.length hsplit
    rw [← hsplit] at ht
    rw [List.length_replicate, List.length_append, List.length_cons] at hlength
    have hnone : recent ipRateWindow (60 * 10 ^ 9)
      (Window.first maxAuthAttemptsPerIp ⟨0, List.replicate 9 0⟩) = [] := by decide +kernel
    rw [List.eq_of_mem_replicate ht, hnone, List.length_nil, Nat.zero_add, maxAuthAttemptsPerIp]
    omega
  · have hnone : callTimes ip paced = [] := by
      refine List.filterMap_eq_nil_iff.mpr fun call hcall => if_neg fun heq => hip ?_
      rw [paced, List.mem_append, List.mem_replicate, List.mem_replicate] at hcall
      rcases hcall with ⟨-, rfl⟩ | ⟨-, rfl⟩ <;> exact heq
    rw [hnone]
    exact .nil

/-- One call opens a window, nine come at its end and ten right after it. -/
def burst : List AuthAttempt :=
  ⟨.v4 (Bytes.fill 4 1), 0⟩ :: (List.replicate 9 ⟨.v4 (Bytes.fill 4 1), 59 * 10 ^ 9⟩ ++
    List.replicate 10 ⟨.v4 (Bytes.fill 4 1), 60 * 10 ^ 9⟩)

/-- All of them are allowed, 19 in the 60 s from the 59th on. -/
theorem burst_allowed :
    burst.Pairwise (·.now ≤ ·.now) ∧
      (within ipRateWindow (59 * 10 ^ 9)
        ((run checkAndRecord ∅ burst).filterMap (allowedAt (.v4 (Bytes.fill 4 1))))).length = 19 := by
  decide +kernel

/-! ## The size of the map -/

namespace RateLimitLemmas

variable {map : PerIpRateLimiter} {call : AuthAttempt}

theorem evictStale_of_fresh
    (h : ∀ ip entry, map.lookup ip = some entry → call.now - entry.2 < ipRateWindow) :
    evictStale call.now map = map := by
  rw [evictStale]
  split_ifs
  · exact HashMap.retain_eq_self fun ip entry hl => decide_eq_true (h ip entry hl)
  · rfl

theorem exists_checkAndRecord (map : PerIpRateLimiter) (call : AuthAttempt) :
    ∃ window, (checkAndRecord map call).2 = (evictStale call.now map).insert call.ip window := by
  rw [checkAndRecord_eq]
  split_ifs <;> exact ⟨_, rfl⟩

theorem size_evictStale_le (now : Nat) (map : PerIpRateLimiter) :
    HashMap.size (evictStale now map) ≤ HashMap.size map := by
  rw [evictStale]
  split_ifs
  · exact HashMap.size_retain_le _ _
  · rfl

theorem size_of_overflows (h : Overflows map call) :
    HashMap.size (checkAndRecord map call).2 = HashMap.size map + 1 := by
  obtain ⟨-, hfresh, hnew⟩ := h
  obtain ⟨window, hcall⟩ := exists_checkAndRecord map call
  rw [hcall, evictStale_of_fresh hfresh, HashMap.size_insert_of_fresh hnew]

theorem size_of_not_overflows (hle : HashMap.size map ≤ 1025) (h : ¬ Overflows map call) :
    HashMap.size (checkAndRecord map call).2 ≤ 1025 := by
  obtain ⟨window, hcall⟩ := exists_checkAndRecord map call
  rw [hcall]
  have hevicted := size_evictStale_le call.now map
  cases hl : (evictStale call.now map).lookup call.ip with
  | some entry =>
    rw [HashMap.size_insert_of_lookup hl]
    exact Nat.le_trans hevicted hle
  | none =>
    rw [HashMap.size_insert_of_fresh hl]
    refine Nat.succ_le_succ (Nat.not_lt.mp fun hbig => h ?_)
    -- nothing was evicted, so every entry is fresh and the address is new
    have hlarge : 1024 < HashMap.size map := Nat.lt_of_lt_of_le hbig hevicted
    have hretain : evictStale call.now map =
        HashMap.retain (fun _ entry => call.now - entry.2 < ipRateWindow) map := if_pos hlarge
    have hfresh : ∀ ip entry, map.lookup ip = some entry → call.now - entry.2 < ipRateWindow := by
      intro ip entry hentry
      rw [hretain] at hbig
      exact of_decide_eq_true
        (HashMap.retained_of_size_le (Nat.le_trans hle (Nat.succ_le_of_lt hbig)) hentry)
    rw [evictStale_of_fresh hfresh] at hl
    exact ⟨hlarge, hfresh, hl⟩

/-- From a map within the bound, a call leaves the bound exactly if it overflows the map. -/
theorem size_le_iff (h : HashMap.size map ≤ 1025) :
    HashMap.size (checkAndRecord map call).2 ≤ 1025 ↔ ¬ Overflows map call := by
  refine ⟨fun hle hover => ?_, size_of_not_overflows h⟩
  rw [size_of_overflows hover] at hle
  exact Nat.not_le.mpr hover.1 (Nat.le_of_succ_le_succ hle)

/-- The `k`-th of many addresses calls at the start. -/
def flood (k : Nat) : AuthAttempt := ⟨.v4 (Bytes.ofNat 4 k), 0⟩

/-- The map after the first `n` of them. -/
structure Flooded (n : Nat) (map : PerIpRateLimiter) : Prop where
  size : HashMap.size map = n
  fresh : ∀ k, n ≤ k → k < 256 ^ 4 → map.lookup (flood k).ip = none

theorem flooded_step {n : Nat} (h : Flooded n map) (hn : n < 256 ^ 4) :
    Flooded (n + 1) (checkAndRecord map (flood n)).2 := by
  have hkept : evictStale (flood n).now map = map :=
    evictStale_of_fresh fun _ entry _ => Nat.lt_of_le_of_lt (Nat.sub_le 0 entry.2) (by decide)
  obtain ⟨window, hcall⟩ := exists_checkAndRecord map (flood n)
  rw [hcall, hkept]
  refine ⟨?_, fun k hk hlt => ?_⟩
  · rw [HashMap.size_insert_of_fresh (h.fresh n (Nat.le_refl n) hn), h.size]
  · have hne : (flood k).ip ≠ (flood n).ip := fun heq =>
      Nat.ne_of_gt hk (Bytes.ofNat_injective hlt hn (IpAddr.v4.inj heq))
    rw [AList.lookup_insert_ne hne]
    exact h.fresh k (Nat.le_of_succ_le hk) hlt

theorem flooded_run (n : Nat) (hn : n ≤ 256 ^ 4) :
    Flooded n (endState checkAndRecord ∅ ((List.range n).map flood)) :=
  endState_range ⟨rfl, fun _ _ _ => rfl⟩ n fun _ hk _ h => flooded_step h (Nat.lt_of_lt_of_le hk hn)

end RateLimitLemmas

/-- In every run the map stays within 1025 entries, exactly if no call for a new address comes while
it holds more than 1024 addresses that are all fresh. -/
theorem attempts_bounded_iff (calls : List AuthAttempt) :
    (∀ e ∈ run checkAndRecord ∅ calls, HashMap.size e.post ≤ 1025) ↔
      ∀ e ∈ run checkAndRecord ∅ calls, ¬ Overflows e.pre e.input :=
  @run_safe_iff _ _ _ checkAndRecord (HashMap.size · ≤ 1025) (HashMap.size · ≤ 1025)
    (fun map call => ¬ Overflows map call) ∅ (Nat.zero_le _) (fun _ _ h => size_le_iff h)
    (fun _ _ _ h => h) calls

/-- 1026 addresses that call at the same time are all in the map. -/
theorem flood_exceeds_bound :
    ((List.range 1026).map flood).Pairwise (·.now ≤ ·.now) ∧
      HashMap.size (endState checkAndRecord ∅ ((List.range 1026).map flood)) = 1026 :=
  ⟨List.pairwise_map.mpr (List.pairwise_of_forall fun _ _ => Nat.le_refl _),
    (flooded_run 1026 (by decide)).size⟩

end Blackwing.Server
