import Blackwing.Relay.Lifecycle

/-!
# Failed lookups

A packet with an unknown token is counted for its source address
(`record_failed_lookup`): in the window that began with the first such packet, or in a
new window once that one has lasted `BLOCKLIST_WINDOW_MS`. At `MAX_BLOCKLIST_ENTRIES`
addresses the entries whose window is over are evicted, and then the packet is counted
all the same.

* `recordFailedLookup_cases`, `failedLookups_cases`: what a call does to the counts.
* `failureWindow`: the window of an address as its history of packets gives it, and
  `tracked_run`: the table keeps it until it is over.
* `blocklist_persists`: no traffic of other addresses and no eviction ends a block early.
* `failed_lookups_bounded_iff`: the table outgrows its limit when a packet from a new address
  comes while every window still runs.
-/

namespace Blackwing.Relay

open ForwardingTable

/-! ## Windows -/

/-- The window that began at `start` is over. -/
def WindowOver (start now : UInt64) : Prop := start.toNat + blocklistWindowMs.toNat < now.toNat

instance (start now : UInt64) : Decidable (WindowOver start now) :=
  inferInstanceAs (Decidable (_ < _))

/-- The failed lookups after the eviction that `record_failed_lookup` makes at capacity. -/
def relieved (now : UInt64) (failed : HashMap IpAddr (UInt64 × UInt64)) :
    HashMap IpAddr (UInt64 × UInt64) :=
  if HashMap.size failed ≥ maxBlocklistEntries then
    HashMap.retain (fun _ e => saturatingSub now e.2 ≤ blocklistWindowMs) failed
  else failed

/-- The time of the call, when it is a packet from `ip` with an unknown token. -/
def unknownToken (ip : IpAddr) (e : ForwardingEntry) : Option UInt64 :=
  match e.input with
  | .getDestination env token source _ =>
    if source.ip = ip ∧ e.pre.tokenIndex.lookup token = none then some (env.clock 0) else none
  | _ => none

/-- One more unknown token: in the running window, or as the first of a new one. -/
def extendWindow : Option (Nat × UInt64) → UInt64 → Option (Nat × UInt64)
  | none, now => some (1, now)
  | some (n, start), now => if WindowOver start now then some (1, now) else some (n + 1, start)

/-- The number of unknown tokens from `ip` in its last window, and the beginning of the window. -/
def failureWindow (ip : IpAddr) (h : List ForwardingEntry) : Option (Nat × UInt64) :=
  (h.filterMap (unknownToken ip)).foldl extendWindow none

namespace BlocklistLemmas

open ForwardingLemmas LifecycleLemmas

variable {t : ForwardingTable} {op : ForwardingOp} {ip source : IpAddr} {now : UInt64}
  {failed : HashMap IpAddr (UInt64 × UInt64)}

variable {start : UInt64}

theorem windowOver_iff : saturatingSub now start > blocklistWindowMs ↔ WindowOver start now := by
  rw [gt_iff_lt, UInt64.lt_iff_toNat_lt, toNat_saturatingSub, Nat.lt_sub_iff_add_lt, WindowOver,
    Nat.add_comm]

theorem window_runs_iff : saturatingSub now start ≤ blocklistWindowMs ↔ ¬ WindowOver start now := by
  rw [← windowOver_iff, UInt64.not_lt]

theorem windowOver_mono {later : UInt64} (hle : now ≤ later) (h : WindowOver start now) :
    WindowOver start later :=
  Nat.lt_of_lt_of_le h (UInt64.le_iff_toNat_le.mp hle)

/-! ## One packet -/

/-- The packet opens a window or is counted in the running one. -/
theorem recordFailedLookup_cases (ip : IpAddr) (now : UInt64)
    (failed : HashMap IpAddr (UInt64 × UInt64)) :
    ((∀ e, (relieved now failed).lookup ip = some e → WindowOver e.2 now) ∧
      recordFailedLookup ip now failed = (.ok (), (relieved now failed).insert ip (1, now))) ∨
    ∃ count start, (relieved now failed).lookup ip = some (count, start) ∧ ¬ WindowOver start now ∧
      ((∃ next : UInt64, next.toNat = count.toNat + 1 ∧
          recordFailedLookup ip now failed =
            (.ok (), (relieved now failed).insert ip (next, start))) ∨
        (2 ^ 64 ≤ count.toNat + 1 ∧
          recordFailedLookup ip now failed = (.panicked, relieved now failed))) := by
  rw [recordFailedLookup, Call.update_bind, Call.getState_bind, ← relieved]
  cases hl : (relieved now failed).lookup ip with
  | none =>
    have hself : ¬ saturatingSub now now > blocklistWindowMs := by
      simp [windowOver_iff, WindowOver]
    left
    simp [hself, Outcome.add64]
  | some e =>
    obtain ⟨count, start⟩ := e
    simp only [Option.getD_some, windowOver_iff]
    split
    · next hover => exact Or.inl ⟨fun e he => by cases he; exact hover, rfl⟩
    · next hruns =>
      refine Or.inr ⟨count, start, rfl, hruns, ?_⟩
      rcases Outcome.add64_cases count 1 with ⟨next, hnext, hadd⟩ | ⟨hbig, hadd⟩
      · exact Or.inl ⟨next, hnext, by rw [hadd]; rfl⟩
      · exact Or.inr ⟨hbig, by rw [hadd]; rfl⟩

theorem lookup_relieved {e : UInt64 × UInt64} (hl : (relieved now failed).lookup ip = some e) :
    failed.lookup ip = some e := by
  unfold relieved at hl
  split at hl
  · rw [HashMap.lookup_retain] at hl
    exact (Option.filter_eq_some_iff.mp hl).1
  · exact hl

theorem lookup_relieved_none (hl : (relieved now failed).lookup ip = none) :
    ∀ e, failed.lookup ip = some e → WindowOver e.2 now := by
  intro e he
  unfold relieved at hl
  split at hl
  · rw [HashMap.lookup_retain, he] at hl
    simpa [Option.filter, window_runs_iff] using hl
  · rw [he] at hl
    cases hl

/-- A packet from one address is counted for no other. -/
theorem lookup_record_of_ne (hne : ip ≠ source) :
    (recordFailedLookup source now failed).2.lookup ip = (relieved now failed).lookup ip := by
  rcases recordFailedLookup_cases source now failed with
    ⟨-, h⟩ | ⟨_, _, -, -, ⟨_, -, h⟩ | ⟨-, h⟩⟩
  · rw [h, AList.lookup_insert_ne hne]
  · rw [h, AList.lookup_insert_ne hne]
  · rw [h]

theorem onContext_failedLookups {ε α : Type} (intentId : IntentId) (missing : ε)
    (x : Call ForwardingContext ε α) (t : ForwardingTable) :
    (onContext intentId missing x t).2.failedLookups = t.failedLookups := by
  unfold onContext
  cases t.contexts.lookup intentId <;> rfl

theorem removeAll_failedLookups (ids : List IntentId) (t : ForwardingTable) :
    (removeAll ids t).failedLookups = t.failedLookups := by
  induction ids generalizing t with
  | nil => rfl
  | cons id ids ih =>
    rw [removeAll]
    cases t.contexts.lookup id with
    | none => exact ih t
    | some ctx => exact ih _

/-- A call counts a packet with an unknown token, drops it from a blocked address, or is no such
packet. -/
theorem failedLookups_cases (t : ForwardingTable) (op : ForwardingOp) :
    ((∀ ip, unknownToken ip (stepEntry forwardingStep t op) = none) ∧
      (forwardingStep t op).2.failedLookups = t.failedLookups) ∨
    ∃ env token source packetLen, op = .getDestination env token source packetLen ∧
      t.tokenIndex.lookup token = none ∧
      ((t.isBlocklisted source.ip (env.clock 1) = true ∧
          (forwardingStep t op).2.failedLookups = t.failedLookups) ∨
        (t.isBlocklisted source.ip (env.clock 1) = false ∧
          (forwardingStep t op).2.failedLookups =
            (recordFailedLookup source.ip (env.clock 0) t.failedLookups).2)) := by
  cases op with
  | authorizePair now intentId token initiatorId targetId =>
    refine Or.inl ⟨fun _ => rfl, ?_⟩
    rcases authorizePair_cases now intentId token initiatorId targetId t with ⟨-, h⟩ | ⟨_, -, h⟩ <;>
      simp [forwardingStep, h]
  | updateBinding now intentId deviceId addr =>
    exact Or.inl ⟨fun _ => rfl, onContext_failedLookups _ _ _ t⟩
  | close intentId => exact Or.inl ⟨fun _ => rfl, onContext_failedLookups _ _ _ t⟩
  | sweep now => exact Or.inl ⟨fun _ => rfl, removeAll_failedLookups _ _⟩
  | getDestination env token source packetLen =>
    cases hindex : t.tokenIndex.lookup token with
    | some intentId =>
      refine Or.inl ⟨fun ip => by simp [unknownToken, stepEntry, hindex], ?_⟩
      simp only [forwardingStep, getDestination, Call.getState_bind, Call.rejectIf_bind, hindex]
      split
      · rfl
      · exact onContext_failedLookups _ _ _ t
    | none =>
      refine Or.inr ⟨env, token, source, packetLen, rfl, hindex, ?_⟩
      simp only [forwardingStep, getDestination, Call.getState_bind, Call.rejectIf_bind, hindex]
      cases hblocked : t.isBlocklisted source.ip (env.clock 1) with
      | true => exact Or.inl ⟨rfl, rfl⟩
      | false =>
        refine Or.inr ⟨rfl, ?_⟩
        rw [if_neg Bool.false_ne_true, Call.bind_apply, Call.onPart]
        rcases recordFailedLookup source.ip (env.clock 0) t.failedLookups with ⟨_ | _ | _, _⟩ <;> rfl

/-! ## Whole runs -/

/-- What the table holds for a window of unknown tokens, when the clock was read at `readings`: the
count of the window, exact until it blocks the address, or nothing once the window is over. -/
inductive Tracked (readings : List UInt64) : Option (Nat × UInt64) → Option (UInt64 × UInt64) → Prop
  | unseen : Tracked readings none none
  | counted (n : Nat) (start count : UInt64)
      (hcount : count.toNat = n ∨ blocklistThreshold ≤ count ∧ blocklistThreshold.toNat ≤ n) :
      Tracked readings (some (n, start)) (some (count, start))
  | evicted (n : Nat) (start r : UInt64) (hr : r ∈ readings) (hover : WindowOver start r) :
      Tracked readings (some (n, start)) none

variable {readings readings' : List UInt64} {window : Option (Nat × UInt64)}
  {entry : Option (UInt64 × UInt64)}

theorem tracked_mono (hsub : readings ⊆ readings') (h : Tracked readings window entry) :
    Tracked readings' window entry := by
  cases h with
  | unseen => exact .unseen
  | counted n start count hcount => exact .counted n start count hcount
  | evicted n start r hr hover => exact .evicted n start r (hsub hr) hover

section

variable (h : Tracked readings window (failed.lookup ip)) (hnow : now ∈ readings)
include h hnow

/-- The eviction at capacity drops a window only when it is over. -/
theorem tracked_relieved :
    Tracked readings window ((relieved now failed).lookup ip) := by
  cases hl : (relieved now failed).lookup ip with
  | some e => rwa [lookup_relieved hl] at h
  | none =>
    have hover := lookup_relieved_none hl
    revert h hover
    cases failed.lookup ip with
    | none => exact fun h _ => h
    | some e =>
      intro h hover
      cases h with
      | counted n start count _ => exact .evicted n start now hnow (hover _ rfl)

/-- Counting an unknown token extends the window. -/
theorem tracked_record (hlast : ∀ r ∈ readings, r ≤ now) :
    Tracked readings (extendWindow window now) ((recordFailedLookup ip now failed).2.lookup ip) := by
  have hrel := tracked_relieved h hnow
  have hone : Tracked readings (some (1, now)) (some (1, now)) := .counted 1 now 1 (Or.inl rfl)
  rcases recordFailedLookup_cases ip now failed with
    ⟨hfirst, hcall⟩ | ⟨count, start, hl, hruns, hcall⟩
  · -- a new window: there was none, or it was over, or it was evicted as over
    rw [hcall, AList.lookup_insert]
    revert hrel hfirst
    cases (relieved now failed).lookup ip with
    | none =>
      intro hrel hfirst
      cases hrel with
      | unseen => exact hone
      | evicted n start r hr hover =>
        rw [extendWindow, if_pos (windowOver_mono (hlast r hr) hover)]
        exact hone
    | some e =>
      intro hrel hfirst
      cases hrel with
      | counted n start count _ =>
        rw [extendWindow, if_pos (hfirst _ rfl)]
        exact hone
  · rw [hl] at hrel
    cases hrel with
    | counted n _ _ hcount =>
      rw [extendWindow, if_neg hruns]
      rcases hcall with ⟨next, hnext, hcall⟩ | ⟨hbig, hcall⟩
      · rw [hcall, AList.lookup_insert]
        refine .counted (n + 1) start next ?_
        rw [UInt64.le_iff_toNat_le] at hcount ⊢
        omega
      · rw [hcall, hl]
        refine .counted (n + 1) start count (Or.inr ?_)
        rw [UInt64.le_iff_toNat_le] at hcount ⊢
        have hthreshold : blocklistThreshold.toNat = 20 := rfl
        omega

end

theorem isBlocklisted_eq_true {t : ForwardingTable} :
    t.isBlocklisted ip now = true ↔ ∃ count start, t.failedLookups.lookup ip = some (count, start) ∧
      blocklistThreshold ≤ count ∧ ¬ WindowOver start now := by
  unfold isBlocklisted
  cases t.failedLookups.lookup ip with
  | none => simp
  | some e =>
    obtain ⟨count, start⟩ := e
    simp [window_runs_iff]

/-- A blocked packet does not change its window either: it comes while the window runs. -/
theorem tracked_blocked {later : UInt64} (h : Tracked readings window (t.failedLookups.lookup ip))
    (hblocked : t.isBlocklisted ip later = true) (hle : now ≤ later) :
    Tracked readings (extendWindow window now) (t.failedLookups.lookup ip) := by
  obtain ⟨count, start, hl, hthreshold, hruns⟩ := isBlocklisted_eq_true.mp hblocked
  rw [hl] at h ⊢
  cases h with
  | counted n _ _ hcount =>
    rw [extendWindow, if_neg fun hover => hruns (windowOver_mono hle hover)]
    refine .counted (n + 1) start count (Or.inr ⟨hthreshold, ?_⟩)
    rw [UInt64.le_iff_toNat_le] at hthreshold
    omega

theorem failureWindow_snoc (ip : IpAddr) (h : List ForwardingEntry) (e : ForwardingEntry) :
    failureWindow ip (h ++ [e]) =
      (unknownToken ip e).elim (failureWindow ip h) (extendWindow (failureWindow ip h)) := by
  rw [failureWindow, filterMap_snoc, List.foldl_append]
  cases unknownToken ip e with
  | none => rfl
  | some now => rfl

/-- The readings of the clock in a history. -/
def readingsOf (h : List ForwardingEntry) : List UInt64 :=
  (h.map Entry.input).flatMap ForwardingOp.readings

theorem readingsOf_snoc (h : List ForwardingEntry) (e : ForwardingEntry) :
    readingsOf (h ++ [e]) = readingsOf h ++ e.input.readings := by
  simp [readingsOf]

theorem readings_pairwise {h : List ForwardingEntry} {e : ForwardingEntry}
    (hclock : ClockMonotone ((h ++ [e]).map Entry.input)) :
    (readingsOf h ++ e.input.readings).Pairwise (· ≤ ·) := by
  rw [← readingsOf_snoc]
  exact hclock

/-- The table keeps what the history of an address says. -/
def TracksTable (ip : IpAddr) (h : List ForwardingEntry) (t : ForwardingTable) : Prop :=
  Tracked (readingsOf h) (failureWindow ip h) (t.failedLookups.lookup ip)

theorem tracked_step {h : List ForwardingEntry} (htracks : TracksTable ip h t)
    (hclock : ClockMonotone ((h ++ [stepEntry forwardingStep t op]).map Entry.input)) :
    TracksTable ip (h ++ [stepEntry forwardingStep t op]) (forwardingStep t op).2 := by
  have hkept : Tracked (readingsOf (h ++ [stepEntry forwardingStep t op])) (failureWindow ip h)
      (t.failedLookups.lookup ip) :=
    tracked_mono (by simp [readingsOf_snoc]) htracks
  unfold TracksTable
  rw [failureWindow_snoc]
  rcases failedLookups_cases t op with
    ⟨hother, hfailed⟩ | ⟨env, token, source, packetLen, rfl, hindex, hcase⟩
  · rw [hother ip, hfailed]
    exact hkept
  · have hunknown : unknownToken ip
        (stepEntry forwardingStep t (.getDestination env token source packetLen)) =
          if source.ip = ip then some (env.clock 0) else none := by
      simp [unknownToken, stepEntry, hindex]
    rw [hunknown]
    split
    · next hip =>
      subst hip
      have hsub : readingsOf h ++ [env.clock 0] ⊆ readingsOf
          (h ++ [stepEntry forwardingStep t (.getDestination env token source packetLen)]) := by
        simp [readingsOf_snoc, stepEntry, ForwardingOp.readings]
      obtain ⟨-, hcall, hbetween⟩ := List.pairwise_append.mp (readings_pairwise hclock)
      rcases hcase with ⟨hblocked, hfailed⟩ | ⟨-, hfailed⟩
      · rw [hfailed]
        exact tracked_blocked hkept hblocked (List.rel_of_pairwise_cons hcall List.mem_cons_self)
      · rw [hfailed]
        refine tracked_mono hsub (tracked_record (tracked_mono (by simp) htracks) (by simp) ?_)
        intro r hr
        rcases List.mem_append.mp hr with hr | hr
        · exact hbetween r hr _ List.mem_cons_self
        · exact UInt64.le_of_eq (List.mem_singleton.mp hr)
    · next hip =>
      rcases hcase with ⟨-, hfailed⟩ | ⟨-, hfailed⟩
      · rw [hfailed]
        exact hkept
      · rw [hfailed, lookup_record_of_ne fun h => hip h.symm]
        refine tracked_relieved hkept ?_
        simp [readingsOf_snoc, stepEntry, ForwardingOp.readings]

/-- Along every run whose clock never goes back, the table keeps the window of every address. -/
theorem tracked_run (rateLimit expiry : UInt64) (ip : IpAddr) {ops : List ForwardingOp}
    (hclock : ClockMonotone ops) :
    TracksTable ip (run forwardingStep (withLimits rateLimit expiry) ops)
      (endState forwardingStep (withLimits rateLimit expiry) ops) := by
  have hrun := @run_induction _ _ _ forwardingStep
    (fun h t => ClockMonotone (h.map Entry.input) → TracksTable ip h t)
    (withLimits rateLimit expiry) (fun _ => .unseen)
    (fun h t op ih hclock => tracked_step (ih (clockMonotone_of_snoc hclock)) hclock) ops
  rw [map_input_run] at hrun
  exact hrun hclock

/-- While its window runs, unknown tokens only add to the count. -/
theorem extend_running {n : Nat} {times : List UInt64}
    (hruns : ∀ time ∈ times, ¬ WindowOver start time) :
    ∃ n', n ≤ n' ∧ times.foldl extendWindow (some (n, start)) = some (n', start) := by
  induction times generalizing n with
  | nil => exact ⟨n, Nat.le_refl n, rfl⟩
  | cons time times ih =>
    obtain ⟨n', hn', hfold⟩ := @ih (n + 1) fun later hlater => hruns later (.tail _ hlater)
    refine ⟨n', Nat.le_of_succ_le hn', ?_⟩
    rw [List.foldl_cons, extendWindow, if_neg (hruns time List.mem_cons_self), hfold]

theorem unknownToken_reading {e : ForwardingEntry} {time : UInt64}
    (h : unknownToken ip e = some time) : time ∈ e.input.readings := by
  unfold unknownToken at h
  split at h
  · next hinput =>
    rw [hinput]
    split at h
    · cases h
      exact List.mem_cons_self
    · cases h
  · cases h

end BlocklistLemmas

open BlocklistLemmas LifecycleLemmas

/-- Once a window has seen `BLOCKLIST_THRESHOLD` unknown tokens from an address, every packet from
that address is dropped without a trace until the window is over, whatever happens in between. -/
theorem blocklist_persists (rateLimit expiry : UInt64) {before between : List ForwardingOp}
    {env : Env} {token : RelayToken} {source : SocketAddr} {packetLen : UInt64} {n : Nat} {w : UInt64}
    (hclock : ClockMonotone (before ++ between ++ [.getDestination env token source packetLen]))
    (hwindow : failureWindow source.ip
      (run forwardingStep (withLimits rateLimit expiry) before) = some (n, w)) (hn : 20 ≤ n)
    (htime : (env.clock 1).toNat ≤ w.toNat + 60000) :
    getDestination env token source packetLen
        (endState forwardingStep (withLimits rateLimit expiry) (before ++ between)) =
      (.err (), endState forwardingStep (withLimits rateLimit expiry) (before ++ between)) := by
  have hruns : ¬ WindowOver w (env.clock 1) := Nat.not_lt.mpr htime
  have hearlier : ∀ r ∈ (before ++ between).flatMap ForwardingOp.readings, ¬ WindowOver w r := by
    intro r hr hover
    refine hruns (windowOver_mono (reading_le hclock hr ?_) hover)
    simp [ForwardingOp.readings]
  -- the packets in between come in the same window
  obtain ⟨n', hn', hwindow'⟩ : ∃ n', n ≤ n' ∧ failureWindow source.ip
      (run forwardingStep (withLimits rateLimit expiry) (before ++ between)) = some (n', w) := by
    rw [run_append, failureWindow, List.filterMap_append, List.foldl_append, ← failureWindow, hwindow]
    refine extend_running fun time htime => hearlier time ?_
    obtain ⟨e, he, hunknown⟩ := List.mem_filterMap.mp htime
    rw [List.flatMap_append, List.mem_append]
    exact Or.inr (List.mem_flatMap.mpr ⟨_, input_mem_of_mem_run he, unknownToken_reading hunknown⟩)
  have htracks := tracked_run rateLimit expiry source.ip (clockMonotone_of_append hclock)
  rw [TracksTable, readingsOf, map_input_run, hwindow'] at htracks
  have hblocked : (endState forwardingStep (withLimits rateLimit expiry)
      (before ++ between)).isBlocklisted source.ip (env.clock 1) = true := by
    rw [isBlocklisted_eq_true]
    generalize (endState forwardingStep (withLimits rateLimit expiry)
      (before ++ between)).failedLookups.lookup source.ip = entry at htracks ⊢
    cases htracks with
    | counted _ _ count hcount =>
      refine ⟨count, w, rfl, ?_, hruns⟩
      rw [UInt64.le_iff_toNat_le] at hcount ⊢
      have hthreshold : blocklistThreshold.toNat = 20 := rfl
      omega
    | evicted _ _ r hr hover => exact absurd hover (hearlier r hr)
  rw [getDestination, Call.getState_bind, Call.rejectIf_bind, if_pos hblocked]

/-- A probe with an unknown token, from one of the ports of a host. -/
def probe (host port : Nat) (now : UInt64) : ForwardingOp :=
  .getDestination (.at now none) (Bytes.fill 32 7) (.v4 (Bytes.ofNat 4 host) (UInt16.ofNat port)) 0

theorem blocklist_persists_after_twenty_probes :
    getDestination (.at 60005 none) (Bytes.fill 32 1) (.v4 (Bytes.ofNat 4 9) 443) 100
        (endState forwardingStep (withLimits rateLimitBytesPerSec sessionExpiryMs)
          (.authorizePair 1 (Bytes.fill 16 1) (Bytes.fill 32 1) (Bytes.fill 32 2) (Bytes.fill 32 3) ::
            List.replicate 20 (probe 9 80 5) ++ [probe 8 80 6, .sweep 60005])) =
      (.err (), endState forwardingStep (withLimits rateLimitBytesPerSec sessionExpiryMs)
          (.authorizePair 1 (Bytes.fill 16 1) (Bytes.fill 32 1) (Bytes.fill 32 2) (Bytes.fill 32 3) ::
            List.replicate 20 (probe 9 80 5) ++ [probe 8 80 6, .sweep 60005])) :=
  blocklist_persists (n := 20) (w := 5) rateLimitBytesPerSec sessionExpiryMs (by decide +kernel)
    (by decide +kernel) (by decide) (by decide)

/-! ## The size of the table -/

/-- A packet with an unknown token comes from an address without an entry, at capacity and while
every window still runs. -/
def Overfills (t : ForwardingTable) : ForwardingOp → Prop
  | .getDestination env token source _ =>
    t.tokenIndex.lookup token = none ∧ t.failedLookups.lookup source.ip = none ∧
      maxBlocklistEntries ≤ HashMap.size t.failedLookups ∧
      ∀ ip entry, t.failedLookups.lookup ip = some entry → ¬ WindowOver entry.2 (env.clock 0)
  | _ => False

namespace BlocklistLemmas

variable {failed : HashMap IpAddr (UInt64 × UInt64)} {ip : IpAddr} {now : UInt64}

theorem relieved_of_running (h : ∀ ip entry, failed.lookup ip = some entry → ¬ WindowOver entry.2 now) :
    relieved now failed = failed := by
  unfold relieved
  split
  · exact HashMap.retain_eq_self fun ip entry hl => decide_eq_true (window_runs_iff.mpr (h ip entry hl))
  · rfl

theorem size_record_le (ip : IpAddr) (now : UInt64) (failed : HashMap IpAddr (UInt64 × UInt64)) :
    HashMap.size (recordFailedLookup ip now failed).2 ≤ HashMap.size (relieved now failed) + 1 := by
  rcases recordFailedLookup_cases ip now failed with ⟨-, h⟩ | ⟨_, _, -, -, ⟨_, -, h⟩ | ⟨-, h⟩⟩
  · rw [h]
    exact HashMap.size_insert_le _ _ _
  · rw [h]
    exact HashMap.size_insert_le _ _ _
  · rw [h]
    exact Nat.le_succ _

theorem size_record_of_lookup {entry : UInt64 × UInt64}
    (hl : (relieved now failed).lookup ip = some entry) :
    HashMap.size (recordFailedLookup ip now failed).2 = HashMap.size (relieved now failed) := by
  rcases recordFailedLookup_cases ip now failed with ⟨-, h⟩ | ⟨_, _, -, -, ⟨_, -, h⟩ | ⟨-, h⟩⟩
  · rw [h, HashMap.size_insert_of_lookup hl]
  · rw [h, HashMap.size_insert_of_lookup hl]
  · rw [h]

/-- A first unknown token while every window runs: one entry more. -/
theorem record_of_fresh (hl : failed.lookup ip = none)
    (hruns : ∀ ip entry, failed.lookup ip = some entry → ¬ WindowOver entry.2 now) :
    recordFailedLookup ip now failed = (.ok (), failed.insert ip (1, now)) := by
  rcases recordFailedLookup_cases ip now failed with ⟨-, h⟩ | ⟨_, _, hl', -, -⟩
  · rw [h, relieved_of_running hruns]
  · rw [relieved_of_running hruns, hl] at hl'
    cases hl'

theorem size_record_le_iff (hsize : HashMap.size failed ≤ maxBlocklistEntries) :
    HashMap.size (recordFailedLookup ip now failed).2 ≤ maxBlocklistEntries ↔
      ¬ (failed.lookup ip = none ∧ maxBlocklistEntries ≤ HashMap.size failed ∧
        ∀ ip entry, failed.lookup ip = some entry → ¬ WindowOver entry.2 now) := by
  constructor
  · rintro hle ⟨hl, hfull, hruns⟩
    rw [record_of_fresh hl hruns, HashMap.size_insert_of_fresh hl] at hle
    exact absurd hfull (Nat.not_le.mpr hle)
  · intro hnot
    have hle := size_record_le ip now failed
    rcases Nat.lt_or_ge (HashMap.size failed) maxBlocklistEntries with hroom | hfull
    · rw [relieved, if_neg (Nat.not_le.mpr hroom)] at hle
      exact Nat.le_trans hle hroom
    by_cases hruns : ∀ ip entry, failed.lookup ip = some entry → ¬ WindowOver entry.2 now
    · obtain ⟨entry, hl⟩ := Option.ne_none_iff_exists'.mp fun hl => hnot ⟨hl, hfull, hruns⟩
      rw [← relieved_of_running hruns] at hl
      rw [size_record_of_lookup hl, relieved_of_running hruns]
      exact hsize
    · -- at least one entry is evicted to make room
      push Not at hruns
      obtain ⟨old, entry, hl, hover⟩ := hruns
      have hlt : HashMap.size (relieved now failed) < HashMap.size failed := by
        rw [relieved, if_pos hfull]
        exact HashMap.size_retain_lt hl (decide_eq_false fun h => window_runs_iff.mp h hover)
      exact Nat.le_trans hle (Nat.le_trans hlt hsize)

theorem bounded_step_iff (t : ForwardingTable) (op : ForwardingOp)
    (hsize : HashMap.size t.failedLookups ≤ maxBlocklistEntries) :
    HashMap.size (forwardingStep t op).2.failedLookups ≤ maxBlocklistEntries ↔ ¬ Overfills t op := by
  rcases failedLookups_cases t op with
    ⟨hother, hfailed⟩ | ⟨env, token, source, packetLen, rfl, hindex, ⟨hblocked, hfailed⟩ | ⟨-, hfailed⟩⟩
  · rw [hfailed]
    refine iff_of_true hsize fun hover => ?_
    cases op with
    | getDestination env token source packetLen =>
      have hnone := hother source.ip
      simp [unknownToken, stepEntry, hover.1] at hnone
    | _ => exact hover
  · rw [hfailed]
    refine iff_of_true hsize fun hover => ?_
    obtain ⟨count, start, hl, -⟩ := isBlocklisted_eq_true.mp hblocked
    rw [hover.2.1] at hl
    cases hl
  · rw [hfailed, size_record_le_iff hsize]
    exact not_congr (and_iff_right hindex).symm

theorem getDestination_of_unknown {t : ForwardingTable} {env : Env} {token : RelayToken}
    {source : SocketAddr} {packetLen : UInt64} {counted : HashMap IpAddr (UInt64 × UInt64)}
    (hindex : t.tokenIndex.lookup token = none)
    (hopen : t.isBlocklisted source.ip (env.clock 1) = false)
    (hrecord : recordFailedLookup source.ip (env.clock 0) t.failedLookups = (.ok (), counted)) :
    getDestination env token source packetLen t = (.err (), { t with failedLookups := counted }) := by
  rw [getDestination, Call.getState_bind, Call.rejectIf_bind, if_neg (Bool.eq_false_iff.mp hopen),
    hindex]
  exact Call.bind_of_ok (Call.onPart_of_ok hrecord) _

/-- The table after probes from `n` hosts at one time. -/
structure Flooded (n : Nat) (t : ForwardingTable) : Prop where
  size : HashMap.size t.failedLookups = n
  fresh : ∀ k, n ≤ k → k < 256 ^ 4 → t.failedLookups.lookup (.v4 (Bytes.ofNat 4 k)) = none
  running : ∀ ip entry, t.failedLookups.lookup ip = some entry → ¬ WindowOver entry.2 0
  unknown : ∀ token, t.tokenIndex.lookup token = none

theorem flooded_step {n : Nat} {t : ForwardingTable} (h : Flooded n t) (hn : n < 256 ^ 4) :
    Flooded (n + 1) (forwardingStep t (probe n 0 0)).2 := by
  have hfresh := h.fresh n (Nat.le_refl n) hn
  have hopen : t.isBlocklisted (.v4 (Bytes.ofNat 4 n)) 0 = false := by
    simp [isBlocklisted, hfresh]
  have hcall : getDestination (.at 0 none) (Bytes.fill 32 7) (.v4 (Bytes.ofNat 4 n) 0) 0 t =
      (.err (), { t with failedLookups := t.failedLookups.insert (.v4 (Bytes.ofNat 4 n)) (1, 0) }) :=
    getDestination_of_unknown (h.unknown _) hopen (record_of_fresh hfresh h.running)
  have hnext : (forwardingStep t (probe n 0 0)).2 =
      { t with failedLookups := t.failedLookups.insert (.v4 (Bytes.ofNat 4 n)) (1, 0) } :=
    congrArg Prod.snd hcall
  rw [hnext]
  refine ⟨?_, fun k hk hlt => ?_, fun ip entry hl => ?_, h.unknown⟩
  · rw [HashMap.size_insert_of_fresh hfresh, h.size]
  · have hne : IpAddr.v4 (Bytes.ofNat 4 k) ≠ .v4 (Bytes.ofNat 4 n) := fun heq =>
      Nat.ne_of_gt hk (Bytes.ofNat_injective hlt hn (IpAddr.v4.inj heq))
    rw [AList.lookup_insert_ne hne]
    exact h.fresh k (Nat.le_of_succ_le hk) hlt
  · rw [HashMap.lookup_insert_eq] at hl
    split at hl
    · cases hl
      simp [WindowOver]
    · exact h.running ip entry hl

end BlocklistLemmas

/-- In a run of calls on a fresh table, the number of tracked addresses stays within its limit
exactly if no packet overfills it. -/
theorem failed_lookups_bounded_iff (rateLimit expiry : UInt64) (ops : List ForwardingOp) :
    (∀ e ∈ run forwardingStep (withLimits rateLimit expiry) ops,
        HashMap.size e.post.failedLookups ≤ maxBlocklistEntries) ↔
      ∀ e ∈ run forwardingStep (withLimits rateLimit expiry) ops, ¬ Overfills e.pre e.input := by
  let bounded (t : ForwardingTable) : Prop := HashMap.size t.failedLookups ≤ maxBlocklistEntries
  exact @run_safe_iff _ _ _ _ bounded bounded _ _ (Nat.zero_le _) bounded_step_iff
    (fun _ _ _ h => h) ops

/-- Probes from 4097 hosts within one window: one entry for each of them. -/
theorem failed_lookups_exceed_limit :
    HashMap.size (endState forwardingStep (withLimits rateLimitBytesPerSec sessionExpiryMs)
      ((List.range 4097).map fun host => probe host 0 0)).failedLookups = maxBlocklistEntries + 1 := by
  have hinit : Flooded 0 (withLimits rateLimitBytesPerSec sessionExpiryMs) :=
    ⟨rfl, fun _ _ _ => rfl, (fun _ _ h => nomatch h), fun _ => rfl⟩
  have hflooded := endState_range hinit 4097 fun k hk t h =>
    flooded_step h (Nat.lt_trans hk (by decide))
  exact hflooded.size

end Blackwing.Relay
