import Mathlib.Order.MinMax
import ChainKVM.Lib.Window
import ChainKVM.Robot.Recovery

/-!
# Repeated invalid commands

`OnInvalidCommand` and `OnValidControl`: the monitor counts the invalid
commands since the last valid control message, in a window of the library that
starts at some invalid command and ends `invalidCmdTimeWindow` later
(`Counting`). It fires once, when a window reaches the threshold `n`
(`calls_eq`).

So it fires for invalid commands that are close together only, but not for all
of them: the window is fixed, and a burst that begins in one window and ends
in the next is seen whole only if it has `2 * n - 2` commands
(`fires_for_close`).
-/

namespace ChainKVM.Robot

open Machine (run run_append)
open Window (window Close Starts Seen)

variable {ω : Type}

/-- Too late for a window of length `w` that starts at `a`. -/
abbrev Late (w : Duration) (a t : Time) : Prop := w < sub t a

namespace MonitorOp

/-- A control message, valid or not, or the time between two. -/
def isControl : MonitorOp → Bool
  | .onValidControl | .onInvalidCommand | .elapse _ => true
  | _ => false

/-- The time, and the times of the invalid commands since the last valid
control message. -/
def note (s : Time × List Time) (op : MonitorOp) : Time × List Time :=
  (s.1 + op.elapsed,
    match op with
    | .onInvalidCommand => s.2 ++ [s.1]
    | .onValidControl => []
    | _ => s.2)

/-- The times of the invalid commands since the last valid control message,
in calls from `now` on. -/
def streak (now : Time) (ops : List MonitorOp) : List Time := (ops.foldl note (now, [])).2

/-- At some call the window held `n` invalid commands. -/
def Reached (w : Duration) (n : Nat) (now : Time) (ops : List MonitorOp) : Prop :=
  ∃ before, before <+: ops ∧ n ≤ (window (Late w) (streak now before)).length

end MonitorOp

open MonitorOp (isControl streak Reached)

/-! ## The library's window -/

theorem sub_le_sub_left {a b : Time} (h : a ≤ b) (t : Time) : sub t b ≤ sub t a :=
  max_le_max le_rfl (min_le_min le_rfl (Int.sub_le_sub_left h t))

theorem sub_le_sub_right {t u : Time} (h : t ≤ u) (a : Time) : sub t a ≤ sub u a :=
  max_le_max le_rfl (min_le_min le_rfl (Int.sub_le_sub_right h a))

theorem late_monotone (w : Duration) : Window.Monotone (Late w) where
  start {_ _ t} hab hlate := Int.lt_of_lt_of_le hlate (sub_le_sub_left hab t)
  event {a _ _} htu hlate := Int.lt_of_lt_of_le hlate (sub_le_sub_right htu a)

namespace MonitorOp

/-- The commands of a streak are in the order of time, and not from the
future. -/
theorem foldl_note_sorted (now : Time) (ops : List MonitorOp) :
    (ops.foldl note (now, [])).2.Pairwise (· ≤ ·) ∧
      ∀ t ∈ (ops.foldl note (now, [])).2, t ≤ (ops.foldl note (now, [])).1 := by
  induction ops using List.reverseRecOn with
  | nil => exact ⟨List.Pairwise.nil, fun _ h => absurd h List.not_mem_nil⟩
  | append_singleton ops op ih =>
    rw [List.foldl_append, List.foldl_cons, List.foldl_nil]
    generalize ops.foldl note (now, []) = s at ih ⊢
    obtain ⟨hsorted, hpast⟩ := ih
    have hlater : s.1 ≤ s.1 + op.elapsed := Int.le_add_of_nonneg_right (Int.natCast_nonneg _)
    have hkept (t : Time) (ht : t ∈ s.2) : t ≤ s.1 + op.elapsed := Int.le_trans (hpast t ht) hlater
    cases op with
    | onValidControl => exact ⟨List.Pairwise.nil, fun _ h => absurd h List.not_mem_nil⟩
    | onInvalidCommand =>
      refine ⟨List.pairwise_append.mpr ⟨hsorted, List.pairwise_singleton _ _, ?_⟩, ?_⟩
      · intro t ht u hu
        rw [List.mem_singleton.mp hu]
        exact hpast t ht
      · intro t ht
        rcases List.mem_append.mp ht with hmem | hmem
        · exact hkept t hmem
        · rw [List.mem_singleton.mp hmem]
          exact hlater
    | _ => exact ⟨hsorted, hkept⟩

theorem streak_concat (now : Time) (ops : List MonitorOp) (op : MonitorOp) :
    streak now (ops ++ [op]) = (note (ops.foldl note (now, [])) op).2 := by
  unfold streak
  rw [List.foldl_append]
  rfl

/-- Every beginning of a streak was the streak at some call. -/
theorem prefix_streak {now : Time} {ops : List MonitorOp} {ts : List Time}
    (h : ts <+: streak now ops) : ∃ before, before <+: ops ∧ streak now before = ts := by
  induction ops using List.reverseRecOn with
  | nil => exact ⟨[], List.prefix_rfl, (List.prefix_nil.mp h).symm⟩
  | append_singleton ops op ih =>
    have hearlier (hts : ts <+: streak now ops) :
        ∃ before, before <+: ops ++ [op] ∧ streak now before = ts := by
      obtain ⟨before, hbefore, heq⟩ := ih hts
      exact ⟨before, hbefore.trans (List.prefix_append _ _), heq⟩
    have hself (hts : ts = streak now (ops ++ [op])) :
        ∃ before, before <+: ops ++ [op] ∧ streak now before = ts :=
      ⟨_, List.prefix_rfl, hts.symm⟩
    rw [streak_concat] at h hself
    cases op with
    | onInvalidCommand =>
      rcases List.prefix_concat_iff.mp h with hts | hts
      · exact hself hts
      · exact hearlier hts
    | onValidControl => exact hself (List.prefix_nil.mp h)
    | _ => exact hearlier h

theorem streak_sorted (now : Time) (ops : List MonitorOp) :
    (streak now ops).Pairwise (· ≤ ·) := (foldl_note_sorted now ops).1

end MonitorOp

/-! ## The monitor counts a window -/

/-- The counter and the start of the window are those of the window `W`. -/
structure Counts (w : Duration) (W : List Time) (m : Monitor) : Prop where
  timeWindow : m.invalidCmdTimeWindow = w
  count : m.invalidCmdCount = W.length
  first : ∀ a ∈ W.head?, m.firstInvalidCmdTime = a

theorem Counts.onValidControl {w : Duration} {W : List Time} {m : Monitor} (h : Counts w W m)
    (now : Time) : Counts w [] (m.onValidControl now) := by
  have htimeWindow : (m.onValidControl now).invalidCmdTimeWindow = m.invalidCmdTimeWindow := by
    unfold Monitor.onValidControl
    dsimp only
    split <;> rfl
  have hcount : (m.onValidControl now).invalidCmdCount = 0 := by
    unfold Monitor.onValidControl
    dsimp only
    split <;> rfl
  exact ⟨htimeWindow.trans h.timeWindow, hcount, fun a ha => nomatch ha⟩

/-- An invalid command is marked in the window. -/
theorem Counts.countInvalid {w : Duration} {W : List Time} {m : Monitor} (h : Counts w W m)
    (hw : 0 < w) (now : Time) :
    Counts w (Window.mark (Late w) W now) (m.countInvalid now) := by
  have hwindow : 0 < m.invalidCmdTimeWindow := h.timeWindow ▸ hw
  cases W with
  | nil =>
    have hzero : m.invalidCmdCount = 0 := h.count
    have heq : m.countInvalid now =
        { m with invalidCmdCount := 1, firstInvalidCmdTime := now } := by
      simp [Monitor.countInvalid, hzero]
    rw [heq]
    exact ⟨h.timeWindow, rfl, fun a ha => Option.some.inj ha⟩
  | cons a W =>
    have hfirst : m.firstInvalidCmdTime = a := h.first a rfl
    have hcount : m.invalidCmdCount = (W.length + 1 : Nat) := h.count
    have hpos : 0 < m.invalidCmdCount := by omega
    have hcounting : m.invalidCmdCount ≠ 0 := by omega
    rw [Window.mark_cons]
    by_cases hlate : Late w a now
    · -- the window has run out: the command starts the next one
      have hexpired : m.invalidCmdTimeWindow < sub now m.firstInvalidCmdTime := by
        rw [h.timeWindow, hfirst]
        exact hlate
      have heq : m.countInvalid now =
          { m with invalidCmdCount := 1, firstInvalidCmdTime := now } := by
        simp [Monitor.countInvalid, hwindow, hpos, hexpired]
      rw [heq, if_pos hlate]
      exact ⟨h.timeWindow, rfl, fun b hb => Option.some.inj hb⟩
    · have hopen : ¬m.invalidCmdTimeWindow < sub now m.firstInvalidCmdTime := by
        rw [h.timeWindow, hfirst]
        exact hlate
      have heq : m.countInvalid now = { m with invalidCmdCount := m.invalidCmdCount + 1 } := by
        simp [Monitor.countInvalid, hopen, hcounting]
      rw [heq, if_neg hlate]
      refine ⟨h.timeWindow, ?_, fun b hb => hfirst.trans (Option.some.inj hb)⟩
      simp [hcount]

/-- `OnInvalidCommand`: the count, and the trigger if it reaches the
threshold. -/
structure Marked (s s' : MonitorRun ω) : Prop where
  time : s'.now = s.now
  threshold : s'.monitor.invalidCmdThreshold = s.monitor.invalidCmdThreshold
  inControl : s'.monitor.inControlLoss = s.monitor.inControlLoss
  counts : ∀ w W, Counts w W (s.monitor.countInvalid s.now) → Counts w W s'.monitor
  fires : s.monitor.invalidCmdThreshold ≤ (s.monitor.countInvalid s.now).invalidCmdCount →
    s'.monitor.stopped = true ∧
      s'.calls = if s.monitor.stopped then s.calls else s.calls ++ [.invalidCmds]
  quiet : ¬s.monitor.invalidCmdThreshold ≤ (s.monitor.countInvalid s.now).invalidCmdCount →
    s'.monitor.stopped = s.monitor.stopped ∧ s'.calls = s.calls

theorem marked (fn : SafeStopCallback ω) (s : MonitorRun ω) :
    Marked s (MonitorRun.step fn s .onInvalidCommand) := by
  have htime : (MonitorRun.step fn s .onInvalidCommand).now = s.now := Int.add_zero _
  by_cases hfull :
      s.monitor.invalidCmdThreshold ≤ (s.monitor.countInvalid s.now).invalidCmdCount
  · have htrigger := MonitorRun.triggerSafeStop_recorded fn .invalidCmds
      (s.monitor.countInvalid s.now) s.world
    have hframe := Monitor.triggerSafeStop_cases (recorded fn) .invalidCmds
      (s.monitor.countInvalid s.now) s.world
    have hstep : Monitor.triggerSafeStop (some (recorded fn)) .invalidCmds
        (s.monitor.countInvalid s.now) s.world =
          ((MonitorRun.step fn s .onInvalidCommand).monitor,
            (MonitorRun.step fn s .onInvalidCommand).world) := by
      simp [MonitorRun.step, MonitorOp.apply, Monitor.onInvalidCommand, hfull]
    rw [Monitor.countInvalid_stopped, hstep] at htrigger
    rw [hstep] at hframe
    -- the trigger writes the flag and the last transition only
    rcases hframe with ⟨-, heq⟩ | ⟨-, heq⟩
    · have hmonitor := congrArg Prod.fst heq
      dsimp only at hmonitor
      refine ⟨htime, ?_, ?_, ?_, fun _ => htrigger, fun hnot => absurd hfull hnot⟩
      · rw [hmonitor, Monitor.countInvalid_invalidCmdThreshold]
      · rw [hmonitor, Monitor.countInvalid_inControlLoss]
      · rw [hmonitor]
        exact fun _ _ h => h
    · have hmonitor := congrArg Prod.fst heq
      dsimp only at hmonitor
      refine ⟨htime, ?_, ?_, ?_, fun _ => htrigger, fun hnot => absurd hfull hnot⟩
      · rw [hmonitor]
        exact s.monitor.countInvalid_invalidCmdThreshold s.now
      · rw [hmonitor]
        exact s.monitor.countInvalid_inControlLoss s.now
      · rw [hmonitor]
        exact fun _ _ h => ⟨h.timeWindow, h.count, h.first⟩
  · have hstep : (MonitorRun.step fn s .onInvalidCommand).monitor = s.monitor.countInvalid s.now ∧
        (MonitorRun.step fn s .onInvalidCommand).world = s.world := by
      simp [MonitorRun.step, MonitorOp.apply, Monitor.onInvalidCommand, hfull]
    refine ⟨htime, ?_, ?_, ?_, fun h => absurd h hfull, fun _ => ⟨?_, congrArg Prod.fst hstep.2⟩⟩
    · rw [hstep.1, Monitor.countInvalid_invalidCmdThreshold]
    · rw [hstep.1, Monitor.countInvalid_inControlLoss]
    · rw [hstep.1]
      exact fun _ _ h => h
    · rw [hstep.1, Monitor.countInvalid_stopped]

/-! ## What the monitor has done so far -/

theorem MonitorOp.reached_concat {w : Duration} {n : Nat} {now : Time} {ops : List MonitorOp}
    {op : MonitorOp} : Reached w n now (ops ++ [op]) ↔
      Reached w n now ops ∨ n ≤ (window (Late w) (streak now (ops ++ [op]))).length := by
  constructor
  · rintro ⟨before, hbefore, hfull⟩
    rcases List.prefix_concat_iff.mp hbefore with rfl | hearlier
    · exact .inr hfull
    · exact .inl ⟨before, hearlier, hfull⟩
  · rintro (⟨before, hbefore, hfull⟩ | hfull)
    · exact ⟨before, hbefore.trans (List.prefix_append _ _), hfull⟩
    · exact ⟨_, List.prefix_rfl, hfull⟩

/-- After the calls `ops` since `Reset` at `now`: the monitor counts the window
of the streak, and has fired iff a window was full. -/
structure Counting (n : Nat) (w : Duration) (now : Time) (calls : List Trigger)
    (ops : List MonitorOp) (s : MonitorRun ω) : Prop where
  time : s.now = (ops.foldl MonitorOp.note (now, [])).1
  threshold : s.monitor.invalidCmdThreshold = n
  counts : Counts w (window (Late w) (streak now ops)) s.monitor
  inControl : s.monitor.inControlLoss = false
  fired : Reached w n now ops → s.monitor.stopped = true ∧ s.calls = calls ++ [.invalidCmds]
  waiting : ¬Reached w n now ops → s.monitor.stopped = false ∧ s.calls = calls

namespace Counting

variable {n : Nat} {w : Duration} {now : Time} {calls : List Trigger} {ops : List MonitorOp}
  {s : MonitorRun ω}

/-- A call that fires nothing new. -/
theorem quiet (h : Counting n w now calls ops s) {op : MonitorOp} {s' : MonitorRun ω}
    (hbefore : n ≤ (window (Late w) (streak now (ops ++ [op]))).length → Reached w n now ops)
    (htime : s'.now = s.now + op.elapsed)
    (hthreshold : s'.monitor.invalidCmdThreshold = s.monitor.invalidCmdThreshold)
    (hcounts : Counts w (window (Late w) (streak now (ops ++ [op]))) s'.monitor)
    (hinControl : s'.monitor.inControlLoss = false)
    (hstopped : s'.monitor.stopped = s.monitor.stopped) (hcalls : s'.calls = s.calls) :
    Counting n w now calls (ops ++ [op]) s' := by
  have hreached : Reached w n now (ops ++ [op]) ↔ Reached w n now ops := by
    rw [MonitorOp.reached_concat]
    exact or_iff_left_of_imp hbefore
  have hnow : s'.now = ((ops ++ [op]).foldl MonitorOp.note (now, [])).1 := by
    rw [htime, h.time, List.foldl_append]
    rfl
  refine ⟨hnow, hthreshold.trans h.threshold, hcounts, hinControl, ?_, ?_⟩
  · intro hfull
    rw [hstopped, hcalls]
    exact h.fired (hreached.mp hfull)
  · intro hnot
    rw [hstopped, hcalls]
    exact h.waiting fun hfull => hnot (hreached.mpr hfull)

theorem onInvalidCommand (h : Counting n w now calls ops s) (hw : 0 < w) {s' : MonitorRun ω}
    (hmarked : Marked s s') : Counting n w now calls (ops ++ [.onInvalidCommand]) s' := by
  have hstreak : streak now (ops ++ [.onInvalidCommand]) = streak now ops ++ [s.now] := by
    rw [MonitorOp.streak_concat, h.time]
    rfl
  have hcounts := h.counts.countInvalid hw s.now
  rw [← Window.window_concat, ← hstreak] at hcounts
  have hfull_iff : s.monitor.invalidCmdThreshold ≤ (s.monitor.countInvalid s.now).invalidCmdCount ↔
      n ≤ (window (Late w) (streak now (ops ++ [.onInvalidCommand]))).length := by
    rw [h.threshold, hcounts.count]
    exact Int.ofNat_le
  have hinControl : s'.monitor.inControlLoss = false := hmarked.inControl.trans h.inControl
  have htime : s'.now = s.now + (MonitorOp.elapsed .onInvalidCommand : Nat) :=
    hmarked.time.trans (Int.add_zero _).symm
  by_cases hfull : n ≤ (window (Late w) (streak now (ops ++ [.onInvalidCommand]))).length
  · obtain ⟨hstopped, hcalls⟩ := hmarked.fires (hfull_iff.mpr hfull)
    have hreached : Reached w n now (ops ++ [.onInvalidCommand]) :=
      MonitorOp.reached_concat.mpr (.inr hfull)
    have hnow : s'.now =
        ((ops ++ [MonitorOp.onInvalidCommand]).foldl MonitorOp.note (now, [])).1 := by
      rw [htime, h.time, List.foldl_append]
      rfl
    refine ⟨hnow, hmarked.threshold.trans h.threshold, hmarked.counts _ _ hcounts, hinControl,
      fun _ => ⟨hstopped, ?_⟩, fun hnot => absurd hreached hnot⟩
    -- a monitor that has fired before is stopped, and swallows the trigger
    by_cases hbefore : Reached w n now ops
    · obtain ⟨hst, hcalled⟩ := h.fired hbefore
      rw [hcalls, hst, hcalled]
      rfl
    · obtain ⟨hst, hcalled⟩ := h.waiting hbefore
      rw [hcalls, hst, hcalled]
      rfl
  · obtain ⟨hstopped, hcalls⟩ := hmarked.quiet (hfull_iff.not.mpr hfull)
    exact h.quiet (fun hle => absurd hle hfull) htime hmarked.threshold
      (hmarked.counts _ _ hcounts) hinControl hstopped hcalls

/-- One call. -/
theorem step (fn : SafeStopCallback ω) (h : Counting n w now calls ops s) (hw : 0 < w)
    {op : MonitorOp} (hop : op.isControl = true) :
    Counting n w now calls (ops ++ [op]) (MonitorRun.step fn s op) := by
  cases op with
  | onInvalidCommand => exact h.onInvalidCommand hw (marked fn s)
  | onValidControl =>
    -- a valid command ends the streak, and with it the window
    have hstreak : streak now (ops ++ [.onValidControl]) = [] := by
      rw [MonitorOp.streak_concat]
      rfl
    have hthreshold : (s.monitor.onValidControl s.now).invalidCmdThreshold =
        s.monitor.invalidCmdThreshold := by
      unfold Monitor.onValidControl
      dsimp only
      split <;> rfl
    have hstopped : (s.monitor.onValidControl s.now).stopped = s.monitor.stopped := by
      rw [Monitor.onValidControl_stopped, Monitor.latched, h.inControl]
      exact Bool.and_true _
    refine h.quiet ?_ rfl hthreshold ?_ (Monitor.onValidControl_inControlLoss _ _) hstopped rfl
    · rw [hstreak]
      intro hle
      exact ⟨ops, List.prefix_rfl, hle.trans (Nat.zero_le _)⟩
    · rw [hstreak]
      exact h.counts.onValidControl s.now
  | elapse d =>
    have hstreak : streak now (ops ++ [.elapse d]) = streak now ops := by
      rw [MonitorOp.streak_concat]
      rfl
    refine h.quiet ?_ rfl rfl ?_ h.inControl rfl rfl
    · rw [hstreak]
      exact fun hle => ⟨ops, List.prefix_rfl, hle⟩
    · rw [hstreak]
      exact h.counts
  | _ => cases hop

/-- From `Reset` on. -/
theorem run (fn : SafeStopCallback ω) {s : MonitorRun ω} (hn : 1 ≤ n)
    (hthreshold : s.monitor.invalidCmdThreshold = n) (hw : 0 < s.monitor.invalidCmdTimeWindow)
    {ops : List MonitorOp} (hops : ∀ op ∈ ops, op.isControl = true) :
    Counting n s.monitor.invalidCmdTimeWindow s.now s.calls ops
      (Machine.run (MonitorRun.step fn) (MonitorRun.step fn s .reset) ops) := by
  induction ops using List.reverseRecOn with
  | nil =>
    have hnot : ¬Reached s.monitor.invalidCmdTimeWindow n s.now [] := by
      rintro ⟨before, hbefore, hfull⟩
      rw [List.prefix_nil.mp hbefore] at hfull
      exact absurd (hn.trans hfull) (Nat.not_succ_le_zero 0)
    exact ⟨Int.add_zero _, hthreshold, ⟨rfl, rfl, fun a ha => nomatch ha⟩, rfl,
      fun hfull => absurd hfull hnot, fun _ => ⟨rfl, rfl⟩⟩
  | append_singleton ops op ih =>
    rw [run_append]
    exact (ih fun op' h => hops op' (List.mem_append_left _ h)).step fn hw
      (hops op (List.mem_append_right _ (List.mem_singleton_self op)))

end Counting

/-! ## What it fires for -/

namespace MonitorRun

/-- The call completes `n` invalid commands that are close together, with no
valid control message between them. -/
def Completes (w : Duration) (n : Nat) (now : Time) (before : List MonitorOp) (op : MonitorOp) :
    Prop :=
  op = .onInvalidCommand ∧ ∃ burst, burst <:+ streak now (before ++ [op]) ∧ burst.length = n ∧
    Close (Late w) burst

variable {fn : SafeStopCallback ω} {s : MonitorRun ω} {n : Nat} {ops : List MonitorOp}

/-- A call that is not `OnInvalidCommand` does not fire. -/
theorem calls_of_isControl {op : MonitorOp} (hop : op.isControl = true)
    (hne : op ≠ .onInvalidCommand) : (step fn s op).calls = s.calls := by
  cases op with
  | onInvalidCommand => exact absurd rfl hne
  | onValidControl | elapse _ => rfl
  | _ => cases hop

/-- The monitor fires only at a call that completes `n` invalid commands. -/
theorem completes_of_fires (hn : 1 ≤ n) (hthreshold : s.monitor.invalidCmdThreshold = n)
    (hw : 0 < s.monitor.invalidCmdTimeWindow) (hops : ∀ op ∈ ops, op.isControl = true)
    {before after : List MonitorOp} {op : MonitorOp} (hsplit : ops = before ++ op :: after)
    (hfires : (step fn (run (step fn) (step fn s .reset) before) op).calls ≠
      (run (step fn) (step fn s .reset) before).calls) :
    (run (step fn) (step fn s .reset) before).calls = s.calls ∧
      (step fn (run (step fn) (step fn s .reset) before) op).calls = s.calls ++ [.invalidCmds] ∧
      Completes s.monitor.invalidCmdTimeWindow n s.now before op := by
  have hstart : before ++ [op] <+: ops := ⟨after, by rw [hsplit, List.append_assoc]; rfl⟩
  have hcontrol : ∀ op' ∈ before ++ [op], op'.isControl = true :=
    fun op' hmem => hops op' (hstart.subset hmem)
  have hop := hcontrol op (List.mem_append_right _ (List.mem_singleton_self op))
  have hbefore := Counting.run fn hn hthreshold hw
    fun op' h => hcontrol op' (List.mem_append_left _ h)
  have hstep := hbefore.step fn hw hop
  by_cases hr : Reached s.monitor.invalidCmdTimeWindow n s.now before
  · -- it had fired already
    have hstill : Reached s.monitor.invalidCmdTimeWindow n s.now (before ++ [op]) :=
      MonitorOp.reached_concat.mpr (.inl hr)
    exact absurd ((hstep.fired hstill).2.trans (hbefore.fired hr).2.symm) hfires
  · have hnow : Reached s.monitor.invalidCmdTimeWindow n s.now (before ++ [op]) := by
      refine Classical.not_not.mp fun hnot => hfires ?_
      rw [(hstep.waiting hnot).2, (hbefore.waiting hr).2]
    have hinvalid : op = .onInvalidCommand :=
      Classical.not_not.mp fun hne => hfires (calls_of_isControl hop hne)
    refine ⟨(hbefore.waiting hr).2, (hstep.fired hnow).2, hinvalid, ?_⟩
    -- the last `n` commands of the window that is full now
    have hfull := (MonitorOp.reached_concat.mp hnow).resolve_left hr
    generalize hW : window (Late s.monitor.invalidCmdTimeWindow) (streak s.now (before ++ [op])) = W
      at hfull
    have hclose : Close (Late s.monitor.invalidCmdTimeWindow) W :=
      hW ▸ Window.window_close (late_monotone _) (MonitorOp.streak_sorted _ _)
    have hlast : W.drop (W.length - n) <:+ W := List.drop_suffix _ _
    refine ⟨W.drop (W.length - n), hlast.trans (hW ▸ Window.window_suffix _), ?_,
      hclose.sublist hlast.sublist⟩
    rw [List.length_drop]
    omega

/-- By the time the window of a beginning of the streak is full, the monitor
has fired. -/
theorem fired_of_seen (hn : 1 ≤ n) (hthreshold : s.monitor.invalidCmdThreshold = n)
    (hw : 0 < s.monitor.invalidCmdTimeWindow) (hops : ∀ op ∈ ops, op.isControl = true)
    (hseen : Seen (Late s.monitor.invalidCmdTimeWindow) n (streak s.now ops)) :
    (run (step fn) (step fn s .reset) ops).calls = s.calls ++ [.invalidCmds] := by
  obtain ⟨ts, hts, hfull⟩ := hseen
  obtain ⟨before, hbefore, rfl⟩ := MonitorOp.prefix_streak hts
  exact ((Counting.run fn hn hthreshold hw hops).fired ⟨before, hbefore, hfull⟩).2

/-- From `Reset` on, the monitor fires once and only at a call that completes
`n` invalid commands within the time window of each other. It has fired by the
time that `n` invalid commands in a row, the first of which starts a window,
lie within the time window, and by the time that any `max n (2 * n - 2)` in a
row do. -/
theorem fires_for_close (fn : SafeStopCallback ω) (s : MonitorRun ω) (n : Nat)
    (ops : List MonitorOp) (hn : 1 ≤ n) (hthreshold : s.monitor.invalidCmdThreshold = n)
    (hw : 0 < s.monitor.invalidCmdTimeWindow) (hops : ∀ op ∈ ops, op.isControl = true) :
    (∀ before op after, ops = before ++ op :: after →
      (step fn (run (step fn) (step fn s .reset) before) op).calls ≠
          (run (step fn) (step fn s .reset) before).calls →
        (run (step fn) (step fn s .reset) before).calls = s.calls ∧
          (step fn (run (step fn) (step fn s .reset) before) op).calls =
            s.calls ++ [.invalidCmds] ∧
          Completes s.monitor.invalidCmdTimeWindow n s.now before op) ∧
    (∀ earlier a burst, streak s.now ops = earlier ++ a :: burst →
      Starts (Late s.monitor.invalidCmdTimeWindow) earlier a → n ≤ (a :: burst).length →
        Close (Late s.monitor.invalidCmdTimeWindow) (a :: burst) →
          (run (step fn) (step fn s .reset) ops).calls = s.calls ++ [.invalidCmds]) ∧
    (∀ burst, burst <:+ streak s.now ops → max n (2 * n - 2) ≤ burst.length →
      Close (Late s.monitor.invalidCmdTimeWindow) burst →
        (run (step fn) (step fn s .reset) ops).calls = s.calls ++ [.invalidCmds]) := by
  refine ⟨fun before op after hsplit hfires =>
    completes_of_fires hn hthreshold hw hops hsplit hfires, ?_, ?_⟩
  · intro earlier a burst hstreak hstarts hlength hclose
    refine fired_of_seen hn hthreshold hw hops ⟨_, List.prefix_rfl, ?_⟩
    rw [hstreak, Window.window_of_starts hstarts hclose]
    exact hlength
  · intro burst hburst hlength hclose
    obtain ⟨earlier, hstreak⟩ := hburst
    -- a burst that no window sees is split over two of them, `n - 1` each at most
    refine fired_of_seen hn hthreshold hw hops (Classical.not_not.mp fun hunseen => ?_)
    rw [← hstreak] at hunseen
    exact absurd hlength (Nat.not_le_of_lt (Window.length_lt_of_unseen hn hclose hunseen))

/-- A new monitor, with a threshold of three and a window of ten. -/
def counter : MonitorRun Unit := start 0 (500 * millisecond) 3 10 ()

/-- Two invalid commands, and two more that the first window does not hold. -/
def twoWindows : List MonitorOp :=
  [.onInvalidCommand, .elapse 9, .onInvalidCommand, .elapse 2, .onInvalidCommand, .elapse 1,
    .onInvalidCommand]

/-- A callback that does nothing. -/
def idle : SafeStopCallback Unit := fun t w => (⟨t, 0, none⟩, w)

theorem fires_for_close_sample :
    (∀ before op after, twoWindows = before ++ op :: after →
      (step idle (run (step idle) (step idle counter .reset) before) op).calls ≠
          (run (step idle) (step idle counter .reset) before).calls →
        (run (step idle) (step idle counter .reset) before).calls = [] ∧
          (step idle (run (step idle) (step idle counter .reset) before) op).calls =
            [.invalidCmds] ∧
          Completes 10 3 0 before op) ∧
    (∀ earlier a burst, streak 0 twoWindows = earlier ++ a :: burst →
      Starts (Late 10) earlier a → 3 ≤ (a :: burst).length → Close (Late 10) (a :: burst) →
          (run (step idle) (step idle counter .reset) twoWindows).calls = [.invalidCmds]) ∧
    (∀ burst, burst <:+ streak 0 twoWindows → max 3 (2 * 3 - 2) ≤ burst.length →
      Close (Late 10) burst →
        (run (step idle) (step idle counter .reset) twoWindows).calls = [.invalidCmds]) :=
  fires_for_close idle counter 3 twoWindows (by decide) rfl (by decide) (by decide)

/-- The last three of the four commands are within the time window of each
other, and the monitor does not fire. -/
theorem fires_for_close_fails :
    ¬ ∀ (fn : SafeStopCallback Unit) (s : MonitorRun Unit) (n : Nat) (ops : List MonitorOp),
      1 ≤ n → s.monitor.invalidCmdThreshold = n → 0 < s.monitor.invalidCmdTimeWindow →
      (∀ op ∈ ops, op.isControl = true) →
        (∀ before op after, ops = before ++ op :: after →
          (step fn (run (step fn) (step fn s .reset) before) op).calls ≠
              (run (step fn) (step fn s .reset) before).calls →
            Completes s.monitor.invalidCmdTimeWindow n s.now before op) ∧
        (∀ burst, burst <:+ streak s.now ops → n ≤ burst.length →
          Close (Late s.monitor.invalidCmdTimeWindow) burst →
            .invalidCmds ∈ (run (step fn) (step fn s .reset) ops).calls) := by
  intro h
  have hfired := (h idle counter 3 twoWindows (by decide) rfl (by decide) (by decide)).2
    [9, 11, 12] (by decide) (by decide) (by unfold Close; decide)
  exact absurd hfired (by decide)

end MonitorRun

end ChainKVM.Robot
