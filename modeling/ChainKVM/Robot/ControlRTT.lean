import Mathlib.Data.Int.ConditionallyCompleteOrder
import Mathlib.Order.ConditionallyCompleteLattice.Basic
import ChainKVM.Lib.Ledger
import ChainKVM.Lib.Machine
import ChainKVM.Robot.Collectors

/-!
# Control round trips: `internal/metrics/control_rtt.go`

A `ControlRTTCollector` over whole runs. Every method holds the mutex from its
beginning to its end, so a run is a list of calls; each carries what it reads
of the clock.

Beside the collector runs a ledger that forgets nothing: the pings that
`GeneratePing` has returned and the pongs that were taken for one. The
collector holds a part of it (`Tracks`): the map has the pings that are still
open, and the samples are the last answers of the current period. Two things
make this work. Pings are numbered consecutively, and `Reset` does not begin
again, so a number is that of one ping until the `uint32` wraps; and what the
clean-up deletes would have been deleted by every later one as well.

The clock does not go back. Its readings stay less than 2^63 ns, or 292 years,
apart, so that no difference of two of them wraps.
-/

namespace ChainKVM.Robot

open Machine (Always Steps)

/-- A call, and what it reads of the clock. (`RecordPong` only reads it for a
pong that it takes; for another, `now` is when it came.) -/
inductive RTTCall where
  | generatePing (cleanedAt now : Int)
  | recordPong (now : Int) (pong : PongMessage)
  | reset
  deriving DecidableEq, Repr

def RTTCall.isPing : RTTCall → Bool
  | .generatePing _ _ => true
  | _ => false

/-- The collector, the pings and pongs so far, and the last reading of the
clock. -/
structure RTTRun where
  collector : ControlRTTCollector
  ledger : Ledger Int
  now : Int

namespace RTTRun

/-- A ping is stale for a clean-up at `swept`. -/
def late (swept sent : Int) : Prop := swept - sent > ControlRTTCollector.stalePingThreshold

instance : DecidableRel late := fun swept sent =>
  inferInstanceAs (Decidable (swept - sent > ControlRTTCollector.stalePingThreshold))

/-- A new collector, at `t₀`. -/
def start (maxSamples t₀ : Int) : RTTRun := ⟨.new maxSamples, .start t₀, t₀⟩

/-- The ping that is sent is entered with the number and the time that it
carries; a pong, with the number it carries and the time at which it is
recorded. -/
def step (w : RTTRun) : RTTCall → RTTRun
  | .generatePing cleanedAt now =>
    let (ping, collector) := w.collector.generatePing cleanedAt now
    ⟨collector, w.ledger.send ping.seq cleanedAt ping.tMono, now⟩
  | .recordPong now pong =>
    ⟨w.collector.recordPong now pong, w.ledger.receive late pong.seq now, now⟩
  | .reset => { w with collector := w.collector.reset, ledger := w.ledger.reset }

/-- The clock is not behind the last reading, nor 2^63 ns past the start. -/
def OnTime (t₀ : Int) (w : RTTRun) : RTTCall → Prop
  | .generatePing cleanedAt now =>
    w.now ≤ cleanedAt ∧ cleanedAt ≤ now ∧ now - t₀ < 9223372036854775808
  | .recordPong now _ => w.now ≤ now ∧ now - t₀ < 9223372036854775808
  | .reset => True

/-! ## What the samples say -/

/-- The sample of a pong that was taken for a ping. -/
def sampleOf (a : Ledger.Answer Int) : ControlRTTSample :=
  ⟨a.request.number, a.request.sentAt, a.receivedAt, a.receivedAt - a.request.sentAt⟩

/-- Every sample is of one ping, sent in the current period, and has its times;
no ping has been taken twice; the samples are the last `n` of the current
period, in the order in which the pongs were received. -/
structure Attributed (n : Nat) (w : RTTRun) : Prop where
  ping : ∀ s ∈ w.collector.samples, ∃ p,
    w.ledger.requests.filter (fun r => r.number = s.seq) = [p] ∧
      p.period = w.ledger.period ∧ s.sendTime = p.sentAt
  rtt : ∀ s ∈ w.collector.samples, s.rtt = s.recvTime - s.sendTime ∧ 0 ≤ s.rtt
  taken : (w.ledger.answers.map fun a => a.request.number).Nodup
  once : (w.collector.samples.map ControlRTTSample.seq).Nodup
  recent : w.collector.samples = (w.ledger.current.map sampleOf).rtake n

/-- A pong for a ping of an earlier period changes nothing. -/
def Ignores (w : RTTRun) (e : RTTCall) : Prop :=
  ∀ now pong, e = .recordPong now pong →
    ∀ r ∈ w.ledger.requests, r.number = pong.seq → r.period < w.ledger.period →
      (w.step e).collector = w.collector

/-! ## The collector tracks the ledger -/

/-- The pending map is the part of the ledger that is still open, and the samples
are the end of it. The bounds on numbers and times are those that keep the
`uint32` and the `int64` from wrapping. -/
structure Tracks (n : Nat) (t₀ : Int) (w : RTTRun) : Prop where
  ledger : w.ledger.WellFormed w.now
  since : t₀ ≤ w.now
  begun : ∀ r ∈ w.ledger.requests, t₀ ≤ r.sentAt
  numbered : ∀ r ∈ w.ledger.requests, r.number < w.ledger.requests.length
  next : w.collector.nextSeq = w.ledger.requests.length % 4294967296
  pending : ∀ k, w.collector.pendingPings.get k =
    (w.ledger.awaiting late k).map Ledger.Request.sentAt
  bound : w.collector.maxSamples = n
  samples : w.collector.samples = (w.ledger.current.map sampleOf).rtake n

theorem isLateness : Ledger.IsLateness late where
  later := by
    intro swept swept' sent hle hlate
    unfold late at hlate ⊢
    omega
  prompt := by
    intro swept sent hle hlate
    have hpos : (0 : Int) ≤ ControlRTTCollector.stalePingThreshold := by decide
    unfold late at hlate
    omega

theorem Tracks.start (maxSamples t₀ : Int) :
    Tracks (boundOf maxSamples) t₀ (RTTRun.start maxSamples t₀) :=
  ⟨.start t₀, Int.le_refl t₀, nofun, nofun, rfl, fun _ => rfl, rfl, (List.rtake_nil _).symm⟩

variable {n : Nat} {t₀ : Int} {w : RTTRun}

/-- The age of a ping does not wrap. -/
theorem Tracks.toInt_age (h : Tracks n t₀ w) {r : Ledger.Request Int} (hr : r ∈ w.ledger.requests)
    {now : Int} (hnow : w.now ≤ now) (hlong : now - t₀ < 9223372036854775808) :
    (Int64.ofInt (now - r.sentAt)).toInt = now - r.sentAt := by
  have hsent := h.ledger.sent r hr
  have hbegun := h.begun r hr
  rw [Int64.toInt_ofInt, show Int64.size = 18446744073709551616 from rfl]
  exact Int.bmod_eq_of_le (by omega) (by omega)

/-- The number of the next ping is new until the counter wraps. -/
theorem Tracks.new_number (h : Tracks n t₀ w) (hroom : w.ledger.requests.length < 4294967296) :
    w.collector.nextSeq ∉ w.ledger.requests.map Ledger.Request.number := by
  intro hmem
  obtain ⟨r, hr, hnumber⟩ := List.mem_map.mp hmem
  have hlt := h.numbered r hr
  have hnext := h.next
  rw [Nat.mod_eq_of_lt hroom] at hnext
  omega

/-- The clean-up leaves the pings that are not late. -/
theorem Tracks.cleaned (h : Tracks n t₀ w) {cleanedAt : Int} (hclean : w.now ≤ cleanedAt)
    (hlong : cleanedAt - t₀ < 9223372036854775808) (k : Nat) :
    (w.collector.cleanupStalePings cleanedAt).pendingPings.get k =
      ((w.ledger.awaiting late k).filter fun r => ¬late cleanedAt r.sentAt).map
        Ledger.Request.sentAt := by
  unfold ControlRTTCollector.cleanupStalePings
  rw [OrdMap.get_filter, h.pending]
  cases hk : w.ledger.awaiting late k with
  | none => rfl
  | some r =>
    obtain ⟨hr, -⟩ := Ledger.awaiting_sound hk
    rw [Option.map_some, Option.filter_some, Option.filter_some, h.toInt_age hr hclean hlong,
      apply_ite (Option.map Ledger.Request.sentAt)]
    rfl

theorem Tracks.generatePing (h : Tracks n t₀ w) {cleanedAt now : Int}
    (hclock : OnTime t₀ w (.generatePing cleanedAt now))
    (hroom : w.ledger.requests.length < 4294967296) :
    Tracks n t₀ (w.step (.generatePing cleanedAt now)) := by
  obtain ⟨hclean, hnow, hlong⟩ := hclock
  have hfresh := h.new_number hroom
  have hcount : w.collector.nextSeq = w.ledger.requests.length := by
    rw [h.next, Nat.mod_eq_of_lt hroom]
  have hsince : t₀ ≤ now := by
    have hstart := h.since
    omega
  refine ⟨h.ledger.send hclean hnow hfresh, hsince, fun r hr => ?_, fun r hr => ?_, ?_, fun k => ?_,
    h.bound, h.samples⟩
  · rcases Ledger.mem_requests_send.mp hr with hold | rfl
    · exact h.begun r hold
    · exact hsince
  · show r.number < (w.ledger.send w.collector.nextSeq cleanedAt now).requests.length
    rw [Ledger.length_requests_send]
    rcases Ledger.mem_requests_send.mp hr with hold | rfl
    · exact Nat.lt_succ_of_lt (h.numbered r hold)
    · exact Nat.lt_succ_of_le (Nat.le_of_eq hcount)
  · show (w.collector.nextSeq + 1) % 4294967296 =
      (w.ledger.send w.collector.nextSeq cleanedAt now).requests.length % 4294967296
    rw [Ledger.length_requests_send, hcount]
  · show ((w.collector.cleanupStalePings cleanedAt).pendingPings.set
        w.collector.nextSeq now).get k =
      ((w.ledger.send w.collector.nextSeq cleanedAt now).awaiting late k).map _
    rw [OrdMap.get_set, h.ledger.awaiting_send isLateness hclean hnow hfresh,
      h.cleaned hclean (by omega), apply_ite (Option.map Ledger.Request.sentAt)]
    rfl

/-- A pong for no open ping changes nothing. -/
theorem Tracks.recordPong_none (h : Tracks n t₀ w) {now : Int} {pong : PongMessage}
    (hr : w.ledger.awaiting late pong.seq = none) :
    w.collector.recordPong now pong = w.collector := by
  have hget := h.pending pong.seq
  rw [hr] at hget
  unfold ControlRTTCollector.recordPong
  rw [hget]
  rfl

/-- A pong for an open ping gives its sample. -/
theorem Tracks.recordPong_some (h : Tracks n t₀ w) (hn : 0 < n) {now : Int} {pong : PongMessage}
    (hclock : OnTime t₀ w (.recordPong now pong)) {r : Ledger.Request Int}
    (hr : w.ledger.awaiting late pong.seq = some r) :
    w.collector.recordPong now pong =
      { w.collector with
        pendingPings := w.collector.pendingPings.delete pong.seq
        samples := ((w.ledger.receive late pong.seq now).current.map sampleOf).rtake n } := by
  obtain ⟨hmem, hnumber, -⟩ := Ledger.awaiting_sound hr
  have hage := h.toInt_age hmem hclock.1 hclock.2
  have hget := h.pending pong.seq
  rw [hr] at hget
  unfold ControlRTTCollector.recordPong
  rw [hget]
  dsimp only [Option.map_some]
  rw [hage, h.bound, h.samples, Ledger.current_receive hr, List.map_append, List.map_singleton,
    ← Recent.push_rtake hn, ← hnumber]
  rfl

theorem Tracks.recordPong (h : Tracks n t₀ w) (hn : 0 < n) {now : Int} {pong : PongMessage}
    (hclock : OnTime t₀ w (.recordPong now pong)) :
    Tracks n t₀ (w.step (.recordPong now pong)) := by
  have hsince : t₀ ≤ now := Int.le_trans h.since hclock.1
  have hstep : w.step (.recordPong now pong) =
    ⟨w.collector.recordPong now pong, w.ledger.receive late pong.seq now, now⟩ := rfl
  rw [hstep]
  cases hr : w.ledger.awaiting late pong.seq with
  | none =>
    rw [h.recordPong_none hr, Ledger.receive_of_none hr]
    exact { h with ledger := h.ledger.mono hclock.1, since := hsince }
  | some r =>
    have hrequests : (w.ledger.receive late pong.seq now).requests = w.ledger.requests :=
      Ledger.requests_receive
    rw [h.recordPong_some hn hclock hr]
    refine ⟨h.ledger.receive hclock.1, hsince, ?_, ?_, ?_, fun k => ?_, h.bound, rfl⟩
    · exact hrequests ▸ h.begun
    · exact hrequests ▸ h.numbered
    · exact hrequests ▸ h.next
    · show (w.collector.pendingPings.delete pong.seq).get k =
        ((w.ledger.receive late pong.seq now).awaiting late k).map _
      rw [OrdMap.get_delete, h.pending, Ledger.awaiting_receive h.ledger.distinct,
        apply_ite (Option.map Ledger.Request.sentAt)]
      rfl

theorem Tracks.reset (h : Tracks n t₀ w) : Tracks n t₀ (w.step .reset) := by
  refine ⟨h.ledger.reset, h.since, h.begun, h.numbered, h.next, fun k => ?_, h.bound, ?_⟩
  · show OrdMap.empty.get k = (w.ledger.reset.awaiting late k).map _
    rw [h.ledger.awaiting_reset]
    rfl
  · show [] = (w.ledger.reset.current.map sampleOf).rtake n
    rw [h.ledger.current_reset, List.map_nil, List.rtake_nil]

theorem Tracks.step (h : Tracks n t₀ w) (hn : 0 < n) {e : RTTCall} (hclock : OnTime t₀ w e)
    (hroom : e.isPing → w.ledger.requests.length < 4294967296) : Tracks n t₀ (w.step e) := by
  cases e with
  | generatePing cleanedAt now => exact h.generatePing hclock (hroom rfl)
  | recordPong now pong => exact h.recordPong hn hclock
  | reset => exact h.reset

/-! ## Attribution -/

/-- A sample in the window is that of an answer in the current period. -/
theorem Tracks.answer_of_mem (h : Tracks n t₀ w) {s : ControlRTTSample}
    (hs : s ∈ w.collector.samples) :
    ∃ a ∈ w.ledger.answers, a.request.period = w.ledger.period ∧ sampleOf a = s := by
  rw [h.samples] at hs
  obtain ⟨a, ha, heq⟩ := List.mem_map.mp (List.mem_of_mem_drop hs)
  obtain ⟨hmem, hperiod⟩ := List.mem_filter.mp ha
  exact ⟨a, hmem, of_decide_eq_true hperiod, heq⟩

theorem Tracks.attributed (h : Tracks n t₀ w) : Attributed n w where
  ping := by
    intro s hs
    obtain ⟨a, ha, hperiod, rfl⟩ := h.answer_of_mem hs
    have hrequest := (h.ledger.answered a ha).1
    exact ⟨a.request, Ledger.filter_number h.ledger.distinct hrequest, hperiod, rfl⟩
  rtt := by
    intro s hs
    obtain ⟨a, ha, -, rfl⟩ := h.answer_of_mem hs
    have hafter := (h.ledger.answered a ha).2
    refine ⟨rfl, ?_⟩
    show 0 ≤ a.receivedAt - a.request.sentAt
    omega
  taken := h.ledger.once
  once := by
    have hwindow : (w.collector.samples.map ControlRTTSample.seq).Sublist
        ((w.ledger.current.map sampleOf).map ControlRTTSample.seq) := by
      rw [h.samples]
      exact (List.drop_sublist _ _).map _
    rw [List.map_map] at hwindow
    exact h.ledger.once.sublist (hwindow.trans (List.filter_sublist.map _))
  recent := h.samples

/-- The number of an old ping is that of no open one. -/
theorem Tracks.ignores (h : Tracks n t₀ w) (e : RTTCall) : Ignores w e := by
  rintro now pong rfl r hr hnumber hperiod
  refine h.recordPong_none (Option.eq_none_iff_forall_ne_some.mpr fun r' hr' => ?_)
  obtain ⟨hmem, hnumber', hcurrent, -⟩ := Ledger.awaiting_sound hr'
  have heq := Ledger.eq_of_number h.ledger.distinct hmem hr (hnumber'.trans hnumber.symm)
  rw [heq] at hcurrent
  omega

/-! ## Runs -/

/-- Only `GeneratePing` enters a ping. -/
theorem length_requests_step (w : RTTRun) (e : RTTCall) :
    (w.step e).ledger.requests.length =
      w.ledger.requests.length + if e.isPing then 1 else 0 := by
  cases e with
  | generatePing cleanedAt now =>
    exact Ledger.length_requests_send w.collector.nextSeq cleanedAt now w.ledger
  | recordPong now pong =>
    show (w.ledger.receive late pong.seq now).requests.length = _
    rw [Ledger.requests_receive]
    rfl
  | reset => rfl

/-- In any order of the calls, up to 2^32 pings: the samples are those of the
current period, each of one ping and of its own, and pongs for earlier pings are
ignored. -/
theorem samples_attributed {maxSamples t₀ : Int} {es : List RTTCall}
    (hclock : Steps step (OnTime t₀) (start maxSamples t₀) es)
    (hpings : es.countP RTTCall.isPing < 4294967296) :
    Always step (Attributed (boundOf maxSamples)) (start maxSamples t₀) es ∧
      Steps step Ignores (start maxSamples t₀) es := by
  have hbudget : 0 + es.countP RTTCall.isPing ≤ 4294967296 := by omega
  have hroom : Steps step (fun w e => e.isPing → w.ledger.requests.length < 4294967296)
      (start maxSamples t₀) es :=
    (Machine.steps_count_iff (fun w : RTTRun => w.ledger.requests.length) length_requests_step
      (Nat.zero_le _)).mpr hbudget
  have hsteps := Machine.steps_and hclock hroom
  have hstart := Tracks.start maxSamples t₀
  have hstep (w : RTTRun) (e : RTTCall) (h : Tracks (boundOf maxSamples) t₀ w)
      (he : OnTime t₀ w e ∧ (e.isPing → w.ledger.requests.length < 4294967296)) :
      Tracks (boundOf maxSamples) t₀ (w.step e) := h.step (boundOf_pos maxSamples) he.1 he.2
  constructor
  · exact (Machine.always_of_steps hstep hstart hsteps).imp fun w h => h.attributed
  · exact Machine.steps_of_steps hstep (fun w e h _ => h.ignores e) hstart hsteps

/-- A ping and its pong twice; a second ping, and its pong after a reset. -/
def resetBetween : List RTTCall :=
  [.generatePing 0 1, .recordPong 31 ⟨0, 1, 20⟩, .recordPong 32 ⟨0, 1, 20⟩, .generatePing 40 40,
    .reset, .recordPong 50 ⟨1, 40, 45⟩]

theorem samples_attributed_reset :
    Always step (Attributed (boundOf 100)) (start 100 0) resetBetween ∧
      Steps step Ignores (start 100 0) resetBetween :=
  samples_attributed
    ⟨⟨by decide, by decide, by decide⟩, ⟨by decide, by decide⟩, ⟨by decide, by decide⟩,
      ⟨by decide, by decide, by decide⟩, trivial, ⟨by decide, by decide⟩, trivial⟩
    (by decide)

end RTTRun

end ChainKVM.Robot
