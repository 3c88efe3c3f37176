import ChainKVM.Gateway.Validity

/-!
# Warnings before expiry: `tokens/expiry-monitor.ts`

The monitor looks at the registry at every tick and warns about the tokens that
are about to expire, each once. What it remembers of its warnings it prunes
against the registry, which is somebody else's: tokens come and go there
between two ticks, and the monitor may be stopped and started again.

What it forgets does no harm as long as no `jti` is registered twice: a token
that has left the registry never comes back (`get_tokenRegistryStep`), so it is
never warned about again. `Warned` relates the warnings so far to what the
monitor remembers, and `warned_steps` takes it through every run.
-/

namespace ChainKVM.Gateway

open Machine (run run_append Steps steps_append)

/-! ## The monitor -/

/-- `ExpiryWarning`. -/
structure ExpiryWarning where
  jti : String
  sessionId : String
  expiresAt : Int
  remainingMs : Int
  deriving DecidableEq, Repr

/-- The warning about an entry. -/
def ExpiryWarning.of (now : Int) (entry : TokenEntry) : ExpiryWarning where
  jti := entry.jti
  sessionId := entry.sessionId
  expiresAt := entry.expiresAt
  remainingMs := entry.expiresAt - now

/-- `createExpiryMonitor`: the set of warned tokens, in the order in which they
came into it, and the threshold of the interval while one is set. -/
structure ExpiryMonitor where
  warnedTokens : List String
  checkInterval : Option Int

namespace ExpiryMonitor

def new : ExpiryMonitor := ⟨[], none⟩

/-- `isRunning`. -/
def isRunning (m : ExpiryMonitor) : Bool := m.checkInterval.isSome

/-- `start`, up to the callback, which is in `check`. -/
def start (m : ExpiryMonitor) (warningThresholdMs : Int) : Except String ExpiryMonitor :=
  if m.isRunning then .error "Monitor is already running"
  else .ok { m with checkInterval := some warningThresholdMs }

/-- `stop`. -/
def stop (m : ExpiryMonitor) : ExpiryMonitor := { m with checkInterval := none }

/-- The body of the loop over the expiring tokens, with the warnings that have
been passed to `onWarning`. -/
def warn (now : Int) (acc : List String × List ExpiryWarning) (entry : TokenEntry) :
    List String × List ExpiryWarning :=
  if entry.jti ∈ acc.1 then acc
  else (acc.1 ++ [entry.jti], acc.2 ++ [.of now entry])

/-- What the interval calls: the warnings, then the pruning. -/
def check (m : ExpiryMonitor) (now : Int) (registry : TokenRegistry) (warningThresholdMs : Int) :
    ExpiryMonitor × List ExpiryWarning :=
  let expiring := registry.getExpiringSoon now warningThresholdMs
  let warned := expiring.foldl (warn now) (m.warnedTokens, [])
  ({ m with warnedTokens := warned.1.filter fun jti => (registry.get jti).isSome }, warned.2)

/-! ## One check -/

/-- The tokens that a check warns about. -/
def fresh (warned : List String) (entries : List TokenEntry) : List TokenEntry :=
  entries.filter fun entry => entry.jti ∉ warned

/-- The loop remembers and warns about the fresh tokens, and no others. -/
theorem foldl_warn (now : Int) {entries : List TokenEntry}
    (hjtis : (entries.map TokenEntry.jti).Nodup) (warned : List String)
    (issued : List ExpiryWarning) :
    entries.foldl (warn now) (warned, issued) =
      (warned ++ (fresh warned entries).map TokenEntry.jti,
        issued ++ (fresh warned entries).map (.of now)) := by
  induction entries generalizing warned issued with
  | nil => simp [fresh]
  | cons entry entries ih =>
    obtain ⟨hhead, htail⟩ := List.nodup_cons.mp hjtis
    rw [List.foldl_cons]
    unfold warn fresh
    by_cases hmem : entry.jti ∈ warned
    · rw [if_pos hmem, List.filter_cons_of_neg (by simpa using hmem)]
      exact ih htail warned issued
    · -- no later entry has this `jti`, so remembering it makes no difference to them
      have hrest : fresh (warned ++ [entry.jti]) entries = fresh warned entries := by
        refine List.filter_congr fun e he => ?_
        have hne : e.jti ≠ entry.jti := by
          intro heq
          rw [← heq] at hhead
          exact hhead (List.mem_map_of_mem he)
        simp [hne]
      rw [if_neg hmem, List.filter_cons_of_pos (by simpa using hmem)]
      show entries.foldl (warn now) (warned ++ [entry.jti], issued ++ [.of now entry]) = _
      rw [ih htail, hrest]
      simp [fresh]

variable (m : ExpiryMonitor) (now : Int) (registry : TokenRegistry) (warningThresholdMs : Int)

/-- The tokens that a check of this monitor warns about. -/
def due : List TokenEntry := fresh m.warnedTokens (registry.getExpiringSoon now warningThresholdMs)

theorem nodup_expiring :
    ((registry.getExpiringSoon now warningThresholdMs).map TokenEntry.jti).Nodup :=
  registry.nodup_values_jti.sublist (List.filter_sublist.map _)

theorem check_warnings : (m.check now registry warningThresholdMs).2 =
    (m.due now registry warningThresholdMs).map (.of now) := by
  have hloop := foldl_warn now (nodup_expiring now registry warningThresholdMs) m.warnedTokens []
  exact congrArg Prod.snd hloop

theorem check_warnedTokens : (m.check now registry warningThresholdMs).1.warnedTokens =
    (m.warnedTokens ++ (m.due now registry warningThresholdMs).map TokenEntry.jti).filter
      fun jti => (registry.get jti).isSome := by
  have hloop := foldl_warn now (nodup_expiring now registry warningThresholdMs) m.warnedTokens []
  exact congrArg (List.filter fun jti => (registry.get jti).isSome) (congrArg Prod.fst hloop)

variable {m now registry warningThresholdMs}

theorem mem_due {entry : TokenEntry} : entry ∈ m.due now registry warningThresholdMs ↔
    entry.jti ∉ m.warnedTokens ∧ registry.get entry.jti = some entry ∧
      now < entry.expiresAt ∧ entry.expiresAt ≤ now + warningThresholdMs := by
  unfold due fresh
  rw [List.mem_filter, decide_eq_true_eq, TokenRegistry.mem_getExpiringSoon]
  exact and_comm

theorem mem_check_warnings {w : ExpiryWarning} :
    w ∈ (m.check now registry warningThresholdMs).2 ↔
      ∃ entry ∈ m.due now registry warningThresholdMs, .of now entry = w := by
  rw [check_warnings]
  exact List.mem_map

/-- What is remembered after a check is what was remembered or warned about, if
it is registered. -/
theorem mem_check_warnedTokens {jti : String} :
    jti ∈ (m.check now registry warningThresholdMs).1.warnedTokens ↔
      (jti ∈ m.warnedTokens ∨
        ∃ entry ∈ m.due now registry warningThresholdMs, entry.jti = jti) ∧
          (registry.get jti).isSome := by
  rw [check_warnedTokens, List.mem_filter, List.mem_append, List.mem_map]

theorem nodup_due : ((m.due now registry warningThresholdMs).map TokenEntry.jti).Nodup :=
  (nodup_expiring now registry warningThresholdMs).sublist (List.filter_sublist.map _)

/-- The warnings of a check carry the `jti`s of their tokens. -/
theorem map_jti_check : (m.check now registry warningThresholdMs).2.map ExpiryWarning.jti =
    (m.due now registry warningThresholdMs).map TokenEntry.jti := by
  rw [check_warnings, List.map_map]
  rfl

end ExpiryMonitor

/-! ## The machine -/

/-- What may happen to a registry and its monitor. A tick is a callback of the
interval; the registry and the clock stand still while it runs. -/
inductive MonitorEvent where
  | token (e : TokenEvent)
  | start (warningThresholdMs : Int)
  | stop
  | tick

/-- A registry, its monitor and the warnings so far. -/
structure MonitorStore where
  store : TokenStore
  monitor : ExpiryMonitor
  warnings : List ExpiryWarning

/-- Without an interval there are no ticks; a `start` that throws changes
nothing. -/
def monitorStep (s : MonitorStore) : MonitorEvent → MonitorStore
  | .token e => { s with store := tokenStep s.store e }
  | .start warningThresholdMs =>
    match s.monitor.start warningThresholdMs with
    | .error _ => s
    | .ok monitor => { s with monitor := monitor }
  | .stop => { s with monitor := s.monitor.stop }
  | .tick =>
    match s.monitor.checkInterval with
    | none => s
    | some warningThresholdMs =>
      let (monitor, issued) := s.monitor.check s.store.now s.store.registry warningThresholdMs
      { s with monitor := monitor, warnings := s.warnings ++ issued }

section Steps

variable {s : MonitorStore} {threshold : Int}

theorem monitorStep_start_running (h : s.monitor.isRunning = true) :
    monitorStep s (.start threshold) = s := by
  unfold monitorStep ExpiryMonitor.start
  dsimp only
  rw [if_pos h]

theorem monitorStep_start (h : ¬ s.monitor.isRunning = true) :
    monitorStep s (.start threshold) =
      { s with monitor := { s.monitor with checkInterval := some threshold } } := by
  unfold monitorStep ExpiryMonitor.start
  dsimp only
  rw [if_neg h]

theorem monitorStep_idle (h : s.monitor.checkInterval = none) : monitorStep s .tick = s := by
  unfold monitorStep
  rw [h]

theorem monitorStep_tick (h : s.monitor.checkInterval = some threshold) :
    monitorStep s .tick =
      { s with
        monitor := (s.monitor.check s.store.now s.store.registry threshold).1
        warnings :=
          s.warnings ++ (s.monitor.check s.store.now s.store.registry threshold).2 } := by
  unfold monitorStep
  rw [h]

end Steps

/-- A registry and a monitor that have just been created. -/
def MonitorStore.start (now : Int) (cache : Option RevocationCache) : MonitorStore :=
  ⟨⟨now, .new cache⟩, .new, []⟩

/-- The `jti` that the event registers. -/
def MonitorEvent.registers : MonitorEvent → Option String
  | .token e => e.registers
  | _ => none

/-! ## What is promised -/

/-- The warning is about the token. -/
structure ExpiryWarning.Names (w : ExpiryWarning) (entry : TokenEntry) : Prop where
  jti : w.jti = entry.jti
  sessionId : w.sessionId = entry.sessionId
  expiresAt : w.expiresAt = entry.expiresAt

/-- The tick that gives the warning gives it about a registered token, in time. -/
structure ExpiryWarning.Sound (w : ExpiryWarning) (s : MonitorStore) (threshold : Int)
    (entry : TokenEntry) : Prop where
  registered : s.store.registry.get w.jti = some entry
  names : w.Names entry
  remaining : w.remainingMs = entry.expiresAt - s.store.now
  positive : 0 < w.remainingMs
  within : w.remainingMs ≤ threshold

/-- What a step does to the warnings: only a tick gives any, each of them sound;
after a tick every expiring token has had one; and then no token is remembered
that is not registered. -/
structure Dutiful (s : MonitorStore) (e : MonitorEvent) : Prop where
  sound : ∃ issued, (monitorStep s e).warnings = s.warnings ++ issued ∧
    ∀ w ∈ issued, ∃ threshold entry, e = .tick ∧ s.monitor.checkInterval = some threshold ∧
      w.Sound s threshold entry
  complete : ∀ threshold jti entry, e = .tick → s.monitor.checkInterval = some threshold →
    s.store.registry.get jti = some entry → 0 < entry.expiresAt - s.store.now →
    entry.expiresAt - s.store.now ≤ threshold →
      ∃ w ∈ (monitorStep s e).warnings, w.Names entry
  pruned : e = .tick → s.monitor.isRunning = true →
    ∀ jti ∈ (monitorStep s e).monitor.warnedTokens,
      ((monitorStep s e).store.registry.get jti).isSome

/-- Anything but a tick of a running monitor gives no warning. -/
theorem dutiful_silent {s : MonitorStore} {e : MonitorEvent}
    (hwarnings : (monitorStep s e).warnings = s.warnings)
    (hno : ∀ threshold, e = .tick → s.monitor.checkInterval ≠ some threshold) : Dutiful s e := by
  refine ⟨⟨[], hwarnings.trans (List.append_nil _).symm, fun w hw => absurd hw List.not_mem_nil⟩,
    fun threshold jti entry he hrunning => absurd hrunning (hno threshold he),
    fun he hrunning => ?_⟩
  obtain ⟨threshold, hthreshold⟩ := Option.isSome_iff_exists.mp hrunning
  exact absurd hthreshold (hno threshold he)

/-! ## The invariant -/

/-- A token comes into the registry by its registration only. -/
theorem get_tokenRegistryStep {now : Int} {r : TokenRegistry} {e : TokenEvent} {jti : String}
    {entry : TokenEntry} (h : (tokenRegistryStep now r e).get jti = some entry) :
    r.get jti = some entry ∨ e.registers = some jti := by
  have hfilter {p : TokenEntry → Bool} (hp : (r.get jti).filter p = some entry) :
      r.get jti = some entry :=
    (Option.filter_eq_some_iff.mp hp).1
  cases e with
  | register x =>
    have hx : (r.register x).get jti = some entry := h
    rw [TokenRegistry.get_register] at hx
    by_cases hj : jti = x.jti
    · right
      rw [hj]
      rfl
    · left
      rw [if_neg hj] at hx
      exact hx
  | revoke jti' reason => exact .inl (hfilter ((r.get_revoke now jti' jti reason).symm.trans h))
  | revokeBySession sessionId reason =>
    exact .inl (hfilter ((r.get_revokeBySession now sessionId reason jti).symm.trans h))
  | revokeByOperator operatorDid reason =>
    exact .inl (hfilter ((r.get_revokeByOperator now operatorDid reason jti).symm.trans h))
  | cleanup => exact .inl (hfilter ((r.get_cleanup now jti).symm.trans h))
  | isValid jti' =>
    left
    rw [TokenRegistry.get, ← TokenRegistry.tokens_isValid r now jti']
    exact h
  | forget jti' => exact .inl h
  | elapse ms => exact .inl h

/-- The warnings, against what has been registered, what is and what the monitor
remembers. -/
structure Warned (es : List MonitorEvent) (s : MonitorStore) : Prop where
  registered : ∀ jti entry, s.store.registry.get jti = some entry →
    jti ∈ es.filterMap MonitorEvent.registers
  known : ∀ w ∈ s.warnings, w.jti ∈ es.filterMap MonitorEvent.registers
  once : (s.warnings.map ExpiryWarning.jti).Nodup
  remembered : ∀ w ∈ s.warnings, ∀ entry, s.store.registry.get w.jti = some entry →
    w.jti ∈ s.monitor.warnedTokens ∧ w.Names entry
  warned : ∀ jti ∈ s.monitor.warnedTokens, ∃ w ∈ s.warnings, w.jti = jti

section Step

variable {es : List MonitorEvent} {s : MonitorStore} (h : Warned es s)

include h

/-- An event of the registry or the clock. -/
theorem warned_token {e : TokenEvent}
    (hnew : ∀ jti, e.registers = some jti → jti ∉ es.filterMap MonitorEvent.registers) :
    Warned (es ++ [.token e]) (monitorStep s (.token e)) := by
  have hold {jti : String} (hj : jti ∈ es.filterMap MonitorEvent.registers) :
      jti ∈ (es ++ [MonitorEvent.token e]).filterMap MonitorEvent.registers := by
    rw [List.filterMap_append]
    exact List.mem_append_left _ hj
  refine ⟨fun jti entry hget => ?_, fun w hw => hold (h.known w hw), h.once,
    fun w hw entry hget => ?_, h.warned⟩
  · rcases get_tokenRegistryStep hget with hbefore | hregisters
    · exact hold (h.registered jti entry hbefore)
    · exact List.mem_filterMap.mpr ⟨.token e, by simp, hregisters⟩
  · -- a token that has had its warning has been registered, so this is no registration of it
    rcases get_tokenRegistryStep hget with hbefore | hregisters
    · exact h.remembered w hw entry hbefore
    · exact absurd (h.known w hw) (hnew w.jti hregisters)

/-- An event of the monitor that leaves what it remembers. -/
theorem warned_same {e : MonitorEvent} (hregisters : e.registers = none) {t : MonitorStore}
    (hstore : t.store = s.store) (hwarned : t.monitor.warnedTokens = s.monitor.warnedTokens)
    (hwarnings : t.warnings = s.warnings) : Warned (es ++ [e]) t := by
  have hsame : (es ++ [e]).filterMap MonitorEvent.registers =
      es.filterMap MonitorEvent.registers := by
    rw [List.filterMap_append, List.filterMap_cons_none hregisters]
    exact List.append_nil _
  refine ⟨?_, ?_, ?_, ?_, ?_⟩
  · rw [hsame, hstore]
    exact h.registered
  · rw [hsame, hwarnings]
    exact h.known
  · rw [hwarnings]
    exact h.once
  · rw [hstore, hwarned, hwarnings]
    exact h.remembered
  · rw [hwarned, hwarnings]
    exact h.warned

/-- The warnings of a tick are about tokens that have had none. -/
theorem once_tick {threshold : Int} :
    ((s.warnings ++ (s.monitor.check s.store.now s.store.registry threshold).2).map
      ExpiryWarning.jti).Nodup := by
  rw [List.map_append, ExpiryMonitor.map_jti_check]
  refine List.nodup_append.mpr ⟨h.once, ExpiryMonitor.nodup_due, fun jti hold jti' hnew => ?_⟩
  obtain ⟨w, hw, rfl⟩ := List.mem_map.mp hold
  obtain ⟨entry, hdue, rfl⟩ := List.mem_map.mp hnew
  obtain ⟨hfresh, hget, -, -⟩ := ExpiryMonitor.mem_due.mp hdue
  intro heq
  rw [← heq] at hfresh hget
  exact hfresh (h.remembered w hw entry hget).1

theorem warned_tick {threshold : Int} (hrunning : s.monitor.checkInterval = some threshold) :
    Warned (es ++ [.tick]) (monitorStep s .tick) := by
  have hsame : (es ++ [MonitorEvent.tick]).filterMap MonitorEvent.registers =
      es.filterMap MonitorEvent.registers := by
    rw [List.filterMap_append]
    exact List.append_nil _
  rw [monitorStep_tick hrunning]
  refine ⟨?_, fun w hw => ?_, once_tick h, fun w hw entry hget => ?_, fun jti hmem => ?_⟩
  · rw [hsame]
    exact h.registered
  · rw [hsame]
    rcases List.mem_append.mp hw with hold | hnew
    · exact h.known w hold
    · obtain ⟨entry, hdue, rfl⟩ := ExpiryMonitor.mem_check_warnings.mp hnew
      exact h.registered _ _ (ExpiryMonitor.mem_due.mp hdue).2.1
  · -- what is registered is not pruned
    have hregistered : (s.store.registry.get w.jti).isSome := by
      show (s.store.registry.get w.jti).isSome = true
      rw [hget]
      rfl
    rcases List.mem_append.mp hw with hold | hnew
    · obtain ⟨hmem, hnames⟩ := h.remembered w hold entry hget
      exact ⟨ExpiryMonitor.mem_check_warnedTokens.mpr ⟨.inl hmem, hregistered⟩, hnames⟩
    · obtain ⟨entry', hdue, rfl⟩ := ExpiryMonitor.mem_check_warnings.mp hnew
      have hget' := (ExpiryMonitor.mem_due.mp hdue).2.1
      obtain rfl : entry' = entry := Option.some.inj (hget'.symm.trans hget)
      exact ⟨ExpiryMonitor.mem_check_warnedTokens.mpr ⟨.inr ⟨_, hdue, rfl⟩, hregistered⟩,
        rfl, rfl, rfl⟩
  · rcases (ExpiryMonitor.mem_check_warnedTokens.mp hmem).1 with hold | ⟨entry, hdue, rfl⟩
    · obtain ⟨w, hw, hjti⟩ := h.warned jti hold
      exact ⟨w, List.mem_append_left _ hw, hjti⟩
    · have hnew := ExpiryMonitor.mem_check_warnings.mpr ⟨entry, hdue, rfl⟩
      exact ⟨_, List.mem_append_right _ hnew, rfl⟩

theorem warned_step {e : MonitorEvent}
    (hnew : ∀ jti, e.registers = some jti → jti ∉ es.filterMap MonitorEvent.registers) :
    Warned (es ++ [e]) (monitorStep s e) := by
  cases e with
  | token e => exact warned_token h hnew
  | start threshold =>
    by_cases hrunning : s.monitor.isRunning
    · rw [monitorStep_start_running hrunning]
      exact warned_same h rfl rfl rfl rfl
    · rw [monitorStep_start hrunning]
      exact warned_same h rfl rfl rfl rfl
  | stop => exact warned_same h rfl rfl rfl rfl
  | tick =>
    cases hrunning : s.monitor.checkInterval with
    | none =>
      rw [monitorStep_idle hrunning]
      exact warned_same h rfl rfl rfl rfl
    | some threshold => exact warned_tick h hrunning

theorem dutiful_tick {threshold : Int} (hrunning : s.monitor.checkInterval = some threshold) :
    Dutiful s .tick := by
  refine ⟨⟨_, by rw [monitorStep_tick hrunning], fun w hw => ?_⟩,
    fun threshold' jti entry _ hrunning' hget hpos hle => ?_, fun _ _ jti hmem => ?_⟩
  · obtain ⟨entry, hdue, rfl⟩ := ExpiryMonitor.mem_check_warnings.mp hw
    obtain ⟨-, hget, hlow, hhigh⟩ := ExpiryMonitor.mem_due.mp hdue
    refine ⟨threshold, entry, rfl, hrunning, hget, ⟨rfl, rfl, rfl⟩, rfl, ?_, ?_⟩
    · show 0 < entry.expiresAt - s.store.now
      omega
    · show entry.expiresAt - s.store.now ≤ threshold
      omega
  · obtain rfl : threshold = threshold' := Option.some.inj (hrunning.symm.trans hrunning')
    have hkey := s.store.registry.keyed jti entry hget
    rw [monitorStep_tick hrunning]
    by_cases hmem : entry.jti ∈ s.monitor.warnedTokens
    · -- it is remembered, so it has had its warning
      obtain ⟨w, hw, hjti⟩ := h.warned entry.jti hmem
      rw [hkey] at hjti
      rw [← hjti] at hget
      exact ⟨w, List.mem_append_left _ hw, (h.remembered w hw entry hget).2⟩
    · have hdue : entry ∈ s.monitor.due s.store.now s.store.registry threshold := by
        refine ExpiryMonitor.mem_due.mpr ⟨hmem, ?_, ?_, ?_⟩
        · rw [hkey]
          exact hget
        · omega
        · omega
      have hnew := ExpiryMonitor.mem_check_warnings.mpr ⟨entry, hdue, rfl⟩
      exact ⟨_, List.mem_append_right _ hnew, rfl, rfl, rfl⟩
  · rw [monitorStep_tick hrunning] at hmem ⊢
    exact (ExpiryMonitor.mem_check_warnedTokens.mp hmem).2

theorem dutiful_step (e : MonitorEvent) : Dutiful s e := by
  cases e with
  | token e => exact dutiful_silent rfl fun _ he => by cases he
  | start threshold =>
    refine dutiful_silent ?_ fun _ he => by cases he
    by_cases hrunning : s.monitor.isRunning
    · rw [monitorStep_start_running hrunning]
    · rw [monitorStep_start hrunning]
  | stop => exact dutiful_silent rfl fun _ he => by cases he
  | tick =>
    cases hrunning : s.monitor.checkInterval with
    | none =>
      refine dutiful_silent (by rw [monitorStep_idle hrunning]) fun threshold _ hsome => ?_
      rw [hrunning] at hsome
      cases hsome
    | some threshold => exact dutiful_tick h hrunning

end Step

/-! ## Runs -/

theorem warned_start (now : Int) (cache : Option RevocationCache) :
    Warned [] (.start now cache) := by
  refine ⟨fun jti entry hget => ?_, fun w hw => ?_, List.nodup_nil, fun w hw => ?_,
    fun jti hmem => ?_⟩
  · cases hget
  · cases hw
  · cases hw
  · cases hmem

theorem warned_steps (now : Int) (cache : Option RevocationCache) (es : List MonitorEvent)
    (hjtis : (es.filterMap MonitorEvent.registers).Nodup) :
    Warned es (run monitorStep (.start now cache) es) ∧
      Steps monitorStep Dutiful (.start now cache) es := by
  induction es using List.reverseRecOn with
  | nil => exact ⟨warned_start now cache, trivial⟩
  | append_singleton es e ih =>
    rw [List.filterMap_append] at hjtis
    obtain ⟨hbefore, -, hdisjoint⟩ := List.nodup_append.mp hjtis
    obtain ⟨hwarned, hsteps⟩ := ih hbefore
    -- the last event registers nothing that an earlier one has registered
    have hnew (jti : String) (hregisters : e.registers = some jti) :
        jti ∉ es.filterMap MonitorEvent.registers := by
      intro hin
      have hmem : jti ∈ [e].filterMap MonitorEvent.registers :=
        List.mem_filterMap.mpr ⟨e, List.mem_singleton_self e, hregisters⟩
      exact hdisjoint jti hin jti hmem rfl
    rw [run_append]
    exact ⟨warned_step hwarned hnew, steps_append.mpr ⟨hsteps, dutiful_step hwarned e, trivial⟩⟩

/-- When no `jti` is registered twice, no token is warned about twice, and every
step of the run does its duty. -/
theorem warnings_run (now : Int) (cache : Option RevocationCache) (es : List MonitorEvent)
    (hjtis : (es.filterMap MonitorEvent.registers).Nodup) :
    ((run monitorStep (.start now cache) es).warnings.map ExpiryWarning.jti).Nodup ∧
      Steps monitorStep Dutiful (.start now cache) es := by
  obtain ⟨hwarned, hsteps⟩ := warned_steps now cache es hjtis
  exact ⟨hwarned.once, hsteps⟩

/-- Two tokens, one revoked after its warning, with a restart in between. -/
def monitorSample : List MonitorEvent :=
  [.token (.register ⟨"tok_1", "ses_1", .str "did:key:op", .str "robot-1", 25000⟩),
    .start 30000, .tick, .stop, .start 60000,
    .token (.register ⟨"tok_2", "ses_2", .str "did:key:op", .str "robot-1", 50000⟩),
    .token (.revokeBySession "ses_1" none), .tick, .token (.elapse 1000), .tick]

theorem warnings_run_sample :
    ((run monitorStep (.start 0 none) monitorSample).warnings.map ExpiryWarning.jti).Nodup ∧
      Steps monitorStep Dutiful (.start 0 none) monitorSample :=
  warnings_run 0 none monitorSample (by decide)

/-- Each token has had its warning, and only the second is still remembered. -/
example : (run monitorStep (.start 0 none) monitorSample).warnings =
      [⟨"tok_1", "ses_1", 25000, 25000⟩, ⟨"tok_2", "ses_2", 50000, 50000⟩] ∧
    (run monitorStep (.start 0 none) monitorSample).monitor.warnedTokens = ["tok_2"] := by
  decide

end ChainKVM.Gateway
