import Mathlib.Data.List.Perm.Basic
import ChainKVM.Lib.Machine

/-!
# A log that is appended to by rewriting it

A shared list without an append of its own: to append, one reads the list,
pushes the item and writes the result back. Calls are not synchronised, so
between the read and the write of one call any number of others may do either.

An item is lost when a call writes a list that it read before another call's
write. The main result says that nothing else loses one: once all calls are
done, the log holds what it held at the start and every appended item, each as
often as it was appended, iff no call read while another stood between its
read and its write (`kept_iff`).

One direction keeps the items together that are in the log or under way
(`Log.outstanding`). The other counts: without a race the log ends as long as
its start and the appended items together (`Bound`), and after a race it ends
shorter (`Lossy`).
-/

namespace ChainKVM.SharedLog

open Machine (run Steps)

variable {α : Type}

/-! ## The machine -/

/-- A call under way, with the list it read. -/
structure Call (α : Type) where
  item : α
  snapshot : Option (List α)

/-- The log and the calls under way. -/
structure Log (α : Type) where
  content : List α
  calls : List (Call α)

/-- A call starts; the `i`-th call reads; the `i`-th call writes; somebody looks
at the log. -/
inductive Move (α : Type) where
  | append (item : α)
  | read (i : Nat)
  | write (i : Nat)
  | look

/-- A call reads once, then writes once and is done. -/
def step (s : Log α) : Move α → Log α
  | .append x => { s with calls := s.calls ++ [⟨x, none⟩] }
  | .read i =>
    match s.calls[i]? with
    | some ⟨x, none⟩ => { s with calls := s.calls.set i ⟨x, some s.content⟩ }
    | _ => s
  | .write i =>
    match s.calls[i]? with
    | some ⟨x, some snapshot⟩ => ⟨snapshot ++ [x], s.calls.eraseIdx i⟩
    | _ => s
  | .look => s

/-- What has been read and not yet written back. -/
def Log.snapshots (s : Log α) : List (List α) := s.calls.filterMap Call.snapshot

/-- The items in the log or under way. -/
def Log.outstanding (s : Log α) : List α := s.content ++ s.calls.map Call.item

/-- The move is the read of a call while another stands between its read and
its write. -/
def racing (s : Log α) : Move α → Bool
  | .read i =>
    match s.calls[i]? with
    | some ⟨_, none⟩ => !s.snapshots.isEmpty
    | _ => false
  | _ => false

theorem snapshots_some {calls rest : List (Call α)} {x : α} {snapshot : List α}
    (h : calls.Perm (⟨x, some snapshot⟩ :: rest)) :
    (calls.filterMap Call.snapshot).Perm (snapshot :: rest.filterMap Call.snapshot) :=
  h.filterMap Call.snapshot

theorem snapshots_none {calls rest : List (Call α)} {x : α} (h : calls.Perm (⟨x, none⟩ :: rest)) :
    (calls.filterMap Call.snapshot).Perm (rest.filterMap Call.snapshot) :=
  h.filterMap Call.snapshot

/-- The item that a move brings in. -/
def appended : Move α → Option α
  | .append x => some x
  | _ => none

theorem filterMap_appended (m : Move α) (es : List (Move α)) :
    (m :: es).filterMap appended = (appended m).toList ++ es.filterMap appended := by
  rw [List.filterMap_cons]
  cases appended m <;> rfl

/-- The four things a move can be. -/
inductive Moved (s : Log α) : Move α → Log α → Prop
  | append (x : α) : Moved s (.append x) { s with calls := s.calls ++ [⟨x, none⟩] }
  | read (i : Nat) (x : α) (rest calls : List (Call α)) :
      s.calls.Perm (⟨x, none⟩ :: rest) → calls.Perm (⟨x, some s.content⟩ :: rest) →
      racing s (.read i) = !s.snapshots.isEmpty → Moved s (.read i) { s with calls := calls }
  | write (i : Nat) (x : α) (snapshot : List α) (rest : List (Call α)) :
      s.calls.Perm (⟨x, some snapshot⟩ :: rest) → Moved s (.write i) ⟨snapshot ++ [x], rest⟩
  | idle (m : Move α) : appended m = none → racing s m = false → Moved s m s

theorem moved (s : Log α) (m : Move α) : Moved s m (step s m) := by
  cases m with
  | append x => exact .append x
  | look => exact .idle _ rfl rfl
  | read i =>
    cases hi : s.calls[i]? with
    | none =>
      have hstep : step s (.read i) = s := by simp only [step, hi]
      rw [hstep]
      exact .idle _ rfl (by simp only [racing, hi])
    | some call =>
      obtain ⟨hlt, hget⟩ := List.getElem?_eq_some_iff.mp hi
      obtain ⟨x, snapshot⟩ := call
      cases snapshot with
      | some snapshot =>
        have hstep : step s (.read i) = s := by simp only [step, hi]
        rw [hstep]
        exact .idle _ rfl (by simp only [racing, hi])
      | none =>
        have hstep : step s (.read i) =
            { s with calls := s.calls.set i ⟨x, some s.content⟩ } := by simp only [step, hi]
        rw [hstep]
        -- the order of the calls does not matter, so this one may stand first
        refine .read i x (s.calls.eraseIdx i) _ ?_ (List.set_perm_cons_eraseIdx hlt _)
          (by simp only [racing, hi])
        rw [← hget]
        exact (List.getElem_cons_eraseIdx_perm hlt).symm
  | write i =>
    cases hi : s.calls[i]? with
    | none =>
      have hstep : step s (.write i) = s := by simp only [step, hi]
      rw [hstep]
      exact .idle _ rfl rfl
    | some call =>
      obtain ⟨hlt, hget⟩ := List.getElem?_eq_some_iff.mp hi
      obtain ⟨x, snapshot⟩ := call
      cases snapshot with
      | none =>
        have hstep : step s (.write i) = s := by simp only [step, hi]
        rw [hstep]
        exact .idle _ rfl rfl
      | some snapshot =>
        have hstep : step s (.write i) = ⟨snapshot ++ [x], s.calls.eraseIdx i⟩ := by
          simp only [step, hi]
        rw [hstep]
        refine .write i x snapshot _ ?_
        rw [← hget]
        exact (List.getElem_cons_eraseIdx_perm hlt).symm

/-! ## Without a race -/

/-- At most one call stands between its read and its write, and what it read
is what the log holds. -/
structure Orderly (s : Log α) : Prop where
  one : s.snapshots.length ≤ 1
  current : ∀ snapshot ∈ s.snapshots, snapshot = s.content

theorem orderly_step {s : Log α} (h : Orderly s) {m : Move α} (hm : racing s m = false) :
    Orderly (step s m) ∧
      (step s m).outstanding.Perm (s.outstanding ++ (appended m).toList) := by
  have hmoved := moved s m
  generalize step s m = s' at hmoved ⊢
  cases hmoved with
  | append x =>
    have hsame : Log.snapshots { s with calls := s.calls ++ [⟨x, none⟩] } = s.snapshots := by
      simp [Log.snapshots]
    refine ⟨⟨?_, ?_⟩, ?_⟩
    · rw [hsame]
      exact h.one
    · rw [hsame]
      exact h.current
    · simp [Log.outstanding, appended]
  | read i x rest calls hold hnew hracing =>
    -- nobody else stands between read and write, so this call is the only one
    rw [hracing, Bool.not_eq_false', List.isEmpty_iff] at hm
    have hrest : rest.filterMap Call.snapshot = [] := by
      have hperm : s.snapshots.Perm (rest.filterMap Call.snapshot) := snapshots_none hold
      rw [hm] at hperm
      exact hperm.symm.eq_nil
    have hsnapshots : (Log.snapshots { s with calls := calls }).Perm [s.content] := by
      have hperm := snapshots_some hnew
      rw [hrest] at hperm
      exact hperm
    refine ⟨⟨?_, ?_⟩, ?_⟩
    · rw [hsnapshots.length_eq]
      exact Nat.le_refl _
    · intro snapshot hmem
      exact List.mem_singleton.mp (hsnapshots.mem_iff.mp hmem)
    · have hitems : (calls.map Call.item).Perm (s.calls.map Call.item) :=
        (hnew.map Call.item).trans (hold.map Call.item).symm
      show (s.content ++ calls.map Call.item).Perm (s.content ++ s.calls.map Call.item ++ [])
      rw [List.append_nil]
      exact hitems.append_left _
  | write i x snapshot rest hold =>
    have hperm : s.snapshots.Perm (snapshot :: rest.filterMap Call.snapshot) :=
      snapshots_some hold
    have hrest : rest.filterMap Call.snapshot = [] := by
      have hone := h.one
      rw [hperm.length_eq, List.length_cons] at hone
      exact List.eq_nil_of_length_eq_zero (by omega)
    -- it writes what the log holds, with its item added
    have hcurrent := h.current snapshot (hperm.mem_iff.mpr List.mem_cons_self)
    have hnone : Log.snapshots ⟨snapshot ++ [x], rest⟩ = [] := hrest
    refine ⟨⟨?_, ?_⟩, ?_⟩
    · rw [hnone]
      exact Nat.zero_le _
    · rw [hnone]
      exact fun _ hmem => absurd hmem List.not_mem_nil
    · show (snapshot ++ [x] ++ rest.map Call.item).Perm (s.content ++ s.calls.map Call.item ++ [])
      rw [List.append_nil, hcurrent, List.append_assoc]
      exact (hold.map Call.item).symm.append_left _
  | idle _ hnone _ =>
    refine ⟨h, ?_⟩
    rw [hnone]
    exact .of_eq (List.append_nil _).symm

theorem outstanding_run {s : Log α} (h : Orderly s) {es : List (Move α)}
    (hsteps : Steps step (fun s m => racing s m = false) s es) :
    (run step s es).outstanding.Perm (s.outstanding ++ es.filterMap appended) := by
  induction es generalizing s with
  | nil => exact .of_eq (List.append_nil _).symm
  | cons m es ih =>
    obtain ⟨horderly, hperm⟩ := orderly_step h hsteps.1
    have hrest := ih horderly hsteps.2
    rw [filterMap_appended, ← List.append_assoc]
    exact hrest.trans (hperm.append_right _)

/-! ## With a race -/

/-- However the calls go on, the log will not get longer than `n`: not from
what it holds now, and not from what a call has read. -/
structure Bound (n : Nat) (s : Log α) : Prop where
  content : s.content.length + s.calls.length ≤ n
  snapshots : ∀ snapshot ∈ s.snapshots, snapshot.length + s.calls.length ≤ n

/-- The log will stay shorter than `n`: it is so bound already, or a call that
will make it so has read, or two calls have. The one of them that writes first
is overwritten. -/
def Lossy (n : Nat) (s : Log α) : Prop :=
  (∃ k, k + 1 ≤ n ∧ Bound k s) ∨
    Bound n s ∧ ((∃ snapshot ∈ s.snapshots, snapshot.length + s.calls.length + 1 ≤ n) ∨
      2 ≤ s.snapshots.length)

theorem bound_step {n : Nat} {s : Log α} (h : Bound n s) (m : Move α) :
    Bound (n + (appended m).toList.length) (step s m) := by
  have hmoved := moved s m
  generalize step s m = s' at hmoved ⊢
  have hcontent := h.content
  cases hmoved with
  | append x =>
    refine ⟨?_, fun snapshot hmem => ?_⟩
    · show s.content.length + (s.calls ++ [(⟨x, none⟩ : Call α)]).length ≤ n + 1
      rw [List.length_append, List.length_singleton]
      omega
    · have hin : snapshot ∈ s.snapshots := by simpa [Log.snapshots] using hmem
      have hle := h.snapshots snapshot hin
      show snapshot.length + (s.calls ++ [(⟨x, none⟩ : Call α)]).length ≤ n + 1
      rw [List.length_append, List.length_singleton]
      omega
  | read i x rest calls hold hnew _ =>
    have hlength : calls.length = s.calls.length := (hnew.length_eq).trans hold.length_eq.symm
    refine ⟨?_, fun snapshot hmem => ?_⟩
    · show s.content.length + calls.length ≤ n + 0
      omega
    · show snapshot.length + calls.length ≤ n + 0
      -- what is read now is what the log holds, which is bound as well
      rcases List.mem_cons.mp ((snapshots_some hnew).mem_iff.mp hmem) with rfl | hmem
      · omega
      · have hle := h.snapshots snapshot ((snapshots_none hold).mem_iff.mpr hmem)
        omega
  | write i x snapshot rest hold =>
    have hlength : s.calls.length = rest.length + 1 := hold.length_eq
    have hperm : s.snapshots.Perm _ := snapshots_some hold
    refine ⟨?_, fun snapshot' hmem => ?_⟩
    · have hle := h.snapshots snapshot (hperm.mem_iff.mpr List.mem_cons_self)
      show (snapshot ++ [x]).length + rest.length ≤ n + 0
      rw [List.length_append, List.length_singleton]
      omega
    · have hle := h.snapshots snapshot' (hperm.mem_iff.mpr (List.mem_cons_of_mem _ hmem))
      show snapshot'.length + rest.length ≤ n + 0
      omega
  | idle _ hnone _ =>
    rw [hnone]
    exact h

/-- A race leaves two calls that have read. -/
theorem lossy_of_racing {n : Nat} {s : Log α} (h : Bound n s) {m : Move α}
    (hm : racing s m = true) : Lossy (n + (appended m).toList.length) (step s m) := by
  have hbound := bound_step h m
  refine .inr ⟨hbound, .inr ?_⟩
  have hmoved := moved s m
  generalize step s m = s' at hmoved ⊢
  cases hmoved with
  | append x => cases hm
  | write i x snapshot rest hold => cases hm
  | idle _ _ hnot =>
    rw [hm] at hnot
    cases hnot
  | read i x rest calls hold hnew hracing =>
    rw [hracing, Bool.not_eq_true', List.isEmpty_eq_false_iff] at hm
    have hlength : (calls.filterMap Call.snapshot).length = s.snapshots.length + 1 := by
      rw [(snapshots_some hnew).length_eq, List.length_cons, (snapshots_none hold).symm.length_eq]
      rfl
    have hpos := List.length_pos_iff.mpr hm
    show 2 ≤ (calls.filterMap Call.snapshot).length
    omega

theorem lossy_step {n : Nat} {s : Log α} (h : Lossy n s) (m : Move α) :
    Lossy (n + (appended m).toList.length) (step s m) := by
  rcases h with ⟨k, hk, hbound⟩ | ⟨hbound, hreaders⟩
  · exact .inl ⟨k + (appended m).toList.length, by omega, bound_step hbound m⟩
  · have hafter := bound_step hbound m
    have hmoved := moved s m
    generalize step s m = s' at hmoved hafter ⊢
    cases hmoved with
    | append x =>
      have hsame : Log.snapshots { s with calls := s.calls ++ [⟨x, none⟩] } = s.snapshots := by
        simp [Log.snapshots]
      refine .inr ⟨hafter, ?_⟩
      rw [hsame]
      refine hreaders.imp_left ?_
      rintro ⟨snapshot, hmem, hlt⟩
      refine ⟨snapshot, hmem, ?_⟩
      show snapshot.length + (s.calls ++ [(⟨x, none⟩ : Call α)]).length + 1 ≤ n + 1
      rw [List.length_append, List.length_singleton]
      omega
    | read i x rest calls hold hnew _ =>
      have hlength : calls.length = s.calls.length := (hnew.length_eq).trans hold.length_eq.symm
      have hperm : (calls.filterMap Call.snapshot).Perm (s.content :: s.snapshots) :=
        (snapshots_some hnew).trans ((snapshots_none hold).symm.cons _)
      refine .inr ⟨hafter, hreaders.imp ?_ fun htwo => ?_⟩
      · rintro ⟨snapshot, hmem, hlt⟩
        refine ⟨snapshot, hperm.mem_iff.mpr (List.mem_cons_of_mem _ hmem), ?_⟩
        show snapshot.length + calls.length + 1 ≤ n + 0
        omega
      · show 2 ≤ (calls.filterMap Call.snapshot).length
        rw [hperm.length_eq, List.length_cons]
        omega
    | write i x snapshot rest hold =>
      have hlength : s.calls.length = rest.length + 1 := hold.length_eq
      have hperm : s.snapshots.Perm (snapshot :: rest.filterMap Call.snapshot) :=
        snapshots_some hold
      -- a call that writes takes what it had read for what the log holds
      rcases hreaders with ⟨short, hmem, hlt⟩ | htwo
      · rcases List.mem_cons.mp (hperm.mem_iff.mp hmem) with rfl | hmem
        · -- the call that had read too little has written it
          refine .inl ⟨n - 1, by omega, ?_, fun snapshot' hmem' => ?_⟩
          · show (short ++ [x]).length + rest.length ≤ n - 1
            rw [List.length_append, List.length_singleton]
            omega
          · have hle := hbound.snapshots snapshot' (hperm.mem_iff.mpr (List.mem_cons_of_mem _ hmem'))
            show snapshot'.length + rest.length ≤ n - 1
            omega
        · refine .inr ⟨hafter, .inl ⟨short, hmem, ?_⟩⟩
          show short.length + rest.length + 1 ≤ n + 0
          omega
      · -- the other call will overwrite this one
        rw [hperm.length_eq, List.length_cons] at htwo
        obtain ⟨other, hother⟩ := List.exists_mem_of_length_pos (l := rest.filterMap Call.snapshot)
          (by omega)
        have hle := hbound.snapshots other (hperm.mem_iff.mpr (List.mem_cons_of_mem _ hother))
        refine .inr ⟨hafter, .inl ⟨other, hother, ?_⟩⟩
        show other.length + rest.length + 1 ≤ n + 0
        omega
    | idle _ hnone _ =>
      rw [hnone]
      exact .inr ⟨hbound, hreaders⟩

theorem lossy_run {n : Nat} {s : Log α} (h : Lossy n s) (es : List (Move α)) :
    Lossy (n + (es.filterMap appended).length) (run step s es) := by
  induction es generalizing n s with
  | nil => exact h
  | cons m es ih =>
    have hrest := ih (lossy_step h m)
    rw [filterMap_appended, List.length_append, ← Nat.add_assoc]
    exact hrest

theorem lossy_of_race {n : Nat} {s : Log α} (h : Bound n s) {es : List (Move α)}
    (hrace : ¬ Steps step (fun s m => racing s m = false) s es) :
    Lossy (n + (es.filterMap appended).length) (run step s es) := by
  induction es generalizing n s with
  | nil => exact absurd trivial hrace
  | cons m es ih =>
    rw [filterMap_appended, List.length_append, ← Nat.add_assoc]
    by_cases hm : racing s m = true
    · exact lossy_run (lossy_of_racing h hm) es
    · refine ih (bound_step h m) fun hsteps => hrace ⟨Bool.eq_false_iff.mpr hm, hsteps⟩

/-- A log that is bound to stay shorter, with no calls under way, is. -/
theorem Lossy.lt {n : Nat} {s : Log α} (h : Lossy n s) (hdone : s.calls = []) :
    s.content.length < n := by
  have hnone : s.snapshots = [] := by
    rw [Log.snapshots, hdone]
    rfl
  rcases h with ⟨k, hk, hbound⟩ | ⟨-, ⟨snapshot, hmem, -⟩ | htwo⟩
  · have hle := hbound.content
    omega
  · rw [hnone] at hmem
    cases hmem
  · rw [hnone] at htwo
    cases htwo

/-- Once all calls are done, the log holds what it held and every appended
item iff no call read while another stood between its read and its write. -/
theorem kept_iff {content : List α} {es : List (Move α)}
    (hdone : (run step ⟨content, []⟩ es).calls = []) :
    (run step ⟨content, []⟩ es).content.Perm
        (content ++ es.filterMap appended) ↔
      Steps step (fun s m => racing s m = false) ⟨content, []⟩ es := by
  constructor
  · intro hperm
    by_cases hsteps : Steps step (fun s m => racing s m = false) ⟨content, []⟩ es
    · exact hsteps
    · have hbound : Bound content.length (⟨content, []⟩ : Log α) :=
        ⟨Nat.le_refl _, fun _ hmem => absurd hmem List.not_mem_nil⟩
      have hlt := (lossy_of_race hbound hsteps).lt hdone
      rw [hperm.length_eq, List.length_append] at hlt
      omega
  · intro hsteps
    have horderly : Orderly (⟨content, []⟩ : Log α) :=
      ⟨Nat.zero_le _, fun _ hmem => absurd hmem List.not_mem_nil⟩
    have hperm := outstanding_run horderly hsteps
    have hstart : (⟨content, []⟩ : Log α).outstanding = content := List.append_nil _
    rw [Log.outstanding, hdone, List.map_nil, List.append_nil, hstart] at hperm
    exact hperm

end ChainKVM.SharedLog
