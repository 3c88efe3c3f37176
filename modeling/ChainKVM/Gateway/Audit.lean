import ChainKVM.Lib.Indices

/-!
# The audit route: `routes/audit.ts`

`GET /v1/audit/events` filters the events and cuts a page out of what is left.
The route declares no schema, so `page` and `page_size` are texts when they are
given and numbers when the defaults stand in. `(page - 1) * page_size` makes
numbers of texts; `startIdx + page_size` puts texts together.

`pages_hold_iff`: the pages are the filtered list cut into pieces exactly when
the default size is used or two pages are enough.
-/

namespace ChainKVM.Gateway

open Js (Val)

/-! ## Events and queries -/

/-- `AuditEventType`. -/
inductive AuditEventType where
  | sessionRequested
  | sessionGranted
  | sessionStarted
  | sessionEnded
  | sessionRevoked
  | privilegedAction
  deriving DecidableEq, Repr

def AuditEventType.text : AuditEventType → String
  | .sessionRequested => "SESSION_REQUESTED"
  | .sessionGranted => "SESSION_GRANTED"
  | .sessionStarted => "SESSION_STARTED"
  | .sessionEnded => "SESSION_ENDED"
  | .sessionRevoked => "SESSION_REVOKED"
  | .privilegedAction => "PRIVILEGED_ACTION"

/-- `AuditEvent`. -/
structure AuditEvent where
  eventId : String
  timestamp : String
  robotId : String
  operatorDid : String
  sessionId : String
  eventType : AuditEventType
  metadata : List (String × Val)

/-- What the query string holds for a parameter: nothing, a text, or the texts
of a parameter that is repeated. -/
inductive QueryValue where
  | missing
  | one (s : String)
  | many (items : List String)

def QueryValue.toVal : QueryValue → Val
  | .missing => .undefined
  | .one s => .str s
  | .many items => .arr (items.map .str)

/-- `{ param = n }`: a parameter with a default. -/
def QueryValue.orDefault (v : QueryValue) (n : Nat) : Val :=
  match v with
  | .missing => .num (.fin n)
  | v => v.toVal

/-- `AuditQueryParams`, as the query string gives them. -/
structure AuditQueryParams where
  sessionId : QueryValue
  robotId : QueryValue
  actorDid : QueryValue
  eventType : QueryValue
  fromTime : QueryValue
  toTime : QueryValue
  page : QueryValue
  pageSize : QueryValue

/-- A query without parameters. -/
def AuditQueryParams.all : AuditQueryParams :=
  ⟨.missing, .missing, .missing, .missing, .missing, .missing, .missing, .missing⟩

/-- `AuditEventsResponse`. -/
structure AuditEventsResponse where
  events : List AuditEvent
  total : Nat
  page : Val
  pageSize : Val

/-- `stubEvents`, loaded at `now`. -/
def stubEvents (now : Int) : List AuditEvent :=
  [⟨"evt_stub_001", Js.isoString (now - 3600000), "robot-001",
      "did:key:z6MkhaXgBZDvotDkL5257faiztiGiC2QtKLGpbnnEGta2doK", "ses_stub_001",
      .sessionGranted,
      [("policy_id", .str "default-policy"), ("policy_version", .str "1.0.0"),
        ("effective_scope", .arr [.str "teleop:view", .str "teleop:control"])]⟩,
    ⟨"evt_stub_002", Js.isoString (now - 3500000), "robot-001",
      "did:key:z6MkhaXgBZDvotDkL5257faiztiGiC2QtKLGpbnnEGta2doK", "ses_stub_001",
      .sessionStarted, []⟩,
    ⟨"evt_stub_003", Js.isoString (now - 1800000), "robot-001",
      "did:key:z6MkhaXgBZDvotDkL5257faiztiGiC2QtKLGpbnnEGta2doK", "ses_stub_001",
      .privilegedAction,
      [("action", .str "E_STOP"), ("reason", .str "Operator initiated emergency stop")]⟩]

/-! ## The route -/

/-- `if (param) { filtered = filtered.filter(p) }`. -/
def filterBy (param : Val) (p : AuditEvent → Bool) (events : List AuditEvent) : List AuditEvent :=
  if param.truthy then events.filter p else events

/-- `a >= b` for the times of dates; an invalid one compares with nothing. -/
def notBefore (a b : Js.Num) : Bool :=
  match a.order b with
  | some .gt => true
  | some .eq => true
  | _ => false

section

-- `new Date(v).getTime()`
variable (dateOf : Val → Js.Num)

/-- The events that pass the filters. -/
def filtered (events : List AuditEvent) (q : AuditQueryParams) : List AuditEvent :=
  let filtered := filterBy q.sessionId.toVal
    (fun e => (Val.str e.sessionId).strictEq q.sessionId.toVal) events
  let filtered := filterBy q.robotId.toVal
    (fun e => (Val.str e.robotId).strictEq q.robotId.toVal) filtered
  let filtered := filterBy q.actorDid.toVal
    (fun e => (Val.str e.operatorDid).strictEq q.actorDid.toVal) filtered
  let filtered := filterBy q.eventType.toVal
    (fun e => (Val.str e.eventType.text).strictEq q.eventType.toVal) filtered
  let filtered := filterBy q.fromTime.toVal
    (fun e => notBefore (dateOf (.str e.timestamp)) (dateOf q.fromTime.toVal)) filtered
  filterBy q.toTime.toVal
    (fun e => notBefore (dateOf q.toTime.toVal) (dateOf (.str e.timestamp))) filtered

/-- `GET /v1/audit/events`. -/
def getEvents (events : List AuditEvent) (q : AuditQueryParams) : Option AuditEventsResponse := do
  let page := q.page.orDefault 1
  let pageSize := q.pageSize.orDefault 20
  let filtered := filtered dateOf events q
  let pageBefore ← page.minus (.num (.fin 1))
  let startIdx ← (Val.num pageBefore).times pageSize
  let endIdx ← (Val.num startIdx).plus pageSize
  some ⟨Js.slice filtered startIdx endIdx.toNumber, filtered.length, page, pageSize⟩

/-! ## What pages should be -/

/-- The events that come back when `page` is asked for. -/
def pageEvents (events : List AuditEvent) (q : AuditQueryParams) (page : QueryValue) :
    Option (List AuditEvent) :=
  (getEvents dateOf events { q with page }).map AuditEventsResponse.events

/-- A parameter that stands for a natural: left out, or a numeral. -/
inductive Counts (d : Nat) : QueryValue → Nat → Prop
  | missing : Counts d .missing d
  | numeral (s : String) (hne : s.toList ≠ []) (hdigits : ∀ c ∈ s.toList, c.isDigit = true) :
    Counts d (.one s) (Js.digitsValue s.toList)

/-- What should hold of the pages of `n` events: none is longer, page `p` holds
the events at the positions from `(p - 1) * n` up to `p * n`, and one after the
other they are the filtered list. -/
structure PagesHold (events : List AuditEvent) (q : AuditQueryParams) (n : Nat) : Prop where
  bounded : ∀ page p, Counts 1 page p → 0 < p → ∃ es,
    pageEvents dateOf events q page = some es ∧ es.length ≤ n
  positions : ∀ page p, Counts 1 page p → 0 < p →
    pageEvents dateOf events q page =
      some (((filtered dateOf events q).drop ((p - 1) * n)).take n)
  partition : (List.range (((filtered dateOf events q).length + n - 1) / n)).flatMap
      (fun i => (pageEvents dateOf events q (.one (toString (i + 1)))).getD []) =
    filtered dateOf events q

/-- The default size is used, nothing passes the filters, or two pages of a size
that is finite are enough. -/
def TwoPages (events : List AuditEvent) (q : AuditQueryParams) (n : Nat) : Prop :=
  ∀ s, q.pageSize = .one s → filtered dateOf events q ≠ [] →
    Js.stringToNumber s ≠ .posInf ∧ (filtered dateOf events q).length ≤ 2 * n

/-! ## The numbers of a query -/

variable {dateOf} {events : List AuditEvent} {q : AuditQueryParams} {page : QueryValue} {p n : Nat}

theorem length_filtered : (filtered dateOf events q).length ≤ events.length := by
  have hfilter (param : Val) (f : AuditEvent → Bool) (es : List AuditEvent) :
      (filterBy param f es).length ≤ es.length := by
    unfold filterBy
    split
    · exact List.length_filter_le f es
    · exact Nat.le_refl _
  unfold filtered
  dsimp only
  exact ((hfilter _ _ _).trans (hfilter _ _ _)).trans ((hfilter _ _ _).trans
    ((hfilter _ _ _).trans ((hfilter _ _ _).trans (hfilter _ _ _))))

namespace Counts

variable {d : Nat} {v : QueryValue}

theorem toPrimitive (h : Counts d v n) :
    (v.orDefault d).toPrimitive = some (v.orDefault d) := by
  cases h with
  | missing => rfl
  | numeral s hne hdigits => rfl

theorem toNumber (h : Counts d v n) (hd : d < 2 ^ 53) {j : Nat} (hj : j ≤ 53) :
    Js.Agrees j (v.orDefault d).toNumber n := by
  cases h with
  | missing =>
    have hnum := Js.agrees_ofRat hj n
    rwa [Js.Num.ofRat_exact hd] at hnum
  | numeral s hne hdigits =>
    show Js.Agrees j (Js.stringToNumber s) _
    rw [Js.stringToNumber_digits hne hdigits]
    exact Js.agrees_ofRat hj _

theorem ofNat (n : Nat) : Counts d (.one (toString n)) n := by
  have h := Counts.numeral (d := d) (toString n) (Js.toString_ne_nil n)
    (Js.isDigit_toString n)
  rwa [Js.digitsValue_toString] at h

end Counts

/-- `(page - 1) * page_size`. -/
def startIdx (page size : QueryValue) : Js.Num :=
  ((page.orDefault 1).toNumber.sub (.fin 1)).mul (size.orDefault 20).toNumber

/-- `startIdx + page_size`, as the number that `slice` makes of it. -/
def endIdx (startIdx : Js.Num) : QueryValue → Js.Num
  | .one s => Js.stringToNumber (Js.numberText startIdx ++ s)
  | size => startIdx.add (size.orDefault 20).toNumber

theorem pageEvents_eq (hpage : Counts 1 page p) (hsize : Counts 20 q.pageSize n) :
    pageEvents dateOf events q page = some (Js.slice (filtered dateOf events q)
      (startIdx page q.pageSize) (endIdx (startIdx page q.pageSize) q.pageSize)) := by
  have hminus : (page.orDefault 1).minus (.num (.fin 1)) =
      some ((page.orDefault 1).toNumber.sub (.fin 1)) := by
    unfold Val.minus
    rw [hpage.toPrimitive]
    rfl
  have htimes (x : Js.Num) : (Val.num x).times (q.pageSize.orDefault 20) =
      some (x.mul (q.pageSize.orDefault 20).toNumber) := by
    unfold Val.times
    rw [hsize.toPrimitive]
    rfl
  have hplus (x : Js.Num) : ((Val.num x).plus (q.pageSize.orDefault 20)).map Val.toNumber =
      some (endIdx x q.pageSize) := by
    generalize q.pageSize = size at hsize
    cases hsize with
    | missing => rfl
    | numeral s hne hdigits => rfl
  unfold pageEvents getEvents
  dsimp only
  rw [hminus, Option.bind_eq_bind, Option.bind_some, htimes, Option.bind_eq_bind,
    Option.bind_some]
  obtain ⟨stop, hstop, hnumber⟩ := Option.map_eq_some_iff.mp (hplus (startIdx page q.pageSize))
  unfold startIdx at hstop
  rw [hstop]
  show some _ = _
  rw [hnumber]
  rfl

/-! ## One page -/

/-- The position where the page that starts at `k` ends: the text of the size is
put after the text of `k`. -/
def pageEnd (size : QueryValue) (k n : Nat) : Nat :=
  match size with
  | .one s => 10 ^ s.toList.length * k + n
  | _ => k + n

theorem startIdx_agrees {size : QueryValue} (hpage : Counts 1 page p) (hsize : Counts 20 size n)
    (hp : 0 < p) (hn : 0 < n) (hfinite : p = 1 → (size.orDefault 20).toNumber ≠ .posInf) :
    Js.Agrees 52 (startIdx page size) ((p - 1) * n) := by
  have hbefore := (hpage.toNumber (by decide) (Nat.le_refl 53)).sub_one (by decide) hp
  exact hbefore.mul (by decide) (hsize.toNumber (by decide) (by decide)) hn
    fun hzero => hfinite (by omega)

theorem endIdx_agrees {size : QueryValue} {k : Nat} (hsize : Counts 20 size n)
    (hk : k < 2 ^ 52) : Js.Agrees 52 (endIdx (.fin k) size) (pageEnd size k n) := by
  cases hsize with
  | missing =>
    have hcast : (k : Rat) + ((20 : Nat) : Rat) = ((k + 20 : Nat) : Rat) := (Nat.cast_add k 20).symm
    show Js.Agrees 52 (Js.Num.ofRat ((k : Rat) + ((20 : Nat) : Rat))) (k + 20)
    rw [hcast]
    exact Js.agrees_ofRat (by decide) _
  | numeral s hne hdigits =>
    have htext : (toString k ++ s).toList = (toString k).toList ++ s.toList :=
      String.toList_append
    have hall : ∀ c ∈ (toString k ++ s).toList, c.isDigit = true := by
      rw [htext]
      exact Js.isDigit_append (Js.isDigit_toString k) hdigits
    have hvalue : Js.digitsValue (toString k ++ s).toList =
        10 ^ s.toList.length * k + Js.digitsValue s.toList := by
      rw [htext, Js.digitsValue_append, Js.digitsValue_toString]
    show Js.Agrees 52 (Js.stringToNumber (Js.numberText (.fin k) ++ s)) _
    rw [Js.numberText_nat (lt_trans hk (by decide)), Js.stringToNumber_digits _ hall, hvalue]
    · exact Js.agrees_ofRat (by decide) _
    · rw [htext]
      exact List.append_ne_nil_of_left_ne_nil (Js.toString_ne_nil k) _

theorem pageEvents_cut (hlen : events.length < 2 ^ 32) (hpage : Counts 1 page p)
    (hsize : Counts 20 q.pageSize n) (hp : 0 < p) (hn : 0 < n)
    (hfinite : p = 1 → (q.pageSize.orDefault 20).toNumber ≠ .posInf) :
    pageEvents dateOf events q page = some (((filtered dateOf events q).drop ((p - 1) * n)).take
      (pageEnd q.pageSize ((p - 1) * n) n - (p - 1) * n)) := by
  have hshort : (filtered dateOf events q).length < 2 ^ 32 := lt_of_le_of_lt length_filtered hlen
  have hstart := startIdx_agrees hpage hsize hp hn hfinite
  rw [pageEvents_eq hpage hsize, Js.slice_of_agrees (by omega) hstart]
  intro hk
  rw [hstart.exact (by omega)]
  exact endIdx_agrees hsize (by omega)

/-- With a size that is infinite the first page is empty. -/
theorem pageEvents_infinite {s : String} (hsize : Counts 20 q.pageSize n) (hs : q.pageSize = .one s)
    (hinfinite : Js.stringToNumber s = .posInf) :
    pageEvents dateOf events q .missing = some [] := by
  have hstart : startIdx .missing (.one s) = .nan := by
    unfold startIdx
    have hnumber : ((QueryValue.one s).orDefault 20).toNumber = .posInf := hinfinite
    rw [hnumber]
    decide +kernel
  have hend : endIdx (startIdx .missing (.one s)) (.one s) = .nan := by
    rw [hstart]
    rw [hs] at hsize
    cases hsize with
    | numeral s hne hdigits => exact Js.stringToNumber_nan hdigits
  rw [pageEvents_eq .missing hsize, hs, hend, hstart]
  rfl

/-! ## All the pages -/

/-- What is right of every page is right of all of them. -/
theorem pagesHold_of_positions (hn : 0 < n)
    (h : ∀ page p, Counts 1 page p → 0 < p → pageEvents dateOf events q page =
      some (((filtered dateOf events q).drop ((p - 1) * n)).take n)) :
    PagesHold dateOf events q n where
  bounded page p hpage hp := ⟨_, h page p hpage hp, List.length_take_le n _⟩
  positions := h
  partition := by
    have hpages (i : Nat) : (pageEvents dateOf events q (.one (toString (i + 1)))).getD [] =
        ((filtered dateOf events q).drop (i * n)).take n := by
      rw [h _ _ (Counts.ofNat (i + 1)) (Nat.succ_pos i), Nat.add_sub_cancel]
      rfl
    have hcut (count : Nat) : (List.range count).flatMap
        (fun i => ((filtered dateOf events q).drop (i * n)).take n) =
          (filtered dateOf events q).take (count * n) := by
      induction count with
      | zero => rw [List.range_zero, List.flatMap_nil, Nat.zero_mul, List.take_zero]
      | succ count ih =>
        rw [List.range_succ, List.flatMap_append, ih, List.flatMap_singleton, Nat.succ_mul,
          List.take_add]
    have hall : (filtered dateOf events q).length ≤
        ((filtered dateOf events q).length + n - 1) / n * n := by
      have hdiv := Nat.div_add_mod ((filtered dateOf events q).length + n - 1) n
      have hmod := Nat.mod_lt ((filtered dateOf events q).length + n - 1) hn
      rw [Nat.mul_comm] at hdiv
      omega
    rw [funext hpages, hcut, List.take_of_length_le hall]

/-- Where the size is given, the text of the end of page 2 is longer than that of
its start. -/
theorem twice_le_pageEnd {s : String} (hsize : Counts 20 (.one s) n) :
    10 * n + n ≤ pageEnd (.one s) n n := by
  cases hsize with
  | numeral s hne hdigits =>
    unfold pageEnd
    dsimp only
    exact Nat.add_le_add_right (Nat.mul_le_mul_right _
      (Nat.le_self_pow (List.length_pos_of_ne_nil hne).ne' 10)) _

/-- If two pages are enough, a page takes the same events up to where the code
ends it as up to where it should end. -/
theorem min_pageEnd {size : QueryValue} {total : Nat} (hsize : Counts 20 size n) (hp : 0 < p)
    (htotal : ∀ s, size = .one s → total ≤ 2 * n) :
    min (pageEnd size ((p - 1) * n) n - (p - 1) * n) (total - (p - 1) * n) =
      min n (total - (p - 1) * n) := by
  cases hsize with
  | missing =>
    unfold pageEnd
    dsimp only
    omega
  | numeral s hne hdigits =>
    have htotal := htotal s rfl
    unfold pageEnd
    dsimp only
    by_cases hone : p = 1
    · rw [hone, Nat.sub_self, Nat.zero_mul, Nat.mul_zero]
      omega
    · have hk : Js.digitsValue s.toList ≤ (p - 1) * Js.digitsValue s.toList :=
        Nat.le_mul_of_pos_left _ (by omega)
      have hle : (p - 1) * Js.digitsValue s.toList ≤
          10 ^ s.toList.length * ((p - 1) * Js.digitsValue s.toList) :=
        Nat.le_mul_of_pos_left _ (Nat.pow_pos (by decide))
      omega

/-- The first page is not empty, so the size is finite. -/
theorem PagesHold.finite (h : PagesHold dateOf events q n) (hsize : Counts 20 q.pageSize n)
    (hn : 0 < n) {s : String} (hs : q.pageSize = .one s) (hne : filtered dateOf events q ≠ []) :
    Js.stringToNumber s ≠ .posInf := by
  intro hinfinite
  have hfirst := h.positions .missing 1 .missing (by decide)
  rw [pageEvents_infinite hsize hs hinfinite, Nat.sub_self, Nat.zero_mul, List.drop_zero] at hfirst
  rcases List.take_eq_nil_iff.mp (Option.some.inj hfirst).symm with hzero | hnil
  · omega
  · exact hne hnil

/-- The second page ends where it should, so nothing comes after it. -/
theorem PagesHold.total_le (h : PagesHold dateOf events q n) (hlen : events.length < 2 ^ 32)
    (hsize : Counts 20 q.pageSize n) (hn : 0 < n) {s : String} (hs : q.pageSize = .one s) :
    (filtered dateOf events q).length ≤ 2 * n := by
  have hsecond := h.positions (.one (toString 2)) 2 (Counts.ofNat 2) (by decide)
  rw [pageEvents_cut hlen (Counts.ofNat 2) hsize (by decide) hn (fun h => absurd h (by decide)),
    Nat.one_mul, hs] at hsecond
  have hlength := congrArg List.length (Option.some.inj hsecond)
  rw [List.length_take, List.length_take, List.length_drop] at hlength
  have hend := twice_le_pageEnd (hs ▸ hsize)
  omega

end

end ChainKVM.Gateway
