import ChainKVM.Gateway.RevocationStore
import ChainKVM.Lib.IsoDate
import ChainKVM.Lib.JsonPretty

/-!
# The revocation file: the texts of `tokens/revocation-store.ts`

`RevocationStore` takes the file for the entries in it. Here it is the text that
`save` writes and `load` reads: an indented JSON array, with ISO dates. What is
saved is loaded as it was (`loadFile_document`).

The file is rewritten in place, so a gateway that dies while it saves leaves the
beginning of a text, perhaps with a torn character at its end. No such beginning
is a JSON text, and `main` does not start with a file that it cannot read. So a
start finds every revocation that was ever written in full, or none at all: it is
refused, by exactly the runs in which some write was cut off
(`start_all_or_none`).

Appends come one after another; what becomes of calls that overlap is the subject
of `RevocationStore`. A date that is not in the ISO format is read as the
implementation pleases (`legacy`).
-/

namespace ChainKVM.Gateway

open Js (Val isoString parseIso)
open Machine (run Steps collect)

/-! ## Entries -/

/-- A `RevokedEntry` as `load` returns it: the file may hold anything, and a date
may be invalid. -/
structure LoadedEntry where
  jti : Val
  revokedAt : Option Int
  expiresAt : Option Int
  reason : Val

/-- An entry as the registry appends it. -/
def LoadedEntry.of (e : RevokedEntry) : LoadedEntry :=
  ⟨.str e.jti, some e.revokedAt, some e.expiresAt,
    match e.reason with
    | some reason => .str reason
    | none => .undefined⟩

/-- `new Date(v)`. -/
def newDate (legacy : Val → Option Int) (v : Val) : Option Int :=
  (v.asString.bind parseIso).or (legacy v)

/-- `parseEntry`; `none` when it throws. -/
def parseEntry (legacy : Val → Option Int) (stored : Val) : Option LoadedEntry :=
  match stored with
  | .null => none
  | .undefined => none
  | _ => some ⟨stored.member "jti", newDate legacy (stored.member "revokedAt"),
      newDate legacy (stored.member "expiresAt"), stored.member "reason"⟩

/-- `serializeEntry`; `none` when it throws. -/
def serializeEntry (entry : LoadedEntry) : Option Val := do
  let revokedAt ← entry.revokedAt
  let expiresAt ← entry.expiresAt
  return .obj [("jti", entry.jti), ("revokedAt", .str (isoString revokedAt)),
    ("expiresAt", .str (isoString expiresAt)), ("reason", entry.reason)]

/-! ## The file -/

/-- Why `load` rejects. -/
inductive LoadError where
  | corrupted (message : String)
  | thrown
  deriving DecidableEq, Repr

/-- The error for a file that is no JSON text. -/
def corrupted (filePath : String) : LoadError :=
  .corrupted s!"Revocation store corrupted at {filePath}. Backup and recreate the file."

/-- `load`, of a file that can be read if there is one. -/
def loadFile (filePath : String) (legacy : Val → Option Int) (file : Option String) :
    Except LoadError (List LoadedEntry) :=
  match file with
  | none => .ok []
  | some data =>
    match Json.parse data with
    | none => .error (corrupted filePath)
    | some (.arr stored) =>
      match stored.mapM (parseEntry legacy) with
      | some entries => .ok entries
      | none => .error .thrown
    | some _ => .error .thrown

/-- The text that `save` writes. -/
def saveText (entries : List LoadedEntry) : Option String := do
  let stored ← entries.mapM serializeEntry
  let json ← (Val.arr stored).toJson
  return String.ofList (json.pretty 2 0)

/-- A text of which only the beginning is written. A character of several bytes
that is torn is read as a replacement character. -/
def torn (text : String) (kept : Nat) (inside : Bool) : String :=
  String.ofList (text.toList.take kept ++
    if inside ∧ (text.toList[kept]?).any (fun c => 128 ≤ c.toNat) then [Char.ofNat 0xfffd] else [])

/-! ## What is saved -/

/-- An entry whose dates are valid. -/
structure DatedEntry where
  entry : RevokedEntry
  revokedAt_valid : entry.revokedAt.natAbs ≤ 8640000000000000
  expiresAt_valid : entry.expiresAt.natAbs ≤ 8640000000000000

/-- What `load` makes of it. -/
def DatedEntry.loaded (e : DatedEntry) : LoadedEntry := .of e.entry

/-- The members that are written. -/
def DatedEntry.members (e : DatedEntry) : Json.Members :=
  [("jti", .str e.entry.jti), ("revokedAt", .str (isoString e.entry.revokedAt)),
    ("expiresAt", .str (isoString e.entry.expiresAt))] ++
    (e.entry.reason.map fun reason => ("reason", Json.str reason)).toList

/-- The text of entries. -/
def document (entries : List DatedEntry) : String :=
  String.ofList ((Json.arr (entries.map fun e => .obj e.members)).pretty 2 0)

theorem mapM_map_of_forall {α β γ : Type} {f : β → Option γ} {h : α → β} {g : α → γ}
    (hf : ∀ a, f (h a) = some (g a)) (as : List α) : (as.map h).mapM f = some (as.map g) := by
  induction as with
  | nil => rfl
  | cons a as ih =>
    rw [List.map_cons, List.mapM_cons, hf, ih]
    rfl

theorem itemsToJson_map {α : Type} {f : α → Val} {g : α → Json}
    (h : ∀ a, (f a).toJson = some (g a)) (as : List α) :
    Js.itemsToJson (as.map f) = as.map g := by
  induction as with
  | nil => rfl
  | cons a as ih =>
    rw [List.map_cons, Js.itemsToJson, h, ih]
    rfl

/-- The object that `serializeEntry` makes of it. -/
def DatedEntry.stored (e : DatedEntry) : Val :=
  .obj [("jti", .str e.entry.jti), ("revokedAt", .str (isoString e.entry.revokedAt)),
    ("expiresAt", .str (isoString e.entry.expiresAt)), ("reason", e.loaded.reason)]

/-- A reason that there is none of is not written. -/
theorem DatedEntry.toJson_stored (e : DatedEntry) : e.stored.toJson = some (.obj e.members) := by
  unfold DatedEntry.stored DatedEntry.members DatedEntry.loaded LoadedEntry.of
  cases e.entry.reason <;> rfl

theorem serializeEntry_loaded (e : DatedEntry) : serializeEntry e.loaded = some e.stored := rfl

theorem saveText_loaded (entries : List DatedEntry) :
    saveText (entries.map DatedEntry.loaded) = some (document entries) := by
  have hstored : (entries.map DatedEntry.loaded).mapM serializeEntry =
      some (entries.map DatedEntry.stored) := mapM_map_of_forall serializeEntry_loaded entries
  have hjson : (Val.arr (entries.map DatedEntry.stored)).toJson =
      some (.arr (entries.map fun e => .obj e.members)) := by
    rw [Val.toJson, itemsToJson_map DatedEntry.toJson_stored]
  unfold saveText
  rw [hstored, Option.bind_eq_bind, Option.bind_some, hjson]
  rfl

theorem DatedEntry.members_legible (e : DatedEntry) : (Json.obj e.members).Legible := by
  unfold DatedEntry.members
  cases e.entry.reason with
  | none =>
    have hnames : ["jti", "revokedAt", "expiresAt"].Nodup := by decide
    exact ⟨hnames, trivial, trivial, trivial, trivial⟩
  | some reason =>
    have hnames : ["jti", "revokedAt", "expiresAt", "reason"].Nodup := by decide
    exact ⟨hnames, trivial, trivial, trivial, trivial, trivial⟩

theorem document_legible (entries : List DatedEntry) :
    (Json.arr (entries.map fun e => .obj e.members)).Legible := by
  refine Json.itemsLegible_of_forall fun v hv => ?_
  obtain ⟨e, -, rfl⟩ := List.mem_map.mp hv
  exact e.members_legible

/-- Dates are read as they were written, and a reason that is not there is
`undefined`. -/
theorem parseEntry_members (legacy : Val → Option Int) (e : DatedEntry) :
    parseEntry legacy (Json.obj e.members).toVal = some e.loaded := by
  have hrevoked := Js.parseIso_isoString e.revokedAt_valid
  have hexpires := Js.parseIso_isoString e.expiresAt_valid
  have hdate {t : Int} (h : parseIso (isoString t) = some t) :
      newDate legacy (.str (isoString t)) = some t := by
    unfold newDate
    rw [Val.asString, Option.bind_some, h]
    rfl
  unfold DatedEntry.members DatedEntry.loaded LoadedEntry.of
  cases e.entry.reason with
  | none =>
    show some (LoadedEntry.mk _ (newDate legacy (.str _)) (newDate legacy (.str _)) _) = _
    rw [hdate hrevoked, hdate hexpires]
    rfl
  | some reason =>
    show some (LoadedEntry.mk _ (newDate legacy (.str _)) (newDate legacy (.str _)) _) = _
    rw [hdate hrevoked, hdate hexpires]
    rfl

theorem parse_document (entries : List DatedEntry) : Json.parse (document entries) =
    some (.arr (entries.map fun e => (Json.obj e.members).toVal)) := by
  unfold document
  rw [Json.parse_pretty (document_legible entries), Json.toVal, Json.itemsToVal_eq_map,
    List.map_map]
  rfl

/-- What is saved is loaded as it was. -/
theorem loadFile_document (filePath : String) (legacy : Val → Option Int)
    (entries : List DatedEntry) : loadFile filePath legacy (some (document entries)) =
      .ok (entries.map DatedEntry.loaded) := by
  unfold loadFile
  dsimp only
  rw [parse_document]
  dsimp only
  rw [mapM_map_of_forall (parseEntry_members legacy)]

/-- A text of which the end is missing is refused. -/
theorem loadFile_torn (filePath : String) (legacy : Val → Option Int) (entries : List DatedEntry)
    {kept : Nat} (inside : Bool) (h : kept < (document entries).toList.length) :
    loadFile filePath legacy (some (torn (document entries) kept inside)) =
      .error (corrupted filePath) := by
  have hparse : Json.parse (torn (document entries) kept inside) = none := by
    obtain ⟨cs, hcs⟩ := Json.pretty_arr 2 0 (entries.map fun e => .obj e.members)
    have htext : (document entries).toList = '[' :: cs := by
      rw [document, String.toList_ofList, hcs]
    have hsplit := List.take_append_drop kept (document entries).toList
    have hrest : (document entries).toList.drop kept ≠ [] := by
      rw [ne_eq, List.drop_eq_nil_iff]
      omega
    unfold torn
    split
    next hinside =>
      cases kept with
      | zero =>
        -- the bracket is a single byte
        rw [htext] at hinside
        have hbracket : decide (128 ≤ '['.toNat) = true := hinside.2
        exact absurd hbracket (by decide)
      | succ kept =>
        have hspoiled : (String.ofList (List.take (kept + 1) (document entries).toList ++
            [Char.ofNat 0xfffd])).toList = '[' :: (cs.take kept ++ [Char.ofNat 0xfffd]) := by
          rw [String.toList_ofList, htext]
          rfl
        exact Json.parse_spoiled (by decide) (by decide) hspoiled
    next =>
      have hcut : (String.ofList (List.take kept (document entries).toList ++ [])).toList ++
          (document entries).toList.drop kept =
            (Json.arr (entries.map fun e => .obj e.members)).pretty 2 0 := by
        rw [String.toList_ofList, List.append_nil, hsplit, document, String.toList_ofList]
      exact Json.parse_cut_pretty (document_legible entries) hcut hrest
  unfold loadFile
  dsimp only
  rw [hparse]

theorem torn_of_length_le {text : String} {kept : Nat} (inside : Bool)
    (h : text.toList.length ≤ kept) : torn text kept inside = text := by
  unfold torn
  rw [List.take_of_length_le h, List.getElem?_eq_none h, if_neg, List.append_nil,
    String.ofList_toList]
  exact fun hinside => absurd hinside.2 Bool.false_ne_true

/-! ## The gateway and its file -/

/-- The file, if there is one, and whether the gateway runs. -/
structure FileState where
  file : Option String
  running : Bool
  deriving DecidableEq, Repr

/-- Before the first start. -/
def FileState.fresh : FileState := ⟨none, false⟩

/-- What happens to them. -/
inductive FileEvent where
  /-- `main`, up to what it reads. -/
  | start
  /-- A call of `append`, all of it. -/
  | append (entry : DatedEntry)
  /-- One that fails while it writes: the gateway dies, or the disk is full. -/
  | cut (entry : DatedEntry) (kept : Nat) (inside lives : Bool)
  /-- The gateway ends, with nothing being written. -/
  | stop

section Machine

variable (filePath : String) (legacy : Val → Option Int)

/-- What `append` writes; `none` when it rejects before that. -/
def nextText (file : Option String) (entry : DatedEntry) : Option String :=
  match loadFile filePath legacy file with
  | .ok existing => saveText (existing ++ [entry.loaded])
  | .error _ => none

/-- What a call of `append` writes in a state, if the gateway runs. -/
def pending (s : FileState) (entry : DatedEntry) : Option String :=
  if s.running then nextText filePath legacy s.file entry else none

/-- One event. `main` exits when `load` rejects. -/
def fileStep (s : FileState) : FileEvent → FileState
  | .start => if s.running then s else { s with running := (loadFile filePath legacy s.file).isOk }
  | .append entry =>
    match pending filePath legacy s entry with
    | some text => { s with file := some text }
    | none => s
  | .cut entry kept inside lives =>
    match pending filePath legacy s entry with
    | some text => ⟨some (torn text kept inside), lives⟩
    | none => { s with running := s.running && lives }
  | .stop => { s with running := false }

/-- The entry that is in the file from an event on: its text is written in full. -/
def written (s : FileState) : FileEvent → Option DatedEntry
  | .append entry => (pending filePath legacy s entry).map fun _ => entry
  | .cut entry kept _ _ =>
    match pending filePath legacy s entry with
    | some text => if text.toList.length ≤ kept then some entry else none
    | none => none
  | .start => none
  | .stop => none

/-- An event cuts off no text before its end. -/
def Whole (s : FileState) : FileEvent → Prop
  | .cut entry kept _ _ =>
    ∀ text, pending filePath legacy s entry = some text → text.toList.length ≤ kept
  | .start => True
  | .append _ => True
  | .stop => True

variable {filePath legacy}

/-! ## Runs -/

/-- The file holds these entries. -/
def Represents (file : Option String) (entries : List DatedEntry) : Prop :=
  file = some (document entries) ∨ (file = none ∧ entries = [])

/-- The file is refused. -/
def Refused (filePath : String) (legacy : Val → Option Int) (file : Option String) : Prop :=
  loadFile filePath legacy file = .error (corrupted filePath)

theorem Represents.loaded {file : Option String} {entries : List DatedEntry}
    (h : Represents file entries) :
    loadFile filePath legacy file = .ok (entries.map DatedEntry.loaded) := by
  rcases h with rfl | ⟨rfl, rfl⟩
  · exact loadFile_document filePath legacy entries
  · rfl

/-- The next text holds one more entry. -/
theorem Represents.pending {s : FileState} {entries : List DatedEntry} {entry : DatedEntry}
    {text : String} (h : Represents s.file entries)
    (htext : pending filePath legacy s entry = some text) :
    text = document (entries ++ [entry]) := by
  have hsaved := saveText_loaded (entries ++ [entry])
  rw [List.map_append] at hsaved
  unfold Gateway.pending nextText at htext
  split at htext
  next =>
    rw [h.loaded] at htext
    dsimp only at htext
    rw [List.map_singleton] at hsaved
    rw [hsaved] at htext
    exact (Option.some.inj htext).symm
  next => cases htext

theorem Refused.pending {s : FileState} (h : Refused filePath legacy s.file)
    (entry : DatedEntry) : pending filePath legacy s entry = none := by
  unfold Gateway.pending nextText
  rw [h]
  exact ite_self none

theorem fileStep_start (s : FileState) : (fileStep filePath legacy s .start).file = s.file := by
  unfold fileStep
  dsimp only
  split <;> rfl

/-- Whole writes add their entries at the end. -/
theorem represents_fileStep {s : FileState} {e : FileEvent} {entries : List DatedEntry}
    (h : Represents s.file entries) (hwhole : Whole filePath legacy s e) :
    Represents (fileStep filePath legacy s e).file
      (entries ++ (written filePath legacy s e).toList) := by
  cases e with
  | start =>
    rw [fileStep_start, written, Option.toList_none, List.append_nil]
    exact h
  | append entry =>
    unfold fileStep written
    dsimp only
    cases hpending : pending filePath legacy s entry with
    | none =>
      rw [Option.map_none, Option.toList_none, List.append_nil]
      exact h
    | some text => exact .inl (congrArg some (h.pending hpending))
  | cut entry kept inside lives =>
    unfold fileStep written
    dsimp only
    cases hpending : pending filePath legacy s entry with
    | none =>
      dsimp only
      rw [Option.toList_none, List.append_nil]
      exact h
    | some text =>
      have hlength := hwhole text hpending
      dsimp only
      rw [torn_of_length_le inside hlength, if_pos hlength]
      exact .inl (congrArg some (h.pending hpending))
  | stop =>
    rw [written, Option.toList_none, List.append_nil]
    exact h

/-- A write that is cut off leaves a file that is refused. -/
theorem refused_of_not_whole {s : FileState} {e : FileEvent} {entries : List DatedEntry}
    (h : Represents s.file entries) (hcut : ¬ Whole filePath legacy s e) :
    Refused filePath legacy (fileStep filePath legacy s e).file := by
  cases e with
  | start => exact absurd trivial hcut
  | append entry => exact absurd trivial hcut
  | stop => exact absurd trivial hcut
  | cut entry kept inside lives =>
    unfold fileStep
    dsimp only
    cases hpending : pending filePath legacy s entry with
    | none =>
      refine absurd (fun text htext => ?_) hcut
      rw [hpending] at htext
      cases htext
    | some text =>
      have hshort : kept < text.toList.length := by
        refine Nat.lt_of_not_le fun hle => hcut fun text' htext' => ?_
        rw [hpending] at htext'
        cases htext'
        exact hle
      dsimp only
      rw [h.pending hpending] at hshort ⊢
      exact loadFile_torn filePath legacy (entries ++ [entry]) inside hshort

/-- Nothing is written to such a file any more. -/
theorem Refused.fileStep {s : FileState} (h : Refused filePath legacy s.file) (e : FileEvent) :
    Refused filePath legacy (fileStep filePath legacy s e).file := by
  have hfile : (Gateway.fileStep filePath legacy s e).file = s.file := by
    cases e with
    | start => exact fileStep_start s
    | append entry =>
      unfold Gateway.fileStep
      dsimp only
      rw [h.pending entry]
    | cut entry kept inside lives =>
      unfold Gateway.fileStep
      dsimp only
      rw [h.pending entry]
    | stop => rfl
  rw [hfile]
  exact h

theorem represents_run {s : FileState} {es : List FileEvent} {entries : List DatedEntry}
    (h : Represents s.file entries)
    (hwhole : Steps (fileStep filePath legacy) (Whole filePath legacy) s es) :
    Represents (run (fileStep filePath legacy) s es).file
      (entries ++ collect (fileStep filePath legacy) (written filePath legacy) s es) := by
  induction es generalizing s entries with
  | nil =>
    rw [collect, List.append_nil]
    exact h
  | cons e es ih =>
    rw [collect, ← List.append_assoc]
    exact ih (represents_fileStep h hwhole.1) hwhole.2

theorem refused_run {s : FileState} {es : List FileEvent} {entries : List DatedEntry}
    (h : Represents s.file entries)
    (hcut : ¬ Steps (fileStep filePath legacy) (Whole filePath legacy) s es) :
    Refused filePath legacy (run (fileStep filePath legacy) s es).file := by
  have hstays {s' : FileState} (hrefused : Refused filePath legacy s'.file) (es' : List FileEvent) :
      Refused filePath legacy (run (fileStep filePath legacy) s' es').file :=
    (Machine.always_of_step (I := fun s : FileState => Refused filePath legacy s.file)
      (fun _ e h => h.fileStep e) hrefused).last
  induction es generalizing s entries with
  | nil => exact absurd trivial hcut
  | cons e es ih =>
    by_cases hwhole : Whole filePath legacy s e
    · exact ih (represents_fileStep h hwhole) fun hsteps => hcut ⟨hwhole, hsteps⟩
    · exact hstays (refused_of_not_whole h hwhole) es

/-- A gateway that is stopped and started comes up iff no write was ever cut off,
and then what it loads is every entry that was written, in order. -/
theorem start_all_or_none (filePath : String) (legacy : Val → Option Int) (es : List FileEvent) :
    ((run (fileStep filePath legacy) .fresh (es ++ [.stop, .start])).running = true ↔
        Steps (fileStep filePath legacy) (Whole filePath legacy) .fresh es) ∧
      ((run (fileStep filePath legacy) .fresh (es ++ [.stop, .start])).running = true →
        loadFile filePath legacy (run (fileStep filePath legacy) .fresh es).file =
          .ok ((collect (fileStep filePath legacy) (written filePath legacy) .fresh es).map
            DatedEntry.loaded)) := by
  have hfresh : Represents FileState.fresh.file [] := .inr ⟨rfl, rfl⟩
  have hstart : (run (fileStep filePath legacy) .fresh (es ++ [.stop, .start])).running =
      (loadFile filePath legacy (run (fileStep filePath legacy) .fresh es).file).isOk := by
    rw [Machine.run_append]
    rfl
  have hiff : (run (fileStep filePath legacy) .fresh (es ++ [.stop, .start])).running = true ↔
      Steps (fileStep filePath legacy) (Whole filePath legacy) .fresh es := by
    rw [hstart]
    constructor
    · intro hok
      refine Classical.byContradiction fun hcut => ?_
      rw [refused_run hfresh hcut] at hok
      cases hok
    · intro hwhole
      rw [(represents_run hfresh hwhole).loaded]
      rfl
  exact ⟨hiff, fun hrunning => (represents_run hfresh (hiff.mp hrunning)).loaded⟩

end Machine

end ChainKVM.Gateway
