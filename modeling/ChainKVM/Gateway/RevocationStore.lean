import ChainKVM.Gateway.Tokens
import ChainKVM.Lib.SharedLog

/-!
# The revocation store: `tokens/revocation-store.ts`

The file of revoked tokens that is read back when the gateway starts. An
`append` loads the file, pushes its entry and saves the result, with an
`await` at the load and at the save; the registry starts one for each revoked
token and waits for none. So the file is a shared log that is appended to by
rewriting it (`SharedLog`), and `appends_kept_iff` is `SharedLog.kept_iff` for
it, taken on to the cache of the next start.

The file is modelled by the entries it stores: a stored date is an ISO string
to the millisecond, which `parseEntry` reads back. Reading and writing succeed.
-/

namespace ChainKVM.Gateway

open Js (Val)
open Machine (run Steps steps_cons)
open SharedLog (Call Log appended racing)

/-! ## The store -/

/-- The file, if there is one, and the calls of `append` under way. -/
structure StoreState where
  file : Option (List RevokedEntry)
  appends : List (Call RevokedEntry)

/-- `load`: no file counts as an empty one. -/
def load (file : Option (List RevokedEntry)) : List RevokedEntry := file.getD []

/-- `save`. -/
def save (entries : List RevokedEntry) : Option (List RevokedEntry) := some entries

/-- `append`, one step at a time: the call, its `load` and its `save`. -/
def storeStep (s : StoreState) : SharedLog.Move RevokedEntry → StoreState
  | .append entry => { s with appends := s.appends ++ [⟨entry, none⟩] }
  | .read i =>
    match s.appends[i]? with
    | some ⟨entry, none⟩ => { s with appends := s.appends.set i ⟨entry, some (load s.file)⟩ }
    | _ => s
  | .write i =>
    match s.appends[i]? with
    | some ⟨entry, some existing⟩ => ⟨save (existing ++ [entry]), s.appends.eraseIdx i⟩
    | _ => s
  | .look => s

/-- What `addToRevocationCache` appends for a token. -/
def persisted (now : Int) (reason : Option String) (entry : TokenEntry) : RevokedEntry :=
  ⟨entry.jti, now, entry.expiresAt, reason⟩

/-- The cache that the gateway starts with. -/
def reload (maxSize now : Int) (file : Option (List RevokedEntry)) : RevocationCache :=
  (RevocationCache.new maxSize).loadFromStore now (load file)

/-! ## The store as a shared log -/

/-- The file as a shared log. -/
def StoreState.log (s : StoreState) : Log RevokedEntry := ⟨load s.file, s.appends⟩

theorem log_storeStep (s : StoreState) (m : SharedLog.Move RevokedEntry) :
    (storeStep s m).log = SharedLog.step s.log m := by
  have hcalls (i : Nat) : s.log.calls[i]? = s.appends[i]? := rfl
  cases m with
  | append entry => rfl
  | look => rfl
  | read i =>
    simp only [storeStep, SharedLog.step, hcalls]
    rcases s.appends[i]? with _ | ⟨entry, _ | existing⟩ <;> rfl
  | write i =>
    simp only [storeStep, SharedLog.step, hcalls]
    rcases s.appends[i]? with _ | ⟨entry, _ | existing⟩ <;> rfl

/-! ## Starting again -/

/-- An entry that has not expired revokes its token after a restart, whatever
else is in the file. -/
theorem isRevoked_reload {maxSize now : Int} {file : Option (List RevokedEntry)}
    {entry : RevokedEntry} (hmem : entry ∈ load file) (hlive : now < entry.expiresAt) :
    ((reload maxSize now file).isRevoked now entry.jti).1 = true := by
  -- a later line for the same token overwrites the entry, but only one that has not
  -- expired is loaded
  have hfold : ∀ (entries : List RevokedEntry) (m : OrdMap String RevokedEntry),
      (entry ∈ entries ∨ ∃ e, m.get entry.jti = some e ∧ now < e.expiresAt) →
      ∃ e, (entries.foldl (RevocationCache.loadEntry now) m).get entry.jti = some e ∧ now < e.expiresAt := by
    intro entries
    induction entries with
    | nil => exact fun m h => h.resolve_left List.not_mem_nil
    | cons e es ih =>
      intro m h
      refine ih _ ?_
      by_cases hin : entry ∈ es
      · exact .inl hin
      · right
        by_cases he : now < e.expiresAt
        · rw [RevocationCache.loadEntry, if_pos he, OrdMap.get_set]
          by_cases hj : entry.jti = e.jti
          · exact ⟨e, if_pos hj, he⟩
          · rw [if_neg hj]
            refine h.resolve_left fun hmem => ?_
            rcases List.mem_cons.mp hmem with rfl | hmem
            · exact hj rfl
            · exact hin hmem
        · rw [RevocationCache.loadEntry, if_neg he]
          refine h.resolve_left fun hmem => ?_
          rcases List.mem_cons.mp hmem with rfl | hmem
          · exact he hlive
          · exact hin hmem
  obtain ⟨e, hget, he⟩ := hfold (load file) OrdMap.empty (.inl hmem)
  have hcached : (reload maxSize now file).cache.get entry.jti = some e := hget
  unfold RevocationCache.isRevoked
  rw [hcached]
  dsimp only
  rw [if_neg (Int.not_le.mpr he)]

/-! ## Runs -/

/-- Nothing is lost: the file holds what it held and every appended entry, each
once, and the tokens that have not expired stay revoked after a restart. -/
def Kept (file file' : Option (List RevokedEntry)) (entries : List RevokedEntry) : Prop :=
  (load file').Perm (load file ++ entries) ∧
    ∀ maxSize now, ∀ entry ∈ load file ++ entries, now < entry.expiresAt →
      ((reload maxSize now file').isRevoked now entry.jti).1 = true

/-- Once all appends have completed, nothing is lost iff none of them read the
file while another stood between its read and its write. -/
theorem appends_kept_iff (file : Option (List RevokedEntry))
    (es : List (SharedLog.Move RevokedEntry)) (hdone : (run storeStep ⟨file, []⟩ es).appends = []) :
    Kept file (run storeStep ⟨file, []⟩ es).file (es.filterMap appended) ↔
      Steps storeStep (fun s m => racing s.log m = false) ⟨file, []⟩ es := by
  have hlog : (run storeStep ⟨file, []⟩ es).log = run SharedLog.step ⟨load file, []⟩ es :=
    Machine.run_map log_storeStep _ es
  have hcalls : (run SharedLog.step ⟨load file, []⟩ es).calls = [] := by
    rw [← hlog]
    exact hdone
  have hkept := SharedLog.kept_iff hcalls
  rw [← hlog] at hkept
  rw [Machine.steps_map log_storeStep (C := fun s m => racing s m = false)]
  refine Iff.trans ?_ hkept
  constructor
  · exact fun h => h.1
  · intro hperm
    refine ⟨hperm, fun maxSize now entry hmem hlive => ?_⟩
    exact isRevoked_reload (hperm.mem_iff.mpr hmem) hlive

/-! ## An operator with two tokens -/

/-- Two tokens of one operator. -/
def twoTokens : TokenRegistry :=
  ((TokenRegistry.new none).register ⟨"tok_1", "ses_1", .str "did:key:op", .str "robot-1", 3600000⟩
    ).register ⟨"tok_2", "ses_2", .str "did:key:op", .str "robot-2", 3600000⟩

/-- Revoking the operator appends an entry for each, one call right after the
other. -/
def revokeBoth : List (SharedLog.Move RevokedEntry) :=
  ((twoTokens.getByOperator (.str "did:key:op")).map (persisted 0 none)).map .append

/-- The two appends, one after the other. -/
def oneByOne : List (SharedLog.Move RevokedEntry) :=
  revokeBoth ++ [.read 0, .write 0, .read 0, .write 0]

/-- Both read before either writes. -/
def bothAtOnce : List (SharedLog.Move RevokedEntry) :=
  revokeBoth ++ [.read 0, .read 1, .write 0, .write 0]

theorem appends_kept_iff_sample :
    Kept none (run storeStep ⟨none, []⟩ oneByOne).file (oneByOne.filterMap appended) ↔
      Steps storeStep (fun s m => racing s.log m = false) ⟨none, []⟩ oneByOne :=
  appends_kept_iff none oneByOne rfl

/-- When both read before either writes, one entry is lost. -/
theorem appends_kept_fails :
    ¬ ∀ (file : Option (List RevokedEntry)) (es : List (SharedLog.Move RevokedEntry)),
      (run storeStep ⟨file, []⟩ es).appends = [] →
        Kept file (run storeStep ⟨file, []⟩ es).file (es.filterMap appended) := by
  intro h
  have hlength := (h none bothAtOnce rfl).1.length_eq
  cases hlength

end ChainKVM.Gateway
