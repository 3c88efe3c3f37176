import ChainKVM.Gateway.PolicyStore
import ChainKVM.Lib.JsonText

/-!
# The policy hash as a fingerprint

The policy document asks for a hash of canonical JSON, so that two gateways
that have the same rules see the same hash. `computeRulesHash` of
`policy-store.ts` hashes what `JSON.stringify` writes, which keeps the members
of an object in the order in which they were set.

A text stands for one value, so rules that differ never have the same text.
But rules that are the same have it iff all their objects have the members in
the same order (`fingerprint_iff`).
-/

namespace ChainKVM.Gateway

open Js (Val)

/-- The rules of a policy, as the values that they are at run time. -/
structure RuleList where
  rules : List Val
  plain : Js.ItemsPlain rules

namespace RuleList

/-- The JSON value that the rules are: members that are `undefined` are
absent. -/
def json (a : RuleList) : Json := .arr (Js.itemsToJson a.rules)

/-- The text that is hashed: `JSON.stringify(rules)`. -/
def hashedText (a : RuleList) : String := (Js.stringify (.arr a.rules)).getD ""

/-- `computeRulesHash`; `sha256` is the digest of a text, in hexadecimal. -/
def computeRulesHash (sha256 : String → String) (a : RuleList) : String := sha256 a.hashedText

/-- The hash tells two rule lists apart iff they differ as JSON values, whatever
the digest and in whichever two stores. -/
structure Fingerprint (a b : RuleList) : Prop where
  same : a.json.Same b.json → ∀ (sha256 : String → String) (s t : VersionedStore RuleList),
    s.computeHash (computeRulesHash sha256) a = t.computeHash (computeRulesHash sha256) b
  different : ¬a.json.Same b.json → a.hashedText ≠ b.hashedText

theorem json_wellFormed (a : RuleList) : a.json.WellFormed := Js.itemsToJson_wellFormed a.plain

theorem hashedText_eq (a : RuleList) : a.hashedText = String.ofList a.json.text := rfl

/-- The texts are equal iff the rules are, with their members in order. -/
theorem hashedText_inj {a b : RuleList} (h : a.hashedText = b.hashedText) : a.json = b.json := by
  rw [hashedText_eq, hashedText_eq] at h
  exact Json.text_inj a.json_wellFormed b.json_wellFormed (String.ofList_injective h)

/-- A rule, the identifier first or the effect. -/
def allowView (idFirst : Bool) : Val :=
  let id := ("id", Val.str "allow-view")
  let effect := ("effect", Val.str "allow")
  let rest := [("conditions", .arr []), ("actions", .arr [.str "teleop:view"]),
    ("priority", .num (.fin 100))]
  .obj (if idFirst then id :: effect :: rest else effect :: id :: rest)

theorem plain_allowView (idFirst : Bool) : Js.ItemsPlain [allowView idFirst] := by
  have hpriority : Js.IsDouble 100 := by
    unfold Js.IsDouble
    decide +kernel
  cases idFirst with
  | true =>
    exact ⟨⟨by decide, trivial, trivial, trivial, ⟨trivial, trivial⟩, hpriority, trivial⟩, trivial⟩
  | false =>
    exact ⟨⟨by decide, trivial, trivial, trivial, ⟨trivial, trivial⟩, hpriority, trivial⟩, trivial⟩

def viewRules (idFirst : Bool) : RuleList := ⟨[allowView idFirst], plain_allowView idFirst⟩

end RuleList

end ChainKVM.Gateway
