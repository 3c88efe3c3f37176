import ChainKVM.Gateway.PolicyValidator
import Mathlib.Algebra.Order.Ring.Rat
import Mathlib.Tactic.Linarith
import Mathlib.Tactic.NormNum

/-!
# Conditions that can hold

A condition holds in a context when its operator holds of what the context has
in its field. The validator asks for a value, of whatever kind; the evaluator
answers false when the value is not of a kind that the operator knows. So some
accepted conditions hold in no context: `in` with a text for its value.

What the fields of a context can have depends on the path alone: one fixed
value, any text, any time, or anything (`FieldKind`). A condition can hold iff
its value fits its operator and the kind of its field (`satisfiable_iff`).

Contexts are made from requests: no object in one is an object of the policy.
-/

namespace ChainKVM.Gateway

open Js (Val)

/-! ## Evaluation contexts -/

/-- The times of dates go this far, either way. -/
def maxTime : Int := 8640000000000000

/-- `EvaluationCredential`. -/
structure IsCredential (members : List (String × Val)) : Prop where
  issuer : ∃ s, members.lookup "issuer" = some (.str s)
  subject : ∃ s, members.lookup "subject" = some (.str s)
  role : (members.lookup "role").getD .undefined = .undefined ∨
    ∃ s, members.lookup "role" = some (.str s)

/-- `EvaluationRuntimeContext`. -/
structure IsRuntimeContext (members : List (String × Val)) : Prop where
  time : ∃ t, members.lookup "time" = some (.date t) ∧ -maxTime ≤ t ∧ t ≤ maxTime
  resource : ∃ s, members.lookup "resource" = some (.str s)
  action : ∃ s, members.lookup "action" = some (.str s)

/-- `EvaluationContext`. It may have other members, as its parts may. -/
def IsContext (context : Val) : Prop :=
  ∃ members credential runtime, context = .obj members ∧
    members.lookup "credential" = some (.obj credential) ∧
    members.lookup "context" = some (.obj runtime) ∧
    IsCredential credential ∧ IsRuntimeContext runtime

/-- Some context in which a condition holds. -/
def Satisfiable (c : PolicyCondition) : Prop :=
  ∃ context, IsContext context ∧ evaluateCondition c context = some true

/-! ## Kinds of fields -/

/-- What the contexts can have in a field. -/
inductive FieldKind where
  | fixed (v : Val)
  | text
  | time
  | anything

/-- The kind of a field of the credential or of the runtime context, where some
members are texts. As a whole it is an object, and all objects look alike to a
condition. A text has no fields. -/
def memberKind (texts : List String) : List String → FieldKind
  | [] => .fixed (.obj [])
  | name :: rest =>
    if texts.contains name then if rest.isEmpty then .text else .fixed .undefined
    else .anything

/-- The kind of a field of a date: only what is built in. -/
def timeKind : List String → FieldKind
  | [] => .time
  | rest => .fixed (getParts rest (.date 0))

/-- The kind of the field at a path. -/
def fieldKind : List String → FieldKind
  | [] => .fixed (.obj [])
  | root :: parts =>
    if root = "credential" then memberKind ["issuer", "subject", "role"] parts
    else if root = "context" then
      if parts.head? = some "time" then timeKind parts.tail
      else memberKind ["resource", "action"] parts
    else .anything

/-! ## Operators and values -/

/-- `evaluateCondition`, once the field is read. -/
def applyOperator (operator : ConditionOperator) (fieldValue value : Val) : Option Bool :=
  match operator with
  | .eq => some (fieldValue.strictEq value)
  | .neq => some !(fieldValue.strictEq value)
  | .inList => some (isIn fieldValue value)
  | .gt => (fieldValue.order value).map (· = some .gt)
  | .lt => (fieldValue.order value).map (· = some .lt)
  | .gte => (fieldValue.order value).map fun o => o = some .gt ∨ o = some .eq
  | .lte => (fieldValue.order value).map fun o => o = some .lt ∨ o = some .eq
  | .contains => some (contains fieldValue value)
  | .other _ => some false

/-- The orders that an ordering operator is for. -/
def accepts : ConditionOperator → Ordering → Bool
  | .gt, o => o = .gt
  | .lt, o => o = .lt
  | .gte, o => o = .gt ∨ o = .eq
  | .lte, o => o = .lt ∨ o = .eq
  | _, _ => false

/-- An ordering operator holds of two numbers. -/
def acceptsNumbers (operator : ConditionOperator) (m n : Js.Num) : Bool :=
  (m.order n).any (accepts operator)

/-- Of the numbers up to a bound, either way, the one that does best. -/
def extreme (operator : ConditionOperator) (bound : Js.Num) : Js.Num :=
  match operator with
  | .gt => bound
  | .gte => bound
  | _ => bound.neg

def isText : Val → Bool
  | .str _ => true
  | _ => false

def isDefined : Val → Bool
  | .undefined => false
  | _ => true

/-- The values that fit a text. No text is below the empty one. -/
def textFits (operator : ConditionOperator) (value : Val) : Bool :=
  match operator with
  | .eq => isText value
  | .neq => true
  | .inList => (arrayItems value).any isText
  | .contains => isText value
  | .other _ => false
  | operator =>
    match value.toPrimitive with
    | none => false
    | some (.str s) => operator ≠ .lt ∨ s ≠ ""
    | some p => acceptsNumbers operator (extreme operator .posInf) p.toNumber

/-- The values that fit a time: a date is equal to nothing, and compares as a
number. -/
def timeFits (operator : ConditionOperator) (value : Val) : Bool :=
  match operator with
  | .eq => false
  | .neq => true
  | .inList => false
  | .contains => false
  | .other _ => false
  | operator =>
    value.toPrimitive.any fun p =>
      acceptsNumbers operator (extreme operator (.fin maxTime)) p.toNumber

/-- The values that fit a field that may have anything. Objects are equal to
nothing. -/
def anythingFits (operator : ConditionOperator) (value : Val) : Bool :=
  match operator with
  | .eq => value.strictEq value
  | .neq => true
  | .inList => (arrayItems value).any fun item => isDefined item && item.sameValueZero item
  | .contains => value.sameValueZero value
  | .other _ => false
  | operator =>
    match value.toPrimitive with
    | none => false
    | some (.str _) => true
    | some p => acceptsNumbers operator (extreme operator .posInf) p.toNumber

/-- The values that fit an operator on a kind of field. -/
def FieldKind.fits : FieldKind → ConditionOperator → Val → Bool
  | .fixed .undefined, _, _ => false
  | .fixed v, operator, value => applyOperator operator v value = some true
  | .text, operator, value => textFits operator value
  | .time, operator, value => timeFits operator value
  | .anything, operator, value => anythingFits operator value

/-- The value of a condition fits its operator and its field. -/
def Fits (c : PolicyCondition) : Prop :=
  (fieldKind (pathParts c.field)).fits c.operator c.value = true

/-! ## Ordering -/

def isOrdering : ConditionOperator → Bool
  | .gt => true
  | .lt => true
  | .gte => true
  | .lte => true
  | _ => false

section Ordering

variable {operator : ConditionOperator} {v value p q : Val} {s t : String}

theorem applyOperator_ordering (h : isOrdering operator = true) :
    applyOperator operator v value = some true ↔
      ∃ o, v.order value = some (some o) ∧ accepts operator o = true := by
  cases horder : v.order value with
  | none =>
    constructor
    · intro hholds
      cases operator with
      | gt | lt | gte | lte =>
        unfold applyOperator at hholds
        rw [horder] at hholds
        cases hholds
      | _ => cases h
    · rintro ⟨o, ho, -⟩
      cases ho
  | some result =>
    have happly : applyOperator operator v value = some (result.any (accepts operator)) := by
      cases operator with
      | gt | lt | gte | lte =>
        unfold applyOperator
        rw [horder]
        cases result with
        | none => rfl
        | some o => cases o <;> rfl
      | _ => cases h
    rw [happly]
    cases result with
    | none => exact ⟨nofun, fun ⟨o, ho, _⟩ => (by cases ho)⟩
    | some o =>
      constructor
      · exact fun hholds => ⟨o, rfl, Option.some.inj hholds⟩
      · rintro ⟨o', ho, haccepts⟩
        cases ho
        exact congrArg some haccepts

theorem order_texts (hv : v.toPrimitive = some (.str s)) (hvalue : value.toPrimitive = some (.str t)) :
    v.order value = some (some (Js.orderUnits (Js.utf16 s) (Js.utf16 t))) := by
  unfold Val.order
  rw [hv, hvalue]
  rfl

theorem order_numbers (hv : v.toPrimitive = some p) (hvalue : value.toPrimitive = some q)
    (htexts : isText p = false ∨ isText q = false) :
    v.order value = some (p.toNumber.order q.toNumber) := by
  unfold Val.order
  rw [hv, hvalue]
  cases p with
  | str s =>
    cases q with
    | str t => rcases htexts with h | h <;> cases h
    | _ => rfl
  | _ => rfl

theorem applyOperator_numbers (h : isOrdering operator = true) (hv : v.toPrimitive = some p)
    (hvalue : value.toPrimitive = some q) (htexts : isText p = false ∨ isText q = false) :
    applyOperator operator v value = some true ↔
      acceptsNumbers operator p.toNumber q.toNumber = true := by
  rw [applyOperator_ordering h, order_numbers hv hvalue htexts]
  unfold acceptsNumbers
  cases p.toNumber.order q.toNumber with
  | none => exact ⟨fun ⟨o, ho, _⟩ => (by cases ho), nofun⟩
  | some o =>
    constructor
    · rintro ⟨o', ho, haccepts⟩
      cases ho
      exact haccepts
    · exact fun haccepts => ⟨o, rfl, haccepts⟩

end Ordering

/-! ## The best a field can do -/

/-- No number does better than an infinite one. -/
theorem accepts_infinite {operator : ConditionOperator} {m n : Js.Num}
    (h : acceptsNumbers operator m n = true) :
    acceptsNumbers operator (extreme operator .posInf) n = true := by
  cases operator with
  | gt | gte =>
    cases m with
    | nan => cases h
    | negInf => cases n <;> first | rfl | cases h
    | posInf => exact h
    | fin q => cases n <;> first | rfl | cases h
  | lt | lte =>
    cases m with
    | nan => cases h
    | negInf => exact h
    | posInf => cases n <;> first | rfl | cases h
    | fin q => cases n <;> first | rfl | cases h
  | _ =>
    unfold acceptsNumbers at h
    cases horder : m.order n with
    | none => rw [horder] at h; cases h
    | some o => rw [horder] at h; cases h

/-- An ordering operator on finite numbers. -/
def comparesTo (operator : ConditionOperator) (p q : Rat) : Prop :=
  match operator with
  | .gt => q < p
  | .lt => p < q
  | .gte => q ≤ p
  | .lte => p ≤ q
  | _ => False

theorem acceptsNumbers_fin (operator : ConditionOperator) (p q : Rat) :
    acceptsNumbers operator (.fin p) (.fin q) = true ↔ comparesTo operator p q := by
  show accepts operator (if p < q then .lt else if p = q then .eq else .gt) = true ↔ _
  rcases lt_trichotomy p q with hlt | heq | hgt
  · rw [if_pos hlt]
    cases operator <;> simp [accepts, comparesTo, hlt, hlt.le, hlt.not_gt]
  · rw [if_neg heq.not_lt, if_pos heq]
    cases operator <;> simp [accepts, comparesTo, heq]
  · rw [if_neg hgt.not_gt, if_neg hgt.ne']
    cases operator <;> simp [accepts, comparesTo, hgt, hgt.le, hgt.not_gt]

/-- No time does better than the last one, or the first. -/
theorem accepts_time {operator : ConditionOperator} {t : Int} {n : Js.Num} (hlow : -maxTime ≤ t)
    (hhigh : t ≤ maxTime) (h : acceptsNumbers operator (.fin (t : Rat)) n = true) :
    acceptsNumbers operator (extreme operator (.fin (maxTime : Rat))) n = true := by
  have hlow' : -(maxTime : Rat) ≤ t := by exact_mod_cast hlow
  have hhigh' : (t : Rat) ≤ maxTime := by exact_mod_cast hhigh
  cases n with
  | nan => cases h
  | negInf => cases operator <;> exact h
  | posInf => cases operator <;> exact h
  | fin q =>
    rw [acceptsNumbers_fin] at h
    cases operator with
    | gt => exact (acceptsNumbers_fin .gt _ _).mpr (lt_of_lt_of_le h hhigh')
    | gte => exact (acceptsNumbers_fin .gte _ _).mpr (le_trans h hhigh')
    | lt => exact (acceptsNumbers_fin .lt _ _).mpr (lt_of_le_of_lt hlow' h)
    | lte => exact (acceptsNumbers_fin .lte _ _).mpr (le_trans hlow' h)
    | _ => cases h

/-! ## Texts by their code units -/

theorem orderUnits_self (us : List Nat) : Js.orderUnits us us = .eq := by
  induction us with
  | nil => rfl
  | cons u us ih =>
    unfold Js.orderUnits
    rw [if_neg (Nat.lt_irrefl u), if_neg (Nat.lt_irrefl u)]
    exact ih

/-- A longer text is above. -/
theorem orderUnits_append (us : List Nat) (v : Nat) (vs : List Nat) :
    Js.orderUnits (us ++ v :: vs) us = .gt := by
  induction us with
  | nil => rfl
  | cons u us ih =>
    rw [List.cons_append]
    unfold Js.orderUnits
    rw [if_neg (Nat.lt_irrefl u), if_neg (Nat.lt_irrefl u)]
    exact ih

theorem orderUnits_nil_ne_lt (us : List Nat) : Js.orderUnits us [] ≠ .lt := by
  cases us <;> nofun

theorem utf16_append (s t : String) : Js.utf16 (s ++ t) = Js.utf16 s ++ Js.utf16 t := by
  unfold Js.utf16
  rw [String.toList_append, List.flatMap_append]

/-- The empty text is below all others. -/
theorem orderUnits_of_ne_empty {s : String} (h : s ≠ "") :
    Js.orderUnits (Js.utf16 "") (Js.utf16 s) = .lt := by
  have hunits : Js.utf16 s ≠ [] := by
    unfold Js.utf16
    cases hchars : s.toList with
    | nil => exact absurd (String.toList_eq_nil_iff.mp hchars) h
    | cons c cs =>
      rw [List.flatMap_cons]
      split <;> simp
  cases hcases : Js.utf16 s with
  | nil => exact absurd hcases hunits
  | cons u us => rfl

/-! ## The values that fit -/

section Kinds

variable {operator : ConditionOperator} {value : Val}

/-- Some text does what an infinite number does. -/
def extremeText (operator : ConditionOperator) : String :=
  match operator with
  | .gt => "Infinity"
  | .gte => "Infinity"
  | _ => "-Infinity"

theorem toNumber_extremeText (operator : ConditionOperator) :
    (Val.str (extremeText operator)).toNumber = extreme operator .posInf := by
  have hpos : Js.stringToNumber "Infinity" = .posInf := by decide +kernel
  have hneg : Js.stringToNumber "-Infinity" = .negInf := by decide +kernel
  cases operator with
  | gt | gte => exact hpos
  | _ => exact hneg

/-- A text above or below a given one, whatever the operator asks for. -/
theorem exists_text_accepts (h : isOrdering operator = true) {s : String}
    (hs : operator ≠ .lt ∨ s ≠ "") :
    ∃ t, accepts operator (Js.orderUnits (Js.utf16 t) (Js.utf16 s)) = true := by
  cases operator with
  | gt =>
    refine ⟨s ++ "a", ?_⟩
    rw [utf16_append]
    exact congrArg (accepts .gt) (orderUnits_append (Js.utf16 s) 97 [])
  | gte => exact ⟨s, congrArg (accepts .gte) (orderUnits_self _)⟩
  | lte => exact ⟨s, congrArg (accepts .lte) (orderUnits_self _)⟩
  | lt =>
    rcases hs with hs | hs
    · exact absurd rfl hs
    · exact ⟨"", congrArg (accepts .lt) (orderUnits_of_ne_empty hs)⟩
  | _ => cases h

theorem not_applies_of_throws (h : isOrdering operator = true) {v : Val}
    (hthrows : v.order value = none) : applyOperator operator v value ≠ some true := by
  intro hholds
  obtain ⟨o, ho, -⟩ := (applyOperator_ordering h).mp hholds
  rw [hthrows] at ho
  cases ho

theorem order_of_value_throws {v : Val} (h : value.toPrimitive = none) : v.order value = none := by
  unfold Val.order
  rw [h]
  cases v.toPrimitive <;> rfl

theorem order_of_field_throws {v : Val} (h : v.toPrimitive = none) : v.order value = none := by
  unfold Val.order
  rw [h]
  rfl

/-- A text can be above or below the value of an ordering condition. -/
theorem text_ordering_iff (h : isOrdering operator = true) :
    (∃ s, applyOperator operator (.str s) value = some true) ↔
      textFits operator value = true := by
  have htable : textFits operator value = match value.toPrimitive with
      | none => false
      | some (.str s) => operator ≠ .lt ∨ s ≠ ""
      | some p => acceptsNumbers operator (extreme operator .posInf) p.toNumber := by
    cases operator with
    | gt | lt | gte | lte => rfl
    | _ => cases h
  rw [htable]
  cases hvalue : value.toPrimitive with
  | none =>
    constructor
    · rintro ⟨s, hs⟩
      exact absurd hs (not_applies_of_throws h (order_of_value_throws hvalue))
    · nofun
  | some p =>
    cases hp : p with
    | str t =>
      rw [hp] at hvalue
      -- two texts compare by their units, and nothing is below the empty one
      have hiff (s : String) : applyOperator operator (.str s) value = some true ↔
          accepts operator (Js.orderUnits (Js.utf16 s) (Js.utf16 t)) = true := by
        rw [applyOperator_ordering h, order_texts rfl hvalue]
        constructor
        · rintro ⟨o, ho, haccepts⟩
          cases ho
          exact haccepts
        · exact fun haccepts => ⟨_, rfl, haccepts⟩
      constructor
      · rintro ⟨s, hs⟩
        refine decide_eq_true (Decidable.not_and_iff_not_or_not.mp ?_)
        rintro ⟨hlt, hempty⟩
        have haccepts := (hiff s).mp hs
        rw [hlt, hempty] at haccepts
        exact orderUnits_nil_ne_lt _ (of_decide_eq_true haccepts)
      · intro hfits
        obtain ⟨s, hs⟩ := exists_text_accepts h (of_decide_eq_true hfits)
        exact ⟨s, (hiff s).mpr hs⟩
    | _ =>
      rw [hp] at hvalue
      constructor
      · rintro ⟨s, hs⟩
        -- if some number is accepted then so is an infinite one, which a text can be
        exact accepts_infinite ((applyOperator_numbers h rfl hvalue (.inr rfl)).mp hs)
      · intro hfits
        refine ⟨extremeText operator, (applyOperator_numbers h rfl hvalue (.inr rfl)).mpr ?_⟩
        rw [toNumber_extremeText]
        exact hfits

theorem strictEq_text_iff {s : String} : (Val.str s).strictEq value = true ↔ value = .str s := by
  cases value with
  | str t =>
    constructor
    · exact fun h => congrArg Val.str (of_decide_eq_true h).symm
    · exact fun h => decide_eq_true (Val.str.inj h).symm
  | _ => exact ⟨nofun, nofun⟩

theorem isText_iff : isText value = true ↔ ∃ s, value = .str s := by
  cases value with
  | str s => exact ⟨fun _ => ⟨s, rfl⟩, fun _ => rfl⟩
  | _ => exact ⟨nofun, fun ⟨s, h⟩ => (by cases h)⟩

theorem sameValueZero_text_iff {item : Val} {s : String} :
    item.sameValueZero (.str s) = true ↔ item = .str s := by
  have hstrict : item.sameValueZero (.str s) = item.strictEq (.str s) := by
    cases item <;> rfl
  rw [hstrict]
  exact Val.strictEq_str item s

/-- Which values some text meets. -/
theorem text_iff : (∃ s, applyOperator operator (.str s) value = some true) ↔
    textFits operator value = true := by
  cases operator with
  | eq =>
    show (∃ s, some ((Val.str s).strictEq value) = some true) ↔ isText value = true
    rw [isText_iff]
    exact exists_congr fun s => Option.some_inj.trans strictEq_text_iff
  | neq =>
    refine ⟨fun _ => rfl, fun _ => ?_⟩
    have hdiffers {s : String} (h : value ≠ .str s) :
        applyOperator .neq (.str s) value = some true := by
      refine congrArg some (Bool.not_eq_true' _ |>.mpr ?_)
      exact Bool.eq_false_iff.mpr fun heq => h (strictEq_text_iff.mp heq)
    by_cases hempty : value = .str ""
    · refine ⟨"a", hdiffers ?_⟩
      rw [hempty]
      intro hsame
      exact absurd (Val.str.inj hsame) (by decide)
    · exact ⟨"", hdiffers hempty⟩
  | inList =>
    show (∃ s, some (isIn (.str s) value) = some true) ↔ (arrayItems value).any isText = true
    rw [List.any_eq_true]
    constructor
    · rintro ⟨s, hs⟩
      obtain ⟨item, hitem, hsame⟩ := isIn_iff.mp (Option.some.inj hs)
      exact ⟨item, hitem, isText_iff.mpr ⟨s, sameValueZero_text_iff.mp hsame⟩⟩
    · rintro ⟨item, hitem, htext⟩
      obtain ⟨s, rfl⟩ := isText_iff.mp htext
      exact ⟨s, congrArg some (isIn_iff.mpr ⟨_, hitem, sameValueZero_text_iff.mpr rfl⟩)⟩
  | contains =>
    show (∃ s, some (contains (.str s) value) = some true) ↔ isText value = true
    rw [isText_iff]
    constructor
    · rintro ⟨s, hs⟩
      cases value with
      | str t => exact ⟨t, rfl⟩
      | _ => cases hs
    · rintro ⟨s, rfl⟩
      exact ⟨s, congrArg some (decide_eq_true (List.infix_refl s.toList))⟩
  | gt | lt | gte | lte => exact text_ordering_iff rfl
  | other name => exact ⟨fun ⟨s, h⟩ => (by cases h), nofun⟩

/-- Which values some time meets. -/
theorem time_iff : (∃ t, -maxTime ≤ t ∧ t ≤ maxTime ∧
    applyOperator operator (.date t) value = some true) ↔ timeFits operator value = true := by
  have hzero : -maxTime ≤ 0 ∧ (0 : Int) ≤ maxTime := by decide
  have hordering (h : isOrdering operator = true) : (∃ t, -maxTime ≤ t ∧ t ≤ maxTime ∧
      applyOperator operator (.date t) value = some true) ↔ (value.toPrimitive.any fun p =>
        acceptsNumbers operator (extreme operator (.fin maxTime)) p.toNumber) = true := by
    cases hvalue : value.toPrimitive with
    | none =>
      constructor
      · rintro ⟨t, -, -, ht⟩
        exact absurd ht (not_applies_of_throws h (order_of_value_throws hvalue))
      · nofun
    | some p =>
      have hiff (t : Int) : applyOperator operator (.date t) value = some true ↔
          acceptsNumbers operator (.fin (t : Rat)) p.toNumber = true :=
        have hnumber : (Val.date t).toPrimitive = some (.num (.fin (t : Rat))) := rfl
        applyOperator_numbers h hnumber hvalue (.inl rfl)
      constructor
      · rintro ⟨t, hlow, hhigh, ht⟩
        exact accepts_time hlow hhigh ((hiff t).mp ht)
      · intro hfits
        -- the extreme is itself a time
        have hlast : extreme operator (.fin maxTime) = .fin ((maxTime : Int) : Rat) ∨
            extreme operator (.fin maxTime) = .fin ((-maxTime : Int) : Rat) := by
          rw [Int.cast_neg]
          cases operator with
          | gt | gte => exact .inl rfl
          | _ => exact .inr rfl
        rcases hlast with hlast | hlast
        · exact ⟨maxTime, by decide, by decide, (hiff _).mpr (by rw [← hlast]; exact hfits)⟩
        · exact ⟨-maxTime, by decide, by decide, (hiff _).mpr (by rw [← hlast]; exact hfits)⟩
  cases operator with
  | eq =>
    refine ⟨fun ⟨t, _, _, ht⟩ => ?_, nofun⟩
    have hequal := strictEq_of_isObject (v := .date t) rfl value
    exact absurd hequal (by rw [Option.some.inj ht]; nofun)
  | neq =>
    have hequal := strictEq_of_isObject (v := .date 0) rfl value
    exact ⟨fun _ => rfl, fun _ => ⟨0, hzero.1, hzero.2, congrArg (fun b => some !b) hequal⟩⟩
  | inList =>
    refine ⟨fun ⟨t, _, _, ht⟩ => ?_, nofun⟩
    have hin := isIn_of_isObject (v := .date t) rfl value
    exact absurd hin (by rw [Option.some.inj ht]; nofun)
  | contains => exact ⟨fun ⟨t, _, _, ht⟩ => (by cases ht), nofun⟩
  | gt | lt | gte | lte => exact hordering rfl
  | other name => exact ⟨fun ⟨t, _, _, ht⟩ => (by cases ht), nofun⟩

/-- What is above or below the value of an ordering condition is anything, or
a number. -/
theorem anything_ordering_iff (h : isOrdering operator = true) :
    (∃ v, isDefined v = true ∧ applyOperator operator v value = some true) ↔
      anythingFits operator value = true := by
  have htable : anythingFits operator value = match value.toPrimitive with
      | none => false
      | some (.str _) => true
      | some p => acceptsNumbers operator (extreme operator .posInf) p.toNumber := by
    cases operator with
    | gt | lt | gte | lte => rfl
    | _ => cases h
  rw [htable]
  cases hvalue : value.toPrimitive with
  | none =>
    constructor
    · rintro ⟨v, -, hv⟩
      exact absurd hv (not_applies_of_throws h (order_of_value_throws hvalue))
    · nofun
  | some p =>
    cases hp : p with
    | str t =>
      rw [hp] at hvalue
      refine ⟨fun _ => rfl, fun _ => ?_⟩
      by_cases hempty : operator ≠ .lt ∨ t ≠ ""
      · obtain ⟨s, hs⟩ := exists_text_accepts h hempty
        refine ⟨.str s, rfl, (applyOperator_ordering h).mpr ⟨_, order_texts rfl hvalue, hs⟩⟩
      · -- no text is below the empty one, but a number is below its zero
        obtain ⟨hlt, ht⟩ := not_or.mp hempty
        obtain rfl := not_ne_iff.mp hlt
        obtain rfl := not_ne_iff.mp ht
        have hzero : Js.stringToNumber "" = .fin 0 := by decide +kernel
        have hnumber : (Val.num .negInf).toPrimitive = some (.num .negInf) := rfl
        refine ⟨.num .negInf, rfl, (applyOperator_numbers h hnumber hvalue (.inl rfl)).mpr ?_⟩
        show acceptsNumbers .lt .negInf (Js.stringToNumber "") = true
        rw [hzero]
        rfl
    | _ =>
      rw [hp] at hvalue
      constructor
      · rintro ⟨v, -, hv⟩
        cases hprimitive : v.toPrimitive with
        | none => exact absurd hv (not_applies_of_throws h (order_of_field_throws hprimitive))
        | some q =>
          exact accepts_infinite ((applyOperator_numbers h hprimitive hvalue (.inr rfl)).mp hv)
      · intro hfits
        have hnumber : (Val.num (extreme operator .posInf)).toPrimitive =
            some (.num (extreme operator .posInf)) := rfl
        exact ⟨_, rfl, (applyOperator_numbers h hnumber hvalue (.inl rfl)).mpr hfits⟩

/-- Only primitives are the same as something, and that is themselves. -/
theorem eq_of_strictEq {v w : Val} (h : v.strictEq w = true) : v = w := by
  cases v with
  | undefined | null => cases w <;> first | rfl | cases h
  | bool a =>
    cases w with
    | bool b => exact congrArg Val.bool (of_decide_eq_true h)
    | _ => cases h
  | num a =>
    cases w with
    | num b => exact congrArg Val.num (of_decide_eq_true h).1
    | _ => cases h
  | str a => exact (strictEq_text_iff.mp h).symm
  | _ => cases w <;> cases h

theorem eq_of_sameValueZero {v w : Val} (h : v.sameValueZero w = true) : v = w := by
  cases v with
  | num a =>
    cases w with
    | num b => exact congrArg Val.num (of_decide_eq_true h)
    | _ => cases h
  | _ => exact eq_of_strictEq h

/-- Which values something meets. -/
theorem anything_iff (hvalue : isDefined value = true) :
    (∃ v, isDefined v = true ∧ applyOperator operator v value = some true) ↔
      anythingFits operator value = true := by
  cases operator with
  | eq =>
    constructor
    · rintro ⟨v, -, hv⟩
      have hsame := Option.some.inj hv
      rw [eq_of_strictEq hsame] at hsame
      exact hsame
    · exact fun hself => ⟨value, hvalue, congrArg some hself⟩
  | neq =>
    refine ⟨fun _ => rfl, fun _ => ⟨.obj [], rfl, ?_⟩⟩
    exact congrArg (fun b => some !b) (strictEq_of_isObject rfl value)
  | inList =>
    show _ ↔ ((arrayItems value).any fun item => isDefined item && item.sameValueZero item) = true
    rw [List.any_eq_true]
    constructor
    · rintro ⟨v, hv, hholds⟩
      obtain ⟨item, hitem, hsame⟩ := isIn_iff.mp (Option.some.inj hholds)
      obtain rfl := eq_of_sameValueZero hsame
      exact ⟨item, hitem, Bool.and_eq_true_iff.mpr ⟨hv, hsame⟩⟩
    · rintro ⟨item, hitem, hboth⟩
      obtain ⟨hdefined, hself⟩ := Bool.and_eq_true_iff.mp hboth
      exact ⟨item, hdefined, congrArg some (isIn_iff.mpr ⟨item, hitem, hself⟩)⟩
  | contains =>
    show (∃ v, isDefined v = true ∧ some (contains v value) = some true) ↔
      value.sameValueZero value = true
    constructor
    · rintro ⟨v, -, hholds⟩
      cases v with
      | str s =>
        cases value with
        | str t => exact decide_eq_true rfl
        | _ => cases hholds
      | arr items =>
        obtain ⟨item, -, hsame⟩ := List.any_eq_true.mp (Option.some.inj hholds)
        rw [eq_of_sameValueZero hsame] at hsame
        exact hsame
      | _ => cases hholds
    · intro hself
      refine ⟨.arr [value], rfl, congrArg some ?_⟩
      exact List.any_eq_true.mpr ⟨value, List.mem_singleton_self value, hself⟩
  | gt | lt | gte | lte => exact anything_ordering_iff rfl
  | other name => exact ⟨fun ⟨v, _, hv⟩ => (by cases hv), nofun⟩

end Kinds

/-! ## What the fields of contexts can have -/

section Fields

variable {operator : ConditionOperator} {value : Val}

/-- What the field has makes the condition hold. -/
def Meets (operator : ConditionOperator) (value v : Val) : Prop :=
  isDefined v = true ∧ applyOperator operator v value = some true

theorem evaluateCondition_iff {c : PolicyCondition} {context : Val} :
    evaluateCondition c context = some true ↔
      Meets c.operator c.value (getFieldValue c.field context) := by
  unfold evaluateCondition Meets
  cases getFieldValue c.field context with
  | undefined => exact ⟨nofun, fun h => (by cases h.1)⟩
  | _ => exact ⟨fun h => ⟨rfl, h⟩, fun h => h.2⟩

theorem fits_fixed {v : Val} : (FieldKind.fixed v).fits operator value = true ↔
    Meets operator value v := by
  cases v with
  | undefined => exact ⟨nofun, fun h => (by cases h.1)⟩
  | _ => exact ⟨fun h => ⟨rfl, of_decide_eq_true h⟩, fun h => decide_eq_true h.2⟩

theorem not_meets_undefined : ¬Meets operator value .undefined := fun h => by cases h.1

/-- An object compares as the empty one, if it has no text of its own. -/
theorem order_obj (members : List (String × Val)) : (Val.obj members).order value =
    if (members.lookup "toString").isSome then none else (Val.obj []).order value := by
  split
  next h =>
    refine order_of_field_throws ?_
    unfold Val.toPrimitive
    rw [if_pos h]
  next h =>
    have hprimitive : (Val.obj members).toPrimitive = (Val.obj []).toPrimitive := by
      unfold Val.toPrimitive
      rw [if_neg h]
      rfl
    unfold Val.order
    rw [hprimitive]

theorem applyOperator_obj (members : List (String × Val)) (h : isOrdering operator = false) :
    applyOperator operator (.obj members) value = applyOperator operator (.obj []) value := by
  have hequal (ms : List (String × Val)) : (Val.obj ms).strictEq value = false :=
    strictEq_of_isObject rfl value
  have hin (ms : List (String × Val)) : isIn (.obj ms) value = false := isIn_of_isObject rfl value
  cases operator with
  | eq => exact congrArg some ((hequal members).trans (hequal []).symm)
  | neq => exact congrArg (fun b => some !b) ((hequal members).trans (hequal []).symm)
  | inList => exact congrArg some ((hin members).trans (hin []).symm)
  | contains => rfl
  | gt | lt | gte | lte => cases h
  | other name => rfl

/-- To a condition that holds, an object looks like the empty one. -/
theorem meets_empty {members : List (String × Val)} (h : Meets operator value (.obj members)) :
    Meets operator value (.obj []) := by
  refine ⟨rfl, ?_⟩
  cases hordering : isOrdering operator with
  | false => rw [← applyOperator_obj members hordering]; exact h.2
  | true =>
    obtain ⟨o, ho, haccepts⟩ := (applyOperator_ordering hordering).mp h.2
    rw [order_obj] at ho
    split at ho
    · cases ho
    · exact (applyOperator_ordering hordering).mpr ⟨o, ho, haccepts⟩

theorem meets_of_empty {members : List (String × Val)}
    (hnone : members.lookup "toString" = none) (h : Meets operator value (.obj [])) :
    Meets operator value (.obj members) := by
  refine ⟨rfl, ?_⟩
  cases hordering : isOrdering operator with
  | false => rw [applyOperator_obj members hordering]; exact h.2
  | true =>
    obtain ⟨o, ho, haccepts⟩ := (applyOperator_ordering hordering).mp h.2
    refine (applyOperator_ordering hordering).mpr ⟨o, ?_, haccepts⟩
    rw [order_obj, hnone]
    exact ho

theorem get_of_lookup {members : List (String × Val)} {name : String} {v : Val}
    (h : members.lookup name = some v) : (Val.obj members).get name = v := by
  have hfind : (Val.obj members).find name = some v := by
    show (members.lookup name).or _ = some v
    rw [h]
    rfl
  unfold Val.get
  rw [hfind]

/-- A value under a path. -/
def nested : List String → Val → Val
  | [], v => v
  | part :: parts, v => .obj [(part, nested parts v)]

theorem getParts_nested (parts : List String) (v : Val) : getParts parts (nested parts v) = v := by
  induction parts with
  | nil => rfl
  | cons part parts ih =>
    have hget : (nested (part :: parts) v).get part = nested parts v :=
      get_of_lookup (by rw [List.lookup_cons, beq_self_eq_true])
    show getParts parts ((nested (part :: parts) v).get part) = v
    rw [hget]
    exact ih

/-- Objects of a type some of whose members are texts, and some of another
kind. -/
structure HasTexts (texts others : List String) (P : List (String × Val) → Prop) : Prop where
  plain : ∃ members, P members ∧ members.lookup "toString" = none
  reads : ∀ members, P members → ∀ name ∈ texts, (Val.obj members).get name = .undefined ∨
    ∃ s, (Val.obj members).get name = .str s
  takesText : ∀ name ∈ texts, ∀ s, ∃ members, P members ∧ (Val.obj members).get name = .str s
  takes : ∀ name, name ∉ texts → name ∉ others → ∀ v, ∃ members, P members ∧
    (Val.obj members).get name = v

/-- What a field of such objects can have is of its kind. -/
theorem HasTexts.iff {texts others : List String} {P : List (String × Val) → Prop}
    (h : HasTexts texts others P) (hvalue : isDefined value = true) {parts : List String}
    (hparts : ∀ name ∈ parts.head?, name ∉ others) :
    (∃ members, P members ∧ Meets operator value (getParts parts (.obj members))) ↔
      (memberKind texts parts).fits operator value = true := by
  cases parts with
  | nil =>
    obtain ⟨plain, hplain, hnone⟩ := h.plain
    refine Iff.trans ?_ fits_fixed.symm
    exact ⟨fun ⟨members, _, hmeets⟩ => meets_empty hmeets,
      fun hmeets => ⟨plain, hplain, meets_of_empty hnone hmeets⟩⟩
  | cons name rest =>
    have hread (members : List (String × Val)) : getParts (name :: rest) (.obj members) =
        getParts rest ((Val.obj members).get name) := rfl
    rw [memberKind]
    by_cases htext : name ∈ texts
    · rw [if_pos (List.contains_iff_mem.mpr htext)]
      cases rest with
      | nil =>
        have hfits : (∃ s, applyOperator operator (.str s) value = some true) ↔
            textFits operator value = true := text_iff
        refine Iff.trans ?_ hfits
        constructor
        · rintro ⟨members, hmembers, hmeets⟩
          rw [hread] at hmeets
          rcases h.reads members hmembers name htext with hnone | ⟨s, hs⟩
          · rw [hnone] at hmeets
            exact absurd hmeets not_meets_undefined
          · rw [hs] at hmeets
            exact ⟨s, hmeets.2⟩
        · rintro ⟨s, hs⟩
          obtain ⟨members, hmembers, hget⟩ := h.takesText name htext s
          refine ⟨members, hmembers, ?_⟩
          rw [hread, hget]
          exact ⟨rfl, hs⟩
      | cons part rest =>
        -- a path does not go on into a text, or into what is not there
        refine ⟨?_, nofun⟩
        rintro ⟨members, hmembers, hmeets⟩
        rw [hread] at hmeets
        rcases h.reads members hmembers name htext with hnone | ⟨s, hs⟩
        · rw [hnone] at hmeets
          exact absurd hmeets not_meets_undefined
        · rw [hs] at hmeets
          exact absurd hmeets not_meets_undefined
    · rw [if_neg fun hcontains => htext (List.contains_iff_mem.mp hcontains)]
      refine Iff.trans ?_ (anything_iff hvalue)
      constructor
      · exact fun ⟨members, _, hmeets⟩ => ⟨_, hmeets⟩
      · rintro ⟨v, hmeets⟩
        -- what is asked for is put where the path leads
        obtain ⟨members, hmembers, hget⟩ := h.takes name htext (hparts name rfl) (nested rest v)
        refine ⟨members, hmembers, ?_⟩
        rw [hread, hget, getParts_nested]
        exact hmeets

/-! ### The contexts there are -/

/-- The members with one of them set. -/
def setMember (name : String) (v : Val) (members : List (String × Val)) : List (String × Val) :=
  (name, v) :: members.filter fun m => m.1 ≠ name

theorem lookup_setMember_self (name : String) (v : Val) (members : List (String × Val)) :
    (setMember name v members).lookup name = some v := by
  unfold setMember
  rw [List.lookup_cons, beq_self_eq_true]

theorem lookup_filter_of_ne {name name' : String} (h : name' ≠ name)
    (members : List (String × Val)) :
    (members.filter fun m => m.1 ≠ name).lookup name' = members.lookup name' := by
  induction members with
  | nil => rfl
  | cons m members ih =>
    obtain ⟨key, w⟩ := m
    by_cases hkey : key = name
    · have hne : name' ≠ key := by rw [hkey]; exact h
      rw [List.filter_cons_of_neg (by simpa using hkey), ih, List.lookup_cons,
        beq_eq_false_iff_ne.mpr hne]
    · rw [List.filter_cons_of_pos (by simpa using hkey), List.lookup_cons, List.lookup_cons, ih]

theorem lookup_setMember_of_ne {name name' : String} (h : name' ≠ name) (v : Val)
    (members : List (String × Val)) :
    (setMember name v members).lookup name' = members.lookup name' := by
  unfold setMember
  rw [List.lookup_cons, beq_eq_false_iff_ne.mpr h]
  exact lookup_filter_of_ne h members

def someCredential : List (String × Val) := [("issuer", .str ""), ("subject", .str "")]

def someRuntimeContext : List (String × Val) :=
  [("time", .date 0), ("resource", .str ""), ("action", .str "")]

def someContext (credential runtime : List (String × Val)) : List (String × Val) :=
  [("credential", .obj credential), ("context", .obj runtime)]

/-- Another member may be set, or this one to a text: a text is still one. -/
theorem lookup_setMember_text {texts : List String} {name : String} {v : Val}
    (h : name ∉ texts ∨ ∃ s, v = .str s) {key : String} (hkey : key ∈ texts)
    (members : List (String × Val)) :
    (setMember name v members).lookup key = members.lookup key ∨
      ∃ s, (setMember name v members).lookup key = some (.str s) := by
  by_cases hname : key = name
  · subst hname
    rcases h with h | ⟨s, rfl⟩
    · exact absurd hkey h
    · exact .inr ⟨s, lookup_setMember_self _ _ _⟩
  · exact .inl (lookup_setMember_of_ne hname v members)

theorem isCredential_set {name : String} {v : Val}
    (h : name ∉ ["issuer", "subject", "role"] ∨ ∃ s, v = .str s) :
    IsCredential (setMember name v someCredential) where
  issuer := (lookup_setMember_text h (by decide) someCredential).elim (fun heq => ⟨"", heq⟩) id
  subject := (lookup_setMember_text h (by decide) someCredential).elim (fun heq => ⟨"", heq⟩) id
  role := by
    rcases lookup_setMember_text h (by decide : "role" ∈ _) someCredential with heq | hs
    · refine .inl ?_
      rw [heq]
      rfl
    · exact .inr hs

theorem isRuntimeContext_set {name : String} {v : Val} (htime : name ≠ "time")
    (h : name ∉ ["resource", "action"] ∨ ∃ s, v = .str s) :
    IsRuntimeContext (setMember name v someRuntimeContext) where
  time := ⟨0, lookup_setMember_of_ne htime.symm _ _, by decide, by decide⟩
  resource :=
    (lookup_setMember_text h (by decide) someRuntimeContext).elim (fun heq => ⟨"", heq⟩) id
  action :=
    (lookup_setMember_text h (by decide) someRuntimeContext).elim (fun heq => ⟨"", heq⟩) id

/-- A member that is not there, under a name that nothing built in has. -/
theorem get_of_lookup_none {members : List (String × Val)} {name : String}
    (h : members.lookup name = none) (hown : Js.Proto.own .object name = none)
    (hname : name ≠ "__proto__") : (Val.obj members).get name = .undefined := by
  have hfind : (Val.obj members).find name = none := by
    show (members.lookup name).or (Js.Proto.own .object name) = none
    rw [h, hown]
    rfl
  unfold Val.get
  rw [hfind]
  exact if_neg hname

theorem hasTexts_credential : HasTexts ["issuer", "subject", "role"] [] IsCredential where
  plain := by
    have hset : IsCredential (setMember "role" (.str "") someCredential) :=
      isCredential_set (.inr ⟨"", rfl⟩)
    exact ⟨_, hset, by decide +kernel⟩
  reads members hmembers name hname := by
    simp only [List.mem_cons, List.not_mem_nil, or_false] at hname
    rcases hname with rfl | rfl | rfl
    · exact .inr (hmembers.issuer.imp fun s hs => get_of_lookup hs)
    · exact .inr (hmembers.subject.imp fun s hs => get_of_lookup hs)
    · rcases hmembers.role with hrole | hrole
      · refine .inl ?_
        cases hlookup : members.lookup "role" with
        | none => exact get_of_lookup_none hlookup (by decide +kernel) (by decide)
        | some v =>
          rw [hlookup] at hrole
          rw [get_of_lookup hlookup]
          exact hrole
      · exact .inr (hrole.imp fun s hs => get_of_lookup hs)
  takesText name _ s :=
    ⟨_, isCredential_set (.inr ⟨s, rfl⟩), get_of_lookup (lookup_setMember_self name _ _)⟩
  takes name hname _ v :=
    ⟨_, isCredential_set (.inl hname), get_of_lookup (lookup_setMember_self name _ _)⟩

theorem hasTexts_runtimeContext : HasTexts ["resource", "action"] ["time"] IsRuntimeContext where
  plain := by
    have hset : IsRuntimeContext (setMember "action" (.str "") someRuntimeContext) :=
      isRuntimeContext_set (by decide) (.inr ⟨"", rfl⟩)
    exact ⟨_, hset, by decide +kernel⟩
  reads members hmembers name hname := by
    simp only [List.mem_cons, List.not_mem_nil, or_false] at hname
    rcases hname with rfl | rfl
    · exact .inr (hmembers.resource.imp fun s hs => get_of_lookup hs)
    · exact .inr (hmembers.action.imp fun s hs => get_of_lookup hs)
  takesText name hname s := by
    have htime : name ≠ "time" := by
      rintro rfl
      exact absurd hname (by decide)
    exact ⟨_, isRuntimeContext_set htime (.inr ⟨s, rfl⟩),
      get_of_lookup (lookup_setMember_self name _ _)⟩
  takes name hname htime v :=
    ⟨_, isRuntimeContext_set (fun h => htime (List.mem_singleton.mpr h)) (.inl hname),
      get_of_lookup (lookup_setMember_self name _ _)⟩

theorem isRuntimeContext_time {t : Int} (hlow : -maxTime ≤ t) (hhigh : t ≤ maxTime) :
    IsRuntimeContext (setMember "time" (.date t) someRuntimeContext) := by
  refine ⟨⟨t, lookup_setMember_self _ _ _, hlow, hhigh⟩, ⟨"", ?_⟩, ⟨"", ?_⟩⟩
  · rw [lookup_setMember_of_ne (by decide)]
    rfl
  · rw [lookup_setMember_of_ne (by decide)]
    rfl

/-- The time of the runtime context, and what is built into it. -/
theorem time_fits_iff {parts : List String} :
    (∃ members, IsRuntimeContext members ∧
      Meets operator value (getParts ("time" :: parts) (.obj members))) ↔
      (timeKind parts).fits operator value = true := by
  have hread {members : List (String × Val)} {t : Int}
      (ht : members.lookup "time" = some (.date t)) :
      getParts ("time" :: parts) (.obj members) = getParts parts (.date t) := by
    show getParts parts ((Val.obj members).get "time") = _
    rw [get_of_lookup ht]
  cases parts with
  | nil =>
    have hfits : (∃ t, -maxTime ≤ t ∧ t ≤ maxTime ∧
        applyOperator operator (.date t) value = some true) ↔ timeFits operator value = true :=
      time_iff
    refine Iff.trans ?_ hfits
    constructor
    · rintro ⟨members, hmembers, hmeets⟩
      obtain ⟨t, ht, hlow, hhigh⟩ := hmembers.time
      rw [hread ht] at hmeets
      exact ⟨t, hlow, hhigh, hmeets.2⟩
    · rintro ⟨t, hlow, hhigh, ht⟩
      refine ⟨_, isRuntimeContext_time hlow hhigh, ?_⟩
      rw [hread (lookup_setMember_self _ _ _)]
      exact ⟨rfl, ht⟩
  | cons part parts =>
    refine Iff.trans ?_ fits_fixed.symm
    constructor
    · rintro ⟨members, hmembers, hmeets⟩
      obtain ⟨t, ht, -, -⟩ := hmembers.time
      rw [hread ht] at hmeets
      exact hmeets
    · intro hmeets
      have hzero : IsRuntimeContext (setMember "time" (.date 0) someRuntimeContext) :=
        isRuntimeContext_time (by decide) (by decide)
      refine ⟨_, hzero, ?_⟩
      rw [hread (lookup_setMember_self _ _ _)]
      exact hmeets

theorem isContext_someContext {credential runtime : List (String × Val)}
    (hcredential : IsCredential credential) (hruntime : IsRuntimeContext runtime) :
    IsContext (.obj (someContext credential runtime)) :=
  ⟨_, credential, runtime, rfl, rfl, rfl, hcredential, hruntime⟩

theorem isCredential_some : IsCredential someCredential :=
  ⟨⟨"", rfl⟩, ⟨"", rfl⟩, .inl rfl⟩

theorem isRuntimeContext_some : IsRuntimeContext someRuntimeContext :=
  ⟨⟨0, rfl, by decide, by decide⟩, ⟨"", rfl⟩, ⟨"", rfl⟩⟩

theorem credential_iff {parts : List String} :
    (∃ context, IsContext context ∧ Meets operator value (getParts ("credential" :: parts) context)) ↔
      ∃ members, IsCredential members ∧ Meets operator value (getParts parts (.obj members)) := by
  constructor
  · rintro ⟨_, ⟨members, credential, runtime, rfl, hlookup, -, hcredential, -⟩, hmeets⟩
    have hread : getParts ("credential" :: parts) (.obj members) =
        getParts parts ((Val.obj members).get "credential") := rfl
    rw [hread, get_of_lookup hlookup] at hmeets
    exact ⟨credential, hcredential, hmeets⟩
  · rintro ⟨credential, hcredential, hmeets⟩
    exact ⟨_, isContext_someContext hcredential isRuntimeContext_some, hmeets⟩

theorem runtimeContext_iff {parts : List String} :
    (∃ context, IsContext context ∧ Meets operator value (getParts ("context" :: parts) context)) ↔
      ∃ members, IsRuntimeContext members ∧
        Meets operator value (getParts parts (.obj members)) := by
  constructor
  · rintro ⟨_, ⟨members, credential, runtime, rfl, -, hlookup, -, hruntime⟩, hmeets⟩
    have hread : getParts ("context" :: parts) (.obj members) =
        getParts parts ((Val.obj members).get "context") := rfl
    rw [hread, get_of_lookup hlookup] at hmeets
    exact ⟨runtime, hruntime, hmeets⟩
  · rintro ⟨runtime, hruntime, hmeets⟩
    exact ⟨_, isContext_someContext isCredential_some hruntime, hmeets⟩

/-- Any other member may be there, with anything under it. -/
theorem exists_context {root : String} (hcredential : root ≠ "credential")
    (hcontext : root ≠ "context") (parts : List String) (v : Val) :
    ∃ context, IsContext context ∧ getParts (root :: parts) context = v := by
  refine ⟨.obj (setMember root (nested parts v) (someContext someCredential someRuntimeContext)),
    ⟨_, someCredential, someRuntimeContext, rfl, ?_, ?_, isCredential_some,
      isRuntimeContext_some⟩, ?_⟩
  · rw [lookup_setMember_of_ne hcredential.symm]
    rfl
  · rw [lookup_setMember_of_ne hcontext.symm]
    rfl
  · show getParts parts ((Val.obj _).get root) = v
    rw [get_of_lookup (lookup_setMember_self root _ _)]
    exact getParts_nested parts v

/-- What a field can have in the contexts is of its kind. -/
theorem field_iff (hvalue : isDefined value = true) {parts : List String} (hparts : parts ≠ []) :
    (∃ context, IsContext context ∧ Meets operator value (getParts parts context)) ↔
      (fieldKind parts).fits operator value = true := by
  cases parts with
  | nil => exact absurd rfl hparts
  | cons root parts =>
    rw [fieldKind]
    by_cases hcredential : root = "credential"
    · subst hcredential
      rw [if_pos rfl]
      exact credential_iff.trans
        (hasTexts_credential.iff hvalue fun name _ => List.not_mem_nil)
    rw [if_neg hcredential]
    by_cases hcontext : root = "context"
    · subst hcontext
      rw [if_pos rfl]
      refine runtimeContext_iff.trans ?_
      -- `time` is the one member of the runtime context that is no text
      split
      next htime =>
        obtain ⟨rest, rfl⟩ := List.head?_eq_some_iff.mp htime
        exact time_fits_iff
      next htime =>
        refine hasTexts_runtimeContext.iff hvalue fun name hname hreserved => htime ?_
        rw [← List.mem_singleton.mp hreserved]
        exact hname
    rw [if_neg hcontext]
    refine Iff.trans ?_ (anything_iff hvalue)
    constructor
    · exact fun ⟨context, _, hmeets⟩ => ⟨_, hmeets⟩
    · rintro ⟨v, hmeets⟩
      obtain ⟨context, hcontext, hget⟩ := exists_context hcredential hcontext parts v
      refine ⟨context, hcontext, ?_⟩
      rw [hget]
      exact hmeets

end Fields

/-- A condition with a value holds in some context iff the value fits. -/
theorem satisfiable_iff_fits {c : PolicyCondition} (hvalue : isDefined c.value = true) :
    Satisfiable c ↔ Fits c := by
  refine Iff.trans ?_ (field_iff hvalue (pathParts_ne_nil c.field))
  exact exists_congr fun context => and_congr_right fun _ => evaluateCondition_iff

theorem isDefined_of_isPresent {v : Val} (h : isPresent v = true) : isDefined v = true := by
  cases v with
  | undefined => cases h
  | _ => rfl

/-- A policy input with one condition. -/
def inputWith (condition : Val) : Val :=
  .obj [("id", .str "default-policy"), ("name", .str "Default"), ("rules", .arr [
    .obj [("id", .str "deny-visitors"), ("effect", .str "deny"), ("conditions", .arr [condition]),
      ("actions", .arr [.str "teleop:control"]), ("priority", .num (.fin 10))]])]

/-- Visitors are to be denied, with a text where a list is meant. -/
def roleIn (value : Val) : Val :=
  .obj [("field", .str "credential.role"), ("operator", .str "in"), ("value", value)]

end ChainKVM.Gateway
