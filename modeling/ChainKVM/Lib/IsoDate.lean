import ChainKVM.Lib.NumberText

/-!
# Dates in the ISO format

`Date.parse` of what `toISOString` writes. The text is a year and six fields of
fixed widths (`isoFields`), which are read by position; the civil date is turned
back into days by the inverse of `civil` (`daysOf_civil`). So a valid date is
read as it was written (`parseIso_isoString`).

Every other text is left to the implementation, as the language leaves it.
-/

namespace ChainKVM.Js

/-! ## Days -/

/-- The number of days after 1970-01-01 of a civil date. -/
def daysOf (year : Int) (month day : Nat) : Int :=
  -- the year starts in March, as in `civil`
  let y := if month ≤ 2 then year - 1 else year
  let yearOfEra := y % 400
  let monthIndex : Int := if month ≤ 2 then month + 9 else month - 3
  let dayOfYear := (153 * monthIndex + 2) / 5 + day - 1
  y / 400 * 146097 + (365 * yearOfEra + yearOfEra / 4 - yearOfEra / 100 + dayOfYear) - 719468

/-- The century of a day of an era: the last day is still of the fourth. -/
theorem century_cases {day year : Int} (hlow : 0 ≤ day) (hhigh : day < 146097)
    (hyear : year = (day - day / 1460 + day / 36524 - day / 146096) / 365) :
    (day / 36524 = 4 ∧ day / 146096 = 1 ∧ year / 100 = 3) ∨
      (day / 146096 = 0 ∧ year / 100 = day / 36524 ∧
        (day / 36524 = 0 ∨ day / 36524 = 1 ∨ day / 36524 = 2 ∨ day / 36524 = 3)) := by
  have hcentury : day / 36524 = 0 ∨ day / 36524 = 1 ∨ day / 36524 = 2 ∨ day / 36524 = 3 ∨
      day / 36524 = 4 := by omega
  rcases hcentury with h | h | h | h | h
  · exact .inr ⟨by omega, by omega, by omega⟩
  · exact .inr ⟨by omega, by omega, by omega⟩
  · exact .inr ⟨by omega, by omega, by omega⟩
  · exact .inr ⟨by omega, by omega, by omega⟩
  · exact .inl ⟨by omega, by omega, by omega⟩

theorem yearOfEra_bounds {day year : Int} (hlow : 0 ≤ day) (hhigh : day < 146097)
    (hyear : year = (day - day / 1460 + day / 36524 - day / 146096) / 365) :
    0 ≤ year ∧ year < 400 := by
  omega

theorem dayOfYear_bounds {day year dayOfYear : Int} (hlow : 0 ≤ day) (hhigh : day < 146097)
    (hyear : year = (day - day / 1460 + day / 36524 - day / 146096) / 365)
    (hday : dayOfYear = day - (365 * year + year / 4 - year / 100)) :
    0 ≤ dayOfYear ∧ dayOfYear ≤ 365 := by
  -- the leap days before the year are known once its century and its place among
  -- four years are
  have hplace : year % 4 = 0 ∨ year % 4 = 1 ∨ year % 4 = 2 ∨ year % 4 = 3 := by omega
  obtain ⟨hcentury, hlast, hyears⟩ | ⟨hlast, hyears, hcentury⟩ := century_cases hlow hhigh hyear
  · rcases hplace with h | h | h | h
    · omega
    · omega
    · omega
    · omega
  · rcases hcentury with hc | hc | hc | hc
    · rcases hplace with h | h | h | h <;> omega
    · rcases hplace with h | h | h | h <;> omega
    · rcases hplace with h | h | h | h <;> omega
    · rcases hplace with h | h | h | h <;> omega

/-- A civil date has a month and a day, and is that of its days. -/
theorem daysOf_civil (days : Int) :
    (1 ≤ (civil days).2.1 ∧ (civil days).2.1 ≤ 12) ∧
      (1 ≤ (civil days).2.2 ∧ (civil days).2.2 ≤ 31) ∧
      daysOf (civil days).1 (civil days).2.1 (civil days).2.2 = days := by
  unfold civil
  dsimp only
  generalize hera : (days + 719468) / 146097 = era
  generalize hday : (days + 719468) % 146097 = day
  generalize hyear : (day - day / 1460 + day / 36524 - day / 146096) / 365 = year
  generalize hdayOfYear : day - (365 * year + year / 4 - year / 100) = dayOfYear
  generalize hmonth : (5 * dayOfYear + 2) / 153 = monthIndex
  have hyears := yearOfEra_bounds (by omega) (by omega) hyear.symm
  have hdays := dayOfYear_bounds (by omega) (by omega) hyear.symm hdayOfYear.symm
  have hindex : 0 ≤ monthIndex ∧ monthIndex ≤ 11 := by omega
  have hinMonth : 0 ≤ dayOfYear - (153 * monthIndex + 2) / 5 ∧
      dayOfYear - (153 * monthIndex + 2) / 5 ≤ 30 := by omega
  -- the two months after the turn of the year belong to the year before
  unfold daysOf
  by_cases hturn : monthIndex < 10
  · rw [if_pos hturn]
    have hlate : ¬ monthIndex + 3 ≤ 2 := by omega
    have hlate' : ¬ (monthIndex + 3).toNat ≤ 2 := by omega
    rw [if_neg hlate, if_neg hlate', if_neg hlate']
    refine ⟨⟨by omega, by omega⟩, ⟨by omega, by omega⟩, ?_⟩
    have hwithin : (year + era * 400 + 0) % 400 = year := by omega
    have houter : (year + era * 400 + 0) / 400 = era := by omega
    have hindexed : ((monthIndex + 3).toNat : Int) - 3 = monthIndex := by omega
    dsimp only
    rw [hwithin, houter, hindexed]
    omega
  · rw [if_neg hturn]
    have hearly : monthIndex - 9 ≤ 2 := by omega
    have hearly' : (monthIndex - 9).toNat ≤ 2 := by omega
    rw [if_pos hearly, if_pos hearly', if_pos hearly']
    refine ⟨⟨by omega, by omega⟩, ⟨by omega, by omega⟩, ?_⟩
    have hwithin : (year + era * 400 + 1 - 1) % 400 = year := by omega
    have houter : (year + era * 400 + 1 - 1) / 400 = era := by omega
    have hindexed : ((monthIndex - 9).toNat : Int) + 9 = monthIndex := by omega
    dsimp only
    rw [hwithin, houter, hindexed]
    omega

/-! ## Fields -/

/-- A number of so many digits, and what follows it. -/
def field (width : Nat) (cs : List Char) : Option (Nat × List Char) :=
  let ds := cs.take width
  if ds.length = width ∧ ds.all Char.isDigit then some (digitsValue ds, cs.drop width) else none

/-- Numbers of fixed widths, each after its mark, and what follows them. -/
def fields : List (Char × Nat) → List Char → Option (List Nat × List Char)
  | [], cs => some ([], cs)
  | (mark, width) :: ws, c :: cs =>
    if c = mark then
      match field width cs with
      | none => none
      | some (n, cs) => (fields ws cs).map fun p => (n :: p.1, p.2)
    else none
  | _ :: _, [] => none

/-- The numbers as they are written. -/
def fieldsText : List ((Char × Nat) × Nat) → List Char
  | [] => []
  | ((mark, width), n) :: ws => mark :: ((padded width n).toList ++ fieldsText ws)

theorem toList_padded (width n : Nat) : (padded width n).toList =
    List.replicate (width - (toString n).length) '0' ++ (toString n).toList := by
  unfold padded
  rw [String.toList_append, toList_zeros]

theorem length_padded {width n : Nat} (hwidth : 0 < width) (h : n < 10 ^ width) :
    (padded width n).toList.length = width := by
  have hlen : (toString n).length ≤ width := (Nat.length_repr_le_iff hwidth).mpr h
  rw [toList_padded, List.length_append, List.length_replicate, String.length_toList]
  omega

theorem isDigit_padded (width n : Nat) : ∀ c ∈ (padded width n).toList, c.isDigit = true := by
  rw [toList_padded]
  exact isDigit_append (isDigit_replicate_zero _) (isDigit_toString n)

theorem field_padded {width n : Nat} (hwidth : 0 < width) (h : n < 10 ^ width)
    (rest : List Char) : field width ((padded width n).toList ++ rest) = some (n, rest) := by
  have hlen := length_padded hwidth h
  have hvalue : digitsValue (padded width n).toList = n := by
    rw [toList_padded, digitsValue_zeros_append, digitsValue_toString]
  unfold field
  dsimp only
  rw [List.take_left' hlen, List.drop_left' hlen, if_pos, hvalue]
  exact ⟨hlen, List.all_eq_true.mpr (isDigit_padded width n)⟩

/-- What is written is read. -/
theorem fields_fieldsText {ws : List ((Char × Nat) × Nat)}
    (h : ∀ w ∈ ws, 0 < w.1.2 ∧ w.2 < 10 ^ w.1.2) (rest : List Char) :
    fields (ws.map (·.1)) (fieldsText ws ++ rest) = some (ws.map (·.2), rest) := by
  induction ws with
  | nil => rfl
  | cons w ws ih =>
    obtain ⟨⟨mark, width⟩, n⟩ := w
    have hhead := h _ List.mem_cons_self
    have hrest := ih fun w hw => h w (List.mem_cons_of_mem _ hw)
    rw [List.map_cons, fieldsText, List.cons_append, List.append_assoc, fields, if_pos rfl,
      field_padded hhead.1 hhead.2]
    dsimp only
    rw [hrest]
    rfl

/-! ## Times -/

/-- The year of a date, and what follows it. There is no year -0. -/
def year : List Char → Option (Int × List Char)
  | '+' :: cs => (field 6 cs).map fun p => ((p.1 : Int), p.2)
  | '-' :: cs =>
    match field 6 cs with
    | none => none
    | some (n, cs) => if n = 0 then none else some (-(n : Int), cs)
  | cs => (field 4 cs).map fun p => ((p.1 : Int), p.2)

/-- What follows the year: month, day, hour, minute, second, millisecond. -/
def isoFields : List (Char × Nat) := [('-', 2), ('-', 2), ('T', 2), (':', 2), (':', 2), ('.', 3)]

/-- The time of a year and what follows it, if that is in range. -/
def timeOf (y : Int) : List Nat → Option Int
  | [month, day, hour, minute, second, ms] =>
    if (1 ≤ month ∧ month ≤ 12) ∧ (1 ≤ day ∧ day ≤ 31) ∧ hour < 24 ∧ minute < 60 ∧ second < 60 then
      let t := daysOf y month day * 86400000 +
        (((hour * 60 + minute) * 60 + second) * 1000 + ms : Nat)
      if t.natAbs ≤ 8640000000000000 then some t else none
    else none
  | _ => none

/-- The time of a text in the format of `toISOString`. -/
def parseIso (text : String) : Option Int :=
  match year text.toList with
  | none => none
  | some (y, cs) =>
    match fields isoFields cs with
    | none => none
    | some (ns, rest) => if rest = ['Z'] then timeOf y ns else none

/-- The year as it is written. -/
def yearText (y : Int) : String :=
  if 0 ≤ y ∧ y ≤ 9999 then padded 4 y.toNat
  else (if 0 ≤ y then "+" else "-") ++ padded 6 y.natAbs

theorem year_yearText {y : Int} (h : y.natAbs < 10 ^ 6) (rest : List Char) :
    year ((yearText y).toList ++ rest) = some (y, rest) := by
  unfold yearText
  by_cases hfour : 0 ≤ y ∧ y ≤ 9999
  · rw [if_pos hfour]
    have hfield : field 4 ((padded 4 y.toNat).toList ++ rest) = some (y.toNat, rest) :=
      field_padded (by decide) (by omega) rest
    have hlen : (padded 4 y.toNat).toList.length = 4 := length_padded (by decide) (by omega)
    have hdigits := isDigit_padded 4 y.toNat
    generalize (padded 4 y.toNat).toList = cs at *
    cases cs with
    | nil => cases hlen
    | cons c cs =>
      -- a digit is no sign
      have hc := hdigits c List.mem_cons_self
      have hplus : c ≠ '+' := by
        rintro rfl
        cases hc
      have hminus : c ≠ '-' := by
        rintro rfl
        cases hc
      rw [List.cons_append] at hfield ⊢
      rw [year, hfield, Option.map_some, Int.toNat_of_nonneg hfour.1]
      · exact fun ds heq => hplus (List.cons.inj heq).1
      · exact fun ds heq => hminus (List.cons.inj heq).1
  · have hfield : field 6 ((padded 6 y.natAbs).toList ++ rest) = some (y.natAbs, rest) :=
      field_padded (by decide) h rest
    rw [if_neg hfour, String.toList_append]
    by_cases hsign : 0 ≤ y
    · rw [if_pos hsign]
      show year ('+' :: ((padded 6 y.natAbs).toList ++ rest)) = _
      rw [year, hfield, Option.map_some, Int.natAbs_of_nonneg hsign]
    · rw [if_neg hsign]
      show year ('-' :: ((padded 6 y.natAbs).toList ++ rest)) = _
      rw [year, hfield]
      dsimp only
      rw [if_neg (by omega)]
      have hneg : -(y.natAbs : Int) = y := by omega
      rw [hneg]

/-- A time taken apart: the numbers that follow the year. -/
def numbers (t : Int) : List Nat :=
  let ms := (t % 86400000).toNat
  [(civil (t / 86400000)).2.1, (civil (t / 86400000)).2.2, ms / 3600000, ms / 60000 % 60,
    ms / 1000 % 60, ms % 1000]

theorem toList_isoString (t : Int) : (isoString t).toList =
    (yearText (civil (t / 86400000)).1).toList ++
      (fieldsText (isoFields.zip (numbers t)) ++ ['Z']) := by
  unfold isoString yearText numbers isoFields
  obtain ⟨y, month, day⟩ := civil (t / 86400000)
  generalize (t % 86400000).toNat = ms
  dsimp only
  have hdash : ("-" : String).toList = ['-'] := rfl
  have hhour : ("T" : String).toList = ['T'] := rfl
  have hcolon : (":" : String).toList = [':'] := rfl
  have hpoint : ("." : String).toList = ['.'] := rfl
  have hzone : ("Z" : String).toList = ['Z'] := rfl
  simp only [String.toList_append, hdash, hhour, hcolon, hpoint, hzone, List.append_assoc,
    List.zip_cons_cons, List.zip_nil_right, fieldsText, List.cons_append, List.nil_append]

theorem civil_year_bound {t : Int} (h : t.natAbs ≤ 8640000000000000) :
    (civil (t / 86400000)).1.natAbs < 10 ^ 6 := by
  obtain ⟨⟨hmonth, hmonth'⟩, ⟨hday, hday'⟩, hdays⟩ := daysOf_civil (t / 86400000)
  generalize civil (t / 86400000) = date at *
  obtain ⟨y, month, day⟩ := date
  have hrange : -100000000 ≤ t / 86400000 ∧ t / 86400000 ≤ 100000000 := by omega
  unfold daysOf at hdays
  dsimp only at *
  split at hdays
  next => omega
  next => omega

/-- A valid date is read as it was written. -/
theorem parseIso_isoString {t : Int} (h : t.natAbs ≤ 8640000000000000) :
    parseIso (isoString t) = some t := by
  obtain ⟨hmonth, hday, hdays⟩ := daysOf_civil (t / 86400000)
  have hyear := civil_year_bound h
  have htext := toList_isoString t
  unfold numbers at htext
  generalize civil (t / 86400000) = date at *
  obtain ⟨y, month, day⟩ := date
  generalize hms : (t % 86400000).toNat = ms at *
  dsimp only at *
  have hnumbers : ∀ w ∈ isoFields.zip [month, day, ms / 3600000, ms / 60000 % 60,
      ms / 1000 % 60, ms % 1000], 0 < w.1.2 ∧ w.2 < 10 ^ w.1.2 := by
    simp only [isoFields, List.zip_cons_cons, List.zip_nil_right, List.forall_mem_cons]
    refine ⟨⟨by decide, ?_⟩, ⟨by decide, ?_⟩, ⟨by decide, ?_⟩, ⟨by decide, ?_⟩, ⟨by decide, ?_⟩,
      ⟨by decide, ?_⟩, List.forall_mem_nil _⟩ <;> omega
  have hfields : fields isoFields (fieldsText (isoFields.zip [month, day, ms / 3600000,
      ms / 60000 % 60, ms / 1000 % 60, ms % 1000]) ++ ['Z']) =
      some ([month, day, ms / 3600000, ms / 60000 % 60, ms / 1000 % 60, ms % 1000], ['Z']) :=
    fields_fieldsText hnumbers ['Z']
  have htime : daysOf y month day * 86400000 + ((((ms / 3600000 * 60 + ms / 60000 % 60) * 60 +
      ms / 1000 % 60) * 1000 + ms % 1000 : Nat) : Int) = t := by
    rw [hdays]
    omega
  unfold parseIso
  rw [htext, year_yearText hyear]
  dsimp only
  rw [hfields]
  dsimp only
  rw [if_pos rfl, timeOf, if_pos ⟨hmonth, hday, by omega, by omega, by omega⟩]
  dsimp only
  rw [htime, if_pos h]

end ChainKVM.Js
