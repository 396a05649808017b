import Groundlane.Calendar.Utc

/-!
# Reading ISO texts

`parseIso` reads the texts that `toISOString` writes and no others; it gives back the time value
that was written (`parseIso_toISOString`).
-/

namespace Calendar

/-- The number that decimal digits stand for. -/
def readDigits (text : List Char) : Nat :=
  text.foldl (fun number digit => 10 * number + (digit.toNat - 48)) 0

variable {time : Int} {width n : Nat}

theorem readDigits_digits (h : n < 10 ^ width) : readDigits (digits width n) = n := by
  induction width generalizing n with
  | zero =>
    rw [Nat.pow_zero] at h
    show 0 = n
    omega
  | succ width ih =>
    rw [Nat.pow_succ] at h
    have hinit := ih (n := n / 10) (by omega)
    unfold readDigits at hinit ⊢
    rw [digits, List.foldl_append, hinit, List.foldl_cons, List.foldl_nil,
      Nat.toNat_digitChar_of_lt_ten (Nat.mod_lt _ (by decide))]
    omega

/-- Read a field of fixed width and pass the character behind it. -/
def readField (width : Nat) (text : List Char) : Nat × List Char :=
  (readDigits (text.take width), text.drop (width + 1))

theorem readField_digits (h : n < 10 ^ width) (separator : Char) (rest : List Char) :
    readField width (digits width n ++ separator :: rest) = (n, rest) := by
  have htake : (digits width n ++ separator :: rest).take width = digits width n :=
    List.take_left' (length_digits ..)
  have hdrop : (digits width n ++ separator :: rest).drop (width + 1) = rest := by
    rw [← List.drop_drop, List.drop_left' (length_digits ..)]
    rfl
  unfold readField
  rw [htake, hdrop, readDigits_digits h]

/-- The year at the beginning of a text, and what follows it. -/
def readYear : List Char → Int × List Char
  | '+' :: text => ((readField 6 text).1, (readField 6 text).2)
  | '-' :: text => (-(readField 6 text).1, (readField 6 text).2)
  | text => ((readField 4 text).1, (readField 4 text).2)

theorem readYear_yearText {year : Int} (h : -999999 ≤ year ∧ year ≤ 999999) (rest : List Char) :
    readYear (yearText year ++ '-' :: rest) = (year, rest) := by
  unfold yearText
  by_cases hshort : isShort year
  · rw [if_pos hshort]
    unfold isShort at hshort
    have hread := readField_digits (n := year.toNat) (by omega : year.toNat < 10 ^ 4) '-' rest
    have hhead := digits_head 4 year.toNat
    cases htext : digits 4 year.toNat with
    | nil =>
      have hlength := length_digits 4 year.toNat
      rw [htext] at hlength
      cases hlength
    | cons first text =>
      rw [htext] at hread hhead
      have hfirst := hhead first List.mem_cons_self
      -- A digit is no sign.
      have hplus : first ≠ '+' := by
        rintro rfl
        exact absurd hfirst (by decide)
      have hminus : first ≠ '-' := by
        rintro rfl
        exact absurd hfirst (by decide)
      rw [List.cons_append] at hread ⊢
      rw [readYear, hread]
      · rw [Int.toNat_of_nonneg hshort.1]
      · exact fun _ heq => hplus (List.cons.inj heq).1
      · exact fun _ heq => hminus (List.cons.inj heq).1
  · rw [if_neg hshort]
    have hread := readField_digits (by omega : year.natAbs < 10 ^ 6) '-' rest
    by_cases hsign : 0 ≤ year
    · rw [if_pos hsign, List.cons_append, readYear, hread]
      exact Prod.ext (Int.natAbs_of_nonneg hsign) rfl
    · rw [if_neg hsign, List.cons_append, readYear, hread]
      refine Prod.ext ?_ rfl
      show -(year.natAbs : Int) = year
      omega

/-- The time value that the fields of a text stand for. -/
def readFields (text : List Char) : Int :=
  let (year, text) := readYear text
  let (month, text) := readField 2 text
  let (date, text) := readField 2 text
  let (hours, text) := readField 2 text
  let (minutes, text) := readField 2 text
  let (seconds, text) := readField 2 text
  let (milliseconds, _) := readField 3 text
  (dayFromYear year + monthStart (leapDays year) (month - 1) + (date - 1)) * msPerDay +
    (hours * 3600000 + minutes * 60000 + seconds * 1000 + milliseconds)

theorem readFields_isoText (h : IsTimeValue time) : readFields (isoText time) = time := by
  have hmonth := utcMonth_bounds time
  have hdate := utcDate_bounds time
  have hms : (time % msPerDay).toNat < 86400000 := by
    unfold msPerDay
    omega
  unfold isoText dateText timeText monthText readFields
  dsimp only
  simp only [List.append_assoc, List.cons_append]
  rw [readYear_yearText (utcFullYear_bounds h)]
  dsimp only
  rw [readField_digits (by omega)]
  dsimp only
  rw [readField_digits (by omega)]
  dsimp only
  rw [readField_digits (by omega)]
  dsimp only
  rw [readField_digits (by omega)]
  dsimp only
  rw [readField_digits (by omega)]
  dsimp only
  rw [readField_digits (by omega)]
  dsimp only
  have hday : dayFromYear (utcFullYear time) +
      monthStart (leapDays (utcFullYear time)) (utcMonth time) + (utcDate time - 1) =
        day time := by
    unfold utcDate dayWithinYear
    omega
  have hmonthText : (((utcMonth time + 1).toNat : Nat) : Int) - 1 = utcMonth time := by omega
  have hdateText : (((utcDate time).toNat : Nat) : Int) = utcDate time := by omega
  rw [hmonthText, hdateText, hday]
  unfold day msPerDay
  unfold msPerDay at hms
  omega

/-- Read a text as `toISOString` writes it. -/
def parseIso (text : String) : Option Int :=
  let time := readFields text.toList
  if IsTimeValue time ∧ toISOString time = text then some time else none

theorem isTimeValue_parseIso {text : String} (h : parseIso text = some time) :
    IsTimeValue time := by
  unfold parseIso at h
  dsimp only at h
  split at h
  · rename_i hread
    obtain rfl := Option.some.inj h
    exact hread.1
  · cases h

/-- What was written is read back. -/
theorem parseIso_toISOString (h : IsTimeValue time) : parseIso (toISOString time) = some time := by
  have hread : readFields (toISOString time).toList = time := by
    rw [toISOString, String.toList_ofList, readFields_isoText h]
  unfold parseIso
  rw [hread]
  exact if_pos ⟨h, rfl⟩

end Calendar
