import Pingward.CalendarText

/-! The pieces of a reader of RFC 3339 texts: a date, a fraction of a second and an offset from UTC. A date is read as it
was written when its year has four digits, and is not read at all otherwise. -/

namespace Calendar

/-! ### The reader -/

/-- A number of exactly as many digits as the width. -/
def readNumber (width : Nat) (text : List Char) : Option (Nat × List Char) :=
  if (text.take width).length = width ∧ (text.take width).all Char.isDigit = true then
    some (Nat.ofDigitChars 10 (text.take width) 0, text.drop width)
  else none

/-- One of the given characters. -/
def readChar (chars : List Char) : List Char → Option (List Char)
  | [] => none
  | c :: rest => if c ∈ chars then some rest else none

/-- The fraction of a second; digits beyond the ninth are dropped. -/
def readFraction : List Char → Option (Nat × List Char)
  | '.' :: rest =>
      let fraction := rest.takeWhile Char.isDigit
      if fraction = [] then none
      else some (Nat.ofDigitChars 10 ((fraction ++ List.replicate 9 '0').take 9) 0, rest.dropWhile Char.isDigit)
  | text => some (0, text)

/-- The offset, in seconds east. The minus sign is written in either of two ways. -/
def readOffset : List Char → Option (Int × List Char)
  | [] => none
  | sign :: rest =>
      if sign = 'Z' ∨ sign = 'z' then some (0, rest)
      else if sign = '+' ∨ sign = '-' ∨ sign = Char.ofNat 0x2212 then do
        let (hours, rest) ← readNumber 2 rest
        let rest ← readChar [':'] rest
        let (minutes, rest) ← readNumber 2 rest
        if hours < 24 ∧ minutes < 60 then
          some ((if sign = '+' then 1 else -1) * (hours * 3600 + minutes * 60), rest)
        else none
      else none

def readDate (text : List Char) : Option (Date × List Char) := do
  let (year, text) ← readNumber 4 text
  let text ← readChar ['-'] text
  let (month, text) ← readNumber 2 text
  let text ← readChar ['-'] text
  let (day, text) ← readNumber 2 text
  if (⟨year, month, day⟩ : Date).Valid then some (⟨year, month, day⟩, text) else none

/-! ### What was written is read -/

theorem readNumber_digits {width n : Nat} (hn : n < 10 ^ width) (rest : List Char) :
    readNumber width (digits width n ++ rest) = some (n, rest) := by
  have htake : (digits width n ++ rest).take width = digits width n := by
    rw [List.take_append_of_le_length (length_digits width n).ge, List.take_of_length_le (length_digits width n).le]
  have hdrop : (digits width n ++ rest).drop width = rest := by
    rw [List.drop_append_of_le_length (length_digits width n).ge, List.drop_of_length_le (length_digits width n).le,
      List.nil_append]
  have hdigits : (digits width n).all Char.isDigit = true :=
    List.all_eq_true.mpr fun _ hc => isDigit_of_mem_digits hc
  rw [readNumber, htake, hdrop, if_pos ⟨length_digits width n, hdigits⟩, ofDigitChars_digits hn]

theorem readChar_cons {c : Char} {chars : List Char} (hc : c ∈ chars) (rest : List Char) :
    readChar chars (c :: rest) = some rest := if_pos hc

theorem readDate_dateText {date : Date} (hyear : 0 ≤ date.year ∧ date.year ≤ 9999) (hvalid : date.Valid)
    (rest : List Char) : readDate (dateText date ++ rest) = some (date, rest) := by
  have hmonth := hvalid.month
  have hday := hvalid.day
  have hlength : monthLength (IsLeap date.year) date.month ≤ 31 := monthLength_le hmonth.1
  have hdate : (⟨date.year.toNat, date.month.toNat, date.day.toNat⟩ : Date) = date := by
    rw [Int.toNat_of_nonneg hyear.1, Int.toNat_of_nonneg (by omega), Int.toNat_of_nonneg (by omega)]
  unfold readDate dateText yearText
  rw [if_pos hyear]
  simp only [List.append_assoc, List.cons_append, Option.bind_eq_bind, Option.bind_some,
    readNumber_digits (show date.year.toNat < 10 ^ 4 by omega),
    readNumber_digits (show date.month.toNat < 10 ^ 2 by omega),
    readNumber_digits (show date.day.toNat < 10 ^ 2 by omega), readChar_cons (List.mem_singleton_self '-'), hdate]
  rw [if_pos hvalid]

theorem takeWhile_digits (width n : Nat) : (digits width n ++ utcText).takeWhile Char.isDigit = digits width n := by
  rw [List.takeWhile_append_of_pos fun _ hc => isDigit_of_mem_digits hc]
  exact List.append_nil _

theorem dropWhile_digits (width n : Nat) : (digits width n ++ utcText).dropWhile Char.isDigit = utcText := by
  rw [List.dropWhile_append_of_pos fun _ hc => isDigit_of_mem_digits hc]
  rfl

theorem readFraction_digits {width n : Nat} (hpos : 0 < width) (hwidth : width ≤ 9) (hn : n < 10 ^ width) :
    readFraction ('.' :: (digits width n ++ utcText)) = some (n * 10 ^ (9 - width), utcText) := by
  have hne : digits width n ≠ [] := by
    intro hnil
    have hlength := length_digits width n
    rw [hnil, List.length_nil] at hlength
    omega
  have htake : (digits width n ++ List.replicate 9 '0').take 9 = digits width n ++ List.replicate (9 - width) '0' := by
    rw [List.take_append, length_digits, List.take_of_length_le (by rw [length_digits]; exact hwidth),
      List.take_replicate, Nat.min_eq_left (Nat.sub_le 9 width)]
  simp only [readFraction, takeWhile_digits, dropWhile_digits]
  rw [if_neg hne, htake, Nat.ofDigitChars_append, Nat.ofDigitChars_replicate_zero, ofDigitChars_digits hn, mul_comm]

theorem readFraction_fractionText {nanos : Nat} (hnanos : nanos < 1000000000) :
    readFraction (fractionText nanos ++ utcText) = some (nanos, utcText) := by
  unfold fractionText
  split
  · rename_i hzero
    rw [hzero]
    rfl
  · split
    · rw [List.cons_append, readFraction_digits (by decide) (by decide) (by omega)]
      congr 2
      omega
    · split
      · rw [List.cons_append, readFraction_digits (by decide) (by decide) (by omega)]
        congr 2
        omega
      · rw [List.cons_append, readFraction_digits (by decide) le_rfl hnanos, Nat.sub_self, pow_zero, mul_one]

theorem fourDigits_of_year {t : Int}
    (hyear : 0 ≤ (dateOf (t / 1000000000 / 86400 + epochDay)).year ∧
      (dateOf (t / 1000000000 / 86400 + epochDay)).year ≤ 9999) : FourDigits t := by
  have hbounds := yearOf_bounds (t / 1000000000 / 86400 + epochDay)
  have hzero : yearStart 0 = 0 := by decide
  have hlast : yearStart 10000 = 3652425 := by decide
  have hlow := yearStart_mono hyear.1
  have hhigh := yearStart_mono (show yearOf (t / 1000000000 / 86400 + epochDay) + 1 ≤ 10000 from Int.add_le_add_right hyear.2 1)
  unfold dateOf at hlow
  dsimp only at hlow
  unfold FourDigits yearInstant
  rw [hzero, hlast]
  unfold epochDay at hbounds hlow hhigh ⊢
  constructor <;> omega

/-- A year with a sign is not read. -/
theorem readDate_eq_none_of_sign {t : Int} (ht : ¬ FourDigits t) : readDate (rfc3339 t).toList = none := by
  have hyear := mt fourDigits_of_year ht
  have hfirst : ∃ (sign : Char) (rest : List Char), sign.isDigit = false ∧ (rfc3339 t).toList = sign :: rest := by
    unfold rfc3339 dateText yearText
    dsimp only
    rw [if_neg hyear, String.toList_ofList]
    refine ⟨_, _, ?_, rfl⟩
    split <;> decide
  obtain ⟨sign, rest, hsign, htext⟩ := hfirst
  have hnumber : readNumber 4 (sign :: rest) = none := by
    rw [readNumber, if_neg]
    intro hdigits
    rw [List.take_succ_cons, List.all_cons, hsign] at hdigits
    exact absurd hdigits.2 (by simp)
  rw [readDate, htext, hnumber]
  rfl

end Calendar
