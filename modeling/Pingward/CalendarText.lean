import Mathlib.Data.String.Basic
import Pingward.CalendarBasic

/-! The RFC 3339 text of an instant, in nanoseconds since the start of 1970, written in UTC with the shortest
fraction of whole groups of three digits. Inside the years of four digits the texts are ordered as the instants,
and the reader of such texts takes each back to its instant. -/

namespace Calendar

/-! ### Numbers of a fixed width -/

/-- The last digits of a number, as many as the width. -/
def digits : Nat → Nat → List Char
  | 0, _ => []
  | width + 1, n => digits width (n / 10) ++ [(n % 10).digitChar]

@[simp] theorem length_digits (width n : Nat) : (digits width n).length = width := by
  induction width generalizing n with
  | zero => rfl
  | succ width ih => rw [digits, List.length_append, ih, List.length_singleton]

theorem isDigit_of_mem_digits {width n : Nat} {c : Char} (hc : c ∈ digits width n) : c.isDigit = true := by
  induction width generalizing n with
  | zero => cases hc
  | succ width ih =>
      rw [digits, List.mem_append, List.mem_singleton] at hc
      rcases hc with hmem | heq
      · exact ih hmem
      · rw [heq, Nat.isDigit_digitChar]
        exact decide_eq_true (Nat.mod_lt n (by decide))

/-- Behind texts of one length nothing else counts. -/
theorem append_lt_append {a b : List Char} (c d : List Char) (hlength : a.length = b.length) (hlt : a < b) :
    a ++ c < b ++ d := by
  induction a generalizing b with
  | nil =>
      cases List.eq_nil_of_length_eq_zero hlength.symm
      exact absurd hlt (lt_irrefl _)
  | cons x xs ih =>
      cases b with
      | nil => cases hlength
      | cons y ys =>
          rw [List.cons_lt_cons_iff] at hlt
          rw [List.cons_append, List.cons_append, List.cons_lt_cons_iff]
          rcases hlt with hhead | ⟨heq, htail⟩
          · exact .inl hhead
          · exact .inr ⟨heq, ih (Nat.succ.inj hlength) htail⟩

theorem digitChar_lt : ∀ n < 10, ∀ m < n, m.digitChar < n.digitChar := by decide

theorem digits_lt {width n m : Nat} (hn : n < 10 ^ width) (hlt : m < n) : digits width m < digits width n := by
  induction width generalizing n m with
  | zero =>
      rw [pow_zero] at hn
      omega
  | succ width ih =>
      rw [pow_succ] at hn
      rw [digits, digits]
      rcases (Nat.div_le_div_right hlt.le : m / 10 ≤ n / 10).lt_or_eq with hhigh | hhigh
      · apply append_lt_append _ _ (by rw [length_digits, length_digits])
        exact ih (by omega) hhigh
      · rw [hhigh]
        apply List.append_left_lt
        rw [List.cons_lt_cons_iff]
        exact .inl (digitChar_lt _ (by omega) _ (by omega))

theorem digits_add (width width' n : Nat) :
    digits (width + width') n = digits width (n / 10 ^ width') ++ digits width' n := by
  induction width' generalizing n with
  | zero => simp [digits]
  | succ width' ih => rw [← Nat.add_assoc, digits, digits, ih, Nat.div_div_eq_div_mul, pow_succ', List.append_assoc]

/-- A number, read back from its digits. -/
theorem ofDigitChars_digits {width n : Nat} (hn : n < 10 ^ width) : Nat.ofDigitChars 10 (digits width n) 0 = n := by
  induction width generalizing n with
  | zero =>
      rw [pow_zero] at hn
      rw [digits, Nat.ofDigitChars_nil]
      omega
  | succ width ih =>
      rw [pow_succ] at hn
      rw [digits, Nat.ofDigitChars_append, ih (by omega),
        Nat.ofDigitChars_cons_digitChar_of_lt_ten (Nat.mod_lt n (by decide)), Nat.ofDigitChars_nil]
      omega

/-! ### The text -/

/-- The year: four digits, with a sign and as many as it takes outside the years 0 to 9999. -/
def yearText (year : Int) : List Char :=
  if 0 ≤ year ∧ year ≤ 9999 then digits 4 year.toNat
  else
    let plain := Nat.toDigits 10 year.natAbs
    (if year < 0 then '-' else '+') :: (List.replicate (4 - plain.length) '0' ++ plain)

def dateText (date : Date) : List Char :=
  yearText date.year ++ '-' :: (digits 2 date.month.toNat ++ '-' :: digits 2 date.day.toNat)

/-- The time of day, from the seconds since midnight. -/
def timeText (second : Nat) : List Char :=
  digits 2 (second / 3600) ++ ':' :: (digits 2 (second / 60 % 60) ++ ':' :: digits 2 (second % 60))

/-- The fraction of a second, in the fewest groups of three digits that are exact. -/
def fractionText (nanos : Nat) : List Char :=
  if nanos = 0 then []
  else if nanos % 1000000 = 0 then '.' :: digits 3 (nanos / 1000000)
  else if nanos % 1000 = 0 then '.' :: digits 6 (nanos / 1000)
  else '.' :: digits 9 nanos

def utcText : List Char := ['+', '0', '0', ':', '0', '0']

/-- The days from the start of the year 0 to 1970-01-01. -/
def epochDay : Int := 719528

/-- The text of an instant. -/
def rfc3339 (t : Int) : String :=
  let second := t / 1000000000
  String.ofList (dateText (dateOf (second / 86400 + epochDay)) ++
    'T' :: (timeText (second % 86400).toNat ++ (fractionText (t % 1000000000).toNat ++ utcText)))

/-! ### The order of the texts -/

/-- The groups of three digits, down to the last that is not zero. -/
def groups : Nat → Nat → List Char
  | 0, _ => []
  | count + 1, n => if n = 0 then [] else digits 3 (n / 1000 ^ count) ++ groups count (n % 1000 ^ count)

theorem digits_mod (width n : Nat) : digits width (n % 10 ^ width) = digits width n := by
  induction width generalizing n with
  | zero => rfl
  | succ width ih =>
      have hhigh : n % 10 ^ (width + 1) / 10 = n / 10 % 10 ^ width := by
        rw [pow_succ', Nat.mod_mul_right_div_self]
      have hlow : n % 10 ^ (width + 1) % 10 = n % 10 := Nat.mod_mod_of_dvd n (dvd_pow_self 10 (Nat.succ_ne_zero width))
      rw [digits, digits, hhigh, hlow, ih]

theorem fractionText_eq (nanos : Nat) :
    fractionText nanos = if nanos = 0 then [] else '.' :: groups 3 nanos := by
  have hmiddle : digits 3 (nanos % 1000000 / 1000) = digits 3 (nanos / 1000) := by
    rw [← digits_mod 3 (nanos / 1000)]
    congr 1
    omega
  have hlow : digits 3 (nanos % 1000000 % 1000) = digits 3 nanos := by
    rw [← digits_mod 3 nanos]
    congr 1
    omega
  have hsix : digits 6 (nanos / 1000) = digits 3 (nanos / 1000000) ++ digits 3 (nanos / 1000) := by
    have hdiv : nanos / 1000 / 10 ^ 3 = nanos / 1000000 := by omega
    rw [digits_add 3 3, hdiv]
  have hnine : digits 9 nanos = digits 6 (nanos / 1000) ++ digits 3 nanos := digits_add 6 3 nanos
  unfold fractionText
  split
  · rfl
  · rename_i hnanos
    simp only [groups, if_neg hnanos, Nat.reducePow, Nat.div_one]
    split
    · rw [List.append_nil]
    · split
      · rename_i hthousand
        rw [if_pos (by omega), List.append_nil, hmiddle, hsix]
      · rename_i hthousand
        rw [if_neg (by omega), List.append_nil, hmiddle, hlow, hnine, hsix, List.append_assoc]

/-- What the fraction ends with sorts below every digit. -/
theorem utcText_lt_digits {width n : Nat} (hwidth : 0 < width) (rest : List Char) :
    utcText < digits width n ++ rest := by
  cases hdigits : digits width n with
  | nil =>
      have hlength := length_digits width n
      rw [hdigits, List.length_nil] at hlength
      omega
  | cons c tail =>
      have hdigit : c.isDigit = true := isDigit_of_mem_digits (hdigits ▸ List.mem_cons_self)
      have hplus : '+' < c := by
        rw [Char.isDigit, Bool.and_eq_true, decide_eq_true_eq] at hdigit
        exact lt_of_lt_of_le (by decide) hdigit.1
      rw [utcText, List.cons_append, List.cons_lt_cons_iff]
      exact .inl hplus

theorem groups_lt {count n m : Nat} (hn : n < 1000 ^ count) (hlt : m < n) :
    groups count m ++ utcText < groups count n ++ utcText := by
  induction count generalizing n m with
  | zero =>
      rw [pow_zero] at hn
      omega
  | succ count ih =>
      rw [groups, groups, if_neg (by omega : n ≠ 0), List.append_assoc]
      have hbase : 0 < 1000 ^ count := pow_pos (by decide) count
      have htop : n / 1000 ^ count < 10 ^ 3 := Nat.div_lt_of_lt_mul (by rwa [pow_succ] at hn)
      split
      · exact utcText_lt_digits (by decide) _
      · rw [List.append_assoc]
        rcases (Nat.div_le_div_right hlt.le : m / 1000 ^ count ≤ n / 1000 ^ count).lt_or_eq with hhigh | hhigh
        · exact append_lt_append _ _ (by rw [length_digits, length_digits]) (digits_lt htop hhigh)
        · rw [hhigh]
          apply List.append_left_lt
          apply ih (Nat.mod_lt n hbase)
          have hm := Nat.div_add_mod m (1000 ^ count)
          have hn := Nat.div_add_mod n (1000 ^ count)
          rw [hhigh] at hm
          omega

theorem fractionText_lt {n m : Nat} (hn : n < 1000000000) (hlt : m < n) :
    fractionText m ++ utcText < fractionText n ++ utcText := by
  rw [fractionText_eq, fractionText_eq, if_neg (by omega : n ≠ 0)]
  split
  · rw [List.cons_append, utcText, List.nil_append, List.cons_lt_cons_iff]
    exact .inl (by decide)
  · rw [List.cons_append, List.cons_append, List.cons_lt_cons_iff]
    exact .inr ⟨rfl, groups_lt hn hlt⟩

/-- The first nanosecond of a year. -/
def yearInstant (year : Int) : Int := (yearStart year - epochDay) * 86400 * 1000000000

/-- The instants whose year has four digits and no sign. -/
def FourDigits (t : Int) : Prop := yearInstant 0 ≤ t ∧ t < yearInstant 10000

theorem year_of_fourDigits {t : Int} (ht : FourDigits t) :
    0 ≤ (dateOf (t / 1000000000 / 86400 + epochDay)).year ∧ (dateOf (t / 1000000000 / 86400 + epochDay)).year ≤ 9999 := by
  obtain ⟨hlow, hhigh⟩ := ht
  have hbounds := yearOf_bounds (t / 1000000000 / 86400 + epochDay)
  unfold yearInstant epochDay yearStart at hlow hhigh
  constructor
  · by_contra hneg
    have hmono := yearStart_mono (show yearOf (t / 1000000000 / 86400 + epochDay) + 1 ≤ 0 from Int.not_le.mp hneg)
    have hzero : yearStart 0 = 0 := by decide
    unfold epochDay at hmono hbounds
    omega
  · by_contra hlarge
    have hmono := yearStart_mono (show 10000 ≤ yearOf (t / 1000000000 / 86400 + epochDay) from Int.not_le.mp hlarge)
    have hlast : yearStart 10000 = 3652425 := by decide
    unfold epochDay at hmono hbounds
    omega

theorem dateText_lt {date date' : Date} (hyear : 0 ≤ date.year) (hyear' : date'.year ≤ 9999) (hvalid : date.Valid)
    (hvalid' : date'.Valid) (hbefore : date.Before date') (rest rest' : List Char) :
    dateText date ++ rest < dateText date' ++ rest' := by
  obtain ⟨hmonth, hday⟩ := hvalid
  obtain ⟨hmonth', hday'⟩ := hvalid'
  have hle : monthLength (IsLeap date'.year) date'.month ≤ 31 := monthLength_le hmonth'.1
  have hfour : 0 ≤ date.year ∧ date.year ≤ 9999 ∧ 0 ≤ date'.year := by
    rcases hbefore with hlt | ⟨heq, -⟩ <;> omega
  simp only [dateText, List.append_assoc, List.cons_append]
  rw [yearText, if_pos ⟨hyear, hfour.2.1⟩, yearText, if_pos ⟨hfour.2.2, hyear'⟩]
  rcases hbefore with hlt | ⟨heq, hmonths⟩
  · exact append_lt_append _ _ (by rw [length_digits, length_digits]) (digits_lt (by omega) (by omega))
  · rw [heq]
    apply List.append_left_lt
    rw [List.cons_lt_cons_iff]
    refine .inr ⟨rfl, ?_⟩
    rcases hmonths with hlt | ⟨heq, hlt⟩
    · exact append_lt_append _ _ (by rw [length_digits, length_digits]) (digits_lt (by omega) (by omega))
    · rw [heq]
      apply List.append_left_lt
      rw [List.cons_lt_cons_iff]
      refine .inr ⟨rfl, ?_⟩
      exact append_lt_append _ _ (by rw [length_digits, length_digits]) (digits_lt (by omega) (by omega))

theorem timeText_lt {second second' : Nat} (hsecond : second' < 86400) (hlt : second < second')
    (rest rest' : List Char) : timeText second ++ rest < timeText second' ++ rest' := by
  simp only [timeText, List.append_assoc, List.cons_append]
  rcases (Nat.div_le_div_right hlt.le : second / 3600 ≤ second' / 3600).lt_or_eq with hhour | hhour
  · exact append_lt_append _ _ (by rw [length_digits, length_digits]) (digits_lt (by omega) hhour)
  · rw [hhour]
    apply List.append_left_lt
    rw [List.cons_lt_cons_iff]
    refine .inr ⟨rfl, ?_⟩
    rcases (show second / 60 % 60 ≤ second' / 60 % 60 by omega).lt_or_eq with hminute | hminute
    · exact append_lt_append _ _ (by rw [length_digits, length_digits]) (digits_lt (by omega) hminute)
    · rw [hminute]
      apply List.append_left_lt
      rw [List.cons_lt_cons_iff]
      refine .inr ⟨rfl, ?_⟩
      exact append_lt_append _ _ (by rw [length_digits, length_digits]) (digits_lt (by omega) (by omega))

/-- **The texts are in the order of the instants**, inside the years of four digits. -/
theorem rfc3339_lt {t t' : Int} (ht : FourDigits t) (ht' : FourDigits t') (hlt : t < t') : rfc3339 t < rfc3339 t' := by
  have hyear := year_of_fourDigits ht
  have hyear' := year_of_fourDigits ht'
  rw [String.lt_iff_toList_lt]
  unfold rfc3339
  dsimp only
  rw [String.toList_ofList, String.toList_ofList]
  rcases (show t / 1000000000 / 86400 ≤ t' / 1000000000 / 86400 by omega).lt_or_eq with hday | hday
  · exact dateText_lt hyear.1 hyear'.2 (dateOf_valid _) (dateOf_valid _) (dateOf_before (by omega)) _ _
  · rw [hday]
    apply List.append_left_lt
    rw [List.cons_lt_cons_iff]
    refine .inr ⟨rfl, ?_⟩
    rcases (show t / 1000000000 % 86400 ≤ t' / 1000000000 % 86400 by omega).lt_or_eq with hsecond | hsecond
    · exact timeText_lt (by omega) (by omega) _ _
    · rw [hsecond]
      apply List.append_left_lt
      exact fractionText_lt (by omega) (by omega)

theorem rfc3339_lt_iff {t t' : Int} (ht : FourDigits t) (ht' : FourDigits t') :
    rfc3339 t < rfc3339 t' ↔ t < t' := by
  refine ⟨?_, rfc3339_lt ht ht'⟩
  intro hlt
  by_contra hle
  rcases (Int.not_lt.mp hle).lt_or_eq with hafter | heq
  · exact absurd (hlt.trans (rfc3339_lt ht' ht hafter)) (lt_irrefl _)
  · rw [heq] at hlt
    exact absurd hlt (lt_irrefl _)

/-- A year before 0 sorts below every year of four digits. -/
theorem rfc3339_lt_of_before {t t' : Int} (ht : t < yearInstant 0) (ht' : FourDigits t') : rfc3339 t < rfc3339 t' := by
  have hyear' := year_of_fourDigits ht'
  have hyear : (dateOf (t / 1000000000 / 86400 + epochDay)).year < 0 := by
    have hstart := (yearOf_bounds (t / 1000000000 / 86400 + epochDay)).1
    have hzero : yearStart 0 = 0 := by decide
    unfold yearInstant epochDay at ht
    rw [hzero] at ht
    by_contra hpos
    have hmono := yearStart_mono (show 0 ≤ yearOf (t / 1000000000 / 86400 + epochDay) from Int.not_lt.mp hpos)
    unfold epochDay at hstart hmono
    omega
  rw [String.lt_iff_toList_lt]
  unfold rfc3339 dateText yearText
  dsimp only
  rw [if_neg (by omega), if_pos hyear, if_pos hyear', String.toList_ofList, String.toList_ofList]
  cases hdigits : digits 4 (dateOf (t' / 1000000000 / 86400 + epochDay)).year.toNat with
  | nil =>
      have hlength := length_digits 4 (dateOf (t' / 1000000000 / 86400 + epochDay)).year.toNat
      rw [hdigits] at hlength
      cases hlength
  | cons c rest =>
      have hdigit : c.isDigit = true := isDigit_of_mem_digits (hdigits ▸ List.mem_cons_self)
      rw [Char.isDigit, Bool.and_eq_true, decide_eq_true_eq] at hdigit
      simp only [List.cons_append]
      rw [List.cons_lt_cons_iff]
      exact .inl (lt_of_lt_of_le (by decide) hdigit.1)

end Calendar
