import Pingward.CalendarText

/-! Instants with leap seconds, as a date and time library keeps them: the second before, and a fraction that runs over
one second. Their texts are in their order inside the years of four digits; a year with a sign sorts below these. -/

namespace Calendar

/-- A second since the start of 1970 and the nanoseconds behind it. Past a whole second they lie in the leap second that
follows the last second of a minute. -/
structure Stamp where
  second : Int
  nano : Nat
  valid : nano < 1000000000 ∨ nano < 2000000000 ∧ second % 60 = 59
  deriving DecidableEq

namespace Stamp

/-- An instant outside a leap second. -/
def ofInstant (t : Int) : Stamp where
  second := t / 1000000000
  nano := (t % 1000000000).toNat
  valid := .inl (by omega)

def Before (a b : Stamp) : Prop := a.second < b.second ∨ a.second = b.second ∧ a.nano < b.nano

instance (a b : Stamp) : Decidable (a.Before b) := inferInstanceAs (Decidable (_ ∨ _))

/-- The day, the minute of the day, and the second of the minute, which is 60 in a leap second. -/
def day (stamp : Stamp) : Int := stamp.second / 86400 + epochDay

def minute (stamp : Stamp) : Nat := (stamp.second % 86400 / 60).toNat

def secondOfMinute (stamp : Stamp) : Nat := (stamp.second % 60).toNat + stamp.nano / 1000000000

def year (stamp : Stamp) : Int := (dateOf stamp.day).year

/-- The text of a stamp. -/
def text (stamp : Stamp) : String :=
  String.ofList (dateText (dateOf stamp.day) ++
    'T' :: (digits 2 (stamp.minute / 60) ++ ':' :: (digits 2 (stamp.minute % 60) ++
      ':' :: (digits 2 stamp.secondOfMinute ++ (fractionText (stamp.nano % 1000000000) ++ utcText)))))

theorem text_ofInstant (t : Int) : (ofInstant t).text = rfc3339 t := by
  have hminute : (t / 1000000000 % 86400 / 60).toNat / 60 = (t / 1000000000 % 86400).toNat / 3600 := by omega
  have hrest : (t / 1000000000 % 86400 / 60).toNat % 60 = (t / 1000000000 % 86400).toNat / 60 % 60 := by omega
  have hsecond : (t / 1000000000 % 60).toNat + (t % 1000000000).toNat / 1000000000 =
      (t / 1000000000 % 86400).toNat % 60 := by omega
  have hnano : (t % 1000000000).toNat % 1000000000 = (t % 1000000000).toNat := by omega
  simp only [text, rfc3339, ofInstant, day, minute, secondOfMinute, timeText, hminute, hrest, hsecond, hnano,
    List.append_assoc, List.cons_append]

/-! ### The order -/

theorem Before.trichotomy (a b : Stamp) : a.Before b ∨ a.second = b.second ∧ a.nano = b.nano ∨ b.Before a := by
  unfold Before
  omega

theorem Before.asymm {a b : Stamp} (hbefore : a.Before b) : ¬ b.Before a := by
  unfold Before at *
  omega

/-- Neither before the other, two stamps are the same. -/
theorem not_before_iff {a b : Stamp} : ¬ a.Before b ↔ b.Before a ∨ a = b := by
  obtain ⟨second, nano, _⟩ := a
  obtain ⟨second', nano', _⟩ := b
  rw [Stamp.mk.injEq]
  unfold Before
  dsimp only
  omega

theorem ofInstant_before_iff {t t' : Int} : (ofInstant t).Before (ofInstant t') ↔ t < t' := by
  unfold Before ofInstant
  dsimp only
  omega

theorem ofInstant_injective {t t' : Int} (heq : ofInstant t = ofInstant t') : t = t' := by
  rcases lt_trichotomy t t' with hlt | hsame | hlt
  · have hbefore := ofInstant_before_iff.mpr hlt
    exact absurd (heq ▸ hbefore) hbefore.asymm
  · exact hsame
  · have hbefore := ofInstant_before_iff.mpr hlt
    exact absurd (heq ▸ hbefore) hbefore.asymm

/-- Not after the earlier of two instants. -/
theorem not_min_before_iff {t t' : Int} {stamp : Stamp} : ¬ (ofInstant (min t t')).Before stamp ↔
    ¬ (ofInstant t).Before stamp ∧ ¬ (ofInstant t').Before stamp := by
  rcases le_total t t' with hle | hle
  · rw [min_eq_left hle]
    unfold Before ofInstant
    dsimp only
    omega
  · rw [min_eq_right hle]
    unfold Before ofInstant
    dsimp only
    omega

variable {a b : Stamp}

theorem text_congr (hsecond : a.second = b.second) (hnano : a.nano = b.nano) : a.text = b.text := by
  simp only [text, day, minute, secondOfMinute, hsecond, hnano]

/-- Of two times of one day, the text of the earlier one sorts first. -/
theorem time_lt {m m' n n' f f' : Nat} (hminute : m' < 1440) (hsecond : n' ≤ 60) (hfraction : f' < 1000000000)
    (hlt : m < m' ∨ m = m' ∧ (n < n' ∨ n = n' ∧ f < f')) :
    digits 2 (m / 60) ++ ':' :: (digits 2 (m % 60) ++ ':' :: (digits 2 n ++ (fractionText f ++ utcText))) <
      digits 2 (m' / 60) ++ ':' :: (digits 2 (m' % 60) ++ ':' :: (digits 2 n' ++ (fractionText f' ++ utcText))) := by
  have hmle : m ≤ m' := by
    rcases hlt with hlt | ⟨heq, -⟩
    · exact hlt.le
    · exact heq.le
  rcases (show m / 60 ≤ m' / 60 from Nat.div_le_div_right hmle).lt_or_eq with hhour | hhour
  · exact append_lt_append _ _ (by rw [length_digits, length_digits]) (digits_lt (by omega) hhour)
  · rw [hhour]
    apply List.append_left_lt
    rw [List.cons_lt_cons_iff]
    refine .inr ⟨rfl, ?_⟩
    rcases (show m % 60 ≤ m' % 60 by omega).lt_or_eq with hrest | hrest
    · exact append_lt_append _ _ (by rw [length_digits, length_digits]) (digits_lt (by omega) hrest)
    · have hmeq : m = m' := by omega
      rw [hrest]
      apply List.append_left_lt
      rw [List.cons_lt_cons_iff]
      refine .inr ⟨rfl, ?_⟩
      rcases hlt with hlt | ⟨-, hlt | ⟨heq, hlt⟩⟩
      · omega
      · exact append_lt_append _ _ (by rw [length_digits, length_digits]) (digits_lt (by omega) hlt)
      · rw [heq]
        apply List.append_left_lt
        exact fractionText_lt hfraction hlt

/-- **The texts are in the order of the stamps**, inside the years of four digits. -/
theorem text_lt (ha : 0 ≤ a.year) (hb : b.year ≤ 9999) (hbefore : a.Before b) : a.text < b.text := by
  rw [String.lt_iff_toList_lt]
  unfold text
  rw [String.toList_ofList, String.toList_ofList]
  have hseconds : a.second ≤ b.second := by
    rcases hbefore with hlt | ⟨heq, -⟩
    · exact hlt.le
    · exact heq.le
  rcases (show a.day ≤ b.day by unfold day; omega).lt_or_eq with hday | hday
  · exact dateText_lt ha hb (dateOf_valid _) (dateOf_valid _) (dateOf_before hday) _ _
  · rw [hday]
    apply List.append_left_lt
    rw [List.cons_lt_cons_iff]
    refine .inr ⟨rfl, ?_⟩
    have ha := a.valid
    have hb := b.valid
    unfold day at hday
    unfold Before at hbefore
    apply time_lt
    · unfold minute
      omega
    · unfold secondOfMinute
      omega
    · omega
    · unfold minute secondOfMinute
      omega

/-- A year with a sign sorts below every year of four digits. -/
theorem text_lt_of_sign (ha : ¬ (0 ≤ a.year ∧ a.year ≤ 9999)) (hb : 0 ≤ b.year ∧ b.year ≤ 9999) : a.text < b.text := by
  rw [String.lt_iff_toList_lt]
  unfold text dateText yearText
  unfold year at ha hb
  rw [if_neg ha, if_pos hb, String.toList_ofList, String.toList_ofList]
  cases hdigits : digits 4 (dateOf b.day).year.toNat with
  | nil =>
      have hlength := length_digits 4 (dateOf b.day).year.toNat
      rw [hdigits] at hlength
      cases hlength
  | cons c rest =>
      have hdigit : c.isDigit = true := isDigit_of_mem_digits (hdigits ▸ List.mem_cons_self)
      have hsign : (if (dateOf a.day).year < 0 then '-' else '+') < '0' := by
        split <;> decide
      rw [Char.isDigit, Bool.and_eq_true, decide_eq_true_eq] at hdigit
      simp only [List.cons_append]
      rw [List.cons_lt_cons_iff]
      exact .inl (lt_of_lt_of_le hsign hdigit.1)

end Stamp

end Calendar
