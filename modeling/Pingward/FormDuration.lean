import Pingward.ModelDuration

/-! The round trip of the printed duration. A duration prints as at most four components, days to seconds,
and the parser reads each component back and adds it up; no partial sum leaves the 64-bit range. -/

namespace Pingward

/-! ### One component -/

/-- A component that is not zero, in decimal with its unit. -/
def componentChars (n : Nat) (u : Char) : List Char := if 0 < n then Nat.toDigits 10 n ++ [u] else []

theorem parseComponents_digits {digits rest read : List Char} {total : Int}
    (hdigits : digits.all Char.isDigit = true) :
    parseComponents (digits ++ rest) read total = parseComponents rest (read ++ digits) total := by
  induction digits generalizing read with
  | nil => rw [List.nil_append, List.append_nil]
  | cons c digits ih =>
      rw [List.all_cons, Bool.and_eq_true] at hdigits
      rw [List.cons_append, parseComponents, if_pos hdigits.1, ih hdigits.2, List.append_assoc, List.singleton_append]

/-- A component that fits is added to the total. -/
theorem parseComponents_component (mult : Int) {n : Nat} {u : Char} {total : Int} {rest : List Char}
    (hunit : unitSecs u = some mult) (hletter : u.isDigit = false) (hmult : 1 ≤ mult) (htotal : 0 ≤ total)
    (hfits : total + n * mult ≤ i64Max) :
    parseComponents (componentChars n u ++ rest) [] total = parseComponents rest [] (total + n * mult) := by
  unfold componentChars
  split
  · have hn : (n : Int) ≤ n * mult := le_mul_of_one_le_right (Int.natCast_nonneg n) hmult
    have hnonneg : (0 : Int) ≤ n * mult := mul_nonneg (Int.natCast_nonneg n) (by omega)
    have hread : parseDigits (Nat.toDigits 10 n) = some (n : Int) := parseDigits_toDigits (by omega)
    have hcomponent : checkedI64 (n * mult) = some (n * mult) :=
      checkedI64_eq_some.mpr ⟨rfl, by unfold i64Min; omega, by omega⟩
    have hsum : checkedI64 (total + n * mult) = some (total + n * mult) :=
      checkedI64_eq_some.mpr ⟨rfl, by unfold i64Min; omega, hfits⟩
    rw [List.append_assoc, parseComponents_digits (all_isDigit_toDigits n), List.nil_append, List.singleton_append,
      parseComponents, if_neg (by rw [hletter]; exact Bool.false_ne_true), if_neg Nat.toDigits_ne_nil, hunit]
    simp only [Option.bind_eq_bind, Option.bind_some, hread, hcomponent, hsum]
  · have hzero : n = 0 := by omega
    rw [hzero, List.nil_append, Int.natCast_zero, zero_mul, add_zero]

/-! ### The printed text -/

/-- The characters the printer uses. -/
def IsDurationChar (c : Char) : Prop := c.isDigit = true ∨ c ∈ ['d', 'h', 'm', 's']

theorem isDurationChar_componentChars {n : Nat} {u c : Char} (hu : u ∈ ['d', 'h', 'm', 's'])
    (hc : c ∈ componentChars n u) : IsDurationChar c := by
  unfold componentChars at hc
  split at hc
  · rcases List.mem_append.mp hc with hdigit | hunit
    · exact Or.inl (List.all_eq_true.mp (all_isDigit_toDigits n) c hdigit)
    · rw [List.mem_singleton.mp hunit]
      exact Or.inr hu
  · exact absurd hc List.not_mem_nil

/-- Neither trimming nor cleaning changes such a character, and none of them is a sign. -/
theorem IsDurationChar.plain {c : Char} (hc : IsDurationChar c) :
    isWhiteSpace c = false ∧ isAsciiWhitespace c = false ∧ c.toLower = c ∧ c ≠ '-' := by
  rcases hc with hdigit | hunit
  · obtain ⟨hlow, hhigh⟩ := Char.isDigit_iff_toNat.mp hdigit
    have hlow : 48 ≤ c.toNat := hlow
    have hhigh : c.toNat ≤ 57 := hhigh
    refine ⟨?_, ?_, ?_, ?_⟩
    · simp [isWhiteSpace]
      omega
    · simp [isAsciiWhitespace]
      omega
    · apply dif_neg
      rintro ⟨hupper, _⟩
      have hupper : 65 ≤ c.toNat := hupper
      omega
    · rintro rfl
      exact absurd hlow (by decide)
  · simp only [List.mem_cons, List.not_mem_nil, or_false] at hunit
    rcases hunit with rfl | rfl | rfl | rfl <;> decide

/-- The characters of a positive duration. -/
def durationChars (n : Nat) : List Char :=
  componentChars (n / 86400) 'd' ++ (componentChars (n % 86400 / 3600) 'h' ++
    (componentChars (n % 3600 / 60) 'm' ++ (componentChars (n % 60) 's' ++ [])))

theorem toList_component (n : Nat) (u : Char) :
    (if (n : Int) > 0 then i64ToString n ++ String.singleton u else "").toList = componentChars n u := by
  unfold componentChars
  by_cases hn : 0 < n
  · rw [if_pos (Int.natCast_pos.mpr hn), if_pos hn, String.toList_append, toList_i64ToString, String.toList_singleton]
  · rw [if_neg (by omega), if_neg hn]
    rfl

theorem toList_fmtDuration {n : Nat} (hn : 0 < n) : (fmtDuration n).toList = durationChars n := by
  have hpos : max (n : Int) 0 = n := by omega
  unfold fmtDuration durationChars
  simp only [hpos]
  rw [if_neg (by omega), String.toList_append, String.toList_append, String.toList_append, List.append_nil,
    List.append_assoc, List.append_assoc]
  exact congrArg₂ (· ++ ·) (toList_component (n / 86400) 'd') (congrArg₂ (· ++ ·) (toList_component (n % 86400 / 3600) 'h')
    (congrArg₂ (· ++ ·) (toList_component (n % 3600 / 60) 'm') (toList_component (n % 60) 's')))

theorem isDurationChar_durationChars {n : Nat} {c : Char} (hc : c ∈ durationChars n) : IsDurationChar c := by
  simp only [durationChars, List.mem_append, List.not_mem_nil, or_false] at hc
  rcases hc with hc | hc | hc | hc <;> exact isDurationChar_componentChars (by decide) hc

/-- A printed duration has a unit, so it is not read as bare digits. -/
theorem durationChars_not_digits {n : Nat} (hn : 0 < n) : (durationChars n).all Char.isDigit = false := by
  have hunit {k : Nat} {u : Char} (hk : 0 < k) : u ∈ componentChars k u := by
    rw [componentChars, if_pos hk]
    exact List.mem_append_right _ (List.mem_singleton.mpr rfl)
  have hsome {u : Char} (hu : u.isDigit = false) (hmem : u ∈ durationChars n) :
      (durationChars n).all Char.isDigit = false :=
    List.all_eq_false.mpr ⟨u, hmem, by rw [hu]; exact Bool.false_ne_true⟩
  unfold durationChars at hsome ⊢
  by_cases hdays : 0 < n / 86400
  · exact hsome (u := 'd') (by decide) (List.mem_append_left _ (hunit hdays))
  by_cases hhours : 0 < n % 86400 / 3600
  · exact hsome (u := 'h') (by decide) (List.mem_append_right _ (List.mem_append_left _ (hunit hhours)))
  by_cases hmins : 0 < n % 3600 / 60
  · exact hsome (u := 'm') (by decide)
      (List.mem_append_right _ (List.mem_append_right _ (List.mem_append_left _ (hunit hmins))))
  · have hsecs : 0 < n % 60 := by omega
    exact hsome (u := 's') (by decide)
      (List.mem_append_right _ (List.mem_append_right _ (List.mem_append_right _ (List.mem_append_left _ (hunit hsecs)))))

theorem parseComponents_durationChars {n : Nat} (hn : (n : Int) ≤ i64Max) :
    parseComponents (durationChars n) [] 0 = some (n : Int) := by
  have hsplit : (n / 86400 : Nat) * (86400 : Int) + (n % 86400 / 3600 : Nat) * 3600 + (n % 3600 / 60 : Nat) * 60 +
      (n % 60 : Nat) * 1 = n := by
    push_cast
    omega
  unfold durationChars
  rw [parseComponents_component 86400 rfl (by decide) (by decide) le_rfl (by omega),
    parseComponents_component 3600 rfl (by decide) (by decide) (by omega) (by omega),
    parseComponents_component 60 rfl (by decide) (by decide) (by omega) (by omega),
    parseComponents_component 1 rfl (by decide) (by decide) (by omega) (by omega), parseComponents,
    if_pos rfl]
  exact congrArg some (by omega)

/-! ### The round trip -/

/-- A text of such characters is read as it stands. -/
theorem parseDuration_of_plain {s : String} (hplain : ∀ c ∈ s.toList, IsDurationChar c) :
    parseDuration s = parseMagnitude s.toList := by
  have hclean : (s.toList.filter fun c => !isAsciiWhitespace c).map Char.toLower = s.toList := by
    rw [List.filter_eq_self.mpr fun c hc => by rw [(hplain c hc).plain.2.1]; rfl]
    exact (List.map_congr_left fun c hc => (hplain c hc).plain.2.2.1).trans (List.map_id' _)
  unfold parseDuration
  simp only [hclean]
  split
  · rename_i hnil
    rw [hnil]
    rfl
  · rename_i rest hminus
    exact absurd rfl (hplain '-' (by rw [hminus]; exact List.mem_cons_self)).plain.2.2.2
  · rfl

/-- **Durations round trip.** What is printed of a stored duration is read back as it was. -/
theorem parseDuration_fmtDuration {n : Int} (hnonneg : 0 ≤ n) (hmax : n ≤ i64Max) :
    parseDuration (fmtDuration n) = some n := by
  obtain ⟨k, rfl⟩ := Int.eq_ofNat_of_zero_le hnonneg
  by_cases hk : 0 < k
  · have hchars := toList_fmtDuration hk
    have hdigits := durationChars_not_digits hk
    have hne : durationChars k ≠ [] := by
      intro hnil
      rw [hnil] at hdigits
      cases hdigits
    rw [parseDuration_of_plain (by rw [hchars]; exact fun c hc => isDurationChar_durationChars hc), hchars,
      parseMagnitude, if_neg hne, if_neg (by rw [hdigits]; exact Bool.false_ne_true), parseComponents_durationChars hmax]
  · have hzero : k = 0 := by omega
    subst hzero
    decide

/-- A printed duration is not blank and has nothing to trim. -/
theorem trim_fmtDuration (n : Int) : trim (fmtDuration n) = fmtDuration n ∧ fmtDuration n ≠ "" := by
  by_cases hn : 0 < n
  · obtain ⟨k, rfl⟩ := Int.eq_ofNat_of_zero_le hn.le
    have hk : 0 < k := by omega
    have hchars := toList_fmtDuration hk
    refine ⟨trim_eq_self fun c hc => (isDurationChar_durationChars (hchars ▸ hc)).plain.1, fun hempty => ?_⟩
    have hdigits := durationChars_not_digits hk
    rw [← hchars, hempty] at hdigits
    cases hdigits
  · have hzero : fmtDuration n = "0s" := by
      unfold fmtDuration
      exact if_pos (by omega)
    rw [hzero]
    decide

end Pingward
