import Pingward.FormDuration

/-! The language of durations, and that the scanner accepts it exactly. The text left of an input without white space
and in lower case is an optional sign before digits or before components; the value is the exact sum, and the scanner's
running total stays in range as long as the sum does. -/

namespace Pingward

/-! ### The grammar -/

/-- Digits and a unit. -/
structure Component where
  digits : List Char
  unit : Char
  secs : Nat
  nonempty : digits ≠ []
  numeric : digits.all Char.isDigit = true
  known : unitSecs unit = some (secs : Int)

namespace Component

def text (component : Component) : List Char := component.digits ++ [component.unit]

def value (component : Component) : Nat := Nat.ofDigitChars 10 component.digits 0 * component.secs

end Component

/-- The texts behind the sign, with their exact values. -/
inductive Magnitude : List Char → Nat → Prop where
  | bare {digits : List Char} (hne : digits ≠ []) (hdigits : digits.all Char.isDigit = true) :
      Magnitude digits (Nat.ofDigitChars 10 digits 0)
  | combined {components : List Component} (hne : components ≠ []) :
      Magnitude (components.flatMap Component.text) (components.map Component.value).sum

/-- An input without its ASCII white space, in lower case. -/
def cleaned (s : String) : List Char := (s.toList.filter fun c => !isAsciiWhitespace c).map Char.toLower

/-- The input spells the duration. -/
def Spells (s : String) (v : Int) : Prop :=
  ∃ rest n, Magnitude rest n ∧ (n : Int) ≤ i64Max ∧
    (cleaned s = rest ∧ v = n ∨ cleaned s = '-' :: rest ∧ v = -(n : Int))

/-! ### Units and digits -/

theorem unitSecs_cases {c : Char} {secs : Int} (hunit : unitSecs c = some secs) :
    c.isDigit = false ∧ c ≠ '-' ∧ 1 ≤ secs := by
  unfold unitSecs at hunit
  split at hunit <;> first | (cases hunit; decide) | cases hunit

theorem Component.isDigit_unit (component : Component) : component.unit.isDigit = false :=
  (unitSecs_cases component.known).1

theorem Component.secs_pos (component : Component) : 1 ≤ component.secs := by
  have hsecs := (unitSecs_cases component.known).2.2
  omega

theorem parseDigits_eq_some {digits : List Char} {v : Int} :
    parseDigits digits = some v ↔ digits ≠ [] ∧ digits.all Char.isDigit = true ∧
      v = Nat.ofDigitChars 10 digits 0 ∧ (Nat.ofDigitChars 10 digits 0 : Int) ≤ i64Max := by
  unfold parseDigits
  split
  · rename_i hdigits
    rw [checkedI64_eq_some]
    constructor
    · rintro ⟨hv, -, hmax⟩
      exact ⟨hdigits.1, hdigits.2, hv, hmax⟩
    · rintro ⟨-, -, hv, hmax⟩
      refine ⟨hv, ?_, hmax⟩
      unfold i64Min
      omega
  · rename_i hdigits
    simp only [reduceCtorEq, false_iff, not_and]
    exact fun hne hall => absurd ⟨hne, hall⟩ hdigits

/-! ### The component loop -/

/-- One component is added to the total, if the sum is in range. -/
theorem parseComponents_text (component : Component) {total : Int} (htotal : 0 ≤ total) (rest : List Char) :
    parseComponents (component.text ++ rest) [] total =
      if total + component.value ≤ i64Max then parseComponents rest [] (total + component.value) else none := by
  have hnonneg : (0 : Int) ≤ Nat.ofDigitChars 10 component.digits 0 := Int.natCast_nonneg _
  have hsecs : (1 : Int) ≤ component.secs := by
    have hpos := component.secs_pos
    omega
  have hvalue : (component.value : Int) = Nat.ofDigitChars 10 component.digits 0 * component.secs := by
    rw [Component.value]
    push_cast
    rfl
  have hdigits : (Nat.ofDigitChars 10 component.digits 0 : Int) ≤ component.value := by
    rw [hvalue]
    exact le_mul_of_one_le_right hnonneg hsecs
  rw [Component.text, List.append_assoc, parseComponents_digits component.numeric, List.nil_append,
    List.singleton_append, parseComponents,
    if_neg (by rw [component.isDigit_unit]; exact Bool.false_ne_true), if_neg component.nonempty, component.known]
  simp only [Option.bind_eq_bind, Option.bind_some]
  split
  · rename_i hfits
    have hread : parseDigits component.digits = some (Nat.ofDigitChars 10 component.digits 0 : Int) :=
      parseDigits_eq_some.mpr ⟨component.nonempty, component.numeric, rfl, by omega⟩
    have hcomponent : checkedI64 (Nat.ofDigitChars 10 component.digits 0 * component.secs) =
        some (component.value : Int) := by
      rw [← hvalue, checkedI64_eq_some]
      exact ⟨rfl, by unfold i64Min; omega, by omega⟩
    have hsum : checkedI64 (total + component.value) = some (total + component.value) :=
      checkedI64_eq_some.mpr ⟨rfl, by unfold i64Min; omega, hfits⟩
    simp only [hread, Option.bind_some, hcomponent, hsum]
  · rename_i hlarge
    -- one of the three checks fails
    rw [Option.bind_eq_none_iff]
    intro n hn
    obtain ⟨-, -, rfl, -⟩ := parseDigits_eq_some.mp hn
    rw [← hvalue, Option.bind_eq_none_iff]
    intro sum hsum
    rw [(checkedI64_eq_some.mp hsum).1, Option.bind_eq_none_iff]
    intro last hlast
    exact absurd (checkedI64_eq_some.mp hlast).2.2 hlarge

/-- The loop stops at the end of the text, or reads a component. -/
theorem parseComponents_cases {text : List Char} {total v : Int} (hread : parseComponents text [] total = some v) :
    text = [] ∨ ∃ (component : Component) (rest : List Char), text = component.text ++ rest := by
  have hsplit := List.takeWhile_append_dropWhile (p := Char.isDigit) (l := text)
  have hnumeric : (text.takeWhile Char.isDigit).all Char.isDigit = true := List.all_takeWhile
  rw [← hsplit, parseComponents_digits hnumeric, List.nil_append] at hread
  cases hrest : text.dropWhile Char.isDigit with
  | nil =>
      rw [hrest, parseComponents] at hread
      split at hread
      · rename_i hdigits
        rw [hdigits, hrest] at hsplit
        exact Or.inl hsplit.symm
      · cases hread
  | cons c rest =>
      have hc : c.isDigit = false := by
        have hhead := List.head?_dropWhile_not Char.isDigit text
        rw [hrest] at hhead
        simpa using hhead
      rw [hrest, parseComponents, if_neg (by rw [hc]; exact Bool.false_ne_true)] at hread
      split at hread
      · cases hread
      · rename_i hne
        simp only [Option.bind_eq_bind, Option.bind_eq_some_iff] at hread
        obtain ⟨secs, hunit, -⟩ := hread
        have hsecs := (unitSecs_cases hunit).2.2
        obtain ⟨k, rfl⟩ := Int.eq_ofNat_of_zero_le (by omega : 0 ≤ secs)
        refine Or.inr ⟨⟨text.takeWhile Char.isDigit, c, k, hne, hnumeric, hunit⟩, rest, ?_⟩
        rw [Component.text, List.append_assoc, List.singleton_append, ← hrest]
        exact hsplit.symm

/-- The loop accepts the sequences of components whose sum is in range. -/
theorem parseComponents_iff {text : List Char} {total v : Int} (htotal : 0 ≤ total) (hmax : total ≤ i64Max) :
    parseComponents text [] total = some v ↔ ∃ components : List Component,
      text = components.flatMap Component.text ∧ v = total + (components.map Component.value).sum ∧ v ≤ i64Max := by
  constructor
  · intro hread
    induction hlength : text.length using Nat.strong_induction_on generalizing text total with
    | _ length ih =>
        rcases parseComponents_cases hread with hnil | ⟨component, rest, htext⟩
        · rw [hnil, parseComponents, if_pos rfl, Option.some.injEq] at hread
          exact ⟨[], hnil, by simp [hread], by omega⟩
        · rw [htext, parseComponents_text component htotal] at hread
          split at hread
          · rename_i hfits
            have hshorter : rest.length < length := by
              rw [← hlength, htext, List.length_append, Component.text, List.length_append, List.length_singleton]
              omega
            obtain ⟨components, hrest, hv, hrange⟩ := ih rest.length hshorter (by omega) hfits hread rfl
            refine ⟨component :: components, ?_, ?_, hrange⟩
            · rw [List.flatMap_cons, ← hrest, htext]
            · rw [List.map_cons, List.sum_cons, hv]
              rw [Nat.cast_add]
              exact add_assoc _ _ _
          · cases hread
  · rintro ⟨components, rfl, hv, hrange⟩
    induction components generalizing total with
    | nil =>
        rw [List.flatMap_nil, parseComponents, if_pos rfl, hv]
        simp
    | cons component components ih =>
        rw [List.map_cons, List.sum_cons] at hv
        rw [Nat.cast_add] at hv
        have hsum : (0 : Int) ≤ ((components.map Component.value).sum : Nat) := Int.natCast_nonneg _
        have hfits : total + component.value ≤ i64Max := by omega
        rw [List.flatMap_cons, parseComponents_text component htotal, if_pos hfits]
        exact ih (by omega) hfits (by omega)

/-! ### The text behind the sign -/

theorem Magnitude.nonempty {rest : List Char} {n : Nat} (hrest : Magnitude rest n) : rest ≠ [] := by
  cases hrest with
  | bare hne _ => exact hne
  | @combined components hne =>
      cases components with
      | nil => exact absurd rfl hne
      | cons component components => simp [Component.text]

/-- Components end with a letter. -/
theorem components_not_digits {components : List Component} (hne : components ≠ []) :
    (components.flatMap Component.text).all Char.isDigit = false := by
  cases components with
  | nil => exact absurd rfl hne
  | cons component components =>
      refine List.all_eq_false.mpr ⟨component.unit, ?_, by rw [component.isDigit_unit]; exact Bool.false_ne_true⟩
      rw [List.flatMap_cons, Component.text]
      simp

theorem parseMagnitude_iff {rest : List Char} {v : Int} :
    parseMagnitude rest = some v ↔ ∃ n : Nat, Magnitude rest n ∧ v = n ∧ (n : Int) ≤ i64Max := by
  unfold parseMagnitude
  split
  · rename_i hnil
    simp only [reduceCtorEq, false_iff, not_exists, not_and]
    intro n hn
    exact absurd hnil hn.nonempty
  · rename_i hne
    split
    · rename_i hdigits
      rw [parseDigits_eq_some]
      constructor
      · rintro ⟨-, -, hv, hmax⟩
        exact ⟨_, .bare hne hdigits, hv, hmax⟩
      · rintro ⟨n, hn, hv, hmax⟩
        cases hn with
        | bare _ _ => exact ⟨hne, hdigits, hv, hmax⟩
        | combined hsome =>
            rw [components_not_digits hsome] at hdigits
            cases hdigits
    · rename_i hmixed
      rw [parseComponents_iff le_rfl (by decide)]
      constructor
      · rintro ⟨components, rfl, hv, hrange⟩
        rw [zero_add] at hv
        refine ⟨_, .combined ?_, hv, by omega⟩
        rintro rfl
        exact hne rfl
      · rintro ⟨n, hn, hv, hmax⟩
        cases hn with
        | bare _ hdigits => exact absurd hdigits hmixed
        | combined _ => exact ⟨_, rfl, by rw [zero_add, hv], by omega⟩

/-- No such text starts with the sign. -/
theorem Magnitude.unsigned {rest tail : List Char} {n : Nat} (hrest : Magnitude rest n) : rest ≠ '-' :: tail := by
  intro hminus
  have hfirst {digits : List Char} (more : List Char) (hne : digits ≠ []) (hdigits : digits.all Char.isDigit = true) :
      digits ++ more ≠ '-' :: tail := by
    intro heq
    cases digits with
    | nil => exact hne rfl
    | cons c digits =>
        rw [List.cons_append, List.cons.injEq] at heq
        rw [heq.1, List.all_cons, Bool.and_eq_true] at hdigits
        exact absurd hdigits.1 (by decide)
  cases hrest with
  | bare hne hdigits => exact hfirst [] hne hdigits (by rw [List.append_nil, hminus])
  | @combined components hne =>
      cases components with
      | nil => exact hne rfl
      | cons component components =>
          rw [List.flatMap_cons, Component.text, List.append_assoc] at hminus
          exact hfirst _ component.nonempty component.numeric hminus

/-! ### The whole input -/

/-- **The grammar of durations.** The scanner reads a value exactly if the input spells it. -/
theorem parseDuration_iff (s : String) (v : Int) : parseDuration s = some v ↔ Spells s v := by
  have hcleaned : (s.toList.filter fun c => !isAsciiWhitespace c).map Char.toLower = cleaned s := rfl
  unfold Spells parseDuration
  dsimp only
  rw [hcleaned]
  generalize cleaned s = text
  split
  · simp only [reduceCtorEq, false_iff, not_exists, not_and, false_and, or_false]
    intro rest n hn _ heq
    exact absurd heq.symm hn.nonempty
  · rename_i rest
    rw [Option.bind_eq_some_iff]
    constructor
    · rintro ⟨read, hread, hv⟩
      obtain ⟨n, hn, rfl, hmax⟩ := parseMagnitude_iff.mp hread
      exact ⟨rest, n, hn, hmax, Or.inr ⟨rfl, (checkedI64_eq_some.mp hv).1⟩⟩
    · rintro ⟨text, n, hn, hmax, ⟨heq, -⟩ | ⟨heq, rfl⟩⟩
      · exact absurd heq.symm hn.unsigned
      · rw [List.cons.injEq] at heq
        refine ⟨n, parseMagnitude_iff.mpr ⟨n, heq.2 ▸ hn, rfl, hmax⟩, checkedI64_eq_some.mpr ⟨rfl, ?_, ?_⟩⟩
        · unfold i64Min
          unfold i64Max at hmax
          omega
        · unfold i64Max
          omega
  · rename_i hplain
    rw [parseMagnitude_iff]
    constructor
    · rintro ⟨n, hn, hv, hmax⟩
      exact ⟨text, n, hn, hmax, Or.inl ⟨rfl, hv⟩⟩
    · rintro ⟨rest, n, hn, hmax, ⟨rfl, hv⟩ | ⟨rfl, -⟩⟩
      · exact ⟨n, hn, hv, hmax⟩
      · exact (hplain rest rfl).elim

end Pingward
