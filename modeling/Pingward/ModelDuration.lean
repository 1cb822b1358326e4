import Pingward.ModelText

/-! `src/duration.rs`: human-readable durations at the form boundary. Storage stays in seconds. -/

namespace Pingward

/-- Seconds in one of the units `s`, `m`, `h`, `d`. -/
def unitSecs : Char → Option Int
  | 's' => some 1
  | 'm' => some 60
  | 'h' => some 3600
  | 'd' => some 86400
  | _ => none

/-- The component loop: `digits` holds the digits of the component being read and `total` the
components before it. The text has to end right after a unit. -/
def parseComponents : List Char → List Char → Int → Option Int
  | [], digits, total => if digits = [] then some total else none
  | c :: rest, digits, total =>
      if c.isDigit then parseComponents rest (digits ++ [c]) total
      else if digits = [] then none
      else do
        let mult ← unitSecs c
        let n ← parseDigits digits
        let component ← checkedI64 (n * mult)
        let total ← checkedI64 (total + component)
        parseComponents rest [] total

/-- The text after the optional sign: bare digits, or components. -/
def parseMagnitude (rest : List Char) : Option Int :=
  if rest = [] then none
  else if rest.all Char.isDigit = true then parseDigits rest
  else parseComponents rest [] 0

def parseDuration (s : String) : Option Int :=
  let cleaned := (s.toList.filter fun c => !isAsciiWhitespace c).map Char.toLower
  match cleaned with
  | [] => none
  | '-' :: rest => (parseMagnitude rest).bind fun v => checkedI64 (-v)
  | rest => parseMagnitude rest

/-- The inverse of `parseDuration` on what is stored; negative values print as zero. -/
def fmtDuration (secs : Int) : String :=
  let s := max secs 0
  if s = 0 then "0s"
  else
    let days := s / 86400
    let hours := s % 86400 / 3600
    let mins := s % 3600 / 60
    let remSecs := s % 60
    (if days > 0 then i64ToString days ++ "d" else "") ++
      (if hours > 0 then i64ToString hours ++ "h" else "") ++
      (if mins > 0 then i64ToString mins ++ "m" else "") ++
      (if remSecs > 0 then i64ToString remSecs ++ "s" else "")

theorem parseDigits_le {digits : List Char} {v : Int} (h : parseDigits digits = some v) :
    v ≤ i64Max := by
  unfold parseDigits at h
  split at h
  · rw [checkedI64_eq_some] at h
    omega
  · cases h

theorem parseComponents_le {chars digits : List Char} {total v : Int} (htotal : total ≤ i64Max)
    (h : parseComponents chars digits total = some v) : v ≤ i64Max := by
  induction chars generalizing digits total with
  | nil =>
      unfold parseComponents at h
      split at h
      · rw [Option.some.injEq] at h
        omega
      · cases h
  | cons c rest ih =>
      unfold parseComponents at h
      split at h
      · exact ih htotal h
      · split at h
        · cases h
        · simp only [Option.bind_eq_bind, Option.bind_eq_some_iff] at h
          obtain ⟨mult, _, n, _, component, _, sum, hsum, hrest⟩ := h
          rw [checkedI64_eq_some] at hsum
          exact ih (by omega) hrest

theorem parseMagnitude_le {rest : List Char} {v : Int} (h : parseMagnitude rest = some v) :
    v ≤ i64Max := by
  unfold parseMagnitude at h
  split at h
  · cases h
  · split at h
    · exact parseDigits_le h
    · exact parseComponents_le (by decide) h

/-- A parsed duration is a signed 64-bit value; nothing tighter is checked. -/
theorem parseDuration_le {s : String} {v : Int} (h : parseDuration s = some v) : v ≤ i64Max := by
  unfold parseDuration at h
  dsimp only at h
  split at h
  · cases h
  · rw [Option.bind_eq_some_iff] at h
    obtain ⟨n, _, hneg⟩ := h
    rw [checkedI64_eq_some] at hneg
    omega
  · exact parseMagnitude_le h

example : parseDuration " 1H 30m" = some 5400 := by decide

end Pingward
