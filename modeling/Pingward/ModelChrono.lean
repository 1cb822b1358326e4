import Pingward.CalendarReader
import Pingward.CalendarStamp
import Pingward.ModelText

/-! The two readers of dates that the program calls, as far as it relies on them, and their grammars: RFC 3339, and a
format of numbers and characters, read in UTC. A second of 60 is the leap second behind the 59th. -/

namespace Pingward

open Calendar (Date Stamp)

/-- The readers of the date library: of an RFC 3339 text, and of a text and its format. -/
structure Chrono where
  parseRfc3339 : String → Option Stamp
  parseNaive : String → String → Option Stamp

/-- The stamp of a second of a minute, the minutes counted from the start of 1970. -/
def stampOf (minute : Int) (second nano : Nat) : Option Stamp :=
  if hleap : second = 60 ∧ nano < 1000000000 then some ⟨minute * 60 + 59, nano + 1000000000, .inr (by omega)⟩
  else if hnano : second < 60 ∧ nano < 1000000000 then some ⟨minute * 60 + second, nano, .inl hnano.2⟩
  else none

/-- The minutes from the start of 1970 to a minute of a date. -/
def minutesOf (date : Date) (hour minute : Int) : Int := (date.number - Calendar.epochDay) * 1440 + hour * 60 + minute

/-! ### RFC 3339 -/

/-- The hour, the minute and the second. -/
def readClock (text : List Char) : Option ((Nat × Nat × Nat) × List Char) := do
  let (hour, text) ← Calendar.readNumber 2 text
  let text ← Calendar.readChar [':'] text
  let (minute, text) ← Calendar.readNumber 2 text
  let text ← Calendar.readChar [':'] text
  let (second, text) ← Calendar.readNumber 2 text
  if hour < 24 ∧ minute < 60 ∧ second ≤ 60 then some ((hour, minute, second), text) else none

def readRfc3339Stamp (text : String) : Option Stamp := do
  let (date, rest) ← Calendar.readDate text.toList
  let rest ← Calendar.readChar ['T', 't', ' '] rest
  let ((hour, minute, second), rest) ← readClock rest
  let (nano, rest) ← Calendar.readFraction rest
  let (offset, rest) ← Calendar.readOffset rest
  if rest = [] then stampOf (minutesOf date hour minute - offset / 60) second nano else none

/-! ### Formats -/

inductive DateField where
  | year
  | month
  | day
  | hour
  | minute
  | second
  deriving DecidableEq, Repr

inductive FormatItem where
  | field (field : DateField)
  | literal (c : Char)
  deriving DecidableEq, Repr

def formatItems : List Char → List FormatItem
  | '%' :: 'Y' :: rest => .field .year :: formatItems rest
  | '%' :: 'm' :: rest => .field .month :: formatItems rest
  | '%' :: 'd' :: rest => .field .day :: formatItems rest
  | '%' :: 'H' :: rest => .field .hour :: formatItems rest
  | '%' :: 'M' :: rest => .field .minute :: formatItems rest
  | '%' :: 'S' :: rest => .field .second :: formatItems rest
  | c :: rest => .literal c :: formatItems rest
  | [] => []

/-- A number of at least one digit and at most the given many. -/
def readUpTo (max : Nat) (text : List Char) : Option (Int × List Char) :=
  let run := (text.take max).takeWhile Char.isDigit
  if run = [] then none else some (Nat.ofDigitChars 10 run 0, text.drop run.length)

/-- White space before a number is skipped. A year has at most four digits, or a sign and any number of them. -/
def readField (field : DateField) (text : List Char) : Option (Int × List Char) :=
  let text := text.dropWhile isWhiteSpace
  match field, text with
  | .year, '-' :: rest => (readUpTo rest.length rest).map fun read => (-read.1, read.2)
  | .year, '+' :: rest => readUpTo rest.length rest
  | .year, text => readUpTo 4 text
  | _, text => readUpTo 2 text

abbrev Fields := DateField → Option Int

def Fields.set (fields : Fields) (field : DateField) (value : Int) : Fields :=
  fun other => if other = field then some value else fields other

def readItems : List FormatItem → Fields → List Char → Option (Fields × List Char)
  | [], fields, text => some (fields, text)
  | .literal c :: items, fields, text => do
      let text ← Calendar.readChar [c] text
      readItems items fields text
  | .field field :: items, fields, text => do
      let (value, text) ← readField field text
      readItems items (fields.set field value) text

/-- The years of the calendar. -/
def CalendarYear (year : Int) : Prop := -262143 ≤ year ∧ year ≤ 262142

instance (year : Int) : Decidable (CalendarYear year) := inferInstanceAs (Decidable (_ ∧ _))

/-- The seconds may be missing. -/
def Fields.stamp (fields : Fields) : Option Stamp := do
  let year ← fields .year
  let month ← fields .month
  let day ← fields .day
  let hour ← fields .hour
  let minute ← fields .minute
  let second := (fields .second).getD 0
  if CalendarYear year ∧ (⟨year, month, day⟩ : Date).Valid ∧ hour < 24 ∧ minute < 60 then
    stampOf (minutesOf ⟨year, month, day⟩ hour minute) second.toNat 0
  else none

def readNaive (text format : String) : Option Stamp := do
  let (fields, rest) ← readItems (formatItems format.toList) (fun _ => none) text.toList
  if rest = [] then fields.stamp else none

/-- The readers the program is built with. -/
def chrono : Chrono := ⟨readRfc3339Stamp, readNaive⟩

end Pingward
