import Pingward.LinkToken
import Pingward.ModelSession
import Pingward.OctetOrder

/-! Stored times as texts (`src/store.rs`). What is written for an instant is read as that instant, and octet by octet the
texts are in the order of the instants, whatever the lengths of their fractions. SQL compares the octets; Rust compares
what it reads. -/

open Calendar (Stamp)
open HexText (utf8)

namespace Pingward

/-- `parse_ts`, by a reader of dates. -/
def Chrono.parseTs (dates : Chrono) (text : Option String) : Option Stamp := text.bind dates.parseRfc3339

/-- The reader takes a text of the RFC 3339 grammar for what the grammar says. -/
def Chrono.ReadsRfc3339 (dates : Chrono) : Prop :=
  ∀ text stamp, readRfc3339Stamp text = some stamp → dates.parseRfc3339 text = some stamp

theorem fourDigitYear_ofInstant {t : Instant} : FourDigitYear (.ofInstant t) ↔ Calendar.FourDigits t :=
  ⟨Calendar.fourDigits_of_year, Calendar.year_of_fourDigits⟩

/-- A time is read back from its text, a leap second too. -/
theorem readRfc3339Stamp_text {stamp : Stamp} (hyear : FourDigitYear stamp) : readRfc3339Stamp stamp.text = some stamp :=
  readRfc3339Stamp_of_tail hyear (Calendar.readFraction_fractionText (Nat.mod_lt stamp.nano (by decide))) (by decide)

/-! ### The embedding -/

/-- **Stored times are an order embedding** of the instants of the years 0 to 9999. -/
theorem timestamps_embed {dates : Chrono} (hreads : dates.ReadsRfc3339) {a b : Instant}
    (ha : FourDigitYear (.ofInstant a)) (hb : FourDigitYear (.ofInstant b)) :
    dates.parseTs (some (toRfc3339 a)) = some (.ofInstant a) ∧
      dates.parseTs (some (toRfc3339 b)) = some (.ofInstant b) ∧
      (utf8 (toRfc3339 a) < utf8 (toRfc3339 b) ↔ a < b) := by
  have hread {t : Instant} (ht : FourDigitYear (.ofInstant t)) :
      dates.parseTs (some (toRfc3339 t)) = some (.ofInstant t) := by
    apply hreads
    rw [toRfc3339, ← Stamp.text_ofInstant]
    exact readRfc3339Stamp_text ht
  refine ⟨hread ha, hread hb, ?_⟩
  rw [OctetOrder.utf8_lt_utf8_iff]
  exact Calendar.rfc3339_lt_iff (fourDigitYear_ofInstant.mp ha) (fourDigitYear_ofInstant.mp hb)

/-- Half a second past the start of 1970 comes before a second past it, although its text is the longer one. -/
theorem timestamps_embed_half :
    chrono.parseTs (some (toRfc3339 500000000)) = some (.ofInstant 500000000) ∧
      chrono.parseTs (some (toRfc3339 1000000000)) = some (.ofInstant 1000000000) ∧
      (utf8 (toRfc3339 500000000) < utf8 (toRfc3339 1000000000) ↔ (500000000 : Instant) < 1000000000) :=
  timestamps_embed (fun _ _ hread => hread) (by decide) (by decide)

end Pingward
