import Pingward.LinkQuery

/-! The tokens of date bounds. A reader takes a token of a year of four digits to the whole second it was written for, and
no other token at all, so that a bound comes back where it has no fraction and such a year. -/

namespace Pingward

open Calendar (Stamp digits dateText dateOf yearText)

/-! ### What is assumed of the readers -/

/-- A text that is read in no way. -/
structure Chrono.Refuses (dates : Chrono) (text : String) : Prop where
  rfc3339 : dates.parseRfc3339 text = none
  seconds : dates.parseNaive text "%Y-%m-%dT%H:%M:%S" = none
  minutes : dates.parseNaive text "%Y-%m-%dT%H:%M" = none

/-- The year of a text that RFC 3339 gives a sense to. -/
def FourDigitYear (stamp : Stamp) : Prop := 0 ≤ stamp.year ∧ stamp.year ≤ 9999

instance (stamp : Stamp) : Decidable (FourDigitYear stamp) := inferInstanceAs (Decidable (_ ∧ _))

/-- RFC 3339 years have four digits and no sign, and a text is read only as a whole. -/
structure Chrono.Lawful (dates : Chrono) : Prop where
  token : ∀ stamp, FourDigitYear stamp → stamp.nano % 1000000000 = 0 → dates.parseRfc3339 (stampToken stamp) = some stamp
  signed : ∀ stamp, ¬ FourDigitYear stamp → dates.Refuses (stampToken stamp)
  unsigned : ∀ stamp, 9999 < stamp.year → dates.Refuses (String.ofList ((stampToken stamp).toList.drop 1))

/-! ### The characters of a token -/

/-- Digits and the characters between them. -/
def isTokenChar (c : Char) : Bool := c.isDigit || ['-', ':', 'T', 'Z'].contains c

def yearSign (year : Int) : List Char := if 0 ≤ year ∧ year ≤ 9999 then [] else [if year < 0 then '-' else '+']

def yearDigits (year : Int) : List Char :=
  if 0 ≤ year ∧ year ≤ 9999 then digits 4 year.toNat
  else List.replicate (4 - (Nat.toDigits 10 year.natAbs).length) '0' ++ Nat.toDigits 10 year.natAbs

theorem yearText_eq (year : Int) : yearText year = yearSign year ++ yearDigits year := by
  unfold yearText yearSign yearDigits
  split <;> rfl

/-- The token behind the sign of its year. -/
def unsignedToken (stamp : Stamp) : List Char :=
  yearDigits stamp.year ++ '-' :: (digits 2 (dateOf stamp.day).month.toNat ++
    '-' :: (digits 2 (dateOf stamp.day).day.toNat ++ 'T' :: (digits 2 (stamp.minute / 60) ++
      ':' :: (digits 2 (stamp.minute % 60) ++ ':' :: (digits 2 stamp.secondOfMinute ++ ['Z'])))))

theorem toList_stampToken (stamp : Stamp) : (stampToken stamp).toList = yearSign stamp.year ++ unsignedToken stamp := by
  unfold stampToken unsignedToken dateText
  rw [String.toList_ofList]
  change yearText stamp.year ++ _ ++ _ = _
  rw [yearText_eq]
  simp only [List.append_assoc, List.cons_append]

theorem isTokenChar_digits {width n : Nat} : ∀ c ∈ digits width n, isTokenChar c = true := by
  intro c hc
  rw [isTokenChar, Calendar.isDigit_of_mem_digits hc, Bool.true_or]

theorem isDigit_yearDigits (year : Int) : ∀ c ∈ yearDigits year, c.isDigit = true := by
  intro c hc
  unfold yearDigits at hc
  split at hc
  · exact Calendar.isDigit_of_mem_digits hc
  · rcases List.mem_append.mp hc with hzero | hplain
    · rw [(List.mem_replicate.mp hzero).2]
      decide
    · exact Nat.isDigit_of_mem_toDigits (by decide) (by decide) hplain

theorem isTokenChar_unsigned (stamp : Stamp) : ∀ c ∈ unsignedToken stamp, isTokenChar c = true := by
  have hyear : ∀ c ∈ yearDigits stamp.year, isTokenChar c = true := by
    intro c hc
    rw [isTokenChar, isDigit_yearDigits stamp.year c hc, Bool.true_or]
  have hseparator : isTokenChar '-' = true ∧ isTokenChar ':' = true ∧ isTokenChar 'T' = true ∧ isTokenChar 'Z' = true := by
    decide
  intro c hc
  simp only [unsignedToken, List.mem_append, List.mem_cons, List.not_mem_nil, or_false] at hc
  rcases hc with hc | rfl | hc | rfl | hc | rfl | hc | rfl | hc | rfl | hc | rfl
  · exact hyear c hc
  · exact hseparator.1
  · exact isTokenChar_digits c hc
  · exact hseparator.1
  · exact isTokenChar_digits c hc
  · exact hseparator.2.2.1
  · exact isTokenChar_digits c hc
  · exact hseparator.2.1
  · exact isTokenChar_digits c hc
  · exact hseparator.2.1
  · exact isTokenChar_digits c hc
  · exact hseparator.2.2.2

/-- What a character of a token is not. -/
theorem tokenChar_plain {c : Char} (hc : isTokenChar c = true) :
    isWhiteSpace c = false ∧ c ≠ '&' ∧ c ≠ '+' ∧ c ≠ '%' := by
  have hdigit (hdigit : c.isDigit = true) : 48 ≤ c.toNat ∧ c.toNat ≤ 57 := by
    rw [Char.isDigit, Bool.and_eq_true, decide_eq_true_eq, decide_eq_true_eq] at hdigit
    exact hdigit
  have hne (other : Char) (hother : other.toNat < 48) : c.isDigit = true → c ≠ other := by
    rintro his rfl
    have hrange := hdigit his
    omega
  rw [isTokenChar, Bool.or_eq_true] at hc
  rcases hc with his | hseparator
  · have hrange := hdigit his
    refine ⟨?_, hne '&' (by decide) his, hne '+' (by decide) his, hne '%' (by decide) his⟩
    unfold isWhiteSpace
    simp only [Bool.or_eq_false_iff, Bool.and_eq_false_iff, beq_eq_false_iff_ne, decide_eq_false_iff_not]
    omega
  · rw [List.contains_iff_mem] at hseparator
    simp only [List.mem_cons, List.not_mem_nil, or_false] at hseparator
    rcases hseparator with rfl | rfl | rfl | rfl <;> decide

theorem hasEscape_of_percent_notMem {text : List Char} (hpercent : '%' ∉ text) : hasEscape text = false := by
  induction text with
  | nil => rfl
  | cons c rest ih =>
      rw [List.mem_cons, not_or] at hpercent
      rw [hasEscape_cons_of_ne (Ne.symm hpercent.1), ih hpercent.2]

/-- A token without a plus sign is decoded to itself and has nothing to trim. -/
theorem token_plain {stamp : Stamp} (hyear : stamp.year ≤ 9999) :
    Plain (stampToken stamp) ∧ ∀ c ∈ (stampToken stamp).toList, isWhiteSpace c = false := by
  have hsign : ∀ c ∈ yearSign stamp.year, isTokenChar c = true := by
    intro c hc
    unfold yearSign at hc
    split at hc
    · cases hc
    · rw [if_pos (by omega), List.mem_singleton] at hc
      rw [hc]
      decide
  have hchars : ∀ c ∈ (stampToken stamp).toList, isTokenChar c = true := by
    intro c hc
    rw [toList_stampToken] at hc
    exact (List.mem_append.mp hc).elim (hsign c) (isTokenChar_unsigned stamp c)
  refine ⟨⟨?_, ?_, hasEscape_of_percent_notMem ?_⟩, fun c hc => (tokenChar_plain (hchars c hc)).1⟩
  · exact fun hmem => (tokenChar_plain (hchars _ hmem)).2.1 rfl
  · exact fun hmem => (tokenChar_plain (hchars _ hmem)).2.2.1 rfl
  · exact fun hmem => (tokenChar_plain (hchars _ hmem)).2.2.2 rfl

theorem token_late {stamp : Stamp} (hlate : 9999 < stamp.year) : (stampToken stamp).toList = '+' :: unsignedToken stamp := by
  rw [toList_stampToken, yearSign, if_neg (by omega), if_neg (by omega)]
  rfl

/-- The plus sign of a late year is lost. -/
theorem fromLink_late {stamp : Stamp} (hlate : 9999 < stamp.year) :
    (fromLink (stampToken stamp)).toList = ' ' :: unsignedToken stamp := by
  have hchars := isTokenChar_unsigned stamp
  have hplus : '+' ∉ unsignedToken stamp := fun hmem => (tokenChar_plain (hchars _ hmem)).2.2.1 rfl
  have hpercent : '%' ∉ unsignedToken stamp := fun hmem => (tokenChar_plain (hchars _ hmem)).2.2.2 rfl
  have hspaced : spaced ('+' :: unsignedToken stamp) = ' ' :: spaced (unsignedToken stamp) := rfl
  have hescape : hasEscape (' ' :: unsignedToken stamp) = false := by
    rw [hasEscape_cons_of_ne (by decide), hasEscape_of_percent_notMem hpercent]
  rw [fromLink, token_late hlate, toList_decodeForm, hspaced, spaced_eq_self hplus, percentDecode_of_no_escape hescape,
    fromUtf8Lossy_flatMap]

theorem token_separable (stamp : Stamp) : '&' ∉ (stampToken stamp).toList := by
  have hchars := isTokenChar_unsigned stamp
  have hsign : ∀ c ∈ yearSign stamp.year, c ≠ '&' := by
    intro c hc
    unfold yearSign at hc
    split at hc
    · cases hc
    · rw [List.mem_singleton.mp hc]
      split <;> decide
  rw [toList_stampToken, List.mem_append]
  rintro (hmem | hmem)
  · exact hsign _ hmem rfl
  · exact (tokenChar_plain (hchars _ hmem)).2.1 rfl

/-! ### Reading a token again -/

/-- The whole seconds of a stamp. -/
def wholeSeconds (stamp : Stamp) : Stamp where
  second := stamp.second
  nano := stamp.nano / 1000000000 * 1000000000
  valid := by
    have hvalid := stamp.valid
    omega

theorem stampToken_wholeSeconds (stamp : Stamp) : stampToken (wholeSeconds stamp) = stampToken stamp := by
  have hday : (wholeSeconds stamp).day = stamp.day := rfl
  have hminute : (wholeSeconds stamp).minute = stamp.minute := rfl
  have hsecond : (wholeSeconds stamp).secondOfMinute = stamp.secondOfMinute := by
    unfold Stamp.secondOfMinute wholeSeconds
    dsimp only
    omega
  unfold stampToken
  rw [hday, hminute, hsecond]

theorem wholeSeconds_eq_self {stamp : Stamp} : wholeSeconds stamp = stamp ↔ stamp.nano % 1000000000 = 0 := by
  obtain ⟨second, nano, hvalid⟩ := stamp
  rw [wholeSeconds, Stamp.mk.injEq]
  dsimp only
  omega

/-- A bound that comes back: no fraction, and a year of four digits. -/
def Returns (bound : Option Stamp) : Prop :=
  ∀ stamp, bound = some stamp → FourDigitYear stamp ∧ stamp.nano % 1000000000 = 0

section Reader

variable {dates : Chrono}

theorem parseDateBound_refused {text : String} (hrefused : dates.Refuses (trim text)) :
    parseDateBound dates (some text) = none := by
  rw [parseDateBound, presentText, Option.map_some, Option.filter_some]
  split
  · rw [Option.bind_some, hrefused.rfc3339, hrefused.seconds, hrefused.minutes]
    rfl
  · rfl

theorem stampToken_ne_empty (stamp : Stamp) : stampToken stamp ≠ "" := by
  intro hempty
  have hlist := congrArg String.toList hempty
  rw [toList_stampToken] at hlist
  have hnil := (List.append_eq_nil_iff.mp hlist).2
  unfold unsignedToken at hnil
  exact List.cons_ne_nil _ _ (List.append_eq_nil_iff.mp hnil).2

theorem parseDateBound_token (hlawful : dates.Lawful) {stamp : Stamp} (hyear : FourDigitYear stamp) :
    parseDateBound dates (some (stampToken stamp)) = some (wholeSeconds stamp) := by
  have htrim : trim (stampToken stamp) = stampToken stamp := trim_eq_self (token_plain hyear.2).2
  have hread := hlawful.token (wholeSeconds stamp) hyear (Nat.mul_mod_left _ _)
  rw [stampToken_wholeSeconds] at hread
  rw [parseDateBound, presentText_of_trimmed htrim (stampToken_ne_empty stamp), Option.bind_some, hread]
  rfl

theorem trim_of_space {text : String} {rest : List Char} (htext : text.toList = ' ' :: rest)
    (hrest : ∀ c ∈ rest, isWhiteSpace c = false) : trim text = String.ofList rest := by
  have hsame : trim text = trim (String.ofList rest) := by
    unfold trim
    rw [htext, List.dropWhile_cons_of_pos (by decide), String.toList_ofList]
  rw [hsame]
  exact trim_eq_self fun c hc => hrest c (by rwa [String.toList_ofList] at hc)

/-- How a token is decoded: not at all, or as a parameter of a link. -/
theorem parseDateBound_decoded (hlawful : dates.Lawful) {decode : String → String} (hdecode : decode = id ∨ decode = fromLink)
    (stamp : Stamp) : parseDateBound dates (some (decode (stampToken stamp))) =
      if FourDigitYear stamp then some (wholeSeconds stamp) else none := by
  have hearly (hyear : stamp.year ≤ 9999) : decode (stampToken stamp) = stampToken stamp := by
    rcases hdecode with rfl | rfl
    · rfl
    · exact fromLink_plain (token_plain hyear).1.plus (token_plain hyear).1.escape
  split
  · rename_i hyear
    rw [hearly hyear.2, parseDateBound_token hlawful hyear]
  · rename_i hyear
    have hrefused := hlawful.signed stamp hyear
    apply parseDateBound_refused
    by_cases hlate : 9999 < stamp.year
    · have hchars := isTokenChar_unsigned stamp
      rcases hdecode with rfl | rfl
      · have htrim : trim (stampToken stamp) = stampToken stamp := by
          refine trim_eq_self fun c hc => ?_
          rw [token_late hlate, List.mem_cons] at hc
          rcases hc with rfl | hc
          · decide
          · exact (tokenChar_plain (hchars c hc)).1
        rw [id, htrim]
        exact hrefused
      · have hunsigned := hlawful.unsigned stamp hlate
        rw [token_late hlate, List.drop_one, List.tail_cons] at hunsigned
        rw [trim_of_space (fromLink_late hlate) fun c hc => (tokenChar_plain (hchars c hc)).1]
        exact hunsigned
    · rw [hearly (Int.not_lt.mp hlate), trim_eq_self (token_plain (Int.not_lt.mp hlate)).2]
      exact hrefused

/-- **A bound comes back from its token exactly when it has no fraction and a year of four digits.** -/
theorem parseDateBound_sent_iff (hlawful : dates.Lawful) {decode : String → String} (hdecode : decode = id ∨ decode = fromLink)
    (bound : Option Stamp) :
    parseDateBound dates (sent decode (dateBoundToken bound)) = bound ↔ Returns bound := by
  cases bound with
  | none =>
      rw [show sent decode (dateBoundToken none) = none from if_pos rfl]
      exact iff_of_true rfl fun stamp hstamp => nomatch hstamp
  | some stamp =>
      have hsent : sent decode (dateBoundToken (some stamp)) = some (decode (stampToken stamp)) :=
        if_neg (stampToken_ne_empty stamp)
      rw [hsent, parseDateBound_decoded hlawful hdecode]
      unfold Returns
      split
      · rename_i hyear
        rw [Option.some_inj, wholeSeconds_eq_self]
        constructor
        · rintro hwhole other hother
          cases hother
          exact ⟨hyear, hwhole⟩
        · intro hreturns
          exact (hreturns stamp rfl).2
      · rename_i hyear
        exact iff_of_false (fun heq => nomatch heq) fun hreturns => hyear (hreturns stamp rfl).1

end Reader

/-! ### The readers of the program -/

theorem readClock_digits {hour minute second : Nat} (hhour : hour < 24) (hminute : minute < 60) (hsecond : second ≤ 60)
    (rest : List Char) :
    readClock (digits 2 hour ++ ':' :: (digits 2 minute ++ ':' :: (digits 2 second ++ rest))) =
      some ((hour, minute, second), rest) := by
  unfold readClock
  simp only [Option.bind_eq_bind, Option.bind_some, Calendar.readNumber_digits (show hour < 10 ^ 2 by omega),
    Calendar.readNumber_digits (show minute < 10 ^ 2 by omega), Calendar.readNumber_digits (show second < 10 ^ 2 by omega),
    Calendar.readChar_cons (List.mem_singleton_self ':')]
  rw [if_pos ⟨hhour, hminute, hsecond⟩]

theorem minutesOf_dateOf (stamp : Stamp) :
    minutesOf (dateOf stamp.day) (stamp.minute / 60 : Nat) (stamp.minute % 60 : Nat) = stamp.second / 60 := by
  rw [minutesOf, Calendar.dateOf_number]
  unfold Stamp.day Stamp.minute
  omega

theorem stampOf_parts (stamp : Stamp) :
    stampOf (stamp.second / 60) stamp.secondOfMinute (stamp.nano % 1000000000) = some stamp := by
  obtain ⟨second, nano, hvalid⟩ := stamp
  unfold stampOf Stamp.secondOfMinute
  dsimp only
  split
  · rename_i hleap
    rw [Option.some_inj, Stamp.mk.injEq]
    omega
  · rename_i hleap
    rw [dif_pos (by omega), Option.some_inj, Stamp.mk.injEq]
    omega

/-- A date, a time, and a tail that is read as a fraction of the stamp and the offset of UTC. -/
theorem readRfc3339Stamp_of_tail {stamp : Stamp} (hyear : FourDigitYear stamp) {tail offset : List Char}
    (hfraction : Calendar.readFraction tail = some (stamp.nano % 1000000000, offset))
    (hutc : Calendar.readOffset offset = some (0, [])) :
    readRfc3339Stamp (String.ofList (dateText (dateOf stamp.day) ++ 'T' :: (digits 2 (stamp.minute / 60) ++
      ':' :: (digits 2 (stamp.minute % 60) ++ ':' :: (digits 2 stamp.secondOfMinute ++ tail))))) = some stamp := by
  have hminute : stamp.minute < 1440 := by
    unfold Stamp.minute
    omega
  have hsecond : stamp.secondOfMinute ≤ 60 := by
    have hvalid := stamp.valid
    unfold Stamp.secondOfMinute
    omega
  unfold readRfc3339Stamp
  rw [String.toList_ofList, Calendar.readDate_dateText hyear (Calendar.dateOf_valid _)]
  simp only [Option.bind_eq_bind, Option.bind_some, Calendar.readChar_cons List.mem_cons_self,
    readClock_digits (show stamp.minute / 60 < 24 by omega) (show stamp.minute % 60 < 60 by omega) hsecond, hfraction, hutc,
    if_true, minutesOf_dateOf, Int.zero_ediv, Int.sub_zero]
  exact stampOf_parts stamp

theorem readRfc3339Stamp_token {stamp : Stamp} (hyear : FourDigitYear stamp) (hwhole : stamp.nano % 1000000000 = 0) :
    readRfc3339Stamp (stampToken stamp) = some stamp := by
  have hfraction : Calendar.readFraction ['Z'] = some (stamp.nano % 1000000000, ['Z']) := by
    rw [hwhole]
    rfl
  exact readRfc3339Stamp_of_tail hyear hfraction (by decide)

/-- A date begins with four digits and a dash. -/
theorem readDate_eq_none {text : List Char} (htext : (text.take 4).all Char.isDigit = false ∨
    ∃ c rest, text.drop 4 = c :: rest ∧ c ≠ '-') : Calendar.readDate text = none := by
  unfold Calendar.readDate Calendar.readNumber
  by_cases hyear : (text.take 4).length = 4 ∧ (text.take 4).all Char.isDigit = true
  · rcases htext with hdigits | ⟨c, rest, hdrop, hc⟩
    · rw [hdigits] at hyear
      cases hyear.2
    · rw [if_pos hyear, hdrop]
      simp only [Option.bind_eq_bind, Option.bind_some, Calendar.readChar, List.mem_singleton, hc, if_false, Option.bind_none]
  · rw [if_neg hyear]
    rfl

theorem readRfc3339Stamp_eq_none {text : String} (hdate : Calendar.readDate text.toList = none) :
    readRfc3339Stamp text = none := by
  rw [readRfc3339Stamp, hdate]
  rfl

/-- A reader leaves the end of its text. -/
theorem readUpTo_suffix {max : Nat} {text rest : List Char} {value : Int} (hread : readUpTo max text = some (value, rest)) :
    ∃ run, text = run ++ rest ∧ run ≠ [] ∧ run.all Char.isDigit = true := by
  unfold readUpTo at hread
  dsimp only at hread
  split at hread
  · cases hread
  · rename_i hrun
    simp only [Option.some.injEq, Prod.mk.injEq] at hread
    obtain ⟨-, rfl⟩ := hread
    refine ⟨_, ?_, hrun, List.all_takeWhile⟩
    have hprefix : (text.take max).takeWhile Char.isDigit <+: text :=
      (List.takeWhile_prefix _).trans (List.take_prefix _ _)
    exact (List.prefix_iff_eq_append.mp hprefix).symm

/-- The last character of what a number field takes is a digit. -/
theorem readField_suffix {field : DateField} {text rest : List Char} {value : Int}
    (hread : readField field text = some (value, rest)) :
    ∃ front digit, text = front ++ digit :: rest ∧ digit.isDigit = true := by
  have hrun {max : Nat} {front text rest : List Char} {value : Int} (hread : readUpTo max text = some (value, rest)) :
      ∃ before digit, front ++ text = before ++ digit :: rest ∧ digit.isDigit = true := by
    obtain ⟨run, rfl, hne, hdigits⟩ := readUpTo_suffix hread
    obtain ⟨init, digit, rfl⟩ := List.eq_nil_or_concat run |>.resolve_left hne
    rw [List.concat_eq_append] at hdigits ⊢
    refine ⟨front ++ init, digit, ?_, List.all_eq_true.mp hdigits digit (by simp)⟩
    simp only [List.append_assoc, List.singleton_append]
  have htext : text.takeWhile isWhiteSpace ++ text.dropWhile isWhiteSpace = text := List.takeWhile_append_dropWhile
  have hsign (c : Char) (signed : List Char) : text.takeWhile isWhiteSpace ++ c :: signed =
      (text.takeWhile isWhiteSpace ++ [c]) ++ signed := by
    rw [List.append_assoc, List.singleton_append]
  unfold readField at hread
  dsimp only at hread
  split at hread
  · rename_i signed hsigned
    obtain ⟨read, hnumber, hpair⟩ := Option.map_eq_some_iff.mp hread
    cases hpair
    rw [← htext, hsigned, hsign]
    exact hrun hnumber
  · rename_i signed hsigned
    rw [← htext, hsigned, hsign]
    exact hrun hread
  · rw [← htext]
    exact hrun hread
  · rw [← htext]
    exact hrun hread

/-- The end of a text that one item leaves. -/
theorem readItem_suffix {item : FormatItem} {items : List FormatItem} {fields fields' : Fields} {text rest : List Char}
    (hread : readItems (item :: items) fields text = some (fields', rest)) :
    ∃ fields left, readItems items fields left = some (fields', rest) ∧ left <:+ text := by
  cases item with
  | literal c =>
      obtain ⟨left, hleft, hrest⟩ := Option.bind_eq_some_iff.mp hread
      refine ⟨fields, left, hrest, ?_⟩
      cases text with
      | nil => cases hleft
      | cons x text =>
          unfold Calendar.readChar at hleft
          dsimp only at hleft
          split at hleft
          · cases hleft
            exact List.suffix_cons x left
          · cases hleft
  | field field =>
      obtain ⟨⟨value, left⟩, hleft, hrest⟩ := Option.bind_eq_some_iff.mp hread
      obtain ⟨front, digit, rfl, -⟩ := readField_suffix hleft
      exact ⟨fields.set field value, left, hrest, (List.suffix_cons digit left).trans (List.suffix_append front _)⟩

/-- A format that ends with a number is read of texts that end with a digit. -/
theorem readItems_last {items : List FormatItem} {field : DateField} {fields fields' : Fields} {text : List Char}
    (hread : readItems (items ++ [.field field]) fields text = some (fields', [])) :
    ∃ front digit, text = front ++ [digit] ∧ digit.isDigit = true := by
  induction items generalizing fields text with
  | nil =>
      obtain ⟨⟨value, left⟩, hleft, hrest⟩ := Option.bind_eq_some_iff.mp hread
      have hnil : left = [] := congrArg Prod.snd (Option.some.inj hrest)
      rw [hnil] at hleft
      exact readField_suffix hleft
  | cons item items ih =>
      obtain ⟨fields, left, hrest, before, hleft⟩ := readItem_suffix hread
      obtain ⟨front, digit, rfl, hdigit⟩ := ih hrest
      exact ⟨before ++ front, digit, by rw [← hleft, List.append_assoc], hdigit⟩

theorem readNaive_eq_none {format text : String} (items : List FormatItem) (field : DateField) {front : List Char} {c : Char}
    (hformat : formatItems format.toList = items ++ [.field field]) (htext : text.toList = front ++ [c])
    (hc : c.isDigit = false) : readNaive text format = none := by
  unfold readNaive
  rw [hformat, htext]
  cases hread : readItems (items ++ [.field field]) (fun _ => none) (front ++ [c]) with
  | none => rfl
  | some read =>
      obtain ⟨fields, rest⟩ := read
      have hrest : rest ≠ [] := by
        rintro rfl
        obtain ⟨front', digit, hsplit, hdigit⟩ := readItems_last hread
        cases (List.append_inj' hsplit rfl).2
        rw [hc] at hdigit
        cases hdigit
      rw [Option.bind_eq_bind, Option.bind_some]
      exact if_neg hrest

theorem unsignedToken_last (stamp : Stamp) : ∃ front, unsignedToken stamp = front ++ ['Z'] := by
  refine ⟨yearDigits stamp.year ++ '-' :: (digits 2 (dateOf stamp.day).month.toNat ++
    '-' :: (digits 2 (dateOf stamp.day).day.toNat ++ 'T' :: (digits 2 (stamp.minute / 60) ++
      ':' :: (digits 2 (stamp.minute % 60) ++ ':' :: (digits 2 stamp.secondOfMinute))))), ?_⟩
  unfold unsignedToken
  simp only [List.append_assoc, List.cons_append]

/-- A text that ends like a token and does not begin like a date is not read. -/
theorem chrono_refuses {text : String} {front : List Char} (htext : text.toList = front ++ ['Z'])
    (hdate : Calendar.readDate text.toList = none) : chrono.Refuses text where
  rfc3339 := readRfc3339Stamp_eq_none hdate
  seconds := readNaive_eq_none [.field .year, .literal '-', .field .month, .literal '-', .field .day, .literal 'T',
    .field .hour, .literal ':', .field .minute, .literal ':'] .second rfl htext (by decide)
  minutes := readNaive_eq_none [.field .year, .literal '-', .field .month, .literal '-', .field .day, .literal 'T',
    .field .hour, .literal ':'] .minute rfl htext (by decide)

theorem length_yearDigits {year : Int} (hlate : 9999 < year) : 4 < (yearDigits year).length := by
  have hlong : 4 < (Nat.toDigits 10 year.natAbs).length := by
    by_contra hshort
    have hsmall := (Nat.length_toDigits_le_iff (by decide) (by decide)).mp (Nat.not_lt.mp hshort)
    omega
  rw [yearDigits, if_neg (by omega), List.length_append]
  omega

/-- The readers of the program are as assumed. -/
theorem chrono_lawful : chrono.Lawful where
  token _ hyear hwhole := readRfc3339Stamp_token hyear hwhole
  signed stamp hyear := by
    obtain ⟨front, hlast⟩ := unsignedToken_last stamp
    have hsign : ∃ c, yearSign stamp.year = [c] ∧ c.isDigit = false := by
      rw [yearSign, if_neg (show ¬ (0 ≤ stamp.year ∧ stamp.year ≤ 9999) from hyear)]
      refine ⟨_, rfl, ?_⟩
      split <;> decide
    obtain ⟨c, hsign, hc⟩ := hsign
    have htext : (stampToken stamp).toList = c :: unsignedToken stamp := by
      rw [toList_stampToken, hsign, List.singleton_append]
    have hfront : (stampToken stamp).toList = (c :: front) ++ ['Z'] := by rw [htext, hlast, List.cons_append]
    refine chrono_refuses hfront (readDate_eq_none (.inl ?_))
    rw [htext, List.take_succ_cons, List.all_cons, hc, Bool.false_and]
  unsigned stamp hlate := by
    obtain ⟨front, hlast⟩ := unsignedToken_last stamp
    rw [token_late hlate, List.drop_one, List.tail_cons]
    have hfront : (String.ofList (unsignedToken stamp)).toList = front ++ ['Z'] := by rw [String.toList_ofList, hlast]
    refine chrono_refuses hfront (readDate_eq_none (.inr ?_))
    have hlong := length_yearDigits hlate
    have hdrop : (unsignedToken stamp).drop 4 = (yearDigits stamp.year).drop 4 ++ _ :=
      List.drop_append_of_le_length (Nat.le_of_lt hlong)
    cases hrest : (yearDigits stamp.year).drop 4 with
    | nil => exact absurd (List.drop_eq_nil_iff.mp hrest) (Nat.not_le.mpr hlong)
    | cons c rest =>
        have hdigit := isDigit_yearDigits stamp.year c (List.mem_of_mem_drop (hrest ▸ List.mem_cons_self))
        refine ⟨c, _, by rw [String.toList_ofList, hdrop, hrest, List.cons_append], ?_⟩
        rintro rfl
        exact absurd hdigit (by decide)

end Pingward
