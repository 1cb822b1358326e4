import Pingward.LossyText
import Pingward.ModelLinks

/-! What form decoding makes of a link whose parameters stand in it as they are: the parameters up to the first that holds
a separator, each decoded. A text is changed by the decoding where it holds a plus sign or an escape. -/

namespace Pingward

/-! ### Decoding a text -/

/-- A percent sign with two hexadecimal digits. -/
def hasEscape : List Char → Bool
  | '%' :: high :: low :: rest =>
      (HexText.digitOf 16 high).isSome && (HexText.digitOf 16 low).isSome || hasEscape (high :: low :: rest)
  | _ :: rest => hasEscape rest
  | [] => false

theorem percentDecode_of_no_escape {text : List Char} (hplain : hasEscape text = false) :
    percentDecode text = text.flatMap String.utf8EncodeChar := by
  fun_induction hasEscape text with
  | case1 high low rest ih =>
      rw [Bool.or_eq_false_iff] at hplain
      rw [percentDecode, ih hplain.2]
      split
      · rename_i h l hhigh hlow
        rw [hhigh, hlow] at hplain
        cases hplain.1
      · rfl
  | case2 c rest hnot ih =>
      rw [percentDecode, ih hplain, List.flatMap_cons]
      exact hnot
  | case3 => rfl

/-- No octet of a character beyond ASCII is below 128. -/
theorem octets_beyond {c : Char} (hbeyond : ¬ c.toNat < 128) : ∀ b ∈ String.utf8EncodeChar c, ¬ b.toNat < 128 := by
  have hoctet (n : Nat) (hn : n < 256) (hle : 128 ≤ n) : ¬ (UInt8.ofNat n).toNat < 128 := by
    rw [UInt8.toNat_ofNat', Nat.mod_eq_of_lt hn]
    exact Nat.not_lt.mpr hle
  have hval : c.val.toNat = c.toNat := rfl
  unfold String.utf8EncodeChar
  dsimp only
  simp only [hval]
  rw [if_neg (by omega)]
  split
  · simp only [List.mem_cons, List.not_mem_nil, or_false, forall_eq_or_imp, forall_eq]
    exact ⟨hoctet _ (by omega) (by omega), hoctet _ (by omega) (by omega)⟩
  · split
    · simp only [List.mem_cons, List.not_mem_nil, or_false, forall_eq_or_imp, forall_eq]
      exact ⟨hoctet _ (by omega) (by omega), hoctet _ (by omega) (by omega), hoctet _ (by omega) (by omega)⟩
    · simp only [List.mem_cons, List.not_mem_nil, or_false, forall_eq_or_imp, forall_eq]
      exact ⟨hoctet _ (by omega) (by omega), hoctet _ (by omega) (by omega), hoctet _ (by omega) (by omega),
        hoctet _ (by omega) (by omega)⟩

def asciiOctets (bytes : List UInt8) : Nat := bytes.countP fun b => b.toNat < 128

theorem asciiOctets_encode (c : Char) (bytes : List UInt8) :
    asciiOctets (String.utf8EncodeChar c ++ bytes) = asciiCount [c] + asciiOctets bytes := by
  unfold asciiOctets asciiCount
  rw [List.countP_append]
  congr 1
  by_cases hascii : c.toNat < 128
  · have hbyte : (UInt8.ofNat c.toNat).toNat = c.toNat := by
      rw [UInt8.toNat_ofNat']
      omega
    rw [HexText.utf8EncodeChar_of_ascii hascii, List.countP_singleton, List.countP_singleton, hbyte]
  · rw [List.countP_eq_zero.mpr (by simpa using octets_beyond hascii), List.countP_singleton, if_neg (by simpa using hascii)]

theorem asciiCount_cons (c : Char) (text : List Char) : asciiCount (c :: text) = asciiCount [c] + asciiCount text := by
  rw [← List.singleton_append]
  exact List.countP_append

theorem asciiCount_hexDigit {c : Char} {digit : Nat} (hdigit : HexText.digitOf 16 c = some digit) : asciiCount [c] = 1 := by
  have hascii := HexText.digitOf_ascii (by rw [hdigit]; rfl)
  rw [asciiCount, List.countP_singleton, if_pos (by simpa using hascii)]

theorem asciiOctets_cons_le (b : UInt8) (bytes : List UInt8) : asciiOctets (b :: bytes) ≤ asciiOctets bytes + 1 := by
  unfold asciiOctets
  rw [List.countP_cons]
  split <;> omega

/-- An escape takes three ASCII characters and leaves at most one. -/
theorem asciiOctets_percentDecode (text : List Char) :
    asciiOctets (percentDecode text) + (if hasEscape text then 1 else 0) ≤ asciiCount text := by
  have hpercent : asciiCount ['%'] = 1 := by decide
  fun_induction percentDecode text with
  | case1 high low rest h l hhigh hlow ih =>
      have htext : asciiCount ('%' :: high :: low :: rest) = 3 + asciiCount rest := by
        rw [asciiCount_cons '%' (high :: low :: rest), asciiCount_cons high (low :: rest), asciiCount_cons low rest,
          hpercent, asciiCount_hexDigit hhigh, asciiCount_hexDigit hlow]
        omega
      have hone := asciiOctets_cons_le (UInt8.ofNat (16 * h + l)) (percentDecode rest)
      split <;> omega
  | case2 high low rest hnot ih =>
      have hsame : hasEscape ('%' :: high :: low :: rest) = hasEscape (high :: low :: rest) := by
        rw [hasEscape]
        cases hhigh : HexText.digitOf 16 high with
        | none => rfl
        | some h =>
            cases hlow : HexText.digitOf 16 low with
            | none => rfl
            | some l => exact absurd hlow (hnot h l hhigh)
      rw [asciiOctets_encode, hsame, asciiCount_cons '%' (high :: low :: rest)]
      omega
  | case3 c rest hnot ih =>
      rw [asciiOctets_encode, hasEscape, asciiCount_cons c rest]
      · omega
      · exact hnot
  | case4 => exact le_refl _

/-- The plus signs of a text as spaces. -/
def spaced (text : List Char) : List Char := text.map fun c => if c = '+' then ' ' else c

theorem toList_decodeForm (text : List Char) : (decodeForm text).toList = fromUtf8Lossy (percentDecode (spaced text)) :=
  String.toList_ofList

theorem spaced_eq_self {text : List Char} (hplus : '+' ∉ text) : spaced text = text := by
  have hkeep : ∀ c ∈ text, (if c = '+' then ' ' else c) = c := by
    intro c hc
    rw [if_neg]
    rintro rfl
    exact hplus hc
  rw [spaced, List.map_congr_left hkeep, List.map_id']

theorem asciiCount_spaced (text : List Char) : asciiCount (spaced text) = asciiCount text := by
  rw [asciiCount, spaced, List.countP_map]
  refine List.countP_congr fun c _ => ?_
  rw [Function.comp_apply]
  split
  · rename_i hplus
    rw [hplus]
    decide
  · rfl

theorem digitOf_spaced (c : Char) : HexText.digitOf 16 (if c = '+' then ' ' else c) = HexText.digitOf 16 c := by
  split
  · rename_i hplus
    rw [hplus]
    rfl
  · rfl

theorem hasEscape_cons_of_ne {c : Char} (hc : c ≠ '%') (rest : List Char) : hasEscape (c :: rest) = hasEscape rest := by
  rw [hasEscape]
  intro high low tail heq
  exact absurd heq hc

theorem hasEscape_spaced (text : List Char) : hasEscape (spaced text) = hasEscape text := by
  fun_induction hasEscape text with
  | case1 high low rest ih =>
      have hpercent : spaced ('%' :: high :: low :: rest) = '%' :: (if high = '+' then ' ' else high) ::
          (if low = '+' then ' ' else low) :: spaced rest := rfl
      rw [hpercent, hasEscape, digitOf_spaced, digitOf_spaced]
      exact congrArg _ ih
  | case2 c rest hnot ih =>
      have hspaced : spaced (c :: rest) = (if c = '+' then ' ' else c) :: spaced rest := rfl
      by_cases hpercent : c = '%'
      · cases rest with
        | nil =>
            rw [hpercent]
            rfl
        | cons x tail =>
            cases tail with
            | nil =>
                have hshort (a b : Char) : hasEscape [a, b] = false := by simp [hasEscape]
                have hone (a : Char) : hasEscape [a] = false := by simp [hasEscape]
                exact (hshort _ _).trans (hone x).symm
            | cons y tail => exact absurd rfl (hnot x y tail hpercent)
      · have hne : (if c = '+' then ' ' else c) ≠ '%' := by
          split
          · decide
          · exact hpercent
        rw [hspaced, hasEscape_cons_of_ne hne, ih]
  | case3 => rfl

/-- What neither a plus sign nor an escape is in is decoded to itself. -/
theorem decodeForm_plain {text : List Char} (hplus : '+' ∉ text) (hescape : hasEscape text = false) :
    (decodeForm text).toList = text := by
  rw [toList_decodeForm, spaced_eq_self hplus, percentDecode_of_no_escape hescape, fromUtf8Lossy_flatMap]

/-- Without an escape a plus sign is lost. -/
theorem plus_notMem_decodeForm {text : List Char} (hescape : hasEscape text = false) : '+' ∉ (decodeForm text).toList := by
  rw [toList_decodeForm, percentDecode_of_no_escape (by rw [hasEscape_spaced, hescape]), fromUtf8Lossy_flatMap, spaced,
    List.mem_map]
  rintro ⟨c, -, hc⟩
  split at hc
  · exact absurd hc (by decide)
  · rename_i hplus
    exact hplus hc

/-- An escape takes ASCII characters away. -/
theorem asciiCount_decodeForm (text : List Char) :
    asciiCount (decodeForm text).toList + (if hasEscape text then 1 else 0) ≤ asciiCount text := by
  have hoctets := asciiOctets_percentDecode (spaced text)
  have hchars := asciiCount_fromUtf8Lossy (percentDecode (spaced text))
  rw [hasEscape_spaced, asciiCount_spaced] at hoctets
  rw [toList_decodeForm]
  unfold asciiOctets at hoctets
  omega

/-! ### Reading a text again -/

theorem trim_sublist (text : String) : (trim text).toList.Sublist text.toList := by
  rw [trim, String.toList_ofList]
  have hback : ((text.toList.dropWhile isWhiteSpace).reverse.dropWhile isWhiteSpace).reverse.Sublist
      (text.toList.dropWhile isWhiteSpace).reverse.reverse := (List.dropWhile_sublist _).reverse
  rw [List.reverse_reverse] at hback
  exact hback.trans (List.dropWhile_sublist _)

theorem presentText_eq_some {v : Option String} {a : String} (hpresent : presentText v = some a) :
    ∃ text, v = some text ∧ trim text = a ∧ a ≠ "" := by
  obtain ⟨hmap, hne⟩ := Option.filter_eq_some_iff.mp hpresent
  obtain ⟨text, htext, htrim⟩ := Option.map_eq_some_iff.mp hmap
  exact ⟨text, htext, htrim, by simpa using hne⟩

theorem presentText_of_trimmed {a : String} (htrim : trim a = a) (hne : a ≠ "") : presentText (some a) = some a := by
  rw [presentText, Option.map_some, htrim, Option.filter_some, if_pos (by simpa using hne)]

/-- A text as a parameter, left out where it is empty. -/
def sent (decode : String → String) (value : String) : Option String := if value = "" then none else some (decode value)

/-- The decoding of a parameter that stands in a link as it is. -/
def fromLink (value : String) : String := decodeForm value.toList

/-- No separator, no plus sign and no escape. -/
structure Plain (text : String) : Prop where
  ampersand : '&' ∉ text.toList
  plus : '+' ∉ text.toList
  escape : hasEscape text.toList = false

instance (text : String) : Decidable (Plain text) :=
  decidable_of_iff ('&' ∉ text.toList ∧ '+' ∉ text.toList ∧ hasEscape text.toList = false)
    ⟨fun h => ⟨h.1, h.2.1, h.2.2⟩, fun h => ⟨h.ampersand, h.plus, h.escape⟩⟩

theorem fromLink_plain {text : String} (hplus : '+' ∉ text.toList) (hescape : hasEscape text.toList = false) :
    fromLink text = text := by
  rw [← String.toList_inj, fromLink, decodeForm_plain hplus hescape]

/-- A text comes back from a link only if it holds neither a plus sign nor an escape. -/
theorem plain_of_presentText {a : String} (hagain : presentText (some (fromLink a)) = some a) :
    '+' ∉ a.toList ∧ hasEscape a.toList = false := by
  obtain ⟨text, htext, htrim, -⟩ := presentText_eq_some hagain
  cases htext
  have hsublist := trim_sublist (fromLink a)
  rw [htrim] at hsublist
  have hescape : hasEscape a.toList = false := by
    by_contra hhas
    have hcount := asciiCount_decodeForm a.toList
    rw [if_pos (Bool.eq_true_of_not_eq_false hhas)] at hcount
    have hless : asciiCount a.toList ≤ asciiCount (decodeForm a.toList).toList := hsublist.countP_le
    omega
  exact ⟨fun hplus => plus_notMem_decodeForm hescape (hsublist.subset hplus), hescape⟩

/-- A text does not come back from a proper prefix of it. -/
theorem presentText_of_prefix {a : String} {front rest : List Char} {c : Char} (hc : c.toNat < 128)
    (hsplit : a.toList = front ++ c :: rest) : presentText (some (decodeForm front)) ≠ some a := by
  intro hagain
  obtain ⟨text, htext, htrim, -⟩ := presentText_eq_some hagain
  cases htext
  have hsublist := trim_sublist (decodeForm front)
  rw [htrim] at hsublist
  have hless : asciiCount a.toList ≤ asciiCount (decodeForm front).toList := hsublist.countP_le
  have hcount := asciiCount_decodeForm front
  have hone : asciiCount [c] = 1 := by
    rw [asciiCount, List.countP_singleton, if_pos (by simpa using hc)]
  have hsum : asciiCount a.toList = asciiCount front + (asciiCount [c] + asciiCount rest) := by
    rw [hsplit, ← asciiCount_cons]
    exact List.countP_append
  omega

/-! ### The parameters of a link -/

/-- A parameter as it stands in a link. -/
def fieldText (field : String × String) : List Char := field.1.toList ++ '=' :: field.2.toList

theorem toList_hrefFields (sep : String) (field : String × String) (fields : List (String × String)) :
    (hrefFields sep (field :: fields)).toList = sep.toList ++ (fieldText field ++ (hrefFields "&" fields).toList) := by
  simp only [hrefFields, fieldText, String.toList_append, String.reduceToList, List.append_assoc, List.cons_append,
    List.nil_append]

theorem hrefQuery_fields {path : String} (hpath : '?' ∉ path.toList) (field : String × String)
    (fields : List (String × String)) : hrefQuery (path ++ hrefFields "?" (field :: fields)) =
      fieldText field ++ (hrefFields "&" fields).toList := by
  have hdrop : path.toList.dropWhile (· ≠ '?') = [] := by
    rw [List.dropWhile_eq_nil_iff]
    intro c hc
    apply decide_eq_true
    rintro rfl
    exact hpath hc
  rw [hrefQuery, String.toList_append, toList_hrefFields, List.dropWhile_append, hdrop]
  rfl

/-- Parameters without a separator. -/
def Separable (field : String × String) : Prop := '&' ∉ fieldText field

theorem fieldText_ne_nil (field : String × String) : fieldText field ≠ [] := by
  rw [fieldText]
  exact List.append_ne_nil_of_right_ne_nil _ (List.cons_ne_nil _ _)

theorem formPairs_append {piece : List Char} (hamp : '&' ∉ piece) (hne : piece ≠ []) (rest : List Char) :
    formPairs (piece ++ '&' :: rest) = formPair piece :: formPairs rest := by
  rw [formPairs, List.splitOn_append_cons_self_of_not_mem hamp, List.filter_cons_of_pos (by simpa using hne), List.map_cons]
  rfl

theorem formPairs_last {piece : List Char} (hamp : '&' ∉ piece) (hne : piece ≠ []) : formPairs piece = [formPair piece] := by
  rw [formPairs, List.splitOn_eq_singleton hamp, List.filter_cons_of_pos (by simpa using hne)]
  rfl

/-- A parameter without a separator, and the others behind it. -/
theorem formPairs_cons {field : String × String} (hfield : Separable field) (next : String × String)
    (fields : List (String × String)) :
    formPairs (fieldText field ++ (hrefFields "&" (next :: fields)).toList) =
      formPair (fieldText field) :: formPairs (fieldText next ++ (hrefFields "&" fields).toList) := by
  have hsep : "&".toList = ['&'] := rfl
  rw [toList_hrefFields, hsep, List.singleton_append, formPairs_append hfield (fieldText_ne_nil field)]

theorem formPairs_fields (field : String × String) (fields : List (String × String))
    (hfields : ∀ other ∈ field :: fields, Separable other) :
    formPairs (fieldText field ++ (hrefFields "&" fields).toList) =
      (field :: fields).map fun other => formPair (fieldText other) := by
  induction fields generalizing field with
  | nil =>
      have hnone : (hrefFields "&" []).toList = [] := rfl
      rw [hnone, List.append_nil, formPairs_last (hfields field List.mem_cons_self) (fieldText_ne_nil field)]
      rfl
  | cons next fields ih =>
      rw [formPairs_cons (hfields field List.mem_cons_self), ih next fun other hother =>
        hfields other (List.mem_cons_of_mem _ hother)]
      rfl

/-- A parameter is read up to its first separator. -/
theorem formPairs_separator {field : String × String} {front rest : List Char} (hname : '&' ∉ field.1.toList)
    (hfront : '&' ∉ front) (hsplit : field.2.toList = front ++ '&' :: rest) (fields : List (String × String)) :
    ∃ others, formPairs (fieldText field ++ (hrefFields "&" fields).toList) =
      formPair (field.1.toList ++ '=' :: front) :: others := by
  have htext : fieldText field ++ (hrefFields "&" fields).toList =
      (field.1.toList ++ '=' :: front) ++ '&' :: (rest ++ (hrefFields "&" fields).toList) := by
    rw [fieldText, hsplit]
    simp only [List.append_assoc, List.cons_append]
  have hne : field.1.toList ++ '=' :: front ≠ [] := List.append_ne_nil_of_right_ne_nil _ (List.cons_ne_nil _ _)
  have hamp : '&' ∉ field.1.toList ++ '=' :: front := by
    rw [List.mem_append, List.mem_cons]
    exact fun hmem => hmem.elim hname fun hmem => hmem.elim (by decide) hfront
  rw [htext, formPairs_append hamp hne]
  exact ⟨_, rfl⟩

/-- Parameters without a separator, and one that holds one. -/
theorem formPairs_separator_after {first : String × String} {before : List (String × String)}
    (hbefore : ∀ other ∈ first :: before, Separable other) (field : String × String) {front rest : List Char}
    (hname : '&' ∉ field.1.toList) (hfront : '&' ∉ front) (hsplit : field.2.toList = front ++ '&' :: rest)
    (fields : List (String × String)) :
    ∃ others, formPairs (fieldText first ++ (hrefFields "&" (before ++ field :: fields)).toList) =
      (first :: before).map (fun other => formPair (fieldText other)) ++
        formPair (field.1.toList ++ '=' :: front) :: others := by
  induction before generalizing first with
  | nil =>
      obtain ⟨others, hpairs⟩ := formPairs_separator hname hfront hsplit fields
      exact ⟨others, by
        rw [List.nil_append, formPairs_cons (hbefore first List.mem_cons_self), hpairs]
        rfl⟩
  | cons next before ih =>
      have hnext : ∀ other ∈ next :: before, Separable other := fun other hother =>
        hbefore other (List.mem_cons_of_mem _ hother)
      obtain ⟨others, hpairs⟩ := ih hnext
      exact ⟨others, by
        rw [List.cons_append, formPairs_cons (hbefore first List.mem_cons_self), hpairs]
        rfl⟩

/-- A name that is decoded to itself and holds no separator. -/
structure PlainName (name : String) : Prop where
  plain : Plain name
  equals : '=' ∉ name.toList

instance (name : String) : Decidable (PlainName name) :=
  decidable_of_iff (Plain name ∧ '=' ∉ name.toList) ⟨fun h => ⟨h.1, h.2⟩, fun h => ⟨h.plain, h.equals⟩⟩

theorem formPair_named {name : String} (hname : PlainName name) (value : List Char) :
    formPair (name.toList ++ '=' :: value) = (name, decodeForm value) := by
  have hkeep : ∀ c ∈ name.toList, decide (c ≠ '=') = true := by
    intro c hc
    apply decide_eq_true
    rintro rfl
    exact hname.equals hc
  have htake : (name.toList ++ '=' :: value).takeWhile (· ≠ '=') = name.toList := by
    rw [List.takeWhile_append_of_pos hkeep]
    exact List.append_nil _
  have hdrop : (name.toList ++ '=' :: value).dropWhile (· ≠ '=') = '=' :: value := by
    rw [List.dropWhile_append_of_pos hkeep]
    rfl
  rw [formPair, htake, hdrop]
  exact congrArg (·, decodeForm value) (fromLink_plain hname.plain.plus hname.plain.escape)

/-! ### Looking a parameter up -/

section Lookup

variable {fields : List (String × String)} {decode : String → String}

/-- The parameters that are sent. -/
def sentPairs (decode : String → String) (fields : List (String × String)) : List (String × String) :=
  (fields.filter fun field => field.2 ≠ "").map fun field => (field.1, decode field.2)

theorem name_of_mem_sentPairs {pair : String × String} (hpair : pair ∈ sentPairs decode fields) :
    pair.1 ∈ fields.map Prod.fst := by
  obtain ⟨field, hfield, rfl⟩ := List.mem_map.mp hpair
  exact List.mem_map.mpr ⟨field, (List.mem_filter.mp hfield).1, rfl⟩

theorem filter_absent {pairs : List (String × String)} {name : String} (habsent : name ∉ pairs.map Prod.fst) :
    pairs.filter (fun pair => pair.1 = name) = [] := by
  rw [List.filter_eq_nil_iff]
  intro pair hpair hname
  exact habsent (of_decide_eq_true hname ▸ List.mem_map_of_mem hpair)

theorem queryText_absent {pairs : List (String × String)} {name : String} (habsent : name ∉ pairs.map Prod.fst) :
    queryText pairs name = some none := by
  rw [queryText, filter_absent habsent]

/-- The parameters of distinct names are found again. -/
theorem queryText_sentPairs (hnodup : (fields.map Prod.fst).Nodup) (name : String) :
    queryText (sentPairs decode fields) name = some (sent decode ((fields.lookup name).getD "")) := by
  induction fields with
  | nil => rfl
  | cons field fields ih =>
      rw [List.map_cons, List.nodup_cons] at hnodup
      have hsent : sentPairs decode (field :: fields) =
          if field.2 = "" then sentPairs decode fields else (field.1, decode field.2) :: sentPairs decode fields := by
        unfold sentPairs
        split
        · rename_i hempty
          rw [List.filter_cons_of_neg (by simpa using hempty)]
        · rename_i hfilled
          rw [List.filter_cons_of_pos (by simpa using hfilled), List.map_cons]
      rw [hsent, List.lookup_cons]
      by_cases hname : name = field.1
      · have habsent : name ∉ (sentPairs decode fields).map Prod.fst := by
          intro hmem
          obtain ⟨pair, hpair, hsame⟩ := List.mem_map.mp hmem
          have hfirst := name_of_mem_sentPairs hpair
          rw [hsame, hname] at hfirst
          exact hnodup.1 hfirst
        rw [beq_iff_eq.mpr hname, sent]
        dsimp only [Option.getD_some]
        split
        · exact queryText_absent habsent
        · rw [queryText, List.filter_cons_of_pos (by simpa using hname.symm), filter_absent habsent]
      · rw [beq_eq_false_iff_ne.mpr hname, ← ih hnodup.2]
        split
        · rfl
        · rw [queryText, List.filter_cons_of_neg (by simpa using Ne.symm hname)]
          rfl

theorem queryText_append_left {pairs others : List (String × String)} {name : String}
    (habsent : name ∉ others.map Prod.fst) : queryText (pairs ++ others) name = queryText pairs name := by
  rw [queryText, List.filter_append, filter_absent habsent, List.append_nil]
  rfl

theorem queryText_append_right {pairs others : List (String × String)} {name : String}
    (habsent : name ∉ pairs.map Prod.fst) : queryText (pairs ++ others) name = queryText others name := by
  rw [queryText, List.filter_append, filter_absent habsent, List.nil_append]
  rfl

end Lookup

end Pingward
