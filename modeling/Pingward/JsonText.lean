import Mathlib.Data.List.Sort

/-! Objects of strings as JSON text, printed the way a map with sorted keys is printed: no spaces, the short
escapes where there is one and `\u00XX` for the other control characters. What is printed is read back. -/

namespace JsonText

/-! ### Strings -/

/-- The escapes of one letter, with the characters they stand for. -/
def shortEscapes : List (Char × Char) :=
  [('"', '"'), ('\\', '\\'), (Char.ofNat 8, 'b'), (Char.ofNat 9, 't'), (Char.ofNat 10, 'n'), (Char.ofNat 12, 'f'),
    (Char.ofNat 13, 'r')]

def hexDigits : List Char :=
  ['0', '1', '2', '3', '4', '5', '6', '7', '8', '9', 'a', 'b', 'c', 'd', 'e', 'f']

/-- A character inside a string. -/
def escape (c : Char) : List Char :=
  match shortEscapes.lookup c with
  | some letter => ['\\', letter]
  | none =>
      if c.toNat < 32 then ['\\', 'u', '0', '0', hexDigits.getD (c.toNat / 16) '0', hexDigits.getD (c.toNat % 16) '0']
      else [c]

def printString (s : String) : List Char := '"' :: (s.toList.flatMap escape ++ ['"'])

/-- The rest of a string up to its closing quote, and what follows it. -/
def readChars : List Char → Option (List Char × List Char)
  | [] => none
  | '"' :: rest => some ([], rest)
  | '\\' :: 'u' :: '0' :: '0' :: high :: low :: rest =>
      (readChars rest).map fun (chars, rest) =>
        (Char.ofNat (16 * hexDigits.idxOf high + hexDigits.idxOf low) :: chars, rest)
  | '\\' :: letter :: rest =>
      match shortEscapes.find? fun pair => pair.2 = letter with
      | some (c, _) => (readChars rest).map fun (chars, rest) => (c :: chars, rest)
      | none => none
  | c :: rest => (readChars rest).map fun (chars, rest) => (c :: chars, rest)

def readString : List Char → Option (String × List Char)
  | '"' :: rest => (readChars rest).map fun (chars, rest) => (String.ofList chars, rest)
  | _ => none

theorem readChars_short {c letter : Char} (hshort : shortEscapes.lookup c = some letter) (rest : List Char) :
    readChars ('\\' :: letter :: rest) = (readChars rest).map fun (chars, rest) => (c :: chars, rest) := by
  obtain ⟨before, after, hsplit, -⟩ := List.lookup_eq_some_iff.mp hshort
  have hmem : (c, letter) ∈ shortEscapes := by simp [hsplit]
  simp only [shortEscapes, List.mem_cons, Prod.mk.injEq, List.not_mem_nil, or_false] at hmem
  rcases hmem with ⟨rfl, rfl⟩ | ⟨rfl, rfl⟩ | ⟨rfl, rfl⟩ | ⟨rfl, rfl⟩ | ⟨rfl, rfl⟩ | ⟨rfl, rfl⟩ | ⟨rfl, rfl⟩ <;>
    simp [readChars, shortEscapes]

theorem hex_control : ∀ n < 32,
    16 * hexDigits.idxOf (hexDigits.getD (n / 16) '0') + hexDigits.idxOf (hexDigits.getD (n % 16) '0') = n := by
  decide

theorem readChars_plain {c : Char} (hplain : shortEscapes.lookup c = none) (rest : List Char) :
    readChars (c :: rest) = (readChars rest).map fun (chars, rest) => (c :: chars, rest) := by
  have hquote : c ≠ '"' := by
    rintro rfl
    exact absurd hplain (by decide)
  have hslash : c ≠ '\\' := by
    rintro rfl
    exact absurd hplain (by decide)
  simp [readChars, hslash]

/-- One character is read back. -/
theorem readChars_escape (c : Char) (rest : List Char) :
    readChars (escape c ++ rest) = (readChars rest).map fun (chars, rest) => (c :: chars, rest) := by
  unfold escape
  cases hshort : shortEscapes.lookup c with
  | some letter => exact readChars_short hshort rest
  | none =>
      dsimp only
      split
      · rename_i hcontrol
        simp only [List.cons_append, List.nil_append, readChars, hex_control c.toNat hcontrol, Char.ofNat_toNat]
      · exact readChars_plain hshort rest

theorem readChars_flatMap (chars rest : List Char) :
    readChars (chars.flatMap escape ++ '"' :: rest) = some (chars, rest) := by
  induction chars with
  | nil => rfl
  | cons c chars ih => rw [List.flatMap_cons, List.append_assoc, readChars_escape, ih, Option.map_some]

theorem readString_printString (s : String) (rest : List Char) :
    readString (printString s ++ rest) = some (s, rest) := by
  have hchars := readChars_flatMap s.toList rest
  simp only [printString, List.cons_append, List.append_assoc, List.nil_append, readString, hchars, Option.map_some,
    String.ofList_toList]

/-! ### Objects -/

/-- The members of an object, and its closing brace. -/
def printMembers : List (String × String) → List Char
  | [] => ['}']
  | [(key, value)] => printString key ++ ':' :: (printString value ++ ['}'])
  | (key, value) :: members => printString key ++ ':' :: (printString value ++ ',' :: printMembers members)

/-- The members of an object up to its closing brace; the fuel bounds their number. -/
def readMembers : Nat → List Char → Option (List (String × String))
  | 0, _ => none
  | fuel + 1, text =>
      match readString text with
      | none => none
      | some (key, ':' :: text) =>
          match readString text with
          | some (value, ['}']) => some [(key, value)]
          | some (value, ',' :: text) => (readMembers fuel text).map fun members => (key, value) :: members
          | _ => none
      | some _ => none

/-- An object of strings, its keys in order. -/
def printObject (fields : List (String × String)) : String :=
  String.ofList ('{' :: printMembers (fields.insertionSort fun a b => a.1 ≤ b.1))

def readObject (text : String) : Option (List (String × String)) :=
  match text.toList with
  | ['{', '}'] => some []
  | '{' :: members => readMembers members.length members
  | _ => none

theorem readMembers_printMembers {members : List (String × String)} (hmembers : members ≠ []) {fuel : Nat}
    (hfuel : members.length ≤ fuel) : readMembers fuel (printMembers members) = some members := by
  induction members generalizing fuel with
  | nil => exact absurd rfl hmembers
  | cons member members ih =>
      obtain ⟨key, value⟩ := member
      cases fuel with
      | zero => simp at hfuel
      | succ fuel =>
          cases members with
          | nil => simp only [printMembers, readMembers, readString_printString]
          | cons next members =>
              have hrest := ih (List.cons_ne_nil next members) (Nat.le_of_succ_le_succ hfuel)
              simp only [printMembers, readMembers, readString_printString, hrest, Option.map_some]

theorem length_le_printMembers (members : List (String × String)) : members.length ≤ (printMembers members).length := by
  induction members with
  | nil => exact Nat.zero_le _
  | cons member members ih =>
      obtain ⟨key, value⟩ := member
      cases members with
      | nil =>
          simp only [printMembers, List.length_append, List.length_cons]
          omega
      | cons next members =>
          simp only [printMembers, List.length_append, List.length_cons] at ih ⊢
          omega

/-- Members start with a quote. -/
theorem printMembers_cons (member : String × String) (members : List (String × String)) :
    ∃ rest, printMembers (member :: members) = '"' :: rest := by
  cases members with
  | nil => exact ⟨_, rfl⟩
  | cons next members => exact ⟨_, rfl⟩

/-- What is printed is read back, with the keys in order. -/
theorem readObject_printObject (fields : List (String × String)) :
    readObject (printObject fields) = some (fields.insertionSort fun a b => a.1 ≤ b.1) := by
  unfold readObject printObject
  rw [String.toList_ofList]
  cases hsorted : fields.insertionSort fun a b => a.1 ≤ b.1 with
  | nil => rfl
  | cons member members =>
      have hread := readMembers_printMembers (List.cons_ne_nil member members)
        (length_le_printMembers (member :: members))
      obtain ⟨rest, hrest⟩ := printMembers_cons member members
      rw [hrest] at hread ⊢
      exact hread

/-! ### Lookups -/

theorem lookup_eq_some_of_nodup {fields : List (String × String)} (hkeys : (fields.map Prod.fst).Nodup)
    {key value : String} : fields.lookup key = some value ↔ (key, value) ∈ fields := by
  induction fields with
  | nil => simp
  | cons field fields ih =>
      obtain ⟨name, content⟩ := field
      rw [List.map_cons, List.nodup_cons] at hkeys
      rw [List.lookup_cons, List.mem_cons, Prod.mk.injEq]
      by_cases hkey : key = name
      · subst hkey
        have hother : (key, value) ∉ fields := fun hmem => hkeys.1 (List.mem_map.mpr ⟨_, hmem, rfl⟩)
        simp [hother, eq_comm]
      · have hne : (key == name) = false := beq_false_of_ne hkey
        simp only [hne, hkey, false_and, false_or]
        exact ih hkeys.2

/-- The order of the fields does not matter. -/
theorem lookup_insertionSort {fields : List (String × String)} (hkeys : (fields.map Prod.fst).Nodup) (key : String) :
    (fields.insertionSort fun a b => a.1 ≤ b.1).lookup key = fields.lookup key := by
  have hperm := List.perm_insertionSort (fun a b : String × String => a.1 ≤ b.1) fields
  have hsorted : ((fields.insertionSort fun a b => a.1 ≤ b.1).map Prod.fst).Nodup :=
    (hperm.map Prod.fst).nodup_iff.mpr hkeys
  ext value
  rw [lookup_eq_some_of_nodup hsorted, lookup_eq_some_of_nodup hkeys, hperm.mem_iff]

/-- The value an object holds under a key. -/
def readFields (text : String) : Option (String → Option String) :=
  (readObject text).map fun fields key => fields.lookup key

/-- **Round trip.** An object of strings is read back as the map it was printed from. -/
theorem readFields_printObject (fields : List (String × String)) (hkeys : (fields.map Prod.fst).Nodup) :
    readFields (printObject fields) = some fun key => fields.lookup key := by
  rw [readFields, readObject_printObject, Option.map_some]
  exact congrArg some (funext (lookup_insertionSort hkeys))

example : printObject [("topic", "a\"b"), ("base_url", "x")] = "\x7b\"base_url\":\"x\",\"topic\":\"a\\\"b\"\x7d" := by
  decide +kernel

end JsonText
