import Pingward.HexText
import Pingward.ModelHistory
import Pingward.ModelPing

/-! Query strings: their form decoding, and the parameters of the history pages that are read from them. A parameter
given twice and a cursor that is not a number are refused. -/

namespace Pingward

/-! ### Form decoding -/

/-- The octets of a text. A percent sign with two hexadecimal digits is one octet, every other character the octets of its
encoding. -/
def percentDecode : List Char → List UInt8
  | '%' :: high :: low :: rest =>
      match HexText.digitOf 16 high, HexText.digitOf 16 low with
      | some h, some l => UInt8.ofNat (16 * h + l) :: percentDecode rest
      | _, _ => String.utf8EncodeChar '%' ++ percentDecode (high :: low :: rest)
  | c :: rest => String.utf8EncodeChar c ++ percentDecode rest
  | [] => []

/-- A plus sign is a space. -/
def decodeForm (text : List Char) : String :=
  String.ofList (fromUtf8Lossy (percentDecode (text.map fun c => if c = '+' then ' ' else c)))

/-- The name up to the first equals sign and the value behind it. -/
def formPair (piece : List Char) : String × String :=
  (decodeForm (piece.takeWhile (· ≠ '=')), decodeForm ((piece.dropWhile (· ≠ '=')).drop 1))

def formPairs (query : List Char) : List (String × String) :=
  ((query.splitOn '&').filter (· ≠ [])).map formPair

/-- The query of a link, behind the question mark. -/
def hrefQuery (href : String) : List Char := (href.toList.dropWhile (· ≠ '?')).drop 1

/-! ### Parameters -/

/-- A parameter, if it is there; `none` where it is given twice. -/
def queryText (pairs : List (String × String)) (name : String) : Option (Option String) :=
  match pairs.filter (·.1 = name) with
  | [] => some none
  | [pair] => some (some pair.2)
  | _ => none

def queryId (pairs : List (String × String)) (name : String) : Option (Option Int) := do
  match ← queryText pairs name with
  | none => some none
  | some text => (parseI64 text).map some

namespace History

def CheckPageQuery.read (pairs : List (String × String)) : Option CheckPageQuery := do
  let pb ← queryId pairs "pb"
  let pa ← queryId pairs "pa"
  let nb ← queryId pairs "nb"
  let na ← queryId pairs "na"
  let pk ← queryText pairs "pk"
  let pfrom ← queryText pairs "pfrom"
  let pto ← queryText pairs "pto"
  let ne ← queryText pairs "ne"
  let ns ← queryText pairs "ns"
  let nfrom ← queryText pairs "nfrom"
  let nto ← queryText pairs "nto"
  some ⟨pb, pa, nb, na, pk, pfrom, pto, ne, ns, nfrom, nto⟩

def AdminAuditQuery.read (pairs : List (String × String)) : Option AdminAuditQuery := do
  let ab ← queryId pairs "ab"
  let aa ← queryId pairs "aa"
  let aactor ← queryText pairs "aactor"
  let aaction ← queryText pairs "aaction"
  let afrom ← queryText pairs "afrom"
  let ato ← queryText pairs "ato"
  some ⟨ab, aa, aactor, aaction, afrom, ato⟩

end History

end Pingward
