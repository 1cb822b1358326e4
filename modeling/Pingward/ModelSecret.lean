import Pingward.HexText

/-! Signed values (`src/secret.rs`): the session cookie, the flash cookie and the CSRF token. HMAC-SHA-256 is a
parameter: a function of the key and the message. -/

namespace Pingward

def sessionDomain : List UInt8 := HexText.utf8 "session:"
def csrfDomain : List UInt8 := HexText.utf8 "csrf:"
def flashDomain : List UInt8 := HexText.utf8 "flash:"

def sigSeparator : Char := '.'

/-- `str::rsplit_once`. -/
def rsplitOnce (separator : Char) (s : String) : Option (String × String) :=
  if separator ∈ s.toList then
    some (String.ofList ((s.toList.reverse.dropWhile (· ≠ separator)).drop 1).reverse,
      String.ofList (s.toList.reverse.takeWhile (· ≠ separator)).reverse)
  else none

def hexEncode (bytes : List UInt8) : String := String.ofList (HexText.encode bytes)

/-- Octet by octet of the text. -/
def hexDecode (s : String) : Option (List UInt8) := HexText.decode (HexText.octetChars s)

section Mac

variable (hmac : List UInt8 → List UInt8 → List UInt8)

def mac (secret domain : List UInt8) (message : String) : List UInt8 := hmac secret (domain ++ HexText.utf8 message)

def sign (secret domain : List UInt8) (value : String) : String :=
  value ++ String.ofList [sigSeparator] ++ hexEncode (mac hmac secret domain value)

def verify (secret domain : List UInt8) (signed : String) : Option String :=
  match rsplitOnce sigSeparator signed with
  | none => none
  | some (value, sig) =>
      match hexDecode sig with
      | none => none
      | some sig => if mac hmac secret domain value = sig then some value else none

def signSession (secret : List UInt8) (sessionId : String) : String := sign hmac secret sessionDomain sessionId

def verifySession (secret : List UInt8) (cookieValue : String) : Option String :=
  verify hmac secret sessionDomain cookieValue

def signFlash (secret : List UInt8) (value : String) : String := sign hmac secret flashDomain value

def verifyFlash (secret : List UInt8) (cookieValue : String) : Option String :=
  verify hmac secret flashDomain cookieValue

def deriveCsrf (secret : List UInt8) (sessionId : String) : String := hexEncode (mac hmac secret csrfDomain sessionId)

def verifyCsrf (secret : List UInt8) (sessionId submitted : String) : Bool :=
  match hexDecode submitted with
  | none => false
  | some bytes => mac hmac secret csrfDomain sessionId = bytes

/-- The jar gives the value of a cookie by its name. -/
def sessionIdFromJar (jar : String → Option String) (secret : List UInt8) (cookieName : String) : Option String :=
  match jar cookieName with
  | none => none
  | some value => verifySession hmac secret value

end Mac

end Pingward
