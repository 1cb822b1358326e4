import Pingward.AddressText
import Pingward.ModelText

/-! Which peers are trusted proxies (`src/auth.rs`), and the address a login attempt is counted under
(`src/ratelimit.rs`). Indexing outside a slice panics; a result of `none` is that panic. -/

open Address

namespace Pingward

/-! ### Trusted proxies -/

/-- `str::parse::<u8>`: a plus sign is allowed. -/
def parseU8 (s : String) : Option UInt8 :=
  let digits := match s.toList with
    | '+' :: digits => digits
    | digits => digits
  if digits ≠ [] ∧ digits.all Char.isDigit = true ∧ Nat.ofDigitChars 10 digits 0 < 256 then
    some (UInt8.ofNat (Nat.ofDigitChars 10 digits 0))
  else none

/-- `str::split_once`. -/
def splitOnce (separator : Char) (s : String) : Option (String × String) :=
  if separator ∈ s.toList then
    some (String.ofList (s.toList.takeWhile (· ≠ separator)),
      String.ofList ((s.toList.dropWhile (· ≠ separator)).drop 1))
  else none

def prefixEq (a b : List UInt8) (pfx max : UInt8) : Option Bool :=
  if max < pfx then some false
  else
    let whole := (pfx / 8).toNat
    if a.length < whole ∨ b.length < whole then none
    else if a.take whole ≠ b.take whole then some false
    else
      let rest := pfx % 8
      if rest = 0 then some true
      else
        let mask := (255 : UInt8) <<< (8 - rest)
        match a[whole]?, b[whole]? with
        | some x, some y => some (x &&& mask = y &&& mask)
        | _, _ => none

/-- `ip` is in canonical form. -/
def proxyPatternMatches (pattern : String) (ip : IpAddr) : Option Bool :=
  match splitOnce '/' (trim pattern) with
  | none =>
      match parseIpAddr (trim pattern) with
      | some p => some (p.toCanonical = ip)
      | none => some false
  | some (net, pfx) =>
      match parseIpAddr (trim net), parseU8 (trim pfx) with
      | some (.v4 net), some pfx =>
          match ip with
          | .v4 ip => prefixEq net.bytes ip.bytes pfx 32
          | .v6 _ => some false
      | some (.v6 net), some pfx =>
          match ip with
          | .v6 ip => prefixEq net.bytes ip.bytes pfx 128
          | .v4 _ => some false
      | _, _ => some false

def isTrustedProxy (patterns : List String) (ip : IpAddr) : Option Bool :=
  patterns.anyM fun pattern => proxyPatternMatches pattern ip.toCanonical

/-! ### The key of a login attempt -/

/-- A header value: any octets but the control characters, of which the tab is allowed. -/
structure HeaderValue where
  bytes : List UInt8
  valid : ∀ byte ∈ bytes, (32 ≤ byte ∧ byte ≠ 127) ∨ byte = 9

/-- `HeaderValue::to_str`: visible ASCII and the tab only. -/
def HeaderValue.toStr (value : HeaderValue) : Option String :=
  if value.bytes.all fun byte => (32 ≤ byte && byte < 127) || byte = 9 then
    some (String.ofList (value.bytes.map fun byte => Char.ofNat byte.toNat))
  else none

/-- `raw.rsplit(',').next()`. -/
def lastItem (raw : String) : String :=
  String.ofList (raw.toList.reverse.takeWhile (· ≠ ',')).reverse

/-- `Ipv4Addr::LOCALHOST`. -/
def localhost : IpAddr := .v4 ⟨[127, 0, 0, 1], rfl⟩

/-- The hop the last `x-forwarded-for` line ends with; `forwarded` are the lines in their order. -/
def forwardedHop (forwarded : List HeaderValue) : Option IpAddr := do
  let value ← forwarded.getLast?
  let raw ← value.toStr
  let ip ← parseIpAddr (trim (lastItem raw))
  some ip.toCanonical

def rateLimitKey (peer : Option IpAddr) (forwarded : List HeaderValue) (trustedProxies : List String) :
    Option IpAddr :=
  match peer with
  | none => some localhost
  | some peer =>
      match isTrustedProxy trustedProxies peer.toCanonical with
      | none => none
      | some true => some ((forwardedHop forwarded).getD peer.toCanonical)
      | some false => some peer.toCanonical

end Pingward
