import Metidos.Library.JsNumerals

/-!
The address checks of the outbound URL guard: reading dotted and colon-separated address
texts, and the block lists.  `AddressText` says which texts are addresses and that exactly
those are read; `AddressBlocking` derives what a block decision depends on.
-/

namespace Metidos.Net

open JsText

def parseIpv4Part (part : List Char) : Option Nat :=
  match parseInt part with
  | none => none
  | some value =>
    if stringOfInteger value ≠ part ∨ value < 0 ∨ value > 255 then none else some value.toNat

def parseIpv4Address (hostname : List Char) : Option (List Nat) :=
  let parts := hostname.splitOn '.'
  if parts.length ≠ 4 then none else parts.mapM parseIpv4Part

/-- The part of a `hostname` after its last colon, when it looks like a dotted address. -/
structure Ipv4Suffix where
  ipv4 : List Char
  leading : List Char

def isDottedDigits (text : List Char) : Bool :=
  let parts := text.splitOn '.'
  parts.length == 4 && parts.all isDigits

def splitIpv6Ipv4Suffix (hostname : List Char) : Option Ipv4Suffix :=
  match lastIndexOf ':' hostname with
  | none => none
  | some separatorIndex =>
    let ipv4 := hostname.drop (separatorIndex + 1)
    if isDottedDigits ipv4 then some ⟨ipv4, hostname.take (separatorIndex + 1)⟩ else none

/-- The test `/^[0-9a-f]{1,4}$/`, for a text that is in lower case already. -/
def isHextetText (part : List Char) : Bool :=
  1 ≤ part.length && part.length ≤ 4 &&
    part.all fun char => isHexDigit char && !(65 ≤ char.toNat && char.toNat ≤ 70)

def parseSide (side : List Char) : Option (List Nat) :=
  if side.isEmpty then some []
  else
    let parts := side.splitOn ':'
    if parts.any (fun part => !isHextetText part) then none
    else some (parts.map numberOfHexDigits)

/-- The text of `parseIpv6Hextets` with its dotted suffix rewritten as two hextets. -/
def withoutIpv4 (leading : List Char) (ipv4Parts : List Nat) : List Char :=
  leading ++
    (hexStringOfNumber ((ipv4Parts.getD 0 0 <<< 8) ||| ipv4Parts.getD 1 0) ++ ':' ::
      hexStringOfNumber ((ipv4Parts.getD 2 0 <<< 8) ||| ipv4Parts.getD 3 0))

def expandDoubleColon (text : List Char) : Option (List Nat) :=
  let doubleColonParts := splitPairs ':' text
  if doubleColonParts.length > 2 then none
  else
    match parseSide (doubleColonParts.getD 0 []), parseSide (doubleColonParts.getD 1 []) with
    | some left, some right =>
      let missing : Int := 8 - left.length - right.length
      if doubleColonParts.length = 1 then (if missing = 0 then some left else none)
      else if missing < 1 then none
      else some (left ++ List.replicate missing.toNat 0 ++ right)
    | _, _ => none

def parseIpv6Hextets (hostname : List Char) : Option (List Nat) :=
  let normalized := toLowerCase hostname
  match splitIpv6Ipv4Suffix normalized with
  | none => expandDoubleColon normalized
  | some ipv4Suffix =>
    match parseIpv4Address ipv4Suffix.ipv4 with
    | none => none
    | some ipv4Parts => expandDoubleColon (withoutIpv4 ipv4Suffix.leading ipv4Parts)

def isBlockedIpv4 (hostname : List Char) : Bool :=
  match parseIpv4Address hostname with
  | none => true
  | some parts =>
    let first := parts.getD 0 0
    let second := parts.getD 1 0
    first == 0 || first == 10 || first == 127 || (first == 169 && second == 254) ||
      (first == 172 && second ≥ 16 && second ≤ 31) || (first == 192 && second == 168) ||
      (first == 100 && second ≥ 64 && second ≤ 127) ||
      (first == 198 && (second == 18 || second == 19)) || first ≥ 224

def ipv4FromHextets (hextets : List Nat) : List Char :=
  let first := hextets.getD 6 0
  let second := hextets.getD 7 0
  ['.'].intercalate
    ([first >>> 8, first &&& 0xff, second >>> 8, second &&& 0xff].map stringOfNumber)

def isBlockedHextets (hextets : List Nat) : Bool :=
  let first := hextets.getD 0 0
  let firstSixAreZero := (hextets.take 6).all (· == 0)
  hextets.all (· == 0) ||
    ((hextets.take 7).all (· == 0) && hextets[7]? == some 1) ||
    first &&& 0xffc0 == 0xfe80 ||
    first &&& 0xfe00 == 0xfc00 ||
    first &&& 0xff00 == 0xff00 ||
    first == 0x2002 ||
    (first == 0x2001 && hextets.getD 1 0 ≤ 0x01ff) ||
    (first == 0x2001 && hextets[1]? == some 0x0db8) ||
    (first == 0x64 && hextets[1]? == some 0xff9b) ||
    (firstSixAreZero && isBlockedIpv4 (ipv4FromHextets hextets)) ||
    ((hextets.take 5).all (· == 0) && hextets[5]? == some 0xffff &&
      isBlockedIpv4 (ipv4FromHextets hextets))

def isBlockedIpv6 (hostname : List Char) : Bool :=
  match parseIpv6Hextets hostname with
  | none => true
  | some hextets => if hextets.length ≠ 8 then true else isBlockedHextets hextets

def normalizeIpHost (hostname : List Char) : List Char :=
  if hostname.head? = some '[' ∧ hostname.getLast? = some ']' then hostname.tail.dropLast
  else hostname

/-- `isIP` is the function of `node:net`: 4 and 6 for the texts of addresses, else 0. -/
def isBlockedOutboundAddress (isIP : List Char → Nat) (address : List Char) : Bool :=
  let ipHost := normalizeIpHost (toLowerCase address)
  let ipVersion := isIP ipHost
  ipVersion == 0 || (ipVersion == 4 && isBlockedIpv4 ipHost) ||
    (ipVersion == 6 && isBlockedIpv6 ipHost)

end Metidos.Net
