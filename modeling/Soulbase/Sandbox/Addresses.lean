/-
# Addresses as text

What `str::parse` makes of an address of the network: four octets between dots, or up
to eight segments between colons, where `::` stands for segments that are zero and the
last two may be written as octets. The whole text has to be read.

`parseIp_showOctets` reads back every address of four octets. A text in square brackets
is no address, `parseIp_bracketed`, and the host of a URL has an address of segments in
such brackets.
-/

import Soulbase.Foundation.Digits
import Soulbase.Sandbox.Exec.Net

namespace Soulbase.Sandbox

open Soulbase.Foundation

/-- Four octets. -/
abbrev Octets : Type := UInt8 × UInt8 × UInt8 × UInt8

/-- One of the octets: no octal numbers. -/
def readOctet : Reader UInt8 := fun chars =>
  (readNumber 10 3 false 256 chars).map fun (value, rest) => (UInt8.ofNat value, rest)

/-- `Parser::read_ipv4_addr`. -/
def readIpv4Addr : Reader Octets := fun chars => do
  let (first, rest) ← readSeparator '.' 0 readOctet chars
  let (second, rest) ← readSeparator '.' 1 readOctet rest
  let (third, rest) ← readSeparator '.' 2 readOctet rest
  let (fourth, rest) ← readSeparator '.' 3 readOctet rest
  return ((first, second, third, fourth), rest)

/-- `u16::from_be_bytes`. -/
def fromBeBytes (high low : UInt8) : UInt16 := high.toUInt16 <<< 8 ||| low.toUInt16

/-- The octets at the end of an address of segments, while there is room for two
segments. -/
def readEmbedded (remaining index : Nat) : Reader Octets := fun chars =>
  if 0 < remaining then readSeparator ':' index readIpv4Addr chars else none

/-- `read_groups`, from an index on: the segments, whether the last two were octets, and
what is left. -/
def readGroups : (remaining index : Nat) → List Char → List UInt16 × Bool × List Char
  | 0, _, chars => ([], false, chars)
  | remaining + 1, index, chars =>
      match readEmbedded remaining index chars with
      | some ((first, second, third, fourth), rest) =>
          ([fromBeBytes first second, fromBeBytes third fourth], true, rest)
      | none =>
          match readSeparator ':' index (readNumber 16 4 true 65536) chars with
          | none => ([], false, chars)
          | some (group, rest) =>
              let (groups, octets, rest) := readGroups remaining (index + 1) rest
              (UInt16.ofNat group :: groups, octets, rest)

/-- Eight segments, the missing ones zero. -/
def toSegments (segments : List UInt16) : Vector UInt16 8 :=
  .ofFn fun index => segments[index.val]?.getD 0

/-- `Parser::read_ipv6_addr`. -/
def readIpv6Addr : Reader (Vector UInt16 8) := fun chars =>
  let (head, octets, rest) := readGroups 8 0 chars
  if head.length = 8 then some (toSegments head, rest)
  else if octets then none
  else do
    let rest ← readGivenChar ':' rest
    let rest ← readGivenChar ':' rest
    let (tail, _, rest) := readGroups (8 - (head.length + 1)) 0 rest
    let zeros := List.replicate (8 - tail.length - head.length) 0
    return (toSegments (head ++ zeros ++ tail), rest)

/-- `Parser::read_ip_addr`. -/
def readIpAddr : Reader IpAddr := fun chars =>
  match readIpv4Addr chars with
  | some ((first, second, third, fourth), rest) => some (.v4 first second third fourth, rest)
  | none => (readIpv6Addr chars).map fun (segments, rest) => (.v6 segments, rest)

/-- `IpAddr::from_str`. -/
def parseIp (text : String) : Option IpAddr :=
  match readIpAddr text.toList with
  | some (addr, []) => some addr
  | some (_, _ :: _) | none => none

/-- The characters of an octet. -/
def octetChars (octet : UInt8) : List Char := Nat.toDigits 10 octet.toNat

/-- Four octets as they are displayed. -/
def showOctets (first second third fourth : UInt8) : String :=
  .ofList (octetChars first ++ '.' :: octetChars second ++ '.' :: octetChars third ++
    '.' :: octetChars fourth)

variable {rest : List Char}

theorem readOctet_octetChars (octet : UInt8) (h : NoDigit 10 rest) :
    readOctet (octetChars octet ++ rest) = some (octet, rest) := by
  have hbound : octet.toNat < 256 := octet.toNat_lt
  have hmost : (Nat.toDigits 10 octet.toNat).length ≤ 3 :=
    (Nat.length_toDigits_le_iff (by decide) (by decide)).mpr (by omega)
  rw [readOctet, octetChars, readNumber_toDigits false hbound hmost h, Option.map_some]
  simp only [UInt8.ofNat_toNat]

theorem noDigit_dot : NoDigit 10 ('.' :: rest) := by
  rintro c hc
  cases hc
  decide

theorem readIpv4Addr_octetChars (first second third fourth : UInt8) :
    readIpv4Addr (octetChars first ++ '.' :: (octetChars second ++ '.' :: (octetChars third ++
      '.' :: octetChars fourth))) = some ((first, second, third, fourth), []) := by
  have hlast : readOctet (octetChars fourth) = some (fourth, []) := by
    have h := readOctet_octetChars fourth (fun c hc => nomatch hc : NoDigit 10 [])
    rwa [List.append_nil] at h
  simp only [readIpv4Addr, readSeparator_zero, readOctet_octetChars _ noDigit_dot,
    readSeparator_cons (by decide : 0 < 1), readSeparator_cons (by decide : 0 < 2),
    readSeparator_cons (by decide : 0 < 3), hlast, Option.bind_eq_bind, Option.bind_some]
  rfl

/-- Four octets are read back. -/
theorem parseIp_showOctets (first second third fourth : UInt8) :
    parseIp (showOctets first second third fourth) = some (.v4 first second third fourth) := by
  rw [parseIp, showOctets, String.toList_ofList, readIpAddr]
  simp only [List.append_assoc, List.cons_append]
  rw [readIpv4Addr_octetChars]

theorem noDigit_bracket {radix : Nat} : NoDigit radix ('[' :: rest) := by
  rintro c hc
  cases hc
  rfl

theorem readIpv4Addr_bracket : readIpv4Addr ('[' :: rest) = none := by
  have hoctet : readOctet ('[' :: rest) = none := by
    rw [readOctet, readNumber_of_noDigit false noDigit_bracket]
    rfl
  rw [readIpv4Addr, readSeparator_zero, hoctet]
  rfl

theorem readIpv6Addr_bracket : readIpv6Addr ('[' :: rest) = none := by
  have hgroups : readGroups 8 0 ('[' :: rest) = ([], false, '[' :: rest) := by
    rw [readGroups, readEmbedded, if_pos (by decide), readSeparator_zero, readIpv4Addr_bracket]
    dsimp only
    rw [readSeparator_zero, readNumber_of_noDigit true noDigit_bracket]
  rw [readIpv6Addr, hgroups]
  rfl

/-- What begins with a bracket is no address. -/
theorem parseIp_bracketed (text : String) : parseIp ("[" ++ text) = none := by
  have hchars : ("[" ++ text).toList = '[' :: text.toList := by
    rw [String.toList_append]
    rfl
  rw [parseIp, hchars, readIpAddr, readIpv4Addr_bracket]
  dsimp only
  rw [readIpv6Addr_bracket]
  rfl

/-- Without its brackets the loopback address is one of the private hosts. -/
example : isPrivateHost parseIp "::1" = true ∧ isPrivateHost parseIp "[::1]" = false := by
  decide +kernel

end Soulbase.Sandbox
