import Mathlib.Algebra.Group.Nat.Defs
import Mathlib.Data.List.Basic
import Mathlib.Data.Nat.Basic
import Mathlib.Tactic.Common

/-!
# IP addresses

The addresses, the networks and the special ranges of Python's `ipaddress`.

* `Network`: a network, with an address that has no bits of a host.
* `IPAddress`, `ipAddress`: an address, and the address that a text writes.
* `IPAddress.isPrivate` and the other ranges; `IPAddress.Unrestricted`: an address in none of them.
* **`Network.contains_iff`**: the addresses of a network are those of an interval.
* **`IPAddress.Unrestricted.outside`**: an address in no range is outside these intervals.
-/

namespace Net

/-! ## Networks -/

/-- The mask of the first bits. -/
def netmask (w prefixLen : ℕ) : BitVec w := BitVec.allOnes w <<< (w - prefixLen)

/-- A network. -/
structure Network (w : ℕ) where
  networkAddress : BitVec w
  prefixLen : ℕ
  strict : networkAddress &&& netmask w prefixLen = networkAddress

/-- The address is in the network. -/
def Network.contains {w : ℕ} (net : Network w) (ip : BitVec w) : Bool :=
  ip &&& netmask w net.prefixLen == net.networkAddress

section

variable {w : ℕ}

theorem and_netmask (ip : BitVec w) (prefixLen : ℕ) :
    ip &&& netmask w prefixLen = (ip >>> (w - prefixLen)) <<< (w - prefixLen) := by
  unfold netmask
  ext i hi
  by_cases h : i < w - prefixLen
  · simp [h]
  · have hadd : w - prefixLen + (i - (w - prefixLen)) = i := by omega
    simp [h, hadd, BitVec.getLsbD_eq_getElem hi]

theorem toNat_and_netmask (ip : BitVec w) (prefixLen : ℕ) : (ip &&& netmask w prefixLen).toNat =
    ip.toNat / 2 ^ (w - prefixLen) * 2 ^ (w - prefixLen) := by
  rw [and_netmask, BitVec.toNat_shiftLeft, BitVec.toNat_ushiftRight, Nat.shiftRight_eq_div_pow,
    Nat.shiftLeft_eq, Nat.mod_eq_of_lt]
  exact lt_of_le_of_lt (Nat.div_mul_le_self _ _) ip.isLt

/-- **The addresses of a network** are those of an interval. -/
theorem Network.contains_iff (net : Network w) (ip : BitVec w) : net.contains ip = true ↔
    net.networkAddress.toNat ≤ ip.toNat ∧
      ip.toNat < net.networkAddress.toNat + 2 ^ (w - net.prefixLen) := by
  have hpos : 0 < 2 ^ (w - net.prefixLen) := Nat.two_pow_pos _
  have hstrict := congrArg BitVec.toNat net.strict
  rw [toNat_and_netmask] at hstrict
  rw [Network.contains, beq_iff_eq, ← BitVec.toNat_inj, toNat_and_netmask]
  constructor
  · intro h
    have hlt := Nat.lt_div_mul_add (a := ip.toNat) hpos
    rw [← h]
    exact ⟨Nat.div_mul_le_self _ _, hlt⟩
  · rintro ⟨hle, hlt⟩
    rw [← hstrict] at hle hlt ⊢
    congr 1
    apply le_antisymm
    · rw [← Nat.lt_succ_iff, Nat.div_lt_iff_lt_mul hpos, Nat.succ_mul]
      exact hlt
    · exact (Nat.le_div_iff_mul_le hpos).mpr hle

end

/-! ## Addresses -/

/-- An `IPv4Address` or an `IPv6Address`. -/
inductive IPAddress where
  | v4 (ip : BitVec 32)
  | v6 (ip : BitVec 128) (scopeId : Option (List Char))
deriving DecidableEq

/-- The value of a digit. -/
def digitValue (c : Char) : ℕ :=
  if c.isDigit then c.toNat - '0'.toNat
  else if c.isUpper then c.toNat - 'A'.toNat + 10
  else c.toNat - 'a'.toNat + 10

/-- `int(text, base)`, of digits. -/
def int (text : List Char) (base : ℕ) : ℕ := text.foldl (fun n c => base * n + digitValue c) 0

/-- `IPv4Address._parse_octet`; `none` is a `ValueError`. -/
def parseOctet (octet : List Char) : Option ℕ :=
  if octet = [] then none
  else if !octet.all Char.isDigit then none
  else if 3 < octet.length then none
  else if octet ≠ ['0'] ∧ octet.head? = some '0' then none
  else if 255 < int octet 10 then none
  else some (int octet 10)

/-- `IPv4Address(address)`; `none` is an `AddressValueError`. -/
def ipv4Address (address : List Char) : Option (BitVec 32) :=
  if '/' ∈ address then none
  else if address = [] then none
  else
    let octets := address.splitOn '.'
    if octets.length ≠ 4 then none
    else (octets.mapM parseOctet).map fun bytes => bytes.foldl (fun ip b => ip <<< 8 ||| .ofNat 32 b) 0

/-- A digit of `_HEX_DIGITS`. -/
def isHexDigit (c : Char) : Bool :=
  c.isDigit || ('a' ≤ c && c ≤ 'f') || ('A' ≤ c && c ≤ 'F')

/-- `IPv6Address._parse_hextet`. An empty text has hexadecimal digits only, but is no number. -/
def parseHextet (hextet : List Char) : Option (BitVec 128) :=
  if !hextet.all isHexDigit then none
  else if 4 < hextet.length then none
  else if hextet = [] then none
  else some (.ofNat 128 (int hextet 16))

/-- The parts of an IPv6 address, with two in place of an IPv4 address at the end. -/
def ipv6Parts (parts : List (List Char)) : Option (List (List Char)) :=
  match parts.getLast? with
  | none => some parts
  | some last =>
    if '.' ∈ last then
      (ipv4Address last).map fun (ip : BitVec 32) =>
        parts.dropLast ++ [Nat.toDigits 16 ((ip >>> (16 : ℕ)) &&& 0xffff#32).toNat,
          Nat.toDigits 16 (ip &&& 0xffff#32).toNat]
    else some parts

/-- How many parts stand before and after the zeros that are left out. -/
def ipv6Split (parts : List (List Char)) : Option (ℕ × ℕ) :=
  let skips := (List.range (parts.length - 1)).filter fun i => 0 < i ∧ parts[i]? = some []
  let leading := parts.head? = some []
  let trailing := parts.getLast? = some []
  match skips with
  | [] =>
    if parts.length ≠ 8 then none
    else if leading then none
    else if trailing then none
    else some (8, 0)
  | [i] =>
    if leading ∧ i - 1 ≠ 0 then none
    else if trailing ∧ parts.length - i - 1 - 1 ≠ 0 then none
    else
      let hi := if leading then i - 1 else i
      let lo := if trailing then parts.length - i - 1 - 1 else parts.length - i - 1
      if 8 < hi + lo + 1 then none else some (hi, lo)
  | _ :: _ :: _ => none

/-- One hextet after another. -/
def readHextets (ip : BitVec 128) (hextets : List (List Char)) : Option (BitVec 128) :=
  hextets.foldlM (fun ip hextet => (parseHextet hextet).map (ip <<< 16 ||| ·)) ip

/-- `IPv6Address._ip_int_from_string`. -/
def ipv6IntFromString (text : List Char) : Option (BitVec 128) :=
  if text = [] then none
  else
    let parts := text.splitOn ':'
    if parts.length < 3 then none
    else do
      let parts ← ipv6Parts parts
      if 9 < parts.length then none
      else
        let (hi, lo) ← ipv6Split parts
        let ip ← readHextets 0 (parts.take hi)
        readHextets (ip <<< (16 * (8 - (hi + lo)))) (parts.drop (parts.length - lo))

/-- `IPv6Address._split_scope_id`. -/
def splitScopeId (text : List Char) : Option (List Char × Option (List Char)) :=
  match text.dropWhile (· ≠ '%') with
  | [] => some (text, none)
  | _ :: scopeId =>
    if scopeId = [] ∨ '%' ∈ scopeId then none
    else some (text.takeWhile (· ≠ '%'), some scopeId)

/-- `IPv6Address(address)`. -/
def ipv6Address (address : List Char) : Option IPAddress :=
  if '/' ∈ address then none
  else do
    let (address, scopeId) ← splitScopeId address
    let ip ← ipv6IntFromString address
    some (.v6 ip scopeId)

/-- `ipaddress.ip_address`; `none` is a `ValueError`. -/
def ipAddress (address : List Char) : Option IPAddress :=
  match ipv4Address address with
  | some ip => some (.v4 ip)
  | none => ipv6Address address

/-! ## Special ranges -/

/-- The network of an IPv4 address. -/
def ipv4Network (a b c d prefixLen : ℕ)
    (h : BitVec.ofNat 32 (((a * 256 + b) * 256 + c) * 256 + d) &&& netmask 32 prefixLen =
      BitVec.ofNat 32 (((a * 256 + b) * 256 + c) * 256 + d) := by decide +kernel) : Network 32 :=
  ⟨.ofNat 32 (((a * 256 + b) * 256 + c) * 256 + d), prefixLen, h⟩

/-- The address with the given first hextets, and zeros. -/
def hextets (first : List ℕ) : BitVec 128 :=
  (first.foldl (fun (ip : BitVec 128) n => ip <<< 16 ||| .ofNat 128 n) 0) <<<
    (16 * (8 - first.length))

/-- The network of an IPv6 address. -/
def ipv6Network (first : List ℕ) (prefixLen : ℕ)
    (h : hextets first &&& netmask 128 prefixLen = hextets first := by decide +kernel) : Network 128 :=
  ⟨hextets first, prefixLen, h⟩

namespace IPv4Constants

def linklocalNetwork : Network 32 := ipv4Network 169 254 0 0 16

def loopbackNetwork : Network 32 := ipv4Network 127 0 0 0 8

def multicastNetwork : Network 32 := ipv4Network 224 0 0 0 4

def privateNetworks : List (Network 32) :=
  [ipv4Network 0 0 0 0 8, ipv4Network 10 0 0 0 8, ipv4Network 127 0 0 0 8,
    ipv4Network 169 254 0 0 16, ipv4Network 172 16 0 0 12, ipv4Network 192 0 0 0 24,
    ipv4Network 192 0 0 170 31, ipv4Network 192 0 2 0 24, ipv4Network 192 168 0 0 16,
    ipv4Network 198 18 0 0 15, ipv4Network 198 51 100 0 24, ipv4Network 203 0 113 0 24,
    ipv4Network 240 0 0 0 4, ipv4Network 255 255 255 255 32]

def privateNetworksExceptions : List (Network 32) :=
  [ipv4Network 192 0 0 9 32, ipv4Network 192 0 0 10 32]

def reservedNetwork : Network 32 := ipv4Network 240 0 0 0 4

def unspecifiedAddress : BitVec 32 := 0

end IPv4Constants

namespace IPv6Constants

def linklocalNetwork : Network 128 := ipv6Network [0xfe80] 10

def multicastNetwork : Network 128 := ipv6Network [0xff00] 8

def privateNetworks : List (Network 128) :=
  [ipv6Network [0, 0, 0, 0, 0, 0, 0, 1] 128, ipv6Network [] 128,
    ipv6Network [0, 0, 0, 0, 0, 0xffff] 96, ipv6Network [0x64, 0xff9b, 1] 48,
    ipv6Network [0x100] 64, ipv6Network [0x2001] 23, ipv6Network [0x2001, 0xdb8] 32,
    ipv6Network [0x2002] 16, ipv6Network [0xfc00] 7, ipv6Network [0xfe80] 10]

def privateNetworksExceptions : List (Network 128) :=
  [ipv6Network [0x2001, 1, 0, 0, 0, 0, 0, 1] 128, ipv6Network [0x2001, 1, 0, 0, 0, 0, 0, 2] 128,
    ipv6Network [0x2001, 3] 32, ipv6Network [0x2001, 4, 0x112] 48, ipv6Network [0x2001, 0x20] 28,
    ipv6Network [0x2001, 0x30] 28]

def reservedNetworks : List (Network 128) :=
  [ipv6Network [] 8, ipv6Network [0x100] 8, ipv6Network [0x200] 7, ipv6Network [0x400] 6,
    ipv6Network [0x800] 5, ipv6Network [0x1000] 4, ipv6Network [0x4000] 3, ipv6Network [0x6000] 3,
    ipv6Network [0x8000] 3, ipv6Network [0xa000] 3, ipv6Network [0xc000] 3, ipv6Network [0xe000] 4,
    ipv6Network [0xf000] 5, ipv6Network [0xf800] 6, ipv6Network [0xfe00] 9]

end IPv6Constants

/-- The address is in a network, and in none of the exceptions. -/
def inNetworks {w : ℕ} (networks exceptions : List (Network w)) (ip : BitVec w) : Bool :=
  networks.any (·.contains ip) && exceptions.all (!·.contains ip)

theorem inNetworks_eq_false {w : ℕ} {networks exceptions : List (Network w)} {ip : BitVec w} :
    inNetworks networks exceptions ip = false ↔ ∀ net ∈ networks, net.contains ip = true →
      ∃ exception ∈ exceptions, exception.contains ip = true := by
  unfold inNetworks
  rw [Bool.and_eq_false_iff, List.any_eq_false, List.all_eq_false]
  constructor
  · rintro (hnone | ⟨exception, hexception, hin⟩) net hnet hcontains
    · exact absurd hcontains (hnone net hnet)
    · exact ⟨exception, hexception, by simpa using hin⟩
  · intro h
    by_cases hany : ∃ net ∈ networks, net.contains ip = true
    · obtain ⟨net, hnet, hcontains⟩ := hany
      obtain ⟨exception, hexception, hin⟩ := h net hnet hcontains
      exact .inr ⟨exception, hexception, by simpa using hin⟩
    · exact .inl fun net hnet hcontains => hany ⟨net, hnet, hcontains⟩

/-- `IPv4Address.is_private`. -/
def isPrivate4 (ip : BitVec 32) : Bool :=
  inNetworks IPv4Constants.privateNetworks IPv4Constants.privateNetworksExceptions ip

/-- `IPv6Address.ipv4_mapped`. -/
def ipv4Mapped (ip : BitVec 128) : Option (BitVec 32) :=
  if ip >>> 32 ≠ 0xffff#128 then none else some (ip.setWidth 32)

namespace IPAddress

def isPrivate : IPAddress → Bool
  | v4 ip => isPrivate4 ip
  | v6 ip _ =>
    match ipv4Mapped ip with
    | some mapped => isPrivate4 mapped
    | none => inNetworks IPv6Constants.privateNetworks IPv6Constants.privateNetworksExceptions ip

def isLoopback : IPAddress → Bool
  | v4 ip => IPv4Constants.loopbackNetwork.contains ip
  | v6 ip _ => ip == 1

def isLinkLocal : IPAddress → Bool
  | v4 ip => IPv4Constants.linklocalNetwork.contains ip
  | v6 ip _ => IPv6Constants.linklocalNetwork.contains ip

def isMulticast : IPAddress → Bool
  | v4 ip => IPv4Constants.multicastNetwork.contains ip
  | v6 ip _ => IPv6Constants.multicastNetwork.contains ip

def isReserved : IPAddress → Bool
  | v4 ip => IPv4Constants.reservedNetwork.contains ip
  | v6 ip _ => IPv6Constants.reservedNetworks.any (·.contains ip)

def isUnspecified : IPAddress → Bool
  | v4 ip => ip == IPv4Constants.unspecifiedAddress
  | v6 ip _ => ip == 0

/-- An address in none of the special ranges. -/
structure Unrestricted (address : IPAddress) : Prop where
  isPrivate : address.isPrivate = false
  isLoopback : address.isLoopback = false
  isLinkLocal : address.isLinkLocal = false
  isMulticast : address.isMulticast = false
  isReserved : address.isReserved = false
  isUnspecified : address.isUnspecified = false

/-- **An address in no range** is outside the intervals of their networks, but for the private
networks' exceptions. -/
theorem Unrestricted.outside {ip : BitVec 32} (h : (v4 ip).Unrestricted) {net : Network 32}
    (hnet : net ∈ IPv4Constants.loopbackNetwork :: IPv4Constants.linklocalNetwork ::
      IPv4Constants.multicastNetwork :: IPv4Constants.reservedNetwork ::
      IPv4Constants.privateNetworks)
    (hexceptions : ∀ exception ∈ IPv4Constants.privateNetworksExceptions,
      exception.contains ip = false) :
    ip.toNat < net.networkAddress.toNat ∨
      net.networkAddress.toNat + 2 ^ (32 - net.prefixLen) ≤ ip.toNat := by
  have hcontains : net.contains ip ≠ true := by
    simp only [List.mem_cons] at hnet
    obtain rfl | rfl | rfl | rfl | hnet := hnet
    · exact ne_true_of_eq_false h.isLoopback
    · exact ne_true_of_eq_false h.isLinkLocal
    · exact ne_true_of_eq_false h.isMulticast
    · exact ne_true_of_eq_false h.isReserved
    · intro hin
      obtain ⟨exception, hexception, hmem⟩ :=
        inNetworks_eq_false.mp h.isPrivate net (by simpa [IPv4Constants.privateNetworks] using hnet) hin
      rw [hexceptions exception hexception] at hmem
      exact Bool.false_ne_true hmem
  rw [Ne, Network.contains_iff] at hcontains
  omega

end IPAddress

end Net
