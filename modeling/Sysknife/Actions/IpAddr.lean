import Mathlib.Data.List.Basic
import Sysknife.Types

/-!
# IP addresses

The `IpAddr` parser and printer of Rust's standard library. A reader consumes
from the front of a text and hands back the rest; one that fails consumes
nothing.
-/

namespace Sysknife

/-- An IPv4 address by its octets, an IPv6 address by its segments. -/
inductive IpAddr where
  | v4 (octets : List UInt8)
  | v6 (segments : List UInt16)
  deriving DecidableEq, Repr

namespace IpAddr

/-! ## Reading -/

/-- `char::to_digit`. -/
def toDigit (radix : Nat) (c : Char) : Option Nat :=
  let value :=
    if c.isDigit then c.toNat - 48
    else if 'a' ≤ c ∧ c ≤ 'z' then c.toNat - 87
    else if 'A' ≤ c ∧ c ≤ 'Z' then c.toNat - 55
    else radix
  if value < radix then some value else none

/-- `read_number`: at most `maxDigits` digits, below `bound`. -/
def readNumber (radix maxDigits bound : Nat) (allowZeroPrefix : Bool) (input : List Char) :
    Option (Nat × List Char) :=
  let digits := (input.takeWhile fun c => (toDigit radix c).isSome)
  let value := digits.foldl (fun n c => n * radix + (toDigit radix c).getD 0) 0
  if digits.isEmpty || digits.length > maxDigits then none
  else if !allowZeroPrefix && digits.head? == some '0' && digits.length > 1 then none
  else if value < bound then some (value, input.drop digits.length)
  else none

/-- `read_given_char`. -/
def readGivenChar (c : Char) : List Char → Option (List Char)
  | d :: rest => if d = c then some rest else none
  | [] => none

/-- `read_separator`: the separator stands before every element but the first. -/
def readSeparator (sep : Char) (index : Nat) (input : List Char) : Option (List Char) :=
  if index = 0 then some input else readGivenChar sep input

/-- The octets still to read, from the one with number `index`. -/
def readOctets (index : Nat) : Nat → List Char → Option (List UInt8 × List Char)
  | 0, input => some ([], input)
  | left + 1, input => do
      let input ← readSeparator '.' index input
      let (value, input) ← readNumber 10 3 256 false input
      let (octets, input) ← readOctets (index + 1) left input
      some (UInt8.ofNat value :: octets, input)

/-- `read_ipv4_addr`. -/
def readIpv4Addr (input : List Char) : Option (List UInt8 × List Char) := readOctets 0 4 input

/-- `u16::from_be_bytes` of two neighbouring octets. -/
def segmentOf (hi lo : UInt8) : UInt16 := UInt16.ofNat (256 * hi.toNat + lo.toNat)

/-- A trailing IPv4 address, as the two segments it stands for. -/
def readTrailingIpv4 (index : Nat) (input : List Char) : Option (List UInt16 × List Char) := do
  let input ← readSeparator ':' index input
  let (octets, input) ← readIpv4Addr input
  match octets with
  | [one, two, three, four] => some ([segmentOf one two, segmentOf three four], input)
  | _ => none

/-- `read_groups` with `left` slots free from slot `index` on: the groups read,
whether an IPv4 address ended them, and the rest. -/
def readGroups (index : Nat) : Nat → List Char → List UInt16 × Bool × List Char
  | 0, input => ([], false, input)
  | left + 1, input =>
      match if left > 0 then readTrailingIpv4 index input else none with
      | some (segments, rest) => (segments, true, rest)
      | none =>
        match (readSeparator ':' index input).bind (readNumber 16 4 65536 true) with
        | none => ([], false, input)
        | some (group, rest) =>
          let (groups, ipv4, rest) := readGroups (index + 1) left rest
          (UInt16.ofNat group :: groups, ipv4, rest)

/-- `read_ipv6_addr`. -/
def readIpv6Addr (input : List Char) : Option (List UInt16 × List Char) :=
  let (head, headIpv4, input) := readGroups 0 8 input
  if head.length = 8 then some (head, input)
  else if headIpv4 then none
  else do
    let input ← readGivenChar ':' input
    let input ← readGivenChar ':' input
    let (tail, _, input) := readGroups 0 (8 - (head.length + 1)) input
    some (head ++ List.replicate (8 - head.length - tail.length) 0 ++ tail, input)

/-- `read_ip_addr`. -/
def readIpAddr (input : List Char) : Option (IpAddr × List Char) :=
  match readIpv4Addr input with
  | some (octets, rest) => some (.v4 octets, rest)
  | none => (readIpv6Addr input).map fun (segments, rest) => (.v6 segments, rest)

/-- `IpAddr::from_str`: the whole text has to be read. -/
def fromStr (s : String) : Option IpAddr :=
  match readIpAddr s.toList with
  | some (addr, []) => some addr
  | _ => none

/-! ## Printing -/

/-- Octets with dots between them. -/
def displayOctets (octets : List UInt8) : String :=
  ".".intercalate (octets.map fun octet => toString octet.toNat)

/-- `fmt_subslice`: segments in hexadecimal with colons between them. -/
def fmtSubslice (segments : List UInt16) : String :=
  ":".intercalate (segments.map fun s => String.ofList (Nat.toDigits 16 s.toNat))

/-- A run of zero segments. -/
structure Span where
  start : Nat
  len : Nat

/-- The first longest run of zero segments, given the best run so far and the
one that ends here. -/
def longestZeroes (index : Nat) (longest current : Span) : List UInt16 → Span
  | [] => longest
  | segment :: rest =>
      if segment = 0 then
        let current : Span :=
          ⟨if current.len = 0 then index else current.start, current.len + 1⟩
        longestZeroes (index + 1) (if current.len > longest.len then current else longest)
          current rest
      else longestZeroes (index + 1) longest ⟨0, 0⟩ rest

/-- `Display` of an IPv6 address. -/
def displaySegments (segments : List UInt16) : String :=
  match segments with
  | [0, 0, 0, 0, 0, 0xffff, ab, cd] =>
      "::ffff:" ++ displayOctets [UInt8.ofNat (ab.toNat / 256), UInt8.ofNat (ab.toNat % 256),
        UInt8.ofNat (cd.toNat / 256), UInt8.ofNat (cd.toNat % 256)]
  | _ =>
      let zeroes := longestZeroes 0 ⟨0, 0⟩ ⟨0, 0⟩ segments
      if zeroes.len > 1 then
        fmtSubslice (segments.take zeroes.start) ++ "::" ++
          fmtSubslice (segments.drop (zeroes.start + zeroes.len))
      else fmtSubslice segments

def display : IpAddr → String
  | .v4 octets => displayOctets octets
  | .v6 segments => displaySegments segments

/-! ## A text that was read has the right number of parts -/

theorem readOctets_length {index left : Nat} {input rest : List Char} {octets : List UInt8}
    (h : readOctets index left input = some (octets, rest)) : octets.length = left := by
  induction left generalizing index input octets with
  | zero => simp_all [readOctets]
  | succ left ih =>
    simp only [readOctets, Option.bind_eq_bind, Option.bind_eq_some_iff, Prod.exists] at h
    obtain ⟨input₁, -, value, input₂, -, octets', input₃, hrest, heq⟩ := h
    simp only [Option.some.injEq, Prod.mk.injEq] at heq
    obtain ⟨rfl, rfl⟩ := heq
    simpa using ih hrest

theorem readGroups_length (index left : Nat) (input : List Char) :
    (readGroups index left input).1.length ≤ left := by
  induction left generalizing index input with
  | zero => simp [readGroups]
  | succ left ih =>
    unfold readGroups
    split
    · next segments rest hv4 =>
      by_cases hleft : left > 0
      · simp only [hleft, if_true] at hv4
        unfold readTrailingIpv4 at hv4
        simp only [Option.bind_eq_bind, Option.bind_eq_some_iff] at hv4
        obtain ⟨input₁, -, ⟨octets, input₂⟩, -, hmatch⟩ := hv4
        split at hmatch
        · simp only [Option.some.injEq, Prod.mk.injEq] at hmatch
          obtain ⟨rfl, -⟩ := hmatch
          simp only [List.length_cons, List.length_nil]
          omega
        · cases hmatch
      · simp [hleft] at hv4
    · split
      · simp
      · next group rest hgroup =>
        have hrest := ih (index + 1) rest
        simp only [List.length_cons]
        omega

/-- Eight segments, however the text was written. -/
theorem readIpv6Addr_length {input rest : List Char} {segments : List UInt16}
    (h : readIpv6Addr input = some (segments, rest)) : segments.length = 8 := by
  have hhead := readGroups_length 0 8 input
  unfold readIpv6Addr at h
  simp only at h
  split at h
  · next hfull =>
    simp only [Option.some.injEq, Prod.mk.injEq] at h
    rw [← h.1]
    exact hfull
  · next hshort =>
    split at h
    · cases h
    · simp only [Option.bind_eq_bind, Option.bind_eq_some_iff, Option.some.injEq,
        Prod.mk.injEq] at h
      obtain ⟨input₁, -, input₂, -, hsegments, -⟩ := h
      have htail := readGroups_length 0 (8 - ((readGroups 0 8 input).1.length + 1)) input₂
      rw [← hsegments]
      simp only [List.length_append, List.length_replicate]
      omega

/-- Four octets or eight segments. -/
def WellSized : IpAddr → Prop
  | .v4 octets => octets.length = 4
  | .v6 segments => segments.length = 8

theorem readIpAddr_wellSized {input rest : List Char} {addr : IpAddr}
    (h : readIpAddr input = some (addr, rest)) : addr.WellSized := by
  unfold readIpAddr at h
  split at h
  · next octets rest' hv4 =>
    simp only [Option.some.injEq, Prod.mk.injEq] at h
    obtain ⟨rfl, -⟩ := h
    exact readOctets_length hv4
  · simp only [Option.map_eq_some_iff, Prod.mk.injEq] at h
    obtain ⟨⟨segments, rest'⟩, hv6, rfl, -⟩ := h
    exact readIpv6Addr_length hv6

theorem fromStr_wellSized {s : String} {addr : IpAddr} (h : fromStr s = some addr) :
    addr.WellSized := by
  unfold fromStr at h
  split at h
  · next addr' hread =>
    cases h
    exact readIpAddr_wellSized hread
  · cases h

end IpAddr

end Sysknife
