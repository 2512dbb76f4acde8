import EventStream.Url.Quoting

/-
# Hosts between brackets

A host that stands between brackets is an IPv6 address or an address of a future version. This
module says which texts are IPv4 and IPv6 addresses.
-/

namespace EventStream.Url

/-- Whether a code point is an ASCII digit. -/
def isDigit (c : CodePoint) : Bool := 48 ≤ c.toNat && c.toNat ≤ 57

/-- Whether a text is a number of an IPv4 address: up to 255, without zeros in front. -/
def isOctet (t : Text) : Bool :=
  !t.isEmpty && t.all isDigit && t.length ≤ 3 && !(t.head? = some (.scalar '0') && t.length ≠ 1) &&
    t.foldl (fun n c => n * 10 + (c.toNat - 48)) 0 ≤ 255

/-- Whether a text is an IPv4 address. -/
def isIPv4 (t : Text) : Bool :=
  let parts := Text.split '.' t
  parts.length = 4 && parts.all isOctet

/-- Whether a text is a group of an IPv6 address. -/
def isGroup (t : Text) : Bool :=
  !t.isEmpty && t.length ≤ 4 && t.all fun c => (hexValue? c).isSome

/-- The parts of an IPv6 address; an IPv4 address at its end counts as two groups. -/
def groups? (t : Text) : Option (List Text) :=
  let parts := Text.split ':' t
  match parts.getLast? with
  | none => none
  | some last =>
    if last.contains '.' then
      if isIPv4 last then some (parts.dropLast ++ List.replicate 2 (Text.ofString "0")) else none
    else some parts

/-- Whether groups, one of which may be the gap that stands for groups of zeros, are an address. A
gap at either end is written with two empty parts. -/
def areGroups (parts : List Text) : Bool :=
  let inner := (parts.drop 1).dropLast
  match inner.findIdx? (·.isEmpty) with
  | none => parts.length = 8 && parts.all isGroup
  | some i =>
    let head := parts.take (i + 1)
    let tail := parts.drop (i + 2)
    let head := if head.head? = some [] then head.drop 1 else head
    let tail := if tail.getLast? = some [] then tail.dropLast else tail
    head.all isGroup && tail.all isGroup && head.length + tail.length < 8 &&
      (inner.filter (·.isEmpty)).length = 1 &&
      !(parts.head? = some [] && i ≠ 0) &&
      !(parts.getLast? = some [] && i + 3 ≠ parts.length)

/-- Whether a text is an IPv6 address, perhaps with a zone. -/
def isIPv6 (t : Text) : Bool :=
  let (address, zone) := Text.cut '%' t
  let zoneFits := match zone with
    | none => true
    | some z => !z.isEmpty && !z.contains '%'
  zoneFits &&
    match groups? address with
    | none => false
    | some parts => 3 ≤ parts.length && parts.length ≤ 9 && areGroups parts

/-- Whether a text is an address of a future version: its number, a point, and something. -/
def isFutureAddress (t : Text) : Bool :=
  match t with
  | v :: rest =>
    let (version, address) := Text.cut '.' rest
    v = .scalar 'v' && !version.isEmpty && version.all (fun c => (hexValue? c).isSome) &&
      match address with
      | none => false
      | some a => !a.isEmpty && !a.contains '\n'
  | [] => false

end EventStream.Url
