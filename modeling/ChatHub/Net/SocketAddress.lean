/-!
Addresses that a server listens at: an address of either version of the internet protocol, and a
port.
-/

namespace ChatHub.Net

inductive Host where
  | v4 (a b c d : Nat)
  /-- Eight groups of sixteen bits, and the number of the network they belong to. -/
  | v6 (groups : List Nat) (scope : Nat)
deriving DecidableEq, Repr

structure SocketAddress where
  host : Host
  port : Nat
deriving DecidableEq, Repr

def digitValue? (radix : Nat) (c : Char) : Option Nat :=
  let v? :=
    if '0' ≤ c ∧ c ≤ '9' then some (c.toNat - '0'.toNat)
    else if 'a' ≤ c ∧ c ≤ 'z' then some (c.toNat - 'a'.toNat + 10)
    else if 'A' ≤ c ∧ c ≤ 'Z' then some (c.toNat - 'A'.toNat + 10)
    else none
  v?.filter (· < radix)

/-- The digits at the start of a text, and what follows them. -/
def takeDigits (radix : Nat) : List Char → List Nat × List Char
  | [] => ([], [])
  | c :: rest =>
      match digitValue? radix c with
      | some d =>
          let (ds, after) := takeDigits radix rest
          (d :: ds, after)
      | none => ([], c :: rest)

def ofDigits (radix : Nat) (digits : List Nat) : Nat :=
  digits.foldl (fun n d => n * radix + d) 0

/-- A number below `limit`, of at most `width` digits if that is given. -/
def takeNumber (radix limit : Nat) (width : Option Nat) (cs : List Char) :
    Option (Nat × List Char) :=
  let (digits, after) := takeDigits radix cs
  let n := ofDigits radix digits
  if digits.isEmpty || width.any (decide <| · < digits.length) || limit ≤ n then none
  else some (n, after)

/-- A byte in decimal, without zeros before it. -/
def takeByte (cs : List Char) : Option (Nat × List Char) :=
  match cs with
  | '0' :: rest =>
      match (takeDigits 10 rest).1 with
      | [] => some (0, rest)
      | _ => none
  | _ => takeNumber 10 256 (some 3) cs

def takeChar (c : Char) : List Char → Option (List Char)
  | d :: rest => if d = c then some rest else none
  | [] => none

/-- Four bytes with dots between them. -/
def takeV4 (cs : List Char) : Option ((Nat × Nat × Nat × Nat) × List Char) := do
  let (a, cs) ← takeByte cs
  let (b, cs) ← takeByte (← takeChar '.' cs)
  let (c, cs) ← takeByte (← takeChar '.' cs)
  let (d, cs) ← takeByte (← takeChar '.' cs)
  some ((a, b, c, d), cs)

/-- Up to `left` groups with colons between them, the last two of which may be given as four
bytes.  Tells whether they were. -/
def takeGroups : (left : Nat) → (first : Bool) → List Char → List Nat × Bool × List Char
  | 0, _, cs => ([], false, cs)
  | left + 1, first, cs =>
      match if first then some cs else takeChar ':' cs with
      | none => ([], false, cs)
      | some start =>
          match if left = 0 then none else takeV4 start with
          | some ((a, b, c, d), after) => ([a * 256 + b, c * 256 + d], true, after)
          | none =>
              match takeNumber 16 65536 (some 4) start with
              | some (g, after) =>
                  let (gs, asBytes, rest) := takeGroups left false after
                  (g :: gs, asBytes, rest)
              | none => ([], false, cs)

/-- Eight groups; two colons stand for as many zeros as are missing, one at least. -/
def takeV6 (cs : List Char) : Option (List Nat × List Char) :=
  let (head, asBytes, rest) := takeGroups 8 true cs
  if head.length = 8 then some (head, rest)
  else if asBytes then none
  else
    match rest with
    | ':' :: ':' :: rest =>
        let (tail, _, rest) := takeGroups (7 - head.length) true rest
        some (head ++ List.replicate (8 - head.length - tail.length) 0 ++ tail, rest)
    | _ => none

def takeHost (cs : List Char) : Option (Host × List Char) :=
  match takeV4 cs, cs with
  | some ((a, b, c, d), rest), _ => some (.v4 a b c d, rest)
  | none, '[' :: cs => do
      let (groups, cs) ← takeV6 cs
      let (scope, cs) ← match cs with
        | '%' :: cs => takeNumber 10 UInt32.size none cs
        | _ => some (0, cs)
      let cs ← takeChar ']' cs
      some (.v6 groups scope, cs)
  | none, _ => none

namespace SocketAddress

def ofText? (s : String) : Option SocketAddress := do
  let (host, cs) ← takeHost s.toList
  let (port, cs) ← takeNumber 10 65536 none (← takeChar ':' cs)
  if cs.isEmpty then some ⟨host, port⟩ else none

def decimal (n : Nat) : List Char := Nat.toDigits 10 n

def writeV4 (a b c d : Nat) : List Char :=
  decimal a ++ '.' :: decimal b ++ '.' :: decimal c ++ '.' :: decimal d

def joinGroups (groups : List Nat) : List Char :=
  (groups.map (Nat.toDigits 16)).intersperse [':'] |>.flatten

/-- Length of the run of zeros that a list starts with. -/
def zeroRun (groups : List Nat) : Nat := (groups.takeWhile (· == 0)).length

/-- Place and length of the first of the longest runs of zeros. -/
def longestZeros : Nat → List Nat → Nat × Nat
  | _, [] => (0, 0)
  | place, g :: rest =>
      let here := zeroRun (g :: rest)
      let later := longestZeros (place + 1) rest
      if later.2 ≤ here then (place, here) else later

/-- Groups in lower case, the longest run of two or more zeros left out; an address of the older
version that is mapped into the newer one keeps its usual form. -/
def writeV6 (groups : List Nat) : List Char :=
  match groups with
  | [0, 0, 0, 0, 0, 0xffff, g, h] =>
      "::ffff:".toList ++ writeV4 (g / 256) (g % 256) (h / 256) (h % 256)
  | _ =>
      let (start, length) := longestZeros 0 groups
      if 1 < length then
        joinGroups (groups.take start) ++ [':', ':'] ++ joinGroups (groups.drop (start + length))
      else joinGroups groups

def writeHost : Host → List Char
  | .v4 a b c d => writeV4 a b c d
  | .v6 groups scope =>
      '[' :: writeV6 groups ++ (if scope = 0 then [] else '%' :: decimal scope) ++ [']']

def write (a : SocketAddress) : String :=
  String.ofList (writeHost a.host ++ ':' :: decimal a.port)

/-- Port 8080 on this machine. -/
def localDefault : SocketAddress := ⟨.v4 127 0 0 1, 8080⟩

end SocketAddress

end ChatHub.Net
