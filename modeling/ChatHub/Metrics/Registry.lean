import ChatHub.Hub.State
import ChatHub.Metrics.Path
/-!
What the server counts and measures.
-/

namespace ChatHub.Metrics

/-- One child for each label set seen so far, in the order of their first appearance. -/
abbrev Family (κ α : Type) := List (κ × α)

/-- Changes the child of a label set, which starts as `fresh`. -/
def Family.adjust {κ α : Type} [DecidableEq κ] (f : α → α) (fresh : α) (key : κ) :
    Family κ α → Family κ α
  | [] => [(key, f fresh)]
  | (k, a) :: rest => if k = key then (k, f a) :: rest else (k, a) :: adjust f fresh key rest

/-- The child of a label set. -/
def Family.get? {κ α : Type} [DecidableEq κ] (key : κ) (fam : Family κ α) : Option α :=
  (fam.find? fun child => child.1 = key).map (·.2)

structure HttpLabels where
  method : String
  path : String
  status : Nat
deriving DecidableEq, Repr

/-- How often a value fell between two bounds, from the least on; the last count is of those above
all bounds but one, the greatest number there is. -/
structure Histogram where
  sum : Float
  count : Nat
  buckets : List Nat

/-- Upper bounds of the durations that are told apart, each twice the one before. -/
def durationBounds : List Float :=
  (List.range 16).map fun n => 0.001 * Float.ofNat (Nat.pow 2 n)

def Histogram.empty : Histogram := ⟨0, 0, List.replicate (durationBounds.length + 1) 0⟩

/-- The greatest finite number of 64 bits. -/
def greatest : Float := Float.ofBits 0x7FEFFFFFFFFFFFFF

/-- Adds one to the count of the first bound that is not below the value.  Infinity is above all
bounds, and what is no number is below none, so that neither is counted. -/
def countIn (x : Float) : List Float → List Nat → List Nat
  | bound :: bounds, n :: counts =>
      if x ≤ bound then (n + 1) :: counts else n :: countIn x bounds counts
  | _, counts => counts

def Histogram.observe (x : Float) (h : Histogram) : Histogram :=
  ⟨h.sum + x, h.count + 1, countIn x (durationBounds ++ [greatest]) h.buckets⟩

/-- Counts of all that is not above each bound, and at last of all that is finite. -/
def Histogram.cumulative (h : Histogram) : List Nat :=
  (h.buckets.foldl (fun (sums, total) n => (sums ++ [total + n], total + n)) ([], 0)).1

/-- The numbers that were read off the hub when it was last looked at. -/
structure Gauges where
  connections : Int
  voiceRooms : Int
  evicted : Int
  signalsRelayed : Int
  signalsDropped : Int
deriving DecidableEq, Repr

structure Registry where
  requests : Family HttpLabels Nat
  durations : Family HttpLabels Histogram
  /-- Requests being answered. -/
  inFlight : Int
  sessions : Nat
  rejected : Family String Nat
  commands : Family String Nat
  hub : Gauges

namespace Registry

def empty : Registry := ⟨[], [], 0, 0, [], [], ⟨0, 0, 0, 0, 0⟩⟩

def recordRequest (method path : String) (status : Nat) (seconds : Float) (r : Registry) :
    Registry :=
  let labels : HttpLabels := ⟨method, normalizePath path, status⟩
  { r with
    requests := Family.adjust (· + 1) 0 labels r.requests
    durations := Family.adjust (Histogram.observe seconds) .empty labels r.durations }

def recordCommand (command : String) (r : Registry) : Registry :=
  { r with commands := Family.adjust (· + 1) 0 command r.commands }

def recordRejection (reason : String) (r : Registry) : Registry :=
  { r with rejected := Family.adjust (· + 1) 0 reason r.rejected }

def recordSession (r : Registry) : Registry := { r with sessions := r.sessions + 1 }

/-- A count as a signed number of 64 bits. -/
def signed64 (n : Nat) : Int := Int.bmod n UInt64.size

def observeHub (s : Hub.Stats) (r : Registry) : Registry :=
  { r with hub :=
      ⟨signed64 s.currentConnections, signed64 s.activeRooms, signed64 s.evictedConnections,
        signed64 s.signalsRelayed, signed64 s.signalsDropped⟩ }

end Registry

end ChatHub.Metrics
