import ProofOfWork.Number.Decimal

/-! Hash rates, shown in the largest unit that keeps the number at or above one. -/
namespace ProofOfWork

/-- A span of time in whole seconds and nanoseconds. -/
structure Duration where
  seconds : Nat
  nanoseconds : Nat

namespace Duration

def nanosecondsPerSecond : Nat := 1000000000

/-- Seconds are counted in 64 bits. -/
def secondsLimit : Nat := 1 <<< 64

/-- Nanoseconds beyond a second are carried, unless the seconds run over. -/
def ofParts? (seconds nanoseconds : Nat) : Option Duration :=
  let carried := seconds + nanoseconds / nanosecondsPerSecond
  if carried < secondsLimit then some ⟨carried, nanoseconds % nanosecondsPerSecond⟩ else none

/-- Both parts are rounded before they are added. -/
def inSeconds (d : Duration) : Binary64 :=
  (Binary64.ofNat d.seconds).add
    ((Binary64.ofNat d.nanoseconds).div (Binary64.ofNat nanosecondsPerSecond))

end Duration

structure HashRate where
  hashes : Nat
  elapsed : Duration

namespace HashRate

/-- Zero when no time has passed. -/
def perSecond (r : HashRate) : Binary64 :=
  let seconds := r.elapsed.inSeconds
  if seconds.isZero then .zero else (Binary64.ofNat r.hashes).div seconds

def units : List String := ["kH/s", "MH/s", "GH/s", "TH/s"]

def thousand : Binary64 := .ofNat 1000

/-- Moves to larger units while the value allows it. -/
def scale (value : Binary64) (unit : String) : List String → Binary64 × String
  | [] => (value, unit)
  | next :: larger =>
    if thousand.le value then scale (value.div thousand) next larger else (value, unit)

def render (places : Nat) (r : HashRate) : String :=
  let (value, unit) := scale r.perSecond "H/s" units
  s!"{value.fixed places} {unit}"

/-- The greatest number of places that can be asked for. -/
def placesLimit : Nat := 0xFFFF

def render? (places : Nat) (r : HashRate) : Option String :=
  if places ≤ placesLimit then some (r.render places) else none

def defaultPlaces : Nat := 2

instance : ToString HashRate := ⟨render defaultPlaces⟩

end HashRate

end ProofOfWork
