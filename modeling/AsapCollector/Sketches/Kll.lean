import AsapCollector.Sketches.Sum

/-! `sketches/kll.go`: the wrapper of the KLL sketch of `sketchlib-go`. It has no sparse delta: what it sends is the
whole sketch, and nothing for one that holds nothing. The library is a parameter, at a size that its constructor
accepts. -/

namespace AsapCollector.Sketches

structure KllLib (S : Type) where
  /-- `buildKLL`. -/
  new : S
  update : S → Float64 → S
  count : S → Nat
  size : S → Nat
  encode : S → Except String Bytes
  decode : Bytes → Except String S
  merge : S → S → Except String S

structure KLLWrapper (S : Type) where
  sk : S
  /-- The observations of the window, which `Reset` keeps. -/
  windowTotal : Nat := 0
  gosEpsilon : Float64 := ⟨0⟩
  gosWake : Bool := false

namespace KLLWrapper

section
variable {S : Type} (lib : KllLib S)

def new : KLLWrapper S := { sk := lib.new }

variable (w : KLLWrapper S)

def update (v : Float64) : KLLWrapper S :=
  let w := { w with sk := lib.update w.sk v, windowTotal := w.windowTotal + 1 }
  if Float64.lt ⟨0⟩ w.gosEpsilon &&
      (w.gosEpsilon.mul (Float64.ofInt w.windowTotal)).le (Float64.ofInt (lib.count w.sk)) then
    { w with gosWake := true }
  else w

def setGosMode (epsilon : Float64) : KLLWrapper S := { w with gosEpsilon := epsilon }

def observe (v : ObservationValue) : KLLWrapper S × Option String :=
  match v.kind with
  | .float => (w.update lib v.float, none)
  | kind => (w, some ("KLLObserver: unsupported value kind " ++ SumWrapper.kindText kind))

def snapshot : Except String (Option Bytes) :=
  if lib.size w.sk = 0 then .ok none
  else ((lib.encode w.sk).mapError ("kll.SerializePortableRawF64: " ++ ·)).map some

def computeDeltaAgainst : Except String (Option Bytes × Bool) :=
  (w.snapshot lib).map fun full => (full, true)

def merge (other : S) : KLLWrapper S × Option String :=
  match lib.merge w.sk other with
  | .error e => (w, some e)
  | .ok sk => ({ w with sk }, none)

def applyDelta (payload : Bytes) : KLLWrapper S × Option String :=
  if payload.isEmpty then (w, none)
  else
    match lib.decode payload with
    | .error e => (w, some ("kll.DeserializeKLLSketchFromProtoBytes: " ++ e))
    | .ok other => w.merge lib other

def reset : KLLWrapper S := { w with sk := lib.new, gosWake := false }

end

end KLLWrapper

def kllFamily {S : Type} (lib : KllLib S) (factory : KLLWrapper S) : SketchImpl (KLLWrapper S) where
  factory
  observe w v := w.observe lib v
  snapshot w := w.snapshot lib
  computeDeltaAgainst w _ _ := (w, w.computeDeltaAgainst lib)
  applyDelta w payload := w.applyDelta lib payload
  merge w other := w.merge lib other.sk
  reset w := w.reset lib
  setGosMode w epsilon _ := w.setGosMode epsilon

end AsapCollector.Sketches
