import Camouflage.Random.Source

/-!
# Placeholder targets

The dialer never names a real destination. Each dial asks for a placeholder: a random label of
letters in front of the configured base name. A fixed name would be easy to recognise.
-/

namespace Camouflage.Placeholder

/-- The small letters, then the capital ones. -/
def letters : Bytes :=
  "abcdefghijklmnopqrstuvwxyzABCDEFGHIJKLMNOPQRSTUVWXYZ".toList.map fun c => UInt8.ofNat c.toNat

def minLabel : Nat := 2

def maxLabel : Nat := 22

/-- The service number of every placeholder: that of web servers. -/
def serviceNumber : Nat := 443

def label : Draw String := do
  let n ← Draw.between minLabel maxLabel
  return String.ofList ((← Draw.chooseFrom letters n).map fun b => Char.ofNat b.toNat)

/-- The placeholder with a given label. -/
def withLabel (label base : String) : String :=
  label ++ "." ++ base ++ ":" ++ toString serviceNumber

def fresh (base : String) : Draw String := do
  return withLabel (← label) base

end Camouflage.Placeholder
