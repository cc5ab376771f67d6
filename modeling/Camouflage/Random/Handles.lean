import Camouflage.Random.Source

/-!
# Handles on shared sources

A handle names a source; a copy of a handle names the same one. So what is drawn through one handle
is used up for all its copies, and a handle on another source notices nothing.
-/

namespace Camouflage

/-- Sources in use, and for each handle the place of its source. -/
structure Handles where
  sources : List Source
  places : List Nat

namespace Handles

def empty : Handles :=
  ⟨[], []⟩

/-- Adds a source with a handle on it; gives the handle. -/
def add (hs : Handles) (s : Source) : Nat × Handles :=
  (hs.places.length, ⟨hs.sources ++ [s], hs.places ++ [hs.sources.length]⟩)

/-- Adds a copy of a handle, if there is such a handle; gives the copy. -/
def copy (hs : Handles) (h : Nat) : Option (Nat × Handles) := do
  let place ← hs.places[h]?
  return (hs.places.length, { hs with places := hs.places ++ [place] })

/-- Draws through a handle, if there is such a handle and the draw does not give up. -/
def draw {α : Type} (hs : Handles) (h : Nat) (d : Draw α) : Option (α × Handles) := do
  let place ← hs.places[h]?
  let s ← hs.sources[place]?
  let (a, s') ← d.run s
  return (a, { hs with sources := hs.sources.set place s' })

end Handles

end Camouflage
