import Camouflage.Random.KeyStream

/-!
# Random sources and draws

A source is an endless stream of words of which some have been taken. A draw takes words and gives
a value. Everything random in the program is a draw, so a run is a function of its source, and two
runs on the same source differ only by the words taken in between.

Some draws throw words away until one fits. No stream is known to hold one that fits, so such a draw
gives up after `patience` words, and a draw that has given up has no value. `patience` is a whole
period of the key stream: on a seeded source a draw that has given up would never have ended.
-/

namespace Camouflage

/-- A stream of words of which `taken` have been used up. -/
structure Source where
  word : Nat → UInt32
  taken : Nat

namespace Source

def ofKey (key : KeyStream.Key) : Source :=
  ⟨KeyStream.word key, 0⟩

def ofSeed (seed : UInt64) : Source :=
  ofKey (KeyStream.Key.ofSeed seed)

/-- The source with `n` more words used up. -/
def advance (s : Source) (n : Nat) : Source :=
  { s with taken := s.taken + n }

/-- The next `n` words. -/
def peek (s : Source) (n : Nat) : List UInt32 :=
  (List.range n).map fun i => s.word (s.taken + i)

@[simp] theorem length_peek (s : Source) (n : Nat) : (s.peek n).length = n := by
  simp [peek]

end Source

/-- A computation that takes words from a source; it may give up. -/
abbrev Draw := StateT Source Option

namespace Draw

def giveUp {α : Type} : Draw α :=
  fun _ => none

/-- How many words a draw may throw away: one period of the key stream. -/
def patience : Nat := 16 * wordSpan * wordSpan

def words (n : Nat) : Draw (List UInt32) :=
  fun s => some (s.peek n, s.advance n)

def word : Draw UInt32 :=
  fun s => some (s.word s.taken, s.advance 1)

/-- The next word as a number, or, if it has to be wide, the next two as one number, the low half
first. -/
def number (wide : Bool) : Draw Nat :=
  if wide then do
    let low ← word
    let high ← word
    return low.toNat + high.toNat * wordSpan
  else do return (← word).toNat

/-- Takes up to `tries` words, until `accept` gives a value. -/
def search {α : Type} (accept : UInt32 → Option α) : Nat → Draw α
  | 0 => giveUp
  | tries + 1 => do
    match accept (← word) with
    | some a => return a
    | none => search accept tries

/-- `n` draws one after the other. -/
def times {α : Type} (d : Draw α) : Nat → Draw (List α)
  | 0 => return []
  | n + 1 => do
    let a ← d
    let rest ← times d n
    return a :: rest

/-- `n` bytes, four from each word, the low one first. What is left of the last word is lost. -/
def bytes (n : Nat) : Draw Bytes := do
  return ((← words ((n + 3) / 4)).flatMap Bytes.ofWord).take n

/-- A number from `least` to `most`, both included. The width of the draw is the narrowest of 32
and 64 bits that holds `most`. The draw is scaled to the span; if its low half could have
overflowed, a second draw decides whether it did. An empty or one-element range draws nothing. -/
def between (least most : Nat) : Draw Nat :=
  if most ≤ least then return least
  else
    let wide := decide (most ≥ wordSpan)
    let full := if wide then wordSpan * wordSpan else wordSpan
    let span := (most - least + 1) % full
    if span = 0 then number wide
    else do
      let product := (← number wide) * span
      let high := product / full
      let low := product % full
      if low > full - span then
        let more := (← number wide) * span / full
        return least + (if low + more ≥ full then high + 1 else high)
      else return least + high

/-- Capital letters, small letters and digits. -/
def alphanumerics : Bytes :=
  "ABCDEFGHIJKLMNOPQRSTUVWXYZabcdefghijklmnopqrstuvwxyz0123456789".toList.map
    fun c => UInt8.ofNat c.toNat

/-- The number of words that share their six highest bits. -/
def sextetSpan : Nat := 67108864

/-- One letter or digit: the first word whose six highest bits are below 62 picks it. -/
def alphanumeric : Draw UInt8 :=
  search (fun w =>
    let v := w.toNat / sextetSpan
    if v < 62 then some (alphanumerics.getD v 0) else none) patience

/-- An index below `size`, every index equally likely: words that would favour the lower indices
are thrown away. -/
def index (size : Nat) : Draw Nat :=
  search (fun w =>
    let product := w.toNat * size
    if product % wordSpan ≥ wordSpan % size then some (product / wordSpan) else none) patience

/-- `n` bytes picked from an alphabet; none from an empty one. -/
def chooseFrom (alphabet : Bytes) (n : Nat) : Draw Bytes :=
  match alphabet with
  | [] => return []
  | _ => times (do return alphabet.getD (← index alphabet.length) 0) n

/-- Bytes are never refused, and there are as many as were asked for. -/
theorem run_bytes (n : Nat) (s : Source) :
    (bytes n).run s =
      some (((s.peek ((n + 3) / 4)).flatMap Bytes.ofWord).take n, s.advance ((n + 3) / 4)) :=
  rfl

end Draw

end Camouflage
