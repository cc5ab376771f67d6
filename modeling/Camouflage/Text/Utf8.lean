import Camouflage.Bytes

/-!
# UTF-8

Texts become bytes through core's encoder. Bytes become text through a machine that reads one byte
at a time and emits pieces: a character, or a run of bytes that no character can begin with or
continue. An invalid run is as long as it can be while still being the beginning of a character,
and the byte that breaks it is read again from the start; that is the maximal-subpart rule.

Lossy reading shows each invalid run as U+FFFD; strict reading fails at the first one and says
where it starts.
-/

namespace Camouflage.Text

/-- The UTF-8 form of a list of characters. -/
def encodeUtf8 (cs : List Char) : Bytes :=
  cs.flatMap String.utf8EncodeChar

def utf8 (s : String) : Bytes :=
  encodeUtf8 s.toList

@[simp] theorem encodeUtf8_nil : encodeUtf8 [] = [] := rfl

@[simp] theorem encodeUtf8_append (cs ds : List Char) :
    encodeUtf8 (cs ++ ds) = encodeUtf8 cs ++ encodeUtf8 ds := by
  simp [encodeUtf8]

namespace Utf8

/-- A character that has begun: the bits and the bytes read so far, how many continuation bytes
are still owed, and the range the next one has to lie in. -/
structure Begun where
  bits : Nat
  seen : Nat
  owed : Nat
  low : UInt8
  high : UInt8
  deriving DecidableEq, Repr

/-- What the machine emits. -/
inductive Piece where
  | char (c : Char)
  /-- An invalid run of so many bytes, ended by a byte that cannot continue it. -/
  | bad (size : Nat)
  /-- The bytes end inside a character. -/
  | cut
  deriving DecidableEq, Repr

/-- Reads a byte between characters. -/
def first (b : UInt8) : Piece ⊕ Begun :=
  if b < 0x80 then .inl (.char (Char.ofNat b.toNat))
  else if 0xC2 ≤ b && b ≤ 0xDF then .inr ⟨b.toNat - 0xC0, 1, 1, 0x80, 0xBF⟩
  else if b == 0xE0 then .inr ⟨0, 1, 2, 0xA0, 0xBF⟩
  else if b == 0xED then .inr ⟨0xD, 1, 2, 0x80, 0x9F⟩
  else if 0xE1 ≤ b && b ≤ 0xEF then .inr ⟨b.toNat - 0xE0, 1, 2, 0x80, 0xBF⟩
  else if b == 0xF0 then .inr ⟨0, 1, 3, 0x90, 0xBF⟩
  else if 0xF1 ≤ b && b ≤ 0xF3 then .inr ⟨b.toNat - 0xF0, 1, 3, 0x80, 0xBF⟩
  else if b == 0xF4 then .inr ⟨4, 1, 3, 0x80, 0x8F⟩
  else .inl (.bad 1)

/-- Where the machine stands: between characters, or inside one. -/
abbrev State := Option Begun

/-- Reads a byte between characters and says what was emitted. -/
def start (b : UInt8) : List Piece × State :=
  match first b with
  | .inl p => ([p], none)
  | .inr g => ([], some g)

def step : State → UInt8 → List Piece × State
  | none, b => start b
  | some g, b =>
    if g.low ≤ b && b ≤ g.high then
      let bits := g.bits * 64 + (b.toNat - 0x80)
      if g.owed ≤ 1 then ([.char (Char.ofNat bits)], none)
      else ([], some ⟨bits, g.seen + 1, g.owed - 1, 0x80, 0xBF⟩)
    else
      let (ps, st) := start b
      (.bad g.seen :: ps, st)

/-- What is emitted when the bytes end. -/
def finish : State → List Piece
  | none => []
  | some _ => [.cut]

/-- The pieces of the bytes left, from a state; `emitted` holds the earlier ones, last first. -/
def run (emitted : List Piece) : State → Bytes → List Piece
  | st, [] => emitted.reverse ++ finish st
  | st, b :: bs =>
    let (ps, st') := step st b
    run (ps.reverse ++ emitted) st' bs

def pieces (bs : Bytes) : List Piece :=
  run [] none bs

/-- How a piece is shown when reading lossily. -/
def Piece.shown : Piece → Char
  | .char c => c
  | .bad _ => '\uFFFD'
  | .cut => '\uFFFD'

/-- Why bytes are not UTF-8, and the index of the byte where the trouble starts. -/
inductive Fault where
  /-- A run of `size` bytes that is no beginning of a character any more. -/
  | invalid (size index : Nat)
  /-- The bytes end inside the character that begins at `index`. -/
  | incomplete (index : Nat)
  deriving DecidableEq, Repr

def Fault.message : Fault → String
  | .invalid size index => s!"invalid utf-8 sequence of {size} bytes from index {index}"
  | .incomplete index => s!"incomplete utf-8 byte sequence from index {index}"

/-- The characters of some pieces, if none of them is faulty; `index` counts the bytes before and
`done` holds the earlier characters, last first. -/
def collect (index : Nat) (done : List Char) : List Piece → Except Fault (List Char)
  | [] => .ok done.reverse
  | .char c :: ps => collect (index + (String.utf8EncodeChar c).length) (c :: done) ps
  | .bad size :: _ => .error (.invalid size index)
  | .cut :: _ => .error (.incomplete index)

end Utf8

/-- The text of a byte string, each invalid run shown as U+FFFD. -/
def decodeLossy (bs : Bytes) : List Char :=
  (Utf8.pieces bs).map Utf8.Piece.shown

/-- The text of a byte string, if it is valid UTF-8. -/
def decodeUtf8 (bs : Bytes) : Except Utf8.Fault (List Char) :=
  Utf8.collect 0 [] (Utf8.pieces bs)

namespace Utf8

/-- Earlier pieces are only carried along. -/
theorem run_eq (emitted : List Piece) (st : State) (bs : Bytes) :
    run emitted st bs = emitted.reverse ++ run [] st bs := by
  induction bs generalizing emitted st with
  | nil => simp [run]
  | cons b bs ih =>
    simp only [run]
    rw [ih, ih ((step st b).1.reverse ++ [])]
    simp

end Utf8

end Camouflage.Text
