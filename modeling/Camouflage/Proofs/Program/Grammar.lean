import Camouflage.Program.Standard
import Camouflage.Proofs.Program.Cut
import Camouflage.Proofs.Program.Version
import Camouflage.Proofs.Text.Utf8

/-!
# Which texts are programs

The grammar is stated on bytes: a marker is looked for at one byte after the other, and behind a
call the search goes on after its closing bracket (`Met`). A body is a program's exactly if every
marker met is that of a proper call (`Callable`).

All the bytes that decide are ASCII, so what is found among the bytes is found among the
characters, and nothing is cut within a character (`markerAt_encodeUtf8`).
-/

namespace Camouflage.Program

open Text

/-- At the front of some bytes there are `$`, an identifier and `(`, and then `behind`. -/
def MarkerAt (name : List Char) (behind bs : Bytes) : Prop :=
  IsIdentifier name ∧ bs = 0x24 :: (encodeUtf8 name ++ 0x28 :: behind)

/-- The markers that are met from left to right, with what stands behind each. -/
inductive Met : Bytes → List Char → Bytes → Prop
  /-- The marker at the front is met. -/
  | here {name behind bs} (h : MarkerAt name behind bs) : Met bs name behind
  /-- A byte at which there is no marker is passed over. -/
  | skip {b bs name behind} (hb : ∀ n r, ¬ MarkerAt n r (b :: bs)) (h : Met bs name behind) :
    Met (b :: bs) name behind
  /-- Behind a marker the search goes on after the first `)`. -/
  | resume {n raw tail bs name behind} (hbs : MarkerAt n (raw ++ 0x29 :: tail) bs)
    (hraw : 0x29 ∉ raw) (h : Met tail name behind) : Met bs name behind

/-- Behind a marker there is a `)`, neither `$` nor `(` stands before the first one, and the name
is registered. -/
def Callable (registry : Registry) (name : List Char) (behind : Bytes) : Prop :=
  ∃ raw tail, behind = raw ++ 0x29 :: tail ∧ (0x29 ∉ raw ∧ 0x24 ∉ raw ∧ 0x28 ∉ raw) ∧
    (registry.find? (String.ofList name)).isSome = true

/-! ## Markers among bytes and among characters -/

theorem encodeUtf8_dollar (cs : List Char) : encodeUtf8 ('$' :: cs) = 0x24 :: encodeUtf8 cs :=
  rfl

theorem encodeUtf8_marker (name behind : List Char) :
    encodeUtf8 ('$' :: (name ++ '(' :: behind)) =
      0x24 :: (encodeUtf8 name ++ 0x28 :: encodeUtf8 behind) := by
  rw [encodeUtf8_dollar, encodeUtf8_append]
  rfl

theorem encodeUtf8_close (raw tail : List Char) :
    encodeUtf8 (raw ++ ')' :: tail) = encodeUtf8 raw ++ 0x29 :: encodeUtf8 tail := by
  rw [encodeUtf8_append]
  rfl

/-- In an encoded text a marker stands where it does in the text. -/
theorem markerAt_encodeUtf8 {name cs : List Char} {behind : Bytes} :
    MarkerAt name behind (encodeUtf8 cs) ↔
      ∃ rest, marker? cs = some (name, rest) ∧ behind = encodeUtf8 rest := by
  constructor
  · rintro ⟨hid, hbytes⟩
    have hfront : encodeUtf8 cs = encodeUtf8 ('$' :: (name ++ '(' :: [])) ++ behind := by
      rw [hbytes, encodeUtf8_marker]
      simp
    obtain ⟨rest, rfl, rfl⟩ := eq_append_of_encodeUtf8_append hfront
    refine ⟨rest, ?_, rfl⟩
    rw [marker?_eq_some_iff]
    exact ⟨hid, by simp⟩
  · rintro ⟨rest, hmark, rfl⟩
    obtain ⟨hid, rfl⟩ := marker?_eq_some_iff.1 hmark
    exact ⟨hid, encodeUtf8_marker name rest⟩

theorem not_markerAt_of_ne {n : List Char} {r bs : Bytes} {b : UInt8} (hb : b ≠ 0x24) :
    ¬ MarkerAt n r (b :: bs) := by
  rintro ⟨-, h⟩
  exact hb (List.cons.inj h).1

theorem not_met_nil {name : List Char} {behind : Bytes} : ¬ Met [] name behind := by
  intro h
  cases h with
  | here h => cases h.2
  | resume h _ _ => cases h.2

theorem met_skip_iff {b : UInt8} {bs behind : Bytes} {name : List Char}
    (hb : ∀ n r, ¬ MarkerAt n r (b :: bs)) : Met (b :: bs) name behind ↔ Met bs name behind := by
  constructor
  · intro h
    cases h with
    | here h => exact absurd h (hb _ _)
    | skip _ h => exact h
    | resume h _ _ => exact absurd h (hb _ _)
  · exact .skip hb

theorem met_append_iff {bs rest behind : Bytes} {name : List Char} (hbs : 0x24 ∉ bs) :
    Met (bs ++ rest) name behind ↔ Met rest name behind := by
  induction bs with
  | nil => rfl
  | cons b bs ih =>
    rw [List.mem_cons, not_or] at hbs
    rw [List.cons_append, met_skip_iff fun _ _ => not_markerAt_of_ne (Ne.symm hbs.1), ih hbs.2]

/-- A character at which no marker begins is passed over with all its bytes. -/
theorem met_cons_iff {c : Char} {cs name : List Char} {behind : Bytes}
    (h : marker? (c :: cs) = none) :
    Met (encodeUtf8 (c :: cs)) name behind ↔ Met (encodeUtf8 cs) name behind := by
  by_cases hc : c = '$'
  · subst hc
    rw [encodeUtf8_dollar]
    apply met_skip_iff
    intro n r hmark
    rw [← encodeUtf8_dollar] at hmark
    obtain ⟨rest, hsome, -⟩ := markerAt_encodeUtf8.1 hmark
    rw [h] at hsome
    cases hsome
  · apply met_append_iff
    intro hmem
    exact hc (eq_of_mem_encodeChar (c := '$') (by decide) hmem)

/-- The bytes before and behind the first `)` are those of the text before and behind it. -/
theorem splitFirst_encodeUtf8_iff {cs : List Char} {raw tail : Bytes} :
    (0x29 ∉ raw ∧ encodeUtf8 cs = raw ++ 0x29 :: tail) ↔
      ∃ front back, splitFirst ')' cs = some (front, back) ∧ raw = encodeUtf8 front ∧
        tail = encodeUtf8 back := by
  have hascii : ')'.toNat < 0x80 := by decide
  constructor
  · rintro ⟨hraw, hbytes⟩
    obtain ⟨front, back, rfl, rfl, rfl⟩ := eq_append_of_encodeUtf8_eq hascii hbytes
    refine ⟨front, back, splitFirst_append ?_ back, rfl, rfl⟩
    intro hmem
    exact hraw ((mem_encodeUtf8_ascii hascii).2 hmem)
  · rintro ⟨front, back, hsplit, rfl, rfl⟩
    obtain ⟨hfront, rfl⟩ := splitFirst_eq_some_iff.1 hsplit
    refine ⟨?_, encodeUtf8_close front back⟩
    intro hmem
    exact hfront ((mem_encodeUtf8_ascii hascii).1 hmem)

theorem any_opensCall_encodeUtf8_iff {raw : List Char} :
    (0x24 ∉ encodeUtf8 raw ∧ 0x28 ∉ encodeUtf8 raw) ↔ raw.any opensCall = false := by
  have hdollar : 0x24 ∈ encodeUtf8 raw ↔ '$' ∈ raw := mem_encodeUtf8_ascii (c := '$') (by decide)
  have hopen : 0x28 ∈ encodeUtf8 raw ↔ '(' ∈ raw := mem_encodeUtf8_ascii (c := '(') (by decide)
  rw [hdollar, hopen, any_opensCall_eq_false_iff]
  constructor
  · rintro ⟨hdollar, hopen⟩ c hc
    refine ⟨?_, ?_⟩
    · rintro rfl
      exact hdollar hc
    · rintro rfl
      exact hopen hc
  · intro h
    exact ⟨fun hmem => (h _ hmem).1 rfl, fun hmem => (h _ hmem).2 rfl⟩

/-- At a call the marker is met, and then what is met behind the call. -/
theorem met_call_iff {cs n after raw tail name : List Char} {behind : Bytes}
    (hm : marker? cs = some (n, after)) (hs : splitFirst ')' after = some (raw, tail)) :
    Met (encodeUtf8 cs) name behind ↔
      (name = n ∧ behind = encodeUtf8 after) ∨ Met (encodeUtf8 tail) name behind := by
  have hhere : MarkerAt n (encodeUtf8 after) (encodeUtf8 cs) :=
    markerAt_encodeUtf8.2 ⟨after, hm, rfl⟩
  have hsame : ∀ {n' r}, MarkerAt n' r (encodeUtf8 cs) → n' = n ∧ r = encodeUtf8 after := by
    intro n' r hmark
    obtain ⟨rest, hsome, rfl⟩ := markerAt_encodeUtf8.1 hmark
    rw [hm, Option.some.injEq, Prod.mk.injEq] at hsome
    obtain ⟨rfl, rfl⟩ := hsome
    exact ⟨rfl, rfl⟩
  constructor
  · intro hmet
    generalize encodeUtf8 cs = bs at hmet hhere hsame
    cases hmet with
    | here hmark => exact .inl (hsame hmark)
    | skip hb _ => exact absurd hhere (hb _ _)
    | resume hmark hclose hmet =>
      -- both cuts are at the first closing bracket
      obtain ⟨rfl, hcut⟩ := hsame hmark
      obtain ⟨front, back, hsplit, rfl, rfl⟩ := splitFirst_encodeUtf8_iff.1 ⟨hclose, hcut.symm⟩
      rw [hs, Option.some.injEq, Prod.mk.injEq] at hsplit
      obtain ⟨rfl, rfl⟩ := hsplit
      exact .inr hmet
  · rintro (⟨rfl, rfl⟩ | hmet)
    · exact .here hhere
    · obtain ⟨hclose, hbytes⟩ := splitFirst_encodeUtf8_iff.2 ⟨raw, tail, hs, rfl, rfl⟩
      rw [hbytes] at hhere
      exact .resume hhere hclose hmet

/-- A proper call is one that is proper among the characters. -/
theorem callable_encodeUtf8 {registry : Registry} {name behind : List Char} :
    Callable registry name (encodeUtf8 behind) ↔
      ∃ raw tail, splitFirst ')' behind = some (raw, tail) ∧ raw.any opensCall = false ∧
        ∃ builtin, registry.find? (String.ofList name) = some builtin := by
  constructor
  · rintro ⟨raw, tail, hcut, ⟨hclose, hopens⟩, hfind⟩
    obtain ⟨front, back, hsplit, rfl, rfl⟩ := splitFirst_encodeUtf8_iff.1 ⟨hclose, hcut⟩
    exact ⟨front, back, hsplit, any_opensCall_encodeUtf8_iff.1 hopens,
      Option.isSome_iff_exists.1 hfind⟩
  · rintro ⟨raw, tail, hsplit, hopens, hfind⟩
    obtain ⟨hclose, hcut⟩ := splitFirst_encodeUtf8_iff.2 ⟨raw, tail, hsplit, rfl, rfl⟩
    exact ⟨encodeUtf8 raw, encodeUtf8 tail, hcut,
      ⟨hclose, any_opensCall_encodeUtf8_iff.2 hopens⟩, Option.isSome_iff_exists.2 hfind⟩

/-! ## Which bodies can be cut -/

theorem callable_of_met {registry : Registry} {cs name behind : List Char}
    (hm : marker? cs = some (name, behind))
    (hall : ∀ n r, Met (encodeUtf8 cs) n r → Callable registry n r) :
    ∃ raw tail, splitFirst ')' behind = some (raw, tail) ∧ raw.any opensCall = false ∧
      ∃ builtin, registry.find? (String.ofList name) = some builtin := by
  have hhere : MarkerAt name (encodeUtf8 behind) (encodeUtf8 cs) :=
    markerAt_encodeUtf8.2 ⟨behind, hm, rfl⟩
  exact callable_encodeUtf8.1 (hall name _ (.here hhere))

/-- The scan succeeds exactly if every marker met in what is left is that of a proper call. -/
theorem exists_scan_iff {registry : Registry} {acc : List Piece} {literal body : List Char} :
    (∃ result, scan registry acc literal body = .ok result) ↔
      ∀ name behind, Met (encodeUtf8 body) name behind → Callable registry name behind := by
  induction acc, literal, body using scan.induct registry with
  | case1 acc literal =>
    refine ⟨fun _ name behind h => absurd h not_met_nil, fun _ => ⟨_, scan_nil⟩⟩
  | case2 acc literal c rest hm ih =>
    rw [scan_skip hm, ih]
    simp only [met_cons_iff hm]
  | case3 acc literal c rest name behind hm hs =>
    rw [scan_marker hm, hs]
    constructor
    · rintro ⟨_, h⟩
      cases h
    · intro hall
      obtain ⟨raw, tail, hsplit, -⟩ := callable_of_met hm hall
      rw [hs] at hsplit
      cases hsplit
  | case4 acc literal c rest name behind hm raw tail hs hopens =>
    rw [scan_marker hm, hs]
    simp only [hopens, ↓reduceIte]
    constructor
    · rintro ⟨_, h⟩
      cases h
    · intro hall
      obtain ⟨raw', tail', hsplit, hopens', -⟩ := callable_of_met hm hall
      rw [hs, Option.some.injEq, Prod.mk.injEq] at hsplit
      obtain ⟨rfl, rfl⟩ := hsplit
      rw [hopens] at hopens'
      cases hopens'
  | case5 acc literal c rest name behind hm raw tail hs hopens hfind =>
    rw [scan_marker hm, hs]
    simp only [hopens, hfind]
    constructor
    · rintro ⟨_, h⟩
      cases h
    · intro hall
      obtain ⟨-, -, -, -, builtin, hfind'⟩ := callable_of_met hm hall
      rw [hfind] at hfind'
      cases hfind'
  | case6 acc literal c rest name behind hm raw tail hs hopens builtin hfind ih =>
    have hscan : scan registry acc literal (c :: rest) =
        scan registry (.call name raw builtin :: closeText literal acc) [] tail := by
      rw [scan_marker hm, hs]
      simp only [hopens, hfind]
      rfl
    have hcall : Callable registry name (encodeUtf8 behind) :=
      callable_encodeUtf8.2 ⟨raw, tail, hs, Bool.eq_false_iff.2 hopens, builtin, hfind⟩
    rw [hscan, ih]
    constructor
    · intro hall n r hmet
      rcases (met_call_iff hm hs).1 hmet with ⟨rfl, rfl⟩ | hmet
      · exact hcall
      · exact hall n r hmet
    · intro hall n r hmet
      exact hall n r ((met_call_iff hm hs).2 (.inr hmet))

/-! ## What a program keeps of its text -/

/-- The arguments in the brackets of a call: none if there are only blanks, and else what stands
between the commas, without the blanks around it. -/
def HasArguments (raw : List Char) (args : List String) : Prop :=
  ((∀ c ∈ raw, isBlank c = true) ∧ args = []) ∨
    ((∃ c ∈ raw, isBlank c = false) ∧
      args = (raw.splitOn ',').map fun piece => String.ofList (trim piece))

/-- The bytes that a segment was read from. A call may have been written in several ways. -/
inductive Spells (registry : Registry) : Segment → Bytes → Prop
  | literal {text : String} (hne : text ≠ "") (hfree : MarkerFree text.toList) :
    Spells registry (.literal text) (utf8 text)
  | call {c : Call} {raw : List Char} (hid : IsIdentifier c.name.toList)
    (hraw : ∀ d ∈ raw, d ≠ '$' ∧ d ≠ '(' ∧ d ≠ ')') (hargs : HasArguments raw c.args)
    (hbuiltin : registry.find? c.name = some c.builtin) :
    Spells registry (.call c) (0x24 :: (utf8 c.name ++ 0x28 :: (encodeUtf8 raw ++ [0x29])))

theorem hasArguments_splitArguments (raw : List Char) :
    HasArguments raw (splitArguments raw) := by
  unfold splitArguments
  split
  · rename_i h
    exact .inl ⟨trim_eq_nil_iff.1 (List.isEmpty_iff.1 h), rfl⟩
  · rename_i h
    refine .inr ⟨?_, by rw [splitAll_eq_splitOn]⟩
    rw [List.isEmpty_iff, trim_eq_nil_iff] at h
    simpa using h

theorem Piece.WellFormed.spells {registry : Registry} {p : Piece} (h : p.WellFormed registry) :
    Spells registry p.segment (encodeUtf8 p.spelled) := by
  cases p with
  | text cs =>
    obtain ⟨hne, hfree⟩ := h
    have htext : encodeUtf8 cs = utf8 (String.ofList cs) := by simp [utf8]
    rw [Piece.spelled, htext]
    refine .literal ?_ (by simpa using hfree)
    simpa using hne
  | call name raw builtin =>
    obtain ⟨hid, hraw, hfind⟩ := h
    have hbytes : encodeUtf8 (Piece.call name raw builtin).spelled =
        0x24 :: (utf8 (String.ofList name) ++ 0x28 :: (encodeUtf8 raw ++ [0x29])) := by
      have hspelled := spelled_call_append name raw builtin []
      rw [List.append_nil] at hspelled
      rw [hspelled, encodeUtf8_marker, encodeUtf8_close, utf8, String.toList_ofList]
      rfl
    rw [hbytes]
    exact .call (by simpa using hid) hraw (hasArguments_splitArguments raw) hfind

/-- **The grammar.** A text is a program's exactly if it has the version and every marker met in
its body is that of a proper call; all else is a fault of the text. The segments of a program
spell its body byte for byte. -/
theorem parse_grammar (registry : Registry) (text : String) :
    ((∃ p, parse registry text = .ok p) ↔
      ∃ minor body, HasVersion text.toList minor body ∧
        ∀ name behind, Met (encodeUtf8 body) name behind → Callable registry name behind) ∧
    (∀ f, parse registry text = .error f → f.fault.kind = .parse) ∧
    ∀ p, parse registry text = .ok p →
      ∃ minor body spelled, HasVersion text.toList minor body ∧ p.version = (1, minor) ∧
        List.Forall₂ (Spells registry) p.segments spelled ∧
        spelled.flatten = encodeUtf8 body ∧ p.segments.IsChain Segment.Apart := by
  refine ⟨?_, fun _ _ => rfl, ?_⟩
  · constructor
    · rintro ⟨p, h⟩
      obtain ⟨minor, body, ps, hversion, hpieces, -⟩ := parse_eq_ok_iff.1 h
      exact ⟨minor, body, hversion, exists_scan_iff.1 ⟨ps, hpieces⟩⟩
    · rintro ⟨minor, body, hversion, hall⟩
      obtain ⟨ps, hpieces⟩ := exists_scan_iff.2 hall
      exact ⟨_, parse_eq_ok_iff.2 ⟨minor, body, ps, hversion, hpieces, rfl⟩⟩
  · intro p h
    obtain ⟨minor, body, ps, hversion, hpieces, rfl⟩ := parse_eq_ok_iff.1 h
    obtain ⟨hcut, rfl⟩ := pieces_eq_ok_iff.1 hpieces
    refine ⟨minor, _, ps.map fun piece => encodeUtf8 piece.spelled, hversion, ?_, ?_, ?_,
      hcut.apart⟩
    · rw [version, hversion.toNat_minor]
    · rw [List.forall₂_map_left_iff, List.forall₂_map_right_iff, List.forall₂_same]
      exact fun piece hpiece => (hcut.wellFormed piece hpiece).spells
    · rw [← List.flatMap_def]
      simp only [encodeUtf8, List.flatMap_assoc]

/-- A `$` of no marker is text, and the call behind it is found. -/
theorem parse_grammar_dollar_hex : ∃ p minor body spelled,
    parse Standard.registry "v1.0 $$hex(00)" = .ok p ∧
      HasVersion "v1.0 $$hex(00)".toList minor body ∧ p.version = (1, minor) ∧
      List.Forall₂ (Spells Standard.registry) p.segments spelled ∧
      spelled.flatten = encodeUtf8 body ∧ p.segments.IsChain Segment.Apart := by
  obtain ⟨hiff, -, hkept⟩ := parse_grammar Standard.registry "v1.0 $$hex(00)"
  have hversion : HasVersion "v1.0 $$hex(00)".toList 0 ('$' :: "$hex(00)".toList) :=
    ⟨['1'], ['0'], by decide, by decide, by decide, rfl⟩
  have hmark : marker? "$hex(00)".toList = some ("hex".toList, "00".toList ++ ')' :: []) := rfl
  have hall : ∀ name behind, Met (encodeUtf8 ('$' :: "$hex(00)".toList)) name behind →
      Callable Standard.registry name behind := by
    intro name behind hmet
    rw [met_cons_iff rfl, met_call_iff hmark rfl] at hmet
    rcases hmet with ⟨rfl, rfl⟩ | hmet
    · exact callable_encodeUtf8.2 ⟨"00".toList, [], rfl, rfl, _, rfl⟩
    · exact absurd hmet not_met_nil
  obtain ⟨p, hp⟩ := hiff.2 ⟨0, _, hversion, hall⟩
  obtain ⟨minor, body, spelled, hkept⟩ := hkept p hp
  exact ⟨p, minor, body, spelled, hp, hkept⟩

end Camouflage.Program
