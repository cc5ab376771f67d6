import Camouflage.Program.Parse
import Camouflage.Proofs.Text.Cuts
import Mathlib.Data.List.Chain

/-!
# Bodies and their pieces

A body is cut in one way only. `WellCut` says what the pieces have to be like, each on its own and
next to each other; `pieces_eq_ok_iff` says that cutting gives exactly the pieces that are so and
that, put together, are the body.

A literal is free of markers on its own, while the scan looks for markers in all that follows. No
marker reaches across the end of a literal, because a call begins with `$`, which is neither part
of an identifier nor a bracket (`MarkerFree.unmarked`).
-/

namespace Camouflage

/-- Of two neighbours at most one is literal text. -/
def Segment.Apart (a b : Segment) : Prop :=
  a.isLiteral = false ∨ b.isLiteral = false

namespace Program

open Text

/-! ## Markers -/

/-- A letter, then letters, digits and underscores, all of ASCII. -/
def IsIdentifier : List Char → Prop
  | [] => False
  | c :: cs => c.isAlpha = true ∧ ∀ d ∈ cs, d.isAlphanum = true ∨ d = '_'

/-- There is no `$`, identifier and opening bracket in a text. -/
def MarkerFree (cs : List Char) : Prop :=
  ∀ before name behind, IsIdentifier name → cs ≠ before ++ '$' :: (name ++ '(' :: behind)

theorem isIdentifierPart_iff {c : Char} :
    isIdentifierPart c = true ↔ c.isAlphanum = true ∨ c = '_' := by
  simp [isIdentifierPart]

instance : DecidablePred IsIdentifier
  | [] => .isFalse id
  | c :: cs => decidable_of_iff (c.isAlpha = true ∧ cs.all isIdentifierPart = true) (by
      simp only [IsIdentifier, List.all_eq_true, isIdentifierPart_iff])

theorem IsIdentifier.part_of_mem {name : List Char} (h : IsIdentifier name) {c : Char}
    (hc : c ∈ name) : isIdentifierPart c = true := by
  cases name with
  | nil => exact h.elim
  | cons d ds =>
    obtain ⟨hd, hds⟩ := h
    rcases List.mem_cons.1 hc with rfl | hc
    · exact isIdentifierPart_iff.2 (.inl (by simp [Char.isAlphanum, hd]))
    · exact isIdentifierPart_iff.2 (hds c hc)

theorem marker?_append {name : List Char} (h : IsIdentifier name) (behind : List Char) :
    marker? ('$' :: (name ++ '(' :: behind)) = some (name, behind) := by
  cases name with
  | nil => exact h.elim
  | cons c cs =>
    obtain ⟨hc, hcs⟩ := h
    have hparts : ∀ d ∈ cs, isIdentifierPart d = true :=
      fun d hd => isIdentifierPart_iff.2 (hcs d hd)
    have hstop : isIdentifierPart '(' = false := by decide
    simp only [List.cons_append, marker?, identifier?, hc, ↓reduceIte,
      List.takeWhile_append_of_pos hparts, List.dropWhile_append_of_pos hparts,
      List.takeWhile_cons_of_neg (ne_true_of_eq_false hstop),
      List.dropWhile_cons_of_neg (ne_true_of_eq_false hstop), List.append_nil]

/-- A marker is read exactly where one is written. -/
theorem marker?_eq_some_iff {cs name behind : List Char} :
    marker? cs = some (name, behind) ↔
      IsIdentifier name ∧ cs = '$' :: (name ++ '(' :: behind) := by
  constructor
  · intro h
    unfold marker? at h
    split at h
    · rename_i tail
      split at h
      · rename_i n rest hid
        simp only [Option.some.injEq, Prod.mk.injEq] at h
        obtain ⟨rfl, rfl⟩ := h
        unfold identifier? at hid
        split at hid
        · cases hid
        · rename_i c cs
          split at hid
          · rename_i hc
            simp only [Option.some.injEq, Prod.mk.injEq] at hid
            obtain ⟨rfl, hrest⟩ := hid
            refine ⟨⟨hc, fun d hd => isIdentifierPart_iff.1 (List.mem_takeWhile_imp hd)⟩, ?_⟩
            rw [← hrest]
            simp
          · cases hid
      · cases h
    · cases h
  · rintro ⟨hid, rfl⟩
    exact marker?_append hid behind

/-! ## Literal text in front of something -/

/-- No marker begins within a text when `rest` follows it. -/
def Unmarked (rest : List Char) : List Char → Prop
  | [] => True
  | c :: cs => marker? (c :: cs ++ rest) = none ∧ Unmarked rest cs

theorem Unmarked.concat {rest cs : List Char} {c : Char} (h : Unmarked (c :: rest) cs)
    (hc : marker? (c :: rest) = none) : Unmarked rest (cs ++ [c]) := by
  induction cs with
  | nil => exact ⟨hc, trivial⟩
  | cons d ds ih =>
    refine ⟨?_, ih h.2⟩
    have hd := h.1
    simpa using hd

theorem Unmarked.markerFree {rest cs : List Char} (h : Unmarked rest cs) : MarkerFree cs := by
  induction cs with
  | nil =>
    intro before name behind _ hcs
    simp at hcs
  | cons c cs ih =>
    intro before name behind hid hcs
    cases before with
    | nil =>
      have hmark := marker?_append hid (behind ++ rest)
      have hnone := h.1
      rw [hcs] at hnone
      simp only [List.nil_append, List.cons_append, List.append_assoc] at hnone
      rw [hmark] at hnone
      cases hnone
    | cons d before =>
      obtain ⟨rfl, rfl⟩ := List.cons.inj hcs
      exact ih h.2 before name behind hid rfl

/-- A marker that begins in a text ends in it if nothing or a `$` follows the text. -/
theorem exists_append_of_marker {cs rest name behind : List Char} (hid : IsIdentifier name)
    (hrest : rest = [] ∨ ∃ tail, rest = '$' :: tail) (hcs : cs ≠ [])
    (h : cs ++ rest = '$' :: (name ++ '(' :: behind)) :
    ∃ inner, cs = '$' :: (name ++ '(' :: inner) := by
  have hwhole : cs ++ rest = ('$' :: (name ++ ['('])) ++ behind := by
    rw [h]
    simp
  rcases List.append_eq_append_iff.1 hwhole with ⟨mid, hmark, htail⟩ | ⟨mid, rfl, -⟩
  · cases mid with
    | nil => exact ⟨[], by simpa using hmark.symm⟩
    | cons m mid =>
      -- the text ends within the marker, so the next character of the marker would be `$`
      have hm : m = '$' := by
        rcases hrest with rfl | ⟨tail, rfl⟩
        · cases htail
        · exact (List.cons.inj htail).1.symm
      obtain ⟨c, cs, rfl⟩ := List.exists_cons_of_ne_nil hcs
      have hmem : '$' ∈ name ++ ['('] := by
        rw [(List.cons.inj hmark).2, hm]
        simp
      rcases List.mem_append.1 hmem with hmem | hmem
      · exact absurd (hid.part_of_mem hmem) (by decide)
      · simp at hmem
  · exact ⟨mid, by simp⟩

theorem MarkerFree.unmarked {rest cs : List Char} (h : MarkerFree cs)
    (hrest : rest = [] ∨ ∃ tail, rest = '$' :: tail) : Unmarked rest cs := by
  induction cs with
  | nil => trivial
  | cons c cs ih =>
    constructor
    · cases hm : marker? (c :: cs ++ rest) with
      | none => rfl
      | some found =>
        obtain ⟨name, behind⟩ := found
        obtain ⟨hid, heq⟩ := marker?_eq_some_iff.1 hm
        obtain ⟨inner, hinner⟩ := exists_append_of_marker hid hrest (List.cons_ne_nil c cs) heq
        exact absurd hinner (h [] name inner hid)
    · apply ih
      rintro before name behind hid rfl
      exact h (c :: before) name behind hid rfl

/-! ## Pieces -/

/-- What a piece is like on its own. -/
def Piece.WellFormed (registry : Registry) : Piece → Prop
  | .text cs => cs ≠ [] ∧ MarkerFree cs
  | .call name raw builtin => IsIdentifier name ∧ (∀ c ∈ raw, c ≠ '$' ∧ c ≠ '(' ∧ c ≠ ')') ∧
    registry.find? (String.ofList name) = some builtin

/-- What the pieces of a body are like. -/
structure WellCut (registry : Registry) (ps : List Piece) : Prop where
  wellFormed : ∀ p ∈ ps, p.WellFormed registry
  apart : (ps.map Piece.segment).IsChain Segment.Apart

theorem spelled_call_append (name raw : List Char) (builtin : Builtin) (rest : List Char) :
    (Piece.call name raw builtin).spelled ++ rest =
      '$' :: (name ++ '(' :: (raw ++ ')' :: rest)) := by
  simp [Piece.spelled]

/-- Pieces that do not begin with literal text. -/
def StartsCall (ps : List Piece) : Prop :=
  ∀ p ∈ ps.head?, p.segment.isLiteral = false

theorem StartsCall.spelled {ps : List Piece} (h : StartsCall ps) :
    ps.flatMap Piece.spelled = [] ∨ ∃ tail, ps.flatMap Piece.spelled = '$' :: tail := by
  cases ps with
  | nil => exact .inl rfl
  | cons p ps =>
    cases p with
    | text cs => exact absurd (h _ rfl) (by simp [Piece.segment, Segment.isLiteral])
    | call name raw builtin =>
      refine .inr ⟨name ++ '(' :: (raw ++ ')' :: ps.flatMap Piece.spelled), ?_⟩
      rw [List.flatMap_cons, spelled_call_append]

section WellCut

variable {registry : Registry} {ps : List Piece}

theorem wellCut_nil : WellCut registry [] :=
  ⟨by simp, List.isChain_nil⟩

theorem wellCut_text_cons {cs : List Char} : WellCut registry (.text cs :: ps) ↔
    (Piece.text cs).WellFormed registry ∧ StartsCall ps ∧ WellCut registry ps := by
  constructor
  · rintro ⟨hform, hapart⟩
    rw [List.map_cons, List.isChain_cons] at hapart
    refine ⟨hform _ List.mem_cons_self, ?_, fun p hp => hform p (List.mem_cons_of_mem _ hp),
      hapart.2⟩
    intro p hp
    rcases hapart.1 p.segment (by simpa using ⟨p, hp, rfl⟩) with h | h
    · cases h
    · exact h
  · rintro ⟨htext, hstart, hform, hapart⟩
    refine ⟨List.forall_mem_cons.2 ⟨htext, hform⟩, ?_⟩
    rw [List.map_cons, List.isChain_cons]
    refine ⟨?_, hapart⟩
    intro seg hseg
    rw [List.head?_map, Option.mem_def, Option.map_eq_some_iff] at hseg
    obtain ⟨p, hp, rfl⟩ := hseg
    exact .inr (hstart p hp)

theorem wellCut_call_cons {name raw : List Char} {builtin : Builtin} :
    WellCut registry (.call name raw builtin :: ps) ↔
      (Piece.call name raw builtin).WellFormed registry ∧ WellCut registry ps := by
  constructor
  · rintro ⟨hform, hapart⟩
    rw [List.map_cons, List.isChain_cons] at hapart
    exact ⟨hform _ List.mem_cons_self, fun p hp => hform p (List.mem_cons_of_mem _ hp), hapart.2⟩
  · rintro ⟨hcall, hform, hapart⟩
    refine ⟨List.forall_mem_cons.2 ⟨hcall, hform⟩, ?_⟩
    rw [List.map_cons, List.isChain_cons]
    exact ⟨fun _ _ => .inl rfl, hapart⟩

end WellCut

/-! ## Cutting -/

section Scan

variable {registry : Registry} {acc result : List Piece} {literal : List Char}

theorem scan_nil : scan registry acc literal [] = .ok (closeText literal acc).reverse := by
  rw [scan]

theorem scan_skip {c : Char} {rest : List Char} (h : marker? (c :: rest) = none) :
    scan registry acc literal (c :: rest) = scan registry acc (c :: literal) rest := by
  rw [scan]
  split
  · rfl
  · rename_i hm
    rw [h] at hm
    cases hm

/-- The scan takes text in which no marker begins to its literal. -/
theorem scan_append {cs rest : List Char} (h : Unmarked rest cs) :
    scan registry acc literal (cs ++ rest) = scan registry acc (cs.reverse ++ literal) rest := by
  induction cs generalizing literal with
  | nil => rfl
  | cons c cs ih =>
    have hc : marker? (c :: (cs ++ rest)) = none := h.1
    rw [List.cons_append, scan_skip hc, ih h.2]
    simp

/-- What the scan does at a marker. -/
theorem scan_marker {c : Char} {rest name behind : List Char}
    (h : marker? (c :: rest) = some (name, behind)) : scan registry acc literal (c :: rest) =
      match splitFirst ')' behind with
      | none => .error (.unterminated (String.ofList name))
      | some (raw, tail) =>
        if raw.any opensCall then .error (.nested (String.ofList name))
        else match registry.find? (String.ofList name) with
          | none => .error (.unknownBuiltin (String.ofList name))
          | some builtin =>
            scan registry (.call name raw builtin :: closeText literal acc) [] tail := by
  rw [scan]
  split
  · rename_i hm
    rw [h] at hm
    cases hm
  · rename_i name' behind' hm
    rw [h, Option.some.injEq, Prod.mk.injEq] at hm
    obtain ⟨rfl, rfl⟩ := hm
    cases splitFirst ')' behind <;> rfl

theorem any_opensCall_eq_false_iff {raw : List Char} :
    raw.any opensCall = false ↔ ∀ c ∈ raw, c ≠ '$' ∧ c ≠ '(' := by
  simp [opensCall]

/-- The scan takes a call as it is written to its pieces. -/
theorem scan_call {name raw : List Char} {builtin : Builtin}
    (h : (Piece.call name raw builtin).WellFormed registry) (rest : List Char) :
    scan registry acc literal ((Piece.call name raw builtin).spelled ++ rest) =
      scan registry (.call name raw builtin :: closeText literal acc) [] rest := by
  obtain ⟨hid, hraw, hfind⟩ := h
  have hclose : splitFirst ')' (raw ++ ')' :: rest) = some (raw, rest) :=
    splitFirst_append (fun hmem => (hraw ')' hmem).2.2 rfl) rest
  have hopens : raw.any opensCall = false :=
    any_opensCall_eq_false_iff.2 fun c hc => ⟨(hraw c hc).1, (hraw c hc).2.1⟩
  rw [spelled_call_append, scan_marker (marker?_append hid (raw ++ ')' :: rest)), hclose]
  simp only [hopens, hfind]
  rfl

/-- Pieces as they should be are found again, and the text before them is closed. -/
theorem scan_spelled {ps : List Piece} (hps : WellCut registry ps)
    (hliteral : literal = [] ∨ StartsCall ps) :
    scan registry acc literal (ps.flatMap Piece.spelled) =
      .ok ((closeText literal acc).reverse ++ ps) := by
  induction ps generalizing acc literal with
  | nil => rw [List.flatMap_nil, scan_nil, List.append_nil]
  | cons p ps ih =>
    rw [List.flatMap_cons]
    cases p with
    | text cs =>
      obtain rfl : literal = [] := by
        rcases hliteral with h | h
        · exact h
        · exact absurd (h _ rfl) (by simp [Piece.segment, Segment.isLiteral])
      obtain ⟨⟨hne, hfree⟩, hstart, htail⟩ := wellCut_text_cons.1 hps
      rw [Piece.spelled, scan_append (hfree.unmarked hstart.spelled), List.append_nil,
        ih htail (.inr hstart)]
      simp [closeText, hne]
    | call name raw builtin =>
      obtain ⟨hcall, htail⟩ := wellCut_call_cons.1 hps
      rw [scan_call hcall, ih htail (.inl rfl)]
      simp [closeText]

theorem reverse_closeText (literal : List Char) (acc : List Piece) :
    (closeText literal acc).reverse = acc.reverse ++ (closeText literal []).reverse := by
  unfold closeText
  split <;> simp

/-- Closing literal text in which no marker begins keeps pieces as they should be. -/
theorem WellCut.close {ps : List Piece} (hps : WellCut registry ps) (hstart : StartsCall ps)
    (hliteral : Unmarked (ps.flatMap Piece.spelled) literal.reverse) :
    WellCut registry ((closeText literal []).reverse ++ ps) ∧
      ((closeText literal []).reverse ++ ps).flatMap Piece.spelled =
        literal.reverse ++ ps.flatMap Piece.spelled := by
  cases literal with
  | nil => exact ⟨hps, rfl⟩
  | cons c literal =>
    refine ⟨wellCut_text_cons.2 ⟨⟨by simp, hliteral.markerFree⟩, hstart, hps⟩, ?_⟩
    simp [closeText, Piece.spelled]

/-- What the scan adds to its pieces is as it should be and spells what was left. -/
theorem exists_wellCut_of_scan {body : List Char}
    (hscan : scan registry acc literal body = .ok result)
    (hliteral : Unmarked body literal.reverse) :
    ∃ ps, result = acc.reverse ++ ps ∧ WellCut registry ps ∧
      ps.flatMap Piece.spelled = literal.reverse ++ body := by
  induction acc, literal, body using scan.induct registry with
  | case1 acc literal =>
    rw [scan_nil, reverse_closeText] at hscan
    have hnil : WellCut registry [] := wellCut_nil
    have hstart : StartsCall [] := by simp [StartsCall]
    obtain ⟨hcut, hspelled⟩ := hnil.close hstart hliteral
    refine ⟨_, (Except.ok.inj hscan).symm, ?_, ?_⟩
    · simpa using hcut
    · simpa using hspelled
  | case2 acc literal c rest hm ih =>
    rw [scan_skip hm] at hscan
    obtain ⟨ps, rfl, hcut, hspelled⟩ := ih hscan (by
      rw [List.reverse_cons]
      exact hliteral.concat hm)
    exact ⟨ps, rfl, hcut, by simpa using hspelled⟩
  | case3 acc literal c rest name behind hm hs =>
    rw [scan_marker hm, hs] at hscan
    cases hscan
  | case4 acc literal c rest name behind hm raw tail hs hopens =>
    rw [scan_marker hm, hs] at hscan
    simp [hopens] at hscan
  | case5 acc literal c rest name behind hm raw tail hs hopens hfind =>
    rw [scan_marker hm, hs] at hscan
    simp [hopens, hfind] at hscan
  | case6 acc literal c rest name behind hm raw tail hs hopens builtin hfind ih =>
    rw [scan_marker hm, hs] at hscan
    simp only [hopens, hfind] at hscan
    obtain ⟨hid, hbody⟩ := marker?_eq_some_iff.1 hm
    obtain ⟨hclose, rfl⟩ := splitFirst_eq_some_iff.1 hs
    have hraw := any_opensCall_eq_false_iff.1 (Bool.eq_false_iff.2 hopens)
    have hform : (Piece.call name raw builtin).WellFormed registry := by
      refine ⟨hid, fun d hd => ⟨(hraw d hd).1, (hraw d hd).2, ?_⟩, hfind⟩
      rintro rfl
      exact hclose hd
    obtain ⟨ps, rfl, hcut, hspelled⟩ := ih hscan trivial
    have hwhole : (Piece.call name raw builtin :: ps).flatMap Piece.spelled = c :: rest := by
      rw [List.flatMap_cons, hspelled, hbody, ← spelled_call_append name raw builtin tail]
      rfl
    rw [← hwhole] at hliteral ⊢
    obtain ⟨hcut', hspelled'⟩ := (wellCut_call_cons.2 ⟨hform, hcut⟩).close
      (by simp [StartsCall, Piece.segment, Segment.isLiteral]) hliteral
    refine ⟨_, ?_, hcut', hspelled'⟩
    rw [List.reverse_cons, reverse_closeText]
    simp

/-- **Cutting, from both sides.** A body is cut to the only well-cut pieces that spell it, and it
fails to be cut exactly if there are none. -/
theorem pieces_eq_ok_iff {body : List Char} {ps : List Piece} :
    pieces registry body = .ok ps ↔ WellCut registry ps ∧ ps.flatMap Piece.spelled = body := by
  constructor
  · intro h
    obtain ⟨tail, rfl, hcut, hspelled⟩ := exists_wellCut_of_scan h trivial
    exact ⟨hcut, hspelled⟩
  · rintro ⟨hcut, rfl⟩
    exact scan_spelled hcut (.inl rfl)

end Scan

end Program

end Camouflage
