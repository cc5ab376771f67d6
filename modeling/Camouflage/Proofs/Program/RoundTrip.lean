import Camouflage.Program.Print
import Camouflage.Program.Standard
import Camouflage.Proofs.Program.Cut
import Camouflage.Proofs.Program.Version

/-!
# Writing programs and reading them again

A program is written as pieces, one for each segment, that are well-cut when the program is
`Printable`; so reading cuts what is written where it was put together. A program that has been
read is printable.

What is read has the builtins of the registry at hand, which need not be those of the program
written: `resolve` puts them in.
-/

namespace Camouflage

open Text

/-- An argument that can stand in the brackets of a call. -/
def PlainArgument (arg : String) : Prop :=
  trimmed arg = arg ∧ ∀ c ∈ arg.toList, c ≠ '$' ∧ c ≠ '(' ∧ c ≠ ')' ∧ c ≠ ','

instance (arg : String) : Decidable (PlainArgument arg) :=
  decidable_of_iff (trimmed arg = arg ∧
      arg.toList.all (fun c => c ≠ '$' ∧ c ≠ '(' ∧ c ≠ ')' ∧ c ≠ ',') = true) (by
    simp only [PlainArgument, List.all_eq_true, decide_eq_true_eq])

/-- A segment that is read again where it is written. The list of one empty argument is written
like the list of none. -/
def Segment.Printable (registry : Registry) : Segment → Prop
  | .literal text => text ≠ "" ∧ Program.MarkerFree text.toList
  | .call c => Program.IsIdentifier c.name.toList ∧ (registry.find? c.name).isSome = true ∧
    (∀ arg ∈ c.args, PlainArgument arg) ∧ c.args ≠ [""]

/-- A segment with the builtin that a registry has under its name. -/
def Segment.resolve (registry : Registry) : Segment → Segment
  | .literal text => .literal text
  | .call c => .call { c with builtin := (registry.find? c.name).getD c.builtin }

namespace Program

/-- A program that is read again where it is written. -/
structure Printable (registry : Registry) (p : Program) : Prop where
  segments : ∀ seg ∈ p.segments, seg.Printable registry
  apart : p.segments.IsChain Segment.Apart

/-- A program with the builtins that a registry has under their names. -/
def resolve (registry : Registry) (p : Program) : Program :=
  { p with segments := p.segments.map (Segment.resolve registry) }

/-! ## Arguments -/

theorem mem_intercalate {sep : List Char} {args : List (List Char)} {c : Char}
    (h : c ∈ sep.intercalate args) : c ∈ sep ∨ ∃ arg ∈ args, c ∈ arg := by
  induction args with
  | nil => cases h
  | cons a args ih =>
    cases args with
    | nil => exact .inr ⟨a, by simp, by simpa using h⟩
    | cons b args =>
      rw [List.intercalate_cons_cons, List.mem_append, List.mem_append] at h
      rcases h with (h | h) | h
      · exact .inr ⟨a, List.mem_cons_self, h⟩
      · exact .inl h
      · rcases ih h with h | ⟨arg, harg, h⟩
        · exact .inl h
        · exact .inr ⟨arg, List.mem_cons_of_mem a harg, h⟩

/-- Arguments joined by a comma and a blank are cut behind the comma. -/
theorem splitOn_intercalate_comma {a : List Char} {args : List (List Char)}
    (h : ∀ arg ∈ a :: args, ',' ∉ arg) :
    ([',', ' '].intercalate (a :: args)).splitOn ',' = a :: args.map (' ' :: ·) := by
  induction args generalizing a with
  | nil =>
    rw [List.intercalate_singleton, List.splitOn_eq_singleton (h a List.mem_cons_self)]
    rfl
  | cons b args ih =>
    have hjoin : [',', ' '].intercalate (a :: b :: args) =
        a ++ ',' :: (' ' :: [',', ' '].intercalate (b :: args)) := by
      rw [List.intercalate_cons_cons]
      simp
    rw [hjoin, List.splitOn_append_cons_self_of_not_mem (h a List.mem_cons_self),
      List.splitOn_cons_eq_if_modifyHead, ih fun arg harg => h arg (List.mem_cons_of_mem a harg)]
    rfl

theorem toList_intercalate_cons (a : String) (args : List String) :
    (String.intercalate ", " (a :: args)).toList =
      [',', ' '].intercalate (a.toList :: args.map String.toList) := by
  rw [String.toList_intercalate]
  rfl

/-- Joined arguments are blank only if there is none, or an empty one alone. -/
theorem trim_intercalate_ne_nil {a : String} {args : List String} (ha : trimmed a = a)
    (hne : a :: args ≠ [""]) :
    trim ([',', ' '].intercalate (a.toList :: args.map String.toList)) ≠ [] := by
  cases args with
  | nil =>
    rw [List.map_nil, List.intercalate_singleton, trimmed_eq_iff.1 ha]
    rintro hnil
    rw [String.toList_eq_nil_iff] at hnil
    exact hne (by rw [hnil])
  | cons b args =>
    rw [List.map_cons, List.intercalate_cons_cons, ne_eq, trim_eq_nil_iff]
    intro h
    exact absurd (h ',' (by simp)) (by decide)

/-- What is written in the brackets of a call is read again as the same arguments. -/
theorem splitArguments_intercalate {args : List String} (hargs : ∀ arg ∈ args, PlainArgument arg)
    (hne : args ≠ [""]) : splitArguments (String.intercalate ", " args).toList = args := by
  cases args with
  | nil => rfl
  | cons a args =>
    have hcomma : ∀ arg ∈ a.toList :: args.map String.toList, ',' ∉ arg := by
      rw [← List.map_cons, List.forall_mem_map]
      intro arg harg hmem
      exact ((hargs arg harg).2 ',' hmem).2.2.2 rfl
    have htrim : ∀ arg ∈ args, String.ofList (trim (' ' :: arg.toList)) = arg := by
      intro arg harg
      rw [trim_blank_cons rfl]
      exact (hargs arg (List.mem_cons_of_mem a harg)).1
    have ha := (hargs a List.mem_cons_self).1
    rw [toList_intercalate_cons, splitArguments, if_neg, splitAll_eq_splitOn,
      splitOn_intercalate_comma hcomma, List.map_cons, List.map_map, List.map_map]
    · have hmap := (List.map_congr_left htrim).trans (List.map_id args)
      exact congrArg₂ List.cons ha hmap
    · rw [List.isEmpty_iff]
      exact trim_intercalate_ne_nil ha hne

/-- Arguments that have been read can be written. -/
theorem plainArgument_of_mem_splitArguments {raw : List Char}
    (hraw : ∀ c ∈ raw, c ≠ '$' ∧ c ≠ '(' ∧ c ≠ ')') {arg : String}
    (harg : arg ∈ splitArguments raw) : PlainArgument arg := by
  unfold splitArguments at harg
  split at harg
  · cases harg
  · rw [splitAll_eq_splitOn, List.mem_map] at harg
    obtain ⟨piece, hpiece, rfl⟩ := harg
    refine ⟨by rw [trimmed_eq_iff, String.toList_ofList, trim_trim], ?_⟩
    intro c hc
    rw [String.toList_ofList] at hc
    obtain ⟨hmem, hcomma⟩ := of_mem_splitOn hpiece (mem_of_mem_trim hc)
    obtain ⟨hdollar, hopen, hclose⟩ := hraw c hmem
    exact ⟨hdollar, hopen, hclose, hcomma⟩

theorem splitArguments_ne_singleton_empty (raw : List Char) : splitArguments raw ≠ [""] := by
  unfold splitArguments
  split
  · simp
  · rename_i hblank
    rw [splitAll_eq_splitOn]
    intro h
    obtain ⟨piece, hpiece, hempty⟩ := List.map_eq_singleton_iff.1 h
    have hraw : [','].intercalate (raw.splitOn ',') = raw := List.intercalate_splitOn ','
    rw [hpiece, List.intercalate_singleton] at hraw
    rw [← hraw, ← String.toList_ofList (l := trim piece), hempty] at hblank
    exact hblank rfl

/-! ## Segments -/

/-- The piece that a segment is written as. -/
def written (registry : Registry) : Segment → Piece
  | .literal text => .text text.toList
  | .call c => .call c.name.toList (String.intercalate ", " c.args).toList
    ((registry.find? c.name).getD c.builtin)

section Written

variable {registry : Registry}

theorem spelled_written (seg : Segment) : (written registry seg).spelled = seg.text.toList := by
  cases seg with
  | literal text => rfl
  | call c => simp [written, Piece.spelled, Segment.text, Call.text]

theorem isLiteral_written (seg : Segment) :
    (written registry seg).segment.isLiteral = seg.isLiteral := by
  cases seg <;> rfl

theorem segment_written {seg : Segment} (h : seg.Printable registry) :
    (written registry seg).segment = seg.resolve registry := by
  cases seg with
  | literal text => simp [written, Piece.segment, Segment.resolve]
  | call c =>
    obtain ⟨-, -, hargs, hne⟩ := h
    simp [written, Piece.segment, Segment.resolve, -String.toList_intercalate,
      splitArguments_intercalate hargs hne]

theorem wellFormed_written {seg : Segment} (h : seg.Printable registry) :
    (written registry seg).WellFormed registry := by
  cases seg with
  | literal text => exact ⟨by simpa using h.1, h.2⟩
  | call c =>
    obtain ⟨hid, hfind, hargs, -⟩ := h
    obtain ⟨builtin, hbuiltin⟩ := Option.isSome_iff_exists.1 hfind
    refine ⟨hid, ?_, by rw [String.ofList_toList, hbuiltin]; rfl⟩
    intro d hd
    rw [String.toList_intercalate] at hd
    rcases mem_intercalate hd with hd | ⟨arg, harg, hd⟩
    · rcases List.mem_cons.1 hd with rfl | hd
      · decide
      · rw [List.mem_singleton.1 hd]
        decide
    · obtain ⟨a, ha, rfl⟩ := List.mem_map.1 harg
      obtain ⟨hdollar, hopen, hclose, -⟩ := (hargs a ha).2 d hd
      exact ⟨hdollar, hopen, hclose⟩

/-- A segment that has been read can be written, and has the builtin of the registry. -/
theorem Piece.WellFormed.printable {p : Piece} (h : p.WellFormed registry) :
    p.segment.Printable registry ∧ p.segment.resolve registry = p.segment := by
  cases p with
  | text cs =>
    obtain ⟨hne, hfree⟩ := h
    exact ⟨⟨by simpa using hne, by simpa using hfree⟩, rfl⟩
  | call name raw builtin =>
    obtain ⟨hid, hraw, hfind⟩ := h
    refine ⟨⟨by simpa using hid, by rw [hfind]; rfl, fun arg harg => ?_,
      splitArguments_ne_singleton_empty raw⟩, ?_⟩
    · exact plainArgument_of_mem_splitArguments hraw harg
    · simp [Piece.segment, Segment.resolve, hfind]

end Written

/-! ## Programs -/

section Programs

variable {registry : Registry} {p : Program}

theorem hasVersion_text (p : Program) :
    HasVersion p.text.toList p.minor.toNat (p.segments.flatMap fun seg => seg.text.toList) := by
  refine ⟨['1'], decimal p.minor.toNat, by decide, isNumeral_decimal _, p.minor.toNat_lt, ?_⟩
  simp [Program.text, List.flatMap_map]

theorem Printable.wellCut (h : Printable registry p) :
    WellCut registry (p.segments.map (written registry)) := by
  constructor
  · rw [List.forall_mem_map]
    exact fun seg hseg => wellFormed_written (h.segments seg hseg)
  · rw [List.isChain_map, List.isChain_map]
    refine h.apart.imp ?_
    intro a b hab
    rw [Segment.Apart, isLiteral_written, isLiteral_written]
    exact hab

theorem Printable.parse_text (h : Printable registry p) :
    parse registry p.text = .ok (p.resolve registry) := by
  rw [parse_eq_ok_iff]
  refine ⟨_, _, p.segments.map (written registry), hasVersion_text p, ?_, ?_⟩
  · rw [pieces_eq_ok_iff]
    refine ⟨h.wellCut, ?_⟩
    simp only [List.flatMap_map, spelled_written]
  · rw [UInt32.ofNat_toNat, List.map_map, resolve]
    congr 1
    apply List.map_congr_left
    intro seg hseg
    exact (segment_written (h.segments seg hseg)).symm

theorem printable_of_parse {text : String} (h : parse registry text = .ok p) :
    Printable registry p ∧ p.resolve registry = p := by
  obtain ⟨minor, body, ps, -, hpieces, rfl⟩ := parse_eq_ok_iff.1 h
  obtain ⟨hcut, -⟩ := pieces_eq_ok_iff.1 hpieces
  refine ⟨⟨?_, hcut.apart⟩, ?_⟩
  · rw [List.forall_mem_map]
    exact fun piece hpiece => (hcut.wellFormed piece hpiece).printable.1
  · rw [resolve, List.map_map]
    congr 1
    apply List.map_congr_left
    intro piece hpiece
    exact (hcut.wellFormed piece hpiece).printable.2

/-- **Reading undoes writing.** A printable program is read again where it is written, with the
builtins of the registry; every program that has been read is printable and has them already. -/
theorem parse_text_roundtrip (registry : Registry) :
    (∀ p, Printable registry p → parse registry p.text = .ok (p.resolve registry)) ∧
    ∀ text p, parse registry text = .ok p →
      Printable registry p ∧ p.resolve registry = p ∧ parse registry p.text = .ok p := by
  refine ⟨fun p h => h.parse_text, ?_⟩
  intro text p h
  obtain ⟨hprintable, hresolve⟩ := printable_of_parse h
  have hparse := hprintable.parse_text
  rw [hresolve] at hparse
  exact ⟨hprintable, hresolve, hparse⟩

/-- The blank second argument is kept, and so is the `$` before the marker. -/
theorem parse_text_roundtrip_hex : ∃ p : Program, p.text = "v1.7 a$$hex(00, )" ∧
    Printable Standard.registry p ∧
    parse Standard.registry p.text = .ok (p.resolve Standard.registry) := by
  let p : Program := ⟨7, [.literal "a$", .call ⟨"hex", ["00", ""], ⟨Standard.hex, none⟩⟩]⟩
  have hfree : Unmarked [] "a$".toList := ⟨rfl, rfl, trivial⟩
  have hp : Printable Standard.registry p := by
    refine ⟨?_, by simp [p, Segment.Apart, Segment.isLiteral]⟩
    simp only [p, List.forall_mem_cons]
    exact ⟨⟨by decide, hfree.markerFree⟩, ⟨by decide, rfl, by decide, by decide⟩, by simp⟩
  have htext : p.text = "v1.7 a$$hex(00, )" := by
    have hminor : decimal p.minor.toNat = ['7'] := by simp [p, decimal]
    rw [Program.text, hminor]
    rfl
  exact ⟨p, htext, hp, (parse_text_roundtrip Standard.registry).1 p hp⟩

end Programs

end Program

end Camouflage
