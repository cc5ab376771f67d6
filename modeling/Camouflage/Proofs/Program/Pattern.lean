import Camouflage.Program.Standard
import Camouflage.Proofs.Outcome
import Camouflage.Proofs.Program.Length
import Camouflage.Proofs.Random.Returns
import Camouflage.Proofs.Text.Hex
import Camouflage.Proofs.Text.Numeral

/-!
# The patterns of programs

The text of a standard call tells which bytes it may give, or that it gives none: it has a pattern
exactly if it is well-formed (`Call.wellFormed_iff`). A run of one segment comes out accordingly,
whatever is drawn (`Segment.outcome_of_run_produce`), and a run of all of them goes on as long as
what has been made fits. So luck decides on the bytes of a prefix, and on whether there is one only
where the longest parts would not fit together (`run_evaluate_of_parse`).
-/

namespace Camouflage

open Text

/-- A text that says a length: digits, with or without a `+` in front. -/
def IsLength (text : String) (n : Nat) : Prop :=
  ∃ ds, IsNumeral ds n ∧ (text.toList = ds ∨ text.toList = '+' :: ds)

/-- Two arguments that say a range of lengths within the limit of a call. -/
def AreBounds (args : List String) (least most : Nat) : Prop :=
  ∃ a b, args = [a, b] ∧ IsLength a least ∧ IsLength b most ∧ least ≤ most ∧
    most ≤ maxBuiltinOutput

/-- The bytes that a segment may make. -/
inductive Pattern where
  | constant (bs : Bytes)
  | bytes (least most : Nat)
  | letters (least most : Nat)

namespace Pattern

def Admits : Pattern → Bytes → Prop
  | .constant bs, out => out = bs
  | .bytes least most, out => least ≤ out.length ∧ out.length ≤ most
  | .letters least most, out => least ≤ out.length ∧ out.length ≤ most ∧
    ∀ b ∈ out, (Char.ofNat b.toNat).isAlphanum = true

/-- The length of the longest bytes that a pattern admits. -/
def most : Pattern → Nat
  | .constant bs => bs.length
  | .bytes _ most => most
  | .letters _ most => most

theorem Admits.length_le {pattern : Pattern} {out : Bytes} (h : pattern.Admits out) :
    out.length ≤ pattern.most := by
  cases pattern with
  | constant bs =>
    rw [h]
    exact Nat.le_refl _
  | bytes least most => exact h.2
  | letters least most => exact h.2.1

end Pattern

/-- How something comes out that may have a pattern: bytes that the pattern admits, or a failure if
there is none. -/
inductive Outcome {ε : Type} (has : Pattern → Prop) : Except ε Bytes → Prop
  | made {pattern : Pattern} {out : Bytes} : has pattern → pattern.Admits out →
    Outcome has (.ok out)
  | failed {e : ε} : (∀ pattern, ¬ has pattern) → Outcome has (.error e)

theorem Outcome.mapError {ε ε' : Type} {has : Pattern → Prop} {r : Except ε Bytes}
    (h : Outcome has r) (f : ε → ε') : Outcome has (r.mapError f) := by
  cases h with
  | made hpattern hadmits => exact .made hpattern hadmits
  | failed hnone => exact .failed hnone

theorem Outcome.of_iff {ε : Type} {has has' : Pattern → Prop} {r : Except ε Bytes}
    (h : Outcome has r) (hiff : ∀ pattern, has' pattern ↔ has pattern) : Outcome has' r := by
  cases h with
  | made hpattern hadmits => exact .made ((hiff _).2 hpattern) hadmits
  | failed hnone => exact .failed fun pattern hpattern => hnone pattern ((hiff pattern).1 hpattern)

/-- What a call of a standard builtin gives, by its text. -/
inductive Call.HasPattern (c : Call) : Pattern → Prop
  | bytes {least most : Nat} : c.name = "random_bytes" → AreBounds c.args least most →
    HasPattern c (.bytes least most)
  | letters {least most : Nat} : c.name = "random_string" → AreBounds c.args least most →
    HasPattern c (.letters least most)
  | hex {digits : String} {bs : Bytes} : c.name = "hex" → c.args = [digits] →
    Hex.Spells digits.toList bs → bs.length ≤ maxBuiltinOutput → HasPattern c (.constant bs)

/-- A call whose text keeps the rules of its builtin. -/
def Call.WellFormed (c : Call) : Prop :=
  ((c.name = "random_bytes" ∨ c.name = "random_string") ∧
    ∃ least most, AreBounds c.args least most) ∨
  (c.name = "hex" ∧ ∃ digits, c.args = [digits] ∧ digits.length % 2 = 0 ∧
    (∀ d ∈ digits.toList, Hex.IsDigit d) ∧ digits.length ≤ 2 * maxBuiltinOutput)

def Segment.HasPattern : Segment → Pattern → Prop
  | .literal text, pattern => pattern = .constant (utf8 text)
  | .call c, pattern => c.HasPattern pattern

/-- A call has a pattern exactly if it is well-formed. -/
theorem Call.wellFormed_iff {c : Call} : c.WellFormed ↔ ∃ pattern, c.HasPattern pattern := by
  constructor
  · rintro (⟨hname | hname, least, most, hbounds⟩ | ⟨hname, digits, hargs, heven, hdigits, hle⟩)
    · exact ⟨_, .bytes hname hbounds⟩
    · exact ⟨_, .letters hname hbounds⟩
    · rw [← String.length_toList] at heven hle
      obtain ⟨bs, hbs⟩ := Hex.exists_spells heven hdigits
      rw [hbs.length] at hle
      exact ⟨_, .hex hname hargs hbs (by omega)⟩
  · rintro ⟨pattern, hpattern⟩
    cases hpattern with
    | bytes hname hbounds => exact .inl ⟨.inl hname, _, _, hbounds⟩
    | letters hname hbounds => exact .inl ⟨.inr hname, _, _, hbounds⟩
    | hex hname hargs hbs hle =>
      obtain ⟨heven, hdigits⟩ := Hex.exists_spells_iff.1 ⟨_, hbs⟩
      refine .inr ⟨hname, _, hargs, heven, hdigits, ?_⟩
      rw [← String.length_toList, hbs.length]
      omega

/-! ## Arguments -/

namespace Standard

theorem readLength_eq_ok_iff {index n : Nat} {given : String} :
    readLength index given = .ok n ↔ IsLength given n ∧ n ≤ max64 := by
  have hread : readLength index given = .ok n ↔ readCount given = .ok n := by
    unfold readLength
    cases readCount given <;> simp
  rw [hread, readCount, readNat_eq_ok_iff_exists, IsLength]
  constructor
  · rintro ⟨ds, hds, hn, hgiven⟩
    exact ⟨⟨ds, hds, hgiven⟩, hn⟩
  · rintro ⟨⟨ds, hds, hgiven⟩, hn⟩
    exact ⟨ds, hds, hn, hgiven⟩

theorem lengthBounds_eq_ok_iff {args : List String} {least most : Nat} :
    lengthBounds args = .ok (least, most) ↔ AreBounds args least most := by
  have hlimit : maxBuiltinOutput ≤ max64 := by decide
  constructor
  · intro h
    unfold lengthBounds at h
    split at h
    · rename_i a b
      obtain ⟨x, hx, h⟩ := bind_eq_ok_iff.1 h
      obtain ⟨y, hy, h⟩ := bind_eq_ok_iff.1 h
      dsimp only at h
      split at h
      · obtain ⟨-, h, -⟩ := bind_eq_ok_iff.1 h
        cases h
      · rename_i hle
        split at h
        · obtain ⟨-, h, -⟩ := bind_eq_ok_iff.1 h
          cases h
        · rename_i hmost
          obtain ⟨rfl, rfl⟩ := Prod.mk.inj (Except.ok.inj h)
          exact ⟨a, b, rfl, (readLength_eq_ok_iff.1 hx).1, (readLength_eq_ok_iff.1 hy).1,
            Nat.not_lt.1 hle, Nat.not_lt.1 hmost⟩
    · cases h
  · rintro ⟨a, b, rfl, ha, hb, hle, hmost⟩
    have hleast : readLength 0 a = .ok least := readLength_eq_ok_iff.2 ⟨ha, by omega⟩
    have hmost' : readLength 1 b = .ok most := readLength_eq_ok_iff.2 ⟨hb, by omega⟩
    refine bind_eq_ok_iff.2 ⟨least, hleast, bind_eq_ok_iff.2 ⟨most, hmost', ?_⟩⟩
    dsimp only
    rw [if_neg (Nat.not_lt.2 hle), if_neg (Nat.not_lt.2 hmost)]
    rfl

theorem hexBytes_eq_ok_iff {args : List String} {bs : Bytes} :
    hexBytes args = .ok bs ↔
      ∃ digits, args = [digits] ∧ Hex.Spells digits.toList bs ∧ bs.length ≤ maxBuiltinOutput := by
  constructor
  · intro h
    unfold hexBytes at h
    split at h
    · rename_i digits
      split at h
      · cases h
      · rename_i hlength
        split at h
        · rename_i decoded hdecoded
          obtain rfl := Except.ok.inj h
          refine ⟨digits, rfl, Hex.decodeText_eq_ok_iff.1 hdecoded, ?_⟩
          rw [Hex.length_of_decodeText hdecoded]
          exact Nat.not_lt.1 hlength
        · cases h
    · cases h
  · rintro ⟨digits, rfl, hbs, hle⟩
    have hdecoded := Hex.decodeText_eq_ok_iff.2 hbs
    rw [Hex.length_of_decodeText hdecoded] at hle
    simp only [hexBytes, if_neg (Nat.not_lt.2 hle), hdecoded]

/-! ## Builtins -/

/-- A call with bounds draws a length between them and fills it; without, it fails. -/
theorem outcome_of_run_sized {fill : Nat → Draw Bytes} {kind : Nat → Nat → Pattern}
    (hfill : ∀ {n s s' out}, (fill n).run s = some (out, s') →
      ∀ least most, least ≤ n → n ≤ most → (kind least most).Admits out)
    {args : List String} {s s' : Source} {r : Except String Bytes}
    (h : (sized fill args).run s = some (r, s')) :
    Outcome (fun pattern => ∃ least most, AreBounds args least most ∧ pattern = kind least most)
      r := by
  unfold sized at h
  split at h
  · rename_i fault hfault
    obtain ⟨rfl, -⟩ := Draw.run_pure_eq_some_iff.1 h
    refine .failed ?_
    rintro pattern ⟨least, most, hbounds, -⟩
    rw [lengthBounds_eq_ok_iff.2 hbounds] at hfault
    cases hfault
  · rename_i least most hbounds
    have hbounds := lengthBounds_eq_ok_iff.1 hbounds
    have ⟨_, _, _, _, _, hle, hmost⟩ := hbounds
    obtain ⟨n, t, hn, h⟩ := Draw.run_bind_eq_some_iff.1 h
    obtain ⟨out, t', hout, h⟩ := Draw.run_bind_eq_some_iff.1 h
    obtain ⟨rfl, rfl⟩ := Draw.run_pure_eq_some_iff.1 h
    have hspan : most < wordSpan * wordSpan := Nat.lt_of_le_of_lt hmost (by decide)
    obtain ⟨hleast, hn⟩ := Draw.mem_of_run_between hle hspan hn
    exact .made ⟨least, most, hbounds, rfl⟩ (hfill hout least most hleast hn)

/-- The bytes that a call of `hex` spells, if it spells any. -/
theorem outcome_of_run_hex {args : List String} {s s' : Source} {r : Except String Bytes}
    (h : (hex args).run s = some (r, s')) :
    Outcome (fun pattern => ∃ bs, hexBytes args = .ok bs ∧ pattern = .constant bs) r := by
  obtain ⟨rfl, -⟩ := Draw.run_pure_eq_some_iff.1 h
  refine Outcome.mapError ?_ CallFault.reason
  cases hbytes : hexBytes args with
  | ok out => exact .made ⟨out, rfl, rfl⟩ rfl
  | error fault =>
    refine .failed ?_
    rintro pattern ⟨bs, hok, -⟩
    cases hok

theorem admits_bytes {n : Nat} {s s' : Source} {out : Bytes}
    (h : (Draw.bytes n).run s = some (out, s')) (least most : Nat) (hleast : least ≤ n)
    (hmost : n ≤ most) : (Pattern.bytes least most).Admits out := by
  obtain rfl := Draw.length_of_run_bytes h
  exact ⟨hleast, hmost⟩

theorem admits_letters {n : Nat} {s s' : Source} {out : Bytes}
    (h : (Draw.times Draw.alphanumeric n).run s = some (out, s')) (least most : Nat)
    (hleast : least ≤ n) (hmost : n ≤ most) : (Pattern.letters least most).Admits out := by
  obtain rfl := Draw.length_of_run_times h
  refine ⟨hleast, hmost, ?_⟩
  intro b hb
  obtain ⟨t, t', hpick⟩ := Draw.exists_run_of_mem_times h hb
  exact Draw.isAlphanum_of_run_alphanumeric hpick

theorem returns_sized {fill : Nat → Draw Bytes} (hfill : ∀ n, (fill n).Returns)
    (args : List String) : (sized fill args).Returns := by
  unfold sized
  split
  · exact Draw.returns_pure _
  · rename_i least most _
    refine (Draw.returns_between least most).bind ?_
    intro n
    refine (hfill n).bind ?_
    intro out
    exact Draw.returns_pure _

/-- The standard builtins are those three. -/
theorem find?_registry {name : String} {b : Builtin} (h : registry.find? name = some b) :
    (name = "random_bytes" ∧ b.run = sized Draw.bytes ∧ b.hint = some boundsHint) ∨
    (name = "random_string" ∧ b.run = sized (Draw.times Draw.alphanumeric) ∧
      b.hint = some boundsHint) ∨
    (name = "hex" ∧ b.run = hex ∧ b.hint = some hexHint) := by
  rw [registry, Registry.find?_registerSized] at h
  split at h
  · rename_i hname
    obtain rfl := Option.some.inj h
    exact .inr (.inr ⟨hname.symm, rfl, rfl⟩)
  rw [Registry.find?_registerSized] at h
  split at h
  · rename_i hname
    obtain rfl := Option.some.inj h
    exact .inr (.inl ⟨hname.symm, rfl, rfl⟩)
  rw [Registry.find?_registerSized] at h
  split at h
  · rename_i hname
    obtain rfl := Option.some.inj h
    exact .inl ⟨hname.symm, rfl, rfl⟩
  · cases h

end Standard

/-! ## Calls -/

theorem AreBounds.unique {args : List String} {least most least' most' : Nat}
    (h : AreBounds args least most) (h' : AreBounds args least' most') :
    least = least' ∧ most = most' := by
  rw [← Standard.lengthBounds_eq_ok_iff] at h h'
  rw [h] at h'
  exact Prod.mk.inj (Except.ok.inj h')

namespace Call

variable {c : Call} {pattern : Pattern}

theorem hasPattern_random_bytes_iff (hname : c.name = "random_bytes") : c.HasPattern pattern ↔
    ∃ least most, AreBounds c.args least most ∧ pattern = .bytes least most := by
  constructor
  · intro h
    cases h with
    | bytes _ hbounds => exact ⟨_, _, hbounds, rfl⟩
    | letters hname' _ => exact absurd (hname.symm.trans hname') (by decide)
    | hex hname' => exact absurd (hname.symm.trans hname') (by decide)
  · rintro ⟨least, most, hbounds, rfl⟩
    exact .bytes hname hbounds

theorem hasPattern_random_string_iff (hname : c.name = "random_string") : c.HasPattern pattern ↔
    ∃ least most, AreBounds c.args least most ∧ pattern = .letters least most := by
  constructor
  · intro h
    cases h with
    | bytes hname' _ => exact absurd (hname.symm.trans hname') (by decide)
    | letters _ hbounds => exact ⟨_, _, hbounds, rfl⟩
    | hex hname' => exact absurd (hname.symm.trans hname') (by decide)
  · rintro ⟨least, most, hbounds, rfl⟩
    exact .letters hname hbounds

theorem hasPattern_hex_iff (hname : c.name = "hex") : c.HasPattern pattern ↔
    ∃ bs, Standard.hexBytes c.args = .ok bs ∧ pattern = .constant bs := by
  constructor
  · intro h
    cases h with
    | bytes hname' _ => exact absurd (hname.symm.trans hname') (by decide)
    | letters hname' _ => exact absurd (hname.symm.trans hname') (by decide)
    | hex _ hargs hbs hle =>
      exact ⟨_, Standard.hexBytes_eq_ok_iff.2 ⟨_, hargs, hbs, hle⟩, rfl⟩
  · rintro ⟨bs, hbytes, rfl⟩
    obtain ⟨digits, hargs, hbs, hle⟩ := Standard.hexBytes_eq_ok_iff.1 hbytes
    exact .hex hname hargs hbs hle

theorem HasPattern.unique {pattern' : Pattern} (h : c.HasPattern pattern)
    (h' : c.HasPattern pattern') : pattern = pattern' := by
  cases h with
  | bytes hname hbounds =>
    obtain ⟨least', most', hbounds', rfl⟩ := (hasPattern_random_bytes_iff hname).1 h'
    obtain ⟨rfl, rfl⟩ := hbounds.unique hbounds'
    rfl
  | letters hname hbounds =>
    obtain ⟨least', most', hbounds', rfl⟩ := (hasPattern_random_string_iff hname).1 h'
    obtain ⟨rfl, rfl⟩ := hbounds.unique hbounds'
    rfl
  | hex hname hargs hbs hle =>
    obtain ⟨bs', hbytes', rfl⟩ := (hasPattern_hex_iff hname).1 h'
    rw [Standard.hexBytes_eq_ok_iff.2 ⟨_, hargs, hbs, hle⟩] at hbytes'
    rw [Except.ok.inj hbytes']

/-- What a run of a standard call comes to: bytes of its pattern, or a failure if it has none. -/
theorem outcome_of_run (hfind : Standard.registry.find? c.name = some c.builtin) {s s' : Source}
    {r : Except String Bytes} (h : (c.builtin.run c.args).run s = some (r, s')) :
    Outcome c.HasPattern r := by
  rcases Standard.find?_registry hfind with
    ⟨hname, hrun, -⟩ | ⟨hname, hrun, -⟩ | ⟨hname, hrun, -⟩
  · rw [hrun] at h
    refine (Standard.outcome_of_run_sized Standard.admits_bytes h).of_iff ?_
    exact fun _ => hasPattern_random_bytes_iff hname
  · rw [hrun] at h
    refine (Standard.outcome_of_run_sized Standard.admits_letters h).of_iff ?_
    exact fun _ => hasPattern_random_string_iff hname
  · rw [hrun] at h
    refine (Standard.outcome_of_run_hex h).of_iff ?_
    exact fun _ => hasPattern_hex_iff hname

theorem returns_run (hfind : Standard.registry.find? c.name = some c.builtin) :
    (c.builtin.run c.args).Returns := by
  rcases Standard.find?_registry hfind with ⟨-, hrun, -⟩ | ⟨-, hrun, -⟩ | ⟨-, hrun, -⟩
  · rw [hrun]
    exact Standard.returns_sized Draw.returns_bytes c.args
  · rw [hrun]
    exact Standard.returns_sized Draw.returns_alphanumeric.times c.args
  · rw [hrun]
    exact Draw.returns_pure _

end Call

/-! ## Segments -/

namespace Segment

variable {seg : Segment} {pattern : Pattern}

theorem HasPattern.unique {pattern' : Pattern} (h : seg.HasPattern pattern)
    (h' : seg.HasPattern pattern') : pattern = pattern' := by
  cases seg with
  | literal text => exact h.trans h'.symm
  | call c => exact Call.HasPattern.unique h h'

variable (hstandard : seg.Resolved Standard.registry)

include hstandard

theorem outcome_of_run_produce {s s' : Source} {r : Except Fault Bytes}
    (h : seg.produce.run s = some (r, s')) : Outcome seg.HasPattern r := by
  cases seg with
  | literal text =>
    obtain ⟨rfl, -⟩ := Draw.run_pure_eq_some_iff.1 h
    have hpattern : (Segment.literal text).HasPattern (.constant (utf8 text)) := rfl
    exact .made hpattern rfl
  | call c =>
    obtain ⟨q, t, hq, h⟩ := Draw.run_bind_eq_some_iff.1 h
    obtain ⟨rfl, -⟩ := Draw.run_pure_eq_some_iff.1 h
    exact (Call.outcome_of_run hstandard hq).mapError (Fault.builtin c.name)

theorem returns_produce : seg.produce.Returns := by
  cases seg with
  | literal text => exact Draw.returns_pure _
  | call c =>
    refine (Call.returns_run hstandard).bind ?_
    intro r
    exact Draw.returns_pure _

end Segment

/-! ## Programs -/

namespace Program

section Run

variable {segments : List Segment} (hstandard : ∀ seg ∈ segments, seg.Resolved Standard.registry)
  {done : Bytes} {size : Nat}

include hstandard

theorem returns_produceFrom : (produceFrom done size segments).Returns := by
  induction segments generalizing done size with
  | nil => exact Draw.returns_pure _
  | cons seg rest ih =>
    obtain ⟨hseg, hrest⟩ := List.forall_mem_cons.1 hstandard
    refine (Segment.returns_produce hseg).bind ?_
    intro r
    cases r with
    | error fault => exact Draw.returns_pure _
    | ok more =>
      dsimp only
      split
      · exact Draw.returns_pure _
      · exact ih hrest

/-- Behind the bytes made before, a run makes one part for each segment, in order, each within its
segment's pattern. -/
theorem admits_of_run_produceFrom {s s' : Source} {out : Bytes}
    (h : (produceFrom done size segments).run s = some (.ok out, s')) :
    ∃ patterns parts, List.Forall₂ Segment.HasPattern segments patterns ∧
      List.Forall₂ Pattern.Admits patterns parts ∧ out = done.reverse ++ parts.flatten := by
  induction segments generalizing done size s with
  | nil =>
    refine ⟨[], [], .nil, .nil, ?_⟩
    rw [run_produceFrom_nil h, List.flatten_nil, List.append_nil]
  | cons seg rest ih =>
    obtain ⟨hseg, hrest⟩ := List.forall_mem_cons.1 hstandard
    obtain ⟨more, t, hmore, -, h⟩ := run_produceFrom_cons.1 h
    obtain ⟨patterns, parts, hpatterns, hparts, rfl⟩ := ih hrest h
    cases Segment.outcome_of_run_produce hseg hmore with
    | made hpattern hadmits =>
      refine ⟨_ :: patterns, more :: parts, .cons hpattern hpatterns, .cons hadmits hparts, ?_⟩
      simp

/-- A run of segments of which even the longest bytes fit succeeds. -/
theorem exists_run_produceFrom {patterns : List Pattern}
    (hpatterns : List.Forall₂ Segment.HasPattern segments patterns)
    (hfits : size + (patterns.map Pattern.most).sum ≤ maxPrefixLength) {s : Source}
    (hs : s.Ample) : ∃ out s', (produceFrom done size segments).run s = some (.ok out, s') := by
  induction hpatterns generalizing done size s with
  | nil => exact ⟨done.reverse, s, rfl⟩
  | @cons seg pattern rest patterns hpattern hpatterns ih =>
    obtain ⟨hseg, hrest⟩ := List.forall_mem_cons.1 hstandard
    obtain ⟨r, n, hr⟩ := Segment.returns_produce hseg s hs
    cases Segment.outcome_of_run_produce hseg hr with
    | @made _ more hpattern' hadmits =>
      obtain rfl := hpattern.unique hpattern'
      have hmore := hadmits.length_le
      simp only [List.map_cons, List.sum_cons] at hfits
      obtain ⟨out, s', hout⟩ := @ih hrest (more.reverse ++ done) (size + more.length) (by omega) _
        (hs.advance n)
      exact ⟨out, s', run_produceFrom_cons.2 ⟨more, _, hr, by omega, hout⟩⟩
    | failed hnone => exact absurd hpattern (hnone pattern)

end Run

theorem exists_patterns {segments : List Segment}
    (h : ∀ c, .call c ∈ segments → c.WellFormed) :
    ∃ patterns, List.Forall₂ Segment.HasPattern segments patterns := by
  induction segments with
  | nil => exact ⟨[], .nil⟩
  | cons seg rest ih =>
    obtain ⟨patterns, hpatterns⟩ := ih fun c hc => h c (List.mem_cons_of_mem seg hc)
    cases seg with
    | literal text => exact ⟨.constant (utf8 text) :: patterns, .cons rfl hpatterns⟩
    | call c =>
      obtain ⟨pattern, hpattern⟩ := Call.wellFormed_iff.1 (h c List.mem_cons_self)
      exact ⟨pattern :: patterns, .cons hpattern hpatterns⟩

theorem wellFormed_of_patterns {segments : List Segment} {patterns : List Pattern}
    (h : List.Forall₂ Segment.HasPattern segments patterns) {c : Call}
    (hc : .call c ∈ segments) : c.WellFormed := by
  induction h with
  | nil => cases hc
  | cons hpattern _ ih =>
    rcases List.mem_cons.1 hc with rfl | hc
    · exact Call.wellFormed_iff.2 ⟨_, hpattern⟩
    · exact ih hc

/-- **What a program makes.** Whatever is drawn, a prefix that is made fits and is made of one part
for each segment, each within its pattern. A program with a call that is not well-formed makes
none. One of which all calls are well-formed always does, if the longest parts fit together. -/
theorem run_evaluate_of_parse {text : String} {p : Program}
    (h : parse Standard.registry text = .ok p) :
    (∀ s s' out, p.evaluate.run s = some (.ok out, s') → out.length ≤ maxPrefixLength ∧
      ∃ patterns parts, List.Forall₂ Segment.HasPattern p.segments patterns ∧
        List.Forall₂ Pattern.Admits patterns parts ∧ out = parts.flatten) ∧
    ((∃ c, .call c ∈ p.segments ∧ ¬ c.WellFormed) →
      ∀ s : Source, s.Ample → ∃ fault s', p.evaluate.run s = some (.error fault, s')) ∧
    ((∀ c, .call c ∈ p.segments → c.WellFormed) →
      ∃ patterns, List.Forall₂ Segment.HasPattern p.segments patterns ∧
        ((patterns.map Pattern.most).sum ≤ maxPrefixLength →
          ∀ s : Source, s.Ample → ∃ out s', p.evaluate.run s = some (.ok out, s'))) := by
  have hstandard := resolved_of_parse h
  refine ⟨?_, ?_, ?_⟩
  · intro s s' out hrun
    exact ⟨length_le_of_run_evaluate hrun, admits_of_run_produceFrom hstandard hrun⟩
  · rintro ⟨c, hc, hmalformed⟩ s hs
    obtain ⟨r, n, hr⟩ := returns_produceFrom hstandard s hs
    cases r with
    | error fault => exact ⟨fault, s.advance n, hr⟩
    | ok out =>
      obtain ⟨patterns, -, hpatterns, -⟩ := admits_of_run_produceFrom hstandard hr
      exact absurd (wellFormed_of_patterns hpatterns hc) hmalformed
  · intro hwell
    obtain ⟨patterns, hpatterns⟩ := exists_patterns hwell
    refine ⟨patterns, hpatterns, ?_⟩
    intro hfits s hs
    refine exists_run_produceFrom hstandard hpatterns ?_ hs
    rwa [Nat.zero_add]

/-- One letter or two behind a byte that is spelled out: always made, and always of this form. -/
theorem run_evaluate_of_parse_letters : ∃ p : Program,
    parse Standard.registry "v1.0 $hex(4A)$random_string(1, +2)" = .ok p ∧
    (∃ out s', p.evaluate.run ⟨fun _ => 0, 0⟩ = some (.ok out, s')) ∧
    ∀ s s' out, p.evaluate.run s = some (.ok out, s') → ∃ letters, out = 0x4A :: letters ∧
      (letters.length = 1 ∨ letters.length = 2) ∧
      ∀ b ∈ letters, (Char.ofNat b.toNat).isAlphanum = true := by
  let spelled : Call := ⟨"hex", ["4A"], ⟨Standard.hex, some Standard.hexHint⟩⟩
  let letters : Call :=
    ⟨"random_string", ["1", "+2"], ⟨Standard.randomString, some Standard.boundsHint⟩⟩
  have hparse : parse Standard.registry "v1.0 $hex(4A)$random_string(1, +2)" =
      .ok ⟨0, [.call spelled, .call letters]⟩ := by
    rw [parse_eq_ok_iff]
    refine ⟨0, _, [.call "hex".toList "4A".toList spelled.builtin,
      .call "random_string".toList "1, +2".toList letters.builtin],
      ⟨['1'], ['0'], by decide, by decide, by decide, rfl⟩, ?_, rfl⟩
    rw [pieces_eq_ok_iff]
    refine ⟨?_, rfl⟩
    rw [wellCut_call_cons, wellCut_call_cons]
    exact ⟨⟨by decide, by simp, rfl⟩, ⟨by decide, by simp, rfl⟩, wellCut_nil⟩
  have hspelled : spelled.HasPattern (.constant [0x4A]) :=
    (Call.hasPattern_hex_iff rfl).2 ⟨[0x4A], rfl, rfl⟩
  have hletters : letters.HasPattern (.letters 1 2) := by
    refine .letters rfl ?_
    rw [← Standard.lengthBounds_eq_ok_iff]
    rfl
  have hpatterns : ∀ patterns, List.Forall₂ Segment.HasPattern [.call spelled, .call letters]
      patterns → patterns = [.constant [0x4A], .letters 1 2] := by
    rintro _ (_ | ⟨hfirst, _ | ⟨hsecond, _ | _⟩⟩)
    rw [Segment.HasPattern.unique hfirst hspelled, Segment.HasPattern.unique hsecond hletters]
  obtain ⟨hform, -, hmade⟩ := run_evaluate_of_parse hparse
  refine ⟨_, hparse, ?_, ?_⟩
  · have hwell : ∀ c, Segment.call c ∈ [.call spelled, .call letters] → c.WellFormed := by
      intro c hc
      rcases List.mem_pair.1 hc with hc | hc
      · rw [Segment.call.inj hc]
        exact Call.wellFormed_iff.2 ⟨_, hspelled⟩
      · rw [Segment.call.inj hc]
        exact Call.wellFormed_iff.2 ⟨_, hletters⟩
    obtain ⟨patterns, hforms, hruns⟩ := hmade hwell
    obtain rfl := hpatterns patterns hforms
    refine hruns (by decide) _ (Source.ample_of_forall_lt ?_)
    intro i
    change (0 : UInt32).toNat / Draw.sextetSpan < 62
    decide
  · intro s s' out hrun
    obtain ⟨-, patterns, parts, hforms, hparts, rfl⟩ := hform s s' out hrun
    obtain rfl := hpatterns patterns hforms
    rcases hparts with _ | ⟨rfl, _ | ⟨⟨hleast, hmost, halpha⟩, _ | _⟩⟩
    refine ⟨_, ?_, by omega, halpha⟩
    simp

end Program

end Camouflage
