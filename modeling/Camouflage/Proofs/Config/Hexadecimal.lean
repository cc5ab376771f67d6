import Camouflage.CommandLine.Run
import Camouflage.Proofs.Config.Loaders
import Camouflage.Proofs.Config.Recommended
import Camouflage.Proofs.Program.Spelled
import Camouflage.Proofs.Settings.Lines

/-!
# Constant bytes in hexadecimal

The command line prints bytes in hexadecimal; dialers, listeners and programs read them. All three
readers leave out the blanks around the digits and take them in either case, so they read the same
bytes, each up to its own limit; and a line with what was printed can be put into any settings that
ask for no prefix yet (`hex_agrees`).

A loader looks its settings up by their keys, so one more line changes only what depends on its key.
-/

namespace Camouflage

open Text

/-! ## Settings with one more key -/

namespace Settings

variable {t t' : Settings} {key : String}

/-- What a key requires depends on what is found there, and so do its number and its value. -/
theorem required_congr (h : t'.find? key = t.find? key) : t'.required key = t.required key := by
  simp only [required, filled?, h]

theorem count_congr (h : t'.find? key = t.find? key) : t'.count key = t.count key := by
  simp only [count, readWith, filled?, h]

theorem valueOrEmpty_congr (h : t'.find? key = t.find? key) :
    t'.valueOrEmpty key = t.valueOrEmpty key := by
  simp only [valueOrEmpty, h]

theorem find?_eq_none_of_exclusive {keys : List String} (h : t.exclusive keys = .ok none) :
    ∀ key ∈ keys, t.find? key = none := by
  unfold exclusive at h
  split at h
  · rename_i hnone
    intro key hkey
    have hmap := List.filterMap_eq_nil_iff.1 hnone key hkey
    rwa [Option.map_eq_none_iff] at hmap
  · cases h
  · cases h

end Settings

open Settings

section OneMore

variable {t t' : Settings} {digits : String}

/-- A dialer is told to write nothing only if its settings have none of the keys for prefixes. -/
theorem PrefixConfig.find?_eq_none_of_ofSettings (h : PrefixConfig.ofSettings t = .ok .nothing) :
    ∀ key ∈ ["prefix", "prefix_hex", "prefix_dns"], t.find? key = none := by
  obtain ⟨one?, hexclusive, h⟩ := bind_eq_ok_iff.1 h
  split at h
  · exact find?_eq_none_of_exclusive hexclusive
  · cases h
  · cases h
  · obtain ⟨length?, -, h⟩ := bind_eq_ok_iff.1 h
    cases h

/-- A listener is told to strip nothing only if its settings have none of the keys for prefixes. -/
theorem AbsorbConfig.find?_eq_none_of_ofSettings (h : AbsorbConfig.ofSettings t = .ok .nothing) :
    ∀ key ∈ ["absorb_hex", "absorb_len", "absorb_dns"], t.find? key = none := by
  obtain ⟨one?, hexclusive, h⟩ := bind_eq_ok_iff.1 h
  split at h
  · exact find?_eq_none_of_exclusive hexclusive
  · cases h
  · obtain ⟨count?, -, h⟩ := bind_eq_ok_iff.1 h
    split at h <;> cases h
  · obtain ⟨length?, -, h⟩ := bind_eq_ok_iff.1 h
    cases h

theorem DialerConfig.ofSettings_hex {c : DialerConfig} (h : ofSettings t = .ok c)
    (hnone : ∀ key ∈ ["prefix", "prefix_hex", "prefix_dns"], t.find? key = none)
    (hfind : ∀ other, t'.find? other =
      if other = "prefix_hex" then some digits else t.find? other) :
    ofSettings t' = .ok { c with writes := .hex digits } := by
  obtain ⟨-, hrest⟩ := ofSettings_eq_ok_iff.1 h
  have hwrites : PrefixConfig.ofSettings t' = .ok (.hex digits) := by
    refine PrefixConfig.ofSettings_of_find? trivial ?_
    intro key hkey
    rw [hfind, hnone key hkey]
    simp only [List.mem_cons, List.not_mem_nil, or_false] at hkey
    rcases hkey with rfl | rfl | rfl <;> rfl
  refine ofSettings_eq_ok_iff.2 ⟨hwrites, ?_⟩
  rwa [required_congr (hfind "addr"), required_congr (hfind "cipher"),
    required_congr (hfind "upstream"), valueOrEmpty_congr (hfind "secret")]

theorem ListenerConfig.ofSettings_hex {c : ListenerConfig} (h : ofSettings t = .ok c)
    (hnone : ∀ key ∈ ["absorb_hex", "absorb_len", "absorb_dns"], t.find? key = none)
    (hfind : ∀ other, t'.find? other =
      if other = "absorb_hex" then some digits else t.find? other) :
    ofSettings t' = .ok { c with absorb := .exactly digits } := by
  obtain ⟨-, hrest⟩ := ofSettings_eq_ok_iff.1 h
  have hexactly : AbsorbConfig.ofSettings t' = .ok (.exactly digits) := by
    refine AbsorbConfig.ofSettings_of_find? trivial ?_
    intro key hkey
    rw [hfind, hnone key hkey]
    simp only [List.mem_cons, List.not_mem_nil, or_false] at hkey
    rcases hkey with rfl | rfl | rfl <;> rfl
  refine ofSettings_eq_ok_iff.2 ⟨hexactly, ?_⟩
  rwa [required_congr (hfind "addr"), required_congr (hfind "cipher"),
    count_congr (hfind "replay_history"), count_congr (hfind "absorb_timeout_ms"),
    valueOrEmpty_congr (hfind "secret")]

end OneMore

/-! ## Printed bytes in settings -/

section Printed

variable {bytes old new : Bytes}

/-- A line with printed bytes is read as it is written. -/
theorem chars_entry_encode (key : String) (bytes : Bytes) :
    (Line.entry key (Hex.encode bytes)).chars = (key ++ "=" ++ Hex.encode bytes).toList := by
  have hplain : escape (Hex.encode bytes).toList = (Hex.encode bytes).toList := by
    rw [Hex.encode, String.toList_ofList]
    exact escape_of_isAlphanum (Hex.spells_encodeChars bytes).isAlphanum
  rw [Line.chars, hplain]
  simp

theorem find?_putsIn {key : String} (hkey : (Line.entry key "").Legible)
    (hline : PutsIn (key ++ "=" ++ Hex.encode bytes).toList old new)
    (hnew : (Settings.ofBytes old).find? key = none) (other : String) :
    (Settings.ofBytes new).find? other =
      if other = key then some (Hex.encode bytes) else (Settings.ofBytes old).find? other := by
  have hlegible : (Line.entry key (Hex.encode bytes)).Legible := hkey
  rw [← chars_entry_encode] at hline
  exact hline.find? hlegible hnew other

/-- A dialer that writes nothing writes the printed bytes if a line more says so. -/
theorem DialerConfig.ofBytes_putsIn {c : DialerConfig} (h : ofBytes old = .ok c)
    (hc : c.writes = .nothing) (hline : PutsIn ("prefix_hex=" ++ Hex.encode bytes).toList old new) :
    ofBytes new = .ok { c with writes := .hex (Hex.encode bytes) } := by
  have hwrites := (ofSettings_eq_ok_iff.1 h).1
  rw [hc] at hwrites
  have hnone := PrefixConfig.find?_eq_none_of_ofSettings hwrites
  have hnew := hnone "prefix_hex" (by simp)
  exact ofSettings_hex h hnone (find?_putsIn (by decide) hline hnew)

/-- A listener that strips nothing strips the printed bytes if a line more says so. -/
theorem ListenerConfig.ofBytes_putsIn {c : ListenerConfig} (h : ofBytes old = .ok c)
    (hc : c.absorb = .nothing) (hline : PutsIn ("absorb_hex=" ++ Hex.encode bytes).toList old new) :
    ofBytes new = .ok { c with absorb := .exactly (Hex.encode bytes) } := by
  have habsorb := (ofSettings_eq_ok_iff.1 h).1
  rw [hc] at habsorb
  have hnone := AbsorbConfig.find?_eq_none_of_ofSettings habsorb
  have hnew := hnone "absorb_hex" (by simp)
  exact ofSettings_hex h hnone (find?_putsIn (by decide) hline hnew)

end Printed

/-! ## All paths -/

theorem PrefixConfig.build_hex_iff {digits : String} {bytes : Bytes} :
    (hex digits).build = .ok (.fixed bytes) ↔ constantPrefix digits = .ok bytes := by
  simp [build, map_eq_ok_iff, mapError_eq_ok_iff]

theorem AbsorbConfig.build_exactly_iff {digits : String} {bytes : Bytes} :
    (exactly digits).build = .ok (.exactly bytes) ↔ constantPrefix digits = .ok bytes := by
  simp [build, map_eq_ok_iff]

/-- **All paths for hexadecimal agree.** A dialer and a listener build the same constant bytes from
digits: those that are spelled, in either case, without the blanks around them, up to the limit of a
prefix; and from all other texts neither is built. A call of `hex` with these digits makes the same
bytes up to the limit of a call. What the command line prints of bytes within the limit of a prefix,
put into the settings of a dialer or a listener that have no prefix yet, is loaded with everything
else as it was, and builds the bytes that were printed. -/
theorem hex_agrees :
    (∀ (digits : String) (bytes : Bytes),
      ((PrefixConfig.hex digits).build = .ok (.fixed bytes) ↔
        Hex.Spells (trim digits.toList) bytes ∧ bytes.length ≤ maxPrefixLength) ∧
      ((AbsorbConfig.exactly digits).build = .ok (.exactly bytes) ↔
        Hex.Spells (trim digits.toList) bytes ∧ bytes.length ≤ maxPrefixLength)) ∧
    (∀ digits : String,
      (∀ bytes, ¬ (Hex.Spells (trim digits.toList) bytes ∧ bytes.length ≤ maxPrefixLength)) →
        ∃ f : ConfigFault, (PrefixConfig.hex digits).build = .error f.fault ∧
          (AbsorbConfig.exactly digits).build = .error f ∧ f.fault.kind = .config) ∧
    (∀ digits : String, trim digits.toList ≠ [] →
      (∀ c ∈ trim digits.toList, c ≠ '$' ∧ c ≠ '(' ∧ c ≠ ')' ∧ c ≠ ',') →
        ∃ p, Program.parse Standard.registry ("v1.0 $hex(" ++ digits ++ ")") = .ok p ∧
          ∀ s bytes s', p.evaluate.run s = some (.ok bytes, s') ↔
            (Hex.Spells (trim digits.toList) bytes ∧ bytes.length ≤ maxBuiltinOutput) ∧ s = s') ∧
    ∀ bytes : Bytes, bytes.length ≤ maxPrefixLength → ∀ old new,
      (∀ c, DialerConfig.ofBytes old = .ok c → c.writes = .nothing →
        PutsIn ("prefix_hex=" ++ CommandLine.render false bytes).toList old new →
          ∃ writes, DialerConfig.ofBytes new = .ok { c with writes } ∧
            writes.build = .ok (.fixed bytes)) ∧
      ∀ c, ListenerConfig.ofBytes old = .ok c → c.absorb = .nothing →
        PutsIn ("absorb_hex=" ++ CommandLine.render false bytes).toList old new →
          ∃ absorb, ListenerConfig.ofBytes new = .ok { c with absorb } ∧
            absorb.build = .ok (.exactly bytes) := by
  refine ⟨?_, ?_, ?_, ?_⟩
  · intro digits bytes
    rw [PrefixConfig.build_hex_iff, AbsorbConfig.build_exactly_iff, constantPrefix_eq_ok_iff]
    exact ⟨Iff.rfl, Iff.rfl⟩
  · intro digits hnone
    obtain ⟨f, hf⟩ : ∃ f, constantPrefix digits = .error f := by
      cases hconstant : constantPrefix digits with
      | ok bytes => exact absurd (constantPrefix_eq_ok_iff.1 hconstant) (hnone bytes)
      | error f => exact ⟨f, rfl⟩
    refine ⟨f, ?_, ?_, f.kind_fault⟩
    · rw [PrefixConfig.build, hf]
      rfl
    · rw [AbsorbConfig.build, hf]
      rfl
  · intro digits hfilled hsigns
    exact Program.exists_parse_hex hfilled hsigns
  · intro bytes hfits old new
    have hconstant := constantPrefix_encode hfits
    refine ⟨?_, ?_⟩
    · intro c h hc hline
      exact ⟨_, DialerConfig.ofBytes_putsIn h hc hline, PrefixConfig.build_hex_iff.2 hconstant⟩
    · intro c h hc hline
      exact ⟨_, ListenerConfig.ofBytes_putsIn h hc hline,
        AbsorbConfig.build_exactly_iff.2 hconstant⟩

/-- Digits in mixed case between blanks in a program, and what is printed of three bytes in front of
a listener's last setting. -/
theorem hex_agrees_mixed :
    (∃ p, Program.parse Standard.registry "v1.0 $hex( 05dC\t)" = .ok p ∧
      ∀ s, p.evaluate.run s = some (.ok [0x05, 0xDC], s)) ∧
    ∃ absorb, ListenerConfig.ofBytes (utf8 "addr=a:1\nabsorb_hex=0a0d20\r\ncipher=none\n") =
        .ok ⟨"a:1", "", "none", 0, absorb, standardAbsorbTimeout⟩ ∧
      absorb.build = .ok (.exactly [0x0A, 0x0D, 0x20]) := by
  have hblank : trim " 05dC\t".toList = "05dC".toList := by decide
  have hspells : Hex.Spells "05dC".toList [0x05, 0xDC] := by decide
  refine ⟨?_, ?_⟩
  · have hfilled : trim " 05dC\t".toList ≠ [] := by
      rw [hblank]
      simp
    have hsigns : ∀ c ∈ trim " 05dC\t".toList, c ≠ '$' ∧ c ≠ '(' ∧ c ≠ ')' ∧ c ≠ ',' := by
      rw [hblank]
      simp
    obtain ⟨p, hp, hruns⟩ := hex_agrees.2.2.1 " 05dC\t" hfilled hsigns
    refine ⟨p, hp, ?_⟩
    intro s
    rw [hruns, hblank]
    exact ⟨⟨hspells, by decide⟩, rfl⟩
  · have hload : ListenerConfig.ofBytes (utf8 "addr=a:1\n" ++ utf8 "cipher=none\n") =
        .ok ⟨"a:1", "", "none", 0, .nothing, standardAbsorbTimeout⟩ := by
      rfl
    have hwhole : WholeFile (utf8 "addr=a:1\n") := .inr ⟨utf8 "addr=a:1", by decide⟩
    exact (hex_agrees.2.2.2 [0x0A, 0x0D, 0x20] (by decide) _ _).2 _ hload rfl
      (.between hwhole .returnNewline)

end Camouflage
