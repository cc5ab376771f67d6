import Camouflage.Config.OfJson
import Camouflage.Config.OfSettings
import Camouflage.Config.Write
import Camouflage.Proofs.Json.Written
import Camouflage.Proofs.Outcome
import Camouflage.Proofs.Settings.RoundTrip

/-!
# The two forms of a configuration

A configuration can be written as settings text and as a JSON object. Both loaders give it back,
whatever the order of its settings or members (`load_written`). Settings text cannot keep the blanks
around a required value, and neither form a number beyond sixty-four bits; all else comes back as it
was.

Settings are looked up by their keys, so their order plays no part once they are in a table. The
members of an object are read one after the other: `Fields.of` is what has been read of a
configuration when some of its names have been seen.
-/

namespace Camouflage

open Text

/-- A value that a required setting gives back. -/
def Filled (s : String) : Prop :=
  s ≠ "" ∧ trimmed s = s

def PrefixConfig.Fits : PrefixConfig → Prop
  | .dnsOverTcp length => length < 2 ^ 64
  | _ => True

def AbsorbConfig.Fits : AbsorbConfig → Prop
  | .anyBytes count => count < 2 ^ 64
  | .dnsOverTcp length => length < 2 ^ 64
  | _ => True

/-- A dialer that both forms can express. -/
structure DialerConfig.Expressible (c : DialerConfig) : Prop where
  addr : Filled c.addr
  cipher : Filled c.cipher
  base : Filled c.base
  writes : c.writes.Fits

/-- A listener that both forms can express. -/
structure ListenerConfig.Expressible (c : ListenerConfig) : Prop where
  addr : Filled c.addr
  cipher : Filled c.cipher
  replayHistory : c.replayHistory < 2 ^ 64
  absorb : c.absorb.Fits
  absorbTimeout : c.absorbTimeout < 2 ^ 64

/-- Lines that say some entries, in any order, with remarks between them. -/
structure Settings.Says (ls : List (Line × LineEnd)) (entries : List (String × String)) :
    Prop where
  entries : (said ls).Perm entries
  remarks : ∀ text stop, (.remark text, stop) ∈ ls → (Line.remark text).Legible

/-! ## From settings text -/

namespace Settings

variable {t : Settings} {key : String}

theorem le_max64 {n : Nat} (h : n < 2 ^ 64) : n ≤ max64 := by
  unfold max64
  omega

theorem filled?_of_find? {value : String} (hvalue : Filled value) (h : t.find? key = some value) :
    t.filled? key = some value.toList := by
  obtain ⟨hne, htrimmed⟩ := hvalue
  rw [filled?, h]
  dsimp only
  rw [trimmed_eq_iff.1 htrimmed]
  split
  · rename_i hnil
    exact absurd (String.toList_eq_nil_iff.1 hnil) hne
  · rename_i hcs
    rfl

theorem required_of_find? {value : String} (hvalue : Filled value) (h : t.find? key = some value) :
    t.required key = .ok value := by
  rw [required, filled?_of_find? hvalue h]
  dsimp only
  rw [String.ofList_toList]

theorem filled_numberSetting (n : Nat) : Filled (numberSetting n) := by
  obtain ⟨hne, hdigits, -⟩ := isNumeral_decimal n
  have hblank : ∀ c ∈ decimal n, isBlank c = false := by
    intro c hc
    exact isBlank_of_isDigit (hdigits c hc)
  refine ⟨?_, ?_⟩
  · rw [numberSetting, ne_eq, ← String.toList_eq_nil_iff, String.toList_ofList]
    exact hne
  · rw [trimmed, numberSetting, String.toList_ofList, trim_of_forall hblank]

theorem count_of_find? {n : Nat} (hn : n < 2 ^ 64) (h : t.find? key = some (numberSetting n)) :
    t.count key = .ok (some n) := by
  obtain ⟨hne, hdigits, hvalue⟩ := isNumeral_decimal n
  have hread : readNat max64 (decimal n) = .ok n :=
    (readNat_eq_ok_iff hne hdigits).2 ⟨hvalue, le_max64 hn⟩
  rw [count, readWith, filled?_of_find? (filled_numberSetting n) h, numberSetting,
    String.toList_ofList]
  dsimp only
  rw [natValue, hread]
  rfl

theorem valueOrEmpty_of_find? {value : String} (h : t.find? key = some value) :
    t.valueOrEmpty key = value := by
  rw [valueOrEmpty, h]
  rfl

theorem filterMap_eq_singleton {α β : Type} {f : α → Option β} {xs : List α} {x : α} {b : β}
    (hnodup : xs.Nodup) (hx : x ∈ xs) (hb : f x = some b)
    (hother : ∀ y ∈ xs, y ≠ x → f y = none) : xs.filterMap f = [b] := by
  induction xs with
  | nil => cases hx
  | cons y ys ih =>
    obtain ⟨hy, hys⟩ := List.nodup_cons.1 hnodup
    obtain ⟨hhead, htail⟩ := List.forall_mem_cons.1 hother
    rcases List.mem_cons.1 hx with rfl | hx
    · have hnone : ys.filterMap f = [] := by
        rw [List.filterMap_eq_nil_iff]
        intro z hz
        exact htail z hz (fun heq => hy (heq ▸ hz))
      rw [List.filterMap_cons, hb, hnone]
    · have hne : y ≠ x := fun heq => hy (heq ▸ hx)
      rw [List.filterMap_cons, hhead hne, ih hys hx htail]

/-- At most one of some keys is set, and it is found. -/
theorem exclusive_of_find? {keys : List String} (hnodup : keys.Nodup)
    {e? : Option (String × String)} (hmem : ∀ e ∈ e?, e.1 ∈ keys)
    (h : ∀ key ∈ keys, t.find? key = e?.toList.lookup key) : t.exclusive keys = .ok e? := by
  unfold exclusive
  cases e? with
  | none =>
    have hnone : keys.filterMap (fun key => (t.find? key).map fun value => (key, value)) = [] := by
      rw [List.filterMap_eq_nil_iff]
      intro key hkey
      rw [h key hkey]
      rfl
    rw [hnone]
  | some e =>
    obtain ⟨name, value⟩ := e
    have hone : keys.filterMap (fun key => (t.find? key).map fun value => (key, value)) =
        [(name, value)] := by
      refine filterMap_eq_singleton hnodup (hmem _ rfl) ?_ ?_
      · rw [h name (hmem _ rfl)]
        simp
      · intro key hkey hne
        rw [h key hkey]
        simp [List.lookup_cons, beq_false_of_ne hne]
    rw [hone]

/-- Every key under which a setting may be written. -/
def settingKeys : List String :=
  ["addr", "secret", "cipher", "upstream", "prefix", "prefix_hex", "prefix_dns", "replay_history",
    "absorb_timeout_ms", "absorb_hex", "absorb_len", "absorb_dns"]

theorem Says.find? {ls : List (Line × LineEnd)} {entries : List (String × String)}
    (h : Says ls entries) (hkeys : ∀ e ∈ entries, e.1 ∈ settingKeys)
    (hnodup : (entries.map (·.1)).Nodup) (key : String) :
    (Settings.ofBytes (encodeUtf8 (write ls))).find? key = entries.lookup key := by
  have hplain : ∀ key ∈ settingKeys, trim key.toList = key.toList ∧ '\n' ∉ key.toList ∧
      '=' ∉ key.toList ∧ key.toList.head? ≠ some '#' := by
    decide
  have hlegible : ∀ l ∈ ls, l.1.Legible := by
    rintro ⟨line, stop⟩ hl
    cases line with
    | remark text => exact h.remarks text stop hl
    | entry key value =>
      refine hplain key (hkeys (key, value) ?_)
      rw [← h.entries.mem_iff, said, List.mem_filterMap]
      exact ⟨_, hl, rfl⟩
  rw [ofBytes_eq_ofList hlegible, Table.find?_ofList_of_perm h.entries hnodup]

end Settings

section OfSettings

open Settings

variable {t : Settings}

theorem PrefixConfig.ofSettings_of_find? {p : PrefixConfig} (hp : p.Fits)
    (h : ∀ key ∈ ["prefix", "prefix_hex", "prefix_dns"],
      t.find? key = p.setting?.toList.lookup key) : PrefixConfig.ofSettings t = .ok p := by
  have hmem : ∀ e ∈ p.setting?, e.1 ∈ ["prefix", "prefix_hex", "prefix_dns"] := by
    cases p <;> simp [setting?]
  refine bind_eq_ok_iff.2 ⟨_, exclusive_of_find? (by decide) hmem h, ?_⟩
  cases p with
  | nothing => rfl
  | generator program => rfl
  | hex digits => rfl
  | dnsOverTcp length =>
    have hcount := count_of_find? hp (h "prefix_dns" (by simp))
    exact bind_eq_ok_iff.2 ⟨_, hcount, rfl⟩

theorem AbsorbConfig.ofSettings_of_find? {p : AbsorbConfig} (hp : p.Fits)
    (h : ∀ key ∈ ["absorb_hex", "absorb_len", "absorb_dns"],
      t.find? key = p.setting?.toList.lookup key) : AbsorbConfig.ofSettings t = .ok p := by
  have hmem : ∀ e ∈ p.setting?, e.1 ∈ ["absorb_hex", "absorb_len", "absorb_dns"] := by
    cases p <;> simp [setting?]
  refine bind_eq_ok_iff.2 ⟨_, exclusive_of_find? (by decide) hmem h, ?_⟩
  cases p with
  | nothing => rfl
  | exactly digits => rfl
  | anyBytes count =>
    have hcount := count_of_find? hp (h "absorb_len" (by simp))
    exact bind_eq_ok_iff.2 ⟨_, hcount, rfl⟩
  | dnsOverTcp length =>
    have hcount := count_of_find? hp (h "absorb_dns" (by simp))
    exact bind_eq_ok_iff.2 ⟨_, hcount, rfl⟩

/-- What a dialer is told is what its settings give, key by key. -/
theorem DialerConfig.ofSettings_eq_ok_iff {c : DialerConfig} : ofSettings t = .ok c ↔
    PrefixConfig.ofSettings t = .ok c.writes ∧ t.required "addr" = .ok c.addr ∧
      t.required "cipher" = .ok c.cipher ∧ t.required "upstream" = .ok c.base ∧
      t.valueOrEmpty "secret" = c.secret := by
  constructor
  · intro h
    obtain ⟨writes, hwrites, h⟩ := bind_eq_ok_iff.1 h
    obtain ⟨addr, haddr, h⟩ := bind_eq_ok_iff.1 h
    obtain ⟨cipher, hcipher, h⟩ := bind_eq_ok_iff.1 h
    obtain ⟨base, hbase, h⟩ := bind_eq_ok_iff.1 h
    obtain rfl := Except.ok.inj h
    exact ⟨hwrites, haddr, hcipher, hbase, rfl⟩
  · rintro ⟨hwrites, haddr, hcipher, hbase, hsecret⟩
    refine bind_eq_ok_iff.2 ⟨_, hwrites, bind_eq_ok_iff.2 ⟨_, haddr, bind_eq_ok_iff.2 ⟨_, hcipher,
      bind_eq_ok_iff.2 ⟨_, hbase, ?_⟩⟩⟩⟩
    rw [hsecret]
    rfl

/-- What a listener is told is what its settings give, key by key. -/
theorem ListenerConfig.ofSettings_eq_ok_iff {c : ListenerConfig} : ofSettings t = .ok c ↔
    AbsorbConfig.ofSettings t = .ok c.absorb ∧ t.required "addr" = .ok c.addr ∧
      t.required "cipher" = .ok c.cipher ∧
      (∃ n?, t.count "replay_history" = .ok n? ∧ n?.getD 0 = c.replayHistory) ∧
      (∃ n?, t.count "absorb_timeout_ms" = .ok n? ∧
        n?.getD standardAbsorbTimeout = c.absorbTimeout) ∧
      t.valueOrEmpty "secret" = c.secret := by
  constructor
  · intro h
    obtain ⟨absorb, habsorb, h⟩ := bind_eq_ok_iff.1 h
    obtain ⟨addr, haddr, h⟩ := bind_eq_ok_iff.1 h
    obtain ⟨cipher, hcipher, h⟩ := bind_eq_ok_iff.1 h
    obtain ⟨history?, hhistory, h⟩ := bind_eq_ok_iff.1 h
    obtain ⟨timeout?, htimeout, h⟩ := bind_eq_ok_iff.1 h
    obtain rfl := Except.ok.inj h
    exact ⟨habsorb, haddr, hcipher, ⟨_, hhistory, rfl⟩, ⟨_, htimeout, rfl⟩, rfl⟩
  · rintro ⟨habsorb, haddr, hcipher, ⟨_, hhistory, hn⟩, ⟨_, htimeout, hn'⟩, hsecret⟩
    refine bind_eq_ok_iff.2 ⟨_, habsorb, bind_eq_ok_iff.2 ⟨_, haddr, bind_eq_ok_iff.2 ⟨_, hcipher,
      bind_eq_ok_iff.2 ⟨_, hhistory, bind_eq_ok_iff.2 ⟨_, htimeout, ?_⟩⟩⟩⟩⟩
    rw [hn, hn', hsecret]
    rfl

theorem DialerConfig.ofBytes_written {c : DialerConfig} (hc : c.Expressible)
    {ls : List (Line × LineEnd)} (h : Says ls c.entries) :
    DialerConfig.ofBytes (encodeUtf8 (write ls)) = .ok c := by
  have hkeys : ∀ e ∈ c.entries, e.1 ∈ settingKeys := by
    cases hw : c.writes <;> simp [entries, PrefixConfig.setting?, settingKeys, hw]
  have hnodup : (c.entries.map (·.1)).Nodup := by
    cases hw : c.writes <;> simp [entries, PrefixConfig.setting?, hw]
  have hfind := h.find? hkeys hnodup
  have hwrites : PrefixConfig.ofSettings (Settings.ofBytes (encodeUtf8 (write ls))) =
      .ok c.writes := by
    refine PrefixConfig.ofSettings_of_find? hc.writes ?_
    intro key hkey
    rw [hfind, entries, List.lookup_append]
    simp only [List.mem_cons, List.not_mem_nil, or_false] at hkey
    rcases hkey with rfl | rfl | rfl <;> rfl
  have haddr := required_of_find? hc.addr (hfind "addr")
  have hcipher := required_of_find? hc.cipher (hfind "cipher")
  have hbase := required_of_find? hc.base (hfind "upstream")
  have hsecret := valueOrEmpty_of_find? (hfind "secret")
  exact ofSettings_eq_ok_iff.2 ⟨hwrites, haddr, hcipher, hbase, hsecret⟩

theorem ListenerConfig.ofBytes_written {c : ListenerConfig} (hc : c.Expressible)
    {ls : List (Line × LineEnd)} (h : Says ls c.entries) :
    ListenerConfig.ofBytes (encodeUtf8 (write ls)) = .ok c := by
  have hkeys : ∀ e ∈ c.entries, e.1 ∈ settingKeys := by
    cases hw : c.absorb <;> simp [entries, AbsorbConfig.setting?, settingKeys, hw]
  have hnodup : (c.entries.map (·.1)).Nodup := by
    cases hw : c.absorb <;> simp [entries, AbsorbConfig.setting?, hw]
  have hfind := h.find? hkeys hnodup
  have habsorb : AbsorbConfig.ofSettings (Settings.ofBytes (encodeUtf8 (write ls))) =
      .ok c.absorb := by
    refine AbsorbConfig.ofSettings_of_find? hc.absorb ?_
    intro key hkey
    rw [hfind, entries, List.lookup_append]
    simp only [List.mem_cons, List.not_mem_nil, or_false] at hkey
    rcases hkey with rfl | rfl | rfl <;> rfl
  have haddr := required_of_find? hc.addr (hfind "addr")
  have hcipher := required_of_find? hc.cipher (hfind "cipher")
  have hhistory := count_of_find? hc.replayHistory (hfind "replay_history")
  have htimeout := count_of_find? hc.absorbTimeout (hfind "absorb_timeout_ms")
  have hsecret := valueOrEmpty_of_find? (hfind "secret")
  exact ofSettings_eq_ok_iff.2 ⟨habsorb, haddr, hcipher, ⟨_, hhistory, rfl⟩, ⟨_, htimeout, rfl⟩,
    hsecret⟩

end OfSettings

/-! ## From JSON -/

section OfJson

open Json Json.Reader

/-- A member that may be set is set to what was written. -/
theorem put_written {α β : Type} (name : String) {slot : Option α} (hslot : slot = none)
    {read : Reader α} {a : α} {value rest : List Char} (h : read (value ++ rest) = .ok (a, rest))
    (put : Option α → β) :
    (once name slot read >>= fun x => pure (put x)) (':' :: (value ++ rest)) =
      .ok (put (some a), rest) := by
  subst hslot
  rw [bind_apply (once_written h)]
  rfl

theorem PrefixConfig.reader_written {p : PrefixConfig} (hp : p.Fits) (rest : List Char) :
    PrefixConfig.reader (p.json ++ rest) = .ok (p, rest) := by
  cases p with
  | nothing =>
    have hknown : "none" ∈ variants := by decide
    refine variant_written_bare hknown ?_ rest
    rfl
  | generator program =>
    refine variant_written_full (by decide) ?_ rest
    intro rest' _
    exact bind_apply (string_written _ program rest')
  | hex digits =>
    refine variant_written_full (by decide) ?_ rest
    intro rest' _
    exact bind_apply (string_written _ digits rest')
  | dnsOverTcp length =>
    refine variant_written_full (by decide) ?_ rest
    intro rest' hrest'
    exact bind_apply (count_written _ (Settings.le_max64 hp) hrest')

theorem AbsorbConfig.reader_written {p : AbsorbConfig} (hp : p.Fits) (rest : List Char) :
    AbsorbConfig.reader (p.json ++ rest) = .ok (p, rest) := by
  cases p with
  | nothing =>
    have hknown : "none" ∈ variants := by decide
    refine variant_written_bare hknown ?_ rest
    rfl
  | exactly digits =>
    refine variant_written_full (by decide) ?_ rest
    intro rest' _
    exact bind_apply (string_written _ digits rest')
  | anyBytes count =>
    refine variant_written_full (by decide) ?_ rest
    intro rest' hrest'
    exact bind_apply (count_written _ (Settings.le_max64 hp) hrest')
  | dnsOverTcp length =>
    refine variant_written_full (by decide) ?_ rest
    intro rest' hrest'
    exact bind_apply (count_written _ (Settings.le_max64 hp) hrest')

namespace DialerConfig

/-- The fields of a dialer of which the names have been seen. -/
def Fields.of (c : DialerConfig) (seen : List String) : Fields where
  addr := if "addr" ∈ seen then some c.addr else none
  secret := if "secret" ∈ seen then some c.secret else none
  cipher := if "cipher" ∈ seen then some c.cipher else none
  base := if "upstream" ∈ seen then some c.base else none
  writes := if "prefix" ∈ seen then some c.writes else none

theorem sees_members {c : DialerConfig} (hc : c.writes.Fits) :
    ∀ m ∈ c.members, Sees Fields.read (Fields.of c) m := by
  intro m hm seen rest hseen hrest
  simp only [members, List.mem_cons, List.not_mem_nil, or_false] at hm
  rcases hm with rfl | rfl | rfl | rfl | rfl
  · have hnone : (Fields.of c seen).addr = none := if_neg hseen
    refine (put_written "addr" hnone (string_written _ c.addr rest) fun x =>
      { Fields.of c seen with addr := x }).trans ?_
    simp [Fields.of]
  · have hnone : (Fields.of c seen).secret = none := if_neg hseen
    refine (put_written "secret" hnone (string_written _ c.secret rest) fun x =>
      { Fields.of c seen with secret := x }).trans ?_
    simp [Fields.of]
  · have hnone : (Fields.of c seen).cipher = none := if_neg hseen
    refine (put_written "cipher" hnone (string_written _ c.cipher rest) fun x =>
      { Fields.of c seen with cipher := x }).trans ?_
    simp [Fields.of]
  · have hnone : (Fields.of c seen).base = none := if_neg hseen
    refine (put_written "upstream" hnone (string_written _ c.base rest) fun x =>
      { Fields.of c seen with base := x }).trans ?_
    simp [Fields.of]
  · have hnone : (Fields.of c seen).writes = none := if_neg hseen
    refine (put_written "prefix" hnone (PrefixConfig.reader_written hc rest) fun x =>
      { Fields.of c seen with writes := x }).trans ?_
    simp [Fields.of]

theorem finish_of {c : DialerConfig} {seen : List String}
    (h : ∀ m ∈ c.members, m.1 ∈ seen) (cs : List Char) :
    Fields.finish (Fields.of c seen) cs = .ok (c, cs) := by
  simp only [members, List.forall_mem_cons] at h
  obtain ⟨haddr, hsecret, hcipher, hbase, hwrites, -⟩ := h
  rw [Fields.of, if_pos haddr, if_pos hsecret, if_pos hcipher, if_pos hbase, if_pos hwrites]
  rfl

/-- A dialer is read from its members in any order. -/
theorem ofJson_written {c : DialerConfig} (hc : c.writes.Fits) {ms : List (String × List Char)}
    (hms : ms.Perm c.members) : ofJson (String.ofList (writeObject ms)) = .ok c := by
  have hne : c.members ≠ [] := List.cons_ne_nil _ _
  have hnodup : (c.members.map (·.1)).Nodup := by
    simp [members]
  exact readText_record_of_perm hms hne (sees_members hc) hnodup finish_of

end DialerConfig

namespace ListenerConfig

/-- The fields of a listener of which the names have been seen. -/
def Fields.of (c : ListenerConfig) (seen : List String) : Fields where
  addr := if "addr" ∈ seen then some c.addr else none
  secret := if "secret" ∈ seen then some c.secret else none
  cipher := if "cipher" ∈ seen then some c.cipher else none
  replayHistory := if "replay_history" ∈ seen then some c.replayHistory else none
  absorb := if "absorb" ∈ seen then some c.absorb else none
  absorbTimeout := if "absorb_timeout_ms" ∈ seen then some c.absorbTimeout else none

theorem sees_members {c : ListenerConfig} (hc : c.Expressible) :
    ∀ m ∈ c.members, Sees Fields.read (Fields.of c) m := by
  intro m hm seen rest hseen hrest
  have hhistory := Settings.le_max64 hc.replayHistory
  have htimeout := Settings.le_max64 hc.absorbTimeout
  simp only [members, List.mem_cons, List.not_mem_nil, or_false] at hm
  rcases hm with rfl | rfl | rfl | rfl | rfl | rfl
  · have hnone : (Fields.of c seen).addr = none := if_neg hseen
    refine (put_written "addr" hnone (string_written _ c.addr rest) fun x =>
      { Fields.of c seen with addr := x }).trans ?_
    simp [Fields.of]
  · have hnone : (Fields.of c seen).secret = none := if_neg hseen
    refine (put_written "secret" hnone (string_written _ c.secret rest) fun x =>
      { Fields.of c seen with secret := x }).trans ?_
    simp [Fields.of]
  · have hnone : (Fields.of c seen).cipher = none := if_neg hseen
    refine (put_written "cipher" hnone (string_written _ c.cipher rest) fun x =>
      { Fields.of c seen with cipher := x }).trans ?_
    simp [Fields.of]
  · have hnone : (Fields.of c seen).replayHistory = none := if_neg hseen
    refine (put_written "replay_history" hnone (count_written _ hhistory hrest) fun x =>
      { Fields.of c seen with replayHistory := x }).trans ?_
    simp [Fields.of]
  · have hnone : (Fields.of c seen).absorb = none := if_neg hseen
    refine (put_written "absorb" hnone (AbsorbConfig.reader_written hc.absorb rest) fun x =>
      { Fields.of c seen with absorb := x }).trans ?_
    simp [Fields.of]
  · have hnone : (Fields.of c seen).absorbTimeout = none := if_neg hseen
    refine (put_written "absorb_timeout_ms" hnone (count_written _ htimeout hrest) fun x =>
      { Fields.of c seen with absorbTimeout := x }).trans ?_
    simp [Fields.of]

theorem finish_of {c : ListenerConfig} {seen : List String}
    (h : ∀ m ∈ c.members, m.1 ∈ seen) (cs : List Char) :
    Fields.finish (Fields.of c seen) cs = .ok (c, cs) := by
  simp only [members, List.forall_mem_cons] at h
  obtain ⟨haddr, hsecret, hcipher, hhistory, habsorb, htimeout, -⟩ := h
  rw [Fields.of, if_pos haddr, if_pos hsecret, if_pos hcipher, if_pos hhistory, if_pos habsorb,
    if_pos htimeout]
  rfl

/-- A listener is read from its members in any order. -/
theorem ofJson_written {c : ListenerConfig} (hc : c.Expressible)
    {ms : List (String × List Char)} (hms : ms.Perm c.members) :
    ofJson (String.ofList (writeObject ms)) = .ok c := by
  have hne : c.members ≠ [] := List.cons_ne_nil _ _
  have hnodup : (c.members.map (·.1)).Nodup := by
    simp [members]
  exact readText_record_of_perm hms hne (sees_members hc) hnodup finish_of

end ListenerConfig

end OfJson

/-! ## Both forms -/

section Both

open Settings Json

/-- **Both loaders give a configuration back**, from its settings in any order, with remarks between
them and whatever the lines end with, and from its members in any order. -/
theorem load_written :
    (∀ c : DialerConfig, c.Expressible →
      (∀ ls, Says ls c.entries → DialerConfig.ofBytes (encodeUtf8 (write ls)) = .ok c) ∧
      ∀ ms, ms.Perm c.members →
        DialerConfig.ofJson (String.ofList (writeObject ms)) = .ok c) ∧
    ∀ c : ListenerConfig, c.Expressible →
      (∀ ls, Says ls c.entries → ListenerConfig.ofBytes (encodeUtf8 (write ls)) = .ok c) ∧
      ∀ ms, ms.Perm c.members →
        ListenerConfig.ofJson (String.ofList (writeObject ms)) = .ok c := by
  constructor
  · intro c hc
    refine ⟨?_, ?_⟩
    · intro ls hls
      exact DialerConfig.ofBytes_written hc hls
    · intro ms hms
      exact DialerConfig.ofJson_written hc.writes hms
  · intro c hc
    refine ⟨?_, ?_⟩
    · intro ls hls
      exact ListenerConfig.ofBytes_written hc hls
    · intro ms hms
      exact ListenerConfig.ofJson_written hc hms

/-- A dialer whose program has quotes, a line break and an equals sign in it, and a listener with
the largest number; the settings and the members stand in reverse, behind a comment. -/
theorem load_written_reverse :
    (let c : DialerConfig := ⟨"a:1", " s", "plain", "b", .generator "v1.0 GET /?q=\"1\"\r\n"⟩
     DialerConfig.ofBytes (encodeUtf8 (write [(.remark "# addr=", .newline),
       (.entry "prefix" "v1.0 GET /?q=\"1\"\r\n", .returnNewline),
       (.entry "upstream" "b", .newline), (.entry "cipher" "plain", .newline),
       (.entry "secret" " s", .newline), (.entry "addr" "a:1", .newline)])) = .ok c ∧
     DialerConfig.ofJson (String.ofList (writeObject c.members.reverse)) = .ok c) ∧
    (let c : ListenerConfig := ⟨"a:1", "", "none", max64, .anyBytes max64, 0⟩
     ListenerConfig.ofJson (String.ofList (writeObject c.members.reverse)) = .ok c) := by
  let dialer : DialerConfig := ⟨"a:1", " s", "plain", "b", .generator "v1.0 GET /?q=\"1\"\r\n"⟩
  let listener : ListenerConfig := ⟨"a:1", "", "none", max64, .anyBytes max64, 0⟩
  have hdialer : dialer.Expressible :=
    ⟨⟨by decide, by decide⟩, ⟨by decide, by decide⟩, ⟨by decide, by decide⟩, trivial⟩
  have hlistener : listener.Expressible := by
    refine ⟨⟨by decide, by decide⟩, ⟨by decide, by decide⟩, ?_, ?_, ?_⟩
    · change max64 < 2 ^ 64
      decide
    · change max64 < 2 ^ 64
      decide
    · change 0 < 2 ^ 64
      decide
  obtain ⟨hsettings, hjson⟩ := load_written.1 dialer hdialer
  refine ⟨⟨hsettings _ ⟨dialer.entries.reverse_perm, ?_⟩, hjson _ dialer.members.reverse_perm⟩,
    (load_written.2 listener hlistener).2 _ listener.members.reverse_perm⟩
  intro text stop h
  simp only [List.mem_cons, Prod.mk.injEq, Line.remark.injEq, reduceCtorEq, false_and, or_false,
    List.not_mem_nil] at h
  rw [h.1]
  decide

end Both

end Camouflage
