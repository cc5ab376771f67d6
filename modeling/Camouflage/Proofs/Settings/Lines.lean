import Camouflage.Proofs.Settings.RoundTrip
import Camouflage.Proofs.Text.Decoding

/-!
# Settings, line by line

Cutting a file behind a newline cuts its settings: what stands behind overrides what stands in
front. Neither the decoding nor the lines depend on what is on the other side
(`ofBytes_append_newline`).

The end of a file is not a newline, though. A carriage return in front of a newline belongs to the
end of the line, and the value loses another one; in front of the end of the file there is only the
value to lose one. So a newline at the end of a file changes a value exactly if the last line has a
value with two carriage returns at its end (`ReturnsTwice`).

A line that is put into a file sets its key, if this is a new one, and nothing else
(`PutsIn.find?`).
-/

namespace Camouflage.Settings

open Text

/-! ## One line -/

theorem unescapeFrom_concat_return (done cs : List Char) :
    unescapeFrom done (cs ++ ['\r']) = unescapeFrom done cs ++ ['\r'] := by
  induction done, cs using unescapeFrom.induct with
  | case1 done => simp [unescapeFrom]
  | case2 done => simp [unescapeFrom, expand]
  | case3 done c rest ih => simpa [unescapeFrom] using ih
  | case4 done c rest hlast hescape ih =>
    have hc : c ≠ '\\' := by
      rintro rfl
      cases rest with
      | nil => exact hlast rfl rfl
      | cons d rest => exact hescape d rest rfl rfl
    simp [unescapeFrom, hc, ih]

/-- A carriage return is never part of an escape. -/
theorem unescape_concat_return (cs : List Char) : unescape (cs ++ ['\r']) = unescape cs ++ ['\r'] :=
  unescapeFrom_concat_return [] cs

section Line

variable {key value line : List Char}

theorem dropReturn_equals (key value : List Char) :
    dropReturn (key ++ '=' :: value) = key ++ '=' :: dropReturn value := by
  cases value using List.reverseRecOn with
  | nil => simp [dropReturn]
  | append_singleton value c =>
    have hline : key ++ '=' :: (value ++ [c]) = (key ++ '=' :: value) ++ [c] := by simp
    unfold dropReturn
    rw [hline, List.getLast?_concat, List.getLast?_concat, List.dropLast_concat,
      List.dropLast_concat]
    split <;> simp

/-- Whether a line is a comment can be told from what stands in front of its first `=`. -/
theorem head?_trimStart_equals (key value : List Char) :
    (trimStart (key ++ '=' :: value)).head? = (trimStart (key ++ ['='])).head? := by
  have hequals : isBlank '=' = false := by decide
  simp only [trimStart, List.dropWhile_append]
  split
  · simp [hequals]
  · rename_i hne
    rw [List.isEmpty_iff] at hne
    rw [List.head?_append_of_ne_nil _ hne, List.head?_append_of_ne_nil _ hne]

/-- What a line says: nothing if it is a comment, else its key and its value. -/
theorem setting?_equals (h : '=' ∉ key) (value : List Char) : setting? (key ++ '=' :: value) =
    if (trimStart (key ++ ['='])).head? = some '#' then none
    else some (String.ofList (trim key), String.ofList (unescape (dropReturn value))) := by
  rw [setting?, head?_trimStart_equals, splitFirst_append h]
  rfl

/-- Two carriage returns at the end of a line stand behind its first `=`. -/
theorem returns_suffix_equals_iff :
    ['\r', '\r'] <:+ key ++ '=' :: value ↔ ['\r', '\r'] <:+ value := by
  constructor
  · intro h
    rcases List.suffix_or_suffix_of_suffix h (List.suffix_append key ('=' :: value)) with h | h
    · rcases List.suffix_cons_iff.1 h with h | h
      · cases h
      · exact h
    · exact absurd (h.subset List.mem_cons_self) (by decide)
  · intro h
    exact h.trans ((List.suffix_cons '=' value).trans (List.suffix_append key _))

theorem dropReturn_dropReturn (h : ¬ ['\r', '\r'] <:+ value) :
    dropReturn (dropReturn value) = dropReturn value := by
  by_cases hlast : value.getLast? = some '\r'
  · obtain ⟨front, rfl⟩ : ∃ front, value = front ++ ['\r'] :=
      ⟨value.dropLast, (List.dropLast_append_getLast? '\r' hlast).symm⟩
    rw [dropReturn_concat]
    unfold dropReturn
    rw [if_neg]
    intro hfront
    refine h ⟨front.dropLast, ?_⟩
    have hcons : ['\r', '\r'] = ['\r'] ++ ['\r'] := rfl
    rw [hcons, ← List.append_assoc, List.dropLast_append_getLast? '\r' hfront]
  · have hsame : dropReturn value = value := if_neg hlast
    rw [hsame, hsame]

/-- A line that says nothing, or has no two carriage returns at its end, says the same without
one. -/
theorem setting?_dropReturn (h : setting? line = none ∨ ¬ ['\r', '\r'] <:+ line) :
    setting? (dropReturn line) = setting? line := by
  by_cases hequals : '=' ∈ line
  · obtain ⟨key, value, rfl, hkey⟩ := List.eq_append_cons_of_mem hequals
    rw [setting?_equals hkey, returns_suffix_equals_iff] at h
    rw [dropReturn_equals, setting?_equals hkey, setting?_equals hkey]
    split
    · rfl
    · rename_i hhash
      rw [if_neg hhash] at h
      rw [dropReturn_dropReturn (h.resolve_left (Option.some_ne_none _))]
  · have hsilent : Silent line := .inr hequals
    rw [hsilent.eq_none, hsilent.dropReturn.eq_none]

/-- The value of a line with two carriage returns at its end keeps one of them, unless the line
itself has lost one. -/
theorem exists_value_of_returns (h : ['\r', '\r'] <:+ line) {key value : String}
    (hentry : setting? line = some (key, value)) :
    ∃ short, value = short ++ "\r" ∧ setting? (dropReturn line) = some (key, short) := by
  have hequals : '=' ∈ line := by
    by_contra hnone
    have hsilent : Silent line := .inr hnone
    rw [hsilent.eq_none] at hentry
    cases hentry
  obtain ⟨front, back, rfl, hfront⟩ := List.eq_append_cons_of_mem hequals
  obtain ⟨short, rfl⟩ := returns_suffix_equals_iff.1 h
  have honce : dropReturn (short ++ ['\r', '\r']) = short ++ ['\r'] := by
    rw [← dropReturn_concat (short ++ ['\r'])]
    simp
  rw [setting?_equals hfront, honce, unescape_concat_return] at hentry
  rw [dropReturn_equals, honce, setting?_equals hfront, dropReturn_concat]
  split at hentry
  · cases hentry
  · rename_i hhash
    obtain ⟨rfl, rfl⟩ := Prod.mk.inj (Option.some.inj hentry)
    exact ⟨_, String.ofList_append, if_neg hhash⟩

end Line

/-! ## All lines -/

/-- What the lines of a text say, in their order. -/
def spoken (cs : List Char) : List (String × String) :=
  (lines cs).filterMap setting?

/-- A text that ends where a line does. -/
def WholeLines (cs : List Char) : Prop :=
  cs = [] ∨ ∃ front, cs = front ++ ['\n']

theorem spoken_append_newline (cs rest : List Char) :
    spoken (cs ++ '\n' :: rest) = spoken (cs ++ ['\n']) ++ spoken rest := by
  unfold spoken
  rw [lines_append_newline cs rest, lines_append_newline cs [], List.filterMap_append,
    List.filterMap_append]
  simp [lines, splitAll, splitAll.go, linesOfPieces]

theorem WholeLines.spoken_append {cs : List Char} (h : WholeLines cs) (rest : List Char) :
    spoken (cs ++ rest) = spoken cs ++ spoken rest := by
  rcases h with rfl | ⟨front, rfl⟩
  · rfl
  · rw [List.append_assoc, List.singleton_append, spoken_append_newline]

theorem filterMap_singleton (line : List Char) :
    [line].filterMap setting? = (setting? line).toList := by
  rw [List.filterMap_cons]
  cases setting? line <;> rfl

theorem spoken_of_notMem {line : List Char} (h : '\n' ∉ line) :
    spoken line = (setting? line).toList := by
  have hnil : setting? [] = none := rfl
  unfold spoken lines
  rw [splitAll_eq_splitOn, List.splitOn_eq_singleton h, linesOfPieces]
  split
  · rename_i hempty
    rw [List.isEmpty_iff.1 hempty, hnil]
    rfl
  · exact filterMap_singleton line

theorem spoken_concat_newline {line : List Char} (h : '\n' ∉ line) :
    spoken (line ++ ['\n']) = (setting? (dropReturn line)).toList := by
  unfold spoken
  rw [lines_append h]
  exact filterMap_singleton (dropReturn line)

/-- Every text is whole lines and a last one that has not ended. -/
theorem exists_last_line (cs : List Char) :
    ∃ front line, cs = front ++ line ∧ WholeLines front ∧ '\n' ∉ line := by
  induction cs using List.reverseRecOn with
  | nil => exact ⟨[], [], rfl, .inl rfl, List.not_mem_nil⟩
  | append_singleton cs c ih =>
    by_cases hc : c = '\n'
    · subst hc
      exact ⟨cs ++ ['\n'], [], by simp, .inr ⟨cs, rfl⟩, List.not_mem_nil⟩
    · obtain ⟨front, line, rfl, hfront, hline⟩ := ih
      refine ⟨front, line ++ [c], by simp, hfront, ?_⟩
      simp [hline, Ne.symm hc]

/-! ## Files -/

theorem find?_ofBytes (bs : Bytes) (key : String) :
    (ofBytes bs).find? key = (spoken (decodeLossy bs)).reverse.lookup key :=
  Table.find?_ofList _ key

/-- What is said later counts. -/
theorem find?_of_spoken {a b c : Bytes}
    (h : spoken (decodeLossy c) = spoken (decodeLossy a) ++ spoken (decodeLossy b))
    (key : String) :
    (ofBytes c).find? key = ((ofBytes b).find? key).or ((ofBytes a).find? key) := by
  rw [find?_ofBytes, find?_ofBytes, find?_ofBytes, h, List.reverse_append, List.lookup_append]

theorem decodeLossy_newline (a b : Bytes) :
    decodeLossy (a ++ 0x0A :: b) = decodeLossy a ++ '\n' :: decodeLossy b :=
  decodeLossy_append_ascii (by decide) a b

/-- The last line of a text says something and has two carriage returns at its end. -/
def ReturnsTwice (cs : List Char) : Prop :=
  ∃ front line, cs = front ++ line ∧ WholeLines front ∧ '\n' ∉ line ∧
    setting? line ≠ none ∧ ['\r', '\r'] <:+ line

/-- A newline at the end of a text says nothing, unless it takes a carriage return from a value. -/
theorem spoken_newline {cs : List Char} (h : ¬ ReturnsTwice cs) :
    spoken (cs ++ ['\n']) = spoken cs := by
  obtain ⟨front, line, rfl, hfront, hline⟩ := exists_last_line cs
  have hsame : setting? (dropReturn line) = setting? line := by
    apply setting?_dropReturn
    by_contra hboth
    rw [not_or, not_not] at hboth
    exact h ⟨front, line, rfl, hfront, hline, hboth⟩
  rw [List.append_assoc, hfront.spoken_append, hfront.spoken_append, spoken_of_notMem hline,
    spoken_concat_newline hline, hsame]

/-- **Settings are read line by line.** Behind a newline a file can be cut: what stands behind
overrides what stands in front, entry for entry. The newline itself changes nothing, and may be
missing, unless the last line has a value with two carriage returns at its end. Then this value
keeps one of them at the end of the file and none in front of the newline, and nothing else
changes. -/
theorem ofBytes_append_newline (a b : Bytes) :
    (∀ key, (ofBytes (a ++ 0x0A :: b)).find? key =
      ((ofBytes b).find? key).or ((ofBytes (a ++ [0x0A])).find? key)) ∧
    (¬ ReturnsTwice (decodeLossy a) →
      (∀ key, (ofBytes (a ++ [0x0A])).find? key = (ofBytes a).find? key) ∧
      ∀ key, (ofBytes (a ++ 0x0A :: b)).find? key =
        ((ofBytes b).find? key).or ((ofBytes a).find? key)) ∧
    (ReturnsTwice (decodeLossy a) → ∃ key short,
      (ofBytes a).find? key = some (short ++ "\r") ∧
      (ofBytes (a ++ [0x0A])).find? key = some short ∧
      ∀ other, other ≠ key → (ofBytes (a ++ [0x0A])).find? other = (ofBytes a).find? other) := by
  have hcut : ∀ key, (ofBytes (a ++ 0x0A :: b)).find? key =
      ((ofBytes b).find? key).or ((ofBytes (a ++ [0x0A])).find? key) := by
    apply find?_of_spoken
    rw [decodeLossy_newline a b, decodeLossy_newline a [], spoken_append_newline]
    rfl
  refine ⟨hcut, ?_, ?_⟩
  · intro htwice
    have hsame : ∀ key, (ofBytes (a ++ [0x0A])).find? key = (ofBytes a).find? key := by
      intro key
      have hspoken := spoken_newline htwice
      rw [find?_ofBytes, find?_ofBytes, decodeLossy_newline a [], ← hspoken]
      rfl
    refine ⟨hsame, ?_⟩
    intro key
    rw [hcut, hsame]
  · rintro ⟨front, line, ha, hfront, hline, hsaid, htwice⟩
    obtain ⟨⟨key, value⟩, hentry⟩ := Option.ne_none_iff_exists'.1 hsaid
    obtain ⟨short, rfl, hshort⟩ := exists_value_of_returns htwice hentry
    have hopen : spoken (decodeLossy a) = spoken front ++ [(key, short ++ "\r")] := by
      rw [ha, hfront.spoken_append, spoken_of_notMem hline, hentry]
      rfl
    have hended : spoken (decodeLossy (a ++ [0x0A])) = spoken front ++ [(key, short)] := by
      have hnewline : decodeLossy (a ++ [0x0A]) = front ++ (line ++ ['\n']) := by
        rw [decodeLossy_newline a [], ha, List.append_assoc]
        rfl
      rw [hnewline, hfront.spoken_append, spoken_concat_newline hline, hshort]
      rfl
    refine ⟨key, short, ?_, ?_, ?_⟩
    · simp [find?_ofBytes, hopen]
    · simp [find?_ofBytes, hended]
    · intro other hother
      simp [find?_ofBytes, hopen, hended, List.lookup_cons, beq_false_of_ne hother]

/-- A value with one carriage return, in front of a newline and a line that overrides another one;
and a value with two. -/
theorem ofBytes_append_newline_returns :
    (ofBytes (utf8 "a=1\nk=v\r" ++ 0x0A :: utf8 "a=2")).find? "a" = some "2" ∧
    (ofBytes (utf8 "a=1\nk=v\r" ++ 0x0A :: utf8 "a=2")).find? "k" = some "v" ∧
    ∃ key short, (ofBytes (utf8 "k=v\r\r")).find? key = some (short ++ "\r") ∧
      (ofBytes (utf8 "k=v\r\r" ++ [0x0A])).find? key = some short := by
  have honce : ¬ ReturnsTwice (decodeLossy (utf8 "a=1\nk=v\r")) := by
    rintro ⟨front, line, htext, -, -, -, hline⟩
    have htwice : ['\r', '\r'] <:+ decodeLossy (utf8 "a=1\nk=v\r") := by
      rw [htext]
      exact hline.trans (List.suffix_append front line)
    revert htwice
    decide
  have htwice : ReturnsTwice (decodeLossy (utf8 "k=v\r\r")) :=
    ⟨[], "k=v\r\r".toList, by decide, .inl rfl, by decide, by decide, by decide⟩
  have hcut := ((ofBytes_append_newline (utf8 "a=1\nk=v\r") (utf8 "a=2")).2.1 honce).2
  obtain ⟨key, short, hopen, hended, -⟩ :=
    (ofBytes_append_newline (utf8 "k=v\r\r") []).2.2 htwice
  refine ⟨?_, ?_, key, short, hopen, hended⟩
  · rw [hcut]
    decide
  · rw [hcut]
    decide

/-- The end of a file leaves a carriage return in a value that a newline takes away. -/
theorem ofBytes_newline_ne :
    (ofBytes (utf8 "k=v\r\r")).find? "k" = some "v\r" ∧
    (ofBytes (utf8 "k=v\r\r" ++ 0x0A :: [])).find? "k" = some "v" ∧
    (ofBytes (utf8 "k=v\r\r" ++ 0x0A :: [])).find? "k" ≠
      ((ofBytes []).find? "k").or ((ofBytes (utf8 "k=v\r\r")).find? "k") := by
  decide

/-! ## Files with one more line -/

/-- A file that ends where a line does. -/
def WholeFile (bs : Bytes) : Prop :=
  bs = [] ∨ ∃ front, bs = front ++ [0x0A]

theorem WholeFile.spoken_append {bs : Bytes} (h : WholeFile bs) (rest : Bytes) :
    spoken (decodeLossy (bs ++ rest)) =
      spoken (decodeLossy bs) ++ spoken (decodeLossy rest) := by
  rcases h with rfl | ⟨front, rfl⟩
  · rfl
  · rw [List.append_assoc, List.singleton_append, decodeLossy_newline, decodeLossy_newline,
      spoken_append_newline]
    rfl

/-- A line is put into a file: with an end of its own between two lines, or behind the last one. -/
inductive PutsIn (line : List Char) : Bytes → Bytes → Prop
  | between {before after : Bytes} (h : WholeFile before) (stop : LineEnd) :
    PutsIn line (before ++ after) (before ++ (encodeUtf8 (line ++ stop.chars) ++ after))
  | last {before : Bytes} (h : WholeFile before) :
    PutsIn line before (before ++ encodeUtf8 line)

section PutsIn

variable {line : Line} {old new : Bytes}

theorem spoken_line_append (hline : line.Legible) (stop : LineEnd) (rest : Bytes) :
    spoken (decodeLossy (encodeUtf8 (line.chars ++ stop.chars) ++ rest)) =
      line.setting?.toList ++ spoken (decodeLossy rest) := by
  obtain ⟨shown, hlines, hshown⟩ := exists_lines_append hline stop (decodeLossy rest)
  rw [decodeLossy_encodeUtf8_append, spoken, hlines, List.filterMap_cons, hshown]
  cases line.setting? <;> rfl

/-- What a line says is said between what stands in front of it and what stands behind. -/
theorem PutsIn.exists_spoken (hline : line.Legible) (h : PutsIn line.chars old new) :
    ∃ front back, spoken (decodeLossy old) = front ++ back ∧
      spoken (decodeLossy new) = front ++ (line.setting?.toList ++ back) := by
  cases h with
  | @between before after hbefore stop =>
    refine ⟨spoken (decodeLossy before), spoken (decodeLossy after), ?_, ?_⟩
    · exact hbefore.spoken_append after
    · rw [hbefore.spoken_append, spoken_line_append hline]
  | last hbefore =>
    refine ⟨spoken (decodeLossy old), [], ?_, ?_⟩
    · rw [List.append_nil]
    · rw [hbefore.spoken_append, decodeLossy_encodeUtf8, spoken_of_notMem hline.newline_notMem,
        (setting?_chars hline).1, List.append_nil]

/-- A line with a new key sets this key, and nothing else. -/
theorem PutsIn.find? {key value : String} (hline : (Line.entry key value).Legible)
    (h : PutsIn (Line.entry key value).chars old new) (hnew : (ofBytes old).find? key = none)
    (other : String) :
    (ofBytes new).find? other = if other = key then some value else (ofBytes old).find? other := by
  obtain ⟨front, back, hold, hspoken⟩ := h.exists_spoken hline
  rw [find?_ofBytes, hold] at hnew
  rw [find?_ofBytes, find?_ofBytes, hold, hspoken]
  simp only [List.reverse_append, List.lookup_append, Option.or_eq_none_iff] at hnew ⊢
  by_cases hkey : other = key
  · subst hkey
    simp [hnew, Line.setting?]
  · simp [hkey, Line.setting?, List.lookup_cons, beq_false_of_ne hkey]

end PutsIn

end Camouflage.Settings
