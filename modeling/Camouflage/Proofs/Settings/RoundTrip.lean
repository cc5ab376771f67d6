import Camouflage.Proofs.Text.Cuts
import Camouflage.Proofs.Text.Utf8
import Camouflage.Settings.Write

/-!
# Writing settings and reading them again

The lines of a settings text are read one at a time, so what is written is read back once each line
is (`setting?_chars`). A carriage return at the end of a line may belong to it or to its end; an
escaped value has none, and a remark says nothing with it or without (`Silent.dropReturn`).
-/

namespace Camouflage

/-! ## Tables -/

namespace Table

variable {α : Type}

theorem find?_foldl_insert (pairs : List (String × α)) (t : Table α) (name : String) :
    (pairs.foldl (fun t p => t.insert p.1 p.2) t).find? name =
      (pairs.reverse.lookup name).or (t.find? name) := by
  induction pairs generalizing t with
  | nil => rfl
  | cons p pairs ih =>
    obtain ⟨other, a⟩ := p
    have hone : List.lookup name [(other, a)] = if other = name then some a else none := by
      rw [List.lookup_cons]
      by_cases hname : other = name
      · simp [hname]
      · simp [hname, beq_false_of_ne (Ne.symm hname)]
    rw [List.foldl_cons, ih, find?_insert, List.reverse_cons, List.lookup_append, hone,
      Option.or_assoc]
    split <;> rfl

/-- In the table of some pairs, the last pair of a name is found. -/
theorem find?_ofList (pairs : List (String × α)) (name : String) :
    (ofList pairs).find? name = pairs.reverse.lookup name := by
  rw [ofList, find?_foldl_insert, find?_empty, Option.or_none]

theorem lookup_eq_some_iff {pairs : List (String × α)} (hnodup : (pairs.map (·.1)).Nodup)
    {name : String} {a : α} : pairs.lookup name = some a ↔ (name, a) ∈ pairs := by
  induction pairs with
  | nil => simp
  | cons p pairs ih =>
    obtain ⟨other, b⟩ := p
    rw [List.map_cons, List.nodup_cons] at hnodup
    by_cases hname : name = other
    · subst hname
      have hnot : (name, a) ∉ pairs := fun hmem => hnodup.1 (List.mem_map_of_mem (f := (·.1)) hmem)
      simp [hnot, eq_comm]
    · simp [List.lookup_cons, beq_false_of_ne hname, hname, ih hnodup.2]

/-- Pairs of different names may be put into a table in any order. -/
theorem find?_ofList_of_perm {pairs pairs' : List (String × α)} (hperm : pairs.Perm pairs')
    (hnodup : (pairs'.map (·.1)).Nodup) (name : String) :
    (ofList pairs).find? name = pairs'.lookup name := by
  have hreverse : (pairs.reverse.map (·.1)).Nodup :=
    ((pairs.reverse_perm.trans hperm).map (·.1)).nodup_iff.2 hnodup
  rw [find?_ofList]
  ext a
  rw [lookup_eq_some_iff hreverse, lookup_eq_some_iff hnodup, List.mem_reverse, hperm.mem_iff]

end Table

namespace Settings

open Text

instance : DecidablePred Line.Legible
  | .entry key _ => inferInstanceAs (Decidable (trim key.toList = key.toList ∧
      '\n' ∉ key.toList ∧ '=' ∉ key.toList ∧ key.toList.head? ≠ some '#'))
  | .remark text => inferInstanceAs (Decidable ('\n' ∉ text.toList ∧
      ((trimStart text.toList).head? = some '#' ∨ '=' ∉ text.toList)))

/-! ## One line -/

theorem notMem_escape {c : Char} (hc : c = '\n' ∨ c = '\r') (cs : List Char) : c ∉ escape cs := by
  unfold escape
  rw [List.mem_flatMap]
  rintro ⟨d, -, hd⟩
  unfold escapeChar at hd
  split at hd
  · rcases hc with rfl | rfl <;> simp at hd
  · rcases hc with rfl | rfl <;> simp at hd
  · rcases hc with rfl | rfl <;> simp at hd
  · rcases hc with rfl | rfl <;> simp at hd
  · rename_i hnewline hreturn _
    obtain rfl := List.mem_singleton.1 hd
    rcases hc with rfl | rfl
    · exact hnewline rfl
    · exact hreturn rfl

/-- Letters and digits need no escape. -/
theorem escape_of_isAlphanum {cs : List Char} (h : ∀ c ∈ cs, c.isAlphanum = true) :
    escape cs = cs := by
  induction cs with
  | nil => rfl
  | cons c cs ih =>
    obtain ⟨hc, hcs⟩ := List.forall_mem_cons.1 h
    have hplain : escapeChar c = [c] := by
      unfold escapeChar
      split
      all_goals first | rfl | cases hc
    rw [escape, List.flatMap_cons, ← escape, ih hcs, hplain]
    rfl

theorem dropReturn_of_notMem {cs : List Char} (h : '\r' ∉ cs) : dropReturn cs = cs := by
  unfold dropReturn
  rw [if_neg]
  intro hlast
  exact h (List.mem_of_getLast? hlast)

theorem dropReturn_concat (cs : List Char) : dropReturn (cs ++ ['\r']) = cs := by
  simp [dropReturn]

/-- A line that says nothing. -/
def Silent (cs : List Char) : Prop :=
  (trimStart cs).head? = some '#' ∨ '=' ∉ cs

theorem Silent.eq_none {cs : List Char} (h : Silent cs) : setting? cs = none := by
  unfold setting?
  split
  · rfl
  · rename_i hhash
    have hnone : splitFirst '=' cs = none := by
      rw [Option.eq_none_iff_forall_not_mem]
      rintro ⟨before, after⟩ hsplit
      obtain ⟨-, rfl⟩ := splitFirst_eq_some_iff.1 hsplit
      exact (h.resolve_left hhash) (by simp)
    rw [hnone]
    rfl

theorem Silent.dropReturn {cs : List Char} (h : Silent cs) : Silent (dropReturn cs) := by
  unfold Settings.dropReturn
  split
  · rename_i hlast
    have hcs : cs.dropLast ++ ['\r'] = cs := List.dropLast_append_getLast? '\r' hlast
    rcases h with hhash | hequals
    · left
      rw [← hcs, trimStart, List.dropWhile_append] at hhash
      split at hhash
      · cases hhash
      · rename_i hne
        rw [List.isEmpty_iff] at hne
        obtain ⟨c, rest, hcons⟩ := List.exists_cons_of_ne_nil hne
        rw [hcons] at hhash
        rw [trimStart, hcons]
        exact hhash
    · right
      intro hmem
      exact hequals (List.dropLast_subset cs hmem)
  · exact h

theorem trimStart_append {key : List Char} (hkey : trim key = key) (hne : key ≠ [])
    (rest : List Char) : trimStart (key ++ rest) = key ++ rest := by
  have hstart : trimStart key = key := by
    rw [← hkey]
    exact dropWhile_rdropWhile_dropWhile key
  obtain ⟨c, cs, hcons, hc⟩ := (trimStart_eq_nil_or_cons key).resolve_left (by rwa [hstart])
  rw [hstart] at hcons
  rw [hcons, List.cons_append, trimStart, List.dropWhile_cons_of_neg (by simp [hc])]

/-- A line is read as what it was written for, with or without a carriage return at its end. -/
theorem setting?_chars {line : Line} (h : line.Legible) :
    setting? line.chars = line.setting? ∧ setting? (dropReturn line.chars) = line.setting? := by
  cases line with
  | remark text =>
    have hsilent : Silent text.toList := h.2
    exact ⟨hsilent.eq_none, hsilent.dropReturn.eq_none⟩
  | entry key value =>
    obtain ⟨htrim, -, hequals, hhash⟩ := h
    have hstart : (trimStart (key.toList ++ '=' :: escape value.toList)).head? ≠ some '#' := by
      by_cases hkey : key.toList = []
      · rw [hkey]
        have hequals : isBlank '=' = false := by decide
        rw [List.nil_append, trimStart, List.dropWhile_cons_of_neg (by simp [hequals])]
        simp
      · rw [trimStart_append htrim hkey, List.head?_append_of_ne_nil _ hkey]
        exact hhash
    have hvalue : '\r' ∉ escape value.toList := notMem_escape (.inr rfl) value.toList
    have hread : setting? (key.toList ++ '=' :: escape value.toList) = some (key, value) := by
      rw [setting?, if_neg hstart, splitFirst_append hequals, Option.map_some]
      dsimp only
      rw [dropReturn_of_notMem hvalue, unescape_escape, htrim, String.ofList_toList,
        String.ofList_toList]
    have hwhole : dropReturn (key.toList ++ '=' :: escape value.toList) =
        key.toList ++ '=' :: escape value.toList := by
      unfold dropReturn
      rw [if_neg]
      intro hlast
      rw [List.getLast?_append_of_ne_nil _ (List.cons_ne_nil _ _)] at hlast
      rcases List.mem_cons.1 (List.mem_of_getLast? hlast) with heq | hmem
      · exact absurd heq (by decide)
      · exact hvalue hmem
    rw [Line.chars, hwhole]
    exact ⟨hread, hread⟩

theorem Line.Legible.newline_notMem {line : Line} (h : line.Legible) : '\n' ∉ line.chars := by
  cases line with
  | remark text => exact h.1
  | entry key value =>
    rw [Line.chars, List.mem_append, List.mem_cons, not_or, not_or]
    exact ⟨h.2.1, by decide, notMem_escape (.inl rfl) value.toList⟩

/-! ## All lines -/

/-- What some lines say, in their order. -/
def said (ls : List (Line × LineEnd)) : List (String × String) :=
  ls.filterMap fun (line, _) => line.setting?

theorem linesOfPieces_append (ps : List (List Char)) {qs : List (List Char)} (h : qs ≠ []) :
    linesOfPieces (ps ++ qs) = ps.map dropReturn ++ linesOfPieces qs := by
  induction ps with
  | nil => rfl
  | cons p ps ih =>
    obtain ⟨q, rest, hrest⟩ := List.exists_cons_of_ne_nil (List.append_ne_nil_of_right_ne_nil ps h)
    rw [List.cons_append, List.map_cons, List.cons_append, ← ih, hrest, linesOfPieces]
    simp

/-- In front of a newline every piece is a line, without the carriage return at its end. -/
theorem lines_append_newline (cs rest : List Char) :
    lines (cs ++ '\n' :: rest) = (cs.splitOn '\n').map dropReturn ++ lines rest := by
  unfold lines
  rw [splitAll_eq_splitOn, splitAll_eq_splitOn, List.splitOn_append_cons_self,
    linesOfPieces_append _ (List.splitOn_ne_nil '\n' rest)]

/-- A line stands in front of the lines of what follows it. -/
theorem lines_append {cs : List Char} (h : '\n' ∉ cs) (rest : List Char) :
    lines (cs ++ '\n' :: rest) = dropReturn cs :: lines rest := by
  rw [lines_append_newline, List.splitOn_eq_singleton h]
  rfl

/-- In front of a text a line that has ended is read as what it was written for. -/
theorem exists_lines_append {line : Line} (hline : line.Legible) (stop : LineEnd)
    (rest : List Char) : ∃ shown, lines (line.chars ++ stop.chars ++ rest) = shown :: lines rest ∧
      setting? shown = line.setting? := by
  have hnewline := hline.newline_notMem
  rw [List.append_assoc]
  cases stop with
  | newline => exact ⟨_, lines_append hnewline _, (setting?_chars hline).2⟩
  | returnNewline =>
    have hreturn : '\n' ∉ line.chars ++ ['\r'] := by
      rw [List.mem_append, not_or]
      exact ⟨hnewline, by decide⟩
    refine ⟨line.chars, ?_, (setting?_chars hline).1⟩
    rw [← dropReturn_concat line.chars, ← lines_append hreturn]
    simp [LineEnd.chars, dropReturn_concat]

/-- Written lines are read as what they were written for, in order. -/
theorem filterMap_lines_write {ls : List (Line × LineEnd)} (h : ∀ l ∈ ls, l.1.Legible) :
    (lines (write ls)).filterMap setting? = said ls := by
  induction ls with
  | nil => rfl
  | cons l ls ih =>
    obtain ⟨line, stop⟩ := l
    obtain ⟨hline, hrest⟩ := List.forall_mem_cons.1 h
    obtain ⟨shown, hlines, hshown⟩ := exists_lines_append hline stop (write ls)
    have hcons : write ((line, stop) :: ls) = line.chars ++ stop.chars ++ write ls := by
      rw [write, List.flatMap_cons, ← write]
    rw [hcons, hlines, List.filterMap_cons, hshown, ih hrest]
    rfl

theorem ofBytes_eq_ofList {ls : List (Line × LineEnd)} (h : ∀ l ∈ ls, l.1.Legible) :
    ofBytes (encodeUtf8 (write ls)) = Table.ofList (said ls) := by
  rw [ofBytes, decodeLossy_encodeUtf8, ofChars, filterMap_lines_write h]

/-- **Settings are read as they were written.** Whatever remarks stand between the entries and
however the lines end, what is read is the table of the entries, and of two entries with one key it
has the later. -/
theorem ofBytes_write {ls : List (Line × LineEnd)} (h : ∀ l ∈ ls, l.1.Legible) :
    ofBytes (encodeUtf8 (write ls)) = Table.ofList (said ls) ∧
    ∀ key, (ofBytes (encodeUtf8 (write ls))).find? key = (said ls).reverse.lookup key := by
  refine ⟨ofBytes_eq_ofList h, ?_⟩
  intro key
  rw [ofBytes_eq_ofList h, Table.find?_ofList]

/-- A value with an `=`, a backslash, a line break and a blank at its end, behind a comment and an
older value of its key. -/
theorem ofBytes_write_repeated : (ofBytes (encodeUtf8 (write [(.entry "prefix" "GET", .newline),
    (.remark " # prefix=1", .returnNewline), (.remark "", .newline),
    (.entry "prefix" "a=\\n\r\n ", .returnNewline)]))).find? "prefix" = some "a=\\n\r\n " := by
  rw [(ofBytes_write (by decide)).2 "prefix"]
  decide

end Settings

end Camouflage
