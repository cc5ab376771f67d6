import Camouflage.Json.Write
import Camouflage.Proofs.Text.Cuts
import Camouflage.Proofs.Text.Numeral

/-!
# Reading JSON that was written

Each reader takes off the front of a text just what was written for it. A number has to be followed
by something that ends it (`Closed`), which in an object it is. The members of an object are read
one after the other: if each name read once takes the state of the names before it to that of one
name more, then a run takes the empty state to that of all names (`run_members`).
-/

namespace Camouflage.Json

open Text

/-- A text that goes on with the next member, or with the end of the object. -/
def Closed (rest : List Char) : Prop :=
  ∃ c tail, (c = ',' ∨ c = '}') ∧ rest = c :: tail

theorem closed_comma (tail : List Char) : Closed (',' :: tail) :=
  ⟨',', tail, .inl rfl, rfl⟩

theorem closed_brace (tail : List Char) : Closed ('}' :: tail) :=
  ⟨'}', tail, .inr rfl, rfl⟩

theorem skipSpaces_cons {c : Char} (hc : isSpace c = false) (rest : List Char) :
    skipSpaces (c :: rest) = c :: rest :=
  List.dropWhile_cons_of_neg (by simp [hc])

theorem isSpace_of_isDigit {c : Char} (h : c.isDigit = true) : isSpace c = false := by
  unfold isSpace
  simp only [Bool.or_eq_false_iff, decide_eq_false_iff_not]
  refine ⟨⟨⟨?_, ?_⟩, ?_⟩, ?_⟩
  all_goals
    rintro rfl
    exact absurd h (by decide)

/-! ## Numbers -/

namespace Number

/-- Digits are read whole if the value behind that of the digits before fits. -/
theorem wholePart_eq {sig : Nat} {cs : List Char}
    (h : sig * 10 ^ cs.length + numeralValue cs ≤ max64) :
    wholePart sig cs = (sig * 10 ^ cs.length + numeralValue cs, 0) := by
  induction cs generalizing sig with
  | nil => simp [wholePart, numeralValue]
  | cons c cs ih =>
    have hpow : (sig * 10 + digit c) * 10 ^ cs.length + numeralValue cs =
        sig * 10 ^ (c :: cs).length + numeralValue (c :: cs) := by
      rw [numeralValue_cons, List.length_cons, digit]
      ring
    have hle : (sig * 10 + digit c) * 1 ≤ (sig * 10 + digit c) * 10 ^ cs.length :=
      Nat.mul_le_mul_left _ (Nat.one_le_pow _ _ (by decide))
    rw [← hpow] at h ⊢
    rw [wholePart, if_neg (by omega), ih h]

/-- A number that was written is read back if it is within sixty-four bits. -/
theorem read_decimal {n : Nat} (hn : n ≤ max64) {rest : List Char} (hrest : Closed rest) :
    read false (decimal n ++ rest) = .ok (.natural n, rest) := by
  obtain ⟨c, tail, hc, rfl⟩ := hrest
  obtain ⟨hne, hdigits, hvalue⟩ := isNumeral_decimal n
  have hstop : ∀ x ∈ (c :: tail).head?, x.isDigit = false := by
    rintro _ ⟨⟩
    rcases hc with rfl | rfl <;> rfl
  have hform : ((decimal n).isEmpty || ((decimal n).length > 1 && (decimal n).head? = some '0'))
      = false := by
    rw [Bool.or_eq_false_iff]
    refine ⟨List.isEmpty_eq_false_iff.2 hne, ?_⟩
    rcases Nat.eq_zero_or_pos n with rfl | hpos
    · rw [decimal, if_pos (by decide)]
      rfl
    · simp [head?_decimal_ne_zero hpos]
  have hwhole : wholePart 0 (decimal n) = (n, 0) := by
    rw [wholePart_eq (by rwa [hvalue, Nat.zero_mul, Nat.zero_add]), hvalue, Nat.zero_mul,
      Nat.zero_add]
  unfold read
  rw [takeWhile_run hdigits hstop, dropWhile_run hdigits hstop]
  dsimp only
  rw [hform, hwhole]
  rcases hc with rfl | rfl <;> rfl

end Number

/-! ## Values -/

namespace Reader

theorem bind_apply {α β : Type} {r : Reader α} {f : α → Reader β} {cs cs' : List Char} {a : α}
    (h : r cs = .ok (a, cs')) : (r >>= f) cs = f a cs' := by
  change (r cs >>= fun p => f p.1 p.2) = _
  rw [h]
  rfl

theorem peek_cons {c : Char} (hc : isSpace c = false) (rest : List Char) :
    peek (c :: rest) = .ok (some c, c :: rest) := by
  rw [peek, skipSpaces_cons hc]
  rfl

theorem advance_cons (c : Char) (rest : List Char) : advance (c :: rest) = .ok ((), rest) :=
  rfl

theorem writeString_append (s : String) (rest : List Char) :
    writeString s ++ rest = '"' :: (stringBody s ++ '"' :: rest) := by
  simp [writeString]

theorem readString_written (s : String) (rest : List Char) :
    readString [] (stringBody s ++ '"' :: rest) = .ok (s, rest) := by
  rw [readString_stringBody]
  simp

theorem string_written (expected s : String) (rest : List Char) :
    string expected (writeString s ++ rest) = .ok (s, rest) := by
  rw [writeString_append, string, bind_apply (peek_cons rfl _)]
  change (advance >>= fun _ => readString []) _ = _
  rw [bind_apply (advance_cons _ _), readString_written]

theorem count_written (expected : String) {n : Nat} (hn : n ≤ max64) {rest : List Char}
    (hrest : Closed rest) : count expected (writeNat n ++ rest) = .ok (n, rest) := by
  obtain ⟨hne, hdigits, -⟩ := isNumeral_decimal n
  obtain ⟨c, cs, hcons⟩ := List.exists_cons_of_ne_nil hne
  have hc : c.isDigit = true := hdigits c (by rw [hcons]; exact List.mem_cons_self)
  have hbegin : Number.begin? (c :: (cs ++ rest)) = some (false, c :: (cs ++ rest)) := by
    unfold Number.begin?
    split
    · rename_i heq
      obtain ⟨rfl, -⟩ := List.cons.inj heq
      exact absurd hc (by decide)
    · rename_i heq
      obtain ⟨rfl, rfl⟩ := List.cons.inj heq
      rw [if_pos hc]
    · rename_i heq
      cases heq
  have hget : (get : Reader (List Char)) (c :: (cs ++ rest)) =
      .ok (c :: (cs ++ rest), c :: (cs ++ rest)) := rfl
  have hset : (set (c :: (cs ++ rest)) : Reader PUnit) (c :: (cs ++ rest)) =
      .ok (⟨⟩, c :: (cs ++ rest)) := rfl
  have hread := Number.read_decimal hn hrest
  rw [hcons, List.cons_append] at hread
  rw [writeNat, hcons, List.cons_append, count, bind_apply (peek_cons (isSpace_of_isDigit hc) _),
    bind_apply hget, hbegin]
  dsimp only
  rw [bind_apply hset, bind_apply hread]
  rfl

theorem colon_written (rest : List Char) : colon (':' :: rest) = .ok ((), rest) := by
  rw [colon, bind_apply (peek_cons rfl rest)]
  rfl

theorem close_written {bracket : Char} (hc : isSpace bracket = false) (rest : List Char) :
    close bracket (bracket :: rest) = .ok ((), rest) := by
  rw [close, bind_apply (peek_cons hc rest), if_pos rfl]
  rfl

theorem variantName_written {known : List String} {name : String} (hknown : name ∈ known)
    (rest : List Char) : variantName known (writeString name ++ rest) = .ok (name, rest) := by
  rw [writeString_append, variantName, bind_apply (peek_cons rfl _)]
  change (advance >>= _) _ = _
  rw [bind_apply (advance_cons _ _), bind_apply (readString_written name rest), if_pos hknown]
  rfl

section Variant

variable {α : Type} {known : List String} {bare : String → Option α} {full : String → Reader α}
  {name : String} {a : α}

theorem variant_written_bare (hknown : name ∈ known) (hbare : bare name = some a)
    (rest : List Char) : variant known bare full (writeString name ++ rest) = .ok (a, rest) := by
  have hname := variantName_written hknown rest
  rw [writeString_append] at hname
  rw [writeString_append, variant, bind_apply (peek_cons rfl _)]
  change (variantName known >>= _) _ = _
  rw [bind_apply hname, hbare]
  rfl

/-- A variant is read back if its content is. -/
theorem variant_written_full (hknown : name ∈ known) {content : List Char}
    (hcontent : ∀ rest, Closed rest → full name (content ++ rest) = .ok (a, rest))
    (rest : List Char) :
    variant known bare full (writeObject [(name, content)] ++ rest) = .ok (a, rest) := by
  have htext : writeObject [(name, content)] ++ rest =
      '{' :: (writeString name ++ ':' :: (content ++ '}' :: rest)) := by
    simp [writeObject, writeMember]
  rw [htext, variant, bind_apply (peek_cons rfl _)]
  change (advance >>= _) _ = _
  rw [bind_apply (advance_cons _ _), bind_apply (variantName_written hknown _),
    bind_apply (colon_written _), bind_apply (hcontent _ (closed_brace rest)),
    bind_apply (close_written rfl rest)]
  rfl

end Variant

/-! ## Members -/

theorem once_written {α : Type} {name : String} {read : Reader α} {value rest : List Char} {a : α}
    (h : read (value ++ rest) = .ok (a, rest)) :
    once name none read (':' :: (value ++ rest)) = .ok (some a, rest) := by
  change (colon >>= fun _ => read >>= fun a => pure (some a)) (':' :: (value ++ rest)) = _
  rw [bind_apply (colon_written _), bind_apply h]
  rfl

theorem name?_first (name : String) (rest : List Char) :
    name? true (writeString name ++ rest) = .ok (some name, rest) := by
  have hname := string_written "a name" name rest
  rw [writeString_append] at hname
  rw [writeString_append, name?, bind_apply (peek_cons rfl _)]
  change (string "a name" >>= _) _ = _
  rw [bind_apply hname]
  rfl

theorem name?_next (name : String) (rest : List Char) :
    name? false (',' :: (writeString name ++ rest)) = .ok (some name, rest) := by
  have hname := string_written "a name" name rest
  rw [writeString_append] at hname
  rw [writeString_append, name?, bind_apply (peek_cons rfl _)]
  change (advance >>= _) _ = _
  rw [bind_apply (advance_cons _ _), bind_apply (peek_cons rfl _)]
  change (string "a name" >>= _) _ = _
  rw [bind_apply hname]
  rfl

theorem name?_end (isFirst : Bool) (rest : List Char) :
    name? isFirst ('}' :: rest) = .ok (none, '}' :: rest) := by
  rw [name?, bind_apply (peek_cons rfl _)]
  rfl

/-- Members as they are written behind another one. -/
def laterMembers (ms : List (String × List Char)) : List Char :=
  ms.flatMap fun (name, value) => ',' :: writeMember name value

theorem writeObject_cons (name : String) (value : List Char) (ms : List (String × List Char)) :
    writeObject ((name, value) :: ms) =
      '{' :: (writeString name ++ ':' :: (value ++ (laterMembers ms ++ ['}']))) := by
  have hjoin : ∀ first : List Char, List.intercalate [',']
      (first :: ms.map fun (name, value) => writeMember name value) = first ++ laterMembers ms := by
    induction ms with
    | nil =>
      intro first
      simp [laterMembers]
    | cons m ms ih =>
      intro first
      rw [List.map_cons, List.intercalate_cons_cons, ih]
      simp [laterMembers]
  rw [writeObject, List.map_cons, hjoin]
  simp [writeMember]

theorem length_le_laterMembers (ms : List (String × List Char)) :
    ms.length ≤ (laterMembers ms).length := by
  induction ms with
  | nil => exact Nat.le_refl _
  | cons m ms ih =>
    simp only [laterMembers, List.flatMap_cons, List.length_append, List.length_cons] at ih ⊢
    omega

theorem closed_laterMembers (ms : List (String × List Char)) (rest : List Char) :
    Closed (laterMembers ms ++ '}' :: rest) := by
  cases ms with
  | nil => exact closed_brace rest
  | cons m ms => exact closed_comma _

section Members

variable {α : Type} {member : String → α → Reader α} {state : List String → α}

/-- Reading a member by its name, once and in whatever order, is to have seen one name more. -/
def Sees (member : String → α → Reader α) (state : List String → α)
    (m : String × List Char) : Prop :=
  ∀ seen rest, m.1 ∉ seen → Closed rest →
    member m.1 (state seen) (':' :: (m.2 ++ rest)) = .ok (state (m.1 :: seen), rest)

theorem membersFrom_cons {m : String × List Char} (hm : Sees member state m)
    {seen : List String} (hseen : m.1 ∉ seen) {isFirst : Bool} {fuel : Nat} {cs rest : List Char}
    (hname : name? isFirst cs = .ok (some m.1, ':' :: (m.2 ++ rest))) (hrest : Closed rest) :
    membersFrom member isFirst (state seen) (fuel + 1) cs =
      membersFrom member false (state (m.1 :: seen)) fuel rest := by
  rw [membersFrom, bind_apply hname]
  dsimp only
  rw [bind_apply (hm seen rest hseen hrest)]

/-- Members of different names behind those seen before are all seen in the end. -/
theorem membersFrom_later {ms : List (String × List Char)} (hms : ∀ m ∈ ms, Sees member state m)
    {seen : List String} (hnodup : (ms.map (·.1)).Nodup) (hseen : ∀ m ∈ ms, m.1 ∉ seen)
    {fuel : Nat} (hfuel : ms.length < fuel) (rest : List Char) :
    membersFrom member false (state seen) fuel (laterMembers ms ++ '}' :: rest) =
      .ok (state ((ms.map (·.1)).reverse ++ seen), '}' :: rest) := by
  induction ms generalizing seen fuel with
  | nil =>
    obtain ⟨fuel, rfl⟩ := Nat.exists_eq_add_of_lt hfuel
    rw [membersFrom]
    exact bind_apply (name?_end false rest)
  | cons m ms ih =>
    obtain ⟨hm, hms⟩ := List.forall_mem_cons.1 hms
    obtain ⟨hfresh, hseen⟩ := List.forall_mem_cons.1 hseen
    rw [List.map_cons, List.nodup_cons] at hnodup
    obtain ⟨fuel, rfl⟩ := Nat.exists_eq_add_of_lt hfuel
    have htext : laterMembers (m :: ms) ++ '}' :: rest =
        ',' :: (writeString m.1 ++ ':' :: (m.2 ++ (laterMembers ms ++ '}' :: rest))) := by
      simp [laterMembers, writeMember]
    have hnext : ∀ m' ∈ ms, m'.1 ∉ m.1 :: seen := by
      intro m' hm'
      rw [List.mem_cons, not_or]
      refine ⟨?_, hseen m' hm'⟩
      intro heq
      have hname := List.mem_map_of_mem (f := (·.1)) hm'
      rw [heq] at hname
      exact hnodup.1 hname
    rw [htext, membersFrom_cons hm hfresh (name?_next m.1 _) (closed_laterMembers ms rest),
      ih hms hnodup.2 hnext (by rw [List.length_cons]; omega)]
    simp

/-- An object of members of different names is read as what is made of all of them. -/
theorem readText_record {β : Type} {expected : String} {ofArray : Reader β} {finish : α → Reader β}
    {ms : List (String × List Char)} (hne : ms ≠ []) (hms : ∀ m ∈ ms, Sees member state m)
    (hnodup : (ms.map (·.1)).Nodup) {b : β}
    (hfinish : ∀ cs, finish (state (ms.map (·.1)).reverse) cs = .ok (b, cs)) :
    readText (record expected ofArray do finish (← members member (state [])))
      (String.ofList (writeObject ms)) = .ok b := by
  obtain ⟨⟨name, value⟩, ms, rfl⟩ := List.exists_cons_of_ne_nil hne
  obtain ⟨hm, hms⟩ := List.forall_mem_cons.1 hms
  rw [List.map_cons, List.nodup_cons] at hnodup
  let behind := laterMembers ms ++ ['}']
  let text := writeString name ++ ':' :: (value ++ behind)
  have hseen : ∀ m ∈ ms, m.1 ∉ [name] := by
    intro m hmem heq
    have hname := List.mem_map_of_mem (f := (·.1)) hmem
    rw [List.mem_singleton.1 heq] at hname
    exact hnodup.1 hname
  have hlength := length_le_laterMembers ms
  have hmembers : members member (state []) text =
      .ok (state (((name, value) :: ms).map (·.1)).reverse, ['}']) := by
    have hget : (get : Reader (List Char)) text = .ok (text, text) := rfl
    rw [members, bind_apply hget, membersFrom_cons hm (List.not_mem_nil) (name?_first name _)
      (closed_laterMembers ms []), membersFrom_later hms hnodup.2 hseen (by
        simp only [text, behind, List.length_append, List.length_cons]
        omega)]
    simp
  have hrecord : record expected ofArray (do finish (← members member (state [])))
      ('{' :: text) = .ok (b, []) := by
    rw [record, bind_apply (peek_cons rfl _)]
    change (advance >>= fun _ => (members member (state []) >>= finish) >>= _) _ = _
    have hobject : (members member (state []) >>= finish) text = .ok (b, ['}']) := by
      rw [bind_apply hmembers, hfinish]
    rw [bind_apply (advance_cons _ _), bind_apply hobject, bind_apply (close_written rfl [])]
    rfl
  rw [writeObject_cons, readText, String.toList_ofList]
  change (record expected ofArray _ ('{' :: text) >>= _) = _
  rw [hrecord]
  rfl

/-- The members of an object may stand in any order. -/
theorem readText_record_of_perm {β : Type} {expected : String} {ofArray : Reader β}
    {finish : α → Reader β} {ms all : List (String × List Char)} (hms : ms.Perm all)
    (hne : all ≠ []) (hall : ∀ m ∈ all, Sees member state m) (hnodup : (all.map (·.1)).Nodup)
    {b : β} (hfinish : ∀ {seen : List String}, (∀ m ∈ all, m.1 ∈ seen) →
      ∀ cs, finish (state seen) cs = .ok (b, cs)) :
    readText (record expected ofArray do finish (← members member (state [])))
      (String.ofList (writeObject ms)) = .ok b := by
  have hne' : ms ≠ [] := by
    rintro rfl
    exact hne hms.symm.eq_nil
  have hsees : ∀ m ∈ ms, Sees member state m := fun m hm => hall m (hms.mem_iff.1 hm)
  have hnodup' : (ms.map (·.1)).Nodup := (hms.map (·.1)).nodup_iff.2 hnodup
  refine readText_record hne' hsees hnodup' (hfinish ?_)
  intro m hm
  rw [List.mem_reverse]
  exact List.mem_map_of_mem (hms.mem_iff.2 hm)

end Members

end Reader

end Camouflage.Json
