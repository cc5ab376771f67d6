import Camouflage.Random.Source
import Mathlib.Algebra.Order.Ring.Nat

/-!
# What draws give

One lemma for each draw: what can be told of its value, whatever the source. A draw that has given
up has no value, so each of them is about the runs that have one.
-/

namespace Camouflage.Draw

variable {α β : Type}

theorem run_bind_eq_some_iff {d : Draw α} {f : α → Draw β} {s s' : Source} {b : β} :
    (d >>= f).run s = some (b, s') ↔
      ∃ a t, d.run s = some (a, t) ∧ (f a).run t = some (b, s') := by
  rw [StateT.run_bind]
  cases hd : d.run s with
  | none => simp
  | some r =>
    obtain ⟨a, t⟩ := r
    simp

theorem run_pure_eq_some_iff {a b : α} {s s' : Source} :
    (pure a : Draw α).run s = some (b, s') ↔ a = b ∧ s = s' := by
  simp [StateT.run_pure]

/-! ## Draws that take nothing -/

/-- A draw that gives the same value on every source and takes nothing from it. -/
def Idle (d : Draw α) : Prop :=
  ∃ a, ∀ s, d.run s = some (a, s)

theorem idle_pure (a : α) : (pure a : Draw α).Idle :=
  ⟨a, fun _ => rfl⟩

theorem Idle.bind {d : Draw α} {f : α → Draw β} (hd : d.Idle) (hf : ∀ a, (f a).Idle) :
    (d >>= f).Idle := by
  obtain ⟨a, ha⟩ := hd
  obtain ⟨b, hb⟩ := hf a
  refine ⟨b, ?_⟩
  intro s
  exact run_bind_eq_some_iff.2 ⟨a, s, ha s, hb s⟩

/-! ## Repeated draws -/

theorem length_of_run_times {d : Draw α} {n : Nat} {s s' : Source} {xs : List α}
    (h : (times d n).run s = some (xs, s')) : xs.length = n := by
  induction n generalizing s s' xs with
  | zero =>
    obtain ⟨rfl, -⟩ := run_pure_eq_some_iff.1 h
    rfl
  | succ n ih =>
    rw [times, run_bind_eq_some_iff] at h
    obtain ⟨a, t, -, h⟩ := h
    obtain ⟨rest, t', hrest, h⟩ := run_bind_eq_some_iff.1 h
    obtain ⟨rfl, -⟩ := run_pure_eq_some_iff.1 h
    rw [List.length_cons, ih hrest]

/-- Each of repeated draws has been drawn. -/
theorem exists_run_of_mem_times {d : Draw α} {n : Nat} {s s' : Source} {xs : List α}
    (h : (times d n).run s = some (xs, s')) {x : α} (hx : x ∈ xs) :
    ∃ t t', d.run t = some (x, t') := by
  induction n generalizing s s' xs with
  | zero =>
    obtain ⟨rfl, -⟩ := run_pure_eq_some_iff.1 h
    cases hx
  | succ n ih =>
    rw [times, run_bind_eq_some_iff] at h
    obtain ⟨a, t, ha, h⟩ := h
    obtain ⟨rest, t', hrest, h⟩ := run_bind_eq_some_iff.1 h
    obtain ⟨rfl, -⟩ := run_pure_eq_some_iff.1 h
    rcases List.mem_cons.1 hx with rfl | hx
    · exact ⟨s, t, ha⟩
    · exact ih hrest hx

/-- What a search gives has been accepted. -/
theorem exists_accept_of_run_search {accept : UInt32 → Option α} {tries : Nat} {s s' : Source}
    {a : α} (h : (search accept tries).run s = some (a, s')) : ∃ w, accept w = some a := by
  induction tries generalizing s s' with
  | zero => cases h
  | succ tries ih =>
    rw [search, run_bind_eq_some_iff] at h
    obtain ⟨w, t, -, h⟩ := h
    split at h
    · rename_i b hb
      obtain ⟨rfl, -⟩ := run_pure_eq_some_iff.1 h
      exact ⟨w, hb⟩
    · exact ih h

/-! ## Bytes -/

theorem length_flatMap_ofWord (ws : List UInt32) :
    (ws.flatMap Bytes.ofWord).length = 4 * ws.length := by
  simp [List.length_flatMap, List.map_const', Nat.mul_comm]

theorem length_of_run_bytes {n : Nat} {s s' : Source} {bs : Bytes}
    (h : (bytes n).run s = some (bs, s')) : bs.length = n := by
  rw [run_bytes, Option.some.injEq, Prod.mk.injEq] at h
  rw [← h.1, List.length_take, length_flatMap_ofWord, Source.length_peek]
  omega

/-- Any two bytes are drawn from some source. -/
theorem exists_run_bytes_two (i j : UInt8) : ∃ s s', (bytes 2).run s = some ([i, j], s') := by
  let w : UInt32 := UInt32.ofNat (i.toNat + 256 * j.toNat)
  have hi := i.toNat_lt
  have hj := j.toNat_lt
  have hw : w.toNat = i.toNat + 256 * j.toNat := by
    rw [UInt32.toNat_ofNat']
    omega
  have hlow : w.toUInt8 = i := by
    rw [← UInt8.toNat_inj, UInt32.toNat_toUInt8, hw]
    omega
  have hhigh : (w >>> 8).toUInt8 = j := by
    rw [← UInt8.toNat_inj, UInt32.toNat_toUInt8, UInt32.toNat_shiftRight, hw]
    have hshift : (8 : UInt32).toNat % 32 = 8 := rfl
    rw [hshift, Nat.shiftRight_eq_div_pow]
    omega
  refine ⟨⟨fun _ => w, 0⟩, ⟨fun _ => w, 1⟩, ?_⟩
  have hbytes : (Bytes.ofWord w).take 2 = [i, j] := by
    rw [Bytes.ofWord, hlow, hhigh]
    rfl
  rw [← hbytes]
  rfl

/-! ## Numbers in a range -/

theorem run_between_of_le {least most : Nat} (h : most ≤ least) (s : Source) :
    (between least most).run s = some (least, s) := by
  rw [between, if_pos h]
  rfl

theorem lt_of_run_number {wide : Bool} {s s' : Source} {x : Nat}
    (h : (number wide).run s = some (x, s')) :
    x < if wide then wordSpan * wordSpan else wordSpan := by
  cases wide with
  | false =>
    obtain ⟨w, t, -, h⟩ := run_bind_eq_some_iff.1 h
    obtain ⟨rfl, -⟩ := run_pure_eq_some_iff.1 h
    exact w.toNat_lt
  | true =>
    obtain ⟨low, t, -, h⟩ := run_bind_eq_some_iff.1 h
    obtain ⟨high, t', -, h⟩ := run_bind_eq_some_iff.1 h
    obtain ⟨rfl, -⟩ := run_pure_eq_some_iff.1 h
    have hlow := low.toNat_lt
    have hhigh := high.toNat_lt
    simp only [wordSpan, ↓reduceIte] at *
    omega

section Scaling

variable {x full span : Nat} (hx : x < full)

include hx

theorem scaled_lt (hspan : 0 < span) : x * span / full < span := by
  apply Nat.div_lt_of_lt_mul
  exact Nat.mul_lt_mul_of_pos_right hx hspan

/-- The low half is large only if the high half is not the largest one. -/
theorem scaled_add_one_lt (hspan : 0 < span) (hlow : full - span < x * span % full) :
    x * span / full + 1 < span := by
  obtain ⟨k, rfl⟩ := Nat.exists_eq_add_of_lt hspan
  have hdiv := Nat.div_add_mod (x * (0 + k + 1)) full
  have hle : x * (0 + k + 1) ≤ (full - 1) * (0 + k + 1) :=
    Nat.mul_le_mul_right _ (by omega)
  have hsub : (full - 1) * (0 + k + 1) = full * (0 + k + 1) - (0 + k + 1) := by
    rw [Nat.sub_mul, Nat.one_mul]
  have hsucc : full * (0 + k + 1) = full * k + full := by
    rw [Nat.zero_add, Nat.mul_succ]
  by_contra hge
  have hmul : full * k ≤ full * (x * (0 + k + 1) / full) :=
    Nat.mul_le_mul_left _ (by omega)
  omega

end Scaling

/-- A number of a range lies in it. -/
theorem mem_of_run_between {least most : Nat} {s s' : Source} {n : Nat} (hle : least ≤ most)
    (hmost : most < wordSpan * wordSpan) (h : (between least most).run s = some (n, s')) :
    least ≤ n ∧ n ≤ most := by
  by_cases hone : most ≤ least
  · rw [run_between_of_le hone, Option.some.injEq, Prod.mk.injEq] at h
    omega
  · simp only [between, if_neg hone] at h
    generalize hwide : decide (most ≥ wordSpan) = wide at h
    generalize hfull : (if wide = true then wordSpan * wordSpan else wordSpan) = full at h
    have hnumber : ∀ {t t' : Source} {x : Nat}, (number wide).run t = some (x, t') → x < full := by
      intro t t' x hx
      rw [← hfull]
      exact lt_of_run_number hx
    have hfit : most < full := by
      cases wide with
      | false => simpa [← hfull] using hwide
      | true => simpa [← hfull] using hmost
    split at h
    · rename_i hspan
      have hx := hnumber h
      have hdvd := Nat.dvd_of_mod_eq_zero hspan
      have hfull_le := Nat.le_of_dvd (by omega) hdvd
      omega
    · rename_i hspan
      have hsmall : most - least + 1 < full := by
        rcases Nat.lt_or_ge (most - least + 1) full with hlt | hge
        · exact hlt
        · rw [show most - least + 1 = full by omega, Nat.mod_self] at hspan
          exact absurd rfl hspan
      rw [Nat.mod_eq_of_lt hsmall] at h
      obtain ⟨x, t, hx, h⟩ := run_bind_eq_some_iff.1 h
      have hpos : 0 < most - least + 1 := Nat.succ_pos _
      have hhigh := scaled_lt (hnumber hx) hpos
      have hlast := scaled_add_one_lt (hnumber hx) hpos
      generalize x * (most - least + 1) / full = high at h hhigh hlast
      split at h
      · rename_i hlow
        obtain ⟨y, t', hy, h⟩ := run_bind_eq_some_iff.1 h
        obtain ⟨rfl, -⟩ := run_pure_eq_some_iff.1 h
        have hhigh' := hlast hlow
        split <;> omega
      · obtain ⟨rfl, -⟩ := run_pure_eq_some_iff.1 h
        omega

/-! ## Picking from an alphabet -/

theorem lt_of_run_index {size : Nat} {s s' : Source} {i : Nat}
    (h : (index size).run s = some (i, s')) (hsize : 0 < size) : i < size := by
  obtain ⟨w, hw⟩ := exists_accept_of_run_search h
  dsimp only at hw
  split at hw
  · rw [← Option.some.inj hw]
    exact scaled_lt w.toNat_lt hsize
  · cases hw

theorem of_run_chooseFrom {alphabet : Bytes} (hne : alphabet ≠ []) {n : Nat} {s s' : Source}
    {bs : Bytes} (h : (chooseFrom alphabet n).run s = some (bs, s')) :
    bs.length = n ∧ ∀ b ∈ bs, b ∈ alphabet := by
  unfold chooseFrom at h
  split at h
  · exact absurd rfl hne
  · refine ⟨length_of_run_times h, ?_⟩
    intro b hb
    obtain ⟨t, t', hpick⟩ := exists_run_of_mem_times h hb
    obtain ⟨i, u, hi, hpick⟩ := run_bind_eq_some_iff.1 hpick
    obtain ⟨rfl, -⟩ := run_pure_eq_some_iff.1 hpick
    have hlt := lt_of_run_index hi (List.length_pos_iff.2 hne)
    rw [← List.getElem_eq_getD (h := hlt) 0]
    exact List.getElem_mem hlt

end Camouflage.Draw
