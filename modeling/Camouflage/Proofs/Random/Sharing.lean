import Camouflage.Random.Handles

/-!
# Handles that share sources

A script is a row of steps: a handle on a freshly seeded source is made, a handle is copied, or
something is drawn through a handle. Handles are numbered in the order in which they are made.

A handle that is made for a source stays on it, and so do its copies (`onPlace`); a draw
changes the source it is on and no other one. So along a script each source goes through what it
would go through with a single handle on it (`exists_run_single`), and a script can be run to its
end if that can be done for each source alone (`isSome_run`). And through a single handle the draws
are made one after the other, each on what the one before has left (`run_asks_single`). All three
together are `run_factors`.
-/

namespace Camouflage.Handles

/-! ## Scripts -/

/-- What can be drawn through a handle. -/
inductive Request where
  /-- To fill a buffer of so many bytes. -/
  | fill (count : Nat)
  | bytes (count : Nat)
  | between (least most : Nat)
  | alphanumeric (count : Nat)
  | chooseFrom (alphabet : Bytes) (count : Nat)
  deriving DecidableEq, Repr

/-- What has been drawn. -/
inductive Drawn where
  | bytes (bytes : Bytes)
  | number (number : Nat)
  deriving DecidableEq, Repr

def Request.draw : Request → Draw Drawn
  | .fill count => return .bytes (← Draw.bytes count)
  | .bytes count => return .bytes (← Draw.bytes count)
  | .between least most => return .number (← Draw.between least most)
  | .alphanumeric count => return .bytes (← Draw.times Draw.alphanumeric count)
  | .chooseFrom alphabet count => return .bytes (← Draw.chooseFrom alphabet count)

inductive Step where
  /-- A handle is made on a new source. -/
  | seed (seed : UInt64)
  /-- A handle is copied. -/
  | copy (handle : Nat)
  | ask (handle : Nat) (request : Request)
  deriving DecidableEq, Repr

/-- What a step gives. -/
inductive Outcome where
  | handle (handle : Nat)
  | drawn (drawn : Drawn)
  deriving DecidableEq, Repr

namespace Step

/-- How many handles a step makes. -/
def makes : Step → Nat
  | .ask _ _ => 0
  | _ => 1

/-- A draw, made through another handle. -/
def through (handle : Nat) : Step → Step
  | .ask _ request => .ask handle request
  | step => step

def request? : Step → Option Request
  | .ask _ request => some request
  | _ => none

end Step

/-- How many handles are made. -/
def made : List Step → Nat
  | [] => 0
  | step :: steps => step.makes + made steps

/-- Each step is about a handle that is there, if there are `next` of them at first. -/
def Known (next : Nat) : List Step → Prop
  | [] => True
  | .seed _ :: rest => Known (next + 1) rest
  | .copy handle :: rest => handle < next ∧ Known (next + 1) rest
  | .ask handle _ :: rest => handle < next ∧ Known next rest

/-- Some handles, and one more if that is a copy of one of them. -/
def including (mine : Nat → Bool) (handle copy : Nat) : Nat → Bool :=
  fun i => if i = copy then mine handle else mine i

/-- Of a list along some steps, what stands at the draws through some handles and through copies of
them that are made on the way. The next handle to be made has the number `next`. -/
def select {α : Type} (mine : Nat → Bool) (next : Nat) : List Step → List α → List α
  | .seed _ :: steps, _ :: xs => select mine (next + 1) steps xs
  | .copy handle :: steps, _ :: xs => select (including mine handle next) (next + 1) steps xs
  | .ask handle _ :: steps, x :: xs =>
    if mine handle then x :: select mine next steps xs else select mine next steps xs
  | _, _ => []

/-- Of a list along the steps `after` a seeding step, what stands at the draws through the handle
that has been made there and through all that descend from it by copying. There are `first` handles
to begin with. -/
def descended {α : Type} (first : Nat) (before after : List Step) (xs : List α) : List α :=
  select (· = first + made before) (first + made before + 1) after xs

/-- A seeding step and, through its handle only, the draws on its source. -/
def alone (before : List Step) (seed : UInt64) (after : List Step) : List Step :=
  .seed seed :: (descended 0 before after after).map (Step.through 0)

def perform (hs : Handles) : Step → Option (Outcome × Handles)
  | .seed seed =>
    let (handle, hs) := hs.add (Source.ofSeed seed)
    some (.handle handle, hs)
  | .copy handle => (hs.copy handle).map (Prod.map .handle id)
  | .ask handle request => (hs.draw handle request.draw).map (Prod.map .drawn id)

/-- What some steps give, one after the other, and the handles behind them, if each handle is there
and no draw gives up. -/
def run : List Step → Handles → Option (List Outcome × Handles)
  | [], hs => some ([], hs)
  | step :: rest, hs =>
    (hs.perform step).bind fun r => (run rest r.2).map (Prod.map (r.1 :: ·) id)

variable {hs hs' : Handles} {steps : List Step} {outcomes : List Outcome}

theorem run_cons_eq_some_iff {step : Step} :
    run (step :: steps) hs = some (outcomes, hs') ↔
      ∃ outcome hs₁ rest, hs.perform step = some (outcome, hs₁) ∧
        run steps hs₁ = some (rest, hs') ∧ outcomes = outcome :: rest := by
  simp only [run, Option.bind_eq_some_iff, Option.map_eq_some_iff, Prod.exists, Prod.map,
    Prod.mk.injEq, id_eq]
  constructor
  · rintro ⟨outcome, hs₁, hstep, rest, hs₂, hrun, rfl, rfl⟩
    exact ⟨outcome, hs₁, rest, hstep, hrun, rfl⟩
  · rintro ⟨outcome, hs₁, rest, hstep, hrun, rfl⟩
    exact ⟨outcome, hs₁, hstep, rest, hs', hrun, rfl, rfl⟩

theorem run_append_eq_some_iff {more : List Step} :
    run (steps ++ more) hs = some (outcomes, hs') ↔
      ∃ first hs₁ rest, run steps hs = some (first, hs₁) ∧ run more hs₁ = some (rest, hs') ∧
        outcomes = first ++ rest := by
  induction steps generalizing hs outcomes with
  | nil =>
    constructor
    · intro h
      exact ⟨[], hs, outcomes, rfl, h, rfl⟩
    · rintro ⟨first, hs₁, rest, hfirst, hmore, rfl⟩
      cases hfirst
      exact hmore
  | cons step steps ih =>
    rw [List.cons_append, run_cons_eq_some_iff]
    constructor
    · rintro ⟨outcome, hs₁, others, hstep, hrun, rfl⟩
      obtain ⟨first, hs₂, rest, hfirst, hmore, rfl⟩ := ih.1 hrun
      exact ⟨outcome :: first, hs₂, rest,
        run_cons_eq_some_iff.2 ⟨outcome, hs₁, first, hstep, hfirst, rfl⟩, hmore, rfl⟩
    · rintro ⟨first, hs₂, rest, hfirst, hmore, rfl⟩
      obtain ⟨outcome, hs₁, others, hstep, hrun, rfl⟩ := run_cons_eq_some_iff.1 hfirst
      exact ⟨outcome, hs₁, others ++ rest, hstep, ih.2 ⟨others, hs₂, rest, hrun, hmore, rfl⟩, rfl⟩

/-! ## What one step does -/

theorem perform_seed (hs : Handles) (seed : UInt64) :
    hs.perform (.seed seed) =
      some (.handle hs.places.length, (hs.add (Source.ofSeed seed)).2) :=
  rfl

section Copy

variable {handle place : Nat}

/-- The handles with a copy of one on `place`. -/
def withCopy (hs : Handles) (place : Nat) : Handles :=
  { hs with places := hs.places ++ [place] }

theorem perform_copy (h : hs.places[handle]? = some place) :
    hs.perform (.copy handle) = some (.handle hs.places.length, hs.withCopy place) := by
  simp [perform, copy, h, withCopy]

theorem exists_of_perform_copy {outcome : Outcome}
    (h : hs.perform (.copy handle) = some (outcome, hs')) :
    ∃ place, hs.places[handle]? = some place ∧ hs' = hs.withCopy place := by
  cases hplace : hs.places[handle]? with
  | none => simp [perform, copy, hplace] at h
  | some place =>
    rw [perform_copy hplace, Option.some.injEq, Prod.mk.injEq] at h
    exact ⟨place, rfl, h.2.symm⟩

end Copy

section Ask

variable {handle place : Nat} {request : Request} {s : Source}

/-- The handles with another source in one place. -/
def withSource (hs : Handles) (place : Nat) (s : Source) : Handles :=
  { hs with sources := hs.sources.set place s }

theorem perform_ask (hplace : hs.places[handle]? = some place)
    (hsource : hs.sources[place]? = some s) :
    hs.perform (.ask handle request) =
      (request.draw.run s).map fun r => (.drawn r.1, hs.withSource place r.2) := by
  cases hdraw : request.draw.run s <;> simp [perform, draw, hplace, hsource, hdraw, withSource]

theorem exists_of_perform_ask {outcome : Outcome}
    (h : hs.perform (.ask handle request) = some (outcome, hs')) :
    ∃ place s drawn s', hs.places[handle]? = some place ∧ hs.sources[place]? = some s ∧
      request.draw.run s = some (drawn, s') ∧ outcome = .drawn drawn ∧
      hs' = hs.withSource place s' := by
  cases hplace : hs.places[handle]? with
  | none => simp [perform, draw, hplace] at h
  | some place =>
    cases hsource : hs.sources[place]? with
    | none => simp [perform, draw, hplace, hsource] at h
    | some s =>
      rw [perform_ask hplace hsource] at h
      obtain ⟨⟨drawn, s'⟩, hdraw, h⟩ := Option.map_eq_some_iff.1 h
      obtain ⟨rfl, rfl⟩ := Prod.mk.inj h
      exact ⟨place, s, drawn, s', rfl, hsource, hdraw, rfl, rfl⟩

end Ask

/-! ## Handles on one source -/

/-- Whether a handle is on the source in one place. -/
def onPlace (hs : Handles) (place : Nat) : Nat → Bool :=
  fun handle => hs.places[handle]? = some place

/-- Each handle is on a source. -/
def Sound (hs : Handles) : Prop :=
  ∀ place ∈ hs.places, place < hs.sources.length

theorem sound_empty : empty.Sound := by
  simp [Sound, empty]

theorem Sound.add (h : hs.Sound) (s : Source) : (hs.add s).2.Sound := by
  intro place hplace
  simp only [Handles.add, List.mem_append, List.mem_singleton, List.length_append,
    List.length_singleton] at hplace ⊢
  rcases hplace with hplace | rfl
  · exact Nat.lt_succ_of_lt (h place hplace)
  · exact Nat.lt_succ_self _

theorem Sound.withCopy (h : hs.Sound) {handle place : Nat}
    (hplace : hs.places[handle]? = some place) : (hs.withCopy place).Sound := by
  intro other hother
  simp only [Handles.withCopy, List.mem_append, List.mem_singleton] at hother ⊢
  rcases hother with hother | rfl
  · exact h other hother
  · exact h _ (List.mem_of_getElem? hplace)

theorem Sound.withSource (h : hs.Sound) (place : Nat) (s : Source) :
    (hs.withSource place s).Sound := by
  simpa only [Sound, Handles.withSource, List.length_set] using h

theorem getElem?_concat {α : Type} (xs : List α) (x : α) (i : Nat) :
    (xs ++ [x])[i]? = if i = xs.length then some x else xs[i]? := by
  grind

theorem onPlace_withCopy {handle place : Nat} (hplace : hs.places[handle]? = some place)
    (other : Nat) :
    (hs.withCopy place).onPlace other =
      including (hs.onPlace other) handle hs.places.length := by
  funext i
  simp only [onPlace, including, withCopy, getElem?_concat]
  by_cases hi : i = hs.places.length
  · rw [if_pos hi, if_pos hi, hplace]
  · rw [if_neg hi, if_neg hi]

/-- A new handle is on no other source. -/
theorem onPlace_add_of_lt {place : Nat} (h : place < hs.sources.length) (s : Source) :
    (hs.add s).2.onPlace place = hs.onPlace place := by
  funext i
  simp only [onPlace, add, getElem?_concat]
  by_cases hi : i = hs.places.length
  · simp [hi, Nat.ne_of_gt h]
  · rw [if_neg hi]

/-- And no other handle is on its source. -/
theorem onPlace_add_self (h : hs.Sound) (s : Source) :
    (hs.add s).2.onPlace hs.sources.length = (· = hs.places.length) := by
  funext i
  simp only [onPlace, add, getElem?_concat]
  by_cases hi : i = hs.places.length
  · simp [hi]
  · rw [if_neg hi, decide_eq_decide, iff_false_right hi]
    intro hplace
    exact Nat.lt_irrefl _ (h _ (List.mem_of_getElem? hplace))

/-- Of a list along some steps, what stands at the draws on the source in one place. -/
def along {α : Type} (hs : Handles) (place : Nat) (steps : List Step) (xs : List α) : List α :=
  select (hs.onPlace place) hs.places.length steps xs

section Along

variable {α : Type} {x : α} {xs : List α} {handle place other : Nat} {request : Request}

theorem along_seed (h : place < hs.sources.length) (seed : UInt64) :
    hs.along place (.seed seed :: steps) (x :: xs) =
      (hs.add (Source.ofSeed seed)).2.along place steps xs := by
  rw [along, along, onPlace_add_of_lt h]
  simp [select, add]

theorem along_copy (h : hs.places[handle]? = some other) :
    hs.along place (.copy handle :: steps) (x :: xs) =
      (hs.withCopy other).along place steps xs := by
  rw [along, along, onPlace_withCopy h]
  simp [select, withCopy]

theorem along_ask_self (h : hs.places[handle]? = some place) (s : Source) :
    hs.along place (.ask handle request :: steps) (x :: xs) =
      x :: (hs.withSource place s).along place steps xs :=
  if_pos (decide_eq_true h)

theorem along_ask_other (h : hs.places[handle]? = some other) (hne : other ≠ place) (s : Source) :
    hs.along place (.ask handle request :: steps) (x :: xs) =
      (hs.withSource other s).along place steps xs := by
  have hnot : ¬ hs.onPlace place handle = true := by
    simp [onPlace, h, hne]
  exact if_neg hnot

/-- Behind a seeding step, the draws on its source are those through what descends from it. -/
theorem along_add_self (h : hs.Sound) (s : Source) :
    (hs.add s).2.along hs.sources.length steps xs =
      select (· = hs.places.length) (hs.places.length + 1) steps xs := by
  rw [along, onPlace_add_self h]
  simp [add]

end Along

/-! ## One source along a script -/

/-- One handle on one source. -/
def single (s : Source) : Handles :=
  ⟨[s], [0]⟩

theorem perform_ask_single (s : Source) (request : Request) :
    (single s).perform (.ask 0 request) =
      (request.draw.run s).map fun r => (.drawn r.1, single r.2) := by
  have hplace : (single s).places[0]? = some 0 := rfl
  have hsource : (single s).sources[0]? = some s := rfl
  exact perform_ask hplace hsource

/-- The draws of a script on the source in one place, made through a single handle. -/
def drawsOn (hs : Handles) (place : Nat) (steps : List Step) : List Step :=
  (hs.along place steps steps).map (Step.through 0)

section Place

variable {place : Nat} {s : Source}

theorem getElem?_withSource_self {s' : Source} (h : hs.sources[place]? = some s) :
    (hs.withSource place s').sources[place]? = some s' :=
  List.getElem?_set_self (List.getElem?_eq_some_iff.1 h).1

theorem getElem?_withSource_of_ne {other : Nat} (hne : other ≠ place) (s' : Source) :
    (hs.withSource other s').sources[place]? = hs.sources[place]? :=
  List.getElem?_set_ne hne

/-- **What a script does to one source.** If it can be run to its end, the draws on the source give
what they give alone, and leave the source as they leave it alone. -/
theorem exists_run_single (hrun : run steps hs = some (outcomes, hs'))
    (hsource : hs.sources[place]? = some s) :
    ∃ s', run (hs.drawsOn place steps) (single s) =
        some (hs.along place steps outcomes, single s') ∧
      hs'.sources[place]? = some s' := by
  induction steps generalizing hs outcomes s with
  | nil =>
    cases hrun
    exact ⟨s, rfl, hsource⟩
  | cons step steps ih =>
    obtain ⟨outcome, hs₁, rest, hstep, hrun, rfl⟩ := run_cons_eq_some_iff.1 hrun
    cases step with
    | seed seed =>
      obtain ⟨rfl, rfl⟩ := Prod.mk.inj (Option.some.inj hstep)
      have hlt := (List.getElem?_eq_some_iff.1 hsource).1
      rw [drawsOn, along_seed hlt, along_seed hlt]
      exact ih hrun ((List.getElem?_append_left hlt).trans hsource)
    | copy handle =>
      obtain ⟨other, hother, rfl⟩ := exists_of_perform_copy hstep
      rw [drawsOn, along_copy hother, along_copy hother]
      exact ih hrun hsource
    | ask handle request =>
      obtain ⟨other, t, drawn, t', hother, ht, hdraw, rfl, rfl⟩ := exists_of_perform_ask hstep
      -- Only a draw on this very source shows in the run of the single handle.
      by_cases hplace : other = place
      · subst hplace
        obtain rfl := Option.some.inj (ht.symm.trans hsource)
        obtain ⟨s', hsingle, hleft⟩ := ih hrun (getElem?_withSource_self ht)
        refine ⟨s', ?_, hleft⟩
        rw [drawsOn, along_ask_self hother t', along_ask_self hother t', List.map_cons,
          run_cons_eq_some_iff]
        refine ⟨.drawn drawn, single t', _, ?_, hsingle, rfl⟩
        rw [Step.through, perform_ask_single, hdraw]
        rfl
      · rw [drawsOn, along_ask_other hother hplace t', along_ask_other hother hplace t']
        exact ih hrun ((getElem?_withSource_of_ne hplace t').trans hsource)

end Place

/-! ## Draws one after the other -/

/-- Through a single handle, draws are made one after the other on its source. -/
theorem run_asks_single (requests : List Request) (s : Source) :
    run (requests.map (.ask 0)) (single s) =
      ((requests.mapM Request.draw).run s).map fun r => (r.1.map .drawn, single r.2) := by
  induction requests generalizing s with
  | nil => rfl
  | cons request rest ih =>
    rw [List.map_cons, run, perform_ask_single, List.mapM_cons, StateT.run_bind]
    cases request.draw.run s with
    | none => rfl
    | some r =>
      obtain ⟨drawn, t⟩ := r
      simp only [Option.map_some, Option.bind_some, ih]
      rw [Option.bind_eq_bind, Option.bind_some, StateT.run_bind]
      cases (rest.mapM Request.draw).run t <;> rfl

/-- What is selected from a script are draws. -/
theorem map_through_select (mine : Nat → Bool) (next : Nat) (steps : List Step) :
    (select mine next steps steps).map (Step.through 0) =
      ((select mine next steps steps).filterMap Step.request?).map (.ask 0) := by
  induction steps generalizing mine next with
  | nil => rfl
  | cons step steps ih =>
    cases step with
    | seed seed => exact ih mine (next + 1)
    | copy handle => exact ih (including mine handle next) (next + 1)
    | ask handle request =>
      rw [select]
      split
      · exact congrArg (Step.ask 0 request :: ·) (ih mine next)
      · exact ih mine next

/-! ## Whole scripts -/

theorem isSome_run_cons {step : Step} {outcome : Outcome}
    (hstep : hs.perform step = some (outcome, hs')) (hrun : (run steps hs').isSome = true) :
    (run (step :: steps) hs).isSome = true := by
  obtain ⟨⟨rest, hs₁⟩, hrun⟩ := Option.isSome_iff_exists.1 hrun
  rw [run_cons_eq_some_iff.2 ⟨outcome, hs', rest, hstep, hrun, rfl⟩]
  rfl

theorem length_places_of_perform {step : Step} {outcome : Outcome}
    (h : hs.perform step = some (outcome, hs')) :
    hs'.places.length = hs.places.length + step.makes := by
  cases step with
  | seed seed =>
    obtain ⟨-, rfl⟩ := Prod.mk.inj (Option.some.inj h)
    exact List.length_append
  | copy handle =>
    obtain ⟨place, -, rfl⟩ := exists_of_perform_copy h
    exact List.length_append
  | ask handle request =>
    obtain ⟨place, s, drawn, s', -, -, -, -, rfl⟩ := exists_of_perform_ask h
    rfl

theorem Sound.perform (hsound : hs.Sound) {step : Step} {outcome : Outcome}
    (h : hs.perform step = some (outcome, hs')) : hs'.Sound := by
  cases step with
  | seed seed =>
    obtain ⟨-, rfl⟩ := Prod.mk.inj (Option.some.inj h)
    exact hsound.add _
  | copy handle =>
    obtain ⟨place, hplace, rfl⟩ := exists_of_perform_copy h
    exact hsound.withCopy hplace
  | ask handle request =>
    obtain ⟨place, s, drawn, s', -, -, -, -, rfl⟩ := exists_of_perform_ask h
    exact hsound.withSource place s'

/-- Each handle that has been made is there, and on a source. -/
theorem Sound.run (hsound : hs.Sound) (hrun : Handles.run steps hs = some (outcomes, hs')) :
    hs'.Sound ∧ hs'.places.length = hs.places.length + made steps := by
  induction steps generalizing hs outcomes with
  | nil =>
    cases hrun
    exact ⟨hsound, rfl⟩
  | cons step steps ih =>
    obtain ⟨outcome, hs₁, rest, hstep, hrest, rfl⟩ := run_cons_eq_some_iff.1 hrun
    obtain ⟨hsound', hlength⟩ := ih (hsound.perform hstep) hrest
    refine ⟨hsound', ?_⟩
    rw [hlength, length_places_of_perform hstep, made, Nat.add_assoc]

theorem length_of_run (hrun : run steps hs = some (outcomes, hs')) :
    outcomes.length = steps.length := by
  induction steps generalizing hs outcomes with
  | nil =>
    cases hrun
    rfl
  | cons step steps ih =>
    obtain ⟨outcome, hs₁, rest, -, hrest, rfl⟩ := run_cons_eq_some_iff.1 hrun
    rw [List.length_cons, List.length_cons, ih hrest]

/-- A script can be run to its end if that can be done for each source alone: for those that are
there, and for those that are seeded on the way. -/
theorem isSome_run (hsound : hs.Sound) (hknown : Known hs.places.length steps)
    (hplaces : ∀ place s, hs.sources[place]? = some s →
      (run (hs.drawsOn place steps) (single s)).isSome = true)
    (hseeds : ∀ before seed after, steps = before ++ .seed seed :: after →
      (run ((descended hs.places.length before after after).map (Step.through 0))
        (single (Source.ofSeed seed))).isSome = true) :
    (run steps hs).isSome = true := by
  induction steps generalizing hs with
  | nil => rfl
  | cons step steps ih =>
    -- What is seeded later has the same number, counted from behind this step.
    have hlater : ∀ {outcome hs₁}, hs.perform step = some (outcome, hs₁) →
        ∀ before seed after, steps = before ++ .seed seed :: after →
          (run ((descended hs₁.places.length before after after).map (Step.through 0))
            (single (Source.ofSeed seed))).isSome = true := by
      intro outcome hs₁ hstep before seed after hsteps
      have hcount : hs₁.places.length + made before =
          hs.places.length + made (step :: before) := by
        rw [length_places_of_perform hstep, made, Nat.add_assoc]
      rw [descended, hcount]
      exact hseeds (step :: before) seed after (congrArg _ hsteps)
    cases step with
    | seed seed =>
      have hstep := hs.perform_seed seed
      refine isSome_run_cons hstep (ih (hsound.perform hstep) ?_ ?_ (hlater hstep))
      · rw [length_places_of_perform hstep]
        exact hknown
      · intro place s hs₁
        simp only [add, getElem?_concat] at hs₁
        by_cases hnew : place = hs.sources.length
        · subst hnew
          obtain rfl := Option.some.inj ((if_pos rfl).symm.trans hs₁)
          rw [drawsOn, along_add_self hsound]
          exact hseeds [] seed steps rfl
        · rw [if_neg hnew] at hs₁
          have hrun := hplaces place s hs₁
          rw [drawsOn, along_seed (List.getElem?_eq_some_iff.1 hs₁).1] at hrun
          exact hrun
    | copy handle =>
      obtain ⟨place, hplace⟩ : ∃ place, hs.places[handle]? = some place :=
        ⟨_, List.getElem?_eq_getElem hknown.1⟩
      have hstep := perform_copy hplace
      refine isSome_run_cons hstep (ih (hsound.perform hstep) ?_ ?_ (hlater hstep))
      · rw [length_places_of_perform hstep]
        exact hknown.2
      · intro other s hs₁
        have hrun := hplaces other s hs₁
        rw [drawsOn, along_copy hplace] at hrun
        exact hrun
    | ask handle request =>
      obtain ⟨place, hplace⟩ : ∃ place, hs.places[handle]? = some place :=
        ⟨_, List.getElem?_eq_getElem hknown.1⟩
      obtain ⟨s, hsource⟩ : ∃ s, hs.sources[place]? = some s :=
        ⟨_, List.getElem?_eq_getElem (hsound place (List.mem_of_getElem? hplace))⟩
      -- The first draw on its source alone is this one, so it does not give up.
      have hrun := hplaces place s hsource
      rw [drawsOn, along_ask_self hplace s, List.map_cons] at hrun
      obtain ⟨⟨outcomes, left⟩, hrun⟩ := Option.isSome_iff_exists.1 hrun
      obtain ⟨outcome, hs₁, rest, hasked, hrest, -⟩ := run_cons_eq_some_iff.1 hrun
      rw [Step.through, perform_ask_single] at hasked
      obtain ⟨⟨drawn, s'⟩, hdraw, hasked⟩ := Option.map_eq_some_iff.1 hasked
      obtain ⟨-, rfl⟩ := Prod.mk.inj hasked
      have hstep : hs.perform (.ask handle request) =
          some (.drawn drawn, hs.withSource place s') := by
        rw [perform_ask hplace hsource, hdraw]
        rfl
      refine isSome_run_cons hstep (ih (hsound.perform hstep) hknown.2 ?_ (hlater hstep))
      intro other t ht
      by_cases hother : place = other
      · subst hother
        rw [getElem?_withSource_self hsource] at ht
        obtain rfl := Option.some.inj ht
        exact Option.isSome_iff_exists.2 ⟨_, hrest⟩
      · rw [getElem?_withSource_of_ne hother] at ht
        have hrun := hplaces other t ht
        rw [drawsOn, along_ask_other hplace hother s'] at hrun
        exact hrun

theorem run_alone (before : List Step) (seed : UInt64) (after : List Step) :
    run (alone before seed after) empty =
      (run ((descended 0 before after after).map (Step.through 0))
        (single (Source.ofSeed seed))).map (Prod.map (.handle 0 :: ·) id) :=
  rfl

/-- Alone, the draws on a source are made one after the other. -/
theorem run_alone_eq_map (before : List Step) (seed : UInt64) (after : List Step) :
    run (alone before seed after) empty =
      ((((descended 0 before after after).filterMap Step.request?).mapM Request.draw).run
        (Source.ofSeed seed)).map fun r => (.handle 0 :: r.1.map .drawn, single r.2) := by
  rw [run_alone, descended, map_through_select, run_asks_single, Option.map_map]
  rfl

/-- The draws on one source of a script that has been run give what they give alone. -/
theorem exists_run_alone {before after : List Step} {seed : UInt64}
    (hrun : run (before ++ .seed seed :: after) empty = some (outcomes, hs)) :
    ∃ hs', run (alone before seed after) empty =
      some (.handle 0 :: descended 0 before after (outcomes.drop (before.length + 1)), hs') := by
  obtain ⟨first, hs₁, rest, hbefore, hrest, rfl⟩ := run_append_eq_some_iff.1 hrun
  obtain ⟨outcome, hs₂, others, hstep, hafter, rfl⟩ := run_cons_eq_some_iff.1 hrest
  rw [perform_seed] at hstep
  obtain ⟨-, rfl⟩ := Prod.mk.inj (Option.some.inj hstep)
  obtain ⟨hsound, hlength⟩ := sound_empty.run hbefore
  have hsource : (hs₁.add (Source.ofSeed seed)).2.sources[hs₁.sources.length]? =
      some (Source.ofSeed seed) :=
    List.getElem?_concat_length
  obtain ⟨s', hsingle, -⟩ := exists_run_single hafter hsource
  rw [drawsOn, along_add_self hsound, along_add_self hsound, hlength] at hsingle
  have hdrop : (first ++ outcome :: others).drop (before.length + 1) = others := by
    rw [← length_of_run hbefore]
    simp
  refine ⟨single s', ?_⟩
  rw [run_alone, hdrop]
  exact congrArg (Option.map _) hsingle

/-- **Copies share one stream, and sources do not meet.** A script about handles that are there can
be run to its end exactly if that can be done for each seeding step with the draws through its
handle and through all that descend from it by copying, made in the same order through one fresh
handle and with nothing in between. And then these draws give there what they give in the script:
what they give one after the other, each on the source that the one before has left. -/
theorem run_factors {steps : List Step} (hknown : Known 0 steps) :
    ((run steps empty).isSome = true ↔
      ∀ before seed after, steps = before ++ .seed seed :: after →
        (run (alone before seed after) empty).isSome = true) ∧
    (∀ outcomes hs, run steps empty = some (outcomes, hs) →
      ∀ before seed after, steps = before ++ .seed seed :: after →
        ∃ hs', run (alone before seed after) empty =
          some (.handle 0 :: descended 0 before after (outcomes.drop (before.length + 1)), hs')) ∧
    ∀ before seed after, run (alone before seed after) empty =
      ((((descended 0 before after after).filterMap Step.request?).mapM Request.draw).run
        (Source.ofSeed seed)).map fun r => (.handle 0 :: r.1.map .drawn, single r.2) := by
  refine ⟨⟨?_, ?_⟩, ?_, run_alone_eq_map⟩
  · rintro h before seed after rfl
    obtain ⟨⟨outcomes, hs⟩, hrun⟩ := Option.isSome_iff_exists.1 h
    obtain ⟨hs', halone⟩ := exists_run_alone hrun
    exact Option.isSome_iff_exists.2 ⟨_, halone⟩
  · intro h
    refine isSome_run sound_empty hknown ?_ ?_
    · intro place s hsource
      cases hsource
    · intro before seed after hsteps
      have halone := h before seed after hsteps
      rw [run_alone, Option.isSome_map] at halone
      exact halone
  · rintro outcomes hs hrun before seed after rfl
    exact exists_run_alone hrun

/-- Two sources with one seed: what is drawn through a copy and a copy of the copy goes on in the
first one, whatever is drawn from the second one in between. -/
theorem run_factors_copies :
    let after : List Step := [.copy 0, .seed 7, .ask 1 (.bytes 4), .ask 2 (.fill 4), .copy 1,
      .ask 3 (.bytes 4)]
    Known 0 (.seed 7 :: after) ∧
    alone [] 7 after = [.seed 7, .ask 0 (.bytes 4), .ask 0 (.bytes 4)] ∧
    ∃ outcomes hs hs', run (.seed 7 :: after) empty = some (outcomes, hs) ∧
      run [.seed 7, .ask 0 (.bytes 4), .ask 0 (.bytes 4)] empty =
        some (.handle 0 :: descended 0 [] after (outcomes.drop 1), hs') ∧
      ∃ drawn s', ([.bytes 4, .bytes 4].mapM Request.draw).run (Source.ofSeed 7) =
          some (drawn, s') ∧
        descended 0 [] after (outcomes.drop 1) = drawn.map .drawn ∧ hs' = single s' := by
  intro after
  have hknown : Known 0 (.seed 7 :: after) := by simp [Known, after]
  have hreturns : (run (.seed 7 :: after) empty).isSome = true := rfl
  obtain ⟨⟨outcomes, hs⟩, hrun⟩ := Option.isSome_iff_exists.1 hreturns
  obtain ⟨-, hsame, hdraws⟩ := run_factors hknown
  obtain ⟨hs', halone⟩ := hsame outcomes hs hrun [] 7 after rfl
  obtain ⟨⟨drawn, s'⟩, hdrawn, heq⟩ :=
    Option.map_eq_some_iff.1 ((hdraws [] 7 after).symm.trans halone)
  obtain ⟨houtcomes, rfl⟩ := Prod.mk.inj heq
  exact ⟨hknown, rfl, outcomes, hs, _, hrun, halone, drawn, s', hdrawn,
    (List.cons.inj houtcomes).2.symm, rfl⟩

end Camouflage.Handles
