import GpuListing.Capability.Readiness

/-! # Courses

The course of a family lists, for each stage, what the calls of its primitive come to, one after another;
when nothing is left they succeed. It settles what any number of attempts comes to: the calls that fail
before a stage first succeeds give one attempt each, stage after stage, and then every attempt is ready. -/

namespace GpuListing

/-- The call did not succeed. -/
def Outcome.fails : Outcome → Bool
  | .ok => false
  | _ => true

theorem Outcome.fails_iff {o : Outcome} : o.fails = true ↔ o ≠ .ok := by cases o <;> simp [fails]

/-- What the calls of a family come to at each stage. -/
abbrev Course := Stage → List Outcome

/-- The verdict of an attempt that ends with a call of the stage. -/
def Verdict.ofOutcome (family : Family) (stage : Stage) : Outcome → Verdict
  | .ok => .ready
  | .refused reason => .failed ⟨family, stage, reason⟩
  | .aborted => .aborted

namespace Course

/-- What the call of the stage that has so many before it comes to. -/
def outcomeAt (course : Course) (stage : Stage) (k : Nat) : Outcome := ((course stage)[k]?).getD .ok

/-- The calls of a stage that fail before the first one that succeeds. -/
def failing (course : Course) (stage : Stage) : List Outcome := (course stage).takeWhile Outcome.fails

/-- How many attempts fail at the stages before this one. -/
def before (course : Course) : Stage → Nat
  | .metadata => 0
  | .machineModel => (course.failing .metadata).length
  | .decoder => (course.failing .metadata).length + (course.failing .machineModel).length

/-- How many attempts fail until the stage is active. -/
def through (course : Course) (stage : Stage) : Nat := course.before stage + (course.failing stage).length

/-- The verdicts of the attempts that fail, in order. -/
def forecast (course : Course) (family : Family) : List Verdict :=
  Stage.all.flatMap fun stage => (course.failing stage).map (Verdict.ofOutcome family stage)

/-- The verdicts of so many attempts one after another. -/
def verdicts (course : Course) (family : Family) (n : Nat) : List Verdict :=
  (course.forecast family ++ List.replicate n Verdict.ready).take n

/-- The verdict of the attempt that has so many before it. -/
def verdictAt (course : Course) (family : Family) (n : Nat) : Verdict :=
  ((course.forecast family)[n]?).getD .ready

/-- How often so many attempts call the stage. -/
def callsAfter (course : Course) (n : Nat) (stage : Stage) : Nat :=
  min (n - course.before stage) ((course.failing stage).length + 1)

variable (course : Course) (family : Family) (stage : Stage)

/-! ### The order of stages -/

/-- Of stages in order, the later ones are called only once the first one is active. -/
theorem through_le_before {left : List Stage} (h : stage :: left <:+ Stage.all) :
    ∀ later ∈ left, course.through stage ≤ course.before later := by
  simp only [Stage.all, List.suffix_cons_iff, List.suffix_nil, List.cons.injEq, reduceCtorEq, or_false] at h
  intro later hl
  rcases h with ⟨rfl, rfl⟩ | ⟨rfl, rfl⟩ | ⟨rfl, rfl⟩
  · rcases List.mem_cons.mp hl with rfl | hl
    · simp [through, before]
    · rw [List.mem_singleton.mp hl]
      simp [through, before]
  · rw [List.mem_singleton.mp hl]
    simp [through, before]
  · cases hl

/-- A stage is called as soon as all stages before it are active. -/
theorem before_le {n : Nat} {left : List Stage} (h : stage :: left <:+ Stage.all)
    (passed : ∀ earlier, earlier ∉ stage :: left → course.through earlier ≤ n) : course.before stage ≤ n := by
  simp only [Stage.all, List.suffix_cons_iff, List.suffix_nil, List.cons.injEq, reduceCtorEq, or_false] at h
  rcases h with ⟨rfl, rfl⟩ | ⟨rfl, rfl⟩ | ⟨rfl, rfl⟩
  · exact Nat.zero_le n
  · simpa [through, before] using passed .metadata (by decide)
  · simpa [through, before] using passed .machineModel (by decide)

theorem through_le_decoder : course.through stage ≤ course.through .decoder := by
  cases stage with
  | metadata =>
    simp only [through, before]
    omega
  | machineModel =>
    simp only [through, before]
    omega
  | decoder => exact Nat.le_refl _

/-! ### What the calls of a stage come to -/

/-- The calls of a stage that come after those that fail at first. -/
def settled : List Outcome := (course stage).dropWhile Outcome.fails

theorem failing_append_settled : course.failing stage ++ course.settled stage = course stage :=
  List.takeWhile_append_dropWhile

theorem ne_ok_of_mem_failing {o : Outcome} (h : o ∈ course.failing stage) : o ≠ .ok :=
  Outcome.fails_iff.mp (List.all_eq_true.mp List.all_takeWhile o h)

theorem outcomeAt_of_lt {k : Nat} (h : k < (course.failing stage).length) :
    course.outcomeAt stage k = (course.failing stage)[k] := by
  rw [outcomeAt, ← failing_append_settled course stage, List.getElem?_append_left h, List.getElem?_eq_getElem h,
    Option.getD_some]

/-- The call after those that fail at first succeeds. -/
theorem outcomeAt_length_failing : course.outcomeAt stage (course.failing stage).length = .ok := by
  rw [outcomeAt, ← failing_append_settled course stage, List.getElem?_append_right (Nat.le_refl _), Nat.sub_self,
    ← List.head?_eq_getElem?]
  have hhead := List.head?_dropWhile_not Outcome.fails (course stage)
  cases hs : (course.settled stage).head? with
  | none => rfl
  | some o =>
    rw [settled] at hs
    rw [hs] at hhead
    cases o <;> simp_all [Outcome.fails]

theorem callsAfter_of_le_before {n : Nat} (h : n ≤ course.before stage) : course.callsAfter n stage = 0 := by
  unfold callsAfter
  omega

/-- From the attempt that first calls the stage to the one that activates it, each one calls it. -/
theorem callsAfter_of_le_through {n : Nat} (h : n ≤ course.through stage) :
    course.callsAfter n stage = n - course.before stage := by
  unfold callsAfter
  unfold through at h
  omega

theorem callsAfter_of_through_lt {n : Nat} (h : course.through stage < n) :
    course.callsAfter n stage = (course.failing stage).length + 1 := by
  unfold callsAfter
  unfold through at h
  omega

/-- An attempt that finds all stages before this one active, and this one not, calls it. -/
theorem callsAfter_succ {n : Nat} (hb : course.before stage ≤ n) (ht : n ≤ course.through stage) :
    course.callsAfter (n + 1) stage = course.callsAfter n stage + 1 := by
  unfold callsAfter
  unfold through at ht
  omega

/-! ### Verdicts -/

theorem forecast_eq : course.forecast family =
    (course.failing .metadata).map (Verdict.ofOutcome family .metadata) ++
      ((course.failing .machineModel).map (Verdict.ofOutcome family .machineModel) ++
        (course.failing .decoder).map (Verdict.ofOutcome family .decoder)) := by
  simp [forecast, Stage.all]

theorem length_forecast : (course.forecast family).length = course.through .decoder := by
  simp [forecast_eq, through, before, Nat.add_assoc]

theorem verdictAt_of_le {n : Nat} (h : course.through .decoder ≤ n) : course.verdictAt family n = .ready := by
  rw [verdictAt, List.getElem?_eq_none (by rwa [length_forecast])]
  rfl

theorem ne_ready_of_mem_forecast {verdict : Verdict} (h : verdict ∈ course.forecast family) : verdict ≠ .ready := by
  obtain ⟨stage, -, hs⟩ := List.mem_flatMap.mp h
  obtain ⟨outcome, ho, rfl⟩ := List.mem_map.mp hs
  have hne := course.ne_ok_of_mem_failing stage ho
  cases outcome with
  | ok => exact absurd rfl hne
  | refused reason => simp [Verdict.ofOutcome]
  | aborted => simp [Verdict.ofOutcome]

theorem verdictAt_eq_ready_iff {n : Nat} : course.verdictAt family n = .ready ↔ course.through .decoder ≤ n := by
  refine ⟨fun h => Nat.le_of_not_lt fun hn => ?_, course.verdictAt_of_le family⟩
  rw [← course.length_forecast family] at hn
  rw [verdictAt, List.getElem?_eq_getElem hn, Option.getD_some] at h
  exact course.ne_ready_of_mem_forecast family (List.getElem_mem hn) h

theorem getElem?_forecast {k : Nat} (h : k < (course.failing stage).length) :
    (course.forecast family)[course.before stage + k]? =
      some (Verdict.ofOutcome family stage (course.outcomeAt stage k)) := by
  have hk : ((course.failing stage).map (Verdict.ofOutcome family stage))[k]? =
      some (Verdict.ofOutcome family stage (course.outcomeAt stage k)) := by simp [h, outcomeAt_of_lt]
  have hlen : k < ((course.failing stage).map (Verdict.ofOutcome family stage)).length := by simpa using h
  rw [forecast_eq]
  cases stage with
  | metadata => simp only [before, Nat.zero_add, List.getElem?_append_left hlen, hk]
  | machineModel =>
    rw [List.getElem?_append_right (by simp [before])]
    simp only [before, List.length_map, Nat.add_sub_cancel_left, List.getElem?_append_left hlen, hk]
  | decoder =>
    rw [List.getElem?_append_right (by simp [before]; omega), List.getElem?_append_right (by simp [before]; omega)]
    simp only [before, List.length_map, Nat.add_assoc, Nat.add_sub_cancel_left, hk]

/-- An attempt fails with the next call that fails. -/
theorem verdictAt_before {k : Nat} (h : k < (course.failing stage).length) :
    course.verdictAt family (course.before stage + k) =
      Verdict.ofOutcome family stage (course.outcomeAt stage k) := by
  rw [verdictAt, course.getElem?_forecast family stage h, Option.getD_some]

theorem map_verdictAt_range (n : Nat) :
    (List.range n).map (course.verdictAt family) = course.verdicts family n := by
  rw [verdicts]
  refine List.ext_getElem? fun k => ?_
  by_cases hk : k < n
  · rw [List.getElem?_take_of_lt hk, List.getElem?_map, List.getElem?_range hk, Option.map_some, verdictAt]
    by_cases hf : k < (course.forecast family).length
    · rw [List.getElem?_append_left hf, List.getElem?_eq_getElem hf, Option.getD_some]
    · have hrep : k - (course.forecast family).length < n := by omega
      rw [List.getElem?_append_right (Nat.le_of_not_lt hf), List.getElem?_eq_none (Nat.le_of_not_lt hf),
        List.getElem?_replicate, if_pos hrep, Option.getD_none]
  · rw [List.getElem?_eq_none (by simpa using hk), List.getElem?_eq_none (by simp; omega)]

/-! ### A call that is cut off -/

/-- The course with one call of the stage cut off. -/
def cut (stage : Stage) (i : Nat) : Course := fun other =>
  if other = stage then (course stage).set i .aborted else course other

variable {course family stage} {i : Nat} {reason : ActivationError}

theorem failing_cut (h : (course stage)[i]? = some (.refused reason)) (other : Stage) :
    (course.cut stage i).failing other =
      if other = stage then (course.failing stage).set i .aborted else course.failing other := by
  by_cases ho : other = stage
  · subst ho
    rw [if_pos rfl, failing, cut, if_pos rfl, failing]
    generalize course other = outcomes at h
    induction outcomes generalizing i with
    | nil => simp at h
    | cons o rest ih =>
      cases i with
      | zero =>
        obtain rfl : o = .refused reason := by simpa using h
        rw [List.set_cons_zero, List.takeWhile_cons_of_pos rfl, List.takeWhile_cons_of_pos rfl, List.set_cons_zero]
      | succ i =>
        rw [List.set_cons_succ]
        by_cases hf : o.fails = true
        · rw [List.takeWhile_cons_of_pos hf, List.takeWhile_cons_of_pos hf, List.set_cons_succ,
            ih (by simpa using h)]
        · rw [List.takeWhile_cons_of_neg hf, List.takeWhile_cons_of_neg hf]
          rfl
  · rw [if_neg ho, failing, cut, if_neg ho, failing]

theorem length_failing_cut (h : (course stage)[i]? = some (.refused reason)) (other : Stage) :
    ((course.cut stage i).failing other).length = (course.failing other).length := by
  rw [failing_cut h]
  split
  · next ho => rw [List.length_set, ho]
  · rfl

theorem before_cut (h : (course stage)[i]? = some (.refused reason)) (other : Stage) :
    (course.cut stage i).before other = course.before other := by
  cases other <;> simp only [before, length_failing_cut h]

theorem through_cut (h : (course stage)[i]? = some (.refused reason)) (other : Stage) :
    (course.cut stage i).through other = course.through other := by
  simp only [through, before_cut h, length_failing_cut h]

theorem callsAfter_cut (h : (course stage)[i]? = some (.refused reason)) (n : Nat) (other : Stage) :
    (course.cut stage i).callsAfter n other = course.callsAfter n other := by
  simp only [callsAfter, before_cut h, length_failing_cut h]

/-- Only the attempt that makes the call comes to something else, if there is one. -/
theorem forecast_cut (h : (course stage)[i]? = some (.refused reason)) :
    (course.cut stage i).forecast family =
      if i < (course.failing stage).length then (course.forecast family).set (course.before stage + i) .aborted
      else course.forecast family := by
  rw [forecast_eq, forecast_eq, failing_cut h, failing_cut h, failing_cut h]
  by_cases hi : i < (course.failing stage).length
  · rw [if_pos hi]
    cases stage <;> simp [before, List.map_set, hi, Verdict.ofOutcome, Nat.add_assoc]
  · rw [if_neg hi]
    cases stage <;> simp [List.set_eq_of_length_le (Nat.le_of_not_lt hi)]

theorem length_verdicts_le {n : Nat} : (course.verdicts family n).length ≤ n := List.length_take_le _ _

theorem verdicts_cut (h : (course stage)[i]? = some (.refused reason)) (n : Nat) :
    (course.cut stage i).verdicts family n =
      if i < (course.failing stage).length then (course.verdicts family n).set (course.before stage + i) .aborted
      else course.verdicts family n := by
  rw [verdicts, forecast_cut h]
  split
  · next hi =>
    obtain ⟨hlt, -⟩ := List.getElem?_eq_some_iff.mp (course.getElem?_forecast family stage hi)
    rw [← List.set_append_left _ _ hlt, List.take_set, verdicts]
  · rw [verdicts]

/-- The attempt that makes the call fails with what the call is refused with. -/
theorem getElem?_verdicts (h : (course stage)[i]? = some (.refused reason)) {n : Nat}
    (hi : i < (course.failing stage).length) (hn : course.before stage + i < n) :
    (course.verdicts family n)[course.before stage + i]? = some (.failed ⟨family, stage, reason⟩) := by
  have hforecast := course.getElem?_forecast family stage hi
  obtain ⟨hlt, -⟩ := List.getElem?_eq_some_iff.mp hforecast
  rw [verdicts, List.getElem?_take_of_lt hn, List.getElem?_append_left hlt, hforecast, outcomeAt, h]
  rfl

end Course

end GpuListing
