import GpuListing.Capability.Script
import GpuListing.Proofs.Capability.Course
import GpuListing.Proofs.Capability.Ascent
import GpuListing.Proofs.Capability.Sequence

/-! # Attempts on scripts

Where the provider follows a script, the attempts on a state of a family follow the course that the script
has for the family: how many there were tells which stages are active, what is left of the script, how often
each stage was called, and the next verdict. -/

namespace GpuListing

namespace Script

/-! ### Calls -/

theorem left_set (script : Script) (family other : Family) (stage s : Stage) (outcomes : List Outcome) :
    left (script.set (family, stage) outcomes) other s =
      if other = family ∧ s = stage then outcomes else script.left other s := by
  rw [left, Table.get?_set]
  by_cases h : other = family ∧ s = stage
  · rw [if_pos h, if_pos (by rw [h.1, h.2])]
    rfl
  · rw [if_neg h, if_neg fun hkey => h ⟨(Prod.mk.inj hkey).1.symm, (Prod.mk.inj hkey).2.symm⟩]
    rfl

/-- A call takes what is first in the script, and what is left of the script is the rest. -/
theorem provider_spec (script : Script) (family : Family) (stage : Stage) :
    (provider stage family script).1 = ((script.left family stage)[0]?).getD .ok ∧
      ∀ other s, (provider stage family script).2.left other s =
        if other = family ∧ s = stage then (script.left family stage).drop 1 else script.left other s := by
  cases hl : script.left family stage with
  | nil =>
    have hp : provider stage family script = (.ok, script) := by simp only [provider, hl]
    rw [hp]
    refine ⟨rfl, fun other s => ?_⟩
    by_cases h : other = family ∧ s = stage
    · rw [if_pos h, h.1, h.2, hl]
      rfl
    · rw [if_neg h]
  | cons outcome rest =>
    have hp : provider stage family script = (outcome, script.set (family, stage) rest) := by
      simp only [provider, hl]
    rw [hp]
    exact ⟨rfl, fun other s => left_set script family other stage s rest⟩

end Script

namespace Course

/-- The stage is where so many attempts have brought it. -/
structure At (course : Course) (family : Family) (n : Nat) (flags : Flags) (script : Script) (stage : Stage) :
    Prop where
  active : flags.isActive stage = decide (course.through stage < n)
  left : script.left family stage = (course stage).drop (course.callsAfter n stage)

variable {course : Course} {family : Family} {n : Nat}

namespace At
variable {flags flags' : Flags} {script script' : Script} {stage : Stage}

theorem congr (h : course.At family n flags script stage) (hf : flags'.isActive stage = flags.isActive stage)
    (hl : script'.left family stage = script.left family stage) : course.At family n flags' script' stage :=
  ⟨hf.trans h.active, hl.trans h.left⟩

theorem succ_of_active (h : course.At family n flags script stage) (ht : course.through stage < n) :
    course.At family (n + 1) flags script stage where
  active := by rw [h.active, decide_eq_true ht, decide_eq_true (Nat.lt_succ_of_lt ht)]
  left := by
    rw [h.left, course.callsAfter_of_through_lt stage ht, course.callsAfter_of_through_lt stage (Nat.lt_succ_of_lt ht)]

/-- A stage stays as it is when the attempt fails before it. -/
theorem succ_of_before (h : course.At family n flags script stage) (hb : n < course.before stage) :
    course.At family (n + 1) flags script stage where
  active := by
    have ht : course.before stage ≤ course.through stage := Nat.le_add_right _ _
    rw [h.active, decide_eq_false (by omega), decide_eq_false (by omega)]
  left := by
    rw [h.left, course.callsAfter_of_le_before stage (Nat.le_of_lt hb), course.callsAfter_of_le_before stage hb]

theorem succ_of_called (h : course.At family n flags script stage) (hb : course.before stage ≤ n)
    (ht : n ≤ course.through stage) (hf : flags'.isActive stage = decide (course.through stage < n + 1))
    (hl : script'.left family stage = (script.left family stage).drop 1) :
    course.At family (n + 1) flags' script' stage :=
  ⟨hf, by rw [hl, h.left, List.drop_drop, course.callsAfter_succ stage hb ht]⟩

end At

/-- Part of the way through an attempt: the stages that are left are where the attempts so far have brought
    them, the others are where this one brings them. -/
structure Midway (course : Course) (family : Family) (n : Nat) (left : List Stage) (flags : Flags)
    (script : Script) : Prop where
  suffix : left <:+ Stage.all
  ahead : ∀ stage ∈ left, course.At family n flags script stage
  behind : ∀ stage, stage ∉ left → course.At family (n + 1) flags script stage
  passed : ∀ stage, stage ∉ left → course.through stage ≤ n

/-- What an attempt comes to from there. -/
structure Walked (course : Course) (family : Family) (n : Nat) (left : List Stage) (a : Attempt Flags Script) :
    Prop where
  verdict : a.verdict = course.verdictAt family n
  at_succ : ∀ stage, course.At family (n + 1) a.state a.world stage
  counted : ∀ stage ∈ left,
    course.callsAfter n stage + a.calls.count ⟨stage, family⟩ = course.callsAfter (n + 1) stage
  uncalled : ∀ stage, stage ∉ left → a.calls.count ⟨stage, family⟩ = 0

theorem count_cons_call (stage other : Stage) (calls : List Call) :
    (⟨stage, family⟩ :: calls : List Call).count ⟨other, family⟩ =
      calls.count ⟨other, family⟩ + if other = stage then 1 else 0 := by
  by_cases h : other = stage
  · simp [h]
  · simp [h, Ne.symm h]

namespace Midway
variable {stage : Stage} {left : List Stage} {flags : Flags} {script next : Script}

theorem not_mem (h : course.Midway family n (stage :: left) flags script) : stage ∉ left :=
  have hnodup : (stage :: left).Nodup := h.suffix.sublist.nodup (by decide)
  (List.nodup_cons.mp hnodup).1

theorem before_le (h : course.Midway family n (stage :: left) flags script) : course.before stage ≤ n :=
  course.before_le stage h.suffix h.passed

theorem here (h : course.Midway family n (stage :: left) flags script) : course.At family n flags script stage :=
  h.ahead stage List.mem_cons_self

theorem pass (h : course.Midway family n (stage :: left) flags script) (ht : course.through stage < n) :
    course.Midway family n left flags script where
  suffix := (List.suffix_cons _ _).trans h.suffix
  ahead := fun s hs => h.ahead s (List.mem_cons_of_mem _ hs)
  behind := fun s hs => by
    by_cases he : s = stage
    · exact he ▸ h.here.succ_of_active ht
    · exact h.behind s (by simp [he, hs])
  passed := fun s hs => by
    by_cases he : s = stage
    · exact he ▸ Nat.le_of_lt ht
    · exact h.passed s (by simp [he, hs])

theorem succeed (h : course.Midway family n (stage :: left) flags script) (ht : n = course.through stage)
    (hnext : ∀ s, next.left family s = if s = stage then (script.left family stage).drop 1 else script.left family s) :
    course.Midway family n left (flags.activate stage) next where
  suffix := (List.suffix_cons _ _).trans h.suffix
  ahead := fun s hs => by
    have he : s ≠ stage := fun he => h.not_mem (he ▸ hs)
    refine (h.ahead s (List.mem_cons_of_mem _ hs)).congr ?_ (by rw [hnext, if_neg he])
    simp [Flags.isActive_activate, Ne.symm he]
  behind := fun s hs => by
    by_cases he : s = stage
    · subst he
      refine h.here.succ_of_called h.before_le (Nat.le_of_eq ht) ?_ (by rw [hnext, if_pos rfl])
      rw [Flags.isActive_activate, decide_eq_true (show course.through s < n + 1 by omega)]
      simp
    · refine (h.behind s (by simp [he, hs])).congr ?_ (by rw [hnext, if_neg he])
      simp [Flags.isActive_activate, Ne.symm he]
  passed := fun s hs => by
    by_cases he : s = stage
    · exact he ▸ Nat.le_of_eq ht.symm
    · exact h.passed s (by simp [he, hs])

/-- The call of a stage fails: it is the last one, and the stages after it are left alone. -/
theorem fail (h : course.Midway family n (stage :: left) flags script) (hn : n < course.through stage)
    (hnext : ∀ s, next.left family s = if s = stage then (script.left family stage).drop 1 else script.left family s)
    {verdict : Verdict} (hv : verdict = course.verdictAt family n) :
    course.Walked family n (stage :: left) ⟨verdict, flags, next, [⟨stage, family⟩]⟩ := by
  have hlater : ∀ s ∈ left, n < course.before s := fun s hs =>
    Nat.lt_of_lt_of_le hn (course.through_le_before stage h.suffix s hs)
  refine ⟨hv, fun s => ?_, fun s hs => ?_, fun s hs => ?_⟩
  · by_cases he : s = stage
    · subst he
      refine h.here.succ_of_called h.before_le (Nat.le_of_lt hn) ?_ (by rw [hnext, if_pos rfl])
      rw [h.here.active, decide_eq_false (by omega), decide_eq_false (by omega)]
    · have hl : next.left family s = script.left family s := by rw [hnext, if_neg he]
      by_cases hs : s ∈ left
      · exact ((h.ahead s (List.mem_cons_of_mem _ hs)).succ_of_before (hlater s hs)).congr rfl hl
      · exact (h.behind s (by simp [he, hs])).congr rfl hl
  · rw [count_cons_call, List.count_nil, Nat.zero_add]
    by_cases he : s = stage
    · subst he
      rw [if_pos rfl, course.callsAfter_succ s h.before_le (Nat.le_of_lt hn)]
    · have hzero := hlater s ((List.mem_cons.mp hs).resolve_left he)
      rw [if_neg he, course.callsAfter_of_le_before s (Nat.le_of_lt hzero), course.callsAfter_of_le_before s hzero]
  · have he : s ≠ stage := fun he => hs (he ▸ List.mem_cons_self)
    rw [count_cons_call, if_neg he]
    rfl

end Midway

namespace Walked
variable {stage : Stage} {left : List Stage} {a : Attempt Flags Script}

theorem pass (h : course.Walked family n left a) (hnot : stage ∉ left) (ht : course.through stage < n) :
    course.Walked family n (stage :: left) a where
  verdict := h.verdict
  at_succ := h.at_succ
  counted := fun s hs => by
    rcases List.mem_cons.mp hs with rfl | hs
    · rw [h.uncalled s hnot, course.callsAfter_of_through_lt s ht,
        course.callsAfter_of_through_lt s (Nat.lt_succ_of_lt ht), Nat.add_zero]
    · exact h.counted s hs
  uncalled := fun s hs => h.uncalled s fun hmem => hs (List.mem_cons_of_mem _ hmem)

theorem succeed (h : course.Walked family n left a) (hnot : stage ∉ left) (hb : course.before stage ≤ n)
    (ht : n ≤ course.through stage) :
    course.Walked family n (stage :: left) { a with calls := ⟨stage, family⟩ :: a.calls } where
  verdict := h.verdict
  at_succ := h.at_succ
  counted := fun s hs => by
    rw [count_cons_call]
    by_cases he : s = stage
    · subst he
      rw [h.uncalled s hnot, if_pos rfl, course.callsAfter_succ s hb ht]
    · rw [if_neg he]
      exact h.counted s ((List.mem_cons.mp hs).resolve_left he)
  uncalled := fun s hs => by
    have he : s ≠ stage := fun he => hs (he ▸ List.mem_cons_self)
    rw [count_cons_call, if_neg he]
    exact h.uncalled s fun hmem => hs (List.mem_cons_of_mem _ hmem)

end Walked

/-- A walk from anywhere on its way: the stages it finds active, the one whose call fails, if any, and those
    whose calls succeed. -/
theorem Midway.walk {left : List Stage} {flags : Flags} {script : Script}
    (h : course.Midway family n left flags script) :
    course.Walked family n left (activatePending Script.provider family left flags script) := by
  induction left generalizing flags script with
  | nil =>
    refine ⟨?_, fun stage => h.behind stage (by simp), by simp, fun _ _ => rfl⟩
    exact (course.verdictAt_of_le family (h.passed .decoder (by simp))).symm
  | cons stage left ih =>
    have hactive := h.here.active
    by_cases hpast : course.through stage < n
    · rw [decide_eq_true hpast] at hactive
      rw [activatePending_active hactive]
      exact (ih (h.pass hpast)).pass h.not_mem hpast
    · rw [decide_eq_false hpast] at hactive
      have ht := Nat.le_of_not_lt hpast
      have hb := h.before_le
      obtain ⟨houtcome, hrest⟩ := Script.provider_spec script family stage
      rcases hp : Script.provider stage family script with ⟨outcome, next⟩
      rw [hp] at houtcome hrest
      have hnext : ∀ s, next.left family s =
          if s = stage then (script.left family stage).drop 1 else script.left family s := fun s => by
        simp [hrest family s]
      -- The call is the next one of the stage, and the course tells what it comes to.
      rw [h.here.left, List.getElem?_drop, course.callsAfter_of_le_through stage ht, Nat.add_zero] at houtcome
      obtain ⟨k, rfl⟩ : ∃ k, n = course.before stage + k := ⟨n - course.before stage, by omega⟩
      rw [Nat.add_sub_cancel_left] at houtcome
      by_cases hk : k < (course.failing stage).length
      · have hv := course.verdictAt_before family stage hk
        have hne := course.ne_ok_of_mem_failing stage (List.getElem_mem hk)
        rw [← course.outcomeAt_of_lt stage hk] at hne
        rw [outcomeAt, ← houtcome] at hv hne
        have hn : course.before stage + k < course.through stage := Nat.add_lt_add_left hk _
        cases outcome with
        | ok => exact absurd rfl hne
        | refused reason =>
          rw [activatePending_refused hactive hp]
          exact h.fail hn hnext hv.symm
        | aborted =>
          rw [activatePending_aborted hactive hp]
          exact h.fail hn hnext hv.symm
      · obtain rfl : k = (course.failing stage).length := by
          unfold through at ht
          omega
        obtain rfl : outcome = .ok := houtcome.trans (course.outcomeAt_length_failing stage)
        rw [activatePending_ok hactive hp]
        exact (ih (h.succeed rfl hnext)).succeed h.not_mem hb ht

end Course

end GpuListing
