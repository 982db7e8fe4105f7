import GpuListing.Proofs.Capability.Scripted

/-! # Where attempts have brought a family

After any number of attempts on the state of a family, the course of the family tells where the state and the
script stand. Attempts for other families do not touch it. -/

namespace GpuListing

/-- The course that a script has for a family. -/
def Script.course (script : Script) (family : Family) : Course := script.left family

namespace Course

/-- The state of a family, and what is left of the script for it, after so many attempts. -/
structure Standing (course : Course) (family : Family) (n : Nat) (r : Readiness) (script : Script) : Prop where
  stages : ∀ stage, course.At family n r.flags script stage
  mark : r.ready = decide (course.through .decoder < n)

namespace Standing
variable {course : Course} {family : Family} {n : Nat} {r : Readiness} {script : Script}

theorem initial (script : Script) (family : Family) :
    Standing (script.course family) family 0 .initial script where
  stages := fun stage => ⟨by simp [Readiness.initial], by simp [callsAfter, Script.course]⟩
  mark := by simp [Readiness.initial]

/-- One more attempt. -/
theorem attempt (h : course.Standing family n r script) :
    (r.ensureReady Script.provider family script).verdict = course.verdictAt family n ∧
      course.Standing family (n + 1) (r.ensureReady Script.provider family script).state
        (r.ensureReady Script.provider family script).world ∧
      ∀ stage, course.callsAfter n stage +
        (r.ensureReady Script.provider family script).calls.count ⟨stage, family⟩ = course.callsAfter (n + 1) stage := by
  have hmark := h.mark
  unfold Readiness.ensureReady
  by_cases hn : course.through .decoder < n
  · have hpast : ∀ stage, course.through stage < n := fun stage =>
      Nat.lt_of_le_of_lt (course.through_le_decoder stage) hn
    rw [decide_eq_true hn] at hmark
    rw [if_pos hmark]
    refine ⟨(course.verdictAt_of_le family (Nat.le_of_lt hn)).symm,
      ⟨fun stage => (h.stages stage).succ_of_active (hpast stage), ?_⟩, fun stage => ?_⟩
    · rw [hmark, decide_eq_true (Nat.lt_succ_of_lt hn)]
    · rw [course.callsAfter_of_through_lt stage (hpast stage),
        course.callsAfter_of_through_lt stage (Nat.lt_succ_of_lt (hpast stage))]
      rfl
  · rw [decide_eq_false hn] at hmark
    have hall : ∀ stage, stage ∈ Stage.all := fun stage => by cases stage <;> decide
    have midway : course.Midway family n Stage.all r.flags script :=
      ⟨List.suffix_refl _, fun stage _ => h.stages stage, fun stage hs => absurd (hall stage) hs,
        fun stage hs => absurd (hall stage) hs⟩
    have walked := midway.walk
    rw [if_neg (by simp [hmark])]
    refine ⟨walked.verdict, ⟨walked.at_succ, ?_⟩, fun stage => walked.counted stage (hall stage)⟩
    simp only [walked.verdict, course.verdictAt_eq_ready_iff family, Nat.lt_succ_iff]

/-- So many more attempts one after another. -/
theorem series (h : course.Standing family n r script) (k : Nat) :
    (r.series Script.provider family k script).verdicts = (List.range' n k).map (course.verdictAt family) ∧
      course.Standing family (n + k) (r.series Script.provider family k script).readiness
        (r.series Script.provider family k script).world ∧
      ∀ stage, course.callsAfter n stage + (r.series Script.provider family k script).calls.count ⟨stage, family⟩ =
        course.callsAfter (n + k) stage := by
  induction k generalizing n r script with
  | zero => exact ⟨rfl, h, fun _ => rfl⟩
  | succ k ih =>
    obtain ⟨hverdict, hnext, hcount⟩ := h.attempt
    obtain ⟨hverdicts, hlast, hcounts⟩ := ih hnext
    rw [Nat.add_assoc, Nat.add_comm 1 k] at hlast hcounts
    refine ⟨?_, hlast, fun stage => ?_⟩
    · simp only [Readiness.series, hverdict, hverdicts, List.range'_succ, List.map_cons]
    · simp only [Readiness.series, List.count_append]
      rw [← Nat.add_assoc, hcount, hcounts]

theorem congr {script' : Script} (h : course.Standing family n r script)
    (hl : ∀ stage, script'.left family stage = script.left family stage) :
    course.Standing family n r script' :=
  ⟨fun stage => (h.stages stage).congr rfl (hl stage), h.mark⟩

end Standing

end Course

/-! ### Other families -/

namespace Script
variable {family other : Family}

theorem activatePending_of_ne (h : family ≠ other) (stages : List Stage) (flags : Flags) (script : Script) (stage : Stage) :
    (activatePending provider other stages flags script).world.left family stage = script.left family stage ∧
      (activatePending provider other stages flags script).calls.count ⟨stage, family⟩ = 0 := by
  have hstep : ∀ s script, (provider s other script).2.left family stage = script.left family stage := by
    intro s script
    rw [(provider_spec script other s).2 family stage, if_neg fun hf => h hf.1]
  have hcall : ∀ s, (⟨s, other⟩ : Call) ≠ ⟨stage, family⟩ := fun s hc => h (Call.mk.inj hc).2.symm
  fun_induction activatePending provider other stages flags script with
  | case1 => exact ⟨rfl, rfl⟩
  | case2 s rest flags script ha ih => exact ih
  | case3 s rest flags script ha next hp attempt ih =>
    obtain ⟨hleft, hcount⟩ := ih
    have hnext := hstep s script
    rw [hp] at hnext
    exact ⟨hleft.trans hnext, by rw [List.count_cons_of_ne (hcall s), hcount]⟩
  | case4 s rest flags script ha reason next hp =>
    have hnext := hstep s script
    rw [hp] at hnext
    exact ⟨hnext, by simp [hcall]⟩
  | case5 s rest flags script ha next hp =>
    have hnext := hstep s script
    rw [hp] at hnext
    exact ⟨hnext, by simp [hcall]⟩

theorem series_of_ne (h : family ≠ other) (k : Nat) (r : Readiness) (script : Script) (stage : Stage) :
    (r.series provider other k script).world.left family stage = script.left family stage ∧
      (r.series provider other k script).calls.count ⟨stage, family⟩ = 0 := by
  induction k generalizing r script with
  | zero => exact ⟨rfl, rfl⟩
  | succ k ih =>
    have hfirst : (r.ensureReady provider other script).world.left family stage = script.left family stage ∧
        (r.ensureReady provider other script).calls.count ⟨stage, family⟩ = 0 := by
      unfold Readiness.ensureReady
      split
      · exact ⟨rfl, rfl⟩
      · exact activatePending_of_ne h Stage.all r.flags script stage
    obtain ⟨hleft, hcount⟩ := ih (r.ensureReady provider other script).state (r.ensureReady provider other script).world
    simp only [Readiness.series, List.count_append, hfirst.2, hcount]
    exact ⟨hleft.trans hfirst.1, trivial⟩

end Script

end GpuListing
