import GpuListing.Proofs.Capability.Interleaved
import GpuListing.Proofs.Capability.Standing

/-! # Runs on scripts

In a run whose provider follows a script, a family that is brought up by the initializer alone comes to what
its course tells: only the number of attempts counts, not what is done for other families, nor the order in
which callers at once move. -/

namespace GpuListing

theorem Flags.ext_isActive {flags flags' : Flags} (h : ∀ stage, flags.isActive stage = flags'.isActive stage) :
    flags = flags' := by
  obtain ⟨m, k, d⟩ := flags
  obtain ⟨m', k', d'⟩ := flags'
  obtain rfl : m = m' := h .metadata
  obtain rfl : k = k' := h .machineModel
  obtain rfl : d = d' := h .decoder
  rfl

namespace Script

/-- The script with one outcome of a primitive cut off. -/
def cut (script : Script) (family : Family) (stage : Stage) (i : Nat) : Script :=
  script.set (family, stage) ((script.left family stage).set i .aborted)

theorem course_cut (script : Script) (family other : Family) (stage : Stage) (i : Nat) :
    (script.cut other stage i).course family =
      if other = family then (script.course family).cut stage i else script.course family := by
  funext s
  by_cases ho : other = family
  · subst ho
    simp only [course, cut, left_set, if_true, Course.cut]
    by_cases hs : s = stage
    · simp [hs]
    · simp [hs]
  · simp only [course, cut, left_set, if_neg ho, if_neg fun h : family = other ∧ s = stage => ho h.1.symm]

end Script

namespace Request

/-- The attempts that a request makes on the state of a family in the initializer. -/
def attemptsFor (family : Family) : Request → Nat
  | .ensureReady other => if other = family then 1 else 0
  | .ensureTogether other callers => if other = family then callers else 0
  | _ => 0

/-- The request does not call the primitives of the family, unless through the initializer. -/
def Spares (family : Family) : Request → Prop
  | .activate _ other => other ≠ family
  | .ensureSlot _ other => other ≠ family
  | _ => True

theorem drive?_of_cell? {request : Request} {family : Family} (h : request.cell? = some (.family family)) :
    request.drive? = some ⟨.family family, family, request.attemptsFor family⟩ := by
  cases request <;> cases h <;> simp [drive?, attemptsFor]

theorem attemptsFor_of_cell?_ne {request : Request} {family : Family} (h : request.cell? ≠ some (.family family)) :
    request.attemptsFor family = 0 := by
  cases request with
  | ensureReady other => rw [attemptsFor, if_neg fun he : other = family => h (he ▸ rfl)]
  | ensureTogether other callers => rw [attemptsFor, if_neg fun he : other = family => h (he ▸ rfl)]
  | _ => rfl

theorem Spares.family_ne {request : Request} {family : Family} (spares : request.Spares family) {drive : Drive}
    (hd : request.drive? = some drive) (hc : request.cell? ≠ some (.family family)) : family ≠ drive.family := by
  rintro rfl
  cases request <;> cases hd
  · exact hc rfl
  · exact spares rfl
  · exact hc rfl

end Request

namespace Bench
variable {course : Course} {family : Family} {n : Nat} {b : Bench Script}

/-- What is left of the script for a family changes only by requests for it. -/
theorem left_perform_of_drive_eq_none {request : Request} (spares : request.Spares family)
    (hd : request.drive? = none) (stage : Stage) :
    (b.perform Script.provider request).2.world.left family stage = b.world.left family stage ∧
      (b.perform Script.provider request).1.calls.count ⟨stage, family⟩ = 0 := by
  cases request with
  | activate s other =>
    have hnext := (Script.provider_spec b.world other s).2 family stage
    rw [if_neg fun h => spares h.1.symm] at hnext
    have hcall : (⟨s, other⟩ : Call) ≠ ⟨stage, family⟩ := fun hc => spares (Call.mk.inj hc).2
    exact ⟨hnext, by simp [perform, hcall]⟩
  | ensureReady _ | ensureSlot _ _ | ensureTogether _ _ => cases hd
  | isReady _ | snapshot _ | families | state _ | slotState _ => exact ⟨rfl, rfl⟩

/-- A request moves a family on by the attempts that it makes for it. -/
theorem standing_perform (h : course.Standing family n (b.initializer.readiness family) b.world)
    {request : Request} (spares : request.Spares family) :
    course.Standing family (n + request.attemptsFor family)
        ((b.perform Script.provider request).2.initializer.readiness family)
        (b.perform Script.provider request).2.world ∧
      (∀ stage, course.callsAfter n stage + (b.perform Script.provider request).1.calls.count ⟨stage, family⟩ =
        course.callsAfter (n + request.attemptsFor family) stage) ∧
      (request.cell? = some (.family family) → (b.perform Script.provider request).1.answer.told =
        (List.range' n (request.attemptsFor family)).map (course.verdictAt family)) := by
  by_cases hc : request.cell? = some (.family family)
  · obtain ⟨htold, hcalls, hworld, hcell⟩ := perform_drive Script.provider b (Request.drive?_of_cell? hc)
    obtain ⟨hverdicts, hstanding, hcounts⟩ := h.series (request.attemptsFor family)
    have hreadiness : (b.perform Script.provider request).2.initializer.readiness family =
        ((b.initializer.readiness family).series Script.provider family (request.attemptsFor family) b.world).readiness :=
      (hcell (.family family)).trans (if_pos rfl)
    refine ⟨?_, fun stage => ?_, fun _ => htold.trans hverdicts⟩
    · rw [hworld, hreadiness]
      exact hstanding
    · rw [hcalls]
      exact hcounts stage
  · have hreadiness : (b.perform Script.provider request).2.initializer.readiness family =
        b.initializer.readiness family := cell_perform_of_ne Script.provider b hc
    have hother : ∀ stage,
        (b.perform Script.provider request).2.world.left family stage = b.world.left family stage ∧
          (b.perform Script.provider request).1.calls.count ⟨stage, family⟩ = 0 := fun stage => by
      cases hd : request.drive? with
      | none => exact left_perform_of_drive_eq_none spares hd stage
      | some drive =>
        obtain ⟨-, hcalls, hworld, -⟩ := perform_drive Script.provider b hd
        rw [hcalls, hworld]
        exact Script.series_of_ne (spares.family_ne hd hc) _ _ _ stage
    rw [Request.attemptsFor_of_cell?_ne hc, hreadiness]
    exact ⟨h.congr fun stage => (hother stage).1, fun stage => by rw [(hother stage).2]; rfl, fun h => absurd h hc⟩

/-- The attempts that requests make on the state of a family in the initializer. -/
def attempts (family : Family) : List Request → Nat
  | [] => 0
  | request :: rest => request.attemptsFor family + attempts family rest

/-- The verdicts that are told for a family in the initializer, request by request. -/
def toldFor (family : Family) (requests : List Request) (replies : List Reply) : List (List Verdict) :=
  ((requests.zip replies).filter fun answered => answered.1.cell? = some (.family family)).map
    fun answered => answered.2.answer.told

theorem toldFor_cons (request : Request) (reply : Reply) (requests : List Request) (replies : List Reply) :
    toldFor family (request :: requests) (reply :: replies) =
      if request.cell? = some (.family family) then reply.answer.told :: toldFor family requests replies
      else toldFor family requests replies := by
  by_cases h : request.cell? = some (.family family) <;> simp [toldFor, h]

/-- The verdicts are told in this order, group after group; within a group they are told in any order. -/
inductive ToldAs : List (List Verdict) → List Verdict → Prop where
  | nil : ToldAs [] []
  | cons {told verdicts rest : List Verdict} {groups : List (List Verdict)} : told.Perm verdicts →
      ToldAs groups rest → ToldAs (told :: groups) (verdicts ++ rest)

/-- A run goes on with the course of a family from where it stands. -/
theorem Runs.standing {b' : Bench Script} {requests : List Request} {replies : List Reply}
    (hrun : Runs Script.provider b requests replies b') (reachable : b.Reachable)
    (h : course.Standing family n (b.initializer.readiness family) b.world)
    (spares : ∀ request ∈ requests, request.Spares family) :
    course.Standing family (n + attempts family requests) (b'.initializer.readiness family) b'.world ∧
      (∀ stage, course.callsAfter n stage + (replies.flatMap Reply.calls).count ⟨stage, family⟩ =
        course.callsAfter (n + attempts family requests) stage) ∧
      ToldAs (toldFor family requests replies)
        ((List.range' n (attempts family requests)).map (course.verdictAt family)) := by
  induction hrun generalizing n with
  | nil b => exact ⟨h, fun _ => rfl, .nil⟩
  | @cons b next last request reply rest replies hperform _ ih =>
    obtain ⟨hbench, hcalls, hperm⟩ := hperform.like reachable
    obtain ⟨hstanding, hcount, htold⟩ := standing_perform h (spares request List.mem_cons_self)
    rw [← hbench] at hstanding
    rw [← hcalls] at hcount
    obtain ⟨hlast, hcounts, hrest⟩ :=
      ih (hperform.reachable reachable) hstanding fun r hr => spares r (List.mem_cons_of_mem _ hr)
    have hattempts : attempts family (request :: rest) = request.attemptsFor family + attempts family rest := rfl
    rw [hattempts, ← Nat.add_assoc]
    refine ⟨hlast, fun stage => ?_, ?_⟩
    · rw [List.flatMap_cons, List.count_append, ← Nat.add_assoc, hcount, hcounts]
    · rw [toldFor_cons, List.range'_append_1.symm, List.map_append]
      by_cases hc : request.cell? = some (.family family)
      · rw [if_pos hc, ← htold hc]
        exact .cons hperm hrest
      · rw [if_neg hc]
        rw [Request.attemptsFor_of_cell?_ne hc] at hrest ⊢
        exact hrest

/-- What a run comes to for a family, by its course and by how many attempts there were. -/
structure Accounts (course : Course) (family : Family) (requests : List Request) (replies : List Reply)
    (b : Bench Script) : Prop where
  /-- The failing calls of each stage in turn, then readiness. -/
  told : ToldAs (toldFor family requests replies) (course.verdicts family (attempts family requests))
  snapshot : ∀ stage, (b.initializer.snapshot family).isActive stage =
    decide (course.through stage < attempts family requests)
  isReady : b.initializer.isReady family = decide (course.through .decoder < attempts family requests)
  calls : ∀ stage, (replies.flatMap Reply.calls).count ⟨stage, family⟩ =
    course.callsAfter (attempts family requests) stage

theorem Runs.accounts {script : Script} {requests : List Request} {replies : List Reply}
    (hrun : Runs Script.provider (start script) requests replies b)
    (spares : ∀ request ∈ requests, request.Spares family) :
    Accounts (script.course family) family requests replies b := by
  obtain ⟨hstanding, hcounts, htold⟩ :=
    hrun.standing (reachable_start script) (Course.Standing.initial script family) spares
  rw [Nat.zero_add] at hstanding hcounts
  rw [← List.range_eq_range', Course.map_verdictAt_range] at htold
  refine ⟨htold, fun stage => (hstanding.stages stage).active, hstanding.mark, fun stage => ?_⟩
  rw [← hcounts stage]
  simp [Course.callsAfter]

/-- In a run on a script, a family whose primitives only the initializer calls comes to what its course and
    the number of attempts tell. If one refusal of the script is a cut-off call instead, for whatever family,
    the verdict of the attempt that makes this call becomes another one, if there is such an attempt, and
    nothing else changes for the family. -/
theorem runs_by_course (script : Script) (family : Family) {requests : List Request} {replies : List Reply}
    (spares : ∀ request ∈ requests, request.Spares family)
    (hrun : Runs Script.provider (start script) requests replies b) :
    let course := script.course family
    let n := attempts family requests
    Accounts course family requests replies b ∧
      ∀ other stage i reason, (script.left other stage)[i]? = some (.refused reason) →
        ∀ replies' b', Runs Script.provider (start (script.cut other stage i)) requests replies' b' →
          b'.initializer.snapshot family = b.initializer.snapshot family ∧
          b'.initializer.isReady family = b.initializer.isReady family ∧
          (∀ s, (replies'.flatMap Reply.calls).count ⟨s, family⟩ = (replies.flatMap Reply.calls).count ⟨s, family⟩) ∧
          if other = family ∧ i < (course.failing stage).length ∧ course.before stage + i < n then
            (course.verdicts family n)[course.before stage + i]? = some (.failed ⟨family, stage, reason⟩) ∧
            ToldAs (toldFor family requests replies')
              ((course.verdicts family n).set (course.before stage + i) .aborted)
          else ToldAs (toldFor family requests replies') (course.verdicts family n) := by
  intro course n
  have accounts := hrun.accounts spares
  refine ⟨accounts, fun other stage i reason hrefused replies' b' hrun' => ?_⟩
  have accounts' := hrun'.accounts spares
  rw [Script.course_cut] at accounts'
  have htold := accounts'.told
  by_cases ho : other = family
  · subst ho
    have hcut : (course stage)[i]? = some (.refused reason) := hrefused
    rw [if_pos rfl] at accounts' htold
    refine ⟨?_, ?_, fun s => ?_, ?_⟩
    · refine Flags.ext_isActive fun s => ?_
      rw [accounts'.snapshot, accounts.snapshot, Course.through_cut hcut]
    · rw [accounts'.isReady, accounts.isReady, Course.through_cut hcut]
    · rw [accounts'.calls, accounts.calls, Course.callsAfter_cut hcut]
    · rw [Course.verdicts_cut hcut] at htold
      by_cases hi : i < (course.failing stage).length
      · rw [if_pos hi] at htold
        by_cases hn : course.before stage + i < n
        · rw [if_pos ⟨rfl, hi, hn⟩]
          exact ⟨Course.getElem?_verdicts hcut hi hn, htold⟩
        · -- The run ends before the call is made.
          rw [if_neg fun h => hn h.2.2]
          rwa [List.set_eq_of_length_le (Nat.le_trans Course.length_verdicts_le (Nat.le_of_not_lt hn))] at htold
      · rw [if_neg fun h => hi h.2.1]
        rwa [if_neg hi] at htold
  · rw [if_neg ho] at accounts' htold
    refine ⟨Flags.ext_isActive fun s => ?_, ?_, fun s => ?_, ?_⟩
    · rw [accounts'.snapshot, accounts.snapshot]
    · rw [accounts'.isReady, accounts.isReady]
    · rw [accounts'.calls, accounts.calls]
    · rw [if_neg fun h => ho h.1]
      exact htold

/-- Three attempts for one family and one for another: a refusal and a cut-off call, then readiness. -/
theorem two_families_by_course :
    let script : Script := .ofList [((⟨"A"⟩, .metadata), [.refused (.toolkit "busy"), .ok]),
      ((⟨"A"⟩, .decoder), [.aborted]), ((⟨"B"⟩, .metadata), [.aborted])]
    let requests : List Request := [.ensureReady ⟨"A"⟩, .ensureReady ⟨"B"⟩, .ensureTogether ⟨"A"⟩ 2,
      .activate .metadata ⟨"B"⟩]
    (∀ request ∈ requests, request.Spares ⟨"A"⟩) ∧
      toldFor ⟨"A"⟩ requests (run Script.provider requests (start script)).1 =
        [[.failed ⟨⟨"A"⟩, .metadata, .toolkit "busy"⟩], [.aborted, .ready]] ∧
      Accounts (script.course ⟨"A"⟩) ⟨"A"⟩ requests (run Script.provider requests (start script)).1
        (run Script.provider requests (start script)).2 := by
  intro script requests
  have spares : ∀ request ∈ requests, request.Spares ⟨"A"⟩ := by simp [requests, Request.Spares]
  exact ⟨spares, by decide, (runs_by_course script ⟨"A"⟩ spares (runs_run _ _ _)).1⟩

end Bench

end GpuListing
