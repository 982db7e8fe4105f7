import GpuListing.Capability.Callers
import GpuListing.Proofs.Capability.Attempt
import GpuListing.Proofs.Capability.Sequence

/-! # Callers in any order

Callers that move in any order come to what they come to one after another. The flags are held by one caller
at a time, so at every point there is a series of attempts that accounts for the callers that are done and for
the one that holds the flags, as if it had already finished: its outlook. A move of the holder keeps its
outlook, taking the flags adds an attempt to the series, and a caller that finds the mark set adds one that
calls nothing. -/

namespace GpuListing

variable {World : Type}

/-! ### Series up to the order of their verdicts -/

/-- From a state and a world, as many attempts one after another come to this, but for the order of the
    verdicts. -/
def Series.Follows (provider : Provider World) (family : Family) (r : Readiness) (world : World)
    (s : Series World) : Prop :=
  ∃ verdicts, s.verdicts.Perm verdicts ∧
    r.series provider family s.verdicts.length world = ⟨verdicts, s.readiness, s.world, s.calls⟩

namespace Series.Follows
variable {provider : Provider World} {family : Family} {r : Readiness} {world : World} {s : Series World}

theorem start : Series.Follows provider family r world ⟨[], r, world, []⟩ := ⟨[], .refl _, rfl⟩

theorem attempt (h : s.Follows provider family r world) :
    Series.Follows provider family r world
      ⟨(s.readiness.ensureReady provider family s.world).verdict :: s.verdicts,
        (s.readiness.ensureReady provider family s.world).state,
        (s.readiness.ensureReady provider family s.world).world,
        s.calls ++ (s.readiness.ensureReady provider family s.world).calls⟩ := by
  obtain ⟨verdicts, hperm, hseries⟩ := h
  refine ⟨verdicts ++ [(s.readiness.ensureReady provider family s.world).verdict], ?_, ?_⟩
  · exact (hperm.cons _).trans (List.perm_append_singleton _ _).symm
  · rw [List.length_cons, Readiness.series_succ, hseries]

/-- Once the mark is set, one more attempt only adds a verdict. -/
theorem ready (h : s.Follows provider family r world) (hr : s.readiness.ready = true) :
    Series.Follows provider family r world ⟨.ready :: s.verdicts, s.readiness, s.world, s.calls⟩ := by
  simpa [Readiness.ensureReady, hr] using h.attempt

theorem perm (h : s.Follows provider family r world) {verdicts : List Verdict}
    (hv : verdicts.Perm s.verdicts) :
    Series.Follows provider family r world ⟨verdicts, s.readiness, s.world, s.calls⟩ := by
  obtain ⟨sequential, hperm, hseries⟩ := h
  exact ⟨sequential, hv.trans hperm, by rw [hv.length_eq, hseries]⟩

end Series.Follows

/-! ### Moves -/

namespace Caller

/-- The moves of a caller, with what is shared before and after. -/
inductive Moves (provider : Provider World) (family : Family) :
    Caller → Shared World → Caller → Shared World → Prop where
  | pass {s : Shared World} : s.readiness.ready = true → Moves provider family arriving s (done .ready) s
  | wait {s : Shared World} : s.readiness.ready = false → Moves provider family arriving s waiting s
  | take {s : Shared World} : s.held = false →
      Moves provider family waiting s (holding Stage.all) { s with held := true }
  | skip {s : Shared World} {stage : Stage} {left : List Stage} : s.readiness.flags.isActive stage = true →
      Moves provider family (holding (stage :: left)) s (holding left) s
  | succeed {s : Shared World} {stage : Stage} {left : List Stage} {world : World} :
      s.readiness.flags.isActive stage = false → provider stage family s.world = (.ok, world) →
      Moves provider family (holding (stage :: left)) s (activated stage left) (s.called ⟨stage, family⟩ world)
  | fail {s : Shared World} {stage : Stage} {left : List Stage} {world : World} {reason : ActivationError} :
      s.readiness.flags.isActive stage = false → provider stage family s.world = (.refused reason, world) →
      Moves provider family (holding (stage :: left)) s (done (.failed ⟨family, stage, reason⟩))
        (s.called ⟨stage, family⟩ world).release
  | abort {s : Shared World} {stage : Stage} {left : List Stage} {world : World} :
      s.readiness.flags.isActive stage = false → provider stage family s.world = (.aborted, world) →
      Moves provider family (holding (stage :: left)) s (done .aborted)
        (s.called ⟨stage, family⟩ world).release
  | activate {s : Shared World} {stage : Stage} {left : List Stage} :
      Moves provider family (activated stage left) s (holding left) (s.activate stage)
  | publish {s : Shared World} : Moves provider family (holding []) s leaving s.publish
  | leave {s : Shared World} : Moves provider family leaving s (done .ready) s.release

theorem moves_of_move {provider : Provider World} {family : Family} {c next : Caller} {s t : Shared World}
    (h : c.move provider family s = some (next, t)) : Moves provider family c s next t := by
  cases c with
  | arriving =>
    obtain ⟨rfl, rfl⟩ := Prod.mk.inj (Option.some.inj h)
    split
    · next hr => exact .pass hr
    · next hr => exact .wait (by simpa using hr)
  | waiting =>
    simp only [move] at h
    split at h
    · cases h
    · next hh =>
      obtain ⟨rfl, rfl⟩ := Prod.mk.inj (Option.some.inj h)
      exact .take (by simpa using hh)
  | holding left =>
    cases left with
    | nil =>
      obtain ⟨rfl, rfl⟩ := Prod.mk.inj (Option.some.inj h)
      exact .publish
    | cons stage left =>
      have hvisit : visit provider family stage left s = (next, t) := Option.some.inj h
      unfold visit at hvisit
      split at hvisit
      · next ha =>
        obtain ⟨rfl, rfl⟩ := Prod.mk.inj hvisit
        exact .skip ha
      · next ha =>
        rw [Bool.not_eq_true] at ha
        split at hvisit <;> next hp =>
          obtain ⟨rfl, rfl⟩ := Prod.mk.inj hvisit
          first | exact .succeed ha hp | exact .fail ha hp | exact .abort ha hp
  | activated stage left =>
    obtain ⟨rfl, rfl⟩ := Prod.mk.inj (Option.some.inj h)
    exact .activate
  | leaving =>
    obtain ⟨rfl, rfl⟩ := Prod.mk.inj (Option.some.inj h)
    exact .leave
  | done _ => cases h

end Caller

/-! ### The caller that holds the flags -/

namespace Caller

/-- The verdict of a caller that is done. -/
def verdict? : Caller → Option Verdict
  | done verdict => some verdict
  | _ => none

/-- What the attempt of a caller that holds the flags comes to from here on, if no one else moves. -/
def rest (provider : Provider World) (family : Family) (s : Shared World) : Caller → Attempt Readiness World
  | holding left =>
    let walk := activatePending provider family left s.readiness.flags s.world
    { walk with state := ⟨walk.state, decide (walk.verdict = .ready)⟩ }
  | activated stage left =>
    let walk := activatePending provider family left (s.readiness.flags.activate stage) s.world
    { walk with state := ⟨walk.state, decide (walk.verdict = .ready)⟩ }
  | _ => ⟨.ready, s.readiness, s.world, []⟩

/-- What everything comes to once the holder is done as well, given the verdicts of those that are. -/
def outlook (provider : Provider World) (family : Family) (s : Shared World) (c : Caller)
    (verdicts : List Verdict) : Series World :=
  let rest := c.rest provider family s
  ⟨rest.verdict :: verdicts, rest.state, rest.world, s.calls ++ rest.calls⟩

/-- The holder has the stages left that come last, and all others are active. -/
def Placed (s : Shared World) : Caller → Prop
  | holding left => left <:+ Stage.all ∧ ∀ stage, stage ∉ left → s.readiness.flags.isActive stage = true
  | activated stage left =>
    stage :: left <:+ Stage.all ∧ ∀ other, other ∉ stage :: left → s.readiness.flags.isActive other = true
  | leaving => s.readiness.ready = true
  | _ => True

end Caller

/-- What holds of the shared flags at every moment: they are ordered, and the mark is set only if all are
    active. -/
structure Shared.Sound (s : Shared World) : Prop where
  ordered : s.readiness.flags.isOrdered = true
  mark : s.readiness.ready = true → s.readiness.flags.isReady = true

theorem Flags.isOrdered_activate {flags : Flags} (ordered : flags.isOrdered = true) {stage : Stage}
    {left : List Stage} (hs : stage :: left <:+ Stage.all)
    (active : ∀ other, other ∉ stage :: left → flags.isActive other = true) :
    (flags.activate stage).isOrdered = true := by
  simp only [Stage.all, List.suffix_cons_iff, List.suffix_nil, List.cons.injEq, reduceCtorEq, or_false] at hs
  obtain ⟨m, k, d⟩ := flags
  rcases hs with ⟨rfl, rfl⟩ | ⟨rfl, rfl⟩ | ⟨rfl, rfl⟩
  · cases m <;> cases k <;> cases d <;> first | rfl | cases ordered
  · have hm := active .metadata (by decide)
    simp_all [activate, isOrdered, isActive]
  · have hm := active .metadata (by decide)
    have hk := active .machineModel (by decide)
    simp_all [activate, isOrdered, isActive]

theorem Flags.isReady_activate {flags : Flags} (h : flags.isReady = true) (stage : Stage) :
    (flags.activate stage).isReady = true := by
  rw [Flags.isReady_iff] at h ⊢
  intro other
  rw [Flags.isActive_activate, h other, Bool.or_true]

namespace Caller
variable {provider : Provider World} {family : Family} {c next : Caller} {s t : Shared World}

/-- A move of the holder that does not let go of the flags. -/
theorem advance (sound : s.Sound) (hc : c.holds = true) (placed : c.Placed s)
    (hmove : Moves provider family c s next t) (hn : next.holds = true) :
    t.Sound ∧ next.Placed t ∧ t.held = s.held ∧
      ∀ verdicts, next.outlook provider family t verdicts = c.outlook provider family s verdicts := by
  cases hmove with
  | pass _ => cases hc
  | wait _ => cases hc
  | take _ => cases hc
  | @skip s stage left ha =>
    obtain ⟨hsuffix, hactive⟩ := placed
    refine ⟨sound, ⟨(List.suffix_cons _ _).trans hsuffix, fun other ho => ?_⟩, rfl, fun verdicts => ?_⟩
    · by_cases hs : other = stage
      · exact hs ▸ ha
      · exact hactive other (by simp [ho, hs])
    · simp only [outlook, rest, activatePending_active ha]
  | succeed ha hp =>
    refine ⟨⟨sound.ordered, sound.mark⟩, placed, rfl, fun verdicts => ?_⟩
    simp only [outlook, rest, Shared.called, activatePending_ok ha hp, List.append_assoc, List.singleton_append]
    rfl
  | fail _ _ => cases hn
  | abort _ _ => cases hn
  | @activate s stage left =>
    obtain ⟨hsuffix, hactive⟩ := placed
    refine ⟨⟨Flags.isOrdered_activate sound.ordered hsuffix hactive,
      fun h => Flags.isReady_activate (sound.mark h) stage⟩,
      ⟨(List.suffix_cons _ _).trans hsuffix, fun other ho => ?_⟩, rfl, fun _ => rfl⟩
    show (s.readiness.flags.activate stage).isActive other = true
    rw [Flags.isActive_activate]
    by_cases hs : stage = other
    · simp [hs]
    · simp [hactive other (by simp [ho, Ne.symm hs])]
  | publish =>
    refine ⟨⟨sound.ordered, fun _ => ?_⟩, rfl, rfl, fun _ => rfl⟩
    exact (Flags.isReady_iff _).mpr fun stage => placed.2 stage (by simp)
  | leave => cases hn

/-- A move with which the holder lets go of the flags: what was in prospect has come. -/
theorem finish (sound : s.Sound) (hc : c.holds = true) (hmove : Moves provider family c s next t)
    (hn : next.holds = false) :
    t.Sound ∧ t.held = false ∧ ∃ verdict, next = done verdict ∧
      ∀ verdicts, c.outlook provider family s verdicts =
        ⟨verdict :: verdicts, t.readiness, t.world, t.calls⟩ := by
  -- Where a stage is pending the mark is not set, and a failure leaves it so.
  have unmarked : ∀ {stage}, s.readiness.flags.isActive stage = false →
      (⟨s.readiness.flags, false⟩ : Readiness) = s.readiness := by
    intro stage ha
    have hready : s.readiness.ready = false := by
      rw [Bool.eq_false_iff]
      intro h
      rw [(Flags.isReady_iff _).mp (sound.mark h) stage] at ha
      cases ha
    rw [← hready]
  cases hmove with
  | pass _ => cases hc
  | wait _ => cases hc
  | take _ => cases hn
  | skip _ => cases hn
  | succeed _ _ => cases hn
  | fail ha hp =>
    refine ⟨⟨sound.ordered, sound.mark⟩, rfl, _, rfl, fun verdicts => ?_⟩
    simp [outlook, rest, activatePending_refused ha hp, Shared.called, Shared.release, unmarked ha]
  | abort ha hp =>
    refine ⟨⟨sound.ordered, sound.mark⟩, rfl, _, rfl, fun verdicts => ?_⟩
    simp [outlook, rest, activatePending_aborted ha hp, Shared.called, Shared.release, unmarked ha]
  | activate => cases hn
  | publish => cases hn
  | leave => exact ⟨⟨sound.ordered, sound.mark⟩, rfl, .ready, rfl, fun _ => by simp [outlook, rest, Shared.release]⟩

theorem verdict?_of_holds (h : c.holds = true) : c.verdict? = none := by
  cases c <;> first | rfl | cases h

/-- The outlook of a caller that has just taken the flags is an attempt on the shared state. -/
theorem outlook_take (sound : s.Sound) (verdicts : List Verdict) :
    (holding Stage.all).outlook provider family { s with held := true } verdicts =
      let attempt := s.readiness.ensureReady provider family s.world
      ⟨attempt.verdict :: verdicts, attempt.state, attempt.world, s.calls ++ attempt.calls⟩ := by
  by_cases hr : s.readiness.ready = true
  · have hsame : (⟨s.readiness.flags, true⟩ : Readiness) = s.readiness := by rw [← hr]
    simp [outlook, rest, Readiness.ensureReady, hr, activatePending_of_isReady (sound.mark hr), hsame]
  · simp only [outlook, rest, Readiness.ensureReady, hr]
    rfl

/-- The mark stays set in every outlook. -/
theorem outlook_ready (sound : s.Sound) (hr : s.readiness.ready = true) (verdicts : List Verdict) :
    (c.outlook provider family s verdicts).readiness.ready = true := by
  have hready := sound.mark hr
  cases c with
  | holding left => simp [outlook, rest, activatePending_of_isReady hready]
  | activated stage left =>
    simp [outlook, rest, activatePending_of_isReady (Flags.isReady_activate hready stage)]
  | arriving => exact hr
  | waiting => exact hr
  | leaving => exact hr
  | done _ => exact hr

end Caller

/-! ### Crowds -/

namespace Crowd
variable {provider : Provider World} {family : Family} {c c' : Crowd World}

/-- The callers that hold the flags. -/
def holders (c : Crowd World) : List Caller := c.callers.filter Caller.holds

theorem verdicts_eq (c : Crowd World) : c.verdicts = c.callers.filterMap Caller.verdict? := rfl

/-- A step is the move of one caller; the others stay as they are. -/
theorem step_eq_some {index : Nat} (h : c.step provider family index = some c') :
    ∃ caller next others, c.callers.Perm (caller :: others) ∧
      Caller.Moves provider family caller c.shared next c'.shared ∧ c'.callers.Perm (next :: others) := by
  unfold step at h
  simp only [Option.bind_eq_bind, Option.bind_eq_some_iff, Option.pure_def, Option.some.injEq] at h
  obtain ⟨caller, hcaller, ⟨next, shared⟩, hmove, rfl⟩ := h
  obtain ⟨hindex, rfl⟩ := List.getElem?_eq_some_iff.mp hcaller
  have hsplit : c.callers = c.callers.take index ++ c.callers[index] :: c.callers.drop (index + 1) := by simp
  have hset : c.callers.set index next = c.callers.take index ++ next :: c.callers.drop (index + 1) :=
    List.set_eq_take_append_cons_drop.trans (if_pos hindex)
  refine ⟨c.callers[index], next, c.callers.take index ++ c.callers.drop (index + 1), ?_,
    Caller.moves_of_move hmove, ?_⟩
  · exact (List.Perm.of_eq hsplit).trans List.perm_middle
  · exact (List.Perm.of_eq hset).trans List.perm_middle

/-- At every moment there is a series of attempts from the start that the crowd follows: the attempts of the
    callers that are done, and that of the holder as it will come out. -/
structure Inv (provider : Provider World) (family : Family) (r : Readiness) (world : World) (c : Crowd World) :
    Prop where
  sound : c.shared.Sound
  settled :
    (c.shared.held = false ∧ c.holders = [] ∧
      Series.Follows provider family r world
        ⟨c.verdicts, c.shared.readiness, c.shared.world, c.shared.calls⟩) ∨
    (c.shared.held = true ∧ ∃ holder, c.holders = [holder] ∧ holder.Placed c.shared ∧
      (holder.outlook provider family c.shared c.verdicts).Follows provider family r world)

theorem inv_start {r : Readiness} (h : r.Sound) (count : Nat) (world : World) :
    Inv provider family r world (start count r world) where
  sound := ⟨h.ordered, fun hr => h.mark ▸ hr⟩
  settled := by
    refine .inl ⟨rfl, ?_, ?_⟩
    · simp [holders, start, Caller.holds]
    · have hverdicts : (start count r world).verdicts = [] := by
        simp [verdicts_eq, start, Caller.verdict?]
      rw [hverdicts]
      exact .start

section
variable {caller next : Caller} {others : List Caller}

theorem holders_perm (h : c.callers.Perm (caller :: others)) :
    c.holders.Perm ((if caller.holds then [caller] else []) ++ others.filter Caller.holds) := by
  refine (h.filter _).trans (.of_eq ?_)
  rw [List.filter_cons]
  split <;> rfl

theorem verdicts_perm (h : c.callers.Perm (caller :: others)) :
    c.verdicts.Perm (caller.verdict?.toList ++ others.filterMap Caller.verdict?) := by
  rw [verdicts_eq]
  refine (h.filterMap _).trans (.of_eq ?_)
  cases hv : caller.verdict? <;> simp [hv]

/-- A caller that does not hold the flags leaves their holders as they are. -/
theorem holders_eq_of_not_holds (h : c.callers.Perm (caller :: others)) (h' : c'.callers.Perm (next :: others))
    (hc : caller.holds = false) (hn : next.holds = false) : c'.holders.Perm c.holders := by
  have hb := holders_perm h
  have ha := holders_perm h'
  rw [hc] at hb
  rw [hn] at ha
  exact ha.trans hb.symm

/-- The holder moves. -/
theorem Inv.step_holder {r : Readiness} {world : World} (h : Inv provider family r world c)
    (hcallers : c.callers.Perm (caller :: others)) (hc : caller.holds = true)
    (hmove : Caller.Moves provider family caller c.shared next c'.shared)
    (hcallers' : c'.callers.Perm (next :: others)) : Inv provider family r world c' := by
  have hholders := holders_perm hcallers
  have hholders' := holders_perm hcallers'
  have hverdicts := verdicts_perm hcallers
  have hverdicts' := verdicts_perm hcallers'
  rw [if_pos hc] at hholders
  rw [Caller.verdict?_of_holds hc] at hverdicts
  obtain ⟨-, hnone, -⟩ | ⟨hheld, holder, hone, hplaced, hfollows⟩ := h.settled
  · simp [hnone] at hholders
  rw [hone] at hholders
  obtain ⟨rfl, hothers⟩ : caller = holder ∧ others.filter Caller.holds = [] := by
    simpa using List.perm_singleton.mp hholders.symm
  rw [hothers, List.append_nil] at hholders'
  by_cases hn : next.holds = true
  · obtain ⟨sound, placed, held, houtlook⟩ := Caller.advance h.sound hc hplaced hmove hn
    rw [if_pos hn] at hholders'
    rw [Caller.verdict?_of_holds hn] at hverdicts'
    refine ⟨sound, .inr ⟨held.trans hheld, next, List.perm_singleton.mp hholders', placed, ?_⟩⟩
    rw [houtlook]
    exact hfollows.perm ((hverdicts'.trans hverdicts.symm).cons _)
  · obtain ⟨sound, held, verdict, rfl, houtlook⟩ := Caller.finish h.sound hc hmove (by simpa using hn)
    rw [if_neg hn] at hholders'
    refine ⟨sound, .inl ⟨held, List.perm_nil.mp hholders', ?_⟩⟩
    rw [houtlook] at hfollows
    exact hfollows.perm (hverdicts'.trans (hverdicts.symm.cons _))

/-- A caller finds the mark set: its attempt calls nothing. -/
theorem Inv.step_pass {r : Readiness} {world : World} (h : Inv provider family r world c)
    (hcallers : c.callers.Perm (.arriving :: others)) (hr : c.shared.readiness.ready = true)
    (hcallers' : c'.callers.Perm (.done .ready :: others)) (hshared : c'.shared = c.shared) :
    Inv provider family r world c' := by
  have hholders := holders_eq_of_not_holds hcallers hcallers' rfl rfl
  have hmore : c'.verdicts.Perm (.ready :: c.verdicts) :=
    (verdicts_perm hcallers').trans ((verdicts_perm hcallers).symm.cons _)
  refine ⟨hshared ▸ h.sound, ?_⟩
  rw [hshared]
  rcases h.settled with ⟨hheld, hnone, hfollows⟩ | ⟨hheld, holder, hone, hplaced, hfollows⟩
  · exact .inl ⟨hheld, List.perm_nil.mp (hnone ▸ hholders), (hfollows.ready hr).perm hmore⟩
  · refine .inr ⟨hheld, holder, List.perm_singleton.mp (hone ▸ hholders), hplaced, ?_⟩
    have hready : (holder.outlook provider family c.shared c.verdicts).readiness.ready = true :=
      Caller.outlook_ready h.sound hr c.verdicts
    exact (hfollows.ready hready).perm ((hmore.cons _).trans (.swap _ _ _))

/-- A caller finds the mark not set, and nothing is changed. -/
theorem Inv.step_wait {r : Readiness} {world : World} (h : Inv provider family r world c)
    (hcallers : c.callers.Perm (.arriving :: others)) (hcallers' : c'.callers.Perm (.waiting :: others))
    (hshared : c'.shared = c.shared) : Inv provider family r world c' := by
  have hholders := holders_eq_of_not_holds hcallers hcallers' rfl rfl
  have hsame : c'.verdicts.Perm c.verdicts := (verdicts_perm hcallers').trans (verdicts_perm hcallers).symm
  refine ⟨hshared ▸ h.sound, ?_⟩
  rw [hshared]
  rcases h.settled with ⟨hheld, hnone, hfollows⟩ | ⟨hheld, holder, hone, hplaced, hfollows⟩
  · exact .inl ⟨hheld, List.perm_nil.mp (hnone ▸ hholders), hfollows.perm hsame⟩
  · exact .inr ⟨hheld, holder, List.perm_singleton.mp (hone ▸ hholders), hplaced, hfollows.perm (hsame.cons _)⟩

/-- A caller that waits takes the flags: its attempt is the next one of the series. -/
theorem Inv.step_take {r : Readiness} {world : World} (h : Inv provider family r world c)
    (hcallers : c.callers.Perm (.waiting :: others)) (hfree : c.shared.held = false)
    (hcallers' : c'.callers.Perm (.holding Stage.all :: others))
    (hshared : c'.shared = { c.shared with held := true }) : Inv provider family r world c' := by
  have hholders := holders_perm hcallers
  have hholders' := holders_perm hcallers'
  have hsame : c'.verdicts.Perm c.verdicts := (verdicts_perm hcallers').trans (verdicts_perm hcallers).symm
  obtain ⟨-, hnone, hfollows⟩ | ⟨hheld, -⟩ := h.settled
  · have hothers : others.filter Caller.holds = [] := by simpa [Caller.holds, hnone] using hholders
    rw [hothers] at hholders'
    refine ⟨hshared ▸ ⟨h.sound.ordered, h.sound.mark⟩, ?_⟩
    rw [hshared]
    refine .inr ⟨rfl, _, List.perm_singleton.mp hholders', ⟨List.suffix_refl _, ?_⟩, ?_⟩
    · intro stage hs
      cases stage <;> simp [Stage.all] at hs
    · rw [Caller.outlook_take h.sound]
      exact hfollows.attempt.perm (hsame.cons _)
  · rw [hfree] at hheld
    cases hheld

end

theorem Inv.step {r : Readiness} {world : World} (h : Inv provider family r world c) {index : Nat}
    (hs : c.step provider family index = some c') : Inv provider family r world c' := by
  obtain ⟨caller, next, others, hcallers, hmove, hcallers'⟩ := step_eq_some hs
  by_cases hc : caller.holds = true
  · exact h.step_holder hcallers hc hmove hcallers'
  · generalize ht : c'.shared = t at hmove
    generalize hs : c.shared = s at hmove
    cases hmove with
    | pass hr => exact h.step_pass hcallers (hs ▸ hr) hcallers' (ht.trans hs.symm)
    | wait _ => exact h.step_wait hcallers hcallers' (ht.trans hs.symm)
    | take hh => exact h.step_take hcallers (hs ▸ hh) hcallers' (by rw [ht, hs])
    | skip _ => exact absurd rfl hc
    | succeed _ _ => exact absurd rfl hc
    | fail _ _ => exact absurd rfl hc
    | abort _ _ => exact absurd rfl hc
    | activate => exact absurd rfl hc
    | publish => exact absurd rfl hc
    | leave => exact absurd rfl hc

end Crowd

end GpuListing
