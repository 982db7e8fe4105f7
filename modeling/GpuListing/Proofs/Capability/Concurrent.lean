import GpuListing.Proofs.Capability.Crowd

/-! # Runs of callers

A run of callers moves them in a given order. It keeps the invariant of crowds, it never gets stuck before
every caller is done, and it is short: each caller has at most ten moves. Where all are done, the series that
the crowd follows is that of all callers, one after another. -/

namespace GpuListing

variable {World : Type}

/-- The most moves that a caller has before it. -/
def Caller.movesLeft : Caller → Nat
  | arriving => 10
  | waiting => 9
  | holding left => 2 * left.length + 2
  | activated _ left => 2 * left.length + 3
  | leaving => 1
  | done _ => 0

theorem Caller.movesLeft_lt {provider : Provider World} {family : Family} {c next : Caller} {s t : Shared World}
    (hmove : Moves provider family c s next t) : next.movesLeft < c.movesLeft := by
  cases hmove with
  | succeed _ _ =>
    simp only [movesLeft, List.length_cons]
    omega
  | _ => simp [movesLeft, Stage.all]

/-- A move calls at most one primitive, and only for a stage that is not active. -/
theorem Caller.calls_of_moves {provider : Provider World} {family : Family} {c next : Caller}
    {s t : Shared World} (hmove : Moves provider family c s next t) :
    t.calls = s.calls ∨
      ∃ stage, s.readiness.flags.isActive stage = false ∧ t.calls = s.calls ++ [⟨stage, family⟩] := by
  cases hmove with
  | succeed ha _ => exact .inr ⟨_, ha, rfl⟩
  | fail ha _ => exact .inr ⟨_, ha, rfl⟩
  | abort ha _ => exact .inr ⟨_, ha, rfl⟩
  | _ => exact .inl rfl

namespace Crowd
variable {provider : Provider World} {family : Family} {c c' : Crowd World} {order : List Nat}

/-- The most moves that the callers have before them. -/
def movesLeft (c : Crowd World) : Nat := (c.callers.map Caller.movesLeft).foldr (· + ·) 0

/-! ### What a run keeps -/

theorem run_cons {index : Nat} (hrun : c.run provider family (index :: order) = some c') :
    ∃ d, c.step provider family index = some d ∧ d.run provider family order = some c' :=
  Option.bind_eq_some_iff.mp hrun

/-- What every step keeps, a run keeps. -/
theorem run_keeps {P : Crowd World → Prop}
    (step : ∀ {c c' : Crowd World} {index}, P c → c.step provider family index = some c' → P c') (h : P c)
    (hrun : c.run provider family order = some c') : P c' := by
  induction order generalizing c with
  | nil =>
    cases hrun
    exact h
  | cons index order ih =>
    obtain ⟨d, hs, hrest⟩ := run_cons hrun
    exact ih (step h hs) hrest

theorem Inv.run {r : Readiness} {world : World} (h : Inv provider family r world c)
    (hrun : c.run provider family order = some c') : Inv provider family r world c' :=
  run_keeps (fun h hs => h.step hs) h hrun

theorem length_callers_run (hrun : c.run provider family order = some c') :
    c'.callers.length = c.callers.length := by
  refine run_keeps (P := fun d => d.callers.length = c.callers.length) (fun h hs => ?_) rfl hrun
  obtain ⟨_, _, _, hbefore, -, hafter⟩ := step_eq_some hs
  rw [← h, hafter.length_eq, hbefore.length_eq]
  rfl

theorem movesLeft_step {index : Nat} (hs : c.step provider family index = some c') :
    c'.movesLeft < c.movesLeft := by
  obtain ⟨caller, next, others, hbefore, hmove, hafter⟩ := step_eq_some hs
  have hlt := Caller.movesLeft_lt hmove
  show (c'.callers.map Caller.movesLeft).sum < (c.callers.map Caller.movesLeft).sum
  rw [(hbefore.map _).sum_nat, (hafter.map _).sum_nat]
  simp only [List.map_cons, List.sum_cons]
  omega

/-- Every move takes one of those that are left. -/
theorem length_order_le (hrun : c.run provider family order = some c') :
    order.length + c'.movesLeft ≤ c.movesLeft := by
  induction order generalizing c with
  | nil =>
    cases hrun
    simp
  | cons index order ih =>
    obtain ⟨d, hs, hrest⟩ := run_cons hrun
    have hle := ih hrest
    have hlt := movesLeft_step hs
    rw [List.length_cons]
    omega

/-! ### Where a run can go on and where it ends -/

theorem isDone_iff (c : Crowd World) : c.isDone = true ↔ ∀ caller ∈ c.callers, ∃ verdict, caller = .done verdict := by
  rw [isDone, List.all_eq_true]
  refine forall_congr' fun caller => imp_congr_right fun _ => ?_
  cases caller <;> simp

theorem exists_step_of_move {caller : Caller} (hc : caller ∈ c.callers)
    (h : caller.move provider family c.shared ≠ none) :
    ∃ index c', c.step provider family index = some c' := by
  obtain ⟨index, hindex⟩ := List.getElem?_of_mem hc
  obtain ⟨⟨next, shared⟩, hmove⟩ := Option.ne_none_iff_exists'.mp h
  exact ⟨index, ⟨c.callers.set index next, shared⟩, by simp [step, hindex, hmove]⟩

/-- As long as a caller is not done, some caller can move: the one that holds the flags, or if no one does,
    any one that is not done. -/
theorem Inv.exists_step {r : Readiness} {world : World} (h : Inv provider family r world c)
    (hd : c.isDone = false) : ∃ index c', c.step provider family index = some c' := by
  rcases h.settled with ⟨hheld, -⟩ | ⟨-, holder, hone, -⟩
  · rw [← Bool.not_eq_true, isDone_iff] at hd
    obtain ⟨caller, hcaller⟩ := Classical.not_forall.mp hd
    obtain ⟨hc, hcaller⟩ := Classical.not_imp.mp hcaller
    refine exists_step_of_move hc fun hnone => ?_
    rcases (Caller.move_eq_none_iff _ _ _ _).mp hnone with ⟨verdict, hv⟩ | ⟨-, hh⟩
    · exact hcaller ⟨verdict, hv⟩
    · rw [hheld] at hh
      cases hh
  · have hmem : holder ∈ c.holders := by simp [hone]
    obtain ⟨hc, hholds⟩ := List.mem_filter.mp hmem
    refine exists_step_of_move hc fun hnone => ?_
    rcases (Caller.move_eq_none_iff _ _ _ _).mp hnone with ⟨verdict, rfl⟩ | ⟨rfl, -⟩ <;> cases hholds

theorem length_verdicts_of_isDone (hd : c.isDone = true) : c.verdicts.length = c.callers.length := by
  rw [verdicts_eq, List.filterMap_length_eq_length]
  intro caller hc
  obtain ⟨verdict, rfl⟩ := (isDone_iff c).mp hd caller hc
  rfl

/-- Where every caller is done, the crowd has come to what the callers come to one after another. -/
theorem Inv.follows_of_isDone {r : Readiness} {world : World} (h : Inv provider family r world c)
    (hd : c.isDone = true) :
    Series.Follows provider family r world ⟨c.verdicts, c.shared.readiness, c.shared.world, c.shared.calls⟩ := by
  rcases h.settled with ⟨-, -, hfollows⟩ | ⟨-, holder, hone, -⟩
  · exact hfollows
  · have hmem : holder ∈ c.holders := by simp [hone]
    obtain ⟨hc, hholds⟩ := List.mem_filter.mp hmem
    obtain ⟨verdict, rfl⟩ := (isDone_iff c).mp hd holder hc
    cases hholds

theorem run_isDone {r : Readiness} (sound : r.Sound) {world : World} {count : Nat}
    (hrun : (start count r world).run provider family order = some c) (hd : c.isDone = true) :
    c.shared.calls = (r.series provider family count world).calls ∧
      c.shared.readiness = (r.series provider family count world).readiness ∧
      c.shared.world = (r.series provider family count world).world ∧
      c.verdicts.Perm (r.series provider family count world).verdicts := by
  obtain ⟨verdicts, hperm, hseries⟩ := ((inv_start sound count world).run hrun).follows_of_isDone hd
  have hcount : c.verdicts.length = count := by
    rw [length_verdicts_of_isDone hd, length_callers_run hrun]
    simp [start]
  rw [hcount] at hseries
  rw [hseries]
  exact ⟨rfl, rfl, rfl, hperm⟩

/-- Callers on a state that attempts lead to, moving in any order. At every moment the flags are ordered, the
    mark is set only if all stages are active, and the next move calls no stage that is active. Where all
    callers are done, the calls, the state and the world are those of the callers one after another, and so
    are the verdicts but for their order. The run gets there: it is stuck nowhere before, and its length is
    bounded. -/
theorem run_like_series {r : Readiness} (reachable : r.Reachable) (provider : Provider World) (family : Family)
    (world : World) (count : Nat) (order : List Nat) {c : Crowd World}
    (hrun : (start count r world).run provider family order = some c) :
    c.shared.readiness.flags.isOrdered = true ∧
      (c.shared.readiness.ready = true → ∀ stage, c.shared.readiness.flags.isActive stage = true) ∧
      (∀ index c', c.step provider family index = some c' → c'.shared.calls = c.shared.calls ∨
        ∃ stage, c.shared.readiness.flags.isActive stage = false ∧
          c'.shared.calls = c.shared.calls ++ [⟨stage, family⟩]) ∧
      (c.isDone = true →
        c.shared.calls = (r.series provider family count world).calls ∧
        c.shared.readiness = (r.series provider family count world).readiness ∧
        c.shared.world = (r.series provider family count world).world ∧
        c.verdicts.Perm (r.series provider family count world).verdicts) ∧
      (c.isDone = false → ∃ index c', c.step provider family index = some c') ∧
      order.length ≤ 10 * count := by
  have inv : Inv provider family r world c := (inv_start reachable.sound count world).run hrun
  refine ⟨inv.sound.ordered, ?_, ?_, run_isDone reachable.sound hrun, inv.exists_step, ?_⟩
  · intro hr
    exact (Flags.isReady_iff _).mp (inv.sound.mark hr)
  · intro index c' hs
    obtain ⟨_, _, _, -, hmove, -⟩ := step_eq_some hs
    exact Caller.calls_of_moves hmove
  · have hle := length_order_le hrun
    have hmoves : (start count r world).movesLeft = 10 * count := by
      show ((List.replicate count Caller.arriving).map Caller.movesLeft).sum = 10 * count
      simp [Caller.movesLeft, Nat.mul_comm]
    omega

/-- The second caller takes the flags first and is refused, then the first one comes up. -/
theorem two_callers_like_series :
    let provider : Provider Nat := fun _ _ n => if n = 0 then (.refused (.toolkit "busy"), 1) else (.ok, n + 1)
    let c : Crowd Nat := ⟨[.done .ready, .done (.failed ⟨⟨"A"⟩, .metadata, .toolkit "busy"⟩)],
      ⟨⟨⟨true, true, true⟩, true⟩, false, 4,
        [⟨.metadata, ⟨"A"⟩⟩, ⟨.metadata, ⟨"A"⟩⟩, ⟨.machineModel, ⟨"A"⟩⟩, ⟨.decoder, ⟨"A"⟩⟩]⟩⟩
    (start 2 .initial 0).run provider ⟨"A"⟩ [0, 1, 1, 1, 0, 0, 0, 0, 0, 0, 0, 0, 0] = some c ∧
      c.verdicts.Perm (Readiness.initial.series provider ⟨"A"⟩ 2 0).verdicts := by
  intro provider c
  have hrun : (start 2 .initial 0).run provider ⟨"A"⟩ [0, 1, 1, 1, 0, 0, 0, 0, 0, 0, 0, 0, 0] = some c := rfl
  exact ⟨hrun, ((run_like_series .initial provider ⟨"A"⟩ 0 2 _ hrun).2.2.2.1 rfl).2.2.2⟩

end Crowd

end GpuListing
