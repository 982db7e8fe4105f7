import GpuListing.Proofs.Capability.Interleaved
import GpuListing.Proofs.FamilyOrder

/-! # Families asked for

The families of an initializer are those that were asked for, whatever came of it. A look at the initializer leaves the
bench as it is, so looks may be put into a run or left out of it anywhere. To look a state up leaves nothing behind but
its family, which only an answer that lists the families shows. -/

namespace GpuListing

variable {World : Type}

/-! ### Requests and replies -/

namespace Request

/-- The request enters the family: it asks for its state or brings it up through the initializer. -/
def Enters (family : Family) : Request → Prop
  | .ensureReady other => other = family
  | .state other => other = family
  | .ensureTogether other callers => other = family ∧ 0 < callers
  | _ => False

/-- The request looks at the initializer and enters no family. -/
def IsLook : Request → Prop
  | .isReady _ => True
  | .snapshot _ => True
  | .families => True
  | _ => False

end Request

/-- The families in order, with one more if it is not among them. -/
def Family.include (family : Family) (families : List Family) : List Family :=
  if family ∈ families then families else sort (family :: families)

/-- The reply with one more family where it lists the families. -/
def Reply.including (family : Family) : Reply → Reply
  | ⟨.families families, calls⟩ => ⟨.families (family.include families), calls⟩
  | reply => reply

/-- Requests, each with a mark if it may be left out. -/
abbrev Plan := List (Request × Bool)

namespace Plan

/-- All requests. -/
def whole (plan : Plan) : List Request := plan.map Prod.fst

/-- The requests without a mark. -/
def reduced (plan : Plan) : List Request := (plan.filter fun entry => !entry.2).map Prod.fst

/-- The replies to the requests without a mark. -/
def told (plan : Plan) (replies : List Reply) : List Reply :=
  ((plan.zip replies).filter fun answered => !answered.1.2).map Prod.snd

/-- Nothing but looks may be left out. -/
def LeavesOutLooks (plan : Plan) : Prop := ∀ entry ∈ plan, entry.2 = true → entry.1.IsLook

variable {request : Request} {reply : Reply} {plan : Plan} {replies : List Reply}

theorem told_cons_unmarked : told ((request, false) :: plan) (reply :: replies) = reply :: plan.told replies := rfl

end Plan

/-! ### Families that are entered -/

theorem Family.mem_include {family other : Family} {families : List Family} :
    other ∈ family.include families ↔ other = family ∨ other ∈ families := by
  unfold Family.include
  split
  · next h => exact ⟨.inr, fun ho => ho.elim (fun he => he ▸ h) id⟩
  · rw [mem_sort, List.mem_cons]

theorem Family.pairwise_include {family : Family} {families : List Family} (h : families.Pairwise (· < ·)) :
    (family.include families).Pairwise (· < ·) := by
  unfold Family.include
  split
  · exact h
  · next hnew => exact pairwise_sort (List.nodup_cons.2 ⟨hnew, nodup_of_pairwise h⟩)

namespace Initializer

theorem pairwise_families (i : Initializer) : i.families.Pairwise (· < ·) := Family.pairwise_sort i.states.nodup

theorem mem_families_put (i : Initializer) (family other : Family) (r : Readiness) :
    other ∈ (i.put family r).families ↔ other = family ∨ other ∈ i.families := by
  rw [families, families, Family.mem_sort, Family.mem_sort]
  exact Table.mem_keys_set i.states family other r

end Initializer

namespace Bench
variable {provider : Provider World} {b b' next last : Bench World} {request : Request} {reply : Reply}
  {family : Family} {requests : List Request} {replies : List Reply}

/-- A request leaves the families that were there, and the one that it enters. -/
theorem Performs.mem_families (h : Performs provider b request reply next) (family : Family) :
    family ∈ next.initializer.families ↔ request.Enters family ∨ family ∈ b.initializer.families := by
  have entered {other : Family} (r : Readiness) :
      family ∈ (b.initializer.put other r).families ↔ other = family ∨ family ∈ b.initializer.families := by
    rw [Initializer.mem_families_put, eq_comm]
  cases h with
  | @atOnce other callers order c hpos =>
    rw [entered, Request.Enters]
    simp only [hpos, and_true]
  | inTurn =>
    cases request with
    | ensureReady other | state other => exact entered _
    | ensureTogether other callers =>
      simp only [perform, ensureEach_eq, Request.Enters]
      by_cases hz : callers = 0
      · simp [hz]
      · rw [if_neg hz, entered]
        simp only [Nat.pos_of_ne_zero hz, and_true]
    | isReady _ | snapshot _ | families | activate _ _ | ensureSlot _ _ | slotState _ =>
      exact (or_iff_right id).symm

theorem Runs.mem_families (h : Runs provider b requests replies last) (family : Family) :
    family ∈ last.initializer.families ↔
      (∃ request ∈ requests, request.Enters family) ∨ family ∈ b.initializer.families := by
  induction h with
  | nil b => simp
  | cons hperform _ ih =>
    rw [ih, hperform.mem_families family]
    simp only [List.mem_cons, exists_eq_or_imp]
    rw [or_assoc, or_left_comm]

theorem Runs.length (h : Runs provider b requests replies last) : replies.length = requests.length := by
  induction h with
  | nil b => rfl
  | cons _ _ ih => rw [List.length_cons, List.length_cons, ih]

theorem runs_append_iff {before after : List Request} :
    Runs provider b (before ++ after) replies last ↔ ∃ first second next, replies = first ++ second ∧
      Runs provider b before first next ∧ Runs provider next after second last := by
  induction before generalizing b replies with
  | nil =>
    constructor
    · exact fun h => ⟨[], replies, b, rfl, .nil b, h⟩
    · rintro ⟨first, second, next, rfl, hfirst, hsecond⟩
      cases hfirst
      exact hsecond
  | cons request before ih =>
    constructor
    · intro h
      obtain _ | ⟨hperform, hrest⟩ := h
      obtain ⟨first, second, next, rfl, hfirst, hsecond⟩ := ih.1 hrest
      exact ⟨_ :: first, second, next, rfl, .cons hperform hfirst, hsecond⟩
    · rintro ⟨first, second, next, rfl, hfirst, hsecond⟩
      obtain _ | ⟨hperform, hfirst⟩ := hfirst
      exact .cons hperform (ih.2 ⟨_, second, next, rfl, hfirst, hsecond⟩)

/-- Wherever the families are asked for in a run, the answer lists those that were entered before. -/
theorem Runs.families_told {world : World} {before after : List Request}
    (h : Runs provider (start world) (before ++ .families :: after) replies last) :
    ∃ families, replies[before.length]? = some ⟨.families families, []⟩ ∧ families.Pairwise (· < ·) ∧
      ∀ family, family ∈ families ↔ ∃ request ∈ before, request.Enters family := by
  obtain ⟨first, second, b, rfl, hfirst, hsecond⟩ := runs_append_iff.1 h
  obtain _ | ⟨hperform, -⟩ := hsecond
  cases hperform
  refine ⟨b.initializer.families, ?_, b.initializer.pairwise_families, fun family => ?_⟩
  · rw [← hfirst.length, List.getElem?_append_right (Nat.le_refl _), Nat.sub_self]
    rfl
  · rw [hfirst.mem_families family]
    exact or_iff_left (mt Family.mem_sort.1 List.not_mem_nil)

/-! ### Looks -/

theorem Performs.of_look (h : Performs provider b request reply next) (hlook : request.IsLook) :
    next = b ∧ reply.calls = [] := by
  cases h with
  | atOnce => exact hlook.elim
  | inTurn =>
    cases request with
    | isReady _ | snapshot _ | families => exact ⟨rfl, rfl⟩
    | _ => exact hlook.elim

theorem exists_performs_look (provider : Provider World) (b : Bench World) (hlook : request.IsLook) :
    ∃ reply, Performs provider b request reply b ∧ reply.calls = [] := by
  have hperform : Performs provider b request _ _ := .inTurn b request
  obtain ⟨hnext, hcalls⟩ := hperform.of_look hlook
  rw [hnext] at hperform
  exact ⟨_, hperform, hcalls⟩

section Looks
variable {plan : Plan} (hlooks : plan.LeavesOutLooks)
include hlooks

theorem Runs.reduced (h : Runs provider b plan.whole replies last) :
    Runs provider b plan.reduced (plan.told replies) last ∧
      (plan.told replies).flatMap Reply.calls = replies.flatMap Reply.calls := by
  induction plan generalizing b replies with
  | nil =>
    cases h
    exact ⟨.nil _, rfl⟩
  | cons entry plan ih =>
    obtain ⟨request, marked⟩ := entry
    obtain ⟨hlook, hplan⟩ := List.forall_mem_cons.1 hlooks
    cases h with
    | cons hperform hrest =>
      obtain ⟨hruns, hcalls⟩ := ih hplan hrest
      cases marked with
      | true =>
        obtain ⟨rfl, hnone⟩ := hperform.of_look (hlook rfl)
        refine ⟨hruns, ?_⟩
        rw [List.flatMap_cons, hnone, List.nil_append]
        exact hcalls
      | false =>
        refine ⟨.cons hperform hruns, ?_⟩
        rw [Plan.told_cons_unmarked, List.flatMap_cons, List.flatMap_cons, hcalls]

theorem Runs.whole (h : Runs provider b plan.reduced replies last) :
    ∃ all, Runs provider b plan.whole all last ∧ plan.told all = replies ∧
      all.flatMap Reply.calls = replies.flatMap Reply.calls := by
  induction plan generalizing b replies with
  | nil =>
    cases h
    exact ⟨[], .nil _, rfl, rfl⟩
  | cons entry plan ih =>
    obtain ⟨request, marked⟩ := entry
    obtain ⟨hlook, hplan⟩ := List.forall_mem_cons.1 hlooks
    cases marked with
    | true =>
      obtain ⟨reply, hperform, hnone⟩ := exists_performs_look provider b (hlook rfl)
      obtain ⟨all, hruns, htold, hcalls⟩ := ih hplan h
      refine ⟨reply :: all, .cons hperform hruns, htold, ?_⟩
      rw [List.flatMap_cons, hnone, List.nil_append, hcalls]
    | false =>
      cases h with
      | @cons _ _ _ _ reply _ _ hperform hrest =>
        obtain ⟨all, hruns, htold, hcalls⟩ := ih hplan hrest
        refine ⟨reply :: all, .cons hperform hruns, ?_, ?_⟩
        · rw [Plan.told_cons_unmarked, htold]
        · rw [List.flatMap_cons, List.flatMap_cons, hcalls]

end Looks

/-! ### States that are looked up -/

/-- The benches have the same states over one world; which families are entered may differ. -/
structure Agree (b b' : Bench World) : Prop where
  readiness : ∀ family, b'.initializer.readiness family = b.initializer.readiness family
  slots : b'.slots = b.slots
  world : b'.world = b.world

namespace Agree
variable (agree : Agree b b')
include agree

theorem symm : Agree b' b := ⟨fun family => (agree.readiness family).symm, agree.slots.symm, agree.world.symm⟩

theorem put (family : Family) (r : Readiness) (slots : Table String Readiness) (world : World) :
    Agree ⟨b.initializer.put family r, slots, world⟩ ⟨b'.initializer.put family r, slots, world⟩ :=
  ⟨fun other => by rw [Initializer.readiness_put, Initializer.readiness_put, agree.readiness], rfl, rfl⟩

theorem slot (name : String) : b'.slot name = b.slot name := by rw [Bench.slot, Bench.slot, agree.slots]

/-- In turn, benches that agree answer alike unless the families are asked for, and go on to agree. -/
theorem perform (provider : Provider World) (request : Request) :
    Agree (b.perform provider request).2 (b'.perform provider request).2 ∧
      (request ≠ .families → (b'.perform provider request).1 = (b.perform provider request).1) := by
  cases request with
  | ensureReady family =>
    simp only [Bench.perform, Bench.ensureReady, Initializer.ensureReady, agree.readiness, agree.world, agree.slots]
    exact ⟨agree.put family _ _ _, fun _ => trivial⟩
  | isReady family =>
    simp only [Bench.perform, Initializer.isReady, agree.readiness]
    exact ⟨agree, fun _ => trivial⟩
  | snapshot family =>
    simp only [Bench.perform, Initializer.snapshot, agree.readiness]
    exact ⟨agree, fun _ => trivial⟩
  | families => exact ⟨agree, fun h => absurd rfl h⟩
  | state family =>
    simp only [Bench.perform, Initializer.enter, agree.readiness, agree.world, agree.slots]
    exact ⟨agree.put family _ _ _, fun _ => trivial⟩
  | activate stage family =>
    simp only [Bench.perform, agree.world]
    exact ⟨⟨agree.readiness, agree.slots, rfl⟩, fun _ => trivial⟩
  | ensureSlot name family =>
    simp only [Bench.perform, agree.slot, agree.world, agree.slots]
    exact ⟨⟨agree.readiness, rfl, rfl⟩, fun _ => trivial⟩
  | slotState name =>
    simp only [Bench.perform, agree.slot, agree.slots]
    exact ⟨⟨agree.readiness, rfl, agree.world⟩, fun _ => trivial⟩
  | ensureTogether family callers =>
    simp only [Bench.perform, ensureEach_eq, agree.readiness, agree.world, agree.slots]
    refine ⟨?_, fun _ => trivial⟩
    split
    · exact ⟨agree.readiness, rfl, rfl⟩
    · exact agree.put family _ _ _

/-- However a request is performed, benches that agree may answer alike, and go on to agree. -/
theorem performs (h : Performs provider b request reply next) :
    ∃ reply' next', Performs provider b' request reply' next' ∧ Agree next next' ∧
      (request ≠ .families → reply' = reply) := by
  cases h with
  | inTurn =>
    obtain ⟨hnext, hreply⟩ := agree.perform provider request
    exact ⟨_, _, .inTurn b' request, hnext, hreply⟩
  | @atOnce family callers order c hpos hrun hdone =>
    rw [← agree.readiness, ← agree.world] at hrun
    exact ⟨_, _, .atOnce b' hpos hrun hdone, ⟨(agree.put family _ b.slots b.world).readiness, agree.slots, rfl⟩,
      fun _ => rfl⟩

end Agree

theorem Performs.including_eq (h : Performs provider b request reply next) (hother : request ≠ .families)
    (family : Family) : reply.including family = reply := by
  cases h with
  | atOnce => rfl
  | inTurn =>
    cases request with
    | families => exact absurd rfl hother
    | _ => rfl

theorem Performs.of_families (h : Performs provider b .families reply next) :
    reply = ⟨.families b.initializer.families, []⟩ := by
  cases h
  rfl

/-- The second bench is the first one with a family entered. -/
structure Gains (family : Family) (b b' : Bench World) : Prop where
  agree : Agree b b'
  families : b'.initializer.families = family.include b.initializer.families

namespace Gains

theorem of_state (h : Performs provider b (.state family) reply next) : Gains family b next ∧ reply.calls = [] := by
  have hfamilies : next.initializer.families = family.include b.initializer.families := by
    refine Family.eq_of_pairwise next.initializer.pairwise_families
      (Family.pairwise_include b.initializer.pairwise_families) fun other => ?_
    rw [h.mem_families other, Family.mem_include, Request.Enters, eq_comm]
  cases h
  exact ⟨⟨⟨fun other => Initializer.readiness_enter _ family other, rfl, rfl⟩, hfamilies⟩, rfl⟩

variable {next' last' : Bench World} {reply' : Reply} {replies' : List Reply} (gains : Gains family b b')
include gains

theorem step (h : Performs provider b request reply next) (h' : Performs provider b' request reply' next')
    (agree : Agree next next') : Gains family next next' := by
  refine ⟨agree, Family.eq_of_pairwise next'.initializer.pairwise_families
    (Family.pairwise_include next.initializer.pairwise_families) fun other => ?_⟩
  rw [h'.mem_families other, gains.families, Family.mem_include, Family.mem_include, h.mem_families other, or_left_comm]

/-- The replies of both benches to one request differ in the family at most. -/
theorem reply_eq (h : Performs provider b request reply next) (h' : Performs provider b' request reply' next')
    (hother : request ≠ .families → reply' = reply) : reply' = reply.including family := by
  by_cases hr : request = .families
  · subst hr
    rw [h.of_families, h'.of_families, gains.families]
    rfl
  · rw [hother hr, h.including_eq hr]

theorem performs (h : Performs provider b request reply next) :
    ∃ next', Performs provider b' request (reply.including family) next' ∧ Gains family next next' := by
  obtain ⟨reply', next', h', agree, hother⟩ := gains.agree.performs h
  rw [← gains.reply_eq h h' hother]
  exact ⟨next', h', gains.step h h' agree⟩

theorem performed (h' : Performs provider b' request reply' next') :
    ∃ reply next, reply' = reply.including family ∧ Performs provider b request reply next ∧
      Gains family next next' := by
  obtain ⟨reply, next, h, agree, hother⟩ := gains.agree.symm.performs h'
  exact ⟨reply, next, gains.reply_eq h h' fun hr => (hother hr).symm, h, gains.step h h' agree.symm⟩

theorem runs (h : Runs provider b requests replies last) :
    ∃ last', Runs provider b' requests (replies.map (Reply.including family)) last' ∧ Gains family last last' := by
  induction h generalizing b' with
  | nil b => exact ⟨b', .nil b', gains⟩
  | cons hperform _ ih =>
    obtain ⟨next', hperform', hnext⟩ := gains.performs hperform
    obtain ⟨last', hrest', hlast⟩ := ih hnext
    exact ⟨last', .cons hperform' hrest', hlast⟩

theorem ran (h' : Runs provider b' requests replies' last') :
    ∃ replies last, replies' = replies.map (Reply.including family) ∧ Runs provider b requests replies last ∧
      Gains family last last' := by
  induction h' generalizing b with
  | nil b' => exact ⟨[], b, rfl, .nil b, gains⟩
  | cons hperform' _ ih =>
    obtain ⟨reply, next, rfl, hperform, hnext⟩ := gains.performed hperform'
    obtain ⟨replies, last, rfl, hrest, hlast⟩ := ih hnext
    exact ⟨reply :: replies, last, rfl, .cons hperform hrest, hlast⟩

end Gains

/-- The replies of a run, and those with a family's state looked up after the first requests: one more, which makes no
call, and the family where the families are listed later. -/
def LookedUp (family : Family) (position : Nat) (replies replies' : List Reply) : Prop :=
  ∃ first reply second, first.length = position ∧ reply.calls = [] ∧ replies = first ++ second ∧
    replies' = first ++ reply :: second.map (Reply.including family)

section LookUps
variable {before after : List Request}

theorem Runs.with_state (h : Runs provider b (before ++ after) replies last) (family : Family) :
    ∃ replies' last', Runs provider b (before ++ .state family :: after) replies' last' ∧
      LookedUp family before.length replies replies' ∧ Gains family last last' := by
  obtain ⟨first, second, b', rfl, hfirst, hsecond⟩ := runs_append_iff.1 h
  have hstate : Performs provider b' (.state family) _ _ := .inTurn b' (.state family)
  obtain ⟨gains, hcalls⟩ := Gains.of_state hstate
  obtain ⟨last', hsecond', hlast⟩ := gains.runs hsecond
  exact ⟨_, last', runs_append_iff.2 ⟨first, _, b', rfl, hfirst, .cons hstate hsecond'⟩,
    ⟨first, _, second, hfirst.length, hcalls, rfl, rfl⟩, hlast⟩

theorem Runs.without_state {replies' : List Reply} {last' : Bench World}
    (h : Runs provider b (before ++ .state family :: after) replies' last') :
    ∃ replies last, Runs provider b (before ++ after) replies last ∧
      LookedUp family before.length replies replies' ∧ Gains family last last' := by
  obtain ⟨first, second', b', rfl, hfirst, hsecond'⟩ := runs_append_iff.1 h
  cases hsecond' with
  | cons hstate hrest =>
    obtain ⟨gains, hcalls⟩ := Gains.of_state hstate
    obtain ⟨second, last, rfl, hsecond, hlast⟩ := gains.ran hrest
    exact ⟨first ++ second, last, runs_append_iff.2 ⟨first, second, b', rfl, hfirst, hsecond⟩,
      ⟨first, _, second, hfirst.length, hcalls, rfl, rfl⟩, hlast⟩

end LookUps

/-- Whatever the provider does: wherever the families are asked for, they are those that were entered before, in
strictly increasing order. Looks may be left out of a run, or be put into it, with the other replies, all calls and the
bench at the end the same. And if a family's state is looked up somewhere in a run, or no longer, then nothing changes
but that the family is among the families from there on. -/
theorem families_and_looks (provider : Provider World) :
    (∀ world before after replies last,
      Runs provider (start world) (before ++ .families :: after) replies last →
        ∃ families, replies[before.length]? = some ⟨.families families, []⟩ ∧ families.Pairwise (· < ·) ∧
          ∀ family, family ∈ families ↔ ∃ request ∈ before, request.Enters family) ∧
    (∀ (plan : Plan) b last, plan.LeavesOutLooks →
      (∀ replies, Runs provider b plan.whole replies last →
        Runs provider b plan.reduced (plan.told replies) last ∧
          (plan.told replies).flatMap Reply.calls = replies.flatMap Reply.calls) ∧
      ∀ replies, Runs provider b plan.reduced replies last →
        ∃ all, Runs provider b plan.whole all last ∧ plan.told all = replies ∧
          all.flatMap Reply.calls = replies.flatMap Reply.calls) ∧
    ∀ family before after b,
      (∀ replies last, Runs provider b (before ++ after) replies last →
        ∃ replies' last', Runs provider b (before ++ .state family :: after) replies' last' ∧
          LookedUp family before.length replies replies' ∧ Gains family last last') ∧
      ∀ replies' last', Runs provider b (before ++ .state family :: after) replies' last' →
        ∃ replies last, Runs provider b (before ++ after) replies last ∧
          LookedUp family before.length replies replies' ∧ Gains family last last' := by
  refine ⟨fun world before after replies last h => h.families_told, fun plan b last hlooks => ⟨fun replies h => ?_,
    fun replies h => ?_⟩, fun family before after b => ⟨fun replies last h => ?_, fun replies' last' h => ?_⟩⟩
  · exact h.reduced hlooks
  · exact h.whole hlooks
  · exact h.with_state family
  · exact h.without_state

end Bench

end GpuListing
