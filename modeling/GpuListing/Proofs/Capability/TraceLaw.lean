import GpuListing.Proofs.Capability.Cells
import GpuListing.Proofs.Capability.Trace

/-! # Traces in a run

The trace of each state of a bench in a run of any requests, through a provider of which nothing is known.
A request calls primitives for at most one state, and a state changes only by what is called for it. -/

namespace GpuListing

variable {World : Type}

namespace Bench

/-- The calls that a request makes, with their outcomes. -/
def events (provider : Provider World) (b : Bench World) (request : Request) : List Event :=
  (perform provider.recorded ⟨b.initializer, b.slots, (b.world, [])⟩ request).2.world.2

/-- The calls that bringing up a state makes in a run, with their outcomes. -/
def trace (provider : Provider World) (cell : Cell) : List Request → Bench World → List Event
  | [], _ => []
  | request :: rest, b =>
    (if request.cell? = some cell then b.events provider request else []) ++
      trace provider cell rest (b.perform provider request).2

/-- The reply to a request is that of its attempts in turn, each one from the state that the one before left. -/
structure Answered (provider : Provider World) (b : Bench World) (request : Request) (drive : Drive)
    (reply : Reply) : Prop where
  calls : reply.calls = (b.events provider request).map Event.call
  length : reply.answer.told.length = drive.attempts
  inTurn : Readiness.InTurn drive.family (b.cell drive.cell) (b.events provider request) reply.answer.told
    ((b.perform provider request).2.cell drive.cell)

/-! ### What a request adds to a trace -/

/-- Attempts one after another, written down, go on with the trace of their state. -/
theorem traced_series (provider : Provider World) (family : Family) (callers : Nat) {r : Readiness}
    {trace : List Event} (h : Traced r trace) (world : World) (log : List Event) :
    let s := r.series provider.recorded family callers (world, log)
    ∃ events, s.world.2 = log ++ events ∧ Traced s.readiness (trace ++ events) ∧
      s.calls = events.map Event.call ∧ Readiness.InTurn family r events s.verdicts s.readiness := by
  induction callers generalizing r trace world log with
  | zero => exact ⟨[], by simp [Readiness.series], by simpa [Readiness.series] using h, rfl, .nil r⟩
  | succ callers ih =>
    obtain ⟨events, hlog, hascent, hready, hcalls⟩ := h.toSound.ascent_recorded provider family world log
    have hattempted := h.toSound.attempted_of_ascent hascent hready
    rcases ha : r.ensureReady provider.recorded family (world, log) with ⟨verdict, next, ⟨world', log'⟩, calls⟩
    rw [ha] at hlog hascent hready hcalls hattempted
    obtain rfl : log' = log ++ events := hlog
    obtain rfl : calls = events.map Event.call := hcalls
    obtain ⟨more, hmore, htraced, hcalls, hturn⟩ := ih (h.attempt hascent hready) world' (log ++ events)
    simp only [Readiness.series, ha]
    refine ⟨events ++ more, ?_, ?_, ?_, .cons hattempted hturn⟩
    · rw [hmore, List.append_assoc]
    · rwa [← List.append_assoc]
    · rw [hcalls, List.map_append]

/-- A request that brings a state up goes on with its trace, and is answered accordingly. -/
theorem traced_events (provider : Provider World) (b : Bench World) {request : Request} {drive : Drive}
    (hd : request.drive? = some drive) {trace : List Event} (h : Traced (b.cell drive.cell) trace) :
    Traced ((b.perform provider request).2.cell drive.cell) (trace ++ b.events provider request) ∧
      b.Answered provider request drive (b.perform provider request).1 := by
  have start : b.Alike (fun world state => state.1 = world) ⟨b.initializer, b.slots, (b.world, ([] : List Event))⟩ :=
    ⟨rfl, rfl, rfl⟩
  obtain ⟨hreply, alike⟩ := provider.mirrors_recorded.perform start request
  obtain ⟨htold, hcalls, hworld, hcell⟩ :=
    perform_drive provider.recorded ⟨b.initializer, b.slots, (b.world, [])⟩ hd
  obtain ⟨events, hlog, htraced, hevents, hturn⟩ :=
    traced_series provider drive.family drive.attempts h b.world []
  have hsame : (⟨b.initializer, b.slots, (b.world, [])⟩ : Bench (World × List Event)).cell drive.cell =
      b.cell drive.cell := cell_congr rfl rfl _
  rw [hsame] at htold hcalls hworld hcell
  have he : b.events provider request = events := by
    rw [Bench.events, hworld, hlog, List.nil_append]
  have hnext : (b.perform provider request).2.cell drive.cell =
      ((b.cell drive.cell).series provider.recorded drive.family drive.attempts (b.world, [])).readiness := by
    rw [← cell_congr alike.initializer alike.slots, hcell, if_pos rfl]
  rw [hreply] at htold hcalls
  rw [hnext, he]
  refine ⟨htraced, ?_, ?_, ?_⟩
  · rw [he, hcalls, hevents]
  · rw [htold, Readiness.length_verdicts_series]
  · rwa [he, htold, hnext]

theorem traced_perform (provider : Provider World) (b : Bench World) (request : Request) {cell : Cell}
    {trace : List Event} (h : Traced (b.cell cell) trace) :
    Traced ((b.perform provider request).2.cell cell)
      (trace ++ if request.cell? = some cell then b.events provider request else []) := by
  split
  · next hc =>
    obtain ⟨drive, hd, rfl⟩ := Option.map_eq_some_iff.mp hc
    exact (traced_events provider b hd h).1
  · next hc =>
    rw [List.append_nil, cell_perform_of_ne provider b hc]
    exact h

/-- A run goes on with the trace of every state. -/
theorem traced_run (provider : Provider World) (requests : List Request) {b : Bench World} {cell : Cell}
    {before : List Event} (h : Traced (b.cell cell) before) :
    Traced ((run provider requests b).2.cell cell) (before ++ trace provider cell requests b) := by
  induction requests generalizing b before with
  | nil => simpa [run, trace] using h
  | cons request rest ih =>
    have next := ih (traced_perform provider b request h)
    rwa [List.append_assoc] at next

/-- The trace of a state consists of the calls that the replies tell for it. -/
theorem map_call_trace (provider : Provider World) (requests : List Request) {b : Bench World} {cell : Cell}
    {before : List Event} (h : Traced (b.cell cell) before) :
    (trace provider cell requests b).map Event.call =
      ((requests.zip (run provider requests b).1).filter fun answered => answered.1.cell? = some cell).flatMap
        fun answered => answered.2.calls := by
  induction requests generalizing b before with
  | nil => rfl
  | cons request rest ih =>
    have hrest := ih (traced_perform provider b request h)
    rw [trace, List.map_append, hrest]
    by_cases hc : request.cell? = some cell
    · obtain ⟨drive, hd, rfl⟩ := Option.map_eq_some_iff.mp hc
      simp [run, hc, (traced_events provider b hd h).2.calls]
    · simp [run, hc]

theorem traced_start (world : World) (cell : Cell) : Traced ((start world).cell cell) [] := by
  cases cell <;> exact Traced.initial

/-! ### Requests within a run -/

section Within
variable (provider : Provider World) (before after : List Request) (b : Bench World)

theorem run_append :
    run provider (before ++ after) b =
      ((run provider before b).1 ++ (run provider after (run provider before b).2).1,
        (run provider after (run provider before b).2).2) := by
  induction before generalizing b with
  | nil => rfl
  | cons request before ih => simp only [List.cons_append, run, ih]

theorem length_run : (run provider before b).1.length = before.length := by
  induction before generalizing b with
  | nil => rfl
  | cons request before ih => simp only [run, List.length_cons, ih]

theorem trace_append (cell : Cell) :
    trace provider cell (before ++ after) b =
      trace provider cell before b ++ trace provider cell after (run provider before b).2 := by
  induction before generalizing b with
  | nil => rfl
  | cons request before ih => simp only [List.cons_append, trace, run, ih, List.append_assoc]

theorem getElem?_run_append (request : Request) :
    (run provider (before ++ request :: after) b).1[before.length]? =
      some ((run provider before b).2.perform provider request).1 := by
  rw [run_append, ← length_run provider before b, List.getElem?_append_right (Nat.le_refl _), Nat.sub_self]
  rfl

end Within

/-! ### The law of traces -/

/-- In every run and for every state: the trace consists of the calls that are told for it, is part of a
    complete one and ends where the decoder comes up; the active stages are those that a call has succeeded
    for, in order, and the mark is set when all are; and no phase is left for an earlier one. Wherever a request of
    the run brings the state up, its calls come next in the trace, and the reply is that of attempts in turn from
    the state before it: each calls the pending stages up to the first failure and answers accordingly. So does
    an attempt that is made apart from the bench. -/
theorem trace_law (provider : Provider World) (requests : List Request) (world : World) (cell : Cell) :
    let b := (run provider requests (start world)).2
    let r := b.cell cell
    let calls := trace provider cell requests (start world)
    calls.map Event.call = ((requests.zip (run provider requests (start world)).1).filter
        fun answered => answered.1.cell? = some cell).flatMap (fun answered => answered.2.calls) ∧
      (∃ full, CompleteTrace full ∧ calls <+: full) ∧
      (∀ earlier e later, calls = earlier ++ e :: later → e.Succeeded .decoder → later = []) ∧
      (∀ stage, r.flags.isActive stage = true ↔ ∃ e ∈ calls, e.Succeeded stage) ∧
      r.flags.isOrdered = true ∧
      (r.ready = true ↔ ∀ stage, r.flags.isActive stage = true) ∧
      (∀ more, r.flags.phase.rank ≤ ((run provider more b).2.cell cell).flags.phase.rank) ∧
      (∀ before request after drive, requests = before ++ request :: after → request.drive? = some drive →
        drive.cell = cell →
        let s := (run provider before (start world)).2
        calls = trace provider cell before (start world) ++
            (s.events provider request ++ trace provider cell after (s.perform provider request).2) ∧
          ∃ reply, (run provider requests (start world)).1[before.length]? = some reply ∧
            s.Answered provider request drive reply) ∧
      ∀ family, (r.ensureReady provider family b.world).calls =
          (r.events provider family b.world).map Event.call ∧
        Readiness.Attempted family r (r.events provider family b.world)
          (r.ensureReady provider family b.world).verdict (r.ensureReady provider family b.world).state := by
  intro b r calls
  have traced : Traced r calls := traced_run provider requests (traced_start world cell)
  refine ⟨map_call_trace provider requests (traced_start world cell), traced.prefix_complete,
    fun _ _ _ => traced.nothing_after_decoder, traced.isActive_iff, traced.ordered, ?_,
    fun more => traced.rank_le (traced_run provider more traced), ?_,
    fun family => traced.toSound.attempted provider family b.world⟩
  · rw [traced.mark, Flags.isReady_iff]
  · rintro before request after drive rfl hd rfl
    have hbefore := traced_run provider before (traced_start world drive.cell)
    have hcell : request.cell? = some drive.cell := by rw [Request.cell?, hd, Option.map_some]
    refine ⟨?_, _, getElem?_run_append provider before after (start world) request,
      (traced_events provider _ hd hbefore).2⟩
    simp only [calls, trace_append, trace, if_pos hcell]

end Bench

end GpuListing
