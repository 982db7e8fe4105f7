import GpuListing.Proofs.Capability.Attempt

/-! # Traces of states

A bench holds many states: those of the families in its initializer and those in its slots. The trace of a
state is what bringing it up has called in a run, with the outcomes. Whatever the provider does, every trace
climbs the stages in order: a stage is called until a call of it succeeds, and never again. -/

namespace GpuListing

/-! ### Climbs -/

/-- Calls that bring stages up from the front: each is called until it succeeds, and some are left. -/
inductive Climb : List Stage → List Event → List Stage → Prop where
  | nil {stages : List Stage} : Climb stages [] stages
  | failed {stage : Stage} {stages left : List Stage} {e : Event} {events : List Event} :
      e.Failed stage → Climb (stage :: stages) events left → Climb (stage :: stages) (e :: events) left
  | succeeded {stage : Stage} {stages left : List Stage} {e : Event} {events : List Event} :
      e.Succeeded stage → Climb stages events left → Climb (stage :: stages) (e :: events) left

namespace Climb
variable {stages middle left : List Stage} {events more : List Event}

theorem trans (h : Climb stages events middle) (h' : Climb middle more left) :
    Climb stages (events ++ more) left := by
  induction h with
  | nil => exact h'
  | failed hf _ ih => exact .failed hf (ih h')
  | succeeded hs _ ih => exact .succeeded hs (ih h')

theorem split (h : Climb stages (events ++ more) left) :
    ∃ middle, Climb stages events middle ∧ Climb middle more left := by
  induction events generalizing stages with
  | nil => exact ⟨stages, .nil, h⟩
  | cons e events ih =>
    cases h with
    | failed hf h =>
      obtain ⟨middle, h₁, h₂⟩ := ih h
      exact ⟨middle, .failed hf h₁, h₂⟩
    | succeeded hs h =>
      obtain ⟨middle, h₁, h₂⟩ := ih h
      exact ⟨middle, .succeeded hs h₁, h₂⟩

theorem suffix (h : Climb stages events left) : left <:+ stages := by
  induction h with
  | nil => exact List.suffix_refl _
  | failed _ _ ih => exact ih
  | succeeded _ _ ih => exact ih.trans (List.suffix_cons _ _)

/-- The same calls leave the same stages. -/
theorem left_unique {left' : List Stage} (h : Climb stages events left) (h' : Climb stages events left') :
    left = left' := by
  induction h with
  | nil =>
    cases h'
    rfl
  | failed hf _ ih =>
    cases h' with
    | failed _ h' => exact ih h'
    | succeeded hs _ => exact absurd hs.2 hf.2
  | succeeded hs _ ih =>
    cases h' with
    | failed hf _ => exact absurd hs.2 hf.2
    | succeeded _ h' => exact ih h'

theorem eq_nil (h : Climb [] events left) : events = [] := by
  cases h
  rfl

/-- The stages that are not left are those with a call that succeeded. -/
theorem not_mem_left_iff (h : Climb stages events left) (distinct : stages.Nodup) {stage : Stage}
    (hs : stage ∈ stages) : stage ∉ left ↔ ∃ e ∈ events, e.Succeeded stage := by
  induction h with
  | nil => simp [hs]
  | @failed s stages left e events hf _ ih =>
    rw [ih distinct hs]
    have hne : ¬e.Succeeded stage := fun hsucc => hf.2 hsucc.2
    simp [hne]
  | @succeeded s stages left e events hsucc hclimb ih =>
    obtain ⟨hnot, hdistinct⟩ := List.nodup_cons.mp distinct
    rcases List.mem_cons.mp hs with rfl | hs
    · have hleft : stage ∉ left := fun hmem => hnot (hclimb.suffix.mem hmem)
      simp [hleft, hsucc]
    · have hne : ¬e.Succeeded stage := fun h' => hnot (hsucc.1.symm.trans h'.1 ▸ hs)
      rw [ih hdistinct hs]
      simp [hne]

/-- A climb to the top begins with failed calls of the first stage and one that succeeds. -/
theorem first_stage {stage : Stage} (h : Climb (stage :: stages) events []) :
    ∃ failed done rest, (∀ e ∈ failed, e.Failed stage) ∧ done.Succeeded stage ∧
      events = failed ++ done :: rest ∧ Climb stages rest [] := by
  generalize hs : stage :: stages = all at h
  generalize ht : ([] : List Stage) = top at h
  induction h with
  | nil => rw [← ht] at hs; cases hs
  | @failed s _ _ e events hf _ ih =>
    obtain ⟨failed, done, rest, hfailed, hdone, rfl, hrest⟩ := ih hs ht
    cases hs
    refine ⟨e :: failed, done, rest, ?_, hdone, rfl, hrest⟩
    simpa using ⟨hf, hfailed⟩
  | @succeeded s _ _ e events hsucc hclimb _ =>
    cases hs
    exact ⟨[], e, events, by simp, hsucc, rfl, ht ▸ hclimb⟩

/-- Any climb goes on to the top if every call from now on succeeds. -/
theorem to_top (family : Family) (left : List Stage) :
    Climb left (left.map fun stage => ⟨⟨stage, family⟩, .ok⟩) [] := by
  induction left with
  | nil => exact .nil
  | cons stage left ih => exact .succeeded ⟨rfl, rfl⟩ ih

end Climb

/-- An ascent climbs the pending stages. -/
theorem Ascent.climb {family : Family} {flags last : Flags} {events : List Event} {verdict : Verdict}
    (h : Ascent family flags events verdict last) (ordered : flags.isOrdered = true) :
    Climb flags.pending events last.pending := by
  induction h with
  | top _ => exact .nil
  | ok hp _ ih =>
    obtain ⟨hrest, hordered⟩ := Flags.pending_activate ordered hp
    rw [hp]
    exact .succeeded ⟨rfl, rfl⟩ (hrest ▸ ih hordered)
  | refused hp =>
    rw [hp]
    exact .failed ⟨rfl, by simp⟩ .nil
  | aborted hp =>
    rw [hp]
    exact .failed ⟨rfl, by simp⟩ .nil

/-! ### Complete traces -/

/-- Failed calls of the metadata stage and one that succeeds, then those of the machine model, then those of
    the decoder. -/
def CompleteTrace (trace : List Event) : Prop :=
  ∃ failed₁ done₁ failed₂ done₂ failed₃ done₃,
    (∀ e ∈ failed₁, e.Failed .metadata) ∧ done₁.Succeeded .metadata ∧
    (∀ e ∈ failed₂, e.Failed .machineModel) ∧ done₂.Succeeded .machineModel ∧
    (∀ e ∈ failed₃, e.Failed .decoder) ∧ done₃.Succeeded .decoder ∧
    trace = failed₁ ++ done₁ :: (failed₂ ++ done₂ :: (failed₃ ++ [done₃]))

theorem Climb.complete {trace : List Event} (h : Climb Stage.all trace []) : CompleteTrace trace := by
  obtain ⟨failed₁, done₁, rest₁, hf₁, hd₁, rfl, h₁⟩ := h.first_stage
  obtain ⟨failed₂, done₂, rest₂, hf₂, hd₂, rfl, h₂⟩ := h₁.first_stage
  obtain ⟨failed₃, done₃, rest₃, hf₃, hd₃, rfl, h₃⟩ := h₂.first_stage
  obtain rfl := h₃.eq_nil
  exact ⟨failed₁, done₁, failed₂, done₂, failed₃, done₃, hf₁, hd₁, hf₂, hd₂, hf₃, hd₃, rfl⟩

/-- The state that a trace has led to. -/
structure Traced (r : Readiness) (trace : List Event) : Prop extends r.Sound where
  climb : Climb Stage.all trace r.flags.pending

namespace Traced
variable {r r' : Readiness} {trace : List Event}

theorem initial : Traced .initial [] := ⟨Readiness.sound_initial, .nil⟩

theorem attempt (h : Traced r trace) {family : Family} {events : List Event} {verdict : Verdict}
    (ascent : Ascent family r.flags events verdict r'.flags) (hr : r'.ready = decide (verdict = .ready)) :
    Traced r' (trace ++ events) :=
  ⟨h.toSound.of_ascent ascent hr, h.climb.trans (ascent.climb h.ordered)⟩

theorem isActive_iff (h : Traced r trace) (stage : Stage) :
    r.flags.isActive stage = true ↔ ∃ e ∈ trace, e.Succeeded stage := by
  rw [← h.climb.not_mem_left_iff (by decide) (by cases stage <;> decide), Flags.mem_pending_iff h.ordered]
  simp

theorem prefix_complete (h : Traced r trace) : ∃ full, CompleteTrace full ∧ trace <+: full :=
  ⟨_, (h.climb.trans (Climb.to_top ⟨""⟩ r.flags.pending)).complete, List.prefix_append _ _⟩

/-- Further calls do not lead back. -/
theorem rank_le {more : List Event} (h : Traced r trace) (h' : Traced r' (trace ++ more)) :
    r.flags.phase.rank ≤ r'.flags.phase.rank := by
  obtain ⟨middle, h₁, h₂⟩ := h'.climb.split
  rw [h₁.left_unique h.climb] at h₂
  have hlen := h₂.suffix.length_le
  have hr := Flags.rank_phase h.ordered
  have hr' := Flags.rank_phase h'.ordered
  omega

/-- Nothing is called once a call of the decoder stage has succeeded. -/
theorem nothing_after_decoder (h : Traced r trace) {earlier later : List Event} {e : Event}
    (he : trace = earlier ++ e :: later) (hs : e.Succeeded .decoder) : later = [] := by
  have hclimb := h.climb
  rw [he, List.append_cons] at hclimb
  obtain ⟨middle, h₁, h₂⟩ := hclimb.split
  have hnot : Stage.decoder ∉ middle :=
    (h₁.not_mem_left_iff (by decide) (by decide)).mpr ⟨e, by simp, hs⟩
  have hnil : middle = [] := by
    have hsuffix := h₁.suffix
    simp only [Stage.all, List.suffix_cons_iff, List.suffix_nil] at hsuffix
    rcases hsuffix with rfl | rfl | rfl | rfl <;> simp_all
  subst hnil
  exact h₂.eq_nil

end Traced

end GpuListing
