import GpuListing.Proofs.Toolkit.Work

/-! # Registries over time

What may be done to a registry, one thing after another: registrations, direct ones or those of toolkits, which an
attempt on a state may call. A look-up may come between any two of them, also between the calls of one attempt, since
each call is a step as well. -/

namespace GpuListing.Registry

/-- One thing that is done to a registry. -/
inductive Step (r : Registry) : Registry → Prop where
  | register (registration : Registration) : Step r (r.attempt registration).2
  | activate (toolkit : Toolkit) (stage : Stage) (family : Family) : Step r (toolkit.provider stage family r).2
  | ensureReady (toolkit : Toolkit) (readiness : Readiness) (family : Family) :
      Step r (readiness.ensureReady toolkit.provider family r).world
  /-- The table comes into another order. -/
  | reorder {r' : Registry} : r'.entries.entries.Perm r.entries.entries → Step r r'

/-- Steps lead from one registry to the other. -/
def Leads : Registry → Registry → Prop := Relation.ReflTransGen Step

section Steps
variable {r r' : Registry}

theorem Step.reachable (step : r.Step r') (h : r.Reachable) : r'.Reachable := by
  cases step with
  | register registration => exact h.register registration
  | activate toolkit stage family => exact h.activate toolkit stage family
  | ensureReady toolkit readiness family => exact h.ensureReady toolkit readiness family
  | reorder order => exact h.reorder order

theorem Step.grows (step : r.Step r') : r.Grows r' := by
  cases step with
  | register registration => exact grows_attempt r registration
  | activate toolkit stage family => exact toolkit.grows_provider stage family r
  | ensureReady toolkit readiness family =>
    exact Readiness.ensureReady_world (P := r.Grows) (fun stage family _ h => h.trans (toolkit.grows_provider stage family _))
      family readiness (.refl r)
  | reorder order => exact .of_perm order

theorem Leads.reachable (leads : r.Leads r') (h : r.Reachable) : r'.Reachable := by
  induction leads with
  | refl => exact h
  | tail _ step ih => exact step.reachable ih

theorem Leads.grows (leads : r.Leads r') : r.Grows r' := by
  induction leads with
  | refl => exact .refl r
  | tail _ step ih => exact ih.trans step.grows

end Steps

end GpuListing.Registry
