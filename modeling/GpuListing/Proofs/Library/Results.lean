/-! # Results

How a result of several steps came about: each of them gave a value, or one of them failed. -/

namespace GpuListing

/-! ### Two steps -/

section Bind
variable {ε δ α β : Type} {result : Except ε α} {next : α → Except ε β} {error : ε}

theorem bind_eq_ok {b : β} (h : result >>= next = .ok b) : ∃ a, result = .ok a ∧ next a = .ok b := by
  cases result with
  | error error => cases h
  | ok a => exact ⟨a, rfl, h⟩

theorem bind_eq_error (h : result >>= next = .error error) :
    result = .error error ∨ ∃ a, result = .ok a ∧ next a = .error error := by
  cases result with
  | error other => cases h; exact .inl rfl
  | ok a => exact .inr ⟨a, rfl, h⟩

theorem mapError_eq_ok {f : ε → δ} {a : α} (h : result.mapError f = .ok a) : result = .ok a := by
  cases result with
  | error error => cases h
  | ok b => cases h; rfl

theorem mapError_eq_error {f : ε → δ} {other : δ} (h : result.mapError f = .error other) :
    ∃ cause, result = .error cause ∧ f cause = other := by
  cases result with
  | error cause => cases h; exact ⟨cause, rfl, rfl⟩
  | ok a => cases h

end Bind

/-! ### A step for each item of a list -/

section Fold
variable {σ α ε : Type} {step : σ → α → Except ε σ} {items : List α} {s t : σ} {error : ε}

/-- A run that fails does so at an item that all the items in front of it lead to. -/
theorem foldlM_eq_error (h : items.foldlM step s = .error error) :
    ∃ front item back between, items = front ++ item :: back ∧ front.foldlM step s = .ok between ∧
      step between item = .error error := by
  induction items generalizing s with
  | nil => cases h
  | cons item items ih =>
    rw [List.foldlM_cons] at h
    rcases bind_eq_error h with hitem | ⟨next, hnext, h⟩
    · exact ⟨[], item, items, s, rfl, rfl, hitem⟩
    · obtain ⟨front, failing, back, between, rfl, hfront, hfailing⟩ := ih h
      refine ⟨item :: front, failing, back, between, rfl, ?_, hfailing⟩
      rw [List.foldlM_cons, hnext]
      exact hfront

theorem step_of_foldlM (h : items.foldlM step s = .ok t) :
    ∀ item ∈ items, ∃ before after, step before item = .ok after := by
  induction items generalizing s with
  | nil => exact nofun
  | cons item items ih =>
    rw [List.foldlM_cons] at h
    obtain ⟨next, hnext, h⟩ := bind_eq_ok h
    exact List.forall_mem_cons.2 ⟨⟨s, next, hnext⟩, ih h⟩

theorem foldlM_of_forall (h : ∀ item ∈ items, ∀ before, ∃ after, step before item = .ok after) :
    ∃ t, items.foldlM step s = .ok t := by
  induction items generalizing s with
  | nil => exact ⟨s, rfl⟩
  | cons item items ih =>
    obtain ⟨hitem, hitems⟩ := List.forall_mem_cons.1 h
    obtain ⟨next, hnext⟩ := hitem s
    rw [List.foldlM_cons, hnext]
    exact ih hitems

end Fold

/-- A list of checks comes to all the values if every item passes, and to the error otherwise. -/
theorem mapM_ite {α β ε : Type} {p : α → Prop} [DecidablePred p] (f : α → β) (e : ε) (list : List α) :
    (list.mapM fun a => if p a then Except.ok (f a) else .error e) =
      if ∀ a ∈ list, p a then .ok (list.map f) else .error e := by
  induction list with
  | nil => simp [pure, Except.pure]
  | cons a rest ih =>
    rw [List.mapM_cons, ih]
    by_cases ha : p a
    · by_cases hrest : ∀ a ∈ rest, p a
      · rw [if_pos ha, if_pos hrest, if_pos (List.forall_mem_cons.mpr ⟨ha, hrest⟩)]
        rfl
      · rw [if_pos ha, if_neg hrest, if_neg fun h => hrest (List.forall_mem_cons.mp h).2]
        rfl
    · rw [if_neg ha, if_neg fun h => ha (List.forall_mem_cons.mp h).1]
      rfl

end GpuListing
