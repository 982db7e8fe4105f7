/-! # Lists

Lists that are put together from pieces or cut into them, the items up to the first one of a kind, and lists sorted by
octets. -/

namespace GpuListing

variable {α : Type}

theorem filter_intercalate (p : α → Bool) (between : List α) (pieces : List (List α)) :
    (between.intercalate pieces).filter p = (between.filter p).intercalate (pieces.map (List.filter p)) := by
  induction pieces with
  | nil => rfl
  | cons piece pieces ih =>
    cases pieces with
    | nil => simp only [List.intercalate_singleton, List.map_cons, List.map_nil]
    | cons next pieces =>
      rw [List.map_cons] at ih
      rw [List.intercalate_cons_cons, List.filter_append, List.filter_append, ih, List.map_cons, List.map_cons,
        List.intercalate_cons_cons]

theorem not_mem_of_mem_splitOn [BEq α] [LawfulBEq α] {a : α} {list piece : List α}
    (h : piece ∈ list.splitOn a) : a ∉ piece := by
  induction list generalizing piece with
  | nil =>
    rw [List.splitOn_nil] at h
    rw [List.mem_singleton.mp h]
    exact List.not_mem_nil
  | cons b list ih =>
    rw [List.splitOn_cons_eq_if_modifyHead] at h
    split at h
    · rcases List.mem_cons.mp h with rfl | h
      · exact List.not_mem_nil
      · exact ih h
    · next hne =>
      cases hrest : list.splitOn a with
      | nil =>
        rw [hrest] at h
        cases h
      | cons first rest =>
        rw [hrest] at h ih
        rcases List.mem_cons.mp h with rfl | h
        · refine List.not_mem_cons_of_ne_of_not_mem (fun he => hne ?_) (ih List.mem_cons_self)
          exact beq_iff_eq.mpr he.symm
        · exact ih (List.mem_cons_of_mem first h)

theorem join_flatMap (f : α → List String) (l : List α) :
    String.join (l.flatMap f) = String.join (l.map fun a => String.join (f a)) := by
  induction l with
  | nil => rfl
  | cons a l ih => rw [List.flatMap_cons, String.join_append, ih, List.map_cons, String.join_cons]

/-- What a list begins with is taken up to the first element that is not to be taken. -/
theorem takeWhile_append_of_head {p : α → Bool} {front back : List α} (hfront : ∀ a ∈ front, p a = true)
    (hback : ∀ a ∈ back.head?, p a = false) : (front ++ back).takeWhile p = front := by
  rw [List.takeWhile_append_of_pos hfront]
  cases back with
  | nil => exact List.append_nil front
  | cons a back =>
    have hstop : ¬p a = true := Bool.eq_false_iff.mp (hback a rfl)
    rw [List.takeWhile_cons_of_neg hstop, List.append_nil]

theorem dropWhile_append_of_head {p : α → Bool} {front back : List α} (hfront : ∀ a ∈ front, p a = true)
    (hback : ∀ a ∈ back.head?, p a = false) : (front ++ back).dropWhile p = back := by
  have hboth := List.takeWhile_append_dropWhile (p := p) (l := front ++ back)
  rw [takeWhile_append_of_head hfront hback] at hboth
  exact List.append_cancel_left hboth

/-- Either no item is of the kind, or there is a first one. -/
theorem first_or_none (p : α → Prop) [DecidablePred p] (items : List α) :
    (∀ item ∈ items, ¬p item) ∨
      ∃ before item after, items = before ++ item :: after ∧ (∀ other ∈ before, ¬p other) ∧ p item := by
  cases hfind : items.find? fun item => p item with
  | none => exact .inl fun item hitem hp => List.find?_eq_none.mp hfind item hitem (decide_eq_true hp)
  | some item =>
    obtain ⟨hp, before, after, hitems, hbefore⟩ := List.find?_eq_some_iff_append.mp hfind
    refine .inr ⟨before, item, after, hitems, fun other hother => ?_, of_decide_eq_true hp⟩
    exact of_decide_eq_false ((Bool.not_eq_true' _).mp (hbefore other hother))

/-- Sorted by octets that items have, no item has octets before those of one in front of it. -/
theorem pairwise_mergeSort_octets (octets : α → List UInt8) (items : List α) :
    (items.mergeSort fun a b => !decide (octets b < octets a)).Pairwise fun a b => octets a ≤ octets b := by
  have hsorted : (items.mergeSort fun a b => !decide (octets b < octets a)).Pairwise fun a b =>
      (!decide (octets b < octets a)) = true := by
    refine List.pairwise_mergeSort (fun a b c hab hbc => ?_) (fun a b => ?_) items
    · simp only [Bool.not_eq_true', decide_eq_false_iff_not] at hab hbc ⊢
      exact List.not_lt.mpr (List.le_trans (List.not_lt.mp hab) (List.not_lt.mp hbc))
    · simp only [Bool.or_eq_true, Bool.not_eq_true', decide_eq_false_iff_not]
      exact List.le_total (octets a) (octets b)
  exact hsorted.imp fun h => List.not_lt.mp (of_decide_eq_false ((Bool.not_eq_true' _).mp h))

end GpuListing
