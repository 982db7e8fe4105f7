import GpuListing.Listing.Line
import Mathlib.Algebra.GroupWithZero.Nat

/-! # Listings tile their bytes

Whatever a decoder answers, the lines of a listing take each octet once and in order. A line takes at least one
octet and no more than there are left, so the lines after any of them are the listing of what it leaves. The
same lines come from walking over the bytes with a position that each line moves on: no walk goes beyond the
end, and every one that cannot go on has come to it. -/

namespace GpuListing

/-- Where a line starts: after the octets of all lines before it. -/
def startOf (lines : List Line) (index : Nat) : Nat := ((lines.take index).map Line.length).sum

theorem startOf_cons (line : Line) (lines : List Line) (index : Nat) :
    startOf (line :: lines) (index + 1) = line.length + startOf lines index := rfl

theorem startOf_concat (lines : List Line) (line : Line) :
    startOf (lines ++ [line]) (lines ++ [line]).length = startOf lines lines.length + line.length := by
  rw [startOf, startOf, List.take_length, List.take_length, List.map_append, List.sum_append, List.map_singleton,
    List.sum_singleton]

theorem length_le_sum {lines : List Line} (h : ∀ line ∈ lines, 1 ≤ line.length) :
    lines.length ≤ (lines.map Line.length).sum := by
  induction lines with
  | nil => exact Nat.le_refl 0
  | cons line lines ih =>
    have hline := h line List.mem_cons_self
    have hlines := ih fun other hother => h other (List.mem_cons_of_mem line hother)
    rw [List.length_cons, List.map_cons, List.sum_cons]
    omega

/-- A walk over bytes: how far it has come, and its lines. -/
structure Walk where
  position : Nat
  lines : List Line

namespace Session
variable {s : Session} {base : UInt64} {bytes : Bytes}

/-! ### One line after another -/

theorem addr_decodeOne (s : Session) (addr : UInt64) (bytes : Bytes) : (s.decodeOne addr bytes).addr = addr := by
  unfold decodeOne
  split <;> rfl

theorem listing_nil (s : Session) (base : UInt64) : s.listing base [] = [] := by
  rw [listing, dif_pos rfl]

theorem listing_of_ne_nil (h : bytes ≠ []) :
    s.listing base bytes = s.decodeOne base bytes ::
      s.listing (base + UInt64.ofNat (s.decodeOne base bytes).length)
        (bytes.drop (s.decodeOne base bytes).length) := by
  rw [listing, dif_neg h]

theorem sum_lengths (s : Session) (base : UInt64) (bytes : Bytes) :
    ((s.listing base bytes).map Line.length).sum = bytes.length := by
  induction base, bytes using listing.induct s with
  | case1 base => rw [listing_nil]; rfl
  | case2 base bytes h line ih =>
    have hle : line.length ≤ bytes.length := s.length_decodeOne_le base bytes
    rw [listing_of_ne_nil h, List.map_cons, List.sum_cons, ih, List.length_drop]
    exact Nat.add_sub_cancel' hle

theorem length_pos_of_mem_listing {line : Line} (h : line ∈ s.listing base bytes) : 1 ≤ line.length := by
  induction base, bytes using listing.induct s with
  | case1 base => rw [listing_nil] at h; cases h
  | case2 base bytes hne first ih =>
    rw [listing_of_ne_nil hne] at h
    rcases List.mem_cons.mp h with rfl | h
    · exact s.length_decodeOne_pos base hne
    · exact ih h

theorem length_listing_le (s : Session) (base : UInt64) (bytes : Bytes) :
    (s.listing base bytes).length ≤ bytes.length := by
  rw [← sum_lengths s base bytes]
  exact length_le_sum fun line hline => length_pos_of_mem_listing hline

/-- What follows a line is the listing of the octets that the lines so far leave. -/
theorem drop_listing (index : Nat) (h : index ≤ (s.listing base bytes).length) :
    (s.listing base bytes).drop index =
      s.listing (base + UInt64.ofNat (startOf (s.listing base bytes) index))
        (bytes.drop (startOf (s.listing base bytes) index)) := by
  induction index generalizing base bytes with
  | zero =>
    show s.listing base bytes = s.listing (base + 0) bytes
    rw [UInt64.add_zero]
  | succ index ih =>
    have hne : bytes ≠ [] := by
      rintro rfl
      rw [listing_nil] at h
      cases h
    rw [listing_of_ne_nil hne] at h ⊢
    rw [List.drop_succ_cons, startOf_cons, ih (Nat.le_of_succ_le_succ h), List.drop_drop, UInt64.ofNat_add,
      UInt64.add_assoc]

/-- The line at an index is the one decoded where the lines before it end. -/
theorem getElem?_listing {index : Nat} {line : Line} (h : (s.listing base bytes)[index]? = some line) :
    line.addr.toNat = (base.toNat + startOf (s.listing base bytes) index) % 2 ^ 64 ∧
      startOf (s.listing base bytes) index + line.length ≤ bytes.length ∧
      line = s.decodeOne (base + UInt64.ofNat (startOf (s.listing base bytes) index))
        (bytes.drop (startOf (s.listing base bytes) index)) := by
  obtain ⟨hindex, -⟩ := List.getElem?_eq_some_iff.mp h
  have hdrop := s.drop_listing index (Nat.le_of_lt hindex)
  rw [← List.head?_drop, hdrop] at h
  generalize startOf (s.listing base bytes) index = start at h
  by_cases hne : bytes.drop start = []
  · rw [hne, listing_nil] at h
    cases h
  · rw [listing_of_ne_nil hne] at h
    obtain rfl := Option.some.inj h
    have hle := s.length_decodeOne_le (base + UInt64.ofNat start) (bytes.drop start)
    have hpos := List.length_pos_iff.mpr hne
    rw [List.length_drop] at hle hpos
    refine ⟨?_, by omega, rfl⟩
    rw [addr_decodeOne, UInt64.toNat_add, UInt64.toNat_ofNat']
    omega

/-! ### Walks -/

/-- One step of a walk over bytes that lie at an address, unless it has come to the end. -/
def advance? (s : Session) (base : UInt64) (bytes : Bytes) (w : Walk) : Option Walk :=
  if w.position < bytes.length then
    let line := s.decodeOne (base + UInt64.ofNat w.position) (bytes.drop w.position)
    some ⟨w.position + line.length, w.lines ++ [line]⟩
  else none

/-- The walks with a number of steps. -/
inductive Walks (s : Session) (base : UInt64) (bytes : Bytes) : Nat → Walk → Prop where
  | start : Walks s base bytes 0 ⟨0, []⟩
  | next {steps : Nat} {w w' : Walk} : Walks s base bytes steps w → s.advance? base bytes w = some w' →
      Walks s base bytes (steps + 1) w'

theorem advance?_eq_none_iff {w : Walk} : s.advance? base bytes w = none ↔ bytes.length ≤ w.position := by
  unfold advance?
  split
  · next h => exact ⟨fun hn => (by cases hn), fun hle => absurd h (Nat.not_lt.mpr hle)⟩
  · next h => exact ⟨fun _ => Nat.not_lt.mp h, fun _ => rfl⟩

/-- The lines of a walk tile what is before its position, and the listing goes on from there. -/
structure Tiled (s : Session) (base : UInt64) (bytes : Bytes) (steps : Nat) (w : Walk) : Prop where
  count : w.lines.length = steps
  start : startOf w.lines w.lines.length = w.position
  inside : w.position ≤ bytes.length
  lines : s.listing base bytes = w.lines ++ s.listing (base + UInt64.ofNat w.position) (bytes.drop w.position)

section Walks
variable {steps : Nat} {w w' : Walk}

theorem tiled_start (s : Session) (base : UInt64) (bytes : Bytes) : Tiled s base bytes 0 ⟨0, []⟩ where
  count := rfl
  start := rfl
  inside := Nat.zero_le _
  lines := s.drop_listing 0 (Nat.zero_le _)

theorem Tiled.next (h : Tiled s base bytes steps w) (hstep : s.advance? base bytes w = some w') :
    Tiled s base bytes (steps + 1) w' := by
  unfold advance? at hstep
  split at hstep
  · next hinside =>
    have hne : bytes.drop w.position ≠ [] := fun hnil =>
      absurd hinside (Nat.not_lt.mpr (List.drop_eq_nil_iff.mp hnil))
    have hle := s.length_decodeOne_le (base + UInt64.ofNat w.position) (bytes.drop w.position)
    rw [List.length_drop] at hle
    cases hstep
    refine ⟨?_, ?_, ?_, ?_⟩
    · rw [List.length_append, List.length_singleton, h.count]
    · rw [startOf_concat, h.start]
    · have hinside := h.inside
      show w.position + _ ≤ _
      omega
    · rw [h.lines, listing_of_ne_nil hne, List.drop_drop, UInt64.ofNat_add, UInt64.add_assoc, List.append_assoc,
        List.singleton_append]
  · cases hstep

theorem Walks.tiled (h : Walks s base bytes steps w) : Tiled s base bytes steps w := by
  induction h with
  | start => exact tiled_start s base bytes
  | next _ hstep ih => exact ih.next hstep

theorem Tiled.steps_le (h : Tiled s base bytes steps w) : steps ≤ bytes.length := by
  have hlines := s.length_listing_le base bytes
  have hcount := h.count
  rw [h.lines, List.length_append] at hlines
  omega

theorem Tiled.lines_eq (h : Tiled s base bytes steps w) (hend : s.advance? base bytes w = none) :
    w.lines = s.listing base bytes := by
  have hnil : bytes.drop w.position = [] := List.drop_eq_nil_iff.mpr (advance?_eq_none_iff.mp hend)
  rw [h.lines, hnil, listing_nil, List.append_nil]

end Walks

/-- Any walk goes on to one that cannot: no walk has more steps than there are octets. -/
theorem Walks.goes_on {steps : Nat} {w : Walk} (h : Walks s base bytes steps w) :
    ∃ last w', steps ≤ last ∧ Walks s base bytes last w' ∧ s.advance? base bytes w' = none := by
  cases hstep : s.advance? base bytes w with
  | none => exact ⟨steps, w, Nat.le_refl steps, h, hstep⟩
  | some next =>
    have hnext : Walks s base bytes (steps + 1) next := h.next hstep
    have hle := hnext.tiled.steps_le
    -- With each step the bound on the number of steps comes nearer.
    obtain ⟨last, w', hlast, hwalks, hend⟩ := hnext.goes_on
    exact ⟨last, w', Nat.le_of_succ_le hlast, hwalks, hend⟩
termination_by bytes.length - steps

/-- The lines of a listing: each takes an octet or more, together they take all octets, and so there are no more
    lines than octets. A line lies at the address of the octets that the lines before it leave, addresses counted
    modulo 2^64, takes no more than these, and is the one decoded there; the lines from it on are the listing of
    these octets. A walk has no more steps than there are octets, can be continued to the end, and has the lines of
    the listing there. -/
theorem listing_tiles (s : Session) (base : UInt64) (bytes : Bytes) :
    let lines := s.listing base bytes
    (∀ line ∈ lines, 1 ≤ line.length) ∧
    (lines.map Line.length).sum = bytes.length ∧
    lines.length ≤ bytes.length ∧
    (∀ index line, lines[index]? = some line →
      let start := startOf lines index
      line.addr.toNat = (base.toNat + start) % 2 ^ 64 ∧ start + line.length ≤ bytes.length ∧
        line = s.decodeOne (base + UInt64.ofNat start) (bytes.drop start)) ∧
    s.listing base [] = [] ∧
    (∀ index ≤ lines.length,
      lines.drop index = s.listing (base + UInt64.ofNat (startOf lines index)) (bytes.drop (startOf lines index))) ∧
    (∀ steps w, s.Walks base bytes steps w → steps ≤ bytes.length ∧ w.position ≤ bytes.length ∧
      (s.advance? base bytes w = none → w.position = bytes.length ∧ w.lines = lines) ∧
      ∃ last w', steps ≤ last ∧ s.Walks base bytes last w' ∧ s.advance? base bytes w' = none) := by
  intro lines
  refine ⟨fun line => length_pos_of_mem_listing, s.sum_lengths base bytes, s.length_listing_le base bytes,
    fun index line hline => getElem?_listing hline, s.listing_nil base, s.drop_listing, fun steps w hwalks => ?_⟩
  have htiled := hwalks.tiled
  refine ⟨htiled.steps_le, htiled.inside, fun hend => ⟨?_, htiled.lines_eq hend⟩, hwalks.goes_on⟩
  exact Nat.le_antisymm htiled.inside (advance?_eq_none_iff.mp hend)

end Session

end GpuListing
