import GpuListing.KernelCode.Guarded
import Mathlib.Algebra.GroupWithZero.Nat

/-! # No octet missing

A header is read from octets that are there. -/

namespace GpuListing

/-- The numbers of octets of the fields of a header, with the gaps between them. -/
def KernelHeader.widths : List Nat :=
  [4, 4, 2, 2, 2, 2, 8, 8, 8, 8, 8, 4, 4, 4, 4, 8, 4, 2, 2, 2, 2, 2, 2, 2, 2, 1, 1, 1, 1, 4, 12, 8]

namespace Guarded

/-- A guarded cursor goes on by as many octets as the plain one takes, one width after another, and finds the same,
    where the octets are there. -/
def Follows {α : Type} (guarded : Guarded.Cursor α) (plain : GpuListing.Cursor α) (widths : List Nat) : Prop :=
  ∀ (bytes : Bytes) (position : Nat), position + widths.sum ≤ bytes.length →
    guarded.run bytes position = .ok ((plain.run (bytes.drop position)).1, position + widths.sum) ∧
      (plain.run (bytes.drop position)).2 = bytes.drop (position + widths.sum)

namespace Follows
variable {α β : Type} {guarded : Guarded.Cursor α} {plain : GpuListing.Cursor α} {width : Nat} {widths : List Nat}

theorem number (width : Nat) : Follows (Cursor.number width) (GpuListing.Cursor.number width) [width] := by
  intro bytes position h
  rw [List.sum_singleton] at h ⊢
  exact ⟨if_pos h, List.drop_drop⟩

theorem skip (width : Nat) : Follows (Cursor.skip width) (GpuListing.Cursor.skip width) [width] := by
  intro bytes position h
  rw [List.sum_singleton]
  exact ⟨rfl, List.drop_drop⟩

theorem pure (a : α) : Follows (Pure.pure a) (Pure.pure a) [] := fun _ _ _ => ⟨rfl, rfl⟩

theorem map (f : α → β) (h : Follows guarded plain widths) : Follows (f <$> guarded) (f <$> plain) widths := by
  intro bytes position hend
  obtain ⟨hrun, hleft⟩ := h bytes position hend
  refine ⟨?_, hleft⟩
  show Except.map _ (guarded.run bytes position) = _
  rw [hrun]
  rfl

theorem bind {next : α → Guarded.Cursor β} {plainNext : α → GpuListing.Cursor β} (h : Follows guarded plain [width])
    (hnext : ∀ a, Follows (next a) (plainNext a) widths) :
    Follows (guarded >>= next) (plain >>= plainNext) (width :: widths) := by
  intro bytes position hend
  rw [List.sum_cons, ← Nat.add_assoc] at hend ⊢
  have hfirst : position + [width].sum ≤ bytes.length := by
    rw [List.sum_singleton]
    exact Nat.le_of_add_right_le hend
  obtain ⟨hrun, hleft⟩ := h bytes position hfirst
  rw [List.sum_singleton] at hrun hleft
  obtain ⟨hrest, hend⟩ := hnext (plain.run (bytes.drop position)).1 bytes (position + width) hend
  rw [← hleft] at hrest hend
  refine ⟨?_, hend⟩
  show Except.bind (guarded.run bytes position) _ = _
  rw [hrun]
  exact hrest

end Follows

theorem follows_header :
    Follows (KernelHeader.readWith Cursor.number Cursor.skip) KernelHeader.read KernelHeader.widths := by
  rw [KernelHeader.read_eq_readWith]
  have octet := fun {α : Type} (f : Nat → α) => (Follows.number 1).map f
  have pair := fun {α : Type} (f : Nat → α) => (Follows.number 2).map f
  have four := fun {α : Type} (f : Nat → α) => (Follows.number 4).map f
  have eight := fun {α : Type} (f : Nat → α) => (Follows.number 8).map f
  refine (four _).bind fun _ => (four _).bind fun _ => (pair _).bind fun _ => (pair _).bind fun _ => ?_
  refine (pair _).bind fun _ => (pair _).bind fun _ => ((eight _).map _).bind fun _ => ((eight _).map _).bind fun _ => ?_
  refine (eight _).bind fun _ => (Follows.skip 8).bind fun _ => (eight _).bind fun _ => (four _).bind fun _ => ?_
  refine (four _).bind fun _ => (four _).bind fun _ => (four _).bind fun _ => (eight _).bind fun _ => ?_
  refine (four _).bind fun _ => (pair _).bind fun _ => (pair _).bind fun _ => (pair _).bind fun _ => ?_
  refine (pair _).bind fun _ => (pair _).bind fun _ => (pair _).bind fun _ => (pair _).bind fun _ => ?_
  refine (pair _).bind fun _ => (octet _).bind fun _ => (octet _).bind fun _ => (octet _).bind fun _ => ?_
  refine (octet _).bind fun _ => ((four _).map _).bind fun _ => (Follows.skip 12).bind fun _ => (eight _).bind fun _ => ?_
  exact .pure _

theorem header_eq {bytes : Bytes} (h : KernelHeader.size ≤ bytes.length) :
    header bytes = ofExcept (.ok (KernelHeader.read.run bytes).1) := by
  have hwidths : 0 + KernelHeader.widths.sum ≤ KernelHeader.size := by decide
  obtain ⟨hrun, -⟩ := follows_header bytes 0 (Nat.le_trans hwidths h)
  rw [header, hrun]
  rfl

theorem between_eq {bytes : Bytes} {start stop : Nat} (hstart : start ≤ stop) (hstop : stop ≤ bytes.length) :
    between bytes start stop = ofExcept (.ok (bytes.slice start (stop - start))) := if_pos ⟨hstart, hstop⟩

/-- A header, and the machine code after it, are split off without a fault. -/
theorem split_eq (code : Bytes) : split code = ofExcept (KernelHeader.split code) := by
  rw [split, KernelHeader.split]
  by_cases hshort : code.length < KernelHeader.size
  · rw [if_pos hshort, if_pos hshort]
    rfl
  · have hlong : KernelHeader.size ≤ code.length := Nat.not_lt.mp hshort
    have hfront : KernelHeader.size ≤ (code.slice 0 KernelHeader.size).length :=
      Nat.le_of_eq (List.length_take_of_le hlong).symm
    have hrest : code.slice KernelHeader.size (code.length - KernelHeader.size) = code.drop KernelHeader.size := by
      rw [Bytes.slice, ← List.length_drop, List.take_length]
    rw [if_neg hshort, if_neg hshort, between_eq (Nat.zero_le _) hlong, between_eq hlong (Nat.le_refl _), hrest]
    show (header (code.slice 0 KernelHeader.size) >>= _) = _
    rw [header_eq hfront]
    rfl

end Guarded

end GpuListing
