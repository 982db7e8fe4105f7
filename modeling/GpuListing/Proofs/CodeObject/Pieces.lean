import GpuListing.CodeObject.Image

/-! # Pieces of a file

A file is made of pieces that stand one after another. What is read at the position where a piece begins is
the piece. -/

namespace GpuListing

namespace Bytes

/-- A piece begins at a position of the file and stands there to its end. -/
def HoldsAt (file : Bytes) (start : Nat) (piece : Bytes) : Prop :=
  ∃ front rest, front.length = start ∧ file = front ++ piece ++ rest

namespace HoldsAt
variable {file p q : Bytes} {start : Nat}

theorem whole (file : Bytes) : file.HoldsAt 0 file := ⟨[], [], rfl, (List.append_nil file).symm⟩

theorem left (h : file.HoldsAt start (p ++ q)) : file.HoldsAt start p := by
  obtain ⟨front, rest, hfront, rfl⟩ := h
  exact ⟨front, q ++ rest, hfront, by simp only [List.append_assoc]⟩

theorem right (h : file.HoldsAt start (p ++ q)) : file.HoldsAt (start + p.length) q := by
  obtain ⟨front, rest, rfl, rfl⟩ := h
  exact ⟨front ++ p, rest, List.length_append, by simp only [List.append_assoc]⟩

theorem le (h : file.HoldsAt start p) : start + p.length ≤ file.length := by
  obtain ⟨front, rest, rfl, rfl⟩ := h
  simp only [List.length_append]
  omega

theorem drop_eq (h : file.HoldsAt start p) : ∃ rest, file.drop start = p ++ rest := by
  obtain ⟨front, rest, rfl, rfl⟩ := h
  exact ⟨rest, by rw [List.append_assoc, List.drop_left]⟩

theorem slice_eq (h : file.HoldsAt start p) : file.slice start p.length = p := by
  obtain ⟨rest, hdrop⟩ := h.drop_eq
  rw [slice, hdrop, List.take_left]

theorem numberAt_eq {width n : Nat} (h : file.HoldsAt start (digits width n)) (hn : n < Nat.pow 256 width) :
    file.numberAt start width = n := by
  have hslice := h.slice_eq
  rw [length_digits] at hslice
  rw [numberAt, hslice, number_digits hn]

/-- Pieces of one length stand at equal distances. -/
theorem flatMap {α : Type} {f : α → Bytes} {size : Nat} (hf : ∀ a, (f a).length = size) {list : List α}
    (h : file.HoldsAt start (list.flatMap f)) {i : Nat} (hi : i < list.length) :
    file.HoldsAt (start + i * size) (f list[i]) := by
  induction list generalizing start i with
  | nil => cases hi
  | cons a list ih =>
    rw [List.flatMap_cons] at h
    cases i with
    | zero =>
      rw [Nat.zero_mul]
      exact h.left
    | succ i =>
      have hnext := ih h.right (Nat.lt_of_succ_lt_succ hi)
      rwa [hf, Nat.add_assoc, Nat.add_comm size, ← Nat.succ_mul] at hnext

end HoldsAt

end Bytes

/-! ### Section headers -/

namespace SectionHeader

/-- The fields have the sizes that they are written in. -/
structure Fits (header : SectionHeader) : Prop where
  nameStart : header.nameStart < Nat.pow 256 4
  kind : header.kind < Nat.pow 256 4
  addr : header.addr < Nat.pow 256 8
  start : header.start < Nat.pow 256 8
  length : header.length < Nat.pow 256 8

/-- The header of a piece of a file fits if the file does. -/
theorem Fits.of_holdsAt {file piece : Bytes} {nameStart kind addr start : Nat} (hname : nameStart < Nat.pow 256 4)
    (hkind : kind < Nat.pow 256 4) (haddr : addr < Nat.pow 256 8) (h : file.HoldsAt start piece)
    (hfile : file.length < Nat.pow 256 8) : Fits ⟨nameStart, kind, addr, start, piece.length⟩ := by
  have hend : start + piece.length < Nat.pow 256 8 := Nat.lt_of_le_of_lt h.le hfile
  exact ⟨hname, hkind, haddr, Nat.lt_of_le_of_lt (Nat.le_add_right _ _) hend,
    Nat.lt_of_le_of_lt (Nat.le_add_left _ _) hend⟩

theorem readAt_eq {file : Bytes} {start : Nat} {header : SectionHeader} (h : file.HoldsAt start header.octets)
    (hfits : header.Fits) : readAt file start = header := by
  -- The fields are taken off from the last one on.
  replace h := h.left
  have hlength : file.HoldsAt (start + 32) (.digits 8 header.length) := h.right
  replace h := h.left
  have hstart : file.HoldsAt (start + 24) (.digits 8 header.start) := h.right
  replace h := h.left
  have haddr : file.HoldsAt (start + 16) (.digits 8 header.addr) := h.right
  replace h := h.left.left
  have hkind : file.HoldsAt (start + 4) (.digits 4 header.kind) := h.right
  rw [readAt, h.left.numberAt_eq hfits.nameStart, hkind.numberAt_eq hfits.kind, haddr.numberAt_eq hfits.addr,
    hstart.numberAt_eq hfits.start, hlength.numberAt_eq hfits.length]

end SectionHeader

/-! ### The file header -/

namespace CodeObject

/-- What is read at the beginning of a file with a file header. -/
structure Begins (file : Bytes) (machine start count : Nat) : Prop where
  magic : file.take 4 = CodeObject.magic
  long : headerSize ≤ file.length
  width : file.numberAt 4 1 = 2
  order : file.numberAt 5 1 = 1
  machine : file.numberAt 0x12 2 = machine
  table : SectionTable.read file = ⟨start, SectionHeader.size, count, count - 1⟩

theorem begins_of_holdsAt {file : Bytes} {machine : UInt16} {start count : Nat}
    (h : file.HoldsAt 0 (headerOctets machine start count)) (hstart : start < Nat.pow 256 8)
    (hcount : count < Nat.pow 256 2) : Begins file machine.toNat start count := by
  have hlong : headerSize ≤ file.length := by
    have hle := h.le
    rwa [length_headerOctets, Nat.zero_add] at hle
  have hnames : file.HoldsAt 0x3e (.digits 2 (count - 1)) := h.right
  replace h := h.left
  have hentries : file.HoldsAt 0x3c (.digits 2 count) := h.right
  replace h := h.left
  have hsize : file.HoldsAt 0x3a (.digits 2 SectionHeader.size) := h.right
  replace h := h.left.left.left.left
  have htable : file.HoldsAt 0x28 (.digits 8 start) := h.right
  replace h := h.left.left
  have hmachine : file.HoldsAt 0x12 (.digits 2 machine.toNat) := h.right
  replace h := h.left.left
  have hident : file.HoldsAt 4 (Bytes.digits 1 2 ++ (Bytes.digits 1 1 ++ [1])) := h.right
  have hread : SectionTable.read file = ⟨start, SectionHeader.size, count, count - 1⟩ := by
    rw [SectionTable.read, htable.numberAt_eq hstart, hsize.numberAt_eq (by decide), hentries.numberAt_eq hcount,
      hnames.numberAt_eq (Nat.lt_of_le_of_lt (Nat.sub_le _ _) hcount)]
  exact ⟨h.left.slice_eq, hlong, hident.left.numberAt_eq (by decide), hident.right.left.numberAt_eq (by decide),
    hmachine.numberAt_eq machine.toNat_lt, hread⟩

end CodeObject

end GpuListing
