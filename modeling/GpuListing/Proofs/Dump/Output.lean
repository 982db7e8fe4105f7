import GpuListing.Dump.Output

/-! # What a buffer lets out

Whatever is written, what is released and what is held are together all of it, and no more is held than the buffer
holds. So an output that is shorter than the buffer is held back as a whole. -/

namespace GpuListing.Dump.Output
variable {o : Output} {piece : String} {pieces : List String}

theorem text_write (o : Output) (piece : String) : (o.write piece).text = o.text ++ piece := by
  unfold write
  split
  · exact String.append_empty
  · split
    · rfl
    · exact String.append_assoc.symm

theorem text_writeAll (o : Output) (pieces : List String) : (o.writeAll pieces).text = o.text ++ String.join pieces := by
  induction pieces generalizing o with
  | nil => exact String.append_empty.symm
  | cons piece pieces ih =>
    rw [String.join_cons, ← String.append_assoc, ← text_write]
    exact ih (o.write piece)

/-- The buffer holds no more than it can. -/
def Fits (o : Output) : Prop := o.held.utf8ByteSize ≤ capacity

theorem fits_empty : empty.Fits := Nat.zero_le _

theorem fits_write (o : Output) (piece : String) : (o.write piece).Fits := by
  unfold write
  split
  · exact Nat.zero_le _
  · next hsmall =>
    split
    · exact Nat.le_of_lt (Nat.not_le.mp hsmall)
    · next hroom =>
      rw [Fits, String.utf8ByteSize_append]
      exact Nat.not_lt.mp hroom

theorem Fits.writeAll (h : o.Fits) (pieces : List String) : (o.writeAll pieces).Fits := by
  induction pieces generalizing o with
  | nil => exact h
  | cons piece pieces ih => exact ih (o.fits_write piece)

theorem released_write (h : o.released = "") (hsize : (o.text ++ piece).utf8ByteSize < capacity) :
    (o.write piece).released = "" := by
  rw [text, h, String.empty_append, String.utf8ByteSize_append] at hsize
  unfold write
  rw [if_neg (by omega), if_neg (by omega)]
  exact h

theorem released_writeAll (h : o.released = "") (hsize : (o.text ++ String.join pieces).utf8ByteSize < capacity) :
    (o.writeAll pieces).released = "" := by
  induction pieces generalizing o with
  | nil => exact h
  | cons piece pieces ih =>
    rw [String.join_cons, ← String.append_assoc] at hsize
    have hpiece : (o.text ++ piece).utf8ByteSize < capacity := by
      rw [String.utf8ByteSize_append] at hsize
      omega
    refine ih (released_write h hpiece) ?_
    rwa [text_write]

/-- What has been let out of an output that began with nothing: all but what the buffer holds, and nothing if all is
    shorter than the buffer. -/
theorem released_prefix (pieces : List String) :
    ∃ held, (empty.writeAll pieces).released ++ held = String.join pieces ∧ held.utf8ByteSize ≤ capacity ∧
      ((String.join pieces).utf8ByteSize < capacity → (empty.writeAll pieces).released = "") := by
  refine ⟨(empty.writeAll pieces).held, ?_, fits_empty.writeAll pieces, fun hsize => released_writeAll rfl ?_⟩
  · exact (empty.text_writeAll pieces).trans String.empty_append
  · have htext : empty.text ++ String.join pieces = String.join pieces := String.empty_append
    rwa [htext]

end GpuListing.Dump.Output
