import GpuListing.Proofs.Listing.Answers

/-! # Alignment of listings

Where a decoder takes multiples of an alignment, and the shortest instruction is one too, every line does, except for
what is left at the end of the octets. So an odd length is never followed by a line, and all lines start at multiples
of the alignment from the address of the first one. -/

namespace GpuListing

theorem startOf_succ {lines : List Line} {index : Nat} {line : Line} (h : lines[index]? = some line) :
    startOf lines (index + 1) = startOf lines index + line.length := by
  rw [startOf, startOf, List.take_add_one, h, List.map_append, List.sum_append]
  rfl

namespace Session

/-- All that a session takes at once is a multiple of an alignment: the shortest instruction, and what the decoder
    tells of any octets. -/
structure Aligned (s : Session) (align : Nat) : Prop where
  shortest : align ∣ max s.model.minLength 1
  told : ∀ addr bytes d, s.decoder addr bytes = some d → align ∣ d.length

namespace Aligned
variable {s : Session} {align : Nat} {base : UInt64} {bytes : Bytes} {line : Line} {index : Nat}

/-- A line takes a multiple of the alignment, or is the rest of the octets, which is too short for an instruction. -/
theorem line_cases (h : s.Aligned align) (addr : UInt64) (hne : bytes ≠ []) :
    align ∣ (s.decodeOne addr bytes).length ∨
      ((s.decodeOne addr bytes).length = bytes.length ∧ bytes.length < max s.model.minLength 1 ∧
        ListsOctets (s.decodeOne addr bytes).text bytes) := by
  generalize hline : s.decodeOne addr bytes = line
  have hlineAt : s.LineAt addr bytes line := hline ▸ s.lineAt_decodeOne addr bytes
  by_cases hsome : ∃ d, s.Answers addr bytes d
  · obtain ⟨d, hd⟩ := hsome
    rw [(hlineAt.of_answers hd).1]
    exact .inl (h.told _ _ _ hd.told)
  · obtain ⟨hlength, htext⟩ := hlineAt.of_none (not_exists.mp hsome) hne
    by_cases hlong : max s.model.minLength 1 ≤ bytes.length
    · rw [hlength, Nat.min_eq_left hlong]
      exact .inl h.shortest
    · have hall : line.length = bytes.length := hlength.trans (Nat.min_eq_right (Nat.le_of_not_le hlong))
      rw [hall, List.take_length] at htext
      exact .inr ⟨hall, Nat.not_le.mp hlong, htext⟩

/-- A line that takes no multiple of the alignment is the last one. -/
theorem line_of_not_dvd (h : s.Aligned align) (hline : (s.listing base bytes)[index]? = some line)
    (hodd : ¬align ∣ line.length) :
    index + 1 = (s.listing base bytes).length ∧
      startOf (s.listing base bytes) index + line.length = bytes.length ∧
      line.length < max s.model.minLength 1 ∧
      ListsOctets line.text (bytes.drop (startOf (s.listing base bytes) index)) := by
  obtain ⟨-, hend, hdecoded⟩ := getElem?_listing hline
  have hindex : index < (s.listing base bytes).length := (List.getElem?_eq_some_iff.mp hline).1
  have hstart := startOf_succ hline
  have hpos := length_pos_of_mem_listing (List.mem_of_getElem? hline)
  have hne : bytes.drop (startOf (s.listing base bytes) index) ≠ [] := by
    rw [Ne, List.drop_eq_nil_iff]
    omega
  have hcases := h.line_cases (base + UInt64.ofNat (startOf (s.listing base bytes) index)) hne
  rw [← hdecoded, List.length_drop] at hcases
  obtain ⟨hlength, hshort, htext⟩ := hcases.resolve_left hodd
  have hall : startOf (s.listing base bytes) index + line.length = bytes.length := by omega
  -- Nothing is left after this line, so the listing of the rest has no lines.
  have hnone : (s.listing base bytes).drop (index + 1) = [] := by
    rw [drop_listing (index + 1) hindex, hstart, hall, List.drop_length, listing_nil]
  have hlast := List.drop_eq_nil_iff.mp hnone
  exact ⟨Nat.le_antisymm hindex hlast, hall, hlength ▸ hshort, htext⟩

theorem dvd_length_of_lt (h : s.Aligned align) (hline : (s.listing base bytes)[index]? = some line)
    (hinside : index + 1 < (s.listing base bytes).length) : align ∣ line.length :=
  Decidable.byContradiction fun hodd => Nat.ne_of_lt hinside (h.line_of_not_dvd hline hodd).1

/-- Lines start at multiples of the alignment. -/
theorem dvd_startOf (h : s.Aligned align) (hindex : index < (s.listing base bytes).length) :
    align ∣ startOf (s.listing base bytes) index := by
  induction index with
  | zero => exact Nat.dvd_zero align
  | succ index ih =>
    have hline := List.getElem?_eq_getElem (Nat.lt_of_succ_lt hindex)
    rw [startOf_succ hline]
    exact Nat.dvd_add (ih (Nat.lt_of_succ_lt hindex)) (h.dvd_length_of_lt hline hindex)

end Aligned

variable {s : Session} {align : Nat}

/-- Alignment is kept from line to line: each line starts a multiple of the alignment after the first address,
    addresses counted modulo 2^64, and each but the last one takes a multiple of it. A line that does not is the last
    one, is shorter than any instruction and lists the rest octet by octet; there is none if the octets are a multiple
    of the alignment in number. -/
theorem listing_aligned (h : s.Aligned align) (base : UInt64) (bytes : Bytes) :
    let lines := s.listing base bytes
    (∀ index line, lines[index]? = some line →
      align ∣ startOf lines index ∧
      line.addr.toNat = (base.toNat + startOf lines index) % 2 ^ 64 ∧
      (index + 1 < lines.length → align ∣ line.length) ∧
      (¬align ∣ line.length →
        index + 1 = lines.length ∧ line.length < max s.model.minLength 1 ∧
        ListsOctets line.text (bytes.drop (startOf lines index)))) ∧
    (align ∣ bytes.length → ∀ line ∈ lines, align ∣ line.length) := by
  intro lines
  refine ⟨fun index line hline => ?_, fun hbytes line hmem => ?_⟩
  · refine ⟨h.dvd_startOf (List.getElem?_eq_some_iff.mp hline).1, (getElem?_listing hline).1,
      h.dvd_length_of_lt hline, fun hodd => ?_⟩
    obtain ⟨hlast, -, hshort, htext⟩ := h.line_of_not_dvd hline hodd
    exact ⟨hlast, hshort, htext⟩
  · obtain ⟨index, hline⟩ := List.mem_iff_getElem?.mp hmem
    have hstart := h.dvd_startOf (List.getElem?_eq_some_iff.mp hline).1
    refine Decidable.byContradiction fun hodd => ?_
    obtain ⟨-, hall, -⟩ := h.line_of_not_dvd hline hodd
    rw [← hall] at hbytes
    exact hodd ((Nat.dvd_add_right hstart).mp hbytes)

/-- Instructions of four octets or more, and a decoder that tells of two or of ten. -/
def paired : Session where
  family := ⟨"X"⟩
  cpu := ""
  model := ⟨⟨"X"⟩, [], "", 4, 10, 2⟩
  decoder _ bytes :=
    if bytes.head? = some 0x01 then some ⟨"two", 2⟩
    else if bytes.head? = some 0x02 then some ⟨"ten", 10⟩ else none

theorem paired_tail :
    let octets : Bytes := [0x01, 0x00, 0x02, 0x00, 0x00, 0x00, 0x09]
    let lines : List Line := [⟨6, 2, "two"⟩, ⟨8, 4, ".byte 0x02, 0x00, 0x00, 0x00"⟩, ⟨12, 1, ".byte 0x09"⟩]
    paired.Aligned 2 ∧ paired.listing 6 octets = lines ∧ lines[2]? = some ⟨12, 1, ".byte 0x09"⟩ ∧ ¬2 ∣ 1 ∧
    (2 ∣ startOf lines 2 ∧ 2 + 1 = lines.length ∧ 1 < max 4 1 ∧ ListsOctets ".byte 0x09" [0x09]) ∧
    (2 ∣ (octets.take 6).length ∧ ∀ line ∈ paired.listing 6 (octets.take 6), 2 ∣ line.length) := by
  intro octets lines
  have haligned : paired.Aligned 2 := by
    refine ⟨by decide, fun addr bytes d hd => ?_⟩
    simp only [paired] at hd
    split at hd
    · obtain rfl := Option.some.inj hd
      decide
    split at hd
    · obtain rfl := Option.some.inj hd
      decide
    · cases hd
  have hlines : paired.listing 6 octets = lines := by decide +kernel
  have htail := (listing_aligned haligned 6 octets).1 2 ⟨12, 1, ".byte 0x09"⟩
  simp only [hlines] at htail
  obtain ⟨hstart, -, -, hlast⟩ := htail rfl
  exact ⟨haligned, hlines, rfl, by decide, ⟨hstart, hlast (by decide)⟩, by decide,
    (listing_aligned haligned 6 (octets.take 6)).2 (by decide)⟩

end Session

end GpuListing
