import GpuListing.Amdgpu
import GpuListing.Proofs.Listing.Tiling
import GpuListing.Proofs.Text.Lines

/-! # Listings of words

A session for AMDGPU takes four octets a line, as one word. What is left at the end is shorter than a word and is
listed octet by octet. -/

namespace GpuListing.Amdgpu

/-- The session for a processor. -/
def session (cpu : String) : Session := ⟨family, cpu, machine, Decoder.rawWords⟩

/-- Up to four octets as a data directive. -/
def chunkText (chunk : Bytes) : String :=
  if chunk.length = 4 then Decoder.wordText (Bytes.number chunk) else octetsText chunk

variable {cpu : String} {addr : UInt64} {bytes : Bytes}

theorem trimStart_wordText (word : Nat) : Text.trimStart (Decoder.wordText word).toList = (Decoder.wordText word).toList := by
  refine Text.trimStart_of_head fun c hc => ?_
  rw [Decoder.wordText, String.toList_append] at hc
  obtain rfl := Option.some.inj hc
  decide

theorem decodeOne_of_le (h : 4 ≤ bytes.length) :
    (session cpu).decodeOne addr bytes = ⟨addr, 4, Decoder.wordText (Bytes.number (bytes.take 4))⟩ := by
  have hdecoded : (session cpu).decoder addr bytes = some ⟨Decoder.wordText (Bytes.number (bytes.take 4)), 4⟩ := if_pos h
  have husable : (session cpu).usable? addr bytes = some ⟨Decoder.wordText (Bytes.number (bytes.take 4)), 4⟩ := by
    refine (if_pos h).trans ?_
    rw [hdecoded]
    exact Option.filter_some_pos (by simpa using h)
  rw [Session.decodeOne, husable]
  show Line.mk addr 4 (String.ofList (Text.trimStart _)) = _
  rw [trimStart_wordText, String.ofList_toList]

theorem decodeOne_of_lt (h : bytes.length < 4) :
    (session cpu).decodeOne addr bytes = ⟨addr, bytes.length, octetsText bytes⟩ := by
  have husable : (session cpu).usable? addr bytes = none := if_neg (Nat.not_le.mpr h)
  have hall : bytes.take 4 = bytes := List.take_of_length_le (Nat.le_of_lt h)
  rw [Session.decodeOne, husable]
  show Line.mk addr (bytes.take 4).length (octetsText (bytes.take 4)) = _
  rw [hall]

theorem decodeOne_eq (cpu : String) (addr : UInt64) (bytes : Bytes) :
    (session cpu).decodeOne addr bytes = ⟨addr, (bytes.take 4).length, chunkText (bytes.take 4)⟩ := by
  by_cases h : 4 ≤ bytes.length
  · have hlength : (bytes.take 4).length = 4 := by rw [List.length_take, Nat.min_eq_left h]
    rw [decodeOne_of_le h, chunkText, if_pos hlength, hlength]
  · have hall : bytes.take 4 = bytes := List.take_of_length_le (Nat.le_of_not_le h)
    rw [decodeOne_of_lt (Nat.not_le.mp h), hall, chunkText, if_neg fun he => h (Nat.le_of_eq he.symm)]

/-- The lines of a listing, one for four octets. -/
theorem listing_eq (cpu : String) (addr : UInt64) (bytes : Bytes) :
    (session cpu).listing addr bytes = (List.range ((bytes.length + 3) / 4)).map fun k =>
      let chunk := (bytes.drop (4 * k)).take 4
      ⟨addr + UInt64.ofNat (4 * k), chunk.length, chunkText chunk⟩ := by
  induction addr, bytes using Session.listing.induct (session cpu) with
  | case1 addr => exact Session.listing_nil _ addr
  | case2 addr bytes hne line ih =>
    have hlength : 0 < bytes.length := List.length_pos_iff.mpr hne
    have hcount : (bytes.length + 3) / 4 = ((bytes.drop 4).length + 3) / 4 + 1 := by
      rw [List.length_drop]
      omega
    have hrest : (session cpu).listing (addr + UInt64.ofNat line.length) (bytes.drop line.length) =
        (List.range (((bytes.drop 4).length + 3) / 4)).map fun k =>
          let chunk := (bytes.drop (4 * (k + 1))).take 4
          ⟨addr + UInt64.ofNat (4 * (k + 1)), chunk.length, chunkText chunk⟩ := by
      -- After less than a word nothing is left, and the range over the rest is empty.
      by_cases h : 4 ≤ bytes.length
      · have hline : line.length = 4 := congrArg Line.length (decodeOne_of_le h)
        rw [ih, hline]
        refine List.map_congr_left fun k _ => ?_
        rw [List.drop_drop, UInt64.add_assoc, ← UInt64.ofNat_add, Nat.mul_succ, Nat.add_comm 4]
      · have hnil : bytes.drop line.length = [] :=
          List.drop_eq_nil_iff.mpr (Nat.le_of_eq (congrArg Line.length (decodeOne_of_lt (Nat.not_le.mp h))).symm)
        have hnone : ((bytes.drop 4).length + 3) / 4 = 0 := by
          rw [List.length_drop]
          omega
        rw [hnil, Session.listing_nil, hnone]
        rfl
    rw [Session.listing_of_ne_nil hne, hcount, List.range_succ_eq_map, List.map_cons, List.map_map]
    have hfirst : (session cpu).decodeOne addr bytes =
        ⟨addr + UInt64.ofNat (4 * 0), ((bytes.drop (4 * 0)).take 4).length, chunkText ((bytes.drop (4 * 0)).take 4)⟩ := by
      rw [decodeOne_eq, Nat.mul_zero, List.drop_zero]
      exact congrArg (Line.mk · _ _) (UInt64.add_zero addr).symm
    exact congr (congrArg List.cons hfirst) hrest

end GpuListing.Amdgpu
