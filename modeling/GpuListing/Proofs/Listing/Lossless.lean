import GpuListing.Proofs.Listing.Reading
import GpuListing.Proofs.Listing.Opening
import GpuListing.Proofs.Listing.Words

/-! # Listings of words read back

Each line of a listing for AMDGPU tells its octets: a word its four, in the order in which they lie, and the rest at
the end octet by octet. So the texts alone give back what was listed, and octets that end with a whole word are
listed the same whatever follows them. -/

namespace GpuListing.Amdgpu

/-- The octets that data directives stand for, one directive after another. -/
def octetsOf? (texts : List String) : Option Bytes := (texts.mapM fun text => directive? text.toList).map List.flatten

/-! ### Sessions -/

/-- A session for the family is on its processor what the bundle makes it, whatever else is registered. -/
theorem session_of_start {r : Registry} {triple cpu : String} {s : Session} (hmachine : r.machine? family = some machine)
    (hfactory : r.factory? family = some Decoder.rawWordFactory) (hstart : Session.start r triple cpu = .ok s)
    (hfamily : s.family = family) : s = session s.cpu := by
  have hlook : Session.LooksUp r r r triple cpu (Session.start r triple cpu) := Session.looksUp r r r triple cpu
  rw [Session.start] at hstart hlook
  generalize Session.startAcross r r r triple cpu = outcome at hlook hstart
  cases hlook with
  | noFamily => cases hstart
  | noModel => cases hstart
  | noDecoder => cases hstart
  | all found model factory hfound hmodel hmade =>
    obtain ⟨hsame, hsmodel, hsdecoder⟩ := Session.of_onModel hstart
    obtain rfl : found = family := hsame.symm.trans hfamily
    obtain rfl := Option.some.inj (hmodel.symm.trans hmachine)
    obtain rfl := Option.some.inj (hmade.symm.trans hfactory)
    obtain ⟨sfamily, scpu, smodel, sdecoder⟩ := s
    obtain rfl : sfamily = family := hfamily
    obtain rfl : smodel = machine := hsmodel
    obtain rfl : sdecoder = Decoder.rawWords := hsdecoder
    rfl

section Session
variable {cpu : String} {base : UInt64} {bytes : Bytes}

/-! ### Octets read back -/

theorem directive?_chunkText {chunk : Bytes} (hne : chunk ≠ []) : directive? (chunkText chunk).toList = some chunk := by
  unfold chunkText
  split
  · next hlength =>
    have hword := Bytes.number_lt chunk
    have hdigits := Bytes.digits_number chunk
    rw [hlength] at hword hdigits
    rw [directive?_wordText hword, hdigits]
  · exact directive?_octetsText hne

theorem octetsOf?_cons {text : String} {texts : List String} {front rest : Bytes}
    (hfront : directive? text.toList = some front) (hrest : octetsOf? texts = some rest) :
    octetsOf? (text :: texts) = some (front ++ rest) := by
  obtain ⟨chunks, hchunks, rfl⟩ := Option.map_eq_some_iff.mp hrest
  rw [octetsOf?, List.mapM_cons, hfront, hchunks]
  rfl

theorem take_append_drop_line (cpu : String) (base : UInt64) (bytes : Bytes) :
    bytes.take 4 ++ bytes.drop ((session cpu).decodeOne base bytes).length = bytes := by
  rw [decodeOne_eq, List.length_take]
  -- Where less than a word is left, all of it is taken, and dropping four octets or those leaves nothing.
  by_cases h : 4 ≤ bytes.length
  · rw [Nat.min_eq_left h, List.take_append_drop]
  · have hshort : bytes.length ≤ 4 := Nat.le_of_not_le h
    rw [Nat.min_eq_right hshort, List.drop_length, List.append_nil, List.take_of_length_le hshort]

theorem octetsOf?_listing (cpu : String) (base : UInt64) (bytes : Bytes) :
    octetsOf? (((session cpu).listing base bytes).map Line.text) = some bytes := by
  induction base, bytes using Session.listing.induct (session cpu) with
  | case1 base =>
    rw [Session.listing_nil]
    rfl
  | case2 base bytes hne line ih =>
    have hchunk : bytes.take 4 ≠ [] := by
      rw [Ne, List.take_eq_nil_iff]
      exact not_or.mpr ⟨by decide, hne⟩
    have htext : line.text = chunkText (bytes.take 4) := congrArg Line.text (decodeOne_eq cpu base bytes)
    have hline : directive? line.text.toList = some (bytes.take 4) := htext ▸ directive?_chunkText hchunk
    rw [Session.listing_of_ne_nil hne, List.map_cons, octetsOf?_cons hline ih, take_append_drop_line]

/-! ### Lines by their number -/

theorem length_listing (cpu : String) (base : UInt64) (bytes : Bytes) :
    ((session cpu).listing base bytes).length = (bytes.length + 3) / 4 := by
  rw [listing_eq, List.length_map, List.length_range]

theorem line_listing {index : Nat} {line : Line} (h : ((session cpu).listing base bytes)[index]? = some line) :
    line.addr.toNat = (base.toNat + 4 * index) % 2 ^ 64 ∧ line.length = min 4 (bytes.length - 4 * index) ∧
      directive? line.text.toList = some ((bytes.drop (4 * index)).take 4) := by
  have hindex := (List.getElem?_eq_some_iff.mp h).1
  rw [length_listing] at hindex
  rw [listing_eq, List.getElem?_map, List.getElem?_range hindex] at h
  generalize hchunk : (bytes.drop (4 * index)).take 4 = chunk
  have hline : line = ⟨base + UInt64.ofNat (4 * index), chunk.length, chunkText chunk⟩ :=
    hchunk ▸ (Option.some.inj h).symm
  have hlength : chunk.length = min 4 (bytes.length - 4 * index) := by
    rw [← hchunk, List.length_take, List.length_drop]
  have hne : chunk ≠ [] := List.ne_nil_of_length_pos (by omega)
  rw [hline]
  refine ⟨?_, hlength, directive?_chunkText hne⟩
  rw [UInt64.toNat_add, UInt64.toNat_ofNat', Nat.add_mod_mod]

theorem listing_append {front : Bytes} (h : 4 ∣ front.length) (cpu : String) (base : UInt64) (back : Bytes) :
    (session cpu).listing base (front ++ back) =
      (session cpu).listing base front ++ (session cpu).listing (base + UInt64.ofNat front.length) back := by
  induction base, front using Session.listing.induct (session cpu) with
  | case1 base =>
    rw [Session.listing_nil]
    exact congrArg ((session cpu).listing · back) (UInt64.add_zero base).symm
  | case2 base front hne line ih =>
    have hlong : 4 ≤ front.length := Nat.le_of_dvd (List.length_pos_iff.mpr hne) h
    have hline : line = ⟨base, 4, Decoder.wordText (Bytes.number (front.take 4))⟩ := decodeOne_of_le hlong
    have hfour : line.length = 4 := congrArg Line.length hline
    have hsame : (session cpu).decodeOne base (front ++ back) = line := by
      rw [hline, decodeOne_of_le (by rw [List.length_append]; omega), List.take_append_of_le_length hlong]
    have hrest : 4 ∣ (front.drop line.length).length := by
      rw [hfour, List.length_drop]
      exact (Nat.dvd_sub_iff_left hlong (Nat.dvd_refl 4)).mpr h
    have hsum : base + UInt64.ofNat line.length + UInt64.ofNat (front.drop line.length).length =
        base + UInt64.ofNat front.length := by
      rw [UInt64.add_assoc, ← UInt64.ofNat_add, hfour, List.length_drop, Nat.add_sub_cancel' hlong]
    have hih := ih hrest
    rw [hsum, hfour] at hih
    rw [Session.listing_of_ne_nil (List.append_ne_nil_of_left_ne_nil hne back), hsame, Session.listing_of_ne_nil hne,
      hfour, List.drop_append_of_le_length hlong, hih, List.cons_append]

end Session

/-- A listing for AMDGPU loses nothing. It has a line for each four octets, at the address that is four times the
    number of the line further on, modulo 2^64; only the last line may be shorter. The text of a line tells its
    octets, so the texts of a listing tell all octets that are listed, and no others have a listing with these texts.
    After whole words the listing goes on as the one of what follows, at the address where that lies. -/
theorem listing_lossless {r : Registry} {triple cpu : String} {s : Session} (hmachine : r.machine? family = some machine)
    (hfactory : r.factory? family = some Decoder.rawWordFactory) (hstart : Session.start r triple cpu = .ok s)
    (hfamily : s.family = family) (base : UInt64) (bytes : Bytes) :
    let lines := s.listing base bytes
    lines.length = (bytes.length + 3) / 4 ∧
    (∀ index line, lines[index]? = some line →
      line.addr.toNat = (base.toNat + 4 * index) % 2 ^ 64 ∧ line.length = min 4 (bytes.length - 4 * index) ∧
        directive? line.text.toList = some ((bytes.drop (4 * index)).take 4)) ∧
    octetsOf? (lines.map Line.text) = some bytes ∧
    (∀ base' bytes', (s.listing base' bytes').map Line.text = lines.map Line.text → bytes' = bytes) ∧
    (4 ∣ bytes.length → ∀ more,
      s.listing base (bytes ++ more) = lines ++ s.listing (base + UInt64.ofNat bytes.length) more) := by
  rw [session_of_start hmachine hfactory hstart hfamily]
  intro lines
  have hread := octetsOf?_listing s.cpu base bytes
  refine ⟨length_listing s.cpu base bytes, fun index line => line_listing, hread, fun base' bytes' htexts => ?_,
    fun hwhole more => listing_append hwhole s.cpu base more⟩
  have hread' := octetsOf?_listing s.cpu base' bytes'
  rw [htexts] at hread'
  exact Option.some.inj (hread'.symm.trans hread)

theorem gfx900_lossless :
    let r := (Initializer.empty.ensureReady toolkit.provider family Registry.empty).world
    let base : UInt64 := 0xfffffffffffffffc
    let octets : Bytes := [0x00, 0x00, 0x81, 0xbf, 0x0f, 0xa0, 0x00, 0x04]
    let lines : List Line := [⟨base, 4, ".long 0xbf810000"⟩, ⟨0, 4, ".long 0x0400a00f"⟩]
    r.machine? family = some machine ∧ r.factory? family = some Decoder.rawWordFactory ∧
    Session.start r "amdgcn--amdhsa" "" = .ok (session "gfx900") ∧
    (session "gfx900").listing base octets = lines ∧
    ((base.toNat + 4 * 1) % 2 ^ 64 = 0 ∧
      directive? ".long 0x0400a00f".toList = some [0x0f, 0xa0, 0x00, 0x04]) ∧
    octetsOf? (lines.map Line.text) = some octets ∧
    (session "gfx900").listing base (octets ++ [0x0c, 0x09]) = lines ++ [⟨4, 2, ".byte 0x0c, 0x09"⟩] := by
  intro r base octets lines
  have hstart : Session.start r "amdgcn--amdhsa" "" = .ok (session "gfx900") := rfl
  have hlines : (session "gfx900").listing base octets = lines := by decide +kernel
  have htail : (session "gfx900").listing (base + UInt64.ofNat octets.length) [0x0c, 0x09] =
      [⟨4, 2, ".byte 0x0c, 0x09"⟩] := by
    decide +kernel
  obtain ⟨-, hline, hread, -, happend⟩ := listing_lossless rfl rfl hstart rfl base octets
  rw [hlines] at hline hread happend
  obtain ⟨haddr, -, hword⟩ := hline 1 _ rfl
  exact ⟨rfl, rfl, hstart, hlines, ⟨haddr.symm, hword⟩, hread,
    (happend (by decide) [0x0c, 0x09]).trans (congrArg (lines ++ ·) htail)⟩

end GpuListing.Amdgpu
