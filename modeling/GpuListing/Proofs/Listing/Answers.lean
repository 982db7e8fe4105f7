import GpuListing.Proofs.Listing.Reading
import GpuListing.Proofs.Listing.Tiling

/-! # Listings by answers

A line is an answer of the decoder or a data directive, and only answers that count are seen: those to octets enough
for an instruction, of one octet or more, that fit into what is left. Two decoders whose answers count alike wherever
a listing comes to give the same listing, whatever else they say. -/

namespace GpuListing

/-- The text lists octets one by one in a data directive. -/
def ListsOctets (text : String) (bytes : Bytes) : Prop :=
  ∃ octets, text.toList = ".byte ".toList ++ octets ∧ octetList? octets = some bytes

theorem listsOctets_octetsText {bytes : Bytes} (h : bytes ≠ []) : ListsOctets (octetsText bytes) bytes :=
  ⟨_, toList_octetsText bytes, octetList?_intercalate h⟩

namespace Session
variable {s t : Session} {addr base : UInt64} {bytes : Bytes} {d : Decoded} {line : Line}

/-! ### Answers -/

/-- The decoder has an answer that counts for bytes that lie at an address. -/
structure Answers (s : Session) (addr : UInt64) (bytes : Bytes) (d : Decoded) : Prop where
  enough : max s.model.minLength 1 ≤ bytes.length
  told : s.decoder addr bytes = some d
  pos : 1 ≤ d.length
  fits : d.length ≤ bytes.length

theorem usable?_eq_some_iff : s.usable? addr bytes = some d ↔ s.Answers addr bytes d := by
  unfold usable?
  split
  · next henough =>
    rw [Option.filter_eq_some_iff, Bool.and_eq_true, decide_eq_true_iff, decide_eq_true_iff]
    exact ⟨fun ⟨htold, hpos, hfits⟩ => ⟨henough, htold, hpos, hfits⟩, fun h => ⟨h.told, h.pos, h.fits⟩⟩
  · next hshort => exact ⟨nofun, fun h => absurd h.enough hshort⟩

theorem usable?_eq_none_iff : s.usable? addr bytes = none ↔ ∀ d, ¬s.Answers addr bytes d := by
  simp only [Option.eq_none_iff_forall_ne_some, Ne, usable?_eq_some_iff]

/-- What a line is: the answer that counts, or octets where there is none. -/
inductive LineAt (s : Session) (addr : UInt64) (bytes : Bytes) : Line → Prop where
  | answer (d : Decoded) (h : s.Answers addr bytes d) :
      LineAt s addr bytes ⟨addr, d.length, String.ofList (Text.trimStart d.text.toList)⟩
  | octets (h : ∀ d, ¬s.Answers addr bytes d) : LineAt s addr bytes (s.dataLine addr bytes)

theorem lineAt_decodeOne (s : Session) (addr : UInt64) (bytes : Bytes) : s.LineAt addr bytes (s.decodeOne addr bytes) := by
  unfold decodeOne
  split
  · next d hd => exact .answer d (usable?_eq_some_iff.mp hd)
  · next hnone => exact .octets (usable?_eq_none_iff.mp hnone)

theorem Answers.unique {other : Decoded} (h : s.Answers addr bytes d) (h' : s.Answers addr bytes other) : d = other :=
  Option.some.inj (h.told.symm.trans h'.told)

theorem LineAt.eq (h : s.LineAt addr bytes line) : line = s.decodeOne addr bytes := by
  cases h with
  | answer d h => rw [decodeOne, usable?_eq_some_iff.mpr h]
  | octets h => rw [decodeOne, usable?_eq_none_iff.mpr h]

theorem LineAt.of_answers (h : s.LineAt addr bytes line) (hd : s.Answers addr bytes d) :
    line.length = d.length ∧ line.text.toList = Text.trimStart d.text.toList := by
  cases h with
  | answer other h =>
    obtain rfl := h.unique hd
    exact ⟨rfl, String.toList_ofList⟩
  | octets h => exact absurd hd (h d)

theorem LineAt.of_none (h : s.LineAt addr bytes line) (hnone : ∀ d, ¬s.Answers addr bytes d) (hne : bytes ≠ []) :
    line.length = min (max s.model.minLength 1) bytes.length ∧ ListsOctets line.text (bytes.take line.length) := by
  cases h with
  | answer d h => exact absurd h (hnone d)
  | octets h =>
    have hpos := s.model.chunk_pos
    have htake : bytes.take (s.dataLine addr bytes).length = bytes.take s.model.chunk := by
      rw [length_dataLine, ← List.take_eq_take_min]
    have hsome : bytes.take s.model.chunk ≠ [] := by
      rw [Ne, List.take_eq_nil_iff]
      exact not_or.mpr ⟨Nat.ne_of_gt hpos, hne⟩
    rw [htake]
    exact ⟨s.length_dataLine addr bytes, listsOctets_octetsText hsome⟩

/-! ### Decoders that answer alike -/

/-- Two decoders have answers that count and look alike, or both have none. -/
def AnswersAlike (s t : Session) (addr : UInt64) (bytes : Bytes) : Prop :=
  ∀ length text, (∃ d, s.Answers addr bytes d ∧ d.length = length ∧ Text.trimStart d.text.toList = text) ↔
    ∃ d, t.Answers addr bytes d ∧ d.length = length ∧ Text.trimStart d.text.toList = text

/-- What is listed of an answer. -/
def shown (d : Decoded) : Nat × List Char := (d.length, Text.trimStart d.text.toList)

theorem exists_answers_iff {length : Nat} {text : List Char} :
    (∃ d, s.Answers addr bytes d ∧ d.length = length ∧ Text.trimStart d.text.toList = text) ↔
      (s.usable? addr bytes).map shown = some (length, text) := by
  simp only [Option.map_eq_some_iff, usable?_eq_some_iff, shown, Prod.mk.injEq]

theorem answersAlike_iff : AnswersAlike s t addr bytes ↔
    (s.usable? addr bytes).map shown = (t.usable? addr bytes).map shown := by
  simp only [AnswersAlike, exists_answers_iff]
  refine ⟨fun h => Option.ext fun answer => h answer.1 answer.2, fun h length text => by rw [h]⟩

instance (s t : Session) (addr : UInt64) (bytes : Bytes) : Decidable (AnswersAlike s t addr bytes) :=
  decidable_of_iff _ answersAlike_iff.symm

theorem decodeOne_congr (hmodel : t.model = s.model) (h : AnswersAlike s t addr bytes) :
    t.decodeOne addr bytes = s.decodeOne addr bytes := by
  by_cases hsome : ∃ d, t.Answers addr bytes d
  · obtain ⟨d, hd⟩ := hsome
    obtain ⟨d', hd', hlength, htext⟩ := (h _ _).mpr ⟨d, hd, rfl, rfl⟩
    rw [← (LineAt.answer d hd).eq, ← (LineAt.answer d' hd').eq, hlength, htext]
  · have hnone : ∀ d, ¬s.Answers addr bytes d := fun d hd => by
      obtain ⟨d', hd', -⟩ := (h _ _).mp ⟨d, hd, rfl, rfl⟩
      exact hsome ⟨d', hd'⟩
    rw [← (LineAt.octets (not_exists.mp hsome)).eq, ← (LineAt.octets hnone).eq, dataLine, dataLine, hmodel]

theorem listing_congr (hmodel : t.model = s.model)
    (h : ∀ index < (s.listing base bytes).length,
      AnswersAlike s t (base + UInt64.ofNat (startOf (s.listing base bytes) index))
        (bytes.drop (startOf (s.listing base bytes) index))) :
    t.listing base bytes = s.listing base bytes := by
  induction base, bytes using listing.induct s with
  | case1 base => rw [listing_nil, listing_nil]
  | case2 base bytes hne first ih =>
    have hlisting : s.listing base bytes = first ::
        s.listing (base + UInt64.ofNat first.length) (bytes.drop first.length) := listing_of_ne_nil hne
    have hfirst : t.decodeOne base bytes = first := by
      have hhere := h 0 (by rw [hlisting]; exact Nat.succ_pos _)
      rw [show startOf (s.listing base bytes) 0 = 0 from rfl, List.drop_zero] at hhere
      exact decodeOne_congr hmodel (UInt64.add_zero base ▸ hhere)
    -- What the listing of the rest comes to is what this one comes to after its first line.
    have hrest := ih fun index hindex => by
      have hthere := h (index + 1) (by rw [hlisting]; exact Nat.succ_lt_succ hindex)
      rwa [hlisting, startOf_cons, UInt64.ofNat_add, ← UInt64.add_assoc, ← List.drop_drop] at hthere
    rw [hlisting, listing_of_ne_nil hne, hfirst, hrest]

/-- A listing tells no more of a decoder than its answers that count: another decoder for the same model that answers
    alike at each place where the listing comes, whatever it says elsewhere, has the same listing. At each of these
    places the line is the answer, if one counts, with the white space in front of it left out; otherwise it takes the
    length of the shortest instruction, or what is left, and lists these octets one by one. -/
theorem listing_by_answers (s : Session) (base : UInt64) (bytes : Bytes) :
    let lines := s.listing base bytes
    let addrOf := fun index => base + UInt64.ofNat (startOf lines index)
    let leftAt := fun index => bytes.drop (startOf lines index)
    (∀ t : Session, t.model = s.model →
      (∀ index < lines.length, AnswersAlike s t (addrOf index) (leftAt index)) → t.listing base bytes = lines) ∧
    ∀ index line, lines[index]? = some line →
      line.addr = addrOf index ∧
      (∀ d, s.Answers (addrOf index) (leftAt index) d →
        line.length = d.length ∧ line.text.toList = Text.trimStart d.text.toList) ∧
      ((∀ d, ¬s.Answers (addrOf index) (leftAt index) d) →
        line.length = min (max s.model.minLength 1) (leftAt index).length ∧
        ListsOctets line.text ((leftAt index).take line.length)) := by
  intro lines addrOf leftAt
  refine ⟨fun t hmodel halike => listing_congr hmodel halike, fun index line hline => ?_⟩
  obtain ⟨-, hend, hdecoded⟩ := getElem?_listing hline
  have hlineAt : s.LineAt (addrOf index) (leftAt index) line := hdecoded ▸ s.lineAt_decodeOne _ _
  have hne : leftAt index ≠ [] := by
    have hpos := length_pos_of_mem_listing (List.mem_of_getElem? hline)
    have hend : startOf lines index + line.length ≤ bytes.length := hend
    rw [Ne, List.drop_eq_nil_iff]
    omega
  have haddr : line.addr = addrOf index := by rw [hdecoded, addr_decodeOne]
  exact ⟨haddr, fun d hd => hlineAt.of_answers hd, fun hnone => hlineAt.of_none hnone hne⟩

/-- A decoder that gives no answer but one. -/
def terse : Session where
  family := ⟨"X"⟩
  cpu := ""
  model := ⟨⟨"X"⟩, [], "", 2, 4, 1⟩
  decoder _ bytes := if bytes.head? = some 0x01 then some ⟨"one", 3⟩ else none

/-- A decoder with answers of no octets, of too many, and where no listing comes. -/
def wordy : Session :=
  { terse with
    decoder := fun _ bytes =>
      match bytes.head? with
      | some 0x01 => some ⟨" one", 3⟩
      | some 0x02 => some ⟨"none", 0⟩
      | some 0x03 => some ⟨"inside", 1⟩
      | some 0x05 => some ⟨"beyond", 9⟩
      | _ => none }

theorem wordy_like_terse :
    let octets : Bytes := [0x01, 0x03, 0x03, 0x02, 0x04, 0x05]
    let base : UInt64 := 0xffffffffffffffff
    let lines : List Line := [⟨base, 3, "one"⟩, ⟨2, 2, ".byte 0x02, 0x04"⟩, ⟨4, 1, ".byte 0x05"⟩]
    wordy.model = terse.model ∧ terse.listing base octets = lines ∧
    (∀ index < lines.length,
      AnswersAlike terse wordy (base + UInt64.ofNat (startOf lines index)) (octets.drop (startOf lines index))) ∧
    wordy.listing base octets = lines ∧
    (wordy.Answers base octets ⟨" one", 3⟩ ∧ "one".toList = Text.trimStart " one".toList) ∧
    (∀ d, ¬wordy.Answers 2 [0x02, 0x04, 0x05] d) ∧ 2 = min (max 2 1) 3 ∧ ListsOctets ".byte 0x02, 0x04" [0x02, 0x04] := by
  intro octets base lines
  have hlines : terse.listing base octets = lines := by decide +kernel
  have halike : ∀ index < lines.length,
      AnswersAlike terse wordy (base + UInt64.ofNat (startOf lines index)) (octets.drop (startOf lines index)) := by
    decide
  have hwordy := (listing_by_answers terse base octets).1 wordy rfl
  simp only [hlines] at hwordy
  have hone : wordy.Answers base octets ⟨" one", 3⟩ := usable?_eq_some_iff.mp (by decide)
  have hnone : ∀ d, ¬wordy.Answers 2 [0x02, 0x04, 0x05] d := usable?_eq_none_iff.mp (by decide)
  have hwords := (listing_by_answers wordy base octets).2
  simp only [hwordy halike] at hwords
  obtain ⟨-, hfirst, -⟩ := hwords 0 _ rfl
  obtain ⟨-, -, hsecond⟩ := hwords 1 _ rfl
  have haddr : base + UInt64.ofNat (startOf lines 1) = 2 := by decide
  rw [haddr] at hsecond
  exact ⟨rfl, hlines, halike, hwordy halike, ⟨hone, (hfirst _ hone).2⟩, hnone, hsecond hnone⟩

end Session

end GpuListing
