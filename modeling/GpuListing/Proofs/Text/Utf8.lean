import GpuListing.Text.Utf8
import Mathlib.Algebra.Group.Nat.Defs

/-! # Texts read back

The octets of a text are read back as the text. The first octet of a character opens it with the range of the
second one, which leaves out just the octets no character goes on with; each further octet adds six bits. -/

namespace GpuListing.Text

section Octets
variable {n : Nat}

theorem toNat_octet (h : n < 256) : (UInt8.ofNat n).toNat = n := UInt8.toNat_ofNat_of_lt h

theorem octet_lt_iff (h : n < 256) (b : UInt8) : UInt8.ofNat n < b ↔ n < b.toNat := by
  rw [UInt8.lt_iff_toNat_lt, toNat_octet h]

theorem octet_eq_iff (h : n < 256) (b : UInt8) : UInt8.ofNat n = b ↔ n = b.toNat := by
  rw [← UInt8.toNat_inj, toNat_octet h]

theorem octet_add_eq_iff {m k : Nat} (hn : n + k < 256) (hm : m + k < 256) :
    UInt8.ofNat (n + k) = UInt8.ofNat (m + k) ↔ n = m := by
  rw [octet_eq_iff hn, toNat_octet hm, Nat.add_right_cancel_iff]

section Choice
variable {c : Prop} [Decidable c] {x y : UInt8}

theorem toNat_ite_le (hx : c → x.toNat ≤ n) (hy : ¬c → y.toNat ≤ n) : UInt8.toNat (if c then x else y) ≤ n := by
  by_cases hc : c
  · rw [if_pos hc]
    exact hx hc
  · rw [if_neg hc]
    exact hy hc

theorem le_toNat_ite (hx : c → n ≤ x.toNat) (hy : ¬c → n ≤ y.toNat) : n ≤ UInt8.toNat (if c then x else y) := by
  by_cases hc : c
  · rw [if_pos hc]
    exact hx hc
  · rw [if_neg hc]
    exact hy hc

end Choice

/-! ### Octets that follow -/

theorem next_mem {least greatest : UInt8} (hn : n < 64) (hleast : least.toNat ≤ n + 128)
    (hgreatest : n + 128 ≤ greatest.toNat) :
    (least ≤ UInt8.ofNat (n + 128) ∧ UInt8.ofNat (n + 128) ≤ greatest) ∧ (UInt8.ofNat (n + 128)).toNat % 64 = n := by
  have hoctet : (UInt8.ofNat (n + 128)).toNat = n + 128 := toNat_octet (by omega)
  rw [UInt8.le_iff_toNat_le, UInt8.le_iff_toNat_le, hoctet]
  exact ⟨⟨hleast, hgreatest⟩, by omega⟩

/-- The last octet of a character. -/
theorem readings_last {bits : Nat} {least greatest : UInt8} (rest : Bytes) (hn : n < 64)
    (hleast : least.toNat ≤ n + 128) (hgreatest : n + 128 ≤ greatest.toNat) :
    readings (some ⟨bits, least, greatest, 0⟩) (UInt8.ofNat (n + 128) :: rest) =
      some (Char.ofNat (bits * 64 + n)) :: readings none rest := by
  obtain ⟨hrange, hbits⟩ := next_mem hn hleast hgreatest
  simp only [readings, readOctet, if_pos hrange, hbits, List.singleton_append]

/-- An octet that others of the character follow. -/
theorem readings_next {bits more : Nat} {least greatest : UInt8} (rest : Bytes) (hn : n < 64)
    (hleast : least.toNat ≤ n + 128) (hgreatest : n + 128 ≤ greatest.toNat) :
    readings (some ⟨bits, least, greatest, more + 1⟩) (UInt8.ofNat (n + 128) :: rest) =
      readings (some ⟨bits * 64 + n, 0x80, 0xbf, more⟩) rest := by
  obtain ⟨hrange, hbits⟩ := next_mem hn hleast hgreatest
  simp only [readings, readOctet, if_pos hrange, hbits, List.nil_append]

/-! After the second octet the range is the whole one. -/

theorem readings_last_plain {bits : Nat} (rest : Bytes) (hn : n < 64) :
    readings (some ⟨bits, 0x80, 0xbf, 0⟩) (UInt8.ofNat (n + 128) :: rest) =
      some (Char.ofNat (bits * 64 + n)) :: readings none rest :=
  readings_last rest hn (show 128 ≤ _ by omega) (show _ ≤ 191 by omega)

theorem readings_next_plain {bits more : Nat} (rest : Bytes) (hn : n < 64) :
    readings (some ⟨bits, 0x80, 0xbf, more + 1⟩) (UInt8.ofNat (n + 128) :: rest) =
      readings (some ⟨bits * 64 + n, 0x80, 0xbf, more⟩) rest :=
  readings_next rest hn (show 128 ≤ _ by omega) (show _ ≤ 191 by omega)

/-! ### Octets that begin a character -/

theorem readings_opens {b : UInt8} {p : Pending} (h : Lead.of b = .opens p) (rest : Bytes) :
    readings none (b :: rest) = readings (some p) rest := by
  rw [readings, readOctet, readLead, h]
  rfl

theorem readings_one (h : n < 128) (rest : Bytes) :
    readings none (UInt8.ofNat n :: rest) = some (Char.ofNat n) :: readings none rest := by
  have hn : n < 256 := by omega
  have hlead : Lead.of (UInt8.ofNat n) = .whole (Char.ofNat n) := by
    rw [Lead.of, if_pos ((octet_lt_iff hn 0x80).mpr h), toNat_octet hn]
  rw [readings, readOctet, readLead, hlead]
  rfl

theorem lead_two (h : 2 ≤ n) (h' : n < 32) : Lead.of (UInt8.ofNat (n + 192)) = .opens ⟨n, 0x80, 0xbf, 0⟩ := by
  have hn : n + 192 < 256 := by omega
  have hlt := octet_lt_iff hn
  rw [Lead.of, if_neg (mt (hlt 0x80).mp (show ¬n + 192 < 128 by omega)),
    if_neg (mt (hlt 0xc2).mp (show ¬n + 192 < 194 by omega)), if_pos ((hlt 0xe0).mpr (show n + 192 < 224 by omega)),
    toNat_octet hn, Nat.add_sub_cancel]

theorem lead_three (h : n < 16) :
    Lead.of (UInt8.ofNat (n + 224)) =
      .opens ⟨n, if n = 0 then 0xa0 else 0x80, if n = 13 then 0x9f else 0xbf, 1⟩ := by
  have hn : n + 224 < 256 := by omega
  have hlt := octet_lt_iff hn
  have hfirst : UInt8.ofNat (n + 224) = 0xe0 ↔ n = 0 := octet_add_eq_iff hn (by decide)
  have hlast : UInt8.ofNat (n + 224) = 0xed ↔ n = 13 := octet_add_eq_iff hn (by decide)
  rw [Lead.of, if_neg (mt (hlt 0x80).mp (show ¬n + 224 < 128 by omega)),
    if_neg (mt (hlt 0xc2).mp (show ¬n + 224 < 194 by omega)),
    if_neg (mt (hlt 0xe0).mp (show ¬n + 224 < 224 by omega)), if_pos ((hlt 0xf0).mpr (show n + 224 < 240 by omega)),
    toNat_octet hn]
  simp only [hfirst, hlast, Nat.add_sub_cancel]

theorem lead_four (h : n < 5) :
    Lead.of (UInt8.ofNat (n + 240)) =
      .opens ⟨n, if n = 0 then 0x90 else 0x80, if n = 4 then 0x8f else 0xbf, 2⟩ := by
  have hn : n + 240 < 256 := by omega
  have hlt := octet_lt_iff hn
  have hfirst : UInt8.ofNat (n + 240) = 0xf0 ↔ n = 0 := octet_add_eq_iff hn (by decide)
  have hlast : UInt8.ofNat (n + 240) = 0xf4 ↔ n = 4 := octet_add_eq_iff hn (by decide)
  rw [Lead.of, if_neg (mt (hlt 0x80).mp (show ¬n + 240 < 128 by omega)),
    if_neg (mt (hlt 0xc2).mp (show ¬n + 240 < 194 by omega)),
    if_neg (mt (hlt 0xe0).mp (show ¬n + 240 < 224 by omega)),
    if_neg (mt (hlt 0xf0).mp (show ¬n + 240 < 240 by omega)), if_pos ((hlt 0xf5).mpr (show n + 240 < 245 by omega)),
    toNat_octet hn]
  simp only [hfirst, hlast, Nat.add_sub_cancel]

end Octets

/-! ### Characters and texts -/

/-- A code point is no surrogate. -/
theorem toNat_valid (c : Char) : c.val.toNat < 0xd800 ∨ 0xdfff < c.val.toNat ∧ c.val.toNat < 0x110000 := c.valid

theorem readings_two {v : Nat} (h : 127 < v) (h' : v ≤ 2047) (rest : Bytes) :
    readings none (UInt8.ofNat (v / 64 % 32 + 192) :: UInt8.ofNat (v % 64 + 128) :: rest) =
      some (Char.ofNat v) :: readings none rest := by
  have hvalue : v / 64 % 32 * 64 + v % 64 = v := by omega
  rw [readings_opens (lead_two (by omega) (by omega)), readings_last_plain _ (by omega), hvalue]

theorem readings_three {v : Nat} (h : 2047 < v) (h' : v ≤ 65535) (hvalid : v < 0xd800 ∨ 0xdfff < v) (rest : Bytes) :
    readings none
        (UInt8.ofNat (v / 4096 % 16 + 224) :: UInt8.ofNat (v / 64 % 64 + 128) :: UInt8.ofNat (v % 64 + 128) :: rest) =
      some (Char.ofNat v) :: readings none rest := by
  have hvalue : (v / 4096 % 16 * 64 + v / 64 % 64) * 64 + v % 64 = v := by omega
  have hleast : UInt8.toNat (if v / 4096 % 16 = 0 then 0xa0 else 0x80) ≤ v / 64 % 64 + 128 :=
    toNat_ite_le (fun _ => show 160 ≤ _ by omega) fun _ => show 128 ≤ _ by omega
  have hgreatest : v / 64 % 64 + 128 ≤ UInt8.toNat (if v / 4096 % 16 = 13 then 0x9f else 0xbf) :=
    le_toNat_ite (fun _ => show _ ≤ 159 by omega) fun _ => show _ ≤ 191 by omega
  rw [readings_opens (lead_three (by omega)), readings_next _ (by omega) hleast hgreatest,
    readings_last_plain _ (by omega), hvalue]

theorem readings_four {v : Nat} (h : 65535 < v) (h' : v < 0x110000) (rest : Bytes) :
    readings none
        (UInt8.ofNat (v / 262144 % 8 + 240) :: UInt8.ofNat (v / 4096 % 64 + 128) ::
          UInt8.ofNat (v / 64 % 64 + 128) :: UInt8.ofNat (v % 64 + 128) :: rest) =
      some (Char.ofNat v) :: readings none rest := by
  have hvalue : ((v / 262144 % 8 * 64 + v / 4096 % 64) * 64 + v / 64 % 64) * 64 + v % 64 = v := by omega
  have hleast : UInt8.toNat (if v / 262144 % 8 = 0 then 0x90 else 0x80) ≤ v / 4096 % 64 + 128 :=
    toNat_ite_le (fun _ => show 144 ≤ _ by omega) fun _ => show 128 ≤ _ by omega
  have hgreatest : v / 4096 % 64 + 128 ≤ UInt8.toNat (if v / 262144 % 8 = 4 then 0x8f else 0xbf) :=
    le_toNat_ite (fun _ => show _ ≤ 143 by omega) fun _ => show _ ≤ 191 by omega
  rw [readings_opens (lead_four (by omega)), readings_next _ (by omega) hleast hgreatest,
    readings_next_plain _ (by omega), readings_last_plain _ (by omega), hvalue]

theorem readings_char (c : Char) (rest : Bytes) :
    readings none (String.utf8EncodeChar c ++ rest) = some c :: readings none rest := by
  have hvalid := toNat_valid c
  have hc : Char.ofNat c.val.toNat = c := Char.ofNat_toNat c
  unfold String.utf8EncodeChar
  show readings none ((if c.val.toNat ≤ 127 then _ else _) ++ rest) = _
  split
  · next h => exact (readings_one (Nat.lt_succ_of_le h) rest).trans (by rw [hc])
  split
  · next hone h => exact (readings_two (Nat.not_le.mp hone) h rest).trans (by rw [hc])
  split
  · next htwo h => exact (readings_three (Nat.not_le.mp htwo) h (by omega) rest).trans (by rw [hc])
  · next hthree => exact (readings_four (Nat.not_le.mp hthree) (by omega) rest).trans (by rw [hc])

theorem readings_octets_append (text : List Char) (rest : Bytes) :
    readings none (octets text ++ rest) = text.map some ++ readings none rest := by
  induction text with
  | nil => rfl
  | cons c text ih =>
    rw [octets, List.flatMap_cons, List.append_assoc, readings_char, List.map_cons, List.cons_append, ← ih, octets]

theorem readings_octets (text : List Char) : readings none (octets text) = text.map some := by
  have h := readings_octets_append text []
  rwa [List.append_nil, show readings none [] = [] from rfl, List.append_nil] at h

/-- A text is read back from octets that begin with it. -/
theorem decodeLossy_octets_append (text : List Char) (rest : Bytes) :
    decodeLossy (octets text ++ rest) = text ++ decodeLossy rest := by
  rw [decodeLossy, readings_octets_append, List.map_append, List.map_map, decodeLossy]
  exact congrArg (· ++ _) (List.map_id text)

/-- Each text is read back from its octets. -/
theorem decodeLossy_octets (text : List Char) : decodeLossy (octets text) = text := by
  rw [decodeLossy, readings_octets, List.map_map]
  exact List.map_id text

/-- A character takes four octets at most. -/
theorem length_octets_le (text : List Char) : (octets text).length ≤ 4 * text.length := by
  induction text with
  | nil => exact Nat.le_refl 0
  | cons c text ih =>
    have hc := c.utf8Size_le_four
    rw [octets, List.flatMap_cons, ← octets, List.length_append, String.length_utf8EncodeChar, List.length_cons]
    omega

theorem zero_eq_octet {n : Nat} (h : n < 256) (hzero : 0 = UInt8.ofNat n) : n = 0 := (octet_eq_iff h 0).mp hzero.symm

theorem eq_nul_of_zero_mem {c : Char} (h : 0 ∈ String.utf8EncodeChar c) : c = '\x00' := by
  -- Octets after the first one are at least 128, and so is the first one of several.
  have hzero : c.val.toNat = 0 := by
    unfold String.utf8EncodeChar at h
    change 0 ∈ (if c.val.toNat ≤ 127 then _ else _) at h
    split at h
    · exact zero_eq_octet (by omega) (List.mem_singleton.mp h)
    split at h
    · simp only [List.mem_cons, List.not_mem_nil, or_false] at h
      obtain h | h := h <;> cases zero_eq_octet (by omega) h
    split at h
    · simp only [List.mem_cons, List.not_mem_nil, or_false] at h
      obtain h | h | h := h <;> cases zero_eq_octet (by omega) h
    · simp only [List.mem_cons, List.not_mem_nil, or_false] at h
      obtain h | h | h | h := h <;> cases zero_eq_octet (by omega) h
  exact (Char.ofNat_toNat c).symm.trans (congrArg Char.ofNat hzero)

/-- A text without NUL has no octet that is zero. -/
theorem zero_not_mem_octets {text : List Char} (h : '\x00' ∉ text) : 0 ∉ octets text := by
  intro hzero
  obtain ⟨c, hmem, hc⟩ := List.mem_flatMap.mp hzero
  exact h (eq_nul_of_zero_mem hc ▸ hmem)

/-! ### Octets that stand alone -/

/-- Whatever octets it goes on with, the character is beyond ASCII. -/
structure Pending.Beyond (p : Pending) : Prop where
  least : 0x80 ≤ p.least
  greatest : p.greatest ≤ 0xbf
  bits : 128 ≤ (p.bits * 64 + p.least.toNat % 64) * 64 ^ p.more

section Ascii
variable {b : UInt8} {p : Pending} {pending : Option Pending}

theorem beyond_plain {bits more : Nat} (h : 128 ≤ bits * 64 ^ (more + 1)) : Pending.Beyond ⟨bits, 0x80, 0xbf, more⟩ where
  least := UInt8.le_refl 0x80
  greatest := UInt8.le_refl 0xbf
  bits := by
    have hleast : UInt8.toNat 0x80 % 64 = 0 := rfl
    rwa [hleast, Nat.add_zero, Nat.mul_assoc, ← Nat.pow_succ']

/-- Where the first bits of a character are zero, the least octet that may follow makes up for them. -/
theorem beyond_of_opens (h : Lead.of b = .opens p) : p.Beyond := by
  unfold Lead.of at h
  split at h
  · cases h
  split at h
  · cases h
  next hlong =>
  have hlong : 194 ≤ b.toNat := UInt8.not_lt.mp hlong
  split at h
  · obtain rfl := Lead.opens.inj h
    exact beyond_plain (by omega)
  next htwo =>
  have htwo : 224 ≤ b.toNat := UInt8.not_lt.mp htwo
  split at h
  · obtain rfl := Lead.opens.inj h
    by_cases hfirst : b = 0xe0
    · subst hfirst
      exact ⟨by decide, by decide, by decide⟩
    · have hmore : b.toNat ≠ 224 := fun he => hfirst (UInt8.toNat_inj.mp he)
      rw [if_neg hfirst]
      refine ⟨UInt8.le_refl 0x80, ?_, (beyond_plain (by omega)).bits⟩
      dsimp only
      split <;> decide
  next hthree =>
  have hthree : 240 ≤ b.toNat := UInt8.not_lt.mp hthree
  split at h
  · obtain rfl := Lead.opens.inj h
    by_cases hfirst : b = 0xf0
    · subst hfirst
      exact ⟨by decide, by decide, by decide⟩
    · have hmore : b.toNat ≠ 240 := fun he => hfirst (UInt8.toNat_inj.mp he)
      rw [if_neg hfirst]
      refine ⟨UInt8.le_refl 0x80, ?_, (beyond_plain (by omega)).bits⟩
      dsimp only
      split <;> decide
  · cases h

theorem beyond_none : ∀ p ∈ (none : Option Pending), p.Beyond := nofun

theorem beyond_readLead (b : UInt8) : ∀ p ∈ (readLead b).2, p.Beyond := by
  unfold readLead
  split
  · exact nofun
  · next pending hopens =>
    intro p hp
    obtain rfl := Option.some.inj hp
    exact beyond_of_opens hopens
  · exact nofun

theorem Pending.Beyond.next (h : p.Beyond) (hrange : p.least ≤ b ∧ b ≤ p.greatest) :
    128 ≤ (p.bits * 64 + b.toNat % 64) * 64 ^ p.more := by
  have hleast : 128 ≤ p.least.toNat := h.least
  have hgreatest : p.greatest.toNat ≤ 191 := h.greatest
  have hfrom : p.least.toNat ≤ b.toNat := hrange.1
  have hto : b.toNat ≤ p.greatest.toNat := hrange.2
  have hbits : p.bits * 64 + p.least.toNat % 64 ≤ p.bits * 64 + b.toNat % 64 := by omega
  exact Nat.le_trans h.bits (Nat.mul_le_mul_right _ hbits)

/-- No octet of ASCII goes on with a character that an octet leaves unfinished. -/
theorem beyond_readOctet (h : ∀ p ∈ pending, p.Beyond) (b : UInt8) : ∀ p ∈ (readOctet pending b).2, p.Beyond := by
  cases pending with
  | none => exact beyond_readLead b
  | some q =>
    unfold readOctet
    dsimp only
    split
    · next hrange =>
      have hbits := (h q rfl).next hrange
      split
      · exact nofun
      · next more hmore =>
        intro p hp
        obtain rfl := Option.some.inj hp
        rw [hmore] at hbits
        exact beyond_plain hbits
    · exact beyond_readLead b

theorem readings_cons (pending : Option Pending) (b : UInt8) (rest : Bytes) :
    readings pending (b :: rest) = (readOctet pending b).1 ++ readings (readOctet pending b).2 rest := by
  rw [readings]

theorem readings_ascii (hb : b < 0x80) (h : ∀ p ∈ pending, p.Beyond) (rest : Bytes) :
    readings pending (b :: rest) = readings pending [] ++ some (Char.ofNat b.toNat) :: readings none rest := by
  have hlead : readLead b = ([some (Char.ofNat b.toNat)], none) := by rw [readLead, Lead.of, if_pos hb]
  cases pending with
  | none =>
    have hread : readOctet none b = readLead b := rfl
    rw [readings_cons, hread, hlead]
    rfl
  | some p =>
    have hout : ¬(p.least ≤ b ∧ b ≤ p.greatest) := fun hrange =>
      UInt8.not_le.mpr (UInt8.lt_of_lt_of_le hb (h p rfl).least) hrange.1
    have hread : readOctet (some p) b = (none :: (readLead b).1, (readLead b).2) := if_neg hout
    rw [readings_cons, hread, hlead]
    rfl

theorem readings_append_ascii (hb : b < 0x80) (h : ∀ p ∈ pending, p.Beyond) (front rest : Bytes) :
    readings pending (front ++ b :: rest) = readings pending front ++ some (Char.ofNat b.toNat) :: readings none rest := by
  -- On the octets in front: no octet of ASCII goes on with what any of them leaves unfinished.
  induction front generalizing pending with
  | nil => exact readings_ascii hb h rest
  | cons c front ih =>
    rw [List.cons_append, readings_cons, readings_cons, ih (beyond_readOctet h c), List.append_assoc]

/-- What precedes an octet of ASCII and what follows it are read on their own, whatever faults they hold. -/
theorem decodeLossy_append_ascii (hb : b < 0x80) (front rest : Bytes) :
    decodeLossy (front ++ b :: rest) = decodeLossy front ++ Char.ofNat b.toNat :: decodeLossy rest := by
  rw [decodeLossy, readings_append_ascii hb beyond_none, List.map_append, List.map_cons, decodeLossy, decodeLossy]
  rfl

/-! ### Line feeds -/

theorem eq_of_ofNat_eq_feed {n : Nat} (h : Char.ofNat n = '\n') : n = 10 := by
  by_cases hvalid : n.isValidChar
  · rw [Char.ofNat, dif_pos hvalid] at h
    exact congrArg (fun c => c.val.toNat) h
  · rw [Char.ofNat, dif_neg hvalid] at h
    cases h

theorem eq_of_whole {c : Char} (h : Lead.of b = .whole c) : c = Char.ofNat b.toNat := by
  unfold Lead.of at h
  split at h
  · exact (Lead.whole.inj h).symm
  · repeat' split at h
    all_goals cases h

theorem feed_of_mem_readLead (h : some '\n' ∈ (readLead b).1) : b = 0x0a := by
  unfold readLead at h
  split at h
  · next c hwhole =>
    obtain rfl := Option.some.inj (List.mem_singleton.mp h)
    exact UInt8.toNat_inj.mp (eq_of_ofNat_eq_feed (eq_of_whole hwhole).symm)
  · cases h
  · cases List.mem_singleton.mp h

theorem feed_of_mem_readOctet (hpending : ∀ p ∈ pending, p.Beyond) (h : some '\n' ∈ (readOctet pending b).1) :
    b = 0x0a := by
  cases pending with
  | none => exact feed_of_mem_readLead h
  | some q =>
    unfold readOctet at h
    dsimp only at h
    split at h
    · next hrange =>
      have hbits := (hpending q rfl).next hrange
      split at h
      · next hmore =>
        have hfeed := eq_of_ofNat_eq_feed (Option.some.inj (List.mem_singleton.mp h)).symm
        rw [hmore, hfeed] at hbits
        exact absurd hbits (by decide)
      · cases h
    · obtain hfault | h := List.mem_cons.mp h
      · cases hfault
      · exact feed_of_mem_readLead h

theorem feed_mem_of_mem_readings {bytes : Bytes} (hpending : ∀ p ∈ pending, p.Beyond)
    (h : some '\n' ∈ readings pending bytes) : 0x0a ∈ bytes := by
  induction bytes generalizing pending with
  | nil =>
    cases pending with
    | none => cases h
    | some p => cases List.mem_singleton.mp h
  | cons b bytes ih =>
    rw [readings_cons] at h
    obtain h | h := List.mem_append.mp h
    · exact feed_of_mem_readOctet hpending h ▸ List.mem_cons_self
    · exact List.mem_cons_of_mem b (ih (beyond_readOctet hpending b) h)

/-- A line feed is read from a line feed only, whatever faults the octets hold. -/
theorem feed_not_mem_decodeLossy {bytes : Bytes} (h : 0x0a ∉ bytes) : '\n' ∉ decodeLossy bytes := by
  intro hmem
  obtain ⟨reading, hreading, hc⟩ := List.mem_map.mp hmem
  cases reading with
  | none => cases hc
  | some c =>
    obtain rfl : c = '\n' := hc
    exact h (feed_mem_of_mem_readings beyond_none hreading)

end Ascii

end GpuListing.Text
