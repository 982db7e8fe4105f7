import GpuListing.CodeObject.Guarded
import GpuListing.Proofs.CodeObject.Exact

/-! # No fault

Reading a file by words comes to what reading it at exact positions comes to, and no fault cuts it off. The sums
that are tested may leave the words, but then the exact sum lies outside of the file as well; those that are not
tested lie inside, since a length that fits below 2^63 has been compared before. -/

namespace GpuListing.Guarded

/-! ### Readings without faults -/

section Readings
variable {α β : Type}

theorem ofExcept_mapM {f : α → Guarded β} {g : α → Except CodeObjectError β} {list : List α}
    (h : ∀ a ∈ list, f a = ofExcept (g a)) : list.mapM f = ofExcept (list.mapM g) := by
  induction list with
  | nil => rfl
  | cons a rest ih =>
    have hrest := ih fun a ha => h a (List.mem_cons_of_mem _ ha)
    rw [List.mapM_cons, List.mapM_cons, h a List.mem_cons_self, hrest]
    cases g a with
    | error e => rfl
    | ok b => cases rest.mapM g <;> rfl

end Readings

/-! ### Words -/

/-- The length that a file stays below. -/
def longest : Nat := Nat.pow 2 63

theorem toNat_ofNat {n : Nat} (h : n < UInt64.size) : (UInt64.ofNat n).toNat = n := UInt64.toNat_ofNat_of_lt h

theorem toNat_add {a b : UInt64} (h : a.toNat + b.toNat < UInt64.size) : (a + b).toNat = a.toNat + b.toNat := by
  rw [UInt64.toNat_add, Nat.mod_eq_of_lt h]

theorem add_eq {a b : UInt64} (h : a.toNat + b.toNat < UInt64.size) : add a b = pure (a + b) := by
  rw [add, add?, if_pos h]

theorem add?_ofNat {m n : Nat} (hm : m < UInt64.size) (hn : n < UInt64.size) :
    add? (UInt64.ofNat m) (UInt64.ofNat n) = if m + n < UInt64.size then some (UInt64.ofNat (m + n)) else none := by
  rw [add?, toNat_ofNat hm, toNat_ofNat hn, UInt64.ofNat_add]

theorem mul?_ofNat {m n : Nat} (hm : m < UInt64.size) (hn : n < UInt64.size) :
    mul? (UInt64.ofNat m) (UInt64.ofNat n) = if m * n < UInt64.size then some (UInt64.ofNat (m * n)) else none := by
  rw [mul?, toNat_ofNat hm, toNat_ofNat hn, UInt64.ofNat_mul]

/-- A sum up to the greatest word is no greater than a length if and only if the exact sum is not. -/
theorem addUpTo_le_iff {m n length : Nat} (hm : m < UInt64.size) (hn : n < UInt64.size) (h : length < longest) :
    addUpTo (UInt64.ofNat m) (UInt64.ofNat n) ≤ UInt64.ofNat length ↔ m + n ≤ length := by
  have hlength : (UInt64.ofNat length).toNat = length := toNat_ofNat (Nat.lt_trans h (by decide))
  rw [UInt64.le_iff_toNat_le, hlength, addUpTo, add?_ofNat hm hn]
  split
  · next hsum => rw [Option.getD_some, toNat_ofNat hsum]
  · next hsum =>
    have hgreatest : (UInt64.ofNat (UInt64.size - 1)).toNat = UInt64.size - 1 := by decide
    have hsize : longest < UInt64.size - 1 := by decide
    rw [Option.getD_none]
    omega

/-! ### Octets -/

theorem range?_eq_some {file : Bytes} {start stop : UInt64} (h : start.toNat ≤ stop.toNat)
    (hstop : stop.toNat ≤ file.length) :
    range? file start stop = some (file.slice start.toNat (stop.toNat - start.toNat)) :=
  if_pos ⟨UInt64.le_iff_toNat_le.mpr h, hstop⟩

theorem octetAt_eq {file : Bytes} {position : UInt64} (h : position.toNat < file.length) :
    octetAt file position = pure file[position.toNat] := by
  rw [octetAt, List.getElem?_eq_getElem h]

theorem numberAt_two {file : Bytes} {start : Nat} (h : start + 1 < file.length) :
    file.numberAt start 2 = Bytes.number [file[start], file[start + 1]] := by
  rw [Bytes.numberAt, Bytes.slice, List.drop_eq_getElem_cons (by omega), List.drop_eq_getElem_cons (by omega)]
  rfl

section Octets
variable {file : Bytes} (short : file.length < longest)
include short

theorem numberAt_eq {start width : UInt64} (h : start.toNat + width.toNat ≤ file.length) :
    numberAt file start width = pure (file.numberAt start.toNat width.toNat) := by
  have hsize : longest < UInt64.size := by decide
  have hsum : start.toNat + width.toNat < UInt64.size := by omega
  have hstop := toNat_add hsum
  rw [numberAt, add_eq hsum, pure_bind, range, range?_eq_some (by omega) (by omega), hstop,
    Nat.add_sub_cancel_left]
  rfl

theorem pairAt_eq {start : UInt64} (h : start.toNat + 2 ≤ file.length) :
    pairAt file start = pure (file.numberAt start.toNat 2) := by
  have hsize : longest < UInt64.size := by decide
  have hone : (1 : UInt64).toNat = 1 := rfl
  have hsum : start.toNat + (1 : UInt64).toNat < UInt64.size := by omega
  have hnext : (start + 1).toNat = start.toNat + 1 := toNat_add hsum
  rw [pairAt, octetAt_eq (by omega), pure_bind, add_eq hsum, pure_bind, octetAt_eq (by omega), pure_bind,
    numberAt_two (by omega)]
  simp only [hnext]

/-- A number at a distance from a position is read without a fault, if it ends inside the file. -/
theorem add_numberAt_eq {α : Type} {start distance width : UInt64}
    (h : start.toNat + distance.toNat + width.toNat ≤ file.length) (next : Nat → Guarded α) :
    (add start distance >>= fun position => numberAt file position width >>= next) =
      next (file.numberAt (start.toNat + distance.toNat) width.toNat) := by
  have hsize : longest < UInt64.size := by decide
  have hsum : start.toNat + distance.toNat < UInt64.size := by omega
  have hposition := toNat_add hsum
  rw [add_eq hsum, pure_bind, numberAt_eq short (by omega), pure_bind, hposition]

theorem headerAt_eq {start : UInt64} (h : start.toNat + SectionHeader.size ≤ file.length) :
    headerAt file start = pure (SectionHeader.readAt file start.toNat) := by
  have hsize : SectionHeader.size = 64 := rfl
  have hfits : ∀ distance width : UInt64, distance.toNat + width.toNat ≤ 64 →
      start.toNat + distance.toNat + width.toNat ≤ file.length := by
    intro distance width hd
    omega
  rw [headerAt, numberAt_eq short (hfits 0 4 (by decide)), pure_bind,
    add_numberAt_eq short (hfits 4 4 (by decide)), add_numberAt_eq short (hfits 16 8 (by decide)),
    add_numberAt_eq short (hfits 24 8 (by decide)), add_numberAt_eq short (hfits 32 8 (by decide))]
  rfl

end Octets

/-! ### Code objects -/

section CodeObjects
variable {file : Bytes} (short : file.length < longest)
include short

theorem entryAt?_eq {table : CodeObject.SectionTable} (hstart : table.start < UInt64.size)
    (hentry : table.entrySize < UInt16.size) {index : Nat} (hindex : index < UInt16.size) :
    entryAt? file table index =
      if table.start + index * table.entrySize + SectionHeader.size ≤ file.length then
        some (UInt64.ofNat (table.start + index * table.entrySize))
      else none := by
  have hwide : UInt16.size * UInt16.size < UInt64.size := by decide
  have hsmall : UInt16.size < UInt64.size := by decide
  have hproduct : table.entrySize * index < UInt64.size := Nat.lt_trans (Nat.mul_lt_mul'' hentry hindex) hwide
  have hexact : table.entrySize * index + table.start = table.start + index * table.entrySize := by
    rw [Nat.add_comm, Nat.mul_comm]
  rw [entryAt?, mul?_ofNat (by omega) (by omega), if_pos hproduct, Option.bind_some, add?_ofNat hproduct hstart,
    hexact]
  by_cases hsum : table.start + index * table.entrySize < UInt64.size
  · have hle : addUpTo (UInt64.ofNat (table.start + index * table.entrySize)) 64 ≤ UInt64.ofNat file.length ↔
        table.start + index * table.entrySize + SectionHeader.size ≤ file.length :=
      addUpTo_le_iff (n := 64) hsum (by decide) short
    rw [if_pos hsum, Option.filter_some]
    simp only [decide_eq_true_eq, hle]
  · have hsize : longest < UInt64.size := by decide
    rw [if_neg hsum, if_neg (by omega)]
    rfl

theorem headers_eq {table : CodeObject.SectionTable} (hstart : table.start < UInt64.size)
    (hentry : table.entrySize < UInt16.size) (hcount : table.count < UInt16.size) :
    headers file table = ofExcept (table.headers file) := by
  refine ofExcept_mapM fun index hindex => ?_
  have hi : index < UInt16.size := Nat.lt_trans (List.mem_range.mp hindex) hcount
  rw [entryAt?_eq short hstart hentry hi]
  by_cases hfits : table.start + index * table.entrySize + SectionHeader.size ≤ file.length
  · have hsize : longest < UInt64.size := by decide
    have hposition : (UInt64.ofNat (table.start + index * table.entrySize)).toNat =
        table.start + index * table.entrySize := toNat_ofNat (by omega)
    simp only [if_pos hfits]
    rw [headerAt_eq short (by rwa [hposition]), hposition]
    rfl
  · simp only [if_neg hfits]
    rfl

theorem stored?_eq {header : SectionHeader} (hstart : header.start < UInt64.size)
    (hlength : header.length < UInt64.size) :
    stored? file header =
      if header.start + header.length ≤ file.length then some (file.slice header.start header.length) else none := by
  have hsize : longest < UInt64.size := by decide
  have hs : (UInt64.ofNat header.start).toNat = header.start := toNat_ofNat hstart
  rw [stored?, add?_ofNat hstart hlength]
  by_cases hsum : header.start + header.length < UInt64.size
  · have hstop : (UInt64.ofNat (header.start + header.length)).toNat = header.start + header.length :=
      toNat_ofNat hsum
    rw [if_pos hsum, Option.bind_some]
    by_cases hfits : header.start + header.length ≤ file.length
    · rw [range?_eq_some (by omega) (by omega), hstop, hs, Nat.add_sub_cancel_left, if_pos hfits]
    · rw [range?, if_neg (by omega), if_neg hfits]
  · rw [if_neg hsum, if_neg (by omega)]
    rfl

theorem data_eq {header : SectionHeader} (hstart : header.start < UInt64.size)
    (hlength : header.length < UInt64.size) : data file header = ofExcept (header.data file) := by
  rw [data, SectionHeader.data, stored?_eq short hstart hlength]
  by_cases hkind : header.kind = SectionHeader.withoutData
  · rw [if_pos hkind, if_pos hkind]
    rfl
  · rw [if_neg hkind, if_neg hkind]
    by_cases hfits : header.start + header.length ≤ file.length
    · rw [if_pos hfits, if_pos hfits]
      rfl
    · rw [if_neg hfits, if_neg hfits]
      rfl

end CodeObjects

theorem nameAt_eq {names : Bytes} (short : names.length < longest) {start : Nat} (hstart : start < UInt64.size) :
    nameAt names (UInt64.ofNat start) = pure (GpuListing.nameAt names start) := by
  have hsize : longest < UInt64.size := by decide
  have hs : (UInt64.ofNat start).toNat = start := toNat_ofNat hstart
  have hl : (UInt64.ofNat names.length).toNat = names.length := toNat_ofNat (by omega)
  unfold nameAt GpuListing.nameAt
  by_cases hinside : start ≤ names.length
  · have hslice : names.slice start (names.length - start) = names.drop start := by
      rw [Bytes.slice, List.take_of_length_le (by simp)]
    rw [range?_eq_some (by omega) (by omega), hs, hl, hslice]
    have hfind : (names.drop start).findIdx (· = 0) ≤ (names.drop start).length := List.findIdx_le_length
    have hdrop : (names.drop start).length ≤ names.length := by simp
    have hf : (UInt64.ofNat ((names.drop start).findIdx (· = 0))).toNat = (names.drop start).findIdx (· = 0) :=
      toNat_ofNat (by omega)
    have htake : (names.drop start).takeWhile (· ≠ 0) =
        (names.drop start).take ((names.drop start).findIdx (· = 0)) := by
      rw [List.takeWhile_eq_take_findIdx_not]
      simp
    simp only [range]
    rw [range?_eq_some (Nat.zero_le _) (by omega), hf, htake]
    rfl
  · have houtside : range? names (UInt64.ofNat start) (UInt64.ofNat names.length) = none := by
      refine if_neg ?_
      rw [UInt64.le_iff_toNat_le]
      omega
    rw [houtside, List.drop_eq_nil_of_le (by omega)]
    rfl

/-- The fields of a header are words. -/
structure Fields (header : SectionHeader) : Prop where
  nameStart : header.nameStart < UInt64.size
  start : header.start < UInt64.size
  length : header.length < UInt64.size

theorem fields_readAt (file : Bytes) (start : Nat) : Fields (SectionHeader.readAt file start) where
  nameStart := Nat.lt_trans (Bytes.numberAt_lt _ _ _) (by decide)
  start := Bytes.numberAt_lt _ _ _
  length := Bytes.numberAt_lt _ _ _

theorem fields_entries {file : Bytes} {table : CodeObject.SectionTable} :
    ∀ header ∈ table.entries file, Fields header := by
  intro header hmem
  obtain ⟨index, -, rfl⟩ := List.mem_map.mp hmem
  exact fields_readAt _ _

theorem length_le_of_data {file octets : Bytes} {header : SectionHeader} (h : header.data file = .ok octets) :
    octets.length ≤ file.length := by
  rw [SectionHeader.data_eq_ite] at h
  split at h
  · obtain rfl := Except.ok.inj h
    unfold SectionHeader.content
    split
    · exact Nat.zero_le _
    · rw [Bytes.slice, List.length_take, List.length_drop]
      omega
  · cases h

theorem length_le_of_names {file octets : Bytes} {headers : List SectionHeader} {index : Nat}
    (h : CodeObject.names file headers index = .ok octets) : octets.length ≤ file.length := by
  unfold CodeObject.names at h
  split at h
  · obtain rfl := Except.ok.inj h
    exact Nat.zero_le _
  · exact length_le_of_data h

section Files
variable {file : Bytes} (short : file.length < longest)
include short

theorem names_eq {headers : List SectionHeader} (hfields : ∀ header ∈ headers, Fields header) (index : Nat) :
    names file headers index = ofExcept (CodeObject.names file headers index) := by
  unfold names CodeObject.names
  cases hi : headers[index]? with
  | none => rfl
  | some header =>
    have hheader := hfields header (List.mem_of_getElem? hi)
    exact data_eq short hheader.start hheader.length

theorem sections_eq {table : CodeObject.SectionTable} (hstart : table.start < UInt64.size)
    (hentry : table.entrySize < UInt16.size) (hcount : table.count < UInt16.size) :
    sections file table = ofExcept (CodeObject.readSections file table) := by
  rw [sections, headers_eq short hstart hentry hcount, CodeObject.readSections, table.headers_eq_ite]
  split
  · show (names file (table.entries file) table.namesIndex >>= _) =
      ofExcept (CodeObject.names file (table.entries file) table.namesIndex >>= _)
    rw [names_eq short fields_entries]
    cases hn : CodeObject.names file (table.entries file) table.namesIndex with
    | error e => rfl
    | ok octets =>
      have hshort : octets.length < longest := Nat.lt_of_le_of_lt (length_le_of_names hn) short
      refine ofExcept_mapM fun header hmem => ?_
      have hheader := fields_entries header hmem
      rw [nameAt_eq hshort hheader.nameStart, data_eq short hheader.start hheader.length]
      cases header.data file <;> rfl
  · rfl

theorem length_lt_iff (n : UInt64) : UInt64.ofNat file.length < n ↔ file.length < n.toNat := by
  have hsize : longest < UInt64.size := by decide
  rw [UInt64.lt_iff_toNat_lt, toNat_ofNat (by omega)]

theorem afterIdent_eq (hlong : CodeObject.headerSize ≤ file.length) :
    afterIdent file = ofExcept (
      if (CodeObject.SectionTable.read file).count = 0 then .ok ⟨UInt16.ofNat (file.numberAt 0x12 2), []⟩
      else if (CodeObject.SectionTable.read file).entrySize < SectionHeader.size then
        .error (.truncated .sectionEntry)
      else (CodeObject.readSections file (.read file)).map (CodeObject.mk (UInt16.ofNat (file.numberAt 0x12 2)))) := by
  have hfits : ∀ position width : UInt64, position.toNat + width.toNat ≤ 64 →
      position.toNat + width.toNat ≤ file.length := fun _ _ h => Nat.le_trans h hlong
  rw [afterIdent, pairAt_eq short (hfits 0x12 2 (by decide)), pure_bind,
    numberAt_eq short (hfits 0x28 8 (by decide)), pure_bind, pairAt_eq short (hfits 0x3a 2 (by decide)), pure_bind,
    pairAt_eq short (hfits 0x3c 2 (by decide)), pure_bind, pairAt_eq short (hfits 0x3e 2 (by decide)), pure_bind,
    sections_eq short (Bytes.numberAt_lt _ _ _) (Bytes.numberAt_lt _ _ _) (Bytes.numberAt_lt _ _ _)]
  let table := CodeObject.SectionTable.read file
  let object := CodeObject.mk (UInt16.ofNat (file.numberAt 0x12 2))
  show (if table.count = 0 then pure (object [])
      else if table.entrySize < SectionHeader.size then throw (.truncated .sectionEntry)
      else ofExcept (CodeObject.readSections file table) >>= fun sections => pure (object sections)) =
    ofExcept (if table.count = 0 then .ok (object [])
      else if table.entrySize < SectionHeader.size then .error (.truncated .sectionEntry)
      else (CodeObject.readSections file table).map object)
  split
  · rfl
  · split
    · rfl
    · cases CodeObject.readSections file table <;> rfl

theorem afterMagic_eq (hmagic : file.take 4 = CodeObject.magic) :
    afterMagic file = ofExcept (CodeObject.parse file) := by
  have hlt : UInt64.ofNat file.length < 64 ↔ file.length < CodeObject.headerSize := length_lt_iff short 64
  rw [afterMagic, CodeObject.parse, if_neg (not_not_intro hmagic)]
  by_cases hlong : file.length < CodeObject.headerSize
  · rw [if_pos (hlt.mpr hlong), if_pos hlong]
    rfl
  rw [if_neg (fun h => hlong (hlt.mp h)), if_neg hlong, afterIdent_eq short (Nat.not_lt.mp hlong)]
  have hclass : 4 < file.length := Nat.lt_of_lt_of_le (by decide) (Nat.not_lt.mp hlong)
  have horder : 5 < file.length := Nat.lt_of_lt_of_le (by decide) (Nat.not_lt.mp hlong)
  have hfour : octetAt file 4 = pure file[4] := octetAt_eq (show (4 : UInt64).toNat < file.length from hclass)
  have hfive : octetAt file 5 = pure file[5] := octetAt_eq (show (5 : UInt64).toNat < file.length from horder)
  have hc : file[4] ≠ 2 ↔ file.numberAt 4 1 ≠ 2 := Bytes.octet_ne_iff hclass 2
  have ho : file[5] ≠ 1 ↔ file.numberAt 5 1 ≠ 1 := Bytes.octet_ne_iff horder 1
  rw [hfour, hfive, pure_bind, pure_bind]
  by_cases hwidth : file[4] ≠ 2
  · rw [if_pos hwidth, if_pos (.inl (hc.mp hwidth))]
    rfl
  rw [if_neg hwidth]
  by_cases hlow : file[5] ≠ 1
  · rw [if_pos hlow, if_pos (.inr (ho.mp hlow))]
    rfl
  rw [if_neg hlow, if_neg (not_or.mpr ⟨mt hc.mpr hwidth, mt ho.mpr hlow⟩)]

theorem parse_eq : parse file = ofExcept (CodeObject.parse file) := by
  have hlt : UInt64.ofNat file.length < 4 ↔ file.length < 4 := length_lt_iff short 4
  rw [parse]
  by_cases hfour : file.length < 4
  · have hmagic : file.take 4 ≠ CodeObject.magic := fun h =>
      Nat.not_lt.mpr (CodeObject.four_le_of_magic h) hfour
    rw [if_pos (hlt.mpr hfour), CodeObject.parse, if_pos hmagic]
    rfl
  · rw [if_neg (fun h => hfour (hlt.mp h)), range, range?_eq_some (Nat.zero_le _) (Nat.not_lt.mp hfour)]
    show (if file.take 4 ≠ CodeObject.magic then throw .notElf else afterMagic file) = _
    by_cases hmagic : file.take 4 = CodeObject.magic
    · rw [if_neg (not_not_intro hmagic), afterMagic_eq short hmagic]
    · rw [if_pos hmagic, CodeObject.parse, if_pos hmagic]
      rfl

end Files

end GpuListing.Guarded
