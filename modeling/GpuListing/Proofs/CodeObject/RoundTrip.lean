import GpuListing.KernelArgs.Layout
import GpuListing.Proofs.CodeObject.Pieces
import GpuListing.Proofs.CodeObject.Reading
import GpuListing.Proofs.Text.Utf8

/-! # Files read back

The file that is made of sections is read as these sections, between the one without a name and the one of the
names. The headers are written with two positions that run along the names and along the octets of the
sections; reading goes back to the same positions, whatever the names are. -/

namespace GpuListing.CodeObject

/-! ### One section -/

section OneSection
variable {file names : Bytes} {nameStart start : Nat}

theorem nameAt_terminated {name : String} (h : names.HoldsAt nameStart (terminated name))
    (hnul : '\x00' ∉ name.toList) : nameAt names nameStart = name := by
  obtain ⟨rest, hdrop⟩ := h.drop_eq
  have hkept : ∀ b ∈ Text.octets name.toList, decide (b ≠ 0) = true := by
    intro b hb
    exact decide_eq_true fun hzero => Text.zero_not_mem_octets hnul (hzero ▸ hb)
  have htake : (names.drop nameStart).takeWhile (· ≠ 0) = Text.octets name.toList := by
    rw [hdrop, terminated, List.append_assoc, List.takeWhile_append_of_pos hkept]
    exact List.append_nil _
  rw [nameAt, htake, Text.decodeLossy_octets, String.ofList_toList]

/-- The header of a section whose name and whose octets begin at two positions. -/
def headerAt (nameStart start : Nat) (s : Section) : SectionHeader :=
  ⟨nameStart, withData, s.addr.toNat, start, s.data.length⟩

variable {s : Section}

theorem sectionOf_headerAt (hname : names.HoldsAt nameStart (terminated s.name)) (hnul : '\x00' ∉ s.name.toList)
    (hdata : file.HoldsAt start s.data) : sectionOf file names (headerAt nameStart start s) = s := by
  have hcontent : (headerAt nameStart start s).content file = s.data := hdata.slice_eq
  rw [sectionOf, hcontent]
  show Section.mk (nameAt names nameStart) (UInt64.ofNat s.addr.toNat) s.data = s
  rw [nameAt_terminated hname hnul, UInt64.ofNat_toNat]

end OneSection

/-! ### The sections one after another -/

/-- The names of the sections stand one after another among the names, and their octets in the file. -/
structure Placed (file names : Bytes) (nameStart start : Nat) (sections : List Section) : Prop where
  names : names.HoldsAt nameStart ((sections.map Section.name).flatMap terminated)
  data : file.HoldsAt start (sections.flatMap Section.data)

section Placed
variable {file names : Bytes} {nameStart start : Nat} {s : Section} {sections : List Section}

theorem Placed.head (h : Placed file names nameStart start (s :: sections)) :
    names.HoldsAt nameStart (terminated s.name) ∧ file.HoldsAt start s.data :=
  ⟨h.names.left, h.data.left⟩

theorem Placed.tail (h : Placed file names nameStart start (s :: sections)) :
    Placed file names (nameStart + (terminated s.name).length) (start + s.data.length) sections :=
  ⟨h.names.right, h.data.right⟩

theorem headersFrom_cons (nameStart start : Nat) (s : Section) (sections : List Section) :
    (headersFrom nameStart start (s :: sections)).1 = headerAt nameStart start s ::
      (headersFrom (nameStart + (terminated s.name).length) (start + s.data.length) sections).1 := rfl

theorem Placed.map_sectionOf (h : Placed file names nameStart start sections)
    (hnul : ∀ s ∈ sections, '\x00' ∉ s.name.toList) :
    (headersFrom nameStart start sections).1.map (sectionOf file names) = sections := by
  induction sections generalizing nameStart start with
  | nil => rfl
  | cons s sections ih =>
    obtain ⟨hname, hdata⟩ := h.head
    rw [headersFrom_cons, List.map_cons, sectionOf_headerAt hname (hnul s List.mem_cons_self) hdata,
      ih h.tail fun s hs => hnul s (List.mem_cons_of_mem _ hs)]

theorem Placed.inside (h : Placed file names nameStart start sections) :
    ∀ header ∈ (headersFrom nameStart start sections).1, header.Inside file := by
  induction sections generalizing nameStart start with
  | nil => intro header hmem; cases hmem
  | cons s sections ih =>
    rw [headersFrom_cons, List.forall_mem_cons]
    exact ⟨.inr h.head.2.le, ih h.tail⟩

theorem Placed.fits (h : Placed file names nameStart start sections)
    (hnames : nameStart + ((sections.map Section.name).flatMap terminated).length < Nat.pow 256 4)
    (hfile : file.length < Nat.pow 256 8) : ∀ header ∈ (headersFrom nameStart start sections).1, header.Fits := by
  induction sections generalizing nameStart start with
  | nil => intro header hmem; cases hmem
  | cons s sections ih =>
    rw [List.map_cons, List.flatMap_cons, List.length_append] at hnames
    rw [headersFrom_cons, List.forall_mem_cons]
    have hname : nameStart < Nat.pow 256 4 := by omega
    exact ⟨.of_holdsAt hname (by decide) s.addr.toNat_lt h.head.2 hfile, ih h.tail (by omega)⟩

theorem headersFrom_last (nameStart start : Nat) (sections : List Section) :
    (headersFrom nameStart start sections).2 =
      (nameStart + ((sections.map Section.name).flatMap terminated).length,
        start + (sections.flatMap Section.data).length) := by
  induction sections generalizing nameStart start with
  | nil => rfl
  | cons s sections ih =>
    show (headersFrom (nameStart + (terminated s.name).length) (start + s.data.length) sections).2 = _
    simp only [ih, List.map_cons, List.flatMap_cons, List.length_append, Nat.add_assoc]

end Placed

/-! ### The file header -/

section Begins
variable {file : Bytes} {machine : UInt16} {start count : Nat} (h : Begins file machine.toNat start count)
include h

theorem Begins.opens : Opens file := by
  refine ⟨isElf_iff.mpr h.magic, h.long, (isSupported_iff h.long).mpr ?_⟩
  rintro (hwidth | horder)
  · exact hwidth h.width
  · exact horder h.order

theorem Begins.sectionCount_eq : sectionCount file = count := congrArg SectionTable.count h.table

theorem Begins.entrySize_eq : entrySize file = SectionHeader.size := congrArg SectionTable.entrySize h.table

theorem Begins.entryStart_eq (index : Nat) : entryStart file index = start + index * SectionHeader.size :=
  congrArg (fun table : SectionTable => table.start + index * table.entrySize) h.table

theorem Begins.namesIndex_eq : (SectionTable.read file).namesIndex = count - 1 :=
  congrArg SectionTable.namesIndex h.table

theorem Begins.described_eq {sections : List Section} (hsections : (described file).sections = sections) :
    described file = ⟨machine, sections⟩ := by
  rw [← hsections, described, h.machine, UInt16.ofNat_toNat]

end Begins

/-! ### The whole file -/

/-- Where the section headers of a file begin. -/
def tableStart (sections : List Section) : Nat :=
  headerSize + (imageBody sections).length + padding (headerSize + (imageBody sections).length)

section Image
variable {machine : UInt16} {sections : List Section}

theorem holdsAt_header :
    (image machine sections).HoldsAt 0 (headerOctets machine (tableStart sections) (sections.length + 2)) :=
  (Bytes.HoldsAt.whole (image machine sections)).left.left.left

theorem holdsAt_body : (image machine sections).HoldsAt headerSize (imageBody sections) := by
  have h := (Bytes.HoldsAt.whole (image machine sections)).left.left.right
  rwa [length_headerOctets, Nat.zero_add] at h

theorem holdsAt_table :
    (image machine sections).HoldsAt (tableStart sections)
      ((imageHeaders sections).flatMap SectionHeader.octets) := by
  have h := (Bytes.HoldsAt.whole (image machine sections)).right
  rw [tableStart]
  simpa only [List.length_append, length_headerOctets, Bytes.zeros, List.length_replicate, Nat.zero_add] using h

theorem padding_lt (length : Nat) : padding length < 8 := Nat.mod_lt _ (by decide)

/-- The table of section headers is the end of the file. -/
theorem length_image (machine : UInt16) (sections : List Section) :
    (image machine sections).length = tableStart sections + (sections.length + 2) * SectionHeader.size := by
  have htable : ((imageHeaders sections).flatMap SectionHeader.octets).length =
      (sections.length + 2) * SectionHeader.size := by
    rw [List.length_flatMap]
    simp only [SectionHeader.length_octets, List.map_const', List.sum_replicate_nat, length_imageHeaders]
  rw [image, List.length_append, htable, tableStart]
  simp only [List.length_append, length_headerOctets, Bytes.zeros, List.length_replicate]

theorem imageNames_eq (sections : List Section) :
    imageNames sections = nameOctets (sections.map Section.name) ++ terminated namesName := by
  rw [imageNames, nameOctets, List.flatMap_append, List.flatMap_singleton]
  rfl

theorem length_nameOctets (names : List String) :
    (nameOctets names).length = 1 + (names.flatMap terminated).length := by
  rw [nameOctets, List.length_cons, Nat.add_comm]

theorem placed_image :
    Placed (image machine sections) (imageNames sections) 1 headerSize sections := by
  have hnames := Bytes.HoldsAt.whole (imageNames sections)
  rw [imageNames_eq] at hnames
  -- The first of the names is empty and ends at the position one.
  replace hnames : Bytes.HoldsAt _ 0 ([0] ++ (sections.map Section.name).flatMap terminated) := hnames.left
  rw [← imageNames_eq] at hnames
  exact ⟨hnames.right, holdsAt_body.left⟩

/-- The header of the names. -/
def namesHeader (sections : List Section) : SectionHeader :=
  ⟨(nameOctets (sections.map Section.name)).length, withNames, 0,
    headerSize + (sections.flatMap Section.data).length, (imageNames sections).length⟩

theorem imageHeaders_eq (sections : List Section) :
    imageHeaders sections =
      (.blank :: (headersFrom 1 headerSize sections).1) ++ [namesHeader sections] := by
  have hlast := headersFrom_last 1 headerSize sections
  rw [imageHeaders, namesHeader, length_nameOctets]
  rcases hfrom : headersFrom 1 headerSize sections with ⟨headers, last⟩
  rw [hfrom] at hlast
  obtain rfl : last = _ := hlast
  rfl

theorem holdsAt_names :
    (image machine sections).HoldsAt (namesHeader sections).start (imageNames sections) :=
  holdsAt_body.right

theorem content_namesHeader : (namesHeader sections).content (image machine sections) = imageNames sections :=
  holdsAt_names.slice_eq

theorem sectionOf_namesHeader :
    sectionOf (image machine sections) (imageNames sections) (namesHeader sections) =
      ⟨".shstrtab", 0, imageNames sections⟩ := by
  have hname : (imageNames sections).HoldsAt (namesHeader sections).nameStart (terminated namesName) := by
    have h := Bytes.HoldsAt.whole (imageNames sections)
    rw [imageNames_eq] at h
    have hlast := h.right
    rwa [← imageNames_eq, Nat.zero_add] at hlast
  rw [sectionOf, content_namesHeader, nameAt_terminated hname (by decide)]
  rfl

theorem sectionOf_blank (file : Bytes) : sectionOf file (imageNames sections) .blank = ⟨"", 0, []⟩ := rfl

theorem forall_mem_imageHeaders {p : SectionHeader → Prop} (hblank : p .blank)
    (hgiven : ∀ header ∈ (headersFrom 1 headerSize sections).1, p header) (hnames : p (namesHeader sections)) :
    ∀ header ∈ imageHeaders sections, p header := by
  intro header hmem
  rw [imageHeaders_eq, List.mem_append, List.mem_cons, List.mem_singleton] at hmem
  obtain (rfl | hmem) | rfl := hmem
  · exact hblank
  · exact hgiven header hmem
  · exact hnames

theorem inside_imageHeaders : ∀ header ∈ imageHeaders sections, header.Inside (image machine sections) :=
  forall_mem_imageHeaders (.inr (Nat.zero_le _)) placed_image.inside (.inr holdsAt_names.le)

theorem map_imageHeaders (hnul : ∀ s ∈ sections, '\x00' ∉ s.name.toList) :
    (imageHeaders sections).map (sectionOf (image machine sections) (imageNames sections)) =
      ⟨"", 0, []⟩ :: sections ++ [⟨".shstrtab", 0, imageNames sections⟩] := by
  rw [imageHeaders_eq, List.map_append, List.map_cons, List.map_singleton, sectionOf_blank, sectionOf_namesHeader,
    placed_image.map_sectionOf hnul]

theorem nameOctetsOf_imageHeaders :
    nameOctetsOf (image machine sections) (imageHeaders sections) (sections.length + 2 - 1) = imageNames sections := by
  have hlength : (SectionHeader.blank :: (headersFrom 1 headerSize sections).1).length = sections.length + 1 := by
    rw [List.length_cons, length_headersFrom]
  have hlast : (imageHeaders sections)[sections.length + 1]? = some (namesHeader sections) := by
    rw [imageHeaders_eq, ← hlength, List.getElem?_concat_length]
  show ((imageHeaders sections)[sections.length + 1]?.map _).getD [] = _
  rw [hlast]
  exact content_namesHeader

theorem fits_imageHeaders (hnames : (nameOctets (sections.map Section.name)).length < Nat.pow 256 4)
    (hfile : (image machine sections).length < Nat.pow 256 8) : ∀ header ∈ imageHeaders sections, header.Fits := by
  have hplaced : Placed (image machine sections) _ _ _ sections := placed_image
  refine forall_mem_imageHeaders (by constructor <;> decide) (hplaced.fits ?_ hfile) ?_
  · rwa [length_nameOctets] at hnames
  · exact .of_holdsAt hnames (by decide) (by decide) holdsAt_names hfile

variable (hcount : sections.length ≤ 65533) (hnames : (nameOctets (sections.map Section.name)).length < Nat.pow 256 4)
  (hfile : (image machine sections).length < Nat.pow 256 8)

include hcount hfile in
theorem begins_image :
    Begins (image machine sections) machine.toNat (tableStart sections) (sections.length + 2) := by
  have htable : (image machine sections).HoldsAt (tableStart sections) _ := holdsAt_table
  have hentries : sections.length + 2 < Nat.pow 256 2 := Nat.lt_of_le_of_lt (Nat.add_le_add_right hcount 2) (by decide)
  exact begins_of_holdsAt holdsAt_header (Nat.lt_of_le_of_lt (Nat.le_trans (Nat.le_add_right _ _) htable.le) hfile)
    hentries

theorem holdsAt_entry {index : Nat} (hindex : index < (imageHeaders sections).length) :
    (image machine sections).HoldsAt (tableStart sections + index * SectionHeader.size)
      (imageHeaders sections)[index].octets :=
  holdsAt_table.flatMap SectionHeader.length_octets hindex

include hcount hnames hfile in
theorem entries_image :
    (SectionTable.read (image machine sections)).entries (image machine sections) = imageHeaders sections := by
  rw [(begins_image hcount hfile).table]
  refine List.ext_getElem ?_ fun index hindex hindex' => ?_
  · rw [SectionTable.entries, List.length_map, List.length_range, length_imageHeaders]
  · simp only [SectionTable.entries, List.getElem_map, List.getElem_range]
    exact SectionHeader.readAt_eq (holdsAt_entry hindex') (fits_imageHeaders hnames hfile _ (List.getElem_mem _))

include hcount hfile in
theorem entriesFit_image : EntriesFit (image machine sections) := by
  intro index hindex
  have hbegins := begins_image hcount hfile
  rw [hbegins.sectionCount_eq, ← length_imageHeaders] at hindex
  have hle : _ ≤ (image machine sections).length := (holdsAt_entry hindex).le
  rw [SectionHeader.length_octets] at hle
  rwa [hbegins.entryStart_eq]

include hcount hnames hfile in
theorem parse_image (hnul : ∀ s ∈ sections, '\x00' ∉ s.name.toList) :
    parse (image machine sections) =
      .ok ⟨machine, ⟨"", 0, []⟩ :: sections ++ [⟨".shstrtab", 0, imageNames sections⟩]⟩ := by
  have hbegins := begins_image hcount hfile
  have hentries := entries_image hcount hnames hfile
  have hsize : 64 ≤ entrySize (image machine sections) := Nat.le_of_eq hbegins.entrySize_eq.symm
  have hdata : DataFits (image machine sections) := by
    rw [← inside_iff_dataFits, hentries]
    exact inside_imageHeaders
  have hsections := map_sectionOf_entries (image machine sections)
  rw [hentries, hbegins.namesIndex_eq, nameOctetsOf_imageHeaders, map_imageHeaders hnul] at hsections
  rw [parse_of_whole hbegins.opens (.inr hsize) (entriesFit_image hcount hfile) hdata, hbegins.described_eq hsections.symm]

/-- The sections around the given ones are not taken for sections of another name. -/
theorem section?_framed {name : String} (hblank : "" ≠ name) (hlast : ".shstrtab" ≠ name) (names : Bytes) :
    CodeObject.section? ⟨machine, ⟨"", 0, []⟩ :: sections ++ [⟨".shstrtab", 0, names⟩]⟩ name =
      sections.find? fun s => s.name = name := by
  rw [section?, List.cons_append, List.find?_cons_of_neg (by simpa using hblank), List.find?_append,
    List.find?_singleton, if_neg (by simpa using hlast), Option.or_none]

/-- A file with sections is read as these sections, in order and with their names, addresses and octets. A header tells
    where its name begins by an offset of 32 bits into the octets of the names. A zero stands in front of these, for the
    section without a name, and another one ends each name; so the last offset, that of `.shstrtab`, counts the zeros
    as well as the names, and it is this count that has to stay below 2^32. -/
theorem image_read_back (machine : UInt16) (sections : List Section) (hcount : sections.length ≤ 65533)
    (hnul : ∀ s ∈ sections, '\x00' ∉ s.name.toList)
    (hnames : (nameOctets (sections.map Section.name)).length < Nat.pow 2 32)
    (hfile : (image machine sections).length < UInt64.size) :
    parse (image machine sections) =
      .ok ⟨machine, ⟨"", 0, []⟩ :: sections ++ [⟨".shstrtab", 0, imageNames sections⟩]⟩ ∧
    readText (image machine sections) =
      (sections.find? fun s => s.name = ".text").elim (.error (.missingSection ".text")) .ok ∧
    (parse (image machine sections)).map KernelArgs.ofCodeObject =
      .ok ((sections.find? fun s => s.name = ".note").elim (.error .missingNote) fun note =>
        KernelArgs.ofNote note.data) := by
  have hparse := parse_image hcount hnames hfile hnul
  refine ⟨hparse, ?_, ?_⟩
  · rw [readText, hparse]
    show text _ = _
    rw [text, section?_framed (by decide) (by decide)]
    cases sections.find? fun s => s.name = ".text" <;> rfl
  · rw [hparse]
    show Except.ok (KernelArgs.ofCodeObject _) = _
    rw [KernelArgs.ofCodeObject, section?_framed (by decide) (by decide)]
    cases sections.find? fun s => s.name = ".note" <;> rfl

/-- Two sections of one name, one without a name and without octets, and one that has the name of the names. -/
def namesakes : List Section :=
  [⟨".text", 0x1000, [0x01, 0x02]⟩, ⟨"", 0, []⟩, ⟨".shstrtab", 0xffffffffffffffff, [0x2e]⟩, ⟨".text", 0, [0x03]⟩]

theorem namesakes_read_back :
    parse (image 0xe0 namesakes) =
      .ok ⟨0xe0, ⟨"", 0, []⟩ :: namesakes ++ [⟨".shstrtab", 0, imageNames namesakes⟩]⟩ ∧
    readText (image 0xe0 namesakes) = .ok ⟨".text", 0x1000, [0x01, 0x02]⟩ ∧
    (parse (image 0xe0 namesakes)).map KernelArgs.ofCodeObject = .ok (.error .missingNote) :=
  image_read_back 0xe0 namesakes (by decide) (by decide) (by decide +kernel) (by decide +kernel)

end Image

end GpuListing.CodeObject
