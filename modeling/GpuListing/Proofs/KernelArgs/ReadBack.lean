import GpuListing.Proofs.KernelArgs.Placing

/-! # Notes read back

The list of a note is found behind the lines that do not begin one, and it ends before a line that is not deeper.
What is read of the note is then what its blocks tell, placed. -/

namespace GpuListing.KernelArgs

namespace Note

/-- The text after the list. -/
def tailText (n : Note) : List Char :=
  match n.tail with
  | none => []
  | some (line, rest) => line ++ '\n' :: Text.decodeLossy (rest.filter (· ≠ 0))

/-- The lines up to the end of the list. -/
def upToList (n : Note) : List (List Char) := n.opening ++ n.argsText :: n.listText

theorem not_mem_argsText (n : Note) {c : Char} (hblank : c ≠ ' ') (hmark : c ∉ "Args:".toList) : c ∉ n.argsText := by
  intro h
  rcases List.mem_append.mp h with h | h
  · exact hblank (List.mem_replicate.mp h).2
  · rcases List.mem_append.mp h with h | h
    · exact hmark h
    · exact hblank (List.mem_replicate.mp h).2

section WellFormed
variable {n : Note} (h : n.WellFormed)
include h

theorem clean_upToList {line : List Char} (hline : line ∈ n.upToList) : '\n' ∉ line ∧ '\x00' ∉ line := by
  rcases List.mem_append.mp hline with hline | hline
  · exact (h.opening line hline).2
  · rcases List.mem_cons.mp hline with rfl | hline
    · exact ⟨n.not_mem_argsText (by decide) (by decide), n.not_mem_argsText (by decide) (by decide)⟩
    · obtain ⟨b, hb, hline⟩ := List.mem_flatMap.mp hline
      obtain ⟨hfeed, hnul, -⟩ := Block.clean_lines (h.blocks b hb) hline
      exact ⟨hfeed, hnul⟩

theorem withoutReturn_upToList :
    n.upToList.map Text.withoutReturn = n.opening.map Text.withoutReturn ++ n.argsText :: n.listText := by
  have hargs : Text.withoutReturn n.argsText = n.argsText := Text.withoutReturn_of_getLast? fun hlast =>
    n.not_mem_argsText (by decide) (by decide) (List.mem_of_getLast? hlast)
  have hlist : n.listText.map Text.withoutReturn = n.listText := by
    refine (List.map_congr_left fun line hline => ?_).trans (List.map_id n.listText)
    obtain ⟨b, hb, hline⟩ := List.mem_flatMap.mp hline
    exact (Block.clean_lines (h.blocks b hb) hline).2.2
  rw [upToList, List.map_append, List.map_cons, hargs, hlist]

theorem noteText_octets : noteText n.octets = Text.ofLines n.upToList ++ n.tailText := by
  have hnul : '\x00' ∉ Text.ofLines n.upToList :=
    Text.not_mem_ofLines (by decide) fun line hline => (clean_upToList h hline).2
  refine (noteText_written h.header hnul _).trans (congrArg (Text.ofLines n.upToList ++ ·) ?_)
  rw [tailText]
  cases htail : n.tail with
  | none => rfl
  | some tail =>
    obtain ⟨line, rest⟩ := tail
    exact decodeLossy_line (h.tail line rest htail).nul rest

/-- A line after the list is not deeper than the list. -/
theorem depth_tail (first : Nat) : ∀ l ∈ (numbered first (Text.lines n.tailText)).head?, l.depth ≤ n.indent := by
  rw [tailText]
  cases htail : n.tail with
  | none =>
    intro l hl
    cases hl
  | some tail =>
    obtain ⟨line, rest⟩ := tail
    have hends := h.tail line rest htail
    obtain ⟨c, hc, hsolid⟩ := hends.solid
    obtain ⟨hblanks, hne⟩ := Text.takeWhile_withoutReturn (Text.trimStart_ne_nil hc hsolid)
    show ∀ l ∈ (numbered first (Text.lines (line ++ '\n' :: _))).head?, _
    rw [Text.lines_line hends.feed, numbered_cons (ofLine?_eq_some hne first)]
    intro l hl
    obtain rfl := Option.some.inj hl
    show (Text.octets ((Text.withoutReturn line).takeWhile Text.isBlank)).length ≤ n.indent
    rw [hblanks]
    exact hends.shallow

/-- The list of a note is the lines of its blocks. -/
theorem argsLines_octets : ∃ first, argsLines (noteLines (noteText n.octets)) = numbered first n.listText := by
  have hline : NoteLine.ofLine? (n.argsText, 1 + (n.opening.map Text.withoutReturn).length) =
      some ⟨1 + (n.opening.map Text.withoutReturn).length, n.indent, "Args:".toList ++ Text.blanks n.trailing⟩ := by
    refine ofLine?_blanks (List.append_ne_nil_of_left_ne_nil (by decide) _) (fun c hc => ?_) n.indent _
    obtain rfl := Option.some.inj hc
    decide
  have hbegins : NoteLine.beginsArgs ⟨1 + (n.opening.map Text.withoutReturn).length, n.indent,
      "Args:".toList ++ Text.blanks n.trailing⟩ = true := by
    show decide (Text.trimEnd ("Args:".toList ++ Text.blanks n.trailing) = "Args:".toList) = true
    rw [Text.trimEnd_append fun _ => Text.isBlank_of_mem_blanks]
    decide
  have hopening : ∀ l ∈ numbered 1 (n.opening.map Text.withoutReturn), l.beginsArgs = false := by
    refine not_beginsArgs_numbered fun text htext => ?_
    obtain ⟨line, hmem, rfl⟩ := List.mem_map.mp htext
    rw [Text.trim_withoutReturn]
    exact (h.opening line hmem).1
  -- The line of the note is the first one that begins a list, and the tail is not deeper than it.
  refine ⟨1 + (n.opening.map Text.withoutReturn).length + 1, ?_⟩
  rw [noteText_octets h, noteLines_written fun line hmem => (clean_upToList h hmem).1, withoutReturn_upToList h,
    numbered_append, numbered_cons hline, List.append_assoc, List.cons_append, argsLines_skip hopening,
    argsLines_cons hbegins]
  exact takeWhile_deeper (fun l hl => Block.deeper_lines h.blocks hl) (depth_tail h _)

/-- What is read of a note is what its blocks tell, placed. -/
theorem ofNote_eq_layout : ofNote n.octets = layout 0 0 (n.blocks.map Block.entry) := by
  obtain ⟨first, hlist⟩ := argsLines_octets h
  have hentries : entries (argsLines (noteLines (noteText n.octets))) = .ok (n.blocks.map Block.entry) := by
    rw [hlist]
    exact Block.entries_lines h.blocks first
  rw [ofNote, ofText, hentries]
  rfl

end WellFormed

end Note

/-- A note is read as the arguments that its blocks tell, in their order, each at the least multiple of its alignment
    from the end of the one before on. -/
theorem ofNote_octets {n : Note} {args : List Argument} {placed : List KernelArg} (h : n.WellFormed)
    (htells : List.Forall₂ Block.Tells n.blocks args) (hplaced : LaidOut 0 args placed) :
    ofNote n.octets = .ok placed := by
  rw [Note.ofNote_eq_layout h]
  exact layout_entries hplaced htells 0

/-! ### A note -/

/-- A buffer, a number, and an argument that has no name. -/
def mixedArgs : List Argument :=
  [⟨some "a", some "GlobalBuffer", 8, 8, rfl, 3, rfl⟩, ⟨some "n's", none, 1, 1, rfl, 0, rfl⟩,
   ⟨none, some "HiddenGlobalOffsetX", 8, 8, rfl, 3, rfl⟩]

/-- Their note: keys in other orders, a value in quotation marks, keys that are not asked for, and octets that are no
    text after the list. -/
def mixedNote : Note where
  header := [0x41, 0x4d, 0x44, 0x00]
  opening := ["Kernels:".toList, "".toList, "  - Name: vadd\r".toList]
  indent := 4
  trailing := 1
  blocks :=
    [⟨⟨6, "Name".toList, 1, .plain, "a".toList⟩,
      [⟨8, "TypeName".toList, 1, .single, "float*".toList⟩, ⟨8, "Size".toList, 4, .plain, "8".toList⟩,
       ⟨8, "Align".toList, 0, .double, "8".toList⟩, ⟨8, "ValueKind".toList, 1, .plain, "GlobalBuffer".toList⟩]⟩,
     ⟨⟨5, "Align".toList, 1, .plain, "1".toList⟩,
      [⟨9, "Name".toList, 1, .single, "n's".toList⟩, ⟨7, "Size".toList, 1, .plain, "1".toList⟩]⟩,
     ⟨⟨6, "Size".toList, 1, .plain, "8".toList⟩,
      [⟨8, "Align".toList, 1, .plain, "8".toList⟩,
       ⟨8, "ValueKind".toList, 1, .plain, "HiddenGlobalOffsetX".toList⟩]⟩]
  tail := some ("    CodeProps:".toList, [0x00, 0xff, 0x0a, 0x41, 0x72, 0x67, 0x73, 0x3a])

theorem mixedNote_read_back :
    mixedNote.WellFormed ∧ List.Forall₂ Block.Tells mixedNote.blocks mixedArgs ∧
    ofNote mixedNote.octets =
      .ok [⟨"a", some "GlobalBuffer", 8, 8, 0⟩, ⟨"n's", none, 1, 1, 8⟩,
        ⟨"HiddenGlobalOffsetX", some "HiddenGlobalOffsetX", 8, 8, 16⟩] := by
  have hformed : mixedNote.WellFormed := by
    refine ⟨by decide, by decide, by decide, ?_⟩
    intro line rest htail
    obtain ⟨rfl, rfl⟩ := htail
    exact ⟨⟨'C', by decide, by decide⟩, by decide, by decide, by decide⟩
  have htells : List.Forall₂ Block.Tells mixedNote.blocks mixedArgs :=
    .cons ⟨rfl, rfl, rfl, rfl⟩ (.cons ⟨rfl, rfl, rfl, rfl⟩ (.cons ⟨rfl, rfl, rfl, rfl⟩ .nil))
  have hplaced : LaidOut 0 mixedArgs [⟨"a", some "GlobalBuffer", 8, 8, 0⟩, ⟨"n's", none, 1, 1, 8⟩,
      ⟨"HiddenGlobalOffsetX", some "HiddenGlobalOffsetX", 8, 8, 16⟩] :=
    .cons (by decide) (by decide) (by decide) (by decide)
      (.cons (by decide) (by decide) (by decide) (by decide)
        (.cons (by decide) (by decide) (by decide) (by decide) (.nil _)))
  exact ⟨hformed, htells, ofNote_octets hformed htells hplaced⟩

end GpuListing.KernelArgs
