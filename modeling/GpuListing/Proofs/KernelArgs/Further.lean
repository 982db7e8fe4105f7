import GpuListing.Proofs.KernelArgs.Exact
import GpuListing.Proofs.KernelArgs.FirstList
import GpuListing.Proofs.Library.Lists
import Mathlib.Data.List.TakeWhile

/-! # One more entry

A note whose list of arguments goes on at its end, and the lines of one more entry after it. What was told before is
told again: an error stays, and arguments stay where they are, with one more argument or an error for just that one
after them. The octets in front may be anything; a line feed ends whatever fault they hold. -/

namespace GpuListing.KernelArgs

/-- A line that begins an entry. -/
abbrev BeginsEntry (line : List Char) : Prop := ['-', ' '] <+: Text.trimStart line

/-- The lines in octets, with the zeros left out. -/
def linesIn (octets : Bytes) : List (List Char) := Text.lines (Text.decodeLossy (octets.filter (· ≠ 0)))

/-- The list of arguments begins at the first line of a note that could begin one. -/
structure ListsAt (note : Bytes) (before : List (List Char)) (args : List Char) (after : List (List Char)) : Prop where
  lines : Text.lines (noteText note) = before ++ args :: after
  first : ∀ line ∈ before, ¬BeginsArgs line
  begins : BeginsArgs args

/-- The last line of a note ends, and no line has ended the list of arguments, whose first line stands at a depth. -/
structure OpenAt (depth : Nat) (note : Bytes) : Prop where
  feed : note.getLast? = some 0x0a
  list : ∃ before args inside, ListsAt note before args inside ∧ depthOf args = depth ∧
    ∀ line ∈ inside, Solid line → depth < depthOf line

/-- Octets with the lines of one entry, all of them deeper than the list. -/
def OneEntry (depth : Nat) (octets : Bytes) : Prop :=
  ∃ first rest, linesIn octets = first :: rest ∧ depth < depthOf first ∧ BeginsEntry first ∧
    ∀ line ∈ rest, Solid line → depth < depthOf line ∧ ¬BeginsEntry line

/-! ### Lines -/

section Lines
variable {note : Bytes} {line : List Char} {lines blank : List (List Char)} {number first depth : Nat} {l : NoteLine}

/-- Whatever a note holds, its lines stay as they are when something follows its last line feed. -/
theorem lines_noteText_append (h : note.getLast? = some 0x0a) (more : Bytes) :
    Text.lines (noteText (note ++ more)) = Text.lines (noteText note) ++ linesIn more := by
  obtain ⟨front, rfl⟩ := List.getLast?_eq_some_iff.mp h
  have hfeed : ∀ octets : Bytes, (0x0a :: octets).filter (· ≠ 0) = 0x0a :: octets.filter (· ≠ 0) := fun octets =>
    List.filter_cons_of_pos (by decide)
  rw [List.append_assoc, List.singleton_append, noteText, noteText, List.dropWhile_append, List.dropWhile_append]
  cases front.dropWhile (· ≠ 0x0a) with
  | nil => rfl
  | cons b body =>
    -- The line feed that ends the note is not the one before its text.
    show Text.lines (Text.decodeLossy ((body ++ 0x0a :: more).filter (· ≠ 0))) =
      Text.lines (Text.decodeLossy ((body ++ [0x0a]).filter (· ≠ 0))) ++ linesIn more
    rw [List.filter_append, List.filter_append, hfeed, hfeed, Text.decodeLossy_append_ascii (by decide),
      Text.decodeLossy_append_ascii (by decide)]
    exact Text.lines_append_feed _ _

theorem numbered_cons_of_solid (h : Solid line) (first : Nat) (lines : List (List Char)) :
    numbered first (line :: lines) = ⟨first, depthOf line, Text.trimStart line⟩ :: numbered (first + 1) lines :=
  numbered_cons (ofLine?_eq_some h first)

theorem numbered_append_of_blank (h : ∀ line ∈ blank, ¬Solid line) (first : Nat) (lines : List (List Char)) :
    numbered first (blank ++ lines) = numbered (first + blank.length) lines := by
  induction blank generalizing first with
  | nil => rfl
  | cons line blank ih =>
    obtain ⟨hline, hblank⟩ := List.forall_mem_cons.mp h
    rw [List.cons_append, numbered_cons_of_none (ofLine?_eq_none hline first), ih hblank, List.length_cons,
      Nat.add_right_comm, Nat.add_assoc]

theorem mem_numbered_solid (h : l ∈ numbered first lines) :
    ∃ line ∈ lines, Solid line ∧ l.depth = depthOf line ∧ l.content = Text.trimStart line := by
  obtain ⟨line, hline, number, hread⟩ := mem_numbered h
  by_cases hsolid : Solid line
  · obtain rfl := Option.some.inj ((ofLine?_eq_some hsolid number).symm.trans hread)
    exact ⟨line, hline, hsolid, rfl, rfl⟩
  · rw [ofLine?_eq_none hsolid] at hread
    cases hread

theorem deeper_numbered (h : ∀ line ∈ lines, Solid line → depth < depthOf line) :
    ∀ l ∈ numbered first lines, depth < l.depth := by
  intro l hl
  obtain ⟨line, hline, hsolid, hdepth, -⟩ := mem_numbered_solid hl
  rw [hdepth]
  exact h line hline hsolid

theorem item?_eq_none_iff : l.item? = none ↔ ¬['-', ' '] <+: l.content := by
  simp only [Option.eq_none_iff_forall_ne_some, Ne, item?_eq_some_iff]
  constructor
  · rintro h ⟨rest, hrest⟩
    exact h rest hrest.symm
  · intro h rest hrest
    exact h ⟨rest, hrest.symm⟩

end Lines

/-! ### Lists -/

section Lists
variable {note : Bytes} {before after inside : List (List Char)} {args : List Char}

theorem ListsAt.listed_eq (h : ListsAt note before args after) :
    listed note = entries ((numbered (before.length + 2) after).takeWhile fun line => depthOf args < line.depth) := by
  have hsolid := solid_of_beginsArgs h.begins
  have hread := ofLine?_eq_some hsolid (1 + before.length)
  have hnumber : 1 + before.length + 1 = before.length + 2 := by rw [Nat.add_comm 1]
  show entries (argsLines (numbered 1 (Text.lines (noteText note)))) = _
  rw [h.lines, numbered_append, argsLines_skip (not_beginsArgs_numbered h.first), numbered_cons hread,
    argsLines_cons ((beginsArgs_of_ofLine? hread).mpr h.begins), hnumber]
  rfl

/-- All lines after the one that begins the list are of the list if they are deeper. -/
theorem ListsAt.listed_of_deeper (h : ListsAt note before args inside)
    (hdeeper : ∀ line ∈ inside, Solid line → depthOf args < depthOf line) :
    listed note = entries (numbered (before.length + 2) inside) := by
  have hall : (numbered (before.length + 2) inside).takeWhile (fun line => depthOf args < line.depth) =
      numbered (before.length + 2) inside :=
    List.takeWhile_eq_self_iff.mpr fun l hl => decide_eq_true (deeper_numbered hdeeper l hl)
  rw [h.listed_eq, hall]

theorem ListsAt.append (h : ListsAt note before args inside) (hfeed : note.getLast? = some 0x0a) (more : Bytes) :
    ListsAt (note ++ more) before args (inside ++ linesIn more) where
  lines := by rw [lines_noteText_append hfeed, h.lines, List.append_assoc, List.cons_append]
  first := h.first
  begins := h.begins

theorem listed_of_none (h : ∀ line ∈ Text.lines (noteText note), ¬BeginsArgs line) : listed note = .ok [] := by
  show entries (argsLines (numbered 1 (Text.lines (noteText note)))) = _
  rw [argsLines_of_none (not_beginsArgs_numbered h)]
  rfl

end Lists

/-! ### Entries -/

section Entries
variable {head : NoteLine} {rest lines front : List NoteLine}

theorem group_of_unmarked (h : ∀ l ∈ lines, l.item? = none) : ∃ fields, group lines = (fields, []) := by
  induction lines with
  | nil => exact ⟨[], rfl⟩
  | cons line lines ih =>
    obtain ⟨hline, hlines⟩ := List.forall_mem_cons.mp h
    obtain ⟨fields, hfields⟩ := ih hlines
    refine ⟨(Field.ofText? line.content).toList ++ fields, ?_⟩
    rw [group, hfields, hline]

theorem group_append {entries : List Entry} (hback : group lines = ([], entries)) (front : List NoteLine) :
    group (front ++ lines) = ((group front).1, (group front).2 ++ entries) := by
  induction front with
  | nil => exact hback
  | cons line front ih =>
    rw [List.cons_append, group, ih, group]
    cases line.item? <;> rfl

/-- Lines that begin with the mark of an entry, and have it nowhere else, add one entry. -/
theorem exists_entries_append (hhead : head.item? ≠ none) (hrest : ∀ l ∈ rest, l.item? = none) :
    ∃ entry, ∀ front, entries (front ++ head :: rest) = (entries front).map (· ++ [entry]) := by
  obtain ⟨content, hitem⟩ := Option.ne_none_iff_exists'.mp hhead
  obtain ⟨fields, hfields⟩ := group_of_unmarked hrest
  have hgroup : group (head :: rest) = ([], [(Field.ofText? content).toList ++ fields]) := by
    rw [group, hitem, hfields]
  refine ⟨(Field.ofText? content).toList ++ fields, fun front => ?_⟩
  cases front with
  | nil =>
    rw [List.nil_append, entries_cons, hitem, hgroup]
    rfl
  | cons line front =>
    have hboth := group_append hgroup (line :: front)
    rw [List.cons_append] at hboth ⊢
    rw [entries_cons, entries_cons, hboth]
    split <;> rfl

/-- The first line of a list that is not all white space tells whether the list begins with an entry. -/
theorem ListsAt.listed_cases {note : Bytes} {before blank after : List (List Char)} {args line : List Char}
    (h : ListsAt note before args (blank ++ line :: after)) (hblank : ∀ other ∈ blank, ¬Solid other) (hsolid : Solid line) :
    (depthOf args < depthOf line ∧ ¬BeginsEntry line ∧
        listed note = .error (.orphanField (before.length + blank.length + 2))) ∨
      ((depthOf args < depthOf line → BeginsEntry line) ∧ ∃ told, listed note = .ok told) := by
  have hnumber : before.length + 2 + blank.length = before.length + blank.length + 2 := Nat.add_right_comm _ _ _
  rw [h.listed_eq, numbered_append_of_blank hblank, numbered_cons_of_solid hsolid, hnumber, List.takeWhile_cons]
  by_cases hdeeper : depthOf args < depthOf line
  · simp only [hdeeper, decide_true, if_true, entries_cons, Option.isNone_iff_eq_none, item?_eq_none_iff]
    by_cases hentry : BeginsEntry line
    · rw [if_neg (not_not_intro hentry)]
      exact .inr ⟨fun _ => hentry, _, rfl⟩
    · rw [if_pos hentry]
      exact .inl ⟨trivial, hentry, rfl⟩
  · simp only [hdeeper, decide_false]
    exact .inr ⟨False.elim, [], rfl⟩

end Entries

/-! ### Places -/

section Layout
variable {index start : Nat} {told more : List Entry}

/-- Where arguments end that are placed from a position on. -/
def endOf : (start : Nat) → List KernelArg → Nat
  | start, [] => start
  | _, arg :: rest => endOf arg.stop rest

theorem layout_append (index start : Nat) (told more : List Entry) :
    layout index start (told ++ more) =
      layout index start told >>= fun args => (layout (index + args.length) (endOf start args) more).map (args ++ ·) := by
  induction told generalizing index start with
  | nil =>
    show layout index start more = (layout index start more).map ([] ++ ·)
    cases layout index start more <;> rfl
  | cons entry told ih =>
    rcases ofEntry_cases index entry with ⟨spec, htells, -⟩ | ⟨-, error, -, herror⟩
    · obtain ⟨offset, hleast⟩ : ∃ offset, IsLeast {n | spec.align ∣ n ∧ start ≤ n} offset :=
        ⟨_, isLeast_roundUp htells.align_pos start⟩
      rw [List.cons_append, layout_cons htells hleast, layout_cons htells hleast]
      split
      · rw [ih]
        cases layout (index + 1) (offset + spec.size) told with
        | error error => rfl
        | ok args =>
          have hindex : index + 1 + args.length = index + (args.length + 1) := by
            rw [Nat.add_right_comm, Nat.add_assoc]
          show ((layout (index + 1 + args.length) (endOf (offset + spec.size) args) more).map _).map _ =
            (layout (index + (args.length + 1)) (endOf (offset + spec.size) args) more).map _
          rw [hindex]
          cases layout (index + (args.length + 1)) (endOf (offset + spec.size) args) more <;> rfl
      · rfl
    · rw [List.cons_append, layout_cons_of_error herror, layout_cons_of_error herror]
      rfl

theorem layout_singleton (index start : Nat) (entry : Entry) :
    (∃ arg, layout index start [entry] = .ok [arg]) ∨
      ∃ error, layout index start [entry] = .error error ∧ error.index? = some index := by
  rcases layout_cases index start entry [] with
    ⟨spec, offset, -, -, ⟨-, hlay⟩ | ⟨-, hlay⟩⟩ | ⟨-, error, hfield, hlay⟩
  · exact .inl ⟨spec.placedAt offset, hlay⟩
  · exact .inr ⟨.offsetOverflow index, hlay, rfl⟩
  · refine .inr ⟨error, hlay, ?_⟩
    cases hfield <;> rfl

end Layout

/-! ### Notes -/

section Notes
variable {note more : Bytes} {depth number : Nat}

/-- One more entry is placed after the arguments of the note, and only if they are told. -/
theorem ofNote_append (hopen : OpenAt depth note) (hmore : OneEntry depth more) :
    ∃ entry, ofNote (note ++ more) =
      ofNote note >>= fun args => (layout args.length (endOf 0 args) [entry]).map (args ++ ·) := by
  obtain ⟨before, args, inside, hlist, rfl, hinside⟩ := hopen.list
  obtain ⟨first, rest, hlines, hfirst, hbegins, hrest⟩ := hmore
  have hsolid : Solid first := fun hnil => by
    rw [BeginsEntry, hnil, List.prefix_nil] at hbegins
    cases hbegins
  have hall : ∀ line ∈ inside ++ linesIn more, Solid line → depthOf args < depthOf line := by
    rw [hlines]
    intro line hline hsolid
    rcases List.mem_append.mp hline with hline | hline
    · exact hinside line hline hsolid
    · rcases List.mem_cons.mp hline with rfl | hline
      · exact hfirst
      · exact (hrest line hline hsolid).1
  have hbefore := hlist.listed_of_deeper hinside
  have hafter := (hlist.append hopen.feed more).listed_of_deeper hall
  have hmark : NoteLine.item? ⟨before.length + 2 + inside.length, depthOf first, Text.trimStart first⟩ ≠ none :=
    fun hnone => item?_eq_none_iff.mp hnone hbegins
  have hunmarked : ∀ l ∈ numbered (before.length + 2 + inside.length + 1) rest, l.item? = none := by
    intro l hl
    obtain ⟨line, hline, hsolid, -, hcontent⟩ := mem_numbered_solid hl
    rw [item?_eq_none_iff, hcontent]
    exact (hrest line hline hsolid).2
  obtain ⟨entry, hentry⟩ := exists_entries_append hmark hunmarked
  refine ⟨entry, ?_⟩
  rw [hlines, numbered_append, numbered_cons_of_solid hsolid, hentry, ← hbefore] at hafter
  show listed (note ++ more) >>= layout 0 0 = (listed note >>= layout 0 0) >>= _
  rw [hafter]
  cases listed note with
  | error error => rfl
  | ok told =>
    show layout 0 0 (told ++ [entry]) = layout 0 0 told >>= _
    rw [layout_append]
    simp only [Nat.zero_add]

/-- A line that belongs to no entry is told where it is the first line of the list, and only there. -/
theorem ofNote_eq_orphanField_iff : ofNote note = .error (.orphanField number) ↔
    ∃ before args blank line after, ListsAt note before args (blank ++ line :: after) ∧
      (∀ other ∈ blank, ¬Solid other) ∧ Solid line ∧ depthOf args < depthOf line ∧ ¬BeginsEntry line ∧
      number = before.length + blank.length + 2 := by
  have hlisted : ofNote note = .error (.orphanField number) ↔ listed note = .error (.orphanField number) := by
    rw [ofNote_eq_error_iff]
    refine or_iff_left ?_
    rintro ⟨told, -, hlay⟩
    obtain ⟨index, hindex, -⟩ := index_of_layout hlay
    cases hindex
  rw [hlisted]
  constructor
  · intro h
    rcases first_or_none BeginsArgs (Text.lines (noteText note)) with hnone | ⟨before, args, after, hlines, hfirst, hbegins⟩
    · cases (listed_of_none hnone).symm.trans h
    have hlist : ListsAt note before args after := ⟨hlines, hfirst, hbegins⟩
    rcases first_or_none Solid after with hnone | ⟨blank, line, after, rfl, hblank, hsolid⟩
    · have hempty := numbered_append_of_blank hnone (before.length + 2) []
      rw [List.append_nil] at hempty
      rw [hlist.listed_eq, hempty] at h
      cases h
    · rcases hlist.listed_cases hblank hsolid with ⟨hdeeper, hentry, herror⟩ | ⟨-, told, hok⟩
      · obtain rfl := KernelArgsError.orphanField.inj (Except.error.inj (h.symm.trans herror))
        exact ⟨before, args, blank, line, after, hlist, hblank, hsolid, hdeeper, hentry, rfl⟩
      · cases hok.symm.trans h
  · rintro ⟨before, args, blank, line, after, hlist, hblank, hsolid, hdeeper, hentry, rfl⟩
    rcases hlist.listed_cases hblank hsolid with ⟨-, -, herror⟩ | ⟨hbegins, -⟩
    · exact herror
    · exact absurd (hbegins hdeeper) hentry

/-- Errors are told where they are, and the first one is told. One more entry at the end of a note leaves an error as
    it is, and adds one argument to those of the note or is itself what the error is about. A line that belongs to no
    entry is told if and only if it is the first line after the one that begins the list that is not all white space;
    its number counts the lines after the first line feed of the note. -/
theorem ofNote_first_error (note : Bytes) :
    (∀ depth more, OpenAt depth note → OneEntry depth more →
      (∀ args, ofNote note = .ok args →
        (∃ arg, ofNote (note ++ more) = .ok (args ++ [arg])) ∨
          ∃ error, ofNote (note ++ more) = .error error ∧ error.index? = some args.length) ∧
      ∀ error, ofNote note = .error error → ofNote (note ++ more) = .error error) ∧
    ∀ number, ofNote note = .error (.orphanField number) ↔
      ∃ before args blank line after, ListsAt note before args (blank ++ line :: after) ∧
        (∀ other ∈ blank, ¬Solid other) ∧ Solid line ∧ depthOf args < depthOf line ∧ ¬BeginsEntry line ∧
        number = before.length + blank.length + 2 := by
  refine ⟨fun depth more hopen hmore => ?_, fun number => ofNote_eq_orphanField_iff⟩
  obtain ⟨entry, hafter⟩ := ofNote_append hopen hmore
  refine ⟨fun args hargs => ?_, fun error herror => ?_⟩
  · have hone : ofNote (note ++ more) = (layout args.length (endOf 0 args) [entry]).map (args ++ ·) := by
      rw [hafter, hargs]
      rfl
    rcases layout_singleton args.length (endOf 0 args) entry with ⟨arg, hlay⟩ | ⟨error, hlay, hindex⟩
    · exact .inl ⟨arg, by rw [hone, hlay]; rfl⟩
    · exact .inr ⟨error, by rw [hone, hlay]; rfl, hindex⟩
  · rw [hafter, herror]
    rfl

end Notes

/-- A note with an unfinished character in front of its list. -/
def torn : Bytes :=
  [0x04, 0x00, 0x0a, 0xe2, 0x82, 0x0a] ++ Text.octets "Args:\n  - Name: in\n    Size: 4\n    Align: 4\n".toList

/-- An entry without an alignment. -/
def another : Bytes := Text.octets "  - Name: out\n".toList ++ 0x00 :: Text.octets "    Size: 8\n".toList

theorem torn_another :
    OpenAt 0 torn ∧ OneEntry 0 another ∧ OpenAt 0 (torn ++ another) ∧
    (ofNote torn = .ok [⟨"in", none, 4, 4, 0⟩] ∧
      ((∃ arg, ofNote (torn ++ another) = .ok [⟨"in", none, 4, 4, 0⟩, arg]) ∨
        ∃ error, ofNote (torn ++ another) = .error error ∧ error.index? = some 1)) ∧
    ofNote (torn ++ another) = .error (.missingField 1 .align) ∧
    ofNote (torn ++ another ++ another) = .error (.missingField 1 .align) := by
  have htorn : OpenAt 0 torn :=
    ⟨rfl, [['\ufffd']], "Args:".toList, ["  - Name: in".toList, "    Size: 4".toList, "    Align: 4".toList],
      ⟨rfl, by decide, rfl⟩, rfl, by decide⟩
  have hanother : OneEntry 0 another := ⟨"  - Name: out".toList, ["    Size: 8".toList], rfl, by decide, by decide, by decide⟩
  have hboth : OpenAt 0 (torn ++ another) :=
    ⟨rfl, [['\ufffd']], "Args:".toList, ["  - Name: in".toList, "    Size: 4".toList, "    Align: 4".toList,
      "  - Name: out".toList, "    Size: 8".toList], ⟨rfl, by decide, rfl⟩, rfl, by decide⟩
  have hargs : ofNote torn = .ok [⟨"in", none, 4, 4, 0⟩] := rfl
  have herror : ofNote (torn ++ another) = .error (.missingField 1 .align) := rfl
  exact ⟨htorn, hanother, hboth, ⟨hargs, ((ofNote_first_error torn).1 0 another htorn hanother).1 _ hargs⟩, herror,
    ((ofNote_first_error (torn ++ another)).1 0 another hboth hanother).2 _ herror⟩

end GpuListing.KernelArgs
