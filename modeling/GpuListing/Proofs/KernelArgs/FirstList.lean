import GpuListing.KernelArgs.Kernels
import GpuListing.Proofs.KernelArgs.Telling

/-! # The first list of arguments

Kernels are not told apart when the list of arguments is looked for: the first kernel with a list tells the
arguments, whether or not it is the first kernel. What comes before it and after it does not matter. -/

namespace GpuListing.KernelArgs

/-! ### Lines -/

section Read
variable {line : List Char} {lines : List (List Char)} {number first depth : Nat} {l : NoteLine}

theorem solid_withoutReturn : Solid (Text.withoutReturn line) ↔ Solid line := by
  refine ⟨fun h hnil => h ?_, fun h => (Text.takeWhile_withoutReturn h).2⟩
  obtain hsame | hline := Text.withoutReturn_cases line
  · rwa [hsame]
  · rw [hline, Text.trimStart_append _ Text.isBlank_return] at hnil
    by_cases hblank : Text.trimStart (Text.withoutReturn line) = []
    · exact hblank
    · rw [if_neg hblank] at hnil
      cases List.append_ne_nil_of_right_ne_nil _ (List.cons_ne_nil _ _) hnil

theorem solid_of_beginsArgs (h : BeginsArgs line) : Solid line := by
  intro hnil
  rw [BeginsArgs, Text.trim, hnil] at h
  cases h

theorem solid_of_ofLine? (h : NoteLine.ofLine? (Text.withoutReturn line, number) = some l) : Solid line := by
  refine solid_withoutReturn.mp fun hnil => ?_
  rw [ofLine?_eq_none (not_not_intro hnil)] at h
  cases h

/-- A carriage return at the end of a line does not count. -/
theorem ofLine?_of_solid (h : Solid line) (number : Nat) :
    NoteLine.ofLine? (Text.withoutReturn line, number) =
      some ⟨number, depthOf line, Text.trimStart (Text.withoutReturn line)⟩ := by
  obtain ⟨hblanks, hsolid⟩ := Text.takeWhile_withoutReturn h
  rw [ofLine?_eq_some hsolid, hblanks]
  rfl

theorem depth_of_ofLine? (h : NoteLine.ofLine? (Text.withoutReturn line, number) = some l) : l.depth = depthOf line := by
  rw [ofLine?_of_solid (solid_of_ofLine? h)] at h
  obtain rfl := Option.some.inj h
  rfl

theorem beginsArgs_iff (h : NoteLine.ofLine? (Text.withoutReturn line, number) = some l) :
    l.beginsArgs = true ↔ BeginsArgs line := by
  rw [beginsArgs_of_ofLine? h, Text.trim_withoutReturn]

/-- Lines as they are read: numbered, without carriage returns, and without those that are all white space. -/
def readFrom (first : Nat) (lines : List (List Char)) : List NoteLine := numbered first (lines.map Text.withoutReturn)

theorem readFrom_append (first : Nat) (front back : List (List Char)) :
    readFrom first (front ++ back) = readFrom first front ++ readFrom (first + front.length) back := by
  rw [readFrom, List.map_append, numbered_append, List.length_map, readFrom, readFrom]

theorem readFrom_cons (h : Solid line) (first : Nat) (lines : List (List Char)) :
    readFrom first (line :: lines) =
      ⟨first, depthOf line, Text.trimStart (Text.withoutReturn line)⟩ :: readFrom (first + 1) lines :=
  numbered_cons (ofLine?_of_solid h first)

theorem readFrom_cons_of_blank (h : ¬Solid line) (first : Nat) (lines : List (List Char)) :
    readFrom first (line :: lines) = readFrom (first + 1) lines :=
  numbered_cons_of_none (ofLine?_eq_none (mt solid_withoutReturn.mp h) first)

theorem mem_readFrom (h : l ∈ readFrom first lines) :
    ∃ line ∈ lines, ∃ number, NoteLine.ofLine? (Text.withoutReturn line, number) = some l := by
  obtain ⟨text, htext, number, hread⟩ := mem_numbered h
  obtain ⟨line, hline, rfl⟩ := List.mem_map.mp htext
  exact ⟨line, hline, number, hread⟩

theorem not_beginsArgs_readFrom (h : ∀ line ∈ lines, ¬BeginsArgs line) :
    ∀ l ∈ readFrom first lines, l.beginsArgs = false := by
  refine not_beginsArgs_numbered fun text htext => ?_
  obtain ⟨line, hline, rfl⟩ := List.mem_map.mp htext
  rw [Text.trim_withoutReturn]
  exact h line hline

theorem exists_beginsArgs_readFrom (h : ∃ line ∈ lines, BeginsArgs line) (first : Nat) :
    ∃ l ∈ readFrom first lines, l.beginsArgs = true := by
  obtain ⟨line, hline, hbegins⟩ := h
  obtain ⟨front, back, rfl⟩ := List.append_of_mem hline
  have hsolid := solid_of_beginsArgs hbegins
  refine ⟨_, ?_, (beginsArgs_iff (ofLine?_of_solid hsolid (first + front.length))).mpr hbegins⟩
  rw [readFrom_append, readFrom_cons hsolid]
  exact List.mem_append_right _ List.mem_cons_self

theorem depth_head_readFrom (h : ∀ line ∈ lines.find? fun line => Solid line, depthOf line ≤ depth) (first : Nat) :
    ∀ l ∈ (readFrom first lines).head?, l.depth ≤ depth := by
  induction lines generalizing first with
  | nil =>
    intro l hl
    cases hl
  | cons line lines ih =>
    by_cases hsolid : Solid line
    · rw [readFrom_cons hsolid]
      intro l hl
      obtain rfl := Option.some.inj hl
      exact h line (List.find?_cons_of_pos (decide_eq_true hsolid))
    · rw [List.find?_cons_of_neg (by rwa [decide_eq_true_iff])] at h
      rw [readFrom_cons_of_blank hsolid]
      exact ih h (first + 1)

end Read

/-! ### What surrounds a list -/

section Surroundings
variable {before known after lines : List NoteLine} {shift : Nat}

/-- Nothing counts from a line on that is not deeper than any line that begins a list before it. -/
theorem argsLines_append (h : ∃ l ∈ known, l.beginsArgs = true)
    (hshallow : ∀ l ∈ known, l.beginsArgs = true → ∀ next ∈ after.head?, next.depth ≤ l.depth) :
    argsLines (known ++ after) = argsLines known := by
  induction known with
  | nil =>
    obtain ⟨l, hl, -⟩ := h
    cases hl
  | cons l known ih =>
    -- The first line that begins a list decides: its own depth cuts the list off, and lines before it only go by.
    by_cases hbegins : l.beginsArgs = true
    · have hafter : after.takeWhile (fun line => l.depth < line.depth) = [] := by
        cases after with
        | nil => rfl
        | cons next after =>
          refine List.takeWhile_cons_of_neg ?_
          rw [decide_eq_true_iff]
          exact Nat.not_lt.mpr (hshallow l List.mem_cons_self hbegins next rfl)
      rw [List.cons_append, argsLines_cons hbegins, argsLines_cons hbegins, List.takeWhile_append, hafter]
      split
      · next hall => rw [List.append_nil, (List.takeWhile_sublist _).eq_of_length hall]
      · rfl
    · obtain ⟨first, hfirst, hfirstBegins⟩ := h
      rcases List.mem_cons.mp hfirst with rfl | hfirst
      · exact absurd hfirstBegins hbegins
      · rw [List.cons_append, argsLines_cons_of_not hbegins, argsLines_cons_of_not hbegins]
        exact ih ⟨first, hfirst, hfirstBegins⟩ fun l hl => hshallow l (List.mem_cons_of_mem _ hl)

/-- A line that stands further down. -/
def NoteLine.moved (shift : Nat) (l : NoteLine) : NoteLine := { l with number := l.number + shift }

theorem readFrom_add (first shift : Nat) (lines : List (List Char)) :
    readFrom (first + shift) lines = (readFrom first lines).map (NoteLine.moved shift) := by
  induction lines generalizing first with
  | nil => rfl
  | cons line lines ih =>
    have hnumber : first + shift + 1 = first + 1 + shift := Nat.add_right_comm first shift 1
    by_cases hsolid : Solid line
    · rw [readFrom_cons hsolid, readFrom_cons hsolid, hnumber, ih (first + 1), List.map_cons]
      rfl
    · rw [readFrom_cons_of_blank hsolid, readFrom_cons_of_blank hsolid, hnumber, ih (first + 1)]

theorem keeps_moved (shift : Nat) : Keeps (· + shift) (NoteLine.moved shift) := keeps_renumbered (· + shift)

/-- Only the line that an error names depends on where the lines stand. -/
theorem entries_moved {told : List Entry} :
    entries (lines.map (NoteLine.moved shift)) = .ok told ↔ entries lines = .ok told := by
  rw [(keeps_moved shift).entries_map]
  cases entries lines with
  | error error => exact iff_of_false nofun nofun
  | ok told => exact Iff.rfl

end Surroundings

/-! ### Kernels -/

namespace Kernel
variable {indent : Nat} {k : Kernel} {line : List Char}

theorem head_item : ∀ c ∈ ("- Name:".toList ++ k.name).head?, Text.isBlank c = false := by
  intro c hc
  obtain rfl := Option.some.inj hc
  decide

theorem item_shape (indent : Nat) (k : Kernel) :
    Solid (Text.blanks indent ++ ("- Name:".toList ++ k.name)) ∧
      depthOf (Text.blanks indent ++ ("- Name:".toList ++ k.name)) = indent ∧
      ¬BeginsArgs (Text.blanks indent ++ ("- Name:".toList ++ k.name)) := by
  refine ⟨?_, ?_, fun hbegins => ?_⟩
  · rw [Solid, Text.trimStart_blanks_append, Text.trimStart_of_head head_item]
    exact List.append_ne_nil_of_left_ne_nil (by decide) _
  · rw [depthOf, Text.takeWhile_blanks_append indent head_item, length_octets_blanks]
  · rw [BeginsArgs, Text.trim_blanks_append, Text.trim, Text.trimStart_of_head head_item] at hbegins
    obtain ⟨rest, hrest⟩ := Text.trimEnd_prefix ("- Name:".toList ++ k.name)
    rw [hbegins] at hrest
    cases (List.cons.inj hrest).1

theorem Inside.clean (h : k.Inside indent) (hline : line ∈ k.lines indent) : Clean line := by
  rcases List.mem_cons.mp hline with rfl | hline
  · have hfree : ∀ c, c ≠ ' ' → c ∉ "- Name:".toList → c ∉ k.name →
        c ∉ Text.blanks indent ++ ("- Name:".toList ++ k.name) := by
      intro c hblank hmark hname hc
      rcases List.mem_append.mp hc with hc | hc
      · exact hblank (List.mem_replicate.mp hc).2
      · exact (List.mem_append.mp hc).elim hmark hname
    exact ⟨hfree _ (by decide) (by decide) h.name.1, hfree _ (by decide) (by decide) h.name.2⟩
  · exact (h.body line hline).1

/-- A line of a kernel that begins a list of arguments is deeper than the list of kernels. -/
theorem Inside.deeper (h : k.Inside indent) (hline : line ∈ k.lines indent) (hbegins : BeginsArgs line) :
    indent < depthOf line := by
  rcases List.mem_cons.mp hline with rfl | hline
  · exact absurd hbegins (k.item_shape indent).2.2
  · exact (h.body line hline).2 (solid_of_beginsArgs hbegins)

theorem not_beginsArgs_lines (h : ¬k.HasArgs) (hline : line ∈ k.lines indent) : ¬BeginsArgs line := by
  rcases List.mem_cons.mp hline with rfl | hline
  · exact (k.item_shape indent).2.2
  · exact fun hbegins => h ⟨line, hline, hbegins⟩

end Kernel

namespace Metadata
variable {m : Metadata} {kernels before after : List Kernel} {k : Kernel}

/-- The lines of kernels. -/
def linesOf (m : Metadata) (kernels : List Kernel) : List (List Char) := kernels.flatMap (Kernel.lines m.indent)

theorem linesOf_append (m : Metadata) (before after : List Kernel) :
    m.linesOf (before ++ after) = m.linesOf before ++ m.linesOf after :=
  List.flatMap_append

theorem not_beginsArgs_linesOf (h : ∀ k ∈ kernels, ¬k.HasArgs) : ∀ line ∈ m.linesOf kernels, ¬BeginsArgs line := by
  intro line hline
  obtain ⟨k, hk, hline⟩ := List.mem_flatMap.mp hline
  exact Kernel.not_beginsArgs_lines (h k hk) hline

namespace WellFormed

theorem mono (h : m.WellFormed kernels) (hsub : ∀ k ∈ before, k ∈ kernels) : m.WellFormed before :=
  { h with kernels := fun k hk => h.kernels k (hsub k hk) }

section
variable (h : m.WellFormed kernels)
include h

theorem front : ∀ line ∈ m.front, Clean line ∧ ¬BeginsArgs line := by
  intro line hline
  rcases List.mem_append.mp hline with hline | hline
  · exact h.opening line hline
  · obtain rfl := List.mem_singleton.mp hline
    decide

theorem clean : ∀ line ∈ m.lines kernels, Clean line := by
  intro line hline
  rcases List.mem_append.mp hline with hline | hline
  · exact (h.front line hline).1
  · rcases List.mem_append.mp hline with hline | hline
    · obtain ⟨k, hk, hline⟩ := List.mem_flatMap.mp hline
      exact (h.kernels k hk).clean hline
    · exact (h.closing line hline).1

theorem noteLines_octets : noteLines (noteText (m.octets kernels)) = readFrom 1 (m.lines kernels) := by
  have hnul : '\x00' ∉ Text.ofLines (m.lines kernels) :=
    Text.not_mem_ofLines (by decide) fun line hline => (h.clean line hline).2
  have hzeros : (List.replicate m.padding (0 : UInt8)).filter (· ≠ 0) = [] :=
    List.filter_eq_nil_iff.mpr fun b hb => by
      obtain rfl := (List.mem_replicate.mp hb).2
      decide
  have hnothing : Text.decodeLossy [] = [] := rfl
  rw [octets, noteText_written h.header hnul, hzeros, hnothing, noteLines_written fun line hline => (h.clean line hline).1]
  exact List.append_nil _

/-- What follows the kernels begins at the depth of the list of kernels, or above it. -/
theorem shallow (hsub : ∀ k ∈ after, k ∈ kernels) :
    ∀ line ∈ (m.linesOf after ++ m.closing).find? fun line => Solid line, depthOf line ≤ m.indent := by
  cases after with
  | nil => exact h.ends
  | cons k after =>
    obtain ⟨hsolid, hdepth, -⟩ := k.item_shape m.indent
    intro line hline
    rw [linesOf, List.flatMap_cons, Kernel.lines, List.cons_append, List.cons_append,
      List.find?_cons_of_pos (p := fun line => decide (Solid line)) (decide_eq_true hsolid)] at hline
    obtain rfl := Option.some.inj hline
    exact Nat.le_of_eq hdepth

end

/-- Nothing after a kernel with a list counts. -/
theorem argsLines_cut (h : m.WellFormed (before ++ k :: after)) (hargs : k.HasArgs) :
    argsLines (readFrom 1 (m.lines (before ++ k :: after))) = argsLines (readFrom 1 (m.front ++ m.linesOf (before ++ [k]))) := by
  have hlines : m.lines (before ++ k :: after) =
      (m.front ++ m.linesOf (before ++ [k])) ++ (m.linesOf after ++ m.closing) := by
    have hsplit : before ++ k :: after = (before ++ [k]) ++ after := by rw [List.append_assoc]; rfl
    rw [lines, ← linesOf, hsplit, linesOf_append m (before ++ [k]) after]
    simp only [List.append_assoc]
  rw [hlines, readFrom_append]
  refine argsLines_append (exists_beginsArgs_readFrom ?_ 1) fun l hl hbegins next hnext => ?_
  · obtain ⟨line, hline, hbegins⟩ := hargs
    refine ⟨line, List.mem_append_right _ (List.mem_flatMap.mpr ⟨k, ?_, List.mem_cons_of_mem _ hline⟩), hbegins⟩
    exact List.mem_append_right _ List.mem_cons_self
  · have hnextDepth : next.depth ≤ m.indent :=
      depth_head_readFrom (h.shallow fun k hk => List.mem_append_right _ (List.mem_cons_of_mem _ hk)) _ next hnext
    obtain ⟨line, hline, number, hread⟩ := mem_readFrom hl
    have hbegins := (beginsArgs_iff hread).mp hbegins
    have hdepth : m.indent < depthOf line := by
      rcases List.mem_append.mp hline with hline | hline
      · exact absurd hbegins (h.front line hline).2
      · obtain ⟨other, hother, hline⟩ := List.mem_flatMap.mp hline
        refine (h.kernels other ?_).deeper hline hbegins
        rcases List.mem_append.mp hother with hother | hother
        · exact List.mem_append_left _ hother
        · exact List.mem_append_right _ (List.mem_singleton.mp hother ▸ List.mem_cons_self)
    rw [depth_of_ofLine? hread]
    exact Nat.le_trans hnextDepth (Nat.le_of_lt hdepth)

/-- Nothing before a kernel counts if there is no list. -/
theorem argsLines_last (h : m.WellFormed kernels) (hnone : ∀ k ∈ before, ¬k.HasArgs) (k : Kernel) :
    argsLines (readFrom 1 (m.front ++ m.linesOf (before ++ [k]))) =
      (argsLines (readFrom 1 (k.lines m.indent))).map (NoteLine.moved (m.front ++ m.linesOf before).length) := by
  have hlast : m.linesOf [k] = k.lines m.indent := List.flatMap_singleton _ _
  have hskipped : ∀ line ∈ m.front ++ m.linesOf before, ¬BeginsArgs line := by
    intro line hline
    rcases List.mem_append.mp hline with hline | hline
    · exact (h.front line hline).2
    · exact not_beginsArgs_linesOf hnone line hline
  rw [linesOf_append, ← List.append_assoc, readFrom_append, argsLines_skip (not_beginsArgs_readFrom hskipped), hlast,
    readFrom_add, (keeps_moved _).argsLines_map]

/-- Without any list there are no arguments. -/
theorem ofNote_of_none (h : m.WellFormed kernels) (hnone : ∀ k ∈ kernels, ¬k.HasArgs) :
    ofNote (m.octets kernels) = .ok [] := by
  have hskipped : ∀ line ∈ m.lines kernels, ¬BeginsArgs line := by
    intro line hline
    rcases List.mem_append.mp hline with hline | hline
    · exact (h.front line hline).2
    · rcases List.mem_append.mp hline with hline | hline
      · exact not_beginsArgs_linesOf hnone line hline
      · exact (h.closing line hline).2
  rw [ofNote, ofText, h.noteLines_octets, argsLines_of_none (not_beginsArgs_readFrom hskipped)]
  rfl

end WellFormed

/-! ### The first kernel with a list -/

theorem placed_iff {x y : Except KernelArgsError (List Entry)} (h : ∀ told, x = .ok told ↔ y = .ok told)
    (placed : List KernelArg) : x >>= layout 0 0 = .ok placed ↔ y >>= layout 0 0 = .ok placed := by
  cases x with
  | ok told => rw [(h told).mp rfl]
  | error e =>
    cases y with
    | ok told => cases (h told).mpr rfl
    | error e' => exact iff_of_false (fun h => by cases h) (fun h => by cases h)

/-- The first kernel with a list of arguments tells the arguments, whichever kernels come before and after it: they
    are those of the metadata that end with this kernel, and those of the metadata that have it alone. Metadata that
    end before it have no arguments. -/
theorem first_list_tells (h : m.WellFormed (before ++ k :: after)) (hnone : ∀ b ∈ before, ¬b.HasArgs) :
    (k.HasArgs →
      ofNote (m.octets (before ++ k :: after)) = ofNote (m.octets (before ++ [k])) ∧
      ∀ placed, ofNote (m.octets (before ++ k :: after)) = .ok placed ↔ ofNote (m.octets [k]) = .ok placed) ∧
    (¬k.HasArgs → ofNote (m.octets (before ++ [k])) = .ok []) := by
  have hmem : k ∈ before ++ k :: after := List.mem_append_right _ List.mem_cons_self
  have hcut : m.WellFormed (before ++ [k]) := h.mono fun other hother => by
    rcases List.mem_append.mp hother with hother | hother
    · exact List.mem_append_left _ hother
    · exact List.mem_singleton.mp hother ▸ hmem
  have halone : m.WellFormed ([] ++ [k]) := h.mono fun other hother => List.mem_singleton.mp hother ▸ hmem
  refine ⟨fun hargs => ?_, fun hargs => ?_⟩
  -- In all three metadata the lines of the list are those of the one kernel, at different places.
  · have hfull := (h.argsLines_cut hargs).trans (h.argsLines_last hnone k)
    have hshort := (hcut.argsLines_cut hargs).trans (h.argsLines_last hnone k)
    have hone := (halone.argsLines_cut hargs).trans
      (halone.argsLines_last (fun _ hmem => absurd hmem List.not_mem_nil) k)
    rw [List.nil_append] at hone halone
    refine ⟨?_, fun placed => ?_⟩
    · rw [ofNote, ofText, h.noteLines_octets, hfull, ofNote, ofText, hcut.noteLines_octets, hshort]
    · rw [ofNote, ofText, h.noteLines_octets, hfull, ofNote, ofText, halone.noteLines_octets, hone]
      exact placed_iff (fun told => entries_moved.trans entries_moved.symm) placed
  · refine hcut.ofNote_of_none fun other hother => ?_
    rcases List.mem_append.mp hother with hother | hother
    · exact hnone other hother
    · exact List.mem_singleton.mp hother ▸ hargs

/-- A kernel without a list of arguments. -/
def silent : Kernel := ⟨" reset".toList, ["    SymbolName: reset@kd\r".toList, []]⟩

/-- A kernel with one argument. -/
def telling : Kernel :=
  ⟨" fill".toList, ["    Args:".toList, "      - Name: out".toList, "        Size: 8".toList, "        Align: 8".toList]⟩

/-- A kernel whose argument lacks its alignment. -/
def faulty : Kernel := ⟨" sum".toList, ["    Args:".toList, "      - Name: in".toList, "        Size: 4".toList]⟩

/-- What stands around them. -/
def bracket : Metadata := ⟨[0x04, 0x00, 0x41, 0x4d, 0x44], ["Version: [ 1, 0 ]".toList], 2, ["...".toList], 1⟩

theorem bracket_wellFormed : bracket.WellFormed [silent, telling, faulty] := by
  refine ⟨by decide, by decide, fun k hk => ?_, by decide, by decide⟩
  rcases List.mem_cons.mp hk with rfl | hk
  · exact ⟨by decide, by decide⟩
  rcases List.mem_cons.mp hk with rfl | hk
  · exact ⟨by decide, by decide⟩
  obtain rfl := List.mem_singleton.mp hk
  exact ⟨by decide, by decide⟩

theorem bracket_first_list :
    bracket.WellFormed [silent, telling, faulty] ∧
    ofNote (bracket.octets [silent, telling, faulty]) = ofNote (bracket.octets [silent, telling]) ∧
    ofNote (bracket.octets [silent]) = .ok [] := by
  have hsilent : ¬silent.HasArgs := by decide
  have hsecond := @first_list_tells bracket [silent] [faulty] telling bracket_wellFormed
    (List.forall_mem_singleton.mpr hsilent)
  have hfirst := @first_list_tells bracket [] [telling, faulty] silent bracket_wellFormed (List.forall_mem_nil _)
  exact ⟨bracket_wellFormed, (hsecond.1 (by decide)).1, hfirst.2 hsilent⟩

/-- The second kernel tells the arguments if the first one has no list. -/
theorem later_kernel_tells :
    bracket.WellFormed [silent, telling] ∧
    ofNote (bracket.octets [silent, telling]) = .ok [⟨"out", none, 8, 8, 0⟩] ∧
    ofNote (bracket.octets [silent]) = .ok [] :=
  ⟨bracket_wellFormed.mono fun _ hk => List.mem_append_left [faulty] hk, rfl, rfl⟩

end Metadata

end GpuListing.KernelArgs
