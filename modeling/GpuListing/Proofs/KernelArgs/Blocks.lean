import GpuListing.KernelArgs.Note
import GpuListing.Proofs.KernelArgs.Scan

/-! # Blocks read back

A line that is written from a field is read as this field, and the lines of blocks are read as one entry for each
block. Keys end at the first colon, so none has one; a value without quotation marks ends where white space does,
so it has none at its ends, and no quotation marks of its own that would be taken away. -/

namespace GpuListing.KernelArgs

/-! ### Values -/

section Values
variable {quoting : Quoting} {value inner : List Char} {mark : Char}

theorem unmark?_cons (mark : Char) (c : Char) (rest : List Char) :
    unmark? mark (c :: rest) = if c = mark ∧ rest.getLast? = some mark then some rest.dropLast else none :=
  rfl

theorem unmark?_eq_some_iff : unmark? mark value = some inner ↔ value = mark :: (inner ++ [mark]) := by
  cases value with
  | nil =>
    constructor
    · intro h
      cases h
    · intro h
      cases h
  | cons c rest =>
    rw [unmark?_cons]
    constructor
    · intro h
      split at h
      · next hmarks =>
        obtain ⟨rfl, hlast⟩ := hmarks
        obtain ⟨front, rfl⟩ := List.getLast?_eq_some_iff.mp hlast
        rw [List.dropLast_concat, Option.some.injEq] at h
        rw [h]
      · cases h
    · intro h
      obtain ⟨rfl, rfl⟩ := List.cons.inj h
      rw [if_pos ⟨rfl, List.getLast?_concat⟩, List.dropLast_concat]

theorem quoted_iff : Quoted value ↔ (unmark? '\x27' value).isSome = true ∨ (unmark? '\x22' value).isSome = true := by
  simp only [Option.isSome_iff_exists, unmark?_eq_some_iff]
  exact exists_or

instance (value : List Char) : Decidable (Quoted value) := decidable_of_iff _ quoted_iff.symm

theorem unquote_write (h : quoting = .plain → ¬Quoted value) : unquote (quoting.write value) = value := by
  cases quoting with
  | plain =>
    have hsingle : unmark? '\x27' value = none :=
      Option.eq_none_iff_forall_ne_some.mpr fun inner he => h rfl ⟨inner, .inl (unmark?_eq_some_iff.mp he)⟩
    have hdouble : unmark? '\x22' value = none :=
      Option.eq_none_iff_forall_ne_some.mpr fun inner he => h rfl ⟨inner, .inr (unmark?_eq_some_iff.mp he)⟩
    rw [Quoting.write, unquote, hsingle, hdouble]
    rfl
  | single => rw [unquote, unmark?_eq_some_iff.mpr (rfl : Quoting.write .single value = _)]; rfl
  | double =>
    -- Single quotation marks are looked for first.
    have hsingle : unmark? '\x27' (Quoting.write .double value) = none := by
      rw [Quoting.write, unmark?_cons]
      exact if_neg fun h => absurd h.1 (by decide)
    rw [unquote, hsingle, unmark?_eq_some_iff.mpr (rfl : Quoting.write .double value = _)]
    rfl

theorem mem_write {c : Char} (h : c ∈ quoting.write value) : c ∈ value ∨ c = '\x27' ∨ c = '\x22' := by
  cases quoting with
  | plain => exact .inl h
  | single =>
    rcases List.mem_cons.mp h with rfl | h
    · exact .inr (.inl rfl)
    · exact (List.mem_append.mp h).imp id fun h => .inl (List.mem_singleton.mp h)
  | double =>
    rcases List.mem_cons.mp h with rfl | h
    · exact .inr (.inr rfl)
    · exact (List.mem_append.mp h).imp id fun h => .inr (List.mem_singleton.mp h)

theorem bare_quoted (hmark : Text.isBlank mark = false) (value : List Char) :
    Text.Bare (mark :: (value ++ [mark])) := by
  refine ⟨fun c hc => ?_, fun c hc => ?_⟩
  · obtain rfl := Option.some.inj hc
    exact hmark
  · rw [← List.cons_append, List.getLast?_concat] at hc
    obtain rfl := Option.some.inj hc
    exact hmark

theorem bare_write (h : quoting = .plain → Text.Bare value) : Text.Bare (quoting.write value) := by
  cases quoting with
  | plain => exact h rfl
  | single => exact bare_quoted (by decide) value
  | double => exact bare_quoted (by decide) value

end Values

/-! ### Fields -/

namespace FieldLine

theorem readable_iff {base : Nat} {line : FieldLine} : line.Readable base ↔
    base < line.indent ∧ ':' ∉ line.key ∧ Text.Bare line.key ∧ ¬['-', ' '] <+: line.key ∧
      '\n' ∉ line.key ++ line.value ∧ '\x00' ∉ line.key ++ line.value ∧
      (line.quoting = .plain → Text.Bare line.value ∧ ¬Quoted line.value) :=
  ⟨fun ⟨deeper, colon, bare, unmarked, feed, nul, plain⟩ => ⟨deeper, colon, bare, unmarked, feed, nul, plain⟩,
    fun ⟨deeper, colon, bare, unmarked, feed, nul, plain⟩ => ⟨deeper, colon, bare, unmarked, feed, nul, plain⟩⟩

instance (base : Nat) (line : FieldLine) : Decidable (line.Readable base) := decidable_of_iff _ readable_iff.symm

/-- The field that a line tells. -/
def field (line : FieldLine) : Field := ⟨line.key, line.value⟩

namespace Readable
variable {base : Nat} {line : FieldLine} (h : line.Readable base)
include h

theorem bare_value : Text.Bare (line.quoting.write line.value) := bare_write fun hq => (h.plain hq).1

theorem ofText?_content : Field.ofText? line.content = some line.field := by
  rw [content, ofText?_colon h.colon, Text.trim_of_bare h.bare, Text.trim_blanks_append, Text.trim_of_bare h.bare_value,
    unquote_write fun hq => (h.plain hq).2]
  rfl

theorem head_content : ∀ c ∈ line.content.head?, Text.isBlank c = false := by
  have hbare := h.bare.1
  intro c hc
  rw [content] at hc
  cases hkey : line.key with
  | nil =>
    rw [hkey] at hc
    obtain rfl := Option.some.inj hc
    decide
  | cons d key =>
    rw [hkey] at hc hbare
    exact hbare c hc

theorem item?_content (number : Nat) : NoteLine.item? ⟨number, line.indent, line.content⟩ = none := by
  unfold NoteLine.item?
  split
  · next rest heq =>
    exfalso
    have hcontent : line.key ++ ':' :: (Text.blanks line.gap ++ line.quoting.write line.value) = '-' :: ' ' :: rest :=
      heq
    -- A colon follows the key, so the two characters of the mark would both be in the key.
    cases hkey : line.key with
    | nil => rw [hkey] at hcontent; cases hcontent
    | cons c key =>
      cases key with
      | nil => rw [hkey] at hcontent; cases hcontent
      | cons d key =>
        rw [hkey] at hcontent
        obtain ⟨rfl, hrest⟩ := List.cons.inj hcontent
        obtain ⟨rfl, -⟩ := List.cons.inj hrest
        exact h.unmarked (hkey ▸ ⟨key, rfl⟩)
  · rfl

/-- A line does not end in a carriage return. -/
theorem withoutReturn_content (front : List Char) :
    Text.withoutReturn (front ++ line.content) = front ++ line.content := by
  refine Text.withoutReturn_of_getLast? fun hlast => ?_
  have hshape : front ++ line.content =
      ((front ++ line.key) ++ ':' :: Text.blanks line.gap) ++ line.quoting.write line.value := by
    simp only [content, List.append_assoc, List.cons_append]
  rw [hshape, List.getLast?_append, List.getLast?_append, List.getLast?_cons, Option.some_or, Option.or_eq_some_iff] at hlast
  -- The last character is that of the value, or stands before a value that is empty.
  rcases hlast with hlast | ⟨-, hlast⟩
  · cases h.bare_value.2 '\r' hlast
  · have hmem : '\r' ∈ ':' :: Text.blanks line.gap :=
      List.mem_of_getLast? (List.getLast?_cons.trans hlast)
    rcases List.mem_cons.mp hmem with hr | hr
    · cases hr
    · cases (List.mem_replicate.mp hr).2

theorem ofLine?_text (number : Nat) :
    NoteLine.ofLine? (line.text, number) = some ⟨number, line.indent, line.content⟩ :=
  ofLine?_blanks (List.append_ne_nil_of_right_ne_nil _ (List.cons_ne_nil _ _)) h.head_content line.indent number

end Readable

/-- What a line holds besides its key and its value. -/
def marks : List Char := [':', ' ', '\x27', '\x22', '-']

theorem mem_content {line : FieldLine} {c : Char} (h : c ∈ line.content) : c ∈ line.key ++ line.value ∨ c ∈ marks := by
  rcases List.mem_append.mp h with h | h
  · exact .inl (List.mem_append_left _ h)
  · rcases List.mem_cons.mp h with rfl | h
    · exact .inr (by decide)
    · rcases List.mem_append.mp h with h | h
      · obtain rfl := (List.mem_replicate.mp h).2
        exact .inr (by decide)
      · rcases mem_write h with h | h
        · exact .inl (List.mem_append_right _ h)
        · exact .inr (by rcases h with rfl | rfl <;> decide)

theorem mem_text {line : FieldLine} {c : Char} (h : c ∈ line.text ∨ c ∈ line.itemText) :
    c ∈ line.key ++ line.value ∨ c ∈ marks := by
  have hblank : ∀ n, c ∈ Text.blanks n → c ∈ marks := by
    rintro n hn
    obtain rfl := (List.mem_replicate.mp hn).2
    decide
  rcases h with h | h
  · rcases List.mem_append.mp h with h | h
    · exact .inr (hblank _ h)
    · exact mem_content h
  · rcases List.mem_append.mp h with h | h
    · exact .inr (hblank _ h)
    · rcases List.mem_cons.mp h with rfl | h
      · exact .inr (by decide)
      · rcases List.mem_cons.mp h with rfl | h
        · exact .inr (by decide)
        · exact mem_content h

theorem ofLine?_itemText (line : FieldLine) (number : Nat) :
    NoteLine.ofLine? (line.itemText, number) = some ⟨number, line.indent, '-' :: ' ' :: line.content⟩ := by
  refine ofLine?_blanks (List.cons_ne_nil _ _) (fun c hc => ?_) line.indent number
  obtain rfl := Option.some.inj hc
  decide

end FieldLine

/-! ### Blocks -/

namespace Block

/-- The entry that a block tells. -/
def entry (b : Block) : Entry := b.fields.map FieldLine.field

/-- The fields of lines without the mark of an entry go to the entry before them. -/
theorem group_fields {base : Nat} {rest : List FieldLine} (h : ∀ line ∈ rest, line.Readable base) (number : Nat)
    (after : List (List Char)) :
    group (numbered number (rest.map FieldLine.text ++ after)) =
      (rest.map FieldLine.field ++ (group (numbered (number + rest.length) after)).1,
        (group (numbered (number + rest.length) after)).2) := by
  induction rest generalizing number with
  | nil => rfl
  | cons line rest ih =>
    have hline := h line List.mem_cons_self
    have hrest := ih (fun other hother => h other (List.mem_cons_of_mem line hother)) (number + 1)
    have hlength : number + 1 + rest.length = number + (line :: rest).length := by
      rw [List.length_cons, Nat.add_assoc, Nat.add_comm 1]
    rw [hlength] at hrest
    rw [List.map_cons, List.cons_append, numbered_cons (hline.ofLine?_text number), group, hrest]
    simp only [hline.item?_content, hline.ofText?_content]
    rfl

theorem group_lines {base : Nat} {blocks : List Block} (h : ∀ b ∈ blocks, ∀ line ∈ b.fields, line.Readable base)
    (number : Nat) : group (numbered number (blocks.flatMap lines)) = ([], blocks.map entry) := by
  induction blocks generalizing number with
  | nil => rfl
  | cons b blocks ih =>
    have hb := h b List.mem_cons_self
    have hfirst := hb b.first List.mem_cons_self
    have hrest := group_fields (fun line hline => hb line (List.mem_cons_of_mem b.first hline)) (number + 1)
      (blocks.flatMap lines)
    rw [ih fun other hother => h other (List.mem_cons_of_mem b hother)] at hrest
    rw [List.flatMap_cons, lines, List.cons_append, numbered_cons (b.first.ofLine?_itemText number), group, hrest]
    show ([], ((Field.ofText? b.first.content).toList ++ (b.rest.map FieldLine.field ++ [])) :: blocks.map entry) = _
    rw [hfirst.ofText?_content, List.append_nil]
    rfl

/-- The lines of blocks are read as one entry for each of them. -/
theorem entries_lines {base : Nat} {blocks : List Block} (h : ∀ b ∈ blocks, ∀ line ∈ b.fields, line.Readable base)
    (number : Nat) : entries (numbered number (blocks.flatMap lines)) = .ok (blocks.map entry) := by
  have hgroup := group_lines h number
  cases blocks with
  | nil => rfl
  | cons b blocks =>
    rw [List.flatMap_cons, lines, List.cons_append, numbered_cons (b.first.ofLine?_itemText number)] at hgroup ⊢
    exact congrArg (fun grouped => Except.ok grouped.2) hgroup

/-- The lines of a block are deeper than the list. -/
theorem deeper_lines {base : Nat} {blocks : List Block} (h : ∀ b ∈ blocks, ∀ line ∈ b.fields, line.Readable base)
    {number : Nat} {l : NoteLine} (hl : l ∈ numbered number (blocks.flatMap lines)) : base < l.depth := by
  obtain ⟨text, htext, k, hline⟩ := mem_numbered hl
  obtain ⟨b, hb, htext⟩ := List.mem_flatMap.mp htext
  rcases List.mem_cons.mp htext with rfl | htext
  · rw [b.first.ofLine?_itemText k] at hline
    obtain rfl := Option.some.inj hline
    exact (h b hb b.first List.mem_cons_self).deeper
  · obtain ⟨line, hmem, rfl⟩ := List.mem_map.mp htext
    have hread := h b hb line (List.mem_cons_of_mem b.first hmem)
    rw [hread.ofLine?_text k] at hline
    obtain rfl := Option.some.inj hline
    exact hread.deeper

/-- Lines of blocks hold neither line feeds nor zeros, and end in no carriage return. -/
theorem clean_lines {base : Nat} {b : Block} (h : ∀ line ∈ b.fields, line.Readable base) {text : List Char}
    (ht : text ∈ b.lines) : '\n' ∉ text ∧ '\x00' ∉ text ∧ Text.withoutReturn text = text := by
  have hfree : ∀ (line : FieldLine) (c : Char), c ∉ line.key ++ line.value → c ∉ FieldLine.marks →
      ¬(c ∈ line.text ∨ c ∈ line.itemText) :=
    fun line c hc hmark hmem => (FieldLine.mem_text hmem).elim hc hmark
  rcases List.mem_cons.mp ht with rfl | ht
  · have hread := h b.first List.mem_cons_self
    refine ⟨fun hc => hfree _ _ hread.feed (by decide) (.inr hc), fun hc => hfree _ _ hread.nul (by decide) (.inr hc), ?_⟩
    have hclean := hread.withoutReturn_content (Text.blanks b.first.indent ++ ['-', ' '])
    rwa [List.append_assoc] at hclean
  · obtain ⟨line, hmem, rfl⟩ := List.mem_map.mp ht
    have hread := h line (List.mem_cons_of_mem b.first hmem)
    exact ⟨fun hc => hfree _ _ hread.feed (by decide) (.inl hc), fun hc => hfree _ _ hread.nul (by decide) (.inl hc),
      hread.withoutReturn_content (Text.blanks line.indent)⟩

end Block

end GpuListing.KernelArgs
