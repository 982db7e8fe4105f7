import GpuListing.KernelArgs.Entry
import GpuListing.Proofs.Text.Lines
import GpuListing.Proofs.Text.Utf8

/-! # Notes line by line

The text of a note that is written from a text is this text, and the lines of a text come in the order in which
they are written. The list of arguments is told by the first line that begins one: nothing before that line counts,
and nothing from the first line on that is not deeper. -/

namespace GpuListing.KernelArgs

/-! ### Text -/

theorem filter_octets {text : List Char} (h : '\x00' ∉ text) : (Text.octets text).filter (· ≠ 0) = Text.octets text :=
  List.filter_eq_self.mpr fun _ hb => decide_eq_true fun he => Text.zero_not_mem_octets h (he ▸ hb)

theorem noteText_written {header : Bytes} (hheader : 0x0a ∉ header) {text : List Char} (hnul : '\x00' ∉ text)
    (rest : Bytes) :
    noteText (header ++ 0x0a :: (Text.octets text ++ rest)) = text ++ Text.decodeLossy (rest.filter (· ≠ 0)) := by
  have hkept : ∀ b ∈ header, decide (b ≠ 0x0a) = true := fun b hb => decide_eq_true fun he => hheader (he ▸ hb)
  rw [noteText, List.dropWhile_append_of_pos hkept, List.dropWhile_cons_of_neg (by decide), List.drop_succ_cons,
    List.drop_zero, List.filter_append, filter_octets hnul, Text.decodeLossy_octets_append]

/-- The first line of octets is read whatever follows it. -/
theorem decodeLossy_line {line : List Char} (hnul : '\x00' ∉ line) (rest : Bytes) :
    Text.decodeLossy ((Text.octets line ++ 0x0a :: rest).filter (· ≠ 0)) =
      line ++ '\n' :: Text.decodeLossy (rest.filter (· ≠ 0)) := by
  rw [List.filter_append, filter_octets hnul, List.filter_cons_of_pos (by decide), Text.decodeLossy_octets_append]
  exact congrArg (line ++ ·) (Text.decodeLossy_octets_append ['\n'] _)

/-! ### Lines with their numbers -/

/-- The lines that are not all white space, numbered from a number on. -/
def numbered (first : Nat) (lines : List (List Char)) : List NoteLine :=
  (lines.zipIdx first).filterMap NoteLine.ofLine?

section Numbered
variable {first : Nat} {line : List Char} {lines : List (List Char)} {l : NoteLine}

theorem numbered_append (first : Nat) (front back : List (List Char)) :
    numbered first (front ++ back) = numbered first front ++ numbered (first + front.length) back := by
  rw [numbered, List.zipIdx_append, List.filterMap_append, numbered, numbered]

theorem numbered_cons_toList (first : Nat) (line : List Char) (lines : List (List Char)) :
    numbered first (line :: lines) = (NoteLine.ofLine? (line, first)).toList ++ numbered (first + 1) lines := by
  rw [numbered, List.zipIdx_cons, List.filterMap_cons, numbered]
  cases NoteLine.ofLine? (line, first) <;> rfl

theorem numbered_cons (h : NoteLine.ofLine? (line, first) = some l) :
    numbered first (line :: lines) = l :: numbered (first + 1) lines := by
  rw [numbered_cons_toList, h]
  rfl

theorem numbered_cons_of_none (h : NoteLine.ofLine? (line, first) = none) :
    numbered first (line :: lines) = numbered (first + 1) lines := by
  rw [numbered_cons_toList, h]
  rfl

theorem mem_numbered (h : l ∈ numbered first lines) : ∃ line ∈ lines, ∃ number, NoteLine.ofLine? (line, number) = some l := by
  obtain ⟨⟨line, number⟩, hmem, hline⟩ := List.mem_filterMap.mp h
  exact ⟨line, List.fst_mem_of_mem_zipIdx hmem, number, hline⟩

theorem noteLines_written {written : List (List Char)} (h : ∀ line ∈ written, '\n' ∉ line) (rest : List Char) :
    noteLines (Text.ofLines written ++ rest) =
      numbered 1 (written.map Text.withoutReturn) ++ numbered (1 + written.length) (Text.lines rest) := by
  rw [noteLines, Text.lines_ofLines_append h]
  exact (numbered_append 1 _ _).trans (by rw [List.length_map])

/-! ### One line -/

theorem ofLine?_eq_some (h : Text.trimStart line ≠ []) (number : Nat) :
    NoteLine.ofLine? (line, number) =
      some ⟨number, (Text.octets (line.takeWhile Text.isBlank)).length, Text.trimStart line⟩ :=
  if_neg h

theorem ofLine?_eq_none (h : ¬Text.trimStart line ≠ []) (number : Nat) : NoteLine.ofLine? (line, number) = none :=
  if_pos (Decidable.not_not.mp h)

theorem content_of_ofLine? {number : Nat} (h : NoteLine.ofLine? (line, number) = some l) :
    l.content = Text.trimStart line := by
  by_cases hsolid : Text.trimStart line ≠ []
  · rw [ofLine?_eq_some hsolid] at h
    cases h
    rfl
  · rw [ofLine?_eq_none hsolid] at h
    cases h

theorem beginsArgs_of_ofLine? {number : Nat} (h : NoteLine.ofLine? (line, number) = some l) :
    l.beginsArgs = true ↔ Text.trim line = "Args:".toList := by
  rw [NoteLine.beginsArgs, content_of_ofLine? h, decide_eq_true_iff]
  exact Iff.rfl

theorem not_beginsArgs_numbered (h : ∀ line ∈ lines, Text.trim line ≠ "Args:".toList) :
    ∀ l ∈ numbered first lines, l.beginsArgs = false := by
  intro l hl
  obtain ⟨line, hline, number, hread⟩ := mem_numbered hl
  exact Bool.eq_false_iff.mpr fun hbegins => h line hline ((beginsArgs_of_ofLine? hread).mp hbegins)

theorem octets_blanks (n : Nat) : Text.octets (Text.blanks n) = List.replicate n 0x20 := by
  induction n with
  | zero => rfl
  | succ n ih => exact congrArg (0x20 :: ·) ih

theorem length_octets_blanks (n : Nat) : (Text.octets (Text.blanks n)).length = n := by
  rw [octets_blanks, List.length_replicate]

/-- A line with blanks in front of what does not begin with white space. -/
theorem ofLine?_blanks {content : List Char} (hne : content ≠ [])
    (hhead : ∀ c ∈ content.head?, Text.isBlank c = false) (indent number : Nat) :
    NoteLine.ofLine? (Text.blanks indent ++ content, number) = some ⟨number, indent, content⟩ := by
  have hstart : Text.trimStart (Text.blanks indent ++ content) = content := by
    rw [Text.trimStart_blanks_append, Text.trimStart_of_head hhead]
  rw [ofLine?_eq_some (by rwa [hstart]), hstart, Text.takeWhile_blanks_append indent hhead, length_octets_blanks]

end Numbered

/-- The first colon of a text is the one between the key and the value. -/
theorem ofText?_colon {key : List Char} (h : ':' ∉ key) (value : List Char) :
    Field.ofText? (key ++ ':' :: value) = some ⟨Text.trim key, unquote (Text.trim value)⟩ := by
  have hcolon : ':' ∈ key ++ ':' :: value := List.mem_append_right _ List.mem_cons_self
  have hkept : ∀ c ∈ key, decide (c ≠ ':') = true := fun c hc => decide_eq_true fun he => h (he ▸ hc)
  have hkey : (key ++ ':' :: value).takeWhile (· ≠ ':') = key := by
    refine takeWhile_append_of_head hkept fun c hc => ?_
    obtain rfl := Option.some.inj hc
    rfl
  rw [Field.ofText?, if_pos hcolon, hkey, List.dropWhile_append_of_pos hkept]
  rfl

/-! ### The list of arguments -/

section ArgsLines
variable {before rest lines : List NoteLine} {head : NoteLine}

theorem argsLines_skip (h : ∀ l ∈ before, l.beginsArgs = false) (lines : List NoteLine) :
    argsLines (before ++ lines) = argsLines lines := by
  have hkept : ∀ l ∈ before, (!l.beginsArgs) = true := fun l hl => by rw [h l hl]; rfl
  rw [argsLines, List.dropWhile_append_of_pos hkept, argsLines]

theorem argsLines_cons (h : head.beginsArgs = true) :
    argsLines (head :: rest) = rest.takeWhile fun line => head.depth < line.depth := by
  rw [argsLines, List.dropWhile_cons_of_neg (by rw [h]; decide)]

theorem argsLines_cons_of_not (h : ¬head.beginsArgs = true) : argsLines (head :: rest) = argsLines rest :=
  argsLines_skip (List.forall_mem_singleton.mpr (Bool.eq_false_iff.mpr h)) rest

theorem argsLines_of_none (h : ∀ l ∈ lines, l.beginsArgs = false) : argsLines lines = [] := by
  have hskip := argsLines_skip h []
  rw [List.append_nil] at hskip
  exact hskip

/-- The list ends before a line that is not deeper than the line that begins it. -/
theorem takeWhile_deeper {body after : List NoteLine} (hbody : ∀ l ∈ body, head.depth < l.depth)
    (hafter : ∀ l ∈ after.head?, l.depth ≤ head.depth) :
    (body ++ after).takeWhile (fun line => head.depth < line.depth) = body :=
  takeWhile_append_of_head (fun l hl => decide_eq_true (hbody l hl))
    fun l hl => decide_eq_false (Nat.not_lt.mpr (hafter l hl))

end ArgsLines

end GpuListing.KernelArgs
