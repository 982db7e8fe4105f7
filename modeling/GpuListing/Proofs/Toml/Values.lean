import GpuListing.Proofs.Text.Lines
import GpuListing.Proofs.Text.Numerals
import GpuListing.Toml.Lines

/-! # Values read back

However a text, a truth value or an integer is written on a line, it is read back before anything that may follow it
there. -/

namespace GpuListing.Toml

/-! ### Texts -/

theorem codePoint_digits {c : Char} {digits : List Char} (hdigits : ∀ d ∈ digits, Text.isDigitOf 16 d = true)
    (hvalue : Text.ofDigits 16 digits = c.toNat) (rest : List Char) :
    codePoint digits.length (digits ++ rest) = some (c, rest) := by
  have hvalid : c.toNat.isValidChar := c.valid
  have hlength : digits.length ≤ (digits ++ rest).length := by
    rw [List.length_append]
    exact Nat.le_add_right ..
  rw [codePoint, List.take_left, Text.ofDigits?_of_forall hdigits, hvalue]
  show (if digits.length ≤ (digits ++ rest).length ∧ c.toNat.isValidChar then _ else _) = _
  rw [if_pos ⟨hlength, hvalid⟩, List.drop_left, Char.ofNat_toNat]

theorem escaped_letter {mark c : Char} (h : (mark, c) ∈ letterEscapes) (rest : List Char) :
    escaped (mark :: rest) = some (c, rest) := by
  simp only [letterEscapes, List.mem_cons, Prod.mk.injEq, List.not_mem_nil, or_false] at h
  rcases h with ⟨rfl, rfl⟩ | ⟨rfl, rfl⟩ | ⟨rfl, rfl⟩ | ⟨rfl, rfl⟩ | ⟨rfl, rfl⟩ | ⟨rfl, rfl⟩ | ⟨rfl, rfl⟩ | ⟨rfl, rfl⟩
    <;> rfl

theorem escaped_code {mark : Char} {width : Nat} (h : (mark, width) ∈ codeEscapes) (rest : List Char) :
    escaped (mark :: rest) = codePoint width rest := by
  simp only [codeEscapes, List.mem_cons, Prod.mk.injEq, List.not_mem_nil, or_false] at h
  rcases h with ⟨rfl, rfl⟩ | ⟨rfl, rfl⟩ | ⟨rfl, rfl⟩ <;> rfl

theorem basic_escaped {c : Char} {tail rest : List Char} (h : escaped tail = some (c, rest)) :
    basic ('\\' :: tail) = (basic rest).map fun found => (c :: found.1, found.2) := by
  rw [basic, if_neg (by decide), if_pos rfl]
  split
  · next hnone => cases h.symm.trans hnone
  · next hsome =>
    cases h.symm.trans hsome
    rfl

/-- Each way to write a character is read as it. -/
theorem basic_spells {c : Char} {word : List Char} (h : Spells c word) (rest : List Char) :
    basic (word ++ rest) = (basic rest).map fun found => (c :: found.1, found.2) := by
  cases h with
  | plain hplain hmark hslash => rw [List.singleton_append, basic, if_neg hmark, if_neg hslash, if_pos hplain]
  | letter hmark => exact basic_escaped (escaped_letter hmark rest)
  | code hmark hdigits hvalue =>
    exact basic_escaped ((escaped_code hmark _).trans (codePoint_digits hdigits hvalue rest))

theorem basic_text {text word : List Char} (h : SpellsText text word) (rest : List Char) :
    basic (word ++ '\x22' :: rest) = some (text, rest) := by
  induction h with
  | nil => rw [List.nil_append, basic, if_pos rfl]
  | cons hc _ ih => rw [List.append_assoc, basic_spells hc, ih, Option.map_some]

theorem Spells.head {c : Char} {word : List Char} (h : Spells c word) : ∃ d tail, word = d :: tail ∧ d ≠ '\x22' := by
  cases h with
  | plain _ hmark _ => exact ⟨c, [], rfl, hmark⟩
  | @letter mark _ => exact ⟨'\\', [mark], rfl, by decide⟩
  | @code mark digits _ _ _ => exact ⟨'\\', mark :: digits, rfl, by decide⟩

/-- A text between double marks, behind which no mark stands, does not begin with three marks. -/
theorem anyText_text {text word rest : List Char} (h : SpellsText text word) (hrest : rest.head? ≠ some '\x22') :
    anyText ('\x22' :: (word ++ '\x22' :: rest)) = some (text, rest) := by
  have hline : lineText ('\x22' :: (word ++ '\x22' :: rest)) = some (text, rest) := basic_text h rest
  unfold anyText
  split
  · next three heq =>
    have htail : word ++ '\x22' :: rest = '\x22' :: '\x22' :: three := (List.cons.inj heq).2
    cases h with
    | nil =>
      have hmark : rest = '\x22' :: three := (List.cons.inj htail).2
      rw [hmark] at hrest
      exact absurd rfl hrest
    | cons hc _ =>
      obtain ⟨d, tail, rfl, hd⟩ := hc.head
      exact absurd (List.cons.inj htail).1 hd
  · next heq => exact absurd (List.cons.inj heq).1 (by decide)
  · exact hline

/-! ### Integers -/

section Groups
variable {digits word : List Char}

theorem Groups.mem (h : Groups digits word) : ∀ c ∈ word, c.isDigit = true ∨ c = '_' := by
  induction h with
  | last hd => exact List.forall_mem_cons.2 ⟨.inl hd, nofun⟩
  | next hd _ ih => exact List.forall_mem_cons.2 ⟨.inl hd, ih⟩
  | apart hd _ ih => exact List.forall_mem_cons.2 ⟨.inl hd, List.forall_mem_cons.2 ⟨.inr rfl, ih⟩⟩

theorem Groups.head (h : Groups digits word) : ∃ d tail, word = d :: tail ∧ d.isDigit = true := by
  cases h with
  | last hd | next hd _ | apart hd _ => exact ⟨_, _, rfl, hd⟩

theorem digits?_groups (h : Groups digits word) : digits? Char.isDigit word = some digits := by
  induction h with
  | last hd => exact if_pos hd
  | @next d digits word hd hgroups ih =>
    obtain ⟨e, tail, rfl, he⟩ := hgroups.head
    have hne : e ≠ '_' := by
      rintro rfl
      exact absurd he (by decide)
    rw [digits?.eq_4]
    · rw [if_pos hd, ih, Option.map_some]
    · simp
    · intro rest heq
      exact hne (List.cons.inj heq).1
  | apart hd _ ih => rw [digits?, if_pos hd, ih, Option.map_some]

/-- No other base is meant: its letter is no digit. -/
theorem Groups.plain (h : Groups digits word) {first second : Char} {tail : List Char}
    (heq : word = first :: second :: tail) : second ≠ 'x' ∧ second ≠ 'o' ∧ second ≠ 'b' := by
  have hmem : second ∈ word := heq ▸ List.mem_cons_of_mem first List.mem_cons_self
  obtain hdigit | rfl := h.mem second hmem
  · refine ⟨?_, ?_, ?_⟩ <;> rintro rfl <;> exact absurd hdigit (by decide)
  · decide

end Groups

theorem decimal?_counts {n : Nat} {word : List Char} (h : Counts n word) :
    ∃ digits, decimal? word = some digits ∧ Text.ofDecimal digits = n := by
  obtain ⟨digits, hgroups, hzero, hvalue⟩ := h
  refine ⟨digits, ?_, hvalue⟩
  simp only [decimal?, digits?_groups hgroups, Option.bind_eq_bind, Option.bind_some]
  split
  · cases hzero rfl
  · rfl

/-- A decimal integer, by its sign and what follows. -/
theorem integer?_of_split {text rest digits : List Char} {negative : Bool}
    (hplain : ∀ second tail, text = '0' :: second :: tail → second ≠ 'x' ∧ second ≠ 'o' ∧ second ≠ 'b')
    (hsplit : Text.splitSign text = (negative, rest)) (hdigits : decimal? rest = some digits) :
    integer? text = inRange? (if negative then -(Text.ofDecimal digits : Int) else Text.ofDecimal digits) := by
  unfold integer?
  split
  · exact absurd rfl (hplain _ _ rfl).1
  · exact absurd rfl (hplain _ _ rfl).2.1
  · exact absurd rfl (hplain _ _ rfl).2.2
  · rw [hsplit]
    show (do
      let digits ← decimal? rest
      inRange? (if negative then -(Text.ofDecimal digits : Int) else Text.ofDecimal digits)) = _
    rw [hdigits]
    rfl

theorem integer?_numeral {n : Int} {word : List Char} (h : Numeral n word) : integer? word = inRange? n := by
  cases h with
  | @unsigned m _ hcounts =>
    obtain ⟨digits, hdigits, rfl⟩ := decimal?_counts hcounts
    obtain ⟨_, hgroups, -⟩ := hcounts
    have hsplit : Text.splitSign word = (false, word) := by
      obtain ⟨d, tail, rfl, hd⟩ := hgroups.head
      unfold Text.splitSign
      split
      · next heq => exact absurd hd (by rw [(List.cons.inj heq).1]; decide)
      · next heq => exact absurd hd (by rw [(List.cons.inj heq).1]; decide)
      · rfl
    exact integer?_of_split (fun second tail => hgroups.plain) hsplit hdigits
  | plus hcounts =>
    obtain ⟨digits, hdigits, rfl⟩ := decimal?_counts hcounts
    exact integer?_of_split (fun second tail heq => absurd (List.cons.inj heq).1 (by decide)) rfl hdigits
  | minus hcounts =>
    obtain ⟨digits, hdigits, rfl⟩ := decimal?_counts hcounts
    exact integer?_of_split (fun second tail heq => absurd (List.cons.inj heq).1 (by decide)) rfl hdigits

theorem inRange?_toInt (n : Int64) : inRange? n.toInt = some n.toInt :=
  if_pos ⟨n.minValue_le_toInt, n.toInt_le⟩

/-- The characters of integers are those of values without marks. -/
theorem Numeral.mem {n : Int} {word : List Char} (h : Numeral n word) :
    ∀ c ∈ word, c.isDigit = true ∨ c = '_' ∨ c = '+' ∨ c = '-' := by
  have counts {m : Nat} {word : List Char} (hcounts : Counts m word) :
      ∀ c ∈ word, c.isDigit = true ∨ c = '_' ∨ c = '+' ∨ c = '-' := by
    obtain ⟨digits, hgroups, -⟩ := hcounts
    intro c hc
    exact (hgroups.mem c hc).imp_right .inl
  cases h with
  | unsigned hcounts => exact counts hcounts
  | plus hcounts => exact List.forall_mem_cons.2 ⟨.inr (.inr (.inl rfl)), counts hcounts⟩
  | minus hcounts => exact List.forall_mem_cons.2 ⟨.inr (.inr (.inr rfl)), counts hcounts⟩

theorem Numeral.ne_nil {n : Int} {word : List Char} (h : Numeral n word) : word ≠ [] := by
  cases h with
  | unsigned hcounts =>
    obtain ⟨digits, hgroups, -⟩ := hcounts
    obtain ⟨d, tail, rfl, -⟩ := hgroups.head
    exact List.cons_ne_nil d tail
  | plus _ | minus _ => exact List.cons_ne_nil _ _

theorem atom?_numeral {n : Int64} {word : List Char} (h : Numeral n.toInt word) :
    atom? word = some (.integer n.toInt) := by
  have hyes : word ≠ "true".toList := by
    rintro rfl
    exact absurd (h.mem 't' (by decide)) (by decide)
  have hno : word ≠ "false".toList := by
    rintro rfl
    exact absurd (h.mem 'f' (by decide)) (by decide)
  rw [atom?, if_neg hyes, if_neg hno, integer?_numeral h, inRange?_toInt]

/-! ### Values on lines -/

/-- What may follow a value on its line: space, and then the line ends. -/
def Closes (text rest : List Char) : Prop := ∃ back ending, text = back ++ ending ∧ Spaces back ∧ Ends ending rest

theorem isSpace_iff {c : Char} : isSpace c = true ↔ c = ' ' ∨ c = '\t' := by
  simp only [isSpace, Bool.or_eq_true, decide_eq_true_eq]

namespace Closes
variable {text rest : List Char} {c : Char}

theorem head (h : Closes (c :: text) rest) : c = ' ' ∨ c = '\t' ∨ c = '\n' ∨ c = '\r' := by
  obtain ⟨back, ending, heq, hback, hends⟩ := h
  cases back with
  | nil =>
    have hending : c :: text = ending := heq
    subst hending
    cases hends with
    | feed => exact .inr (.inr (.inl rfl))
    | returnFeed => exact .inr (.inr (.inr rfl))
  | cons d back =>
    obtain ⟨rfl, -⟩ := List.cons.inj heq
    exact (isSpace_iff.1 (hback c List.mem_cons_self)).imp_right .inl

theorem tail (h : Closes (' ' :: text) rest) : Closes text rest := by
  obtain ⟨back, ending, heq, hback, hends⟩ := h
  cases back with
  | nil =>
    have hending : ' ' :: text = ending := heq
    subst hending
    cases hends
  | cons d back =>
    obtain ⟨-, rfl⟩ := List.cons.inj heq
    exact ⟨back, ending, rfl, fun c hc => hback c (List.mem_cons_of_mem d hc), hends⟩

theorem head?_of (h : Closes text rest) : ∀ c ∈ text.head?, c = ' ' ∨ c = '\t' ∨ c = '\n' ∨ c = '\r' := by
  cases text with
  | nil => exact nofun
  | cons c text =>
    intro d hd
    obtain rfl := Option.some.inj hd
    exact h.head

theorem not_atom (h : Closes text rest) : ∀ c ∈ text.head?, isAtomCharacter c = false := by
  intro c hc
  rcases h.head?_of c hc with rfl | rfl | rfl | rfl <;> decide

end Closes

section Atom
variable {word text rest : List Char} {node : Node}

/-- A value without marks is read up to the end of its word: no time of day follows. -/
theorem atom_word (hword : ∀ c ∈ word, isAtomCharacter c = true) (hnode : atom? word = some node)
    (hcloses : Closes text rest) : atom (word ++ text) = some (node, text) := by
  have htake := takeWhile_append_of_head hword hcloses.not_atom
  have hdrop := dropWhile_append_of_head hword hcloses.not_atom
  unfold atom
  simp only [htake, hdrop]
  split
  · next c more =>
    have hdigit : c.isDigit = false := by
      rcases hcloses.tail.head with rfl | rfl | rfl | rfl <;> decide
    rw [hdigit, Bool.and_false, if_neg Bool.false_ne_true, hnode, Option.map_some]
  · rw [hnode, Option.map_some]

theorem value_atom {c : Char} (hc : isAtomCharacter c = true) (depth : Nat) (text : List Char) :
    value depth (c :: text) = atom (c :: text) := by
  have hwith (inner : Option (Reader Node)) : valueWith inner (c :: text) = atom (c :: text) := by
    unfold valueWith
    split
    · next heq => exact absurd hc (by rw [(List.cons.inj heq).1]; decide)
    · next heq => exact absurd hc (by rw [(List.cons.inj heq).1]; decide)
    · next heq => exact absurd hc (by rw [(List.cons.inj heq).1]; decide)
    · next heq => exact absurd hc (by rw [(List.cons.inj heq).1]; decide)
    · rfl
  cases depth <;> exact hwith _

theorem value_word (hne : word ≠ []) (hword : ∀ c ∈ word, isAtomCharacter c = true) (hnode : atom? word = some node)
    (hcloses : Closes text rest) (depth : Nat) : value depth (word ++ text) = some (node, text) := by
  obtain ⟨c, tail, rfl⟩ := List.exists_cons_of_ne_nil hne
  rw [← atom_word hword hnode hcloses]
  exact value_atom (hword c List.mem_cons_self) depth _

end Atom

/-- A value is read back, however it is written. -/
theorem value_written {scalar : Scalar} {word text rest : List Char} (h : scalar.Written word)
    (hcloses : Closes text rest) (depth : Nat) : value depth (word ++ text) = some (scalar.node, text) := by
  cases h with
  | @text s word hspells =>
    have hmark : text.head? ≠ some '\x22' := by
      intro hhead
      exact absurd (hcloses.head?_of _ hhead) (by decide)
    have hread := anyText_text hspells hmark
    have hvalue (inner : Option (Reader Node)) :
        valueWith inner ('\x22' :: (word ++ '\x22' :: text)) = some (.text s, text) := by
      show (anyText ('\x22' :: (word ++ '\x22' :: text))).map _ = _
      rw [hread]
      exact congrArg (fun found => some (Node.text found, text)) String.ofList_toList
    rw [List.cons_append, List.append_assoc]
    cases depth <;> exact hvalue _
  | yes => exact value_word (by decide) (List.all_eq_true.1 (by decide)) rfl hcloses depth
  | no => exact value_word (by decide) (List.all_eq_true.1 (by decide)) rfl hcloses depth
  | integer hnumeral =>
    refine value_word hnumeral.ne_nil (fun c hc => ?_) (atom?_numeral hnumeral) hcloses depth
    rcases hnumeral.mem c hc with hdigit | rfl | rfl | rfl
    · simp [isAtomCharacter, Char.isAlphanum, hdigit]
    · decide
    · decide
    · decide

end GpuListing.Toml
