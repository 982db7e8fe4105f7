import GpuListing.Proofs.Toml.Values
import GpuListing.Toml.Keys

/-! # Lines read back

Entries that are written line by line are read back in their order, and make a document if no key comes twice. Every
list of entries with bare keys can be written so. -/

namespace GpuListing.Toml

/-! ### Keys -/

/-- A character of bare keys stands for nothing else at the start of a line. -/
theorem ne_of_isKeyCharacter {c d : Char} (hc : isKeyCharacter c = true) (hd : isKeyCharacter d = false) : c ≠ d := by
  rintro rfl
  cases hc.symm.trans hd

theorem isSpace_of_isKeyCharacter {c : Char} (h : isKeyCharacter c = true) : isSpace c = false := by
  refine Bool.eq_false_iff.2 fun hspace => ?_
  rcases isSpace_iff.1 hspace with rfl | rfl <;> exact absurd h (by decide)

theorem BareKey.head {k : String} (h : BareKey k) : ∃ c tail, k.toList = c :: tail ∧ isKeyCharacter c = true := by
  obtain ⟨c, tail, hkey⟩ := List.exists_cons_of_ne_nil h.1
  exact ⟨c, tail, hkey, h.2 c (hkey ▸ List.mem_cons_self)⟩

theorem skipSpaces_append {front text : List Char} (hfront : Spaces front)
    (htext : ∀ c ∈ text.head?, isSpace c = false) : skipSpaces (front ++ text) = text :=
  dropWhile_append_of_head hfront htext

theorem skipGap_append {front : List Char} (hfront : Spaces front) {c : Char} (hc : isKeyCharacter c = true)
    (text : List Char) : skipGap false (front ++ c :: text) = some (c :: text) := by
  induction front with
  | nil =>
    rw [List.nil_append, skipGap.eq_5, isSpace_of_isKeyCharacter hc, if_neg Bool.false_ne_true,
      if_neg (ne_of_isKeyCharacter hc (by decide))]
    · exact ne_of_isKeyCharacter hc (by decide)
    · exact fun _ hreturn => absurd hreturn (ne_of_isKeyCharacter hc (by decide))
  | cons d front ih =>
    obtain ⟨hd, hrest⟩ := List.forall_mem_cons.1 hfront
    have hskip := ih hrest
    rcases isSpace_iff.1 hd with rfl | rfl <;> exact hskip

section Key
variable {k : String} {text : List Char} (hkey : BareKey k)
include hkey

theorem key_bare (htext : ∀ c ∈ text.head?, isKeyCharacter c = false) : key (k.toList ++ text) = some (k, text) := by
  have htake := takeWhile_append_of_head hkey.2 htext
  have hdrop := dropWhile_append_of_head hkey.2 htext
  have hmarks : lineText (k.toList ++ text) = none := by
    obtain ⟨c, tail, heq, hc⟩ := hkey.head
    rw [heq, List.cons_append]
    exact lineText.eq_3 _ (fun _ h => absurd (List.cons.inj h).1 (ne_of_isKeyCharacter hc (by decide)))
      fun _ h => absurd (List.cons.inj h).1 (ne_of_isKeyCharacter hc (by decide))
  have hne : k.toList.isEmpty = false := List.isEmpty_eq_false_iff.2 hkey.1
  simp only [key, hmarks, htake, hdrop, hne, Bool.false_eq_true, if_false, String.ofList_toList]

/-- A bare key before an equals sign is a path by itself. -/
theorem keyPath_bare {left : List Char} (hleft : Spaces left) :
    keyPath (k.toList ++ (left ++ '=' :: text)) = some ([k], '=' :: text) := by
  have hstart : skipSpaces (k.toList ++ (left ++ '=' :: text)) = k.toList ++ (left ++ '=' :: text) := by
    obtain ⟨c, tail, heq, hc⟩ := hkey.head
    rw [heq]
    exact List.dropWhile_cons_of_neg (Bool.eq_false_iff.1 (isSpace_of_isKeyCharacter hc))
  have hnext : ∀ c ∈ (left ++ '=' :: text).head?, isKeyCharacter c = false := by
    intro c hc
    refine Bool.eq_false_iff.2 fun hkey => ?_
    cases left with
    | nil =>
      obtain rfl := Option.some.inj hc
      exact absurd hkey (by decide)
    | cons d left =>
      obtain rfl := Option.some.inj hc
      cases (isSpace_of_isKeyCharacter hkey).symm.trans (hleft d List.mem_cons_self)
  have hsign : skipSpaces (left ++ '=' :: text) = '=' :: text := skipSpaces_append hleft (by simp [isSpace])
  show keysUpTo (79 + 1) _ = _
  rw [keysUpTo, hstart, key_bare hkey hnext]
  simp only [Option.bind_eq_bind, Option.bind_some, hsign]
  rfl

end Key

/-! ### Lines -/

theorem Scalar.Written.head {scalar : Scalar} {word : List Char} (h : scalar.Written word) :
    ∃ c tail, word = c :: tail ∧ isSpace c = false := by
  cases h with
  | text _ => exact ⟨_, _, rfl, rfl⟩
  | yes | no => exact ⟨_, _, rfl, rfl⟩
  | integer hnumeral =>
    obtain ⟨c, tail, rfl⟩ := List.exists_cons_of_ne_nil hnumeral.ne_nil
    refine ⟨c, tail, rfl, ?_⟩
    refine Bool.eq_false_iff.2 fun hspace => ?_
    rcases isSpace_iff.1 hspace with rfl | rfl <;> exact absurd (hnumeral.mem _ List.mem_cons_self) (by decide)

theorem Closes.lineEnd {text rest : List Char} (h : Closes text rest) : lineEnd text = some rest := by
  obtain ⟨back, ending, rfl, hback, hends⟩ := h
  have hskip : skipSpaces (back ++ ending) = ending := by
    refine skipSpaces_append hback ?_
    cases hends with
    | last => exact nofun
    | feed | returnFeed =>
      intro c hc
      obtain rfl := Option.some.inj hc
      rfl
  rw [Toml.lineEnd, hskip]
  cases hends <;> rfl

theorem entry_written {k : String} {scalar : Scalar} {left right word text rest : List Char} (hkey : BareKey k)
    (hvalue : scalar.Written word) (hleft : Spaces left) (hright : Spaces right) (hcloses : Closes text rest) :
    Toml.entry (some ∘ skipSpaces) (value maxDepth) (k.toList ++ (left ++ '=' :: (right ++ (word ++ text)))) =
      some (([k], scalar.node), text) := by
  have hpath : keyPath (k.toList ++ (left ++ '=' :: (right ++ (word ++ text)))) =
      some ([k], '=' :: (right ++ (word ++ text))) := keyPath_bare hkey hleft
  have hsign : skipSpaces ('=' :: (right ++ (word ++ text))) = '=' :: (right ++ (word ++ text)) := rfl
  have hword : skipSpaces (right ++ (word ++ text)) = word ++ text := by
    refine skipSpaces_append hright fun c hc => ?_
    obtain ⟨d, tail, rfl, hd⟩ := hvalue.head
    obtain rfl := Option.some.inj hc
    exact hd
  simp only [Toml.entry, hpath, Option.bind_eq_bind, Option.bind_some, Function.comp_apply, hsign, expect, if_true,
    hword, value_written hvalue hcloses]
  rfl

section Line
variable {entry : Entry} {line ending rest : List Char}

/-- A line begins its statement with its key, and ends behind the value. -/
theorem statement_line (h : LineOf entry line) (hends : Ends ending rest) :
    ∃ start after, skipGap false (line ++ ending) = some start ∧ start ≠ [] ∧
      statement start = some (.entry [entry.1] entry.2.node, after) ∧ lineEnd after = some rest := by
  obtain @⟨k, scalar, front, left, right, word, back, hkey, hvalue, hfront, hleft, hright, hback⟩ := h
  have hcloses : Closes (back ++ ending) rest := ⟨back, ending, rfl, hback, hends⟩
  have hentry := entry_written hkey hvalue hleft hright hcloses
  obtain ⟨c, tail, heq, hc⟩ := hkey.head
  refine ⟨k.toList ++ (left ++ '=' :: (right ++ (word ++ (back ++ ending)))), back ++ ending, ?_, ?_, ?_,
    hcloses.lineEnd⟩
  · simp only [List.append_assoc, List.cons_append]
    rw [heq]
    exact skipGap_append hfront hc _
  · rw [heq]
    exact List.cons_ne_nil _ _
  · rw [statement.eq_3, hentry]
    · rfl
    · intro after hbracket
      rw [heq] at hbracket
      exact absurd (List.cons.inj hbracket).1 (ne_of_isKeyCharacter hc (by decide))
    · intro after hbracket
      rw [heq] at hbracket
      exact absurd (List.cons.inj hbracket).1 (ne_of_isKeyCharacter hc (by decide))

theorem Ends.length_le (h : Ends ending rest) : rest.length ≤ ending.length := by
  cases h with
  | last => exact Nat.le_refl 0
  | feed | returnFeed =>
    simp only [List.length_cons]
    omega

theorem LineOf.head (h : LineOf entry line) :
    ∃ c tail, line = c :: tail ∧ (isSpace c = true ∨ isKeyCharacter c = true) := by
  obtain @⟨k, scalar, front, left, right, word, back, hkey, -, hfront, -, -, -⟩ := h
  obtain ⟨c, tail, heq, hc⟩ := hkey.head
  rw [heq]
  cases front with
  | nil => exact ⟨c, _, rfl, .inr hc⟩
  | cons d front => exact ⟨d, _, rfl, .inl (hfront d List.mem_cons_self)⟩

theorem statements_line (h : LineOf entry line) (hends : Ends ending rest) :
    statements (line ++ ending) = (statements rest).map (.entry [entry.1] entry.2.node :: ·) := by
  obtain ⟨start, after, hgap, hne, hstatement, hend⟩ := statement_line h hends
  have hlength : rest.length < (line ++ ending).length := by
    obtain ⟨c, tail, rfl, -⟩ := h.head
    have hle := hends.length_le
    simp only [List.length_append, List.length_cons]
    omega
  rw [statements, hgap]
  simp only [Option.bind_eq_bind, Option.bind_some]
  rw [hstatement]
  simp only [Option.bind_some, hend, hlength, dif_pos]
  cases statements rest <;> rfl

end Line

theorem statements_lines {entries : List Entry} {text : List Char} (h : LinesOf entries text) :
    statements text = some (entries.map fun entry => .entry [entry.1] entry.2.node) := by
  induction h with
  | nil => rw [statements]; rfl
  | cons hline hends _ ih => rw [statements_line hline hends, ih, Option.map_some, List.map_cons]

/-! ### Documents -/

theorem keys_nodesOf (entries : List Entry) : (nodesOf entries).map Prod.fst = entries.map Prod.fst := List.map_map

theorem distinct_nodesOf {entries : List Entry} (h : (entries.map Prod.fst).Nodup) : Distinct (nodesOf entries) := by
  rwa [Distinct, keys_nodesOf]

theorem alter_of_not_mem {key : String} {fields : Fields} (h : key ∉ fields.map Prod.fst)
    (change : Option Node → Option Node) :
    alter key change fields = (change none).map fun node => fields ++ [(key, node)] := by
  induction fields with
  | nil => rfl
  | cons field rest ih =>
    obtain ⟨k, node⟩ := field
    obtain ⟨hne, hrest⟩ := not_or.1 (mt List.mem_cons.2 h)
    rw [alter, if_neg (Ne.symm hne), ih hrest, Option.map_map]
    rfl

/-- Entries whose keys are new are set behind the fields that are there. -/
theorem foldlM_add {fields : Fields} {entries : List Entry} (h : Distinct (fields ++ nodesOf entries)) :
    (entries.map fun entry => Statement.entry [entry.1] entry.2.node).foldlM Draft.add ⟨fields, []⟩ =
      some ⟨fields ++ nodesOf entries, []⟩ := by
  induction entries generalizing fields with
  | nil => exact congrArg (fun fields => some (⟨fields, []⟩ : Draft)) (List.append_nil fields).symm
  | cons entry entries ih =>
    have hsplit : fields ++ nodesOf (entry :: entries) =
        (fields ++ [(entry.1, entry.2.node)]) ++ nodesOf entries := List.append_cons ..
    have hnew : entry.1 ∉ fields.map Prod.fst := by
      intro hmem
      rw [Distinct, List.map_append] at h
      exact (List.nodup_append.1 h).2.2 _ hmem _ List.mem_cons_self rfl
    have hinsert : insert entry.2.node [entry.1] fields = some (fields ++ [(entry.1, entry.2.node)]) := by
      rw [insert]
      exact alter_of_not_mem hnew _
    have hadd : Draft.add ⟨fields, []⟩ (.entry [entry.1] entry.2.node) =
        some ⟨fields ++ [(entry.1, entry.2.node)], []⟩ := by
      show (insert entry.2.node [entry.1] fields).bind _ = _
      rw [hinsert]
      rfl
    rw [hsplit] at h ⊢
    rw [List.map_cons, List.foldlM_cons, hadd, ← ih h]
    rfl

theorem dropMark_lines {entries : List Entry} {text : List Char} (h : LinesOf entries text) : dropMark text = text := by
  cases h with
  | nil => rfl
  | cons hline _ _ =>
    obtain ⟨c, tail, rfl, hc⟩ := hline.head
    refine dropMark.eq_2 _ fun rest heq => ?_
    obtain ⟨rfl, -⟩ := List.cons.inj heq
    exact absurd hc (by decide)

/-- Entries that are written line by line, no key twice, are the fields of the document. -/
theorem parse_lines {entries : List Entry} {text : String} (h : LinesOf entries text.toList)
    (hdistinct : Distinct (nodesOf entries)) : parse text = some (nodesOf entries) := by
  have hstatements : statements (dropMark text.toList) =
      some (entries.map fun entry => .entry [entry.1] entry.2.node) := by
    rw [dropMark_lines h, statements_lines h]
  have hfold : (entries.map fun entry => Statement.entry [entry.1] entry.2.node).foldlM Draft.add ⟨[], []⟩ =
      some ⟨nodesOf entries, []⟩ := foldlM_add hdistinct
  simp only [parse, hstatements, hfold, Option.bind_eq_bind, Option.bind_some]
  rfl

/-! ### The writer -/

theorem spells_spell (c : Char) : Spells c (spell c) := by
  unfold spell
  split
  · next h => exact .plain h.1 h.2.1 h.2.2
  · have hsmall : c.toNat < 16 ^ 8 := by
      have hvalid : c.toNat.isValidChar := c.valid
      simp only [Nat.isValidChar] at hvalid
      omega
    refine .code ?_ (fun d hd => ?_) ?_
    · rw [Text.length_hexFixed]
      decide
    · exact Text.isDigitOf_of_mem_hexFixed hd
    · exact (Text.ofDigits_hexFixed 8 c.toNat).trans (Nat.mod_eq_of_lt hsmall)

theorem spellsText_flatMap (text : List Char) : SpellsText text (text.flatMap spell) := by
  induction text with
  | nil => exact .nil
  | cons c text ih => exact .cons (spells_spell c) ih

theorem groups_self {digits : List Char} (hne : digits ≠ []) (h : ∀ d ∈ digits, d.isDigit = true) :
    Groups digits digits := by
  induction digits with
  | nil => exact absurd rfl hne
  | cons d digits ih =>
    obtain ⟨hd, hdigits⟩ := List.forall_mem_cons.1 h
    cases digits with
    | nil => exact .last hd
    | cons e digits => exact .next hd (ih (List.cons_ne_nil e digits) hdigits)

theorem counts_toDigits (n : Nat) : Counts n (Nat.toDigits 10 n) := by
  refine ⟨_, groups_self Nat.toDigits_ne_nil fun _ hd => Nat.isDigit_of_mem_toDigits (by decide) (by decide) hd,
    fun hzero => ?_, Text.ofDecimal_toDigits n⟩
  rw [Text.eq_zero_of_head?_toDigits hzero]
  rfl

theorem Scalar.written_write (scalar : Scalar) : scalar.Written scalar.write := by
  cases scalar with
  | text s => exact .text (spellsText_flatMap s.toList)
  | boolean b =>
    cases b with
    | true => exact .yes
    | false => exact .no
  | integer n =>
    refine .integer ?_
    show Numeral n.toInt (if n.toInt < 0 then '-' :: Nat.toDigits 10 n.toInt.natAbs else Nat.toDigits 10 n.toInt.natAbs)
    generalize n.toInt = value
    split
    · next hneg =>
      have hnumeral : Numeral (-(value.natAbs : Int)) _ := .minus (counts_toDigits value.natAbs)
      have hvalue : -(value.natAbs : Int) = value := by omega
      exact (congrArg (Numeral · _) hvalue).mp hnumeral
    · next hpos =>
      have hnumeral : Numeral (value.natAbs : Int) _ := .unsigned (counts_toDigits value.natAbs)
      have hvalue : (value.natAbs : Int) = value := by omega
      exact (congrArg (Numeral · _) hvalue).mp hnumeral

/-- The writer writes entries line by line. -/
theorem linesOf_writeLines {entries : List Entry} (h : ∀ entry ∈ entries, BareKey entry.1) :
    LinesOf entries (writeLines entries) := by
  induction entries with
  | nil => exact .nil
  | cons entry entries ih =>
    obtain ⟨hkey, hentries⟩ := List.forall_mem_cons.1 h
    have hblank : Spaces [' '] := List.forall_mem_cons.2 ⟨rfl, nofun⟩
    have hline : LineOf entry ([] ++ (entry.1.toList ++ ([' '] ++ '=' :: ([' '] ++ (entry.2.write ++ []))))) :=
      .mk hkey entry.2.written_write nofun hblank hblank nofun
    have hlines := LinesOf.cons hline (.feed (writeLines entries)) (ih hentries)
    simpa only [writeLines, writeLine, List.flatMap_cons, List.append_assoc, List.cons_append, List.nil_append,
      List.append_nil] using hlines

end GpuListing.Toml
