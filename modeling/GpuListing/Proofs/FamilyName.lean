import GpuListing.Proofs.Text.Lines
import GpuListing.Shape

/-! # Names of families

What a text names is told by its core, the text without the white space at its ends: nothing if there is no core, the
first character that no name has if there is one, and otherwise the family whose name the core is. Names have no white
space, so the name of a family that was read names the family again, with white space around it or as a value. -/

namespace GpuListing.Family

/-- A character of names: an ASCII letter or digit, an underscore or a hyphen. -/
def InNames (c : Char) : Prop :=
  'A' ≤ c ∧ c ≤ 'Z' ∨ 'a' ≤ c ∧ c ≤ 'z' ∨ '0' ≤ c ∧ c ≤ '9' ∨ c = '_' ∨ c = '-'

/-- The first character of a text that no name has. -/
def FirstStranger (text : List Char) (c : Char) : Prop :=
  ∃ front back, text = front ++ c :: back ∧ (∀ d ∈ front, InNames d) ∧ ¬InNames c

theorem isNameCharacter_iff {c : Char} : isNameCharacter c = true ↔ InNames c := by
  have within (least greatest : Char) :
      (decide (least ≤ c) && decide (c ≤ greatest)) = true ↔ least ≤ c ∧ c ≤ greatest := by
    rw [Bool.and_eq_true, decide_eq_true_eq, decide_eq_true_eq]
  have hupper : c.isUpper = true ↔ 'A' ≤ c ∧ c ≤ 'Z' := decide_eq_true_iff
  have hlower : c.isLower = true ↔ 'a' ≤ c ∧ c ≤ 'z' := within 'a' 'z'
  have hdigit : c.isDigit = true ↔ '0' ≤ c ∧ c ≤ '9' := within '0' '9'
  show (c.isUpper || c.isLower || c.isDigit || decide (c = '_') || decide (c = '-')) = true ↔ InNames c
  simp only [InNames, Bool.or_eq_true, hupper, hlower, hdigit, decide_eq_true_eq, or_assoc]

theorem isNameCharacter_eq_false_iff {c : Char} : isNameCharacter c = false ↔ ¬InNames c := by
  rw [← isNameCharacter_iff, Bool.not_eq_true]

theorem find?_stranger_iff {text : List Char} {c : Char} :
    (text.find? fun c => !isNameCharacter c) = some c ↔ FirstStranger text c := by
  rw [List.find?_eq_some_iff_append]
  simp only [Bool.not_not, Bool.not_eq_true', isNameCharacter_iff, isNameCharacter_eq_false_iff]
  constructor
  · rintro ⟨hc, front, back, htext, hfront⟩
    exact ⟨front, back, htext, hfront, hc⟩
  · rintro ⟨front, back, htext, hfront, hc⟩
    exact ⟨hc, front, back, htext, hfront⟩

theorem find?_stranger_eq_none_iff {text : List Char} :
    (text.find? fun c => !isNameCharacter c) = none ↔ ∀ c ∈ text, InNames c := by
  rw [List.find?_eq_none]
  simp only [Bool.not_eq_true', Bool.not_eq_false, isNameCharacter_iff]

/-- No name has white space. -/
theorem isBlank_of_inNames {c : Char} (h : InNames c) : Text.isBlank c = false := by
  have hrange : 48 ≤ c.toNat ∧ c.toNat ≤ 57 ∨ 65 ≤ c.toNat ∧ c.toNat ≤ 122 ∨ c.toNat = 45 := by
    rcases h with ⟨hleast, hgreatest⟩ | ⟨hleast, hgreatest⟩ | ⟨hleast, hgreatest⟩ | rfl | rfl
    · have hleast : 65 ≤ c.toNat := hleast
      have hgreatest : c.toNat ≤ 90 := hgreatest
      omega
    · have hleast : 97 ≤ c.toNat := hleast
      have hgreatest : c.toNat ≤ 122 := hgreatest
      omega
    · have hleast : 48 ≤ c.toNat := hleast
      have hgreatest : c.toNat ≤ 57 := hgreatest
      omega
    · exact .inr (.inl (by decide))
    · exact .inr (.inr rfl)
  rw [Text.isBlank, Text.covered, List.any_eq_false]
  simp only [Text.blankRanges, List.forall_mem_cons, List.not_mem_nil, false_implies, implies_true, and_true,
    Bool.and_eq_true, decide_eq_true_eq]
  omega

theorem bare_of_inNames {text : List Char} (h : ∀ c ∈ text, InNames c) : Text.Bare text :=
  ⟨fun c hc => isBlank_of_inNames (h c (List.mem_of_mem_head? hc)),
    fun c hc => isBlank_of_inNames (h c (List.mem_of_getLast? hc))⟩

/-! ### What a text names -/

section Core
variable {text : String} {core : List Char} {family : Family}

theorem ofList_core_eq_iff : String.ofList core = text ↔ text.toList = core := by
  rw [← String.toList_inj, String.toList_ofList, eq_comm]

theorem parse_of_trims (h : Text.Trims text.toList core) :
    parse text = if core = [] then .error .empty else
      match core.find? fun c => !isNameCharacter c with
      | some c => .error (.badCharacter (String.ofList core) c)
      | none => .ok ⟨String.ofList core⟩ := by
  rw [Text.trims_iff.1 h]
  rfl

theorem parse_eq_empty_iff (h : Text.Trims text.toList core) : parse text = .error .empty ↔ core = [] := by
  rw [parse_of_trims h]
  split
  · next hnil => exact iff_of_true rfl hnil
  · next hne => split <;> simp [hne]

theorem parse_eq_badCharacter_iff (h : Text.Trims text.toList core) {name : String} {c : Char} :
    parse text = .error (.badCharacter name c) ↔ name.toList = core ∧ FirstStranger core c := by
  rw [parse_of_trims h, ← find?_stranger_iff]
  split
  · next hnil => simp [hnil]
  · split
    · next d hd =>
      simp only [hd, Except.error.injEq, FamilyError.badCharacter.injEq, ofList_core_eq_iff, Option.some.injEq]
    · next hnone => simp [hnone]

theorem parse_eq_ok_iff (h : Text.Trims text.toList core) :
    parse text = .ok family ↔ core ≠ [] ∧ (∀ c ∈ core, InNames c) ∧ family.name.toList = core := by
  rw [parse_of_trims h, ← find?_stranger_eq_none_iff]
  split
  · next hnil => simp [hnil]
  · next hne =>
    split
    · next d hd => simp [hd]
    · next hnone =>
      obtain ⟨name⟩ := family
      simp only [hnone, Except.ok.injEq, mk.injEq, ofList_core_eq_iff, true_and, hne, ne_eq, not_false_eq_true]

/-- A family that was read is named by its name, whatever white space is around it. -/
theorem parse_around (h : parse text = .ok family) {front back : String}
    (hfront : ∀ c ∈ front.toList, Text.isBlank c = true) (hback : ∀ c ∈ back.toList, Text.isBlank c = true) :
    parse (front ++ family.name ++ back) = .ok family := by
  obtain ⟨hne, hnames, hname⟩ := (parse_eq_ok_iff (Text.trims_trim text.toList)).1 h
  rw [← hname] at hne hnames
  refine (parse_eq_ok_iff ⟨front.toList, back.toList, ?_, hfront, hback, bare_of_inNames hnames⟩).2 ⟨hne, hnames, rfl⟩
  rw [String.toList_append, String.toList_append]

theorem parse_name (h : parse text = .ok family) : parse family.name = .ok family := by
  have haround := @parse_around text family h "" "" nofun nofun
  rwa [String.empty_append, String.append_empty] at haround

end Core

/-! ### Families as values -/

theorem toFamily_text (text : String) : (Shape.text text).toFamily = (parse text).mapError .notFamily := rfl

/-- A value that is a text is taken as the text is read, with the same message. -/
theorem message_toFamily (text : String) :
    (Shape.text text).toFamily.mapError ValueError.message = (parse text).mapError FamilyError.message := by
  rw [toFamily_text]
  cases parse text <;> rfl

/-- Each text has one core. It names no family if the core is empty, or if a character of the core is in no name, of
which the first is told with the core; and otherwise the family whose name is the core. A family that is read is read
again from its name with any white space around it, and from the value that it is written as; and two texts that name
families name the same one exactly if they have the same core. A value that is a text is taken as the text is read. -/
theorem parse_by_core (text : String) :
    ∃ core, (∀ other, Text.Trims text.toList other ↔ other = core) ∧
      (parse text = .error .empty ↔ core = []) ∧
      (∀ name c, parse text = .error (.badCharacter name c) ↔ name.toList = core ∧ FirstStranger core c) ∧
      (∀ family, parse text = .ok family ↔ core ≠ [] ∧ (∀ c ∈ core, InNames c) ∧ family.name.toList = core) ∧
      (∀ family, parse text = .ok family →
        parse family.name = .ok family ∧
        (∀ front back : String, (∀ c ∈ front.toList, Text.isBlank c = true) →
          (∀ c ∈ back.toList, Text.isBlank c = true) → parse (front ++ family.name ++ back) = .ok family) ∧
        (∀ text' family' core', Text.Trims text'.toList core' → parse text' = .ok family' →
          (family = family' ↔ core = core')) ∧
        family.shape.toFamily = .ok family) ∧
      (Shape.text text).toFamily.mapError ValueError.message = (parse text).mapError FamilyError.message := by
  have htrims := Text.trims_trim text.toList
  refine ⟨Text.trim text.toList, fun other => Text.trims_iff, parse_eq_empty_iff htrims,
    fun name c => parse_eq_badCharacter_iff htrims, fun family => parse_eq_ok_iff htrims, fun family h => ?_,
    message_toFamily text⟩
  refine ⟨parse_name h, fun front back => parse_around h, fun text' family' core' htrims' h' => ?_, ?_⟩
  · obtain ⟨-, -, hcore⟩ := (parse_eq_ok_iff htrims).1 h
    obtain ⟨-, -, hcore'⟩ := (parse_eq_ok_iff htrims').1 h'
    obtain ⟨name⟩ := family
    obtain ⟨name'⟩ := family'
    rw [← hcore, ← hcore', String.toList_inj, mk.injEq]
  · rw [shape, toFamily_text, parse_name h]
    rfl

end GpuListing.Family
