import GpuListing.Proofs.KernelArgs.Placing
import Mathlib.Data.List.Chain
import Mathlib.Order.Bounds.Basic

/-! # Exact positions

What an entry has to hold so that an argument can be placed, and where it is placed: at the least multiple of its
alignment that is no less than the end of the argument before it. Over sums of any size this tells exactly which list
is laid out, and which argument is refused. -/

namespace GpuListing

/-- The position after the last octet of an argument. -/
def KernelArg.stop (arg : KernelArg) : Nat := arg.offset + arg.size

/-- The argument that an error is about. -/
def KernelArgsError.index? : KernelArgsError → Option Nat
  | missingNote => none
  | orphanField _ => none
  | missingField index _ => some index
  | badValue index _ _ => some index
  | offsetOverflow index => some index

namespace KernelArgs

/-! ### What entries tell -/

/-- An entry has all that an argument needs: a name or a value kind, a size, and an alignment that is a power of two. -/
structure Entry.Tells (entry : Entry) (spec : Spec) : Prop where
  valueKind : (value? entry "ValueKind").map String.ofList = spec.valueKind
  name : ((value? entry "Name").map String.ofList).or spec.valueKind = some spec.name
  size : (value? entry "Size").bind number? = some spec.size
  align : (value? entry "Align").bind number? = some spec.align
  aligned : ∃ exponent, spec.align = Nat.pow 2 exponent

/-- What an entry lacks, or has no good value for. -/
inductive OfField (index : Nat) : KernelArgsError → Prop where
  | missing (field : ArgField) : OfField index (.missingField index field)
  | bad (field : ArgField) (value : String) : OfField index (.badValue index field value)

section Tells
variable {index : Nat} {entry : Entry} {spec : Spec}

theorem numberOf_cases (index : Nat) (entry : Entry) (field : ArgField) :
    (∃ n, (value? entry field.key).bind number? = some n ∧ numberOf index entry field = .ok n) ∨
      ((value? entry field.key).bind number? = none ∧
        ∃ error, OfField index error ∧ numberOf index entry field = .error error) := by
  unfold numberOf
  split
  · next hvalue =>
    rw [hvalue]
    exact .inr ⟨rfl, _, .missing field, rfl⟩
  · next text hvalue =>
    rw [hvalue, Option.bind_some]
    split
    · next hnumber => exact .inr ⟨hnumber, _, .bad field _, rfl⟩
    · next n hnumber => exact .inl ⟨n, hnumber, rfl⟩

theorem isPowerOfTwo_iff {n : Nat} : isPowerOfTwo n = true ↔ ∃ exponent, n = Nat.pow 2 exponent := by
  constructor
  · intro h
    exact ⟨n.log2, (of_decide_eq_true h).symm⟩
  · rintro ⟨exponent, rfl⟩
    exact isPowerOfTwo_pow exponent

theorem alignOf_cases (index : Nat) (entry : Entry) :
    (∃ n, ((value? entry "Align").bind number? = some n ∧ ∃ exponent, n = Nat.pow 2 exponent) ∧
        alignOf index entry = .ok n) ∨
      ((∀ n, (value? entry "Align").bind number? = some n → ¬∃ exponent, n = Nat.pow 2 exponent) ∧
        ∃ error, OfField index error ∧ alignOf index entry = .error error) := by
  rw [alignOf]
  rcases numberOf_cases index entry .align with ⟨n, hvalue, hnumber⟩ | ⟨hvalue, error, hfield, hnumber⟩
  · rw [hnumber]
    by_cases hpower : isPowerOfTwo n = true
    · exact .inl ⟨n, ⟨hvalue, isPowerOfTwo_iff.mp hpower⟩, if_pos hpower⟩
    · refine .inr ⟨fun m hm => ?_, _, .bad .align _, if_neg hpower⟩
      obtain rfl := Option.some.inj (hvalue.symm.trans hm)
      exact mt isPowerOfTwo_iff.mpr hpower
  · rw [hnumber]
    refine .inr ⟨fun m hm => ?_, error, hfield, rfl⟩
    cases hvalue.symm.trans hm

/-- An entry tells an argument, or something of it is the error. -/
theorem ofEntry_cases (index : Nat) (entry : Entry) :
    (∃ spec, entry.Tells spec ∧ Spec.ofEntry index entry = .ok spec) ∨
      ((∀ spec, ¬entry.Tells spec) ∧ ∃ error, OfField index error ∧ Spec.ofEntry index entry = .error error) := by
  simp only [Spec.ofEntry]
  cases hname : ((value? entry "Name").map String.ofList).or ((value? entry "ValueKind").map String.ofList) with
  | none =>
    refine .inr ⟨fun spec h => ?_, _, .missing .name, rfl⟩
    have htold := h.name
    rw [← h.valueKind, hname] at htold
    cases htold
  | some name =>
    rcases numberOf_cases index entry .size with ⟨size, hsize, hread⟩ | ⟨hsize, error, hfield, hread⟩
    · rcases alignOf_cases index entry with ⟨align, ⟨halign, haligned⟩, hpower⟩ | ⟨hnone, error, hfield, hpower⟩
      · refine .inl ⟨⟨name, _, size, align⟩, ⟨rfl, hname, hsize, halign, haligned⟩, ?_⟩
        simp only [hread, hpower]
        rfl
      · refine .inr ⟨fun spec h => hnone spec.align h.align h.aligned, error, hfield, ?_⟩
        simp only [hread, hpower]
        rfl
    · refine .inr ⟨fun spec h => ?_, error, hfield, ?_⟩
      · cases hsize.symm.trans h.size
      · simp only [hread]
        rfl

theorem Entry.Tells.ofEntry (h : entry.Tells spec) (index : Nat) : Spec.ofEntry index entry = .ok spec := by
  rcases ofEntry_cases index entry with ⟨told, htold, hok⟩ | ⟨hnone, -⟩
  · obtain ⟨name, valueKind, size, align⟩ := spec
    obtain ⟨name', valueKind', size', align'⟩ := told
    obtain rfl : valueKind' = valueKind := htold.valueKind.symm.trans h.valueKind
    obtain rfl : name' = name := Option.some.inj (htold.name.symm.trans h.name)
    obtain rfl : size' = size := Option.some.inj (htold.size.symm.trans h.size)
    obtain rfl : align' = align := Option.some.inj (htold.align.symm.trans h.align)
    exact hok
  · exact absurd h (hnone spec)

theorem number?_lt {text : List Char} {n : Nat} (h : number? text = some n) : n < bound := by
  obtain ⟨⟨-, -, hlt⟩, hn⟩ := Option.ite_none_right_eq_some.mp h
  exact Option.some.inj hn ▸ hlt

theorem value_lt {key : String} {n : Nat} (h : (value? entry key).bind number? = some n) : n < bound := by
  obtain ⟨text, -, hnumber⟩ := Option.bind_eq_some_iff.mp h
  exact number?_lt hnumber

theorem Entry.Tells.align_pos (h : entry.Tells spec) : 0 < spec.align := by
  obtain ⟨exponent, hpower⟩ := h.aligned
  rw [hpower]
  exact Nat.two_pow_pos exponent

end Tells

/-! ### Places -/

def Spec.placedAt (spec : Spec) (offset : Nat) : KernelArg :=
  ⟨spec.name, spec.valueKind, spec.size, spec.align, offset⟩

/-- Arguments placed one after another from a position on: each at the least multiple of its alignment that is no less
    than the end of the one before. Nothing bounds the positions. -/
inductive Placed : (start : Nat) → List Spec → List KernelArg → Prop where
  | nil (start : Nat) : Placed start [] []
  | cons {start offset : Nat} {spec : Spec} {rest : List Spec} {args : List KernelArg} :
      IsLeast {n | spec.align ∣ n ∧ start ≤ n} offset → Placed (offset + spec.size) rest args →
      Placed start (spec :: rest) (spec.placedAt offset :: args)

theorem isLeast_roundUp {align : Nat} (h : 0 < align) (start : Nat) :
    IsLeast {n | align ∣ n ∧ start ≤ n} (roundUp start align) := by
  have hmod := Nat.mod_lt (start + align - 1) h
  have hdiv := Nat.div_add_mod' (start + align - 1) align
  refine ⟨⟨Nat.dvd_mul_left align _, ?_⟩, fun n hn => ?_⟩
  · rw [roundUp]
    omega
  · obtain ⟨⟨quotient, rfl⟩, hle⟩ := hn
    have hlt : (start + align - 1) / align < quotient + 1 := by
      rw [Nat.div_lt_iff_lt_mul h, Nat.add_mul, Nat.one_mul, Nat.mul_comm]
      omega
    rw [roundUp, Nat.mul_comm align]
    exact Nat.mul_le_mul_right align (Nat.le_of_lt_succ hlt)

namespace Placed
variable {start : Nat} {specs : List Spec} {args : List KernelArg}

theorem length_eq (h : Placed start specs args) : args.length = specs.length := by
  induction h with
  | nil => rfl
  | cons _ _ ih => rw [List.length_cons, List.length_cons, ih]

theorem head (h : Placed start specs args) :
    ∀ arg ∈ args.head?, IsLeast {n | arg.align ∣ n ∧ start ≤ n} arg.offset := by
  cases h with
  | nil => exact nofun
  | cons hleast _ =>
    intro arg harg
    obtain rfl := Option.some.inj harg
    exact hleast

theorem chain (h : Placed start specs args) :
    args.IsChain fun arg next => IsLeast {n | next.align ∣ n ∧ arg.stop ≤ n} next.offset := by
  induction h with
  | nil => exact .nil
  | cons _ hrest ih => exact ih.cons hrest.head

theorem start_le (h : Placed start specs args) : ∀ arg ∈ args, start ≤ arg.offset := by
  induction h with
  | nil => exact nofun
  | @cons start offset spec rest args hleast _ ih =>
    have hstart : start ≤ offset := hleast.1.2
    intro arg harg
    rcases List.mem_cons.mp harg with rfl | harg
    · exact hstart
    · exact Nat.le_trans (Nat.le_trans hstart (Nat.le_add_right offset spec.size)) (ih arg harg)

theorem ordered (h : Placed start specs args) : args.Pairwise fun arg other => arg.stop ≤ other.offset := by
  induction h with
  | nil => exact .nil
  | cons _ hrest ih => exact .cons hrest.start_le ih

theorem aligned {told : List Entry} (h : Placed start specs args) (htold : List.Forall₂ Entry.Tells told specs) :
    ∀ arg ∈ args, ∃ exponent, arg.align = Nat.pow 2 exponent := by
  induction h generalizing told with
  | nil => exact nofun
  | cons _ _ ih =>
    cases htold with
    | cons htells htold => exact List.forall_mem_cons.mpr ⟨htells.aligned, ih htold⟩

end Placed

/-! ### Layouts -/

section Layout
variable {index start offset : Nat} {entry : Entry} {spec : Spec} {rest told : List Entry} {args : List KernelArg}

theorem layout_cons (h : entry.Tells spec) (hleast : IsLeast {n | spec.align ∣ n ∧ start ≤ n} offset) (index : Nat)
    (rest : List Entry) :
    layout index start (entry :: rest) =
      if offset + spec.size < bound then
        (layout (index + 1) (offset + spec.size) rest).map (spec.placedAt offset :: ·)
      else .error (.offsetOverflow index) := by
  obtain rfl := hleast.unique (isLeast_roundUp h.align_pos start)
  rw [layout, h.ofEntry]
  show (if roundUp start spec.align + spec.size < bound then _ else _) = _
  split
  · cases layout (index + 1) (roundUp start spec.align + spec.size) rest <;> rfl
  · rfl

theorem layout_cons_of_error {error : KernelArgsError} (h : Spec.ofEntry index entry = .error error) (start : Nat)
    (rest : List Entry) : layout index start (entry :: rest) = .error error := by
  rw [layout, h]
  rfl

/-- What comes of the first entry: it is placed and the rest after it, or it ends where no number does, or it does not
    tell an argument. -/
theorem layout_cases (index start : Nat) (entry : Entry) (rest : List Entry) :
    (∃ spec offset, entry.Tells spec ∧ IsLeast {n | spec.align ∣ n ∧ start ≤ n} offset ∧
      ((offset + spec.size < bound ∧ layout index start (entry :: rest) =
          (layout (index + 1) (offset + spec.size) rest).map (spec.placedAt offset :: ·)) ∨
        (bound ≤ offset + spec.size ∧ layout index start (entry :: rest) = .error (.offsetOverflow index)))) ∨
    ((∀ spec, ¬entry.Tells spec) ∧
      ∃ error, OfField index error ∧ layout index start (entry :: rest) = .error error) := by
  rcases ofEntry_cases index entry with ⟨spec, htells, -⟩ | ⟨hnone, error, hfield, herror⟩
  · have hleast := isLeast_roundUp htells.align_pos start
    refine .inl ⟨spec, _, htells, hleast, ?_⟩
    rw [layout_cons htells hleast]
    by_cases hfits : roundUp start spec.align + spec.size < bound
    · exact .inl ⟨hfits, if_pos hfits⟩
    · exact .inr ⟨Nat.not_lt.mp hfits, if_neg hfits⟩
  · exact .inr ⟨hnone, error, hfield, layout_cons_of_error herror start rest⟩

/-- A list is laid out if every entry tells an argument and every exact position stays below the bound. -/
theorem layout_eq_ok_iff : layout index start told = .ok args ↔
    ∃ specs, List.Forall₂ Entry.Tells told specs ∧ Placed start specs args ∧ ∀ arg ∈ args, arg.stop < bound := by
  induction told generalizing index start args with
  | nil =>
    constructor
    · intro h
      obtain rfl := Except.ok.inj h
      exact ⟨[], .nil, .nil start, nofun⟩
    · rintro ⟨specs, htells, hplaced, -⟩
      cases htells
      cases hplaced
      rfl
  | cons entry rest ih =>
    constructor
    · intro h
      rcases layout_cases index start entry rest with
        ⟨spec, offset, htells, hleast, ⟨hfits, hlay⟩ | ⟨-, hlay⟩⟩ | ⟨-, error, -, hlay⟩
      · cases hrest : layout (index + 1) (offset + spec.size) rest with
        | error error =>
          rw [hlay, hrest] at h
          cases h
        | ok args' =>
          rw [hlay, hrest] at h
          obtain rfl := Except.ok.inj h
          obtain ⟨specs, htold, hplaced, hbound⟩ := ih.mp hrest
          exact ⟨spec :: specs, .cons htells htold, .cons hleast hplaced, List.forall_mem_cons.mpr ⟨hfits, hbound⟩⟩
      · cases hlay.symm.trans h
      · cases hlay.symm.trans h
    · rintro ⟨specs, htold, hplaced, hbound⟩
      cases htold with
      | @cons _ spec _ specs htells htold =>
        cases hplaced with
        | @cons _ offset _ _ args hleast hplaced =>
          obtain ⟨hfirst, hbound⟩ := List.forall_mem_cons.mp hbound
          have hfits : offset + spec.size < bound := hfirst
          rw [layout_cons htells hleast, if_pos hfits, ih.mpr ⟨specs, htold, hplaced, hbound⟩]
          rfl

/-- The first argument that does not stay below the bound is told, if all entries up to its own tell an argument. -/
theorem layout_eq_overflow_iff {number : Nat} : layout index start told = .error (.offsetOverflow number) ↔
    ∃ specs placed last, number = index + placed.length ∧
      List.Forall₂ Entry.Tells (told.take (placed.length + 1)) specs ∧ Placed start specs (placed ++ [last]) ∧
      (∀ arg ∈ placed, arg.stop < bound) ∧ bound ≤ last.stop := by
  induction told generalizing index start with
  | nil =>
    refine iff_of_false nofun ?_
    rintro ⟨specs, placed, last, -, htold, hplaced, -⟩
    rw [List.take_nil] at htold
    cases htold
    have hlength := hplaced.length_eq
    rw [List.length_append] at hlength
    cases hlength
  | cons entry rest ih =>
    constructor
    · intro h
      rcases layout_cases index start entry rest with
        ⟨spec, offset, htells, hleast, ⟨hfits, hlay⟩ | ⟨houter, hlay⟩⟩ | ⟨-, error, hfield, hlay⟩
      · cases hrest : layout (index + 1) (offset + spec.size) rest with
        | ok args' =>
          rw [hlay, hrest] at h
          cases h
        | error error =>
          rw [hlay, hrest] at h
          obtain rfl := Except.error.inj h
          obtain ⟨specs, placed, last, rfl, htold, hplaced, hbound, hlast⟩ := ih.mp hrest
          refine ⟨spec :: specs, spec.placedAt offset :: placed, last, ?_, .cons htells htold, .cons hleast hplaced,
            List.forall_mem_cons.mpr ⟨hfits, hbound⟩, hlast⟩
          rw [List.length_cons, Nat.add_right_comm, Nat.add_assoc]
      · cases hlay.symm.trans h
        exact ⟨[spec], [], spec.placedAt offset, rfl, .cons htells .nil, .cons hleast (.nil _), nofun, houter⟩
      · obtain rfl := Except.error.inj (hlay.symm.trans h)
        cases hfield
    · rintro ⟨specs, placed, last, hnumber, htold, hplaced, hbound, hlast⟩
      cases htold with
      | @cons _ spec _ specs htells htold =>
        cases placed with
        | nil =>
          cases hplaced with
          | cons hleast hrest =>
            cases hrest
            obtain rfl := hnumber
            rw [layout_cons htells hleast]
            exact if_neg (Nat.not_lt.mpr hlast)
        | cons first placed =>
          cases hplaced with
          | @cons _ offset _ _ _ hleast hplaced =>
            obtain ⟨hfirst, hbound⟩ := List.forall_mem_cons.mp hbound
            have hfits : offset + spec.size < bound := hfirst
            rw [List.length_cons, Nat.add_comm placed.length, ← Nat.add_assoc] at hnumber
            rw [layout_cons htells hleast, if_pos hfits,
              ih.mpr ⟨specs, placed, last, hnumber, htold, hplaced, hbound, hlast⟩]
            rfl

/-- What is wrong is one of the arguments. -/
theorem index_of_layout {error : KernelArgsError} (h : layout index start told = .error error) :
    ∃ number, error.index? = some number ∧ index ≤ number ∧ number < index + told.length := by
  induction told generalizing index start with
  | nil => cases h
  | cons entry rest ih =>
    have hfirst : index < index + (entry :: rest).length := Nat.lt_add_of_pos_right (Nat.succ_pos _)
    rcases layout_cases index start entry rest with
      ⟨spec, offset, -, -, ⟨-, hlay⟩ | ⟨-, hlay⟩⟩ | ⟨-, told, hfield, hlay⟩
    · cases hrest : layout (index + 1) (offset + spec.size) rest with
      | ok args =>
        rw [hlay, hrest] at h
        cases h
      | error told =>
        rw [hlay, hrest] at h
        obtain rfl := Except.error.inj h
        obtain ⟨number, hnumber, hle, hlt⟩ := ih hrest
        refine ⟨number, hnumber, Nat.le_of_succ_le hle, ?_⟩
        rwa [List.length_cons, Nat.add_comm rest.length, ← Nat.add_assoc]
    · obtain rfl := Except.error.inj (hlay.symm.trans h)
      exact ⟨index, rfl, Nat.le_refl index, hfirst⟩
    · obtain rfl := Except.error.inj (hlay.symm.trans h)
      refine ⟨index, ?_, Nat.le_refl index, hfirst⟩
      cases hfield <;> rfl

end Layout

/-! ### Notes -/

/-- The entries that a note lists. -/
def listed (note : Bytes) : Except KernelArgsError (List Entry) := entries (argsLines (noteLines (noteText note)))

section Notes
variable {note : Bytes}

theorem orphanField_of_listed {error : KernelArgsError} (h : listed note = .error error) :
    ∃ line, error = .orphanField line := by
  unfold listed entries at h
  split at h
  · cases h
  · next line _ _ =>
    split at h
    · exact ⟨line.number, (Except.error.inj h).symm⟩
    · cases h

theorem ofNote_eq_ok_iff {args : List KernelArg} :
    ofNote note = .ok args ↔ ∃ told, listed note = .ok told ∧ layout 0 0 told = .ok args := by
  show listed note >>= layout 0 0 = .ok args ↔ _
  cases listed note with
  | error error => exact iff_of_false nofun (by rintro ⟨told, hlisted, -⟩; cases hlisted)
  | ok told =>
    constructor
    · exact fun h => ⟨told, rfl, h⟩
    · rintro ⟨_, hlisted, h⟩
      obtain rfl := Except.ok.inj hlisted
      exact h

theorem ofNote_eq_error_iff {error : KernelArgsError} :
    ofNote note = .error error ↔
      listed note = .error error ∨ ∃ told, listed note = .ok told ∧ layout 0 0 told = .error error := by
  show listed note >>= layout 0 0 = .error error ↔ _
  cases listed note with
  | error reason =>
    constructor
    · intro h
      obtain rfl := Except.error.inj h
      exact .inl rfl
    · rintro (h | ⟨told, hlisted, -⟩)
      · obtain rfl := Except.error.inj h
        rfl
      · cases hlisted
  | ok told =>
    constructor
    · exact fun h => .inr ⟨told, rfl, h⟩
    · rintro (h | ⟨_, hlisted, h⟩)
      · cases h
      · obtain rfl := Except.ok.inj hlisted
        exact h

/-- What is wrong with a note is never that there is none. -/
theorem ofNote_ne_missingNote (note : Bytes) : ofNote note ≠ .error .missingNote := by
  intro h
  rcases ofNote_eq_error_iff.mp h with hlisted | ⟨told, -, hlay⟩
  · obtain ⟨line, hline⟩ := orphanField_of_listed hlisted
    cases hline
  · obtain ⟨number, hnumber, -⟩ := index_of_layout hlay
    cases hnumber

end Notes

end KernelArgs

end GpuListing
