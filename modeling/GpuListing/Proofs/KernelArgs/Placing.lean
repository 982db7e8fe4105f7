import GpuListing.Proofs.KernelArgs.Blocks
import GpuListing.Proofs.Text.Numerals
import Mathlib.Data.List.Forall2

/-! # Arguments placed

A block that tells an argument gives an entry that tells the same, and entries are placed where `LaidOut` places
the arguments: the position that the quotient gives is the only multiple of the alignment in reach. -/

namespace GpuListing.KernelArgs

/-! ### Numbers -/

theorem number?_toString {n : Nat} (h : n < bound) : number? (toString n).toList = some n := by
  rw [Nat.toString_eq_ofList_toDigits, String.toList_ofList]
  have hdigits : ∀ c ∈ Nat.toDigits 10 n, c.isDigit = true := fun _ hc =>
    Nat.isDigit_of_mem_toDigits (by decide) (by decide) hc
  have hwritten : Nat.toDigits 10 n ≠ [] ∧ (Nat.toDigits 10 n).all Char.isDigit = true ∧
      Text.ofDecimal (Nat.toDigits 10 n) < bound := by
    rw [Text.ofDecimal_toDigits]
    exact ⟨Nat.toDigits_ne_nil, List.all_eq_true.mpr hdigits, h⟩
  unfold number?
  dsimp only
  split
  · next rest heq => cases hdigits '+' (heq ▸ List.mem_cons_self)
  · refine (if_pos hwritten).trans ?_
    rw [Text.ofDecimal_toDigits]

theorem number?_word (n : UInt32) : number? (toString n.toNat).toList = some n.toNat :=
  number?_toString n.toNat_lt

theorem isPowerOfTwo_pow (exponent : Nat) : isPowerOfTwo (Nat.pow 2 exponent) = true := by
  have hlog : (Nat.pow 2 exponent).log2 = exponent := Nat.log2_two_pow
  rw [isPowerOfTwo, hlog]
  exact decide_eq_true rfl

/-! ### Positions -/

/-- There is one multiple of a number from a position on within as many positions as the number tells. -/
theorem roundUp_eq {start offset align : Nat} (hmultiple : align ∣ offset) (hle : start ≤ offset)
    (hlt : offset < start + align) : roundUp start align = offset := by
  obtain ⟨quotient, rfl⟩ := hmultiple
  have hsucc : (quotient + 1) * align = align * quotient + align := by
    rw [Nat.add_mul, Nat.one_mul, Nat.mul_comm]
  have hquotient : (start + align - 1) / align = quotient := by
    refine Nat.div_eq_of_lt_le ?_ ?_
    · rw [Nat.mul_comm]
      omega
    · rw [hsucc]
      omega
  rw [roundUp, hquotient, Nat.mul_comm]

/-! ### What entries tell -/

theorem value?_entry (b : Block) (key : String) : value? b.entry key = (b.values key).head? := by
  rw [value?, Block.entry, List.find?_map, Block.values, List.head?_map, List.head?_filter, Option.map_map]
  rfl

theorem value?_of_optional {b : Block} {key : String} {told? : Option String}
    (h : b.values key = told?.toList.map String.toList) : (value? b.entry key).map String.ofList = told? := by
  rw [value?_entry, h]
  cases told? with
  | none => rfl
  | some told => exact congrArg some String.ofList_toList

section Tells
variable {b : Block} {a : Argument}

theorem numberOf_entry {field : ArgField} {n : UInt32} (h : b.values field.key = [(toString n.toNat).toList])
    (index : Nat) : numberOf index b.entry field = .ok n.toNat := by
  have hvalue : value? b.entry field.key = some (toString n.toNat).toList := by
    rw [value?_entry, h]
    rfl
  simp only [numberOf, hvalue, number?_word]

theorem alignOf_entry (h : b.Tells a) (index : Nat) : alignOf index b.entry = .ok a.align.toNat := by
  obtain ⟨exponent, hpower⟩ := a.aligned
  have hwritten : b.values (ArgField.key .align) = [(toString a.align.toNat).toList] := h.align
  have hnumber : numberOf index b.entry .align = .ok a.align.toNat := numberOf_entry hwritten index
  rw [alignOf, hnumber]
  show (if isPowerOfTwo a.align.toNat then _ else _) = _
  rw [hpower, if_pos (isPowerOfTwo_pow exponent)]
  rfl

theorem ofEntry_entry (h : b.Tells a) (index : Nat) :
    Spec.ofEntry index b.entry = .ok ⟨a.title, a.valueKind?, a.size.toNat, a.align.toNat⟩ := by
  have htitle : a.name?.or a.valueKind? = some a.title := (Option.some_get a.named).symm
  rw [Spec.ofEntry, value?_of_optional h.valueKind, value?_of_optional h.name, htitle]
  show (do
    let size ← numberOf index b.entry .size
    let align ← alignOf index b.entry
    return (⟨a.title, a.valueKind?, size, align⟩ : Spec)) = _
  have hwritten : b.values (ArgField.key .size) = [(toString a.size.toNat).toList] := h.size
  have hsize : numberOf index b.entry .size = .ok a.size.toNat := numberOf_entry hwritten index
  rw [hsize, alignOf_entry h]
  rfl

end Tells

/-- The entries of blocks are placed as the arguments are that they tell. -/
theorem layout_entries {start : Nat} {args : List Argument} {placed : List KernelArg} (h : LaidOut start args placed)
    {blocks : List Block} (htells : List.Forall₂ Block.Tells blocks args) (index : Nat) :
    layout index start (blocks.map Block.entry) = .ok placed := by
  -- On the placing: it tells where the next argument starts, and the blocks go along with the arguments.
  induction h generalizing blocks index with
  | nil start =>
    cases htells
    rfl
  | @cons start offset a rest placed hmultiple hle hlt hbelow _ ih =>
    cases htells with
    | @cons b _ blocks _ htell htells =>
      have hentry := ofEntry_entry htell index
      have hoffset : roundUp start a.align.toNat = offset := roundUp_eq hmultiple hle hlt
      rw [List.map_cons, layout, hentry]
      show (if roundUp start a.align.toNat + a.size.toNat < bound then _ else _) = _
      have hrest : layout (index + 1) (offset + a.size.toNat) (blocks.map Block.entry) = .ok placed := ih htells (index + 1)
      rw [hoffset]
      refine (if_pos hbelow).trans ?_
      show (do
        let args ← layout (index + 1) (offset + a.size.toNat) (blocks.map Block.entry)
        return a.placedAt offset :: args) = _
      rw [hrest]
      rfl

end GpuListing.KernelArgs
