import GpuListing.KernelArgs.Words
import GpuListing.Proofs.KernelArgs.Exact
import Mathlib.Order.CompletePartialOrder
import Mathlib.Order.Interval.Set.Disjoint

/-! # Words for positions

Words of 32 bits come to the exact positions: a sum that is tested is refused just where no word holds it, and nothing
else that is done with them leaves the words. -/

namespace GpuListing.KernelArgs

namespace Words

/-- The word holds a number, or there is none because the number is not below the bound. -/
def Holds (word? : Option UInt32) (n : Nat) : Prop := word?.map UInt32.toNat = if n < bound then some n else none

section Holds
variable {word? : Option UInt32} {n : Nat}

theorem holds_some {word : UInt32} (h : word.toNat = n) : Holds (some word) n := by
  have hlt : n < bound := h ▸ word.toNat_lt
  rw [Holds, if_pos hlt, Option.map_some, h]

theorem Holds.cases (h : Holds word? n) : (∃ word, word? = some word ∧ word.toNat = n) ∨ (word? = none ∧ bound ≤ n) := by
  rw [Holds] at h
  split at h
  · obtain ⟨word, hword, hn⟩ := Option.map_eq_some_iff.mp h
    exact .inl ⟨word, hword, hn⟩
  · next houter => exact .inr ⟨Option.map_eq_none_iff.mp h, Nat.not_lt.mp houter⟩

end Holds

/-- A sum has wrapped if and only if it is less than what was added to. -/
theorem holds_add? (a b : UInt32) : Holds (add? a b) (a.toNat + b.toNat) := by
  have ha := a.toNat_lt
  have hb := b.toNat_lt
  have hsum : (a + b).toNat = (a.toNat + b.toNat) % 4294967296 := UInt32.toNat_add a b
  have hwrapped : a + b < a ↔ bound ≤ a.toNat + b.toNat := by
    have hbound : bound = 4294967296 := rfl
    rw [UInt32.lt_iff_toNat_lt, hbound]
    omega
  rw [add?]
  split
  · next h => rw [Holds, if_neg (Nat.not_lt.mpr (hwrapped.mp h)), Option.map_none]
  · next h => exact holds_some (hsum.trans (Nat.mod_eq_of_lt (Nat.not_le.mp (mt hwrapped.mpr h))))

theorem holds_roundUp? (position : UInt32) (align : UInt32) (h : 0 < align.toNat) :
    Holds (roundUp? position align) (roundUp position.toNat align.toNat) := by
  have hne : align ≠ 0 := fun he => by rw [he] at h; cases h
  have hmod : (position % align).toNat = position.toNat % align.toNat := UInt32.toNat_mod position align
  have hlt := Nat.mod_lt position.toNat h
  rw [roundUp?, if_neg hne]
  split
  · next hzero =>
    have hdvd : align.toNat ∣ position.toNat := Nat.dvd_of_mod_eq_zero (by rw [← hmod, hzero]; rfl)
    exact holds_some (roundUp_eq hdvd (Nat.le_refl _) (Nat.lt_add_of_pos_right h)).symm
  · next hnonzero =>
    have hpast : 0 < position.toNat % align.toNat := by
      refine Nat.pos_of_ne_zero fun hzero => hnonzero (UInt32.toNat_inj.mp ?_)
      rw [hmod, hzero]
      rfl
    have hle : position % align ≤ align := by
      rw [UInt32.le_iff_toNat_le, hmod]
      exact Nat.le_of_lt hlt
    -- What is missing to the next multiple is not zero and never more than the alignment.
    have hmissing : (align - position % align).toNat = align.toNat - position.toNat % align.toNat := by
      rw [UInt32.toNat_sub_of_le _ _ hle, hmod]
    have hdvd : align.toNat ∣ position.toNat + (align.toNat - position.toNat % align.toNat) := by
      refine ⟨position.toNat / align.toNat + 1, ?_⟩
      have hdiv := Nat.div_add_mod position.toNat align.toNat
      rw [Nat.mul_add, Nat.mul_one]
      omega
    have hround := roundUp_eq hdvd (Nat.le_add_right _ _) (by omega)
    rw [hround, ← hmissing]
    exact holds_add? position (align - position % align)

/-- An argument is placed by words where it is placed exactly, and refused where it ends at the bound or beyond. -/
theorem place?_cases {spec : Spec} (hsize : spec.size < bound) (halign : spec.align < bound) (hpos : 0 < spec.align)
    (start : UInt32) :
    (∃ offset stop, place? start spec = some (offset, stop) ∧ offset.toNat = roundUp start.toNat spec.align ∧
        stop.toNat = offset.toNat + spec.size) ∨
      (place? start spec = none ∧ bound ≤ roundUp start.toNat spec.align + spec.size) := by
  have hsizeWord : (UInt32.ofNat spec.size).toNat = spec.size := UInt32.toNat_ofNat_of_lt hsize
  have halignWord : (UInt32.ofNat spec.align).toNat = spec.align := UInt32.toNat_ofNat_of_lt halign
  have hround := holds_roundUp? start (UInt32.ofNat spec.align) (by rwa [halignWord])
  rw [halignWord] at hround
  rw [place?]
  rcases hround.cases with ⟨offset, hoffset, hexact⟩ | ⟨hnone, houter⟩
  · have hadd := holds_add? offset (UInt32.ofNat spec.size)
    rw [hsizeWord] at hadd
    rw [hoffset]
    rcases hadd.cases with ⟨stop, hstop, hend⟩ | ⟨hnone, houter⟩
    · exact .inl ⟨offset, stop, by rw [Option.bind_eq_bind, Option.bind_some, hstop]; rfl, hexact, hend⟩
    · exact .inr ⟨by rw [Option.bind_eq_bind, Option.bind_some, hnone]; rfl, hexact ▸ houter⟩
  · rw [hnone]
    exact .inr ⟨rfl, Nat.le_trans houter (Nat.le_add_right _ _)⟩

theorem layout_eq (index : Nat) (start : UInt32) (told : List Entry) :
    layout index start told = KernelArgs.layout index start.toNat told := by
  induction told generalizing index start with
  | nil => rfl
  | cons entry rest ih =>
    rcases ofEntry_cases index entry with ⟨spec, htells, hok⟩ | ⟨-, error, -, herror⟩
    · have hleast := isLeast_roundUp htells.align_pos start.toNat
      rw [layout_cons htells hleast, layout, hok]
      dsimp only [bind, Except.bind]
      rcases place?_cases (value_lt htells.size) (value_lt htells.align) htells.align_pos start with
        ⟨offset, stop, hplace, hoffset, hstop⟩ | ⟨hplace, houter⟩
      · have hfits : roundUp start.toNat spec.align + spec.size < bound := by
          rw [← hoffset, ← hstop]
          exact stop.toNat_lt
        rw [hplace, if_pos hfits, ← hoffset, ← hstop, ← ih]
        show layout (index + 1) stop rest >>= _ = _
        cases layout (index + 1) stop rest <;> rfl
      · rw [hplace, if_neg (Nat.not_lt.mpr houter)]
        rfl
    · rw [layout_cons_of_error herror, layout, herror]
      rfl

theorem ofNote_eq (note : Bytes) : ofNote note = KernelArgs.ofNote note := by
  show listed note >>= layout 0 0 = listed note >>= KernelArgs.layout 0 0
  cases listed note with
  | error error => rfl
  | ok told => exact layout_eq 0 0 told

end Words

/-! ### The layout of a note -/

theorem disjoint_of_stop_le {arg other : KernelArg} (h : arg.stop ≤ other.offset) :
    Disjoint (Set.Ico arg.offset arg.stop) (Set.Ico other.offset other.stop) :=
  Set.disjoint_left.mpr fun _ hin hother => Nat.not_lt.mpr (Nat.le_trans h hother.1) hin.2

/-- The arguments of a note are laid out exactly, over sums of any size: the first one starts at zero, each other one at
    the least multiple of its alignment from the end of the one before on, and all of them end below 2^32, so that they
    lie in order and apart. The argument that is refused is the first one that would not end there, if all entries up
    to its own tell an argument. Words of 32 bits come to the same. -/
theorem ofNote_exact (note : Bytes) :
    (∀ args, ofNote note = .ok args ↔ ∃ told specs, listed note = .ok told ∧ List.Forall₂ Entry.Tells told specs ∧
        Placed 0 specs args ∧ ∀ arg ∈ args, arg.stop < Nat.pow 2 32) ∧
      (∀ args, ofNote note = .ok args →
        (∀ arg ∈ args, ∃ exponent, arg.align = Nat.pow 2 exponent) ∧
        (∀ arg ∈ args.head?, arg.offset = 0) ∧
        args.IsChain (fun arg next => IsLeast {n | next.align ∣ n ∧ arg.stop ≤ n} next.offset) ∧
        (∀ arg ∈ args, arg.stop < Nat.pow 2 32) ∧
        args.Pairwise fun arg other =>
          arg.stop ≤ other.offset ∧ Disjoint (Set.Ico arg.offset arg.stop) (Set.Ico other.offset other.stop)) ∧
      (∀ index, ofNote note = .error (.offsetOverflow index) ↔
        ∃ told specs placed last, listed note = .ok told ∧ placed.length = index ∧
          List.Forall₂ Entry.Tells (told.take (index + 1)) specs ∧ Placed 0 specs (placed ++ [last]) ∧
          (∀ arg ∈ placed, arg.stop < Nat.pow 2 32) ∧ (Nat.pow 2 32 ≤ last.offset ∨ Nat.pow 2 32 ≤ last.stop)) ∧
      Words.ofNote note = ofNote note := by
  have hok : ∀ args, ofNote note = .ok args ↔ ∃ told specs, listed note = .ok told ∧
      List.Forall₂ Entry.Tells told specs ∧ Placed 0 specs args ∧ ∀ arg ∈ args, arg.stop < Nat.pow 2 32 := by
    intro args
    rw [ofNote_eq_ok_iff]
    constructor
    · rintro ⟨told, hlisted, hlay⟩
      obtain ⟨specs, hplaced⟩ := layout_eq_ok_iff.mp hlay
      exact ⟨told, specs, hlisted, hplaced⟩
    · rintro ⟨told, specs, hlisted, hplaced⟩
      exact ⟨told, hlisted, layout_eq_ok_iff.mpr ⟨specs, hplaced⟩⟩
  refine ⟨hok, fun args hargs => ?_, fun index => ?_, Words.ofNote_eq note⟩
  · obtain ⟨told, specs, -, htold, hplaced, hbound⟩ := (hok args).mp hargs
    refine ⟨hplaced.aligned htold, fun arg harg => ?_, hplaced.chain, hbound, ?_⟩
    · exact Nat.le_zero.mp ((hplaced.head arg harg).2 ⟨Nat.dvd_zero _, Nat.le_refl 0⟩)
    · exact hplaced.ordered.imp fun h => ⟨h, disjoint_of_stop_le h⟩
  · rw [ofNote_eq_error_iff]
    constructor
    · rintro (hlisted | ⟨told, hlisted, hlay⟩)
      · obtain ⟨line, hline⟩ := orphanField_of_listed hlisted
        cases hline
      · obtain ⟨specs, placed, last, hindex, htold, hplaced, hbound, hlast⟩ := layout_eq_overflow_iff.mp hlay
        rw [Nat.zero_add] at hindex
        obtain rfl := hindex
        exact ⟨told, specs, placed, last, hlisted, rfl, htold, hplaced, hbound, .inr hlast⟩
    · rintro ⟨told, specs, placed, last, hlisted, rfl, htold, hplaced, hbound, hlast⟩
      have hstop : bound ≤ last.stop := hlast.elim (fun h => Nat.le_trans h (Nat.le_add_right _ _)) id
      exact .inr ⟨told, hlisted,
        layout_eq_overflow_iff.mpr ⟨specs, placed, last, (Nat.zero_add _).symm, htold, hplaced, hbound, hstop⟩⟩

/-- A note whose first argument takes all but the last position; the second one takes none and stands there. -/
def brim : Bytes :=
  Text.octets "\nArgs:\n - Name: a\n   Size: 4294967295\n   Align: 1\n - Name: b\n   Size: 0\n   Align: 1\n".toList

/-- An argument that takes no position either, but would have to stand at an even one. -/
def overBrim : Bytes := brim ++ Text.octets " - Name: c\n   Size: 0\n   Align: 2\n".toList

theorem brim_placed :
    (ofNote brim = .ok [⟨"a", none, 4294967295, 1, 0⟩, ⟨"b", none, 0, 1, 4294967295⟩] ∧
      IsLeast {n | 1 ∣ n ∧ 4294967295 ≤ n} 4294967295) ∧
    ofNote overBrim = .error (.offsetOverflow 2) ∧
      ∃ told specs placed last, listed overBrim = .ok told ∧ placed.length = 2 ∧
        List.Forall₂ Entry.Tells (told.take 3) specs ∧ Placed 0 specs (placed ++ [last]) ∧
        (∀ arg ∈ placed, arg.stop < Nat.pow 2 32) ∧ (Nat.pow 2 32 ≤ last.offset ∨ Nat.pow 2 32 ≤ last.stop) := by
  have hok : ofNote brim = .ok [⟨"a", none, 4294967295, 1, 0⟩, ⟨"b", none, 0, 1, 4294967295⟩] := rfl
  have herror : ofNote overBrim = .error (.offsetOverflow 2) := rfl
  obtain ⟨-, -, hchain, -⟩ := (ofNote_exact brim).2.1 _ hok
  exact ⟨⟨hok, (List.isChain_cons_cons.mp hchain).1⟩, herror, ((ofNote_exact overBrim).2.2.1 2).mp herror⟩

end GpuListing.KernelArgs
