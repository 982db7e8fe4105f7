import GpuListing.Text.Hex
import GpuListing.Text.Numeral

/-! # Numerals read back

The digits of a number, as many as it has or a fixed number of them, write this number. -/

namespace GpuListing.Text

theorem digitValue_of_isDigit {c : Char} (h : c.isDigit = true) : digitValue c = c.toNat - '0'.toNat := if_pos h

/-- Digits that write a number in a base up to ten are read as it. -/
theorem ofDigits_of_isDigit (base : Nat) {digits : List Char} (h : ∀ c ∈ digits, c.isDigit = true) :
    ofDigits base digits = Nat.ofDigitChars base digits 0 := by
  rw [ofDigits, Nat.ofDigitChars_eq_foldl]
  generalize 0 = sofar
  induction digits generalizing sofar with
  | nil => rfl
  | cons c digits ih =>
    rw [List.foldl_cons, List.foldl_cons, digitValue_of_isDigit (h c List.mem_cons_self)]
    exact ih (fun d hd => h d (List.mem_cons_of_mem c hd)) _

theorem ofDecimal_toDigits (n : Nat) : ofDecimal (Nat.toDigits 10 n) = n := by
  have hdigits : ∀ c ∈ Nat.toDigits 10 n, c.isDigit = true := fun _ hc =>
    Nat.isDigit_of_mem_toDigits (by decide) (by decide) hc
  rw [ofDecimal, ofDigits_of_isDigit 10 hdigits, Nat.ofDigitChars_toDigits (by decide) (by decide)]

theorem digitValue_digitChar {d : Nat} (h : d < 16) : digitValue (Nat.digitChar d) = d := by
  have table : ∀ d : Fin 16, digitValue (Nat.digitChar d.val) = d.val := by decide
  exact table ⟨d, h⟩

/-- No number but zero has a zero in front. -/
theorem eq_zero_of_head?_toDigits {n : Nat} (h : (Nat.toDigits 10 n).head? = some '0') : n = 0 := by
  induction n using Nat.strongRecOn with
  | ind n ih =>
    by_cases hn : n < 10
    · rw [Nat.toDigits_of_lt_base hn] at h
      have hdigit : Nat.digitChar n = '0' := Option.some.inj h
      have hvalue := digitValue_digitChar (show n < 16 by omega)
      rw [hdigit] at hvalue
      exact hvalue.symm
    · have hfront : Nat.toDigits 10 n = Nat.toDigits 10 (n / 10) ++ Nat.toDigits 10 (n % 10) := by
        rw [Nat.toDigits_append_toDigits (by decide) (by omega) (Nat.mod_lt n (by decide)), Nat.div_add_mod]
      have hzero : n / 10 = 0 := by
        refine ih (n / 10) (by omega) ?_
        rw [hfront] at h
        obtain ⟨d, tail, hd⟩ := List.exists_cons_of_ne_nil (Nat.toDigits_ne_nil (n := n / 10) (b := 10))
        rw [hd] at h ⊢
        exact h
      omega

theorem ofDigits?_of_forall {base : Nat} {digits : List Char} (h : ∀ d ∈ digits, isDigitOf base d = true) :
    ofDigits? base digits = some (ofDigits base digits) := if_pos (List.all_eq_true.2 h)

theorem isDigitOf_digitChar {d : Nat} (h : d < 16) : isDigitOf 16 (Nat.digitChar d) = true := by
  have table : ∀ d : Fin 16, isDigitOf 16 (Nat.digitChar d.val) = true := by decide
  exact table ⟨d, h⟩

theorem isDigitOf_of_mem_hexFixed {width n : Nat} {c : Char} (h : c ∈ hexFixed width n) : isDigitOf 16 c = true := by
  induction width generalizing n with
  | zero => cases h
  | succ width ih =>
    rcases List.mem_append.mp h with h | h
    · exact ih h
    · rw [List.mem_singleton.mp h]
      exact isDigitOf_digitChar (Nat.mod_lt n (by decide))

/-- Hexadecimal digits write the number that they are the lowest digits of. -/
theorem ofDigits_hexFixed (width n : Nat) : ofDigits 16 (hexFixed width n) = n % Nat.pow 16 width := by
  rw [Nat.pow_eq]
  induction width generalizing n with
  | zero => simp [ofDigits, hexFixed, Nat.mod_one]
  | succ width ih =>
    have hlast := digitValue_digitChar (Nat.mod_lt n (by decide : 0 < 16))
    unfold ofDigits at ih ⊢
    rw [hexFixed, List.foldl_append, ih, List.foldl_cons, List.foldl_nil, hlast, Nat.pow_succ', Nat.mod_mul]
    omega

theorem ofDigits?_hexFixed (width n : Nat) : ofDigits? 16 (hexFixed width n) = some (n % Nat.pow 16 width) := by
  rw [ofDigits?_of_forall fun _ => isDigitOf_of_mem_hexFixed, ofDigits_hexFixed]

end GpuListing.Text
