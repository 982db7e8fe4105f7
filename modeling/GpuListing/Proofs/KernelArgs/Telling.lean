import GpuListing.KernelArgs.Edits
import GpuListing.Proofs.KernelArgs.Scan

/-! # What lines tell

The entries in lines depend on little: which lines are deeper than others, which one begins the list, which ones begin
an entry, and the fields. A change to lines that keeps these keeps the entries; an error tells no more of a line than
its number. -/

namespace GpuListing.KernelArgs

/-- The field in a line, behind the mark of an entry if there is one. -/
def NoteLine.field? (line : NoteLine) : Option Field := Field.ofText? (line.item?.getD line.content)

/-- A change to lines keeps what they tell, with the numbers changed in a given way. -/
structure Keeps (f : Nat → Nat) (g : NoteLine → NoteLine) : Prop where
  number : ∀ line, (g line).number = f line.number
  depth : ∀ line other, (g line).depth < (g other).depth ↔ line.depth < other.depth
  begins : ∀ line, (g line).beginsArgs = line.beginsArgs
  marked : ∀ line, (g line).item?.isNone = line.item?.isNone
  field : ∀ line, (g line).field? = line.field?

theorem entries_cons (line : NoteLine) (lines : List NoteLine) :
    entries (line :: lines) =
      if line.item?.isNone then .error (.orphanField line.number) else .ok (group (line :: lines)).2 :=
  rfl

theorem group_cons (line : NoteLine) (lines : List NoteLine) :
    group (line :: lines) =
      if line.item?.isNone then (line.field?.toList ++ (group lines).1, (group lines).2)
      else ([], (line.field?.toList ++ (group lines).1) :: (group lines).2) := by
  rw [group, NoteLine.field?]
  cases line.item? <;> rfl

namespace Keeps
variable {f : Nat → Nat} {g : NoteLine → NoteLine} (h : Keeps f g) (lines : List NoteLine)
include h

theorem argsLines_map : argsLines (lines.map g) = (argsLines lines).map g := by
  induction lines with
  | nil => rfl
  | cons line lines ih =>
    by_cases hbegins : line.beginsArgs = true
    · have hdeeper : (fun other : NoteLine => decide ((g line).depth < other.depth)) ∘ g =
          fun other => decide (line.depth < other.depth) :=
        funext fun other => decide_eq_decide.mpr (h.depth line other)
      rw [List.map_cons, argsLines_cons ((h.begins line).trans hbegins), argsLines_cons hbegins, List.takeWhile_map,
        hdeeper]
    · have hbegins' : ¬(g line).beginsArgs = true := by rwa [h.begins line]
      rw [List.map_cons, argsLines_cons_of_not hbegins', argsLines_cons_of_not hbegins, ih]

theorem group_map : group (lines.map g) = group lines := by
  induction lines with
  | nil => rfl
  | cons line lines ih => rw [List.map_cons, group_cons, group_cons, ih, h.marked, h.field]

theorem entries_map : entries (lines.map g) = (entries lines).mapError (.renumbered f) := by
  cases lines with
  | nil => rfl
  | cons line lines =>
    have hgroup := h.group_map (line :: lines)
    rw [List.map_cons] at hgroup ⊢
    rw [entries_cons, entries_cons, hgroup, h.marked, h.number]
    split <;> rfl

end Keeps

/-! ### Changes that keep what lines tell -/

/-- The line with another number. -/
def NoteLine.renumbered (f : Nat → Nat) (line : NoteLine) : NoteLine := { line with number := f line.number }

/-- The line further to the right. -/
def NoteLine.deepened (n : Nat) (line : NoteLine) : NoteLine := { line with depth := line.depth + n }

theorem keeps_renumbered (f : Nat → Nat) : Keeps f (NoteLine.renumbered f) where
  number _ := rfl
  depth _ _ := Iff.rfl
  begins _ := rfl
  marked _ := rfl
  field _ := rfl

theorem keeps_deepened (n : Nat) : Keeps id (NoteLine.deepened n) where
  number _ := rfl
  depth _ _ := Nat.add_lt_add_iff_right
  begins _ := rfl
  marked _ := rfl
  field _ := rfl

/-! ### Carriage returns -/

/-- A text without the carriage returns at its end. -/
def withoutReturns (text : List Char) : List Char := (text.reverse.dropWhile (· = '\r')).reverse

/-- The line without the carriage returns at its end. -/
def NoteLine.shorn (line : NoteLine) : NoteLine := { line with content := withoutReturns line.content }

theorem shorn_cases (line : NoteLine) : ∃ number depth front returns, line = ⟨number, depth, front ++ returns⟩ ∧
    line.shorn = ⟨number, depth, front⟩ ∧ ∀ c ∈ returns, c = '\r' := by
  obtain ⟨number, depth, content⟩ := line
  refine ⟨number, depth, withoutReturns content, (content.reverse.takeWhile (· = '\r')).reverse, ?_, rfl, fun c hc => ?_⟩
  · rw [withoutReturns, ← List.reverse_append, List.takeWhile_append_dropWhile, List.reverse_reverse]
  · exact of_decide_eq_true (List.all_eq_true.mp List.all_takeWhile c (List.mem_reverse.mp hc))

theorem item?_eq_some_iff {line : NoteLine} {rest : List Char} :
    line.item? = some rest ↔ line.content = '-' :: ' ' :: rest := by
  unfold NoteLine.item?
  split
  · next content hcontent =>
    rw [hcontent]
    exact ⟨fun h => Option.some.inj h ▸ rfl, fun h => congrArg some (List.cons.inj (List.cons.inj h).2).2⟩
  · next hother => exact iff_of_false nofun (hother rest)

section Returns
variable {text returns : List Char} (h : ∀ c ∈ returns, c = '\r')
include h

theorem isBlank_of_returns : ∀ c ∈ returns, Text.isBlank c = true := fun c hc => h c hc ▸ by decide

theorem withoutReturns_append : withoutReturns (text ++ returns) = withoutReturns text := by
  have hreturns : ∀ c ∈ returns.reverse, decide (c = '\r') = true := fun c hc =>
    decide_eq_true (h c (List.mem_reverse.mp hc))
  rw [withoutReturns, List.reverse_append, List.dropWhile_append_of_pos hreturns, withoutReturns]

/-- No carriage return is part of the mark of an entry. -/
theorem item?_append (number depth : Nat) :
    NoteLine.item? ⟨number, depth, text ++ returns⟩ = (NoteLine.item? ⟨number, depth, text⟩).map (· ++ returns) := by
  refine Option.ext fun rest => ?_
  simp only [Option.map_eq_some_iff, item?_eq_some_iff]
  constructor
  · intro hmark
    cases text with
    | nil =>
      rw [List.nil_append] at hmark
      cases h '-' (hmark ▸ List.mem_cons_self)
    | cons c text =>
      obtain ⟨rfl, htail⟩ := List.cons.inj hmark
      cases text with
      | nil =>
        rw [List.append_eq, List.nil_append] at htail
        cases h ' ' (htail ▸ List.mem_cons_self)
      | cons d text =>
        obtain ⟨rfl, hrest⟩ := List.cons.inj htail
        exact ⟨text, rfl, hrest⟩
  · rintro ⟨front, rfl, rfl⟩
    rfl

theorem ofText?_append : Field.ofText? (text ++ returns) = Field.ofText? text := by
  by_cases hcolon : ':' ∈ text
  · obtain ⟨key, value, rfl, hkey⟩ := List.eq_append_cons_of_mem hcolon
    rw [List.append_assoc, List.cons_append, ofText?_colon hkey, ofText?_colon hkey,
      Text.trim_append value (isBlank_of_returns h)]
  · have hboth : ':' ∉ text ++ returns := by
      intro hmem
      rcases List.mem_append.mp hmem with hmem | hmem
      · exact hcolon hmem
      · cases h ':' hmem
    rw [Field.ofText?, if_neg hboth, Field.ofText?, if_neg hcolon]

end Returns

theorem keeps_shorn : Keeps id NoteLine.shorn where
  number _ := rfl
  depth _ _ := Iff.rfl
  begins line := by
    obtain ⟨number, depth, front, returns, rfl, hshorn, hreturns⟩ := shorn_cases line
    rw [hshorn, NoteLine.beginsArgs, NoteLine.beginsArgs, Text.trimEnd_append (isBlank_of_returns hreturns)]
  marked line := by
    obtain ⟨number, depth, front, returns, rfl, hshorn, hreturns⟩ := shorn_cases line
    rw [hshorn, item?_append hreturns, Option.isNone_map]
  field line := by
    obtain ⟨number, depth, front, returns, rfl, hshorn, hreturns⟩ := shorn_cases line
    rw [hshorn, NoteLine.field?, NoteLine.field?, item?_append hreturns]
    cases NoteLine.item? ⟨number, depth, front⟩ <;> exact (ofText?_append hreturns).symm

end GpuListing.KernelArgs
