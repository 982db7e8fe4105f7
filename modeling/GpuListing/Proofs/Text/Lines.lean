import GpuListing.Proofs.Library.Lists
import GpuListing.Text.Blank
import GpuListing.Text.Line

/-! # Lines and white space

The lines of a text that is written from lines are these lines, but for carriage returns at their ends. Those are
white space, so a trimmed line does not tell whether it had one. -/

namespace GpuListing.Text

/-! ### Lines -/

theorem withoutReturn_cons (c : Char) {line : List Char} (h : line ≠ []) :
    withoutReturn (c :: line) = c :: withoutReturn line := by
  unfold withoutReturn
  rw [List.getLast?_cons_of_ne_nil h, List.dropLast_cons_of_ne_nil h]
  split <;> rfl

theorem withoutReturn_of_getLast? {line : List Char} (h : line.getLast? ≠ some '\r') : withoutReturn line = line :=
  if_neg h

/-- A line that ends in a carriage return and the line without it. -/
theorem withoutReturn_cases (line : List Char) :
    withoutReturn line = line ∨ line = withoutReturn line ++ ['\r'] := by
  unfold withoutReturn
  split
  · next h =>
    obtain ⟨front, rfl⟩ := List.getLast?_eq_some_iff.mp h
    rw [List.dropLast_concat]
    exact .inr rfl
  · exact .inl rfl

theorem lines_cons_of_ne {c : Char} (hfeed : c ≠ '\n') {rest line : List Char} {more : List (List Char)}
    (hreturn : c = '\r' → rest.head? ≠ some '\n') (h : lines rest = line :: more) :
    lines (c :: rest) = (c :: line) :: more := by
  rw [lines.eq_4 _ _ hfeed]
  · rw [h]
  · rintro tail rfl rfl
    exact hreturn rfl rfl

theorem lines_line {line : List Char} (h : '\n' ∉ line) (rest : List Char) :
    lines (line ++ '\n' :: rest) = withoutReturn line :: lines rest := by
  induction line with
  | nil => rfl
  | cons c line ih =>
    obtain ⟨hc, hline⟩ := not_or.mp (mt List.mem_cons.mpr h)
    -- The first character stays in the line unless it is the carriage return of an otherwise empty line.
    cases line with
    | nil =>
      by_cases hr : c = '\r'
      · subst hr
        rfl
      · have hlast : [c].getLast? ≠ some '\r' := fun he => hr (Option.some.inj he)
        rw [withoutReturn_of_getLast? hlast]
        exact lines_cons_of_ne (Ne.symm hc) (fun he => absurd he hr) rfl
    | cons d line =>
      have hd : d ≠ '\n' := fun he => hline (he ▸ List.mem_cons_self)
      rw [withoutReturn_cons c (List.cons_ne_nil d line)]
      exact lines_cons_of_ne (Ne.symm hc) (fun _ he => hd (Option.some.inj he)) (ih hline)

theorem lines_of_not_mem {last : List Char} (h : '\n' ∉ last) : lines last = if last = [] then [] else [last] := by
  induction last with
  | nil => rfl
  | cons c last ih =>
    obtain ⟨hc, hlast⟩ := not_or.mp (mt List.mem_cons.mpr h)
    rw [if_neg (List.cons_ne_nil c last), lines.eq_4 c last (Ne.symm hc), ih hlast]
    · cases last <;> rfl
    · rintro tail rfl rfl
      exact hlast List.mem_cons_self

theorem not_mem_ofLines {c : Char} (hfeed : c ≠ '\n') {lines : List (List Char)} (h : ∀ line ∈ lines, c ∉ line) :
    c ∉ ofLines lines := by
  intro hmem
  obtain ⟨line, hline, hmem⟩ := List.mem_flatMap.mp hmem
  rcases List.mem_append.mp hmem with hmem | hmem
  · exact h line hline hmem
  · exact hfeed (List.mem_singleton.mp hmem)

/-- Lines are read back from a text that begins with them. -/
theorem lines_ofLines_append {written : List (List Char)} (h : ∀ line ∈ written, '\n' ∉ line) (rest : List Char) :
    lines (ofLines written ++ rest) = written.map withoutReturn ++ lines rest := by
  induction written with
  | nil => rfl
  | cons line written ih =>
    have hwritten := ih fun other hother => h other (List.mem_cons_of_mem line hother)
    rw [List.map_cons, List.cons_append, ← hwritten, ← lines_line (h line List.mem_cons_self)]
    simp only [ofLines, List.flatMap_cons, List.append_assoc, List.cons_append, List.nil_append]

/-- Each text is lines that end, and a line that does not. -/
theorem exists_ofLines (text : List Char) :
    ∃ written last, text = ofLines written ++ last ∧ (∀ line ∈ written, '\n' ∉ line) ∧ '\n' ∉ last := by
  induction text with
  | nil => exact ⟨[], [], rfl, nofun, nofun⟩
  | cons c text ih =>
    obtain ⟨written, last, rfl, hwritten, hlast⟩ := ih
    by_cases hfeed : c = '\n'
    · subst hfeed
      exact ⟨[] :: written, last, rfl, List.forall_mem_cons.mpr ⟨nofun, hwritten⟩, hlast⟩
    · have hcons : ∀ {line : List Char}, '\n' ∉ line → '\n' ∉ c :: line := fun hline =>
        List.not_mem_cons_of_ne_of_not_mem (Ne.symm hfeed) hline
      cases written with
      | nil => exact ⟨[], c :: last, rfl, nofun, hcons hlast⟩
      | cons line written =>
        obtain ⟨hline, hwritten⟩ := List.forall_mem_cons.mp hwritten
        exact ⟨(c :: line) :: written, last, rfl, List.forall_mem_cons.mpr ⟨hcons hline, hwritten⟩, hlast⟩

/-- What follows a line feed does not change the lines before it. -/
theorem lines_append_feed (text rest : List Char) :
    lines (text ++ '\n' :: rest) = lines (text ++ ['\n']) ++ lines rest := by
  obtain ⟨written, last, rfl, hwritten, hlast⟩ := exists_ofLines text
  have hnone : lines [] = [] := rfl
  rw [List.append_assoc, lines_ofLines_append hwritten, lines_line hlast, List.append_assoc,
    lines_ofLines_append hwritten, lines_line hlast, hnone, List.append_assoc, List.singleton_append]

/-! ### White space at the ends -/

theorem isBlank_of_mem_blanks {n : Nat} {c : Char} (h : c ∈ blanks n) : isBlank c = true := by
  obtain rfl := (List.mem_replicate.mp h).2
  decide

theorem trimStart_of_head {text : List Char} (h : ∀ c ∈ text.head?, isBlank c = false) : trimStart text = text := by
  cases text with
  | nil => rfl
  | cons c text => exact List.dropWhile_cons_of_neg (by rw [h c rfl]; exact Bool.false_ne_true)

theorem trimStart_blanks_append (n : Nat) (text : List Char) : trimStart (blanks n ++ text) = trimStart text :=
  List.dropWhile_append_of_pos fun _ => isBlank_of_mem_blanks

theorem takeWhile_blanks_append (n : Nat) {text : List Char} (h : ∀ c ∈ text.head?, isBlank c = false) :
    (blanks n ++ text).takeWhile isBlank = blanks n :=
  takeWhile_append_of_head (fun _ => isBlank_of_mem_blanks) h

theorem trimEnd_of_last {text : List Char} (h : ∀ c ∈ text.getLast?, isBlank c = false) : trimEnd text = text := by
  rw [← List.head?_reverse] at h
  exact (congrArg List.reverse (trimStart_of_head h)).trans text.reverse_reverse

theorem trimEnd_prefix (text : List Char) : trimEnd text <+: text := by
  have hprefix := List.reverse_prefix.mpr (text.reverse.dropWhile_suffix isBlank)
  rwa [List.reverse_reverse] at hprefix

theorem trimEnd_append {text space : List Char} (h : ∀ c ∈ space, isBlank c = true) :
    trimEnd (text ++ space) = trimEnd text := by
  have hspace : ∀ c ∈ space.reverse, isBlank c = true := fun c hc => h c (List.mem_reverse.mp hc)
  rw [trimEnd, List.reverse_append, List.dropWhile_append_of_pos hspace, trimEnd]

theorem trim_of_bare {text : List Char} (h : Bare text) : trim text = text := by
  rw [trim, trimStart_of_head h.1, trimEnd_of_last h.2]

theorem trim_blanks_append (n : Nat) (text : List Char) : trim (blanks n ++ text) = trim text := by
  rw [trim, trimStart_blanks_append, trim]

theorem trimStart_ne_nil {text : List Char} {c : Char} (h : c ∈ text) (hc : isBlank c = false) :
    trimStart text ≠ [] := by
  induction text with
  | nil => cases h
  | cons d text ih =>
    by_cases hd : isBlank d = true
    · rw [trimStart, List.dropWhile_cons_of_pos hd]
      rcases List.mem_cons.mp h with rfl | h
      · rw [hc] at hd
        cases hd
      · exact ih h
    · rw [trimStart, List.dropWhile_cons_of_neg hd]
      exact List.cons_ne_nil d text

theorem trimStart_append (text : List Char) {space : List Char} (h : ∀ c ∈ space, isBlank c = true) :
    trimStart (text ++ space) = if trimStart text = [] then [] else trimStart text ++ space := by
  have hspace : (space ++ []).dropWhile isBlank = [] := List.dropWhile_append_of_pos h
  rw [List.append_nil] at hspace
  rw [trimStart, List.dropWhile_append, hspace]
  show (if (trimStart text).isEmpty = true then [] else trimStart text ++ space) = _
  simp only [List.isEmpty_iff]

/-- White space at the end of a text does not change what it is trimmed to. -/
theorem trim_append (text : List Char) {space : List Char} (h : ∀ c ∈ space, isBlank c = true) :
    trim (text ++ space) = trim text := by
  rw [trim, trimStart_append text h, trim]
  split
  · next hnil => rw [hnil]
  · exact trimEnd_append h

theorem head?_trimStart (text : List Char) : ∀ c ∈ (trimStart text).head?, isBlank c = false := by
  intro c hc
  have hstop := List.head?_dropWhile_not isBlank text
  rw [show (text.dropWhile isBlank).head? = some c from hc] at hstop
  exact hstop

theorem bare_trim (text : List Char) : Bare (trim text) := by
  refine ⟨fun c hc => head?_trimStart text c ?_, fun c hc => ?_⟩
  · obtain ⟨back, hback⟩ := trimEnd_prefix (trimStart text)
    have hhead : (trimEnd (trimStart text)).head? = some c := hc
    rw [← hback, List.head?_append, hhead]
    rfl
  · rw [trim, trimEnd, List.getLast?_reverse] at hc
    exact head?_trimStart _ c hc

theorem trims_trim (text : List Char) : Trims text (trim text) := by
  refine ⟨text.takeWhile isBlank, ((trimStart text).reverse.takeWhile isBlank).reverse, ?_,
    List.all_eq_true.mp List.all_takeWhile, fun c hc => List.all_eq_true.mp List.all_takeWhile c (List.mem_reverse.mp hc),
    bare_trim text⟩
  rw [List.append_assoc, trim, trimEnd, ← List.reverse_append, List.takeWhile_append_dropWhile, List.reverse_reverse,
    trimStart, List.takeWhile_append_dropWhile]

/-- A text has one core without white space at its ends. -/
theorem trims_iff {text core : List Char} : Trims text core ↔ core = trim text := by
  constructor
  · rintro ⟨front, back, rfl, hfront, hback, hbare⟩
    rw [trim_append _ hback, trim, trimStart, List.dropWhile_append_of_pos hfront]
    exact (trim_of_bare hbare).symm
  · rintro rfl
    exact trims_trim text

/-- The white space in front of a text that is not all white space ends in it, whatever follows the text. -/
theorem takeWhile_append_of_solid {text : List Char} (h : trimStart text ≠ []) (rest : List Char) :
    (text ++ rest).takeWhile isBlank = text.takeWhile isBlank := by
  have hlength : (text.takeWhile isBlank).length ≠ text.length := by
    intro he
    have hall := congrArg List.length (List.takeWhile_append_dropWhile (p := isBlank) (l := text))
    rw [List.length_append, he, Nat.add_eq_left, List.length_eq_zero_iff] at hall
    exact h hall
  rw [List.takeWhile_append, if_neg hlength]

/-! ### Carriage returns -/

theorem isBlank_return : ∀ c ∈ ['\r'], isBlank c = true := List.all_eq_true.mp rfl

theorem trim_withoutReturn (line : List Char) : trim (withoutReturn line) = trim line := by
  obtain h | h := withoutReturn_cases line
  · rw [h]
  · have happend := trim_append (withoutReturn line) isBlank_return
    rw [← h] at happend
    exact happend.symm

/-- The white space in front of a line that is not all white space does not reach a carriage return at its end. -/
theorem takeWhile_withoutReturn {line : List Char} (h : trimStart line ≠ []) :
    (withoutReturn line).takeWhile isBlank = line.takeWhile isBlank ∧ trimStart (withoutReturn line) ≠ [] := by
  obtain hsame | hline := withoutReturn_cases line
  · rw [hsame]
    exact ⟨rfl, h⟩
  · have hne : trimStart (withoutReturn line) ≠ [] := by
      intro hnil
      rw [hline, trimStart_append _ isBlank_return, if_pos hnil] at h
      exact h rfl
    have hboth := takeWhile_append_of_solid hne ['\r']
    rw [← hline] at hboth
    exact ⟨hboth.symm, hne⟩

end GpuListing.Text
