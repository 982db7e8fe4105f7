import GpuListing.Proofs.KernelArgs.Further
import GpuListing.Proofs.Library.Lists

/-! # Notes edited

What a note tells is told by its lines one by one, carriage returns at their ends left out. So it stays the same when
all lines move to the right, when other octets end them, when white space comes between them or zeros come and go;
only the number in an error moves on with its line. -/

namespace GpuListing

section Renumbered
variable {f : Nat → Nat} {error : KernelArgsError} {index : Nat}

theorem KernelArgsError.mapError_renumbered_id {α : Type} (x : Except KernelArgsError α) :
    x.mapError (.renumbered id) = x := by
  cases x with
  | error error => cases error <;> rfl
  | ok a => rfl

/-- An error about an argument names no line. -/
theorem KernelArgsError.renumbered_of_index? (h : error.index? = some index) : error.renumbered f = error := by
  cases error with
  | orphanField line => cases h
  | _ => rfl

end Renumbered

namespace KernelArgs

/-! ### Carriage returns -/

section Returns
variable {first : Nat} {text returns : List Char} {texts : List (List Char)}

theorem ofLine?_append_returns (h : ∀ c ∈ returns, c = '\r') (text : List Char) (number : Nat) :
    (NoteLine.ofLine? (text ++ returns, number)).map NoteLine.shorn = (NoteLine.ofLine? (text, number)).map NoteLine.shorn := by
  have happend := Text.trimStart_append text (isBlank_of_returns h)
  by_cases hsolid : Solid text
  · rw [if_neg hsolid] at happend
    have hboth : Solid (text ++ returns) := by
      rw [Solid, happend]
      exact List.append_ne_nil_of_left_ne_nil hsolid returns
    rw [ofLine?_eq_some hboth, ofLine?_eq_some hsolid, happend, Text.takeWhile_append_of_solid hsolid]
    exact congrArg (fun content => some (NoteLine.mk number (depthOf text) content)) (withoutReturns_append h)
  · rw [if_pos (Decidable.not_not.mp hsolid)] at happend
    rw [ofLine?_eq_none (not_not_intro happend), ofLine?_eq_none hsolid]

theorem ofLine?_withoutReturn (text : List Char) (number : Nat) :
    (NoteLine.ofLine? (Text.withoutReturn text, number)).map NoteLine.shorn =
      (NoteLine.ofLine? (text, number)).map NoteLine.shorn := by
  obtain hsame | htext := Text.withoutReturn_cases text
  · rw [hsame]
  · have hreturn : ∀ c ∈ ['\r'], c = '\r' := fun c => List.mem_singleton.mp
    have happend := ofLine?_append_returns hreturn (Text.withoutReturn text) number
    rw [← htext] at happend
    exact happend.symm

theorem shorn_numbered_cons (first : Nat) (text : List Char) (texts : List (List Char)) :
    (numbered first (text :: texts)).map NoteLine.shorn =
      ((NoteLine.ofLine? (text, first)).map NoteLine.shorn).toList ++ (numbered (first + 1) texts).map NoteLine.shorn := by
  rw [numbered_cons_toList, List.map_append]
  cases NoteLine.ofLine? (text, first) <;> rfl

/-- The lines of texts that line feeds stand between, with carriage returns or without, are these texts but for
    carriage returns. -/
theorem shorn_lines (hfeed : ∀ text ∈ texts, '\n' ∉ text) (hreturns : ∀ c ∈ returns, c = '\r') (first : Nat) :
    (numbered first (Text.lines ((returns ++ ['\n']).intercalate texts))).map NoteLine.shorn =
      (numbered first texts).map NoteLine.shorn := by
  induction texts generalizing first with
  | nil => rfl
  | cons text texts ih =>
    obtain ⟨htext, htexts⟩ := List.forall_mem_cons.mp hfeed
    cases texts with
    | nil =>
      -- The last text is no line if it is empty, and then it would not be seen.
      rw [List.intercalate_singleton, Text.lines_of_not_mem htext]
      split
      · next hnil => rw [hnil]; rfl
      · rfl
    | cons next texts =>
      have hline : '\n' ∉ text ++ returns := by
        intro hmem
        rcases List.mem_append.mp hmem with hmem | hmem
        · exact htext hmem
        · cases hreturns '\n' hmem
      have hshape : (returns ++ ['\n']).intercalate (text :: next :: texts) =
          (text ++ returns) ++ '\n' :: (returns ++ ['\n']).intercalate (next :: texts) := by
        simp only [List.intercalate_cons_cons, List.append_assoc, List.singleton_append]
      rw [hshape, Text.lines_line hline, shorn_numbered_cons, shorn_numbered_cons, ih htexts, ofLine?_withoutReturn,
        ofLine?_append_returns hreturns]

end Returns

/-! ### Lines of octets -/

/-- A line feed with carriage returns in front of it. -/
def lineEnd (returns : Nat) : Bytes := List.replicate returns 0x0d ++ [0x0a]

section Octets
variable {header : Bytes} {lines : List Bytes} {f : Nat → Nat}

theorem filter_lineEnd (returns : Nat) : (lineEnd returns).filter (· ≠ 0) = lineEnd returns := by
  refine List.filter_eq_self.mpr fun b hb => decide_eq_true ?_
  rcases List.mem_append.mp hb with hb | hb
  · rw [(List.mem_replicate.mp hb).2]
    decide
  · rw [List.mem_singleton.mp hb]
    decide

theorem decodeLossy_lineEnd (front : Bytes) (returns : Nat) (rest : Bytes) :
    Text.decodeLossy (front ++ (lineEnd returns ++ rest)) =
      Text.decodeLossy front ++ (List.replicate returns '\r' ++ '\n' :: Text.decodeLossy rest) := by
  induction returns generalizing front with
  | zero => exact Text.decodeLossy_append_ascii (by decide) front rest
  | succ returns ih =>
    have hline : lineEnd (returns + 1) = 0x0d :: lineEnd returns := rfl
    have hnone : Text.decodeLossy [] = [] := rfl
    have hrest := ih []
    rw [hnone, List.nil_append, List.nil_append] at hrest
    rw [hline, List.cons_append, Text.decodeLossy_append_ascii (by decide), hrest]
    rfl

theorem decodeLossy_intercalate (returns : Nat) (pieces : List Bytes) :
    Text.decodeLossy ((lineEnd returns).intercalate pieces) =
      (List.replicate returns '\r' ++ ['\n']).intercalate (pieces.map Text.decodeLossy) := by
  induction pieces with
  | nil => rfl
  | cons piece pieces ih =>
    cases pieces with
    | nil => simp only [List.intercalate_singleton, List.map_cons, List.map_nil]
    | cons next pieces =>
      rw [List.map_cons] at ih
      rw [List.intercalate_cons_cons, List.append_assoc, decodeLossy_lineEnd, ih, List.map_cons, List.map_cons,
        List.intercalate_cons_cons, List.append_assoc, List.append_assoc, List.singleton_append]

theorem noteText_after_feed (hheader : 0x0a ∉ header) (body : Bytes) :
    noteText (header ++ 0x0a :: body) = Text.decodeLossy (body.filter (· ≠ 0)) :=
  noteText_written hheader (List.not_mem_nil : '\x00' ∉ []) body

theorem noteText_lines (hheader : 0x0a ∉ header) (returns : Nat) (lines : List Bytes) :
    noteText (header ++ 0x0a :: (lineEnd returns).intercalate lines) =
      (List.replicate returns '\r' ++ ['\n']).intercalate (lines.map lineText) := by
  rw [noteText_after_feed hheader, filter_intercalate, filter_lineEnd, decodeLossy_intercalate, List.map_map]
  rfl

theorem feed_not_mem_lineText {line : Bytes} (h : 0x0a ∉ line) : '\n' ∉ lineText line :=
  Text.feed_not_mem_decodeLossy fun hmem => h (List.mem_filter.mp hmem).1

theorem entries_shorn (lines : List NoteLine) : entries (argsLines (lines.map NoteLine.shorn)) = entries (argsLines lines) := by
  rw [keeps_shorn.argsLines_map, keeps_shorn.entries_map, KernelArgsError.mapError_renumbered_id]

/-- A note lists what the texts of its lines tell, whatever number of carriage returns the lines end with. -/
theorem listed_lines (hheader : 0x0a ∉ header) (hlines : ∀ line ∈ lines, 0x0a ∉ line) (returns : Nat) :
    listed (header ++ 0x0a :: (lineEnd returns).intercalate lines) =
      entries (argsLines (numbered 1 (lines.map lineText))) := by
  have hfeed : ∀ text ∈ lines.map lineText, '\n' ∉ text := by
    intro text htext
    obtain ⟨line, hline, rfl⟩ := List.mem_map.mp htext
    exact feed_not_mem_lineText (hlines line hline)
  have hreturns : ∀ c ∈ List.replicate returns '\r', c = '\r' := fun c hc => (List.mem_replicate.mp hc).2
  have hshorn := shorn_lines hfeed hreturns 1
  show entries (argsLines (numbered 1 (Text.lines (noteText _)))) = _
  rw [noteText_lines hheader, ← entries_shorn, hshorn, entries_shorn]

theorem ofNote_congr {note edited : Bytes} (h : listed edited = listed note) : ofNote edited = ofNote note :=
  congrArg (· >>= layout 0 0) h

/-- What is placed of a note follows what it lists, and an error in placing names no line. -/
theorem ofNote_of_listed {note edited : Bytes} (h : listed edited = (listed note).mapError (.renumbered f)) :
    ofNote edited = (ofNote note).mapError (.renumbered f) := by
  show listed edited >>= layout 0 0 = (listed note >>= layout 0 0).mapError (.renumbered f)
  rw [h]
  cases listed note with
  | error error => rfl
  | ok told =>
    show layout 0 0 told = (layout 0 0 told).mapError (.renumbered f)
    cases hlay : layout 0 0 told with
    | ok args => rfl
    | error error =>
      obtain ⟨index, hindex, -⟩ := index_of_layout hlay
      exact congrArg Except.error (error.renumbered_of_index? hindex).symm

end Octets

/-! ### Edits -/

section Edits
variable {header : Bytes} {gaps : Nat → List Bytes} {lines : List Bytes}

theorem feed_not_mem_indented (n : Nat) (hlines : ∀ line ∈ lines, 0x0a ∉ line) : ∀ line ∈ indented n lines, 0x0a ∉ line := by
  induction lines using indented.induct with
  | case1 => exact hlines
  | case2 => exact hlines
  | case3 line rest hsome ih =>
    obtain ⟨hline, hrest⟩ := List.forall_mem_cons.mp hlines
    rw [indented.eq_3 n line rest hsome]
    refine List.forall_mem_cons.mpr ⟨fun hmem => ?_, ih hrest⟩
    rcases List.mem_append.mp hmem with hmem | hmem
    · cases (List.mem_replicate.mp hmem).2
    · exact hline hmem

theorem lineText_indented (n : Nat) (line : Bytes) :
    lineText (List.replicate n 0x20 ++ line) = Text.blanks n ++ lineText line := by
  have hnul : '\x00' ∉ Text.blanks n := fun hmem => by cases (List.mem_replicate.mp hmem).2
  rw [lineText, ← octets_blanks, List.filter_append, filter_octets hnul, Text.decodeLossy_octets_append, lineText]

theorem ofLine?_indented (n : Nat) (text : List Char) (number : Nat) :
    NoteLine.ofLine? (Text.blanks n ++ text, number) = (NoteLine.ofLine? (text, number)).map (NoteLine.deepened n) := by
  have hstart := Text.trimStart_blanks_append n text
  by_cases hsolid : Solid text
  · have hboth : Solid (Text.blanks n ++ text) := by rwa [Solid, hstart]
    have hblanks : (Text.blanks n ++ text).takeWhile Text.isBlank = Text.blanks n ++ text.takeWhile Text.isBlank :=
      List.takeWhile_append_of_pos fun _ => Text.isBlank_of_mem_blanks
    have hdepth : (Text.octets ((Text.blanks n ++ text).takeWhile Text.isBlank)).length = depthOf text + n := by
      rw [hblanks, Text.octets, List.flatMap_append, List.length_append]
      show (Text.octets (Text.blanks n)).length + depthOf text = depthOf text + n
      rw [length_octets_blanks, Nat.add_comm]
    rw [ofLine?_eq_some hboth, ofLine?_eq_some hsolid, hstart, hdepth]
    rfl
  · have hboth : ¬Solid (Text.blanks n ++ text) := by rwa [Solid, hstart]
    rw [ofLine?_eq_none hboth, ofLine?_eq_none hsolid]
    rfl

theorem numbered_indented (n : Nat) (lines : List Bytes) (first : Nat) :
    numbered first ((indented n lines).map lineText) =
      (numbered first (lines.map lineText)).map (NoteLine.deepened n) := by
  induction lines using indented.induct generalizing first with
  | case1 => rfl
  | case2 => rfl
  | case3 line rest hsome ih =>
    rw [indented.eq_3 n line rest hsome, List.map_cons, List.map_cons, numbered_cons_toList, numbered_cons_toList,
      lineText_indented, ofLine?_indented, ih, List.map_append]
    cases NoteLine.ofLine? (lineText line, first) <;> rfl

theorem not_solid_of_blankLine {line : Bytes} (h : BlankLine line) : ¬Solid (lineText line) :=
  not_not_intro (List.dropWhile_eq_nil_iff.mpr h.space)

theorem ofLine?_renumbered (f : Nat → Nat) (text : List Char) (number : Nat) :
    NoteLine.ofLine? (text, f number) = (NoteLine.ofLine? (text, number)).map (NoteLine.renumbered f) := by
  unfold NoteLine.ofLine?
  dsimp only
  split <;> rfl

theorem numbered_gap (hgaps : ∀ index, ∀ line ∈ gaps index, BlankLine line) (index first : Nat) (texts : List (List Char)) :
    numbered first ((gaps index).map lineText ++ texts) = numbered (first + (gaps index).length) texts := by
  have hblank : ∀ text ∈ (gaps index).map lineText, ¬Solid text := by
    intro text htext
    obtain ⟨line, hline, rfl⟩ := List.mem_map.mp htext
    exact not_solid_of_blankLine (hgaps index line hline)
  rw [numbered_append_of_blank hblank, List.length_map]

/-- Lines that are seen move on by the lines that are put in front of them. -/
theorem numbered_spread (hgaps : ∀ index, ∀ line ∈ gaps index, BlankLine line) (lines : List Bytes) (index : Nat) :
    numbered (index + 1 + added gaps index) ((spread gaps index lines).map lineText) =
      (numbered (index + 1) (lines.map lineText)).map (NoteLine.renumbered fun line => line + added gaps line) := by
  induction lines generalizing index with
  | nil =>
    have hgap := numbered_gap hgaps index (index + 1 + added gaps index) []
    rw [List.append_nil] at hgap
    exact hgap
  | cons line rest ih =>
    have hnumber : index + 1 + added gaps index + (gaps index).length = index + 1 + added gaps (index + 1) := by
      rw [added, Nat.add_assoc]
    have hline := ofLine?_renumbered (fun line => line + added gaps line) (lineText line) (index + 1)
    have hnext : index + 1 + added gaps (index + 1) + 1 = index + 1 + 1 + added gaps (index + 1) := Nat.add_right_comm ..
    rw [spread, List.map_append, List.map_cons, numbered_gap hgaps, hnumber, numbered_cons_toList, hline, hnext,
      ih (index + 1), List.map_cons, numbered_cons_toList, List.map_append]
    cases NoteLine.ofLine? (lineText line, index + 1) <;> rfl

theorem feed_not_mem_spread (hgaps : ∀ index, ∀ line ∈ gaps index, BlankLine line) (hlines : ∀ line ∈ lines, 0x0a ∉ line)
    (index : Nat) : ∀ line ∈ spread gaps index lines, 0x0a ∉ line := by
  induction lines generalizing index with
  | nil => exact fun line hline => (hgaps index line hline).feed
  | cons first rest ih =>
    obtain ⟨hfirst, hrest⟩ := List.forall_mem_cons.mp hlines
    intro line hline
    rcases List.mem_append.mp hline with hline | hline
    · exact (hgaps index line hline).feed
    · rcases List.mem_cons.mp hline with rfl | hline
      · exact hfirst
      · exact ih hrest (index + 1) line hline

end Edits

/-- Cosmetic edits after the first line feed of a note do not change what it tells. All lines may be moved to the
    right by the same number of blanks, all may be ended with a carriage return and a line feed, and zeros may be put
    in and taken out. Lines of white space may be put in front of any lines and at the end: then an error that names a
    line names the same line, which has as many more lines in front of it. -/
theorem ofNote_cosmetic {header : Bytes} (hheader : 0x0a ∉ header) (body : Bytes) :
    let lines := body.splitOn 0x0a
    let told := fun octets => ofNote (header ++ 0x0a :: octets)
    (∀ n, told ([0x0a].intercalate (indented n lines)) = told body) ∧
    told ([0x0d, 0x0a].intercalate lines) = told body ∧
    (∀ octets, octets.filter (· ≠ 0) = body.filter (· ≠ 0) → told octets = told body) ∧
    ∀ gaps : Nat → List Bytes, (∀ index, ∀ line ∈ gaps index, BlankLine line) →
      told ([0x0a].intercalate (spread gaps 0 lines)) =
        (told body).mapError (.renumbered fun line => line + added gaps line) := by
  intro lines told
  have hlines : ∀ line ∈ lines, 0x0a ∉ line := fun line => not_mem_of_mem_splitOn
  have hbody : listed (header ++ 0x0a :: body) = entries (argsLines (numbered 1 (lines.map lineText))) := by
    have hlisted := listed_lines hheader hlines 0
    rwa [show (lineEnd 0).intercalate lines = body from List.intercalate_splitOn 0x0a] at hlisted
  refine ⟨fun n => ?_, ?_, fun octets hzeros => ?_, fun gaps hgaps => ?_⟩
  · have hlisted := listed_lines hheader (feed_not_mem_indented n hlines) 0
    rw [numbered_indented, (keeps_deepened n).argsLines_map, (keeps_deepened n).entries_map,
      KernelArgsError.mapError_renumbered_id, ← hbody] at hlisted
    exact ofNote_congr hlisted
  · have hlisted := listed_lines hheader hlines 1
    exact ofNote_congr (hlisted.trans hbody.symm)
  · show ofText (noteText _) = ofText (noteText _)
    rw [noteText_after_feed hheader, noteText_after_feed hheader, hzeros]
  · have hlisted := listed_lines hheader (feed_not_mem_spread hgaps hlines 0) 0
    have hnumbered := numbered_spread hgaps lines 0
    have hmoves := keeps_renumbered fun line => line + added gaps line
    rw [show 0 + 1 + added gaps 0 = 1 from rfl] at hnumbered
    rw [hnumbered, hmoves.argsLines_map, hmoves.entries_map, ← hbody] at hlisted
    exact ofNote_of_listed hlisted

/-- A note whose list of arguments begins with a line that begins no argument, and octets in front of the list that
    are no text. -/
def strayBody : Bytes := [0xe2, 0x82, 0x0a] ++ Text.octets "Args:\n  Size: 4\n".toList

/-- White space before the list and inside it, with a zero and with a line separator. -/
def strayGaps : Nat → List Bytes
  | 1 => [[0x20, 0x00, 0x09]]
  | 2 => [[0xe2, 0x80, 0xa8], [0x0d]]
  | _ => []

theorem strayBody_edited :
    let header : Bytes := [0x04, 0x00, 0xff]
    let lines := strayBody.splitOn 0x0a
    let error : Except KernelArgsError (List KernelArg) := .error (.orphanField 3)
    0x0a ∉ header ∧ (∀ index, ∀ line ∈ strayGaps index, BlankLine line) ∧
    (0x00 :: strayBody).filter (· ≠ 0) = strayBody.filter (· ≠ 0) ∧
    ofNote (header ++ 0x0a :: strayBody) = error ∧
    ofNote (header ++ 0x0a :: [0x0a].intercalate (indented 3 lines)) = error ∧
    ofNote (header ++ 0x0a :: [0x0d, 0x0a].intercalate lines) = error ∧
    ofNote (header ++ 0x0a :: 0x00 :: strayBody) = error ∧
    ofNote (header ++ 0x0a :: [0x0a].intercalate (spread strayGaps 0 lines)) = .error (.orphanField 6) := by
  intro header lines error
  have hheader : 0x0a ∉ header := by decide
  have hgaps : ∀ index, ∀ line ∈ strayGaps index, BlankLine line := by
    intro index line hline
    match index with
    | 1 =>
      obtain rfl := List.mem_singleton.mp hline
      exact ⟨by decide, List.all_eq_true.mp (by decide)⟩
    | 2 =>
      rcases List.mem_cons.mp hline with rfl | hline
      · exact ⟨by decide, List.all_eq_true.mp (by decide)⟩
      · obtain rfl := List.mem_singleton.mp hline
        exact ⟨by decide, List.all_eq_true.mp (by decide)⟩
    | 0 => cases hline
    | index + 3 => cases hline
  have hzeros : (0x00 :: strayBody).filter (· ≠ 0) = strayBody.filter (· ≠ 0) := List.filter_cons_of_neg (by decide)
  have herror : ofNote (header ++ 0x0a :: strayBody) = error := rfl
  obtain ⟨hindented, hreturns, hzeroed, hspread⟩ := ofNote_cosmetic hheader strayBody
  refine ⟨hheader, hgaps, hzeros, herror, ?_, ?_, ?_, ?_⟩
  · exact (hindented 3).trans herror
  · exact hreturns.trans herror
  · exact (hzeroed _ hzeros).trans herror
  · exact (hspread strayGaps hgaps).trans (congrArg (Except.mapError _) herror)

end KernelArgs

end GpuListing
