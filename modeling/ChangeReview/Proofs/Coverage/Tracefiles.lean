import ChangeReview.Coverage.Formats
import ChangeReview.Proofs.Decimal.QuotientRange
import ChangeReview.Proofs.Usage.LogRoundTrip
import Mathlib.Algebra.Order.BigOperators.Group.List

/-!
# Tracefiles read back

A tracefile holds a section for each file, closed by a line of its own, with remarks around and
inside the sections. Reading a section adds one record and leaves no count behind, whatever was read
before it. So the report of a tracefile lists its first files with their rates, and its overall rate
is that of all counts added up.
-/
namespace ChangeReview

namespace Text

/-- No digit breaks a line. -/
theorem isLineBreak_digit {c : Char} (h : isAsciiDigit c = true) : isLineBreak c = false := by
  have hne : ∀ d, isAsciiDigit d = false → c ≠ d := by
    rintro d hd rfl
    exact absurd (h.symm.trans hd) (by decide)
  simp only [isLineBreak, Bool.or_eq_false_iff, beq_eq_false_iff_ne]
  refine ⟨⟨⟨⟨⟨⟨⟨⟨⟨?_, ?_⟩, ?_⟩, ?_⟩, ?_⟩, ?_⟩, ?_⟩, ?_⟩, ?_⟩, ?_⟩ <;> exact hne _ (by decide)

theorem oneLine_ofNat (n : Nat) : (ofNat n).OneLine := fun c hc =>
  isLineBreak_digit (Value.isAsciiDigit_toDigits c hc)

/-- A whole number has no blank at its end. -/
theorem trimRight_ofNat (n : Nat) : trimRight (ofNat n) = ofNat n := by
  obtain ⟨t, c, hdigits, hc⟩ := exists_ofInt_concat n
  rw [show ofNat n = t ++ [c] from hdigits, trimRight_append (isBlank_digit hc)]
  rfl

/-- Behind a label that ends with a colon, only the end of a line can be trimmed. -/
theorem trim_labelled {c d : Char} (hc : isBlank c = false) {t : Text}
    (ht : trimRight t = t) : trim (c :: d :: ':' :: t) = c :: d :: ':' :: t := by
  have hrest := trimRight_append (c := ':') (by decide) [d] t
  rw [ht] at hrest
  rw [trim_cons hc]
  exact congrArg (c :: ·) hrest

end Text

namespace Coverage

/-! ## Sections -/

/-- A line that is no part of a record, whatever blanks stand around it. -/
structure Remark where
  line : Text
  oneLine : line.OneLine
  noName : Text.startsWith (Text.trim line) "SF:" = false
  noHit : Text.startsWith (Text.trim line) "LH:" = false
  noFound : Text.startsWith (Text.trim line) "LF:" = false
  noEnd : Text.trim line ≠ "end_of_record"

/-- A name that a line can hold. -/
structure FileName where
  text : Text
  nonempty : text ≠ []
  oneLine : text.OneLine
  trimmed : Text.trimRight text = text

def endLine : Text := "end_of_record"

/-- The section of a file: its counts, in one order or the other, and the remarks in front of each of
its lines. -/
structure Section where
  name : FileName
  hit : Nat
  found : Nat
  hit_le : hit ≤ found
  found_lt : found < 10 ^ 15
  hitFirst : Bool
  beforeName : List Remark
  beforeCounts : List Remark
  between : List Remark
  beforeEnd : List Remark

namespace Section

def nameLine (s : Section) : Text := "SF:" ++ s.name.text

def hitLine (s : Section) : Text := "LH:" ++ Text.ofNat s.hit

def foundLine (s : Section) : Text := "LF:" ++ Text.ofNat s.found

def firstCount (s : Section) : Text := if s.hitFirst then s.hitLine else s.foundLine

def secondCount (s : Section) : Text := if s.hitFirst then s.foundLine else s.hitLine

def lines (s : Section) : List Text :=
  s.beforeName.map Remark.line ++ [s.nameLine] ++
    (s.beforeCounts.map Remark.line ++ [s.firstCount]) ++
    (s.between.map Remark.line ++ [s.secondCount]) ++
    (s.beforeEnd.map Remark.line ++ [endLine])

/-- The record that a section stands for. -/
def record (s : Section) : Trace := ⟨s.name.text, s.hit, s.found⟩

end Section

/-- The percentage of lines hit, to two places; zero if there are no lines. -/
def rate (hit found : Nat) : Float :=
  if found = 0 then 0.0 else Decimal.roundTo 2 (Binary64.ofRatio false hit found * 100.0)

/-- Some sections, and the remarks behind the last one. -/
structure Tracefile where
  sections : List Section
  nonempty : sections ≠ []
  remarks : List Remark

namespace Tracefile

def lines (f : Tracefile) : List Text :=
  f.sections.flatMap Section.lines ++ f.remarks.map Remark.line

def text (f : Tracefile) : Text := Text.unlines f.lines

/-- The rate of all sections together. -/
def overall (f : Tracefile) : Float :=
  rate (f.sections.map Section.hit).sum (f.sections.map Section.found).sum

/-- The report of a tracefile, with the rates of its first files. -/
def report (f : Tracefile) : CoverageReport where
  available := .bool true
  tool := .text "lcov"
  overall := .float f.overall
  lines := .float f.overall
  files := (f.sections.take 20).map fun s =>
    { file := .text s.name.text, lines := .float (rate s.hit s.found) }

end Tracefile

/-! ## What each line says -/

/-- A count that is written is read back. -/
theorem count_ofNat {n : Nat} (h : n < 10 ^ 15) : count (Text.ofNat n) = n := by
  have hshort : Decimal.HasNumeral n :=
    lt_of_lt_of_le h (Nat.pow_le_pow_right (by decide) (by decide))
  unfold count
  rw [show Text.ofNat n = Text.ofInt n from rfl, Decimal.readInt?_ofInt hshort]
  rfl

namespace TraceState

variable {s : TraceState}

theorem step_name (name : FileName) :
    s.step ("SF:" ++ name.text) = { s with current := ⟨name.text, 0, 0⟩ } := by
  have htrim : Text.trim ("SF:" ++ name.text) = "SF:" ++ name.text :=
    Text.trim_labelled (c := 'S') (d := 'F') (by decide) name.trimmed
  unfold step
  rw [htrim]
  rfl

theorem step_hit {n : Nat} (h : n < 10 ^ 15) :
    s.step ("LH:" ++ Text.ofNat n) = { s with current := { s.current with hit := n } } := by
  have htrim : Text.trim ("LH:" ++ Text.ofNat n) = "LH:" ++ Text.ofNat n :=
    Text.trim_labelled (c := 'L') (d := 'H') (by decide) (Text.trimRight_ofNat n)
  rw [← count_ofNat h]
  unfold step
  rw [htrim]
  rfl

theorem step_found {n : Nat} (h : n < 10 ^ 15) :
    s.step ("LF:" ++ Text.ofNat n) = { s with current := { s.current with found := n } } := by
  have htrim : Text.trim ("LF:" ++ Text.ofNat n) = "LF:" ++ Text.ofNat n :=
    Text.trim_labelled (c := 'L') (d := 'F') (by decide) (Text.trimRight_ofNat n)
  rw [← count_ofNat h]
  unfold step
  rw [htrim]
  rfl

theorem step_end (h : s.current.file ≠ []) :
    s.step endLine = ⟨{ s.current with file := [] }, s.current :: s.done⟩ := by
  have hfile : s.current.file.isEmpty = false := by simpa using h
  have hstep : s.step endLine = if (!s.current.file.isEmpty) = true then
      ⟨{ s.current with file := [] }, s.current :: s.done⟩ else s := rfl
  rw [hstep, hfile]
  rfl

theorem step_remark (r : Remark) : s.step r.line = s := by
  have hend : (Text.trim r.line == "end_of_record") = false := beq_eq_false_iff_ne.mpr r.noEnd
  unfold step
  dsimp only
  rw [Text.dropPrefix?_eq_none r.noName, Text.dropPrefix?_eq_none r.noHit,
    Text.dropPrefix?_eq_none r.noFound, hend]
  rfl

theorem foldl_remarks (remarks : List Remark) : (remarks.map Remark.line).foldl step s = s := by
  induction remarks with
  | nil => rfl
  | cons r remarks ih => rw [List.map_cons, List.foldl_cons, step_remark, ih]

/-! ## What each section says -/

/-- A section adds its record, whatever has been read so far. -/
theorem foldl_section (e : Section) :
    e.lines.foldl step s = ⟨{ e.record with file := [] }, e.record :: s.done⟩ := by
  have hname : ∀ s : TraceState, s.step e.nameLine = { s with current := ⟨e.name.text, 0, 0⟩ } :=
    fun _ => step_name e.name
  have hhit : ∀ s : TraceState,
      s.step e.hitLine = { s with current := { s.current with hit := e.hit } } :=
    fun _ => step_hit (e.hit_le.trans_lt e.found_lt)
  have hfound : ∀ s : TraceState,
      s.step e.foundLine = { s with current := { s.current with found := e.found } } :=
    fun _ => step_found e.found_lt
  have hcounts : ∀ done : List Trace, step (step ⟨⟨e.name.text, 0, 0⟩, done⟩ e.firstCount)
      e.secondCount = ⟨e.record, done⟩ := by
    intro done
    unfold Section.firstCount Section.secondCount
    cases e.hitFirst
    · simp only [Bool.false_eq_true, if_false, hhit, hfound]
      rfl
    · simp only [if_true, hhit, hfound]
      rfl
  unfold Section.lines
  simp only [List.foldl_append, foldl_remarks, List.foldl_cons, List.foldl_nil, hname, hcounts]
  rw [step_end (s := ⟨e.record, s.done⟩) e.name.nonempty]

theorem foldl_sections (sections : List Section) :
    ((sections.flatMap Section.lines).foldl step s).done =
      (sections.map Section.record).reverse ++ s.done := by
  induction sections generalizing s with
  | nil => rfl
  | cons e sections ih =>
    rw [List.flatMap_cons, List.foldl_append, foldl_section, ih, List.map_cons, List.reverse_cons,
      List.append_assoc]
    rfl

end TraceState

/-! ## What the file says -/

/-- Where no more lines are hit than found, there is a rate. -/
theorem hitPercentage_natCast {hit found : Nat} (h : hit ≤ found) :
    hitPercentage hit found = .ok (rate hit found) := by
  unfold hitPercentage rate
  rcases Nat.eq_zero_or_pos found with rfl | hpos
  · rfl
  · have hlimit : 2 ≤ Binary64.wholeLimit :=
      le_trans (Nat.le_self_pow (by decide) 2) Binary64.wholeLimit_bounds.1
    have hfew : hit < Binary64.wholeLimit * found := by
      have htwice := Nat.mul_le_mul_right found hlimit
      omega
    rw [if_neg (by simpa using hpos.ne'), if_neg hpos.ne', Binary64.divInts?_natCast hpos hfew]

theorem totalOf_records (count : Trace → Int) (size : Section → Nat) (sections : List Section)
    (h : ∀ e ∈ sections, count e.record = size e) :
    totalOf count (sections.map Section.record) = ((sections.map size).sum : Nat) := by
  induction sections with
  | nil => rfl
  | cons e sections ih =>
    obtain ⟨he, hrest⟩ := List.forall_mem_cons.mp h
    have hcons : totalOf count (List.map Section.record (e :: sections)) =
        count e.record + totalOf count (sections.map Section.record) := rfl
    rw [hcons, he, ih hrest, List.map_cons, List.sum_cons, Nat.cast_add]

namespace Tracefile

variable (f : Tracefile)

theorem oneLine_lines {l : Text} (h : l ∈ f.lines) : l.OneLine := by
  have hremark : ∀ {remarks : List Remark}, l ∈ remarks.map Remark.line → l.OneLine := by
    rintro remarks hmem
    obtain ⟨r, -, rfl⟩ := List.mem_map.mp hmem
    exact r.oneLine
  rcases List.mem_append.mp h with h | h
  · obtain ⟨e, -, h⟩ := List.mem_flatMap.mp h
    have hhit : e.hitLine.OneLine :=
      Text.oneLine_append.mpr ⟨by decide, Text.oneLine_ofNat e.hit⟩
    have hfound : e.foundLine.OneLine :=
      Text.oneLine_append.mpr ⟨by decide, Text.oneLine_ofNat e.found⟩
    simp only [Section.lines, List.mem_append, List.mem_singleton] at h
    rcases h with ((((h | rfl) | h | rfl) | h | rfl) | h | rfl)
    · exact hremark h
    · exact Text.oneLine_append.mpr ⟨by decide, e.name.oneLine⟩
    · exact hremark h
    · unfold Section.firstCount
      split <;> assumption
    · exact hremark h
    · unfold Section.secondCount
      split <;> assumption
    · exact hremark h
    · decide
  · exact hremark h

/-- The text of a tracefile falls into its lines. -/
theorem lines_text : Text.lines f.text = f.lines := by
  have hlines := Text.lines_unlines_append (fun l hl => f.oneLine_lines hl) []
  rwa [List.append_nil, show Text.lines [] = [] from rfl, List.append_nil] at hlines

variable {f} {t : Text}

/-- Each section is one record, in order. -/
theorem traces_eq (h : Text.lines t = f.lines) : traces t = f.sections.map Section.record := by
  unfold traces
  rw [h, Tracefile.lines, List.foldl_append, TraceState.foldl_remarks, TraceState.foldl_sections,
    List.append_nil, List.reverse_reverse]

theorem hitPercentage_totals :
    hitPercentage (totalOf (·.hit) (f.sections.map Section.record))
      (totalOf (·.found) (f.sections.map Section.record)) = .ok f.overall := by
  rw [totalOf_records (·.hit) Section.hit _ fun _ _ => rfl,
    totalOf_records (·.found) Section.found _ fun _ _ => rfl]
  exact hitPercentage_natCast (List.sum_le_sum fun e _ => e.hit_le)

theorem mapM_toCoverage :
    ((f.sections.map Section.record).take maxFiles).mapM Trace.toCoverage = .ok f.report.files := by
  rw [← List.map_take, List.mapM_map]
  refine mapM_eq_ok fun e _ => ?_
  show (hitPercentage e.hit e.found).map _ = _
  rw [hitPercentage_natCast e.hit_le]
  rfl

end Tracefile

/-- The report of a tracefile lists its first twenty files in order, each with its own rate, and gives
the rate of all counts added up as the overall one. So does that of every text of the same lines. -/
theorem ofTracefile_text (f : Tracefile) :
    ofTracefile f.text = .ok (some f.report) ∧
      ∀ t, Text.lines t = f.lines → ofTracefile t = .ok (some f.report) := by
  have hread : ∀ t, Text.lines t = f.lines → ofTracefile t = .ok (some f.report) := by
    intro t ht
    have hsome : (f.sections.map Section.record).isEmpty = false := by
      simpa using f.nonempty
    unfold ofTracefile
    dsimp only
    rw [Tracefile.traces_eq ht, hsome, Tracefile.hitPercentage_totals,
      Tracefile.mapM_toCoverage]
    rfl
  exact ⟨hread f.text f.lines_text, hread⟩

/-- A file with counts in either order, one that has no lines, and remarks. -/
def mixedTracefile : Tracefile where
  sections := [
    { name := ⟨" src/app.py", by decide, by decide, by decide⟩
      hit := 1, found := 3, hit_le := by decide, found_lt := by decide, hitFirst := false
      beforeName := [⟨"TN:", by decide, by decide, by decide, by decide, by decide⟩]
      beforeCounts := [⟨"DA:1,1", by decide, by decide, by decide, by decide, by decide⟩]
      between := [], beforeEnd := [] },
    { name := ⟨"empty.py", by decide, by decide, by decide⟩
      hit := 0, found := 0, hit_le := by decide, found_lt := by decide, hitFirst := true
      beforeName := [], beforeCounts := []
      between := [⟨"SF", by decide, by decide, by decide, by decide, by decide⟩]
      beforeEnd := [⟨[], by decide, by decide, by decide, by decide, by decide⟩] }]
  nonempty := by simp
  remarks := []

/-- Its text, with the line ends of another system. -/
def mixedText : Text :=
  "TN:\r\nSF: src/app.py\r\nDA:1,1\r\nLF:3\r\nLH:1\r\nend_of_record\r\n" ++
    "SF:empty.py\r\nLH:0\r\nSF\r\nLF:0\r\n\r\nend_of_record"

theorem ofTracefile_mixedText :
    Text.lines mixedText = mixedTracefile.lines ∧
      ofTracefile mixedText = .ok (some mixedTracefile.report) ∧
      mixedTracefile.report.files =
        [{ file := .text " src/app.py", lines := .float (rate 1 3) },
          { file := .text "empty.py", lines := .float (rate 0 0) }] ∧
      mixedTracefile.overall = rate 1 3 := by
  have hlines : Text.lines mixedText = mixedTracefile.lines := by decide
  exact ⟨hlines, (ofTracefile_text mixedTracefile).2 mixedText hlines, rfl, rfl⟩

end Coverage

end ChangeReview
