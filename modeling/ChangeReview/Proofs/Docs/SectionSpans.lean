import ChangeReview.Docs.Folder
import ChangeReview.Proofs.Text.Paths
import Mathlib.Data.List.TakeWhile

/-!
# The lines of the sections

A heading line is one to six number signs, blanks, and at least one character more. What stands
behind the blanks may begin or end with blanks or be blank altogether: the heading is what remains
without the blanks at its ends, so it does not matter where it is cut off from those in front of it.

Cutting a document into sections loses nothing: the sections cover the lines from the first heading
to the end without gap or overlap, they begin at the heading lines and nowhere else, and the text
can be put together again from them and the lines in front of the first.
-/
namespace ChangeReview

namespace Text

theorem trim_blanks {gap : Text} (h : ∀ c ∈ gap, isBlank c = true) (t : Text) :
    trim (gap ++ t) = trim t :=
  congrArg trimRight (List.dropWhile_append_of_pos h)

theorem not_isBlank_of_mem_head? (t : Text) :
    ∀ c ∈ (t.dropWhile isBlank).head?, isBlank c = false := by
  intro c hc
  have hnot := List.head?_dropWhile_not isBlank t
  rwa [Option.mem_def.mp hc] at hnot

end Text

namespace Docs

/-- The line is a heading of the given level and text. -/
structure IsHeading (level : Nat) (heading line : Text) : Prop where
  pos : 0 < level
  le : level ≤ maxLevel
  parts : ∃ gap body : Text, line = List.replicate level '#' ++ (gap ++ body) ∧ gap ≠ [] ∧
    (∀ c ∈ gap, Text.isBlank c = true) ∧ body ≠ [] ∧ heading = Text.trim body

/-- The line is a heading of some level. -/
def IsHeadingLine (line : Text) : Prop := ∃ level heading, IsHeading level heading line

/-- A line is its number signs, the blanks behind them, and a rest that begins with no blank. -/
theorem exists_parts (line : Text) :
    ∃ (n : Nat) (gap body : Text), line = List.replicate n '#' ++ (gap ++ body) ∧
      (gap ++ body).head? ≠ some '#' ∧ (∀ c ∈ gap, Text.isBlank c = true) ∧
        ∀ c ∈ body.head?, Text.isBlank c = false := by
  have hsigns : line.takeWhile (· == '#') = List.replicate (line.takeWhile (· == '#')).length '#' :=
    List.eq_replicate_of_mem fun c hc => by simpa using List.mem_takeWhile_imp hc
  refine ⟨(line.takeWhile (· == '#')).length, (line.dropWhile (· == '#')).takeWhile Text.isBlank,
    (line.dropWhile (· == '#')).dropWhile Text.isBlank, ?_, ?_, ?_, ?_⟩
  · rw [List.takeWhile_append_dropWhile, ← hsigns, List.takeWhile_append_dropWhile]
  · rw [List.takeWhile_append_dropWhile]
    intro hhead
    have hnot := List.head?_dropWhile_not (· == '#') line
    rw [hhead] at hnot
    exact absurd hnot (by decide)
  · exact fun c hc => List.mem_takeWhile_imp hc
  · exact Text.not_isBlank_of_mem_head? _

/-- How a heading is told from the parts of a line. -/
theorem heading?_parts {n : Nat} {gap body : Text} (hsigns : (gap ++ body).head? ≠ some '#')
    (hgap : ∀ c ∈ gap, Text.isBlank c = true) (hbody : ∀ c ∈ body.head?, Text.isBlank c = false) :
    heading? (List.replicate n '#' ++ (gap ++ body)) =
      if n = 0 ∨ maxLevel < n ∨ gap = [] then none
      else if body = [] ∧ gap.length < 2 then none
      else some (n, Text.trim body) := by
  have hmarks :
      (List.replicate n '#' ++ (gap ++ body)).takeWhile (· == '#') = List.replicate n '#' := by
    rw [List.takeWhile_append_of_pos fun c hc => by simp [List.eq_of_mem_replicate hc]]
    cases hrest : gap ++ body with
    | nil => simp
    | cons c r =>
      rw [hrest] at hsigns
      simp only [List.head?_cons, ne_eq, Option.some.injEq] at hsigns
      simp [hsigns]
  have hblanks : (gap ++ body).takeWhile Text.isBlank = gap := by
    rw [List.takeWhile_append_of_pos hgap]
    cases body with
    | nil => simp
    | cons c r => simp [hbody c rfl]
  have hrest : (List.replicate n '#' ++ (gap ++ body)).drop n = gap ++ body :=
    List.drop_left' List.length_replicate
  unfold heading?
  simp only [hmarks, List.length_replicate, hrest, hblanks, List.drop_left, Bool.or_eq_true,
    Bool.and_eq_true, List.isEmpty_iff, decide_eq_true_eq, List.replicate_eq_nil_iff, or_assoc]

/-- Number signs, blanks and a rest make a heading; without a rest, the last blank stands for it. -/
theorem isHeading_of_parts {n : Nat} {gap body : Text} (hpos : 0 < n) (hle : n ≤ maxLevel)
    (hne : gap ≠ []) (hgap : ∀ c ∈ gap, Text.isBlank c = true) (hlong : body = [] → 2 ≤ gap.length) :
    IsHeading n (Text.trim body) (List.replicate n '#' ++ (gap ++ body)) := by
  refine ⟨hpos, hle, ?_⟩
  by_cases hempty : body = []
  · subst hempty
    obtain ⟨front, last, rfl⟩ : ∃ front last, gap = front ++ [last] :=
      ⟨gap.dropLast, gap.getLast hne, (List.dropLast_concat_getLast hne).symm⟩
    have hlast : ∀ c ∈ [last], Text.isBlank c = true :=
      fun c hc => hgap c (List.mem_append_right front hc)
    refine ⟨front, [last], by simp, ?_, fun c hc => hgap c (List.mem_append_left _ hc), by simp,
      (Text.trim_blanks hlast []).symm⟩
    rintro rfl
    simp at hlong
  · exact ⟨gap, body, rfl, hne, hgap, hempty, rfl⟩

/-- A heading line with all its blanks in front of the rest, which then begins with none. -/
theorem IsHeading.exists_parts {level : Nat} {heading line : Text} (h : IsHeading level heading line) :
    ∃ gap body : Text, line = List.replicate level '#' ++ (gap ++ body) ∧
      (gap ++ body).head? ≠ some '#' ∧ (∀ c ∈ gap, Text.isBlank c = true) ∧
      (∀ c ∈ body.head?, Text.isBlank c = false) ∧ gap ≠ [] ∧ (body = [] → 2 ≤ gap.length) ∧
      heading = Text.trim body := by
  obtain ⟨-, -, gap, body, rfl, hne, hgap, hbody, rfl⟩ := h
  have hblanks : ∀ c ∈ body.takeWhile Text.isBlank, Text.isBlank c = true :=
    fun c hc => List.mem_takeWhile_imp hc
  have hwhole :
      (gap ++ body.takeWhile Text.isBlank) ++ body.dropWhile Text.isBlank = gap ++ body := by
    rw [List.append_assoc, List.takeWhile_append_dropWhile]
  refine ⟨gap ++ body.takeWhile Text.isBlank, body.dropWhile Text.isBlank, by rw [hwhole], ?_,
    List.forall_mem_append.mpr ⟨hgap, hblanks⟩, Text.not_isBlank_of_mem_head? body,
    fun hnil => hne (List.append_eq_nil_iff.mp hnil).1, fun hempty => ?_, ?_⟩
  · rw [hwhole]
    cases gap with
    | nil => exact absurd rfl hne
    | cons c r =>
      intro hhead
      obtain rfl : c = '#' := Option.some.inj hhead
      exact absurd (hgap '#' List.mem_cons_self) (by decide)
  · rw [hempty, List.append_nil] at hwhole
    rw [hwhole, List.length_append]
    have hfirst := List.length_pos_iff.mpr hne
    have hsecond := List.length_pos_iff.mpr hbody
    omega
  · rw [← Text.trim_blanks hblanks (body.dropWhile Text.isBlank), List.takeWhile_append_dropWhile]

/-- A line is told to be a heading exactly when it is one. -/
theorem heading?_eq_some_iff {line heading : Text} {level : Nat} :
    heading? line = some (level, heading) ↔ IsHeading level heading line := by
  constructor
  · intro h
    obtain ⟨n, gap, body, rfl, hsigns, hgap, hbody⟩ := exists_parts line
    rw [heading?_parts hsigns hgap hbody] at h
    split at h
    · exact absurd h (by simp)
    · next hlevel =>
      simp only [not_or, Nat.not_lt] at hlevel
      obtain ⟨hpos, hle, hne⟩ := hlevel
      split at h
      · exact absurd h (by simp)
      · next hlong =>
        obtain ⟨rfl, rfl⟩ := Prod.mk.inj (Option.some.inj h)
        exact isHeading_of_parts (Nat.pos_of_ne_zero hpos) hle hne hgap
          fun hempty => Nat.not_lt.mp fun hshort => hlong ⟨hempty, hshort⟩
  · intro h
    obtain ⟨gap, body, rfl, hsigns, hgap, hbody, hne, hlong, rfl⟩ := h.exists_parts
    rw [heading?_parts hsigns hgap hbody, if_neg, if_neg]
    · rintro ⟨hempty, hshort⟩
      exact Nat.not_lt.mpr (hlong hempty) hshort
    · simp only [not_or, Nat.not_lt]
      exact ⟨h.pos.ne', h.le, hne⟩

theorem heading?_eq_none_iff {line : Text} : heading? line = none ↔ ¬ IsHeadingLine line := by
  rw [Option.eq_none_iff_forall_ne_some]
  constructor
  · rintro h ⟨level, heading, hline⟩
    exact h (level, heading) (heading?_eq_some_iff.mpr hline)
  · rintro h ⟨level, heading⟩ hline
    exact h ⟨level, heading, heading?_eq_some_iff.mp hline⟩

end Docs

/-! ## Lines -/

namespace Text

@[simp] theorem unlines_cons (l : Text) (ls : List Text) :
    unlines (l :: ls) = l ++ '\n' :: unlines ls := by
  simp [unlines]

theorem unlines_append (ls ms : List Text) : unlines (ls ++ ms) = unlines ls ++ unlines ms :=
  List.flatMap_append

/-- The lines of a text, each with its line feed, are the text with a line feed at its end. -/
theorem unlines_splitOn (t : Text) : unlines (splitOn '\n' t) = t ++ ['\n'] := by
  unfold splitOn
  induction t with
  | nil => rfl
  | cons c t ih =>
    obtain ⟨w, ws, hsplit⟩ := List.exists_cons_of_ne_nil (splitBy_ne_nil (· == '\n') t)
    rw [hsplit, unlines_cons] at ih
    by_cases hc : c = '\n'
    · subst hc
      simp [splitBy, hsplit, ih]
    · have hkeep : (c == '\n') = false := by simpa using hc
      simp [splitBy, hsplit, hkeep, ih]

end Text

namespace Docs

variable {front rest lines : List Text} {sections : List Section}

/-- Behind the lines `front` stand those of the sections, one section after another: the line of
its heading and then lines that are no headings. -/
inductive Covers : (front rest : List Text) → List Section → Prop
  | nil (front : List Text) : Covers front [] []
  | cons {front rest body : List Text} {line heading : Text} {level : Nat}
      {sections : List Section} (head : IsHeading level heading line)
      (plain : ∀ l ∈ body, ¬ IsHeadingLine l)
      (tail : Covers (front ++ line :: body) rest sections) :
      Covers front (line :: body ++ rest)
        (⟨heading, level, Text.unlines body, front.length, front.length + body.length⟩ :: sections)

/-- The sections take up the lines from `start` up to `stop`, each at least one and none twice. -/
def Tiles : (start : Nat) → List Section → (stop : Nat) → Prop
  | start, [], stop => start = stop
  | start, s :: rest, stop =>
    s.lineStart = start ∧ s.lineStart ≤ s.lineEnd ∧ Tiles (s.lineEnd + 1) rest stop

/-- The line the section starts on. -/
def Section.firstLine (lines : List Text) (s : Section) : Text := lines.getD s.lineStart []

/-- The section as it stands in the text. -/
def Section.source (lines : List Text) (s : Section) : Text :=
  s.firstLine lines ++ '\n' :: s.content

/-- The number of lines in front of the first section. -/
def firstSection (lines : List Text) : List Section → Nat
  | [] => lines.length
  | s :: _ => s.lineStart

/-! ## What is cut -/

/-- Lines fall into those in front of the first heading and those of the sections. -/
theorem groups_covers (lines : List Text) :
    ∃ rest, lines = (groups lines).1 ++ rest ∧ (∀ l ∈ (groups lines).1, ¬ IsHeadingLine l) ∧
      ∀ front : List Text, Covers front rest (placeSections front.length (groups lines).2) := by
  induction lines with
  | nil => exact ⟨[], rfl, by simp [groups], .nil⟩
  | cons l lines ih =>
    obtain ⟨rest, hlines, hplain, hcovers⟩ := ih
    cases hl : heading? l with
    | none =>
      have hgroups : groups (l :: lines) = (l :: (groups lines).1, (groups lines).2) := by
        simp only [groups, hl]
      rw [hgroups]
      refine ⟨rest, congrArg (l :: ·) hlines, ?_, hcovers⟩
      rintro k (_ | ⟨_, hk⟩)
      · exact heading?_eq_none_iff.mp hl
      · exact hplain k hk
    | some h =>
      obtain ⟨level, heading⟩ := h
      have hgroups : groups (l :: lines) =
          ([], ((level, heading), (groups lines).1) :: (groups lines).2) := by
        simp only [groups, hl]
      rw [hgroups]
      refine ⟨l :: lines, rfl, by simp, fun front => ?_⟩
      have hcut : l :: lines = l :: (groups lines).1 ++ rest := congrArg (l :: ·) hlines
      rw [hcut]
      refine .cons (heading?_eq_some_iff.mp hl) hplain ?_
      have hnext := hcovers (front ++ l :: (groups lines).1)
      rwa [List.length_append, List.length_cons, ← Nat.add_assoc] at hnext

namespace Covers

theorem tiles (h : Covers front rest sections) :
    Tiles front.length sections (front ++ rest).length := by
  induction h with
  | nil front => simp [Tiles]
  | cons head plain tail ih =>
    refine ⟨rfl, Nat.le_add_right _ _, ?_⟩
    simpa [Nat.add_assoc] using ih

theorem firstSection_eq (h : Covers front rest sections) :
    firstSection (front ++ rest) sections = front.length := by
  cases h with
  | nil => simp [firstSection]
  | cons head plain tail => rfl

theorem le_lineStart (h : Covers front rest sections) {s : Section} (hs : s ∈ sections) :
    front.length ≤ s.lineStart := by
  induction h with
  | nil => simp at hs
  | cons head plain tail ih =>
    rcases List.mem_cons.mp hs with rfl | hs
    · exact le_rfl
    · have hlater := ih hs
      rw [List.length_append] at hlater
      exact le_trans (Nat.le_add_right _ _) hlater

/-- Every section starts at its heading. -/
theorem isHeading (h : Covers front rest sections) {s : Section} (hs : s ∈ sections) :
    IsHeading s.level s.heading (s.firstLine (front ++ rest)) := by
  induction h with
  | nil => simp at hs
  | cons head plain tail ih =>
    rcases List.mem_cons.mp hs with rfl | hs
    · simpa [Section.firstLine] using head
    · simpa using ih hs

/-- Sections start at every heading line and at no other. -/
theorem isHeadingLine_iff (h : Covers front rest sections) {i : Nat} {line : Text}
    (hline : rest[i]? = some line) :
    IsHeadingLine line ↔ ∃ s ∈ sections, s.lineStart = front.length + i := by
  induction h generalizing i with
  | nil => simp at hline
  | @cons front rest body first heading level sections head plain tail ih =>
    have hlater : ∀ s ∈ sections, front.length + (body.length + 1) ≤ s.lineStart := fun s hs => by
      simpa using tail.le_lineStart hs
    rcases Nat.lt_or_ge i (body.length + 1) with hi | hi
    · rw [List.getElem?_append_left hi] at hline
      cases i with
      | zero =>
        obtain rfl := Option.some.inj hline
        exact ⟨fun _ => ⟨_, List.mem_cons_self, rfl⟩, fun _ => ⟨level, heading, head⟩⟩
      | succ j =>
        have hbody : line ∈ body := List.mem_of_getElem? hline
        refine ⟨fun hhead => absurd hhead (plain line hbody), ?_⟩
        rintro ⟨s, hs, hstart⟩
        rcases List.mem_cons.mp hs with rfl | hs
        · exact absurd hstart (by simp)
        · have hfar := hlater s hs
          omega
    · rw [List.getElem?_append_right hi] at hline
      have hplace : (front ++ first :: body).length + (i - (first :: body).length) =
          front.length + i := by
        rw [List.length_append, List.length_cons] at *
        omega
      rw [ih hline, hplace]
      constructor
      · rintro ⟨s, hs, hstart⟩
        exact ⟨s, List.mem_cons_of_mem _ hs, hstart⟩
      · rintro ⟨s, hs, hstart⟩
        rcases List.mem_cons.mp hs with rfl | hs
        · replace hstart : front.length = front.length + i := hstart
          omega
        · exact ⟨s, hs, hstart⟩

/-- The sections hold their lines. -/
theorem sources (h : Covers front rest sections) :
    sections.flatMap (Section.source (front ++ rest)) = Text.unlines rest := by
  induction h with
  | nil => rfl
  | @cons front rest body line heading level sections head plain tail ih =>
    have hbehind : front ++ (line :: body ++ rest) = front ++ line :: body ++ rest :=
      (List.append_assoc _ _ _).symm
    rw [List.flatMap_cons, hbehind, ih, ← hbehind, List.cons_append, Text.unlines_cons,
      Text.unlines_append]
    simp [Section.source, Section.firstLine]

/-- Where no heading stands in front, the sections start at the heading lines of the whole. -/
theorem isHeadingLine_iff_of_plain (h : Covers front rest sections)
    (hplain : ∀ l ∈ front, ¬ IsHeadingLine l) {i : Nat} {line : Text}
    (hline : (front ++ rest)[i]? = some line) :
    IsHeadingLine line ↔ ∃ s ∈ sections, s.lineStart = i := by
  rcases Nat.lt_or_ge i front.length with hi | hi
  · rw [List.getElem?_append_left hi] at hline
    refine ⟨fun hhead => absurd hhead (hplain line (List.mem_of_getElem? hline)), ?_⟩
    rintro ⟨s, hs, rfl⟩
    exact absurd (h.le_lineStart hs) (Nat.not_le.mpr hi)
  · rw [List.getElem?_append_right hi] at hline
    rw [h.isHeadingLine_iff hline, Nat.add_sub_cancel' hi]

/-- The lines in front and the sections make up the whole. -/
theorem unlines_eq (h : Covers front rest sections) :
    Text.unlines ((front ++ rest).take (firstSection (front ++ rest) sections)) ++
        sections.flatMap (Section.source (front ++ rest)) =
      Text.unlines (front ++ rest) := by
  rw [h.firstSection_eq, List.take_left, h.sources, Text.unlines_append]

end Covers

/-! ## Documents -/

/-- The title is the first heading where that has level 1. -/
theorem title_parse (text filename : Text) :
    (Document.parse text filename).title =
      match (Document.parse text filename).sections with
      | s :: _ => if s.level = 1 then s.heading else humanize filename
      | [] => humanize filename := by
  simp only [Document.parse]
  rcases (groups (Text.splitOn '\n' text)).2 with _ | ⟨⟨⟨level, heading⟩, body⟩, gs⟩
  · rfl
  · by_cases hlevel : level = 1
    · subst hlevel
      rfl
    · simp only [placeSections, if_neg hlevel]
      split
      · next heq =>
        simp only [List.cons.injEq, Prod.mk.injEq] at heq
        exact absurd heq.1.1.1 hlevel
      · rfl

/-- Cutting a text into sections loses nothing of it: from the first section on they take up every
line once, they start at the heading lines and nowhere else, and the lines in front of them and
the sections in turn make up the text again. The title is the first heading where that has level
1. -/
theorem parse_lossless (text filename : Text) :
    let lines := Text.splitOn '\n' text
    let sections := (Document.parse text filename).sections
    let first := firstSection lines sections
    Tiles first sections lines.length ∧
      (∀ i line, lines[i]? = some line →
        (IsHeadingLine line ↔ ∃ s ∈ sections, s.lineStart = i)) ∧
      (∀ s ∈ sections, IsHeading s.level s.heading (s.firstLine lines)) ∧
      Text.unlines (lines.take first) ++ sections.flatMap (Section.source lines) =
        text ++ ['\n'] ∧
      (Document.parse text filename).title =
        match sections with
        | s :: _ => if s.level = 1 then s.heading else humanize filename
        | [] => humanize filename := by
  intro lines sections first
  obtain ⟨rest, hlines, hplain, hcovers⟩ := groups_covers lines
  have hcovers : Covers (groups lines).1 rest sections := hcovers _
  have hfirst : first = (groups lines).1.length := by
    rw [← hcovers.firstSection_eq, ← hlines]
  refine ⟨?_, ?_, ?_, ?_, title_parse text filename⟩
  · have htiles := hcovers.tiles
    rwa [← hlines, ← hfirst] at htiles
  · intro i line hline
    rw [hlines] at hline
    exact hcovers.isHeadingLine_iff_of_plain hplain hline
  · intro s hs
    rw [hlines]
    exact hcovers.isHeading hs
  · have hwhole := hcovers.unlines_eq
    rw [← hlines] at hwhole
    exact hwhole.trans (Text.unlines_splitOn text)

end Docs

end ChangeReview
