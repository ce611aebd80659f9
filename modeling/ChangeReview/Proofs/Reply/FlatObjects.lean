import ChangeReview.Proofs.Reply.CutLists
import ChangeReview.Proofs.Reply.Prose
import ChangeReview.Proofs.Value.ReadFaults
import Mathlib.Data.List.Basic

/-!
# Flat objects that are salvaged

A list of objects that hold scalars and lists of scalars is salvaged up to where it was cut off,
whatever its texts hold: what starts at a brace inside a text is never taken for one of the objects.
It can be refused as a document, though, for a number with too many digits or for brackets that nest
too deep, and then nothing is salvaged at all.
-/
namespace ChangeReview.Reply

/-! ## Entries with scalars and lists of scalars -/

/-- A scalar or a list of scalars. -/
def IsFlat (v : Value) : Prop :=
  Value.IsScalar v ∨ ∃ items, v = .list items ∧ ∀ i ∈ items, Value.IsScalar i

/-- The members of a flat object with a file and a comment that is read back from its document. -/
structure IsFlatEntry (ms : List (Text × Value)) : Prop where
  flat : ∀ m ∈ ms, IsFlat m.2
  keys : hasKeys fixKeys ms = true
  readsBack : Value.parse (writeObject ms) = .ok (.object ms)

/-- The brackets of a list of scalars are no braces. -/
theorem regularPiece_flat (level : Nat) {v : Value} (h : IsFlat v) :
    RegularPiece '\x7b' (Value.writeAt .oneLine level v) := by
  rcases h with hscalar | ⟨items, rfl, hitems⟩
  · exact regularPiece_scalar .object .oneLine level hscalar
  · have hpieces : ∀ w ∈ items.map Value.writeLine, RegularPiece '\x7b' w := by
      intro w hw
      obtain ⟨i, hi, rfl⟩ := List.mem_map.mp hw
      exact regularPiece_scalar .object .oneLine 0 (hitems i hi)
    intro rest _ hrest
    have hclose : Regular '\x7b' .outside (']' :: rest) :=
      (Regular.outside_cons (by decide) (by decide) (by decide) rest).mpr hrest
    have hbody := RegularPiece.join .object hpieces _ (delimited_cons.mpr (by decide)) hclose
    rw [Value.writeAt_oneLine, Value.writeLine_list, List.append_assoc, List.cons_append,
      Regular.outside_cons (by decide) (by decide) (by decide)]
    exact hbody

theorem IsFlatEntry.opensOnce {ms : List (Text × Value)} (h : IsFlatEntry ms) :
    OpensOnce (writeObject ms) := by
  obtain ⟨body, hbody, hpasses⟩ := (isDocument_write (.object ms) h.readsBack).exists_passes
  have hmembers := regularPiece_members .object .oneLine 0
    fun m hm => regularPiece_flat 0 (h.flat m hm)
  have hregular := RegularPiece.join .object hmembers [] delimited_nil trivial
  have hwritten : Value.writeLine (.object ms) = '\x7b' :: body ++ ['\x7d'] := hbody
  rw [Value.writeLine_object, ← Value.writeMembers_oneLine 0, List.cons_append,
    List.cons_append] at hwritten
  have hjoin := List.append_cancel_right (List.cons.inj hwritten).2
  rw [List.append_nil, hjoin] at hregular
  exact ⟨'\x7b' :: body, hbody,
    (OpensInside.of_regular hregular).cons_unclosed (spanLength_unclosed .object hpasses)⟩

/-- A text without long numbers and deep brackets is refused nowhere. -/
theorem not_refused_of_isModest {t : Text} (h : Value.IsModest t) : ¬ Refused t := by
  rintro ⟨front, rest, span, fault, rfl, hspan, hparse, hfault⟩
  obtain ⟨before, r, heq, n, -, rfl⟩ := firstSpan_eq_some hspan
  have hpart : ('\x7b' :: r).take n <:+: front ++ '\x7b' :: rest := by
    rw [heq, ← List.append_assoc]
    exact (List.take_prefix n _).isInfix.trans (List.suffix_append _ _).isInfix
  exact hfault ((h.mono hpart).parse_error hparse)

/-! ## Where the list is cut off -/

/-- What stands behind the last whole object of a list that was cut off. -/
def behindWhole (objects : List (List (Text × Value))) (p : Text) : Text :=
  p.drop (listUpTo writeObject (wholeItems writeObject p.length objects)).length

/-- The whole objects are salvaged, or what is left behind them is refused. -/
theorem salvage_cut {objects : List (List (Text × Value))} (h : ∀ ms ∈ objects, IsFlatEntry ms)
    {p : Text} (hp : p <+: Value.writeLine (.list (objects.map .object))) :
    (¬ Refused (behindWhole objects p) ∧
        salvage p fixKeys = .ok ((wholeItems writeObject p.length objects).map .object)) ∨
      (Refused (behindWhole objects p) ∧ ∃ fault, salvage p fixKeys = .error fault) := by
  rw [behindWhole]
  by_cases hne : p = []
  · subst hne
    rw [List.drop_nil, List.length_nil, wholeItems_zero]
    exact .inl ⟨not_refused_of_none rfl, rfl⟩
  · rw [Value.writeLine_list, List.map_map] at hp
    have hobjects : ∀ ms ∈ wholeItems writeObject p.length objects,
        Value.parse (writeObject ms) = .ok (.object ms) ∧ hasKeys fixKeys ms = true := by
      intro ms hms
      have hentry := h ms (mem_of_mem_wholeItems writeObject hms)
      exact ⟨hentry.readsBack, hentry.keys⟩
    obtain ⟨rest, hsplit, hrest⟩ :=
      exists_rest writeObject (fun ms hms => (h ms hms).opensOnce) hp hne
    have hsalvage := salvage_listUpTo exists_fixKey hobjects hrest
    generalize wholeItems writeObject p.length objects = whole at *
    rw [hsplit, List.drop_left]
    exact hsalvage

/-- Of a list of flat objects that was cut off anywhere the whole ones are salvaged, in order and
each once, just where nothing behind them is refused. Nothing else is ever salvaged, and nothing is
refused where neither long numbers nor deep brackets follow. -/
theorem flat_objects_survive {objects : List (List (Text × Value))}
    (h : ∀ ms ∈ objects, IsFlatEntry ms) {p : Text}
    (hp : p <+: Value.writeLine (.list (objects.map .object))) :
    (salvage p fixKeys = .ok ((wholeItems writeObject p.length objects).map .object) ↔
        ¬ Refused (behindWhole objects p)) ∧
      (∀ found, salvage p fixKeys = .ok found →
        found = (wholeItems writeObject p.length objects).map .object) ∧
      (Value.IsModest (behindWhole objects p) →
        salvage p fixKeys = .ok ((wholeItems writeObject p.length objects).map .object)) := by
  rcases salvage_cut h hp with ⟨hnot, hfound⟩ | ⟨hrefused, fault, hfault⟩
  · exact ⟨⟨fun _ => hnot, fun _ => hfound⟩,
      fun found hother => Except.ok.inj (hother.symm.trans hfound), fun _ => hfound⟩
  · have hnothing : ∀ found, salvage p fixKeys ≠ .ok found := by
      intro found hfound
      exact absurd (hfound.symm.trans hfault) (by simp)
    exact ⟨⟨fun hfound => absurd hfound (hnothing _), fun hnot => absurd hrefused hnot⟩,
      fun found hfound => absurd hfound (hnothing found),
      fun hmodest => absurd hrefused (not_refused_of_isModest hmodest)⟩

/-- Two entries, of which the second one has braces in its texts. -/
def bracedEntries : List (List (Text × Value)) := [
  [("file", .text "a.py"), ("comment", .text "typo")],
  [("file", .text "b.py"), ("comment", .text "\x7b"), ("parts", .list [.int 1, .text "\x7d"])]]

/-- The cut falls behind the braces in the texts, which enclose no object. -/
theorem flat_objects_survive_braces :
    let p : Text := listUpTo writeObject (bracedEntries.take 1) ++
      ", \x7b\"file\": \"b.py\", \"comment\": \"\x7b\", \"parts\": [1, \"\x7d"
    (∀ ms ∈ bracedEntries, IsFlatEntry ms) ∧
      p <+: Value.writeLine (.list (bracedEntries.map .object)) ∧
      salvage p fixKeys = .ok [.object [("file", .text "a.py"), ("comment", .text "typo")]] := by
  intro p
  have hentries : ∀ ms ∈ bracedEntries, IsFlatEntry ms := by
    refine List.forall_mem_cons.mpr ⟨?_, List.forall_mem_singleton.mpr ?_⟩
    · exact ⟨by simp [IsFlat, Value.IsScalar], by decide, by decide +kernel⟩
    · exact ⟨by simp [IsFlat, Value.IsScalar], by decide, by decide +kernel⟩
  have hp : p <+: Value.writeLine (.list (bracedEntries.map .object)) := by decide +kernel
  have hwhole : wholeItems writeObject p.length bracedEntries = bracedEntries.take 1 := by
    decide +kernel
  have hshort : p.length ≤ Value.maxDepth := by decide +kernel
  obtain ⟨-, -, hmodest⟩ := flat_objects_survive hentries hp
  have hfound := hmodest ((Value.isModest_of_length_le hshort).mono (List.drop_suffix _ _).isInfix)
  rw [hwhole] at hfound
  exact ⟨hentries, hp, hfound⟩

/-! ## Where a number in a text is too long -/

/-- An object whose first member has a value that is refused is refused. -/
theorem readValue_member_error {fuel depth : Nat} {t : Text} {fault : Fault}
    (hgap : Value.skipGap t = t) (h : Value.readValue fuel depth t = .error fault) :
    Value.readValue (fuel + 2) (depth + 1) ("\x7b\", \":" ++ t) = .error fault := by
  have hkey : Value.readText? ((", \":" ++ t).length + 1) (", \":" ++ t) =
      some (", ".toList, ':' :: t) := rfl
  have hmembers : Value.readMembers (fuel + 1) depth [] ('"' :: (", \":" ++ t)) = .error fault := by
    rw [Value.readMembers, hkey]
    simp only [Value.skipGap_cons (c := ':') rfl, hgap, h]
  show Value.readValue (fuel + 1 + 1) (depth + 1) ('\x7b' :: '"' :: (", \":" ++ t)) = _
  rw [Value.readValue]
  exact hmembers

/-- An entry without braces in its texts. -/
def plainEntry : List (Text × Value) := [("file", .text "a"), ("comment", .text "b")]

/-- An entry with a brace in its comment and a number between a colon and a brace in a key. -/
def numberedEntry (digits : Text) : List (Text × Value) :=
  [("file", .text "a.py"), ("comment", .text "\x7b"), (':' :: (digits ++ ['\x7d']), .text "")]

/-- What a reader finds that starts at the brace in the comment. -/
def numberedSpan (digits : Text) : Text := "\x7b\", \":" ++ (digits ++ ['\x7d'])

/-- The document of the second entry up to the end of the number. -/
def numberedFront (digits : Text) : Text :=
  '\x7b' :: ("\"file\": \"a.py\", \"comment\": \"" ++ numberedSpan digits)

/-- A list of both entries, cut off behind the number. -/
def numberedReply (digits : Text) : Text :=
  '[' :: (writeObject plainEntry ++ (", " ++ numberedFront digits))

theorem isFlatEntry_plainEntry : IsFlatEntry plainEntry where
  flat := by simp [plainEntry, IsFlat, Value.IsScalar]
  keys := rfl
  readsBack := by decide +kernel

theorem isFlatEntry_numberedEntry (digits : Text) : IsFlatEntry (numberedEntry digits) where
  flat := by simp [numberedEntry, IsFlat, Value.IsScalar]
  keys := rfl
  readsBack := by
    refine Value.parse_write Value.Layout.isBlank_oneLine ?_
    have hdeep : Value.maxDepth = 989 + 1 := rfl
    rw [hdeep, Value.Readable]
    refine ⟨?_, trivial, trivial, trivial, trivial⟩
    simp [numberedEntry]

section LongNumber

variable {digits : Text} (hdigits : Value.IsNumeral digits)

include hdigits

theorem parse_numberedSpan (hlong : Decimal.maxDigits < digits.length) :
    Value.parse (numberedSpan digits) =
      .error (.tooManyDigits Decimal.maxDigits digits.length) := by
  have hapart : Value.Apart ['\x7d'] := Value.apart_cons.mpr rfl
  obtain ⟨hgap, hread⟩ := readValue_numeral_long hdigits hlong hapart (2 * digits.length + 13) 989
  have hfuel : 2 * (numberedSpan digits).length + 2 = 2 * digits.length + 14 + 2 := by
    simp [numberedSpan]
    omega
  have hopen : Value.skipGap (numberedSpan digits) = numberedSpan digits := rfl
  rw [Value.parse, hfuel, hopen, show Value.maxDepth = 989 + 1 from rfl, numberedSpan,
    readValue_member_error hgap hread]

theorem ne_of_mem_digits {c d : Char} (hc : c ∈ digits) (hd : Text.isAsciiDigit d = false) :
    c ≠ d := by
  rintro rfl
  exact Bool.noConfusion (hd.symm.trans (hdigits.allDigits c hc))

theorem isSpan_numberedSpan :
    IsSpan '\x7b' '\x7d' (numberedSpan digits) (numberedSpan digits) := by
  have htext : Value.InQuotes ", " := .of_plain (by simp)
  have hquoted : Passes '\x7b' '\x7d' "\", \"" := .quoted htext
  have hplain : Passes '\x7b' '\x7d' (':' :: digits) := by
    refine .of_plain (List.forall_mem_cons.mpr ⟨by decide, fun c hc => ?_⟩)
    exact ⟨ne_of_mem_digits hdigits hc rfl, ne_of_mem_digits hdigits hc rfl,
      ne_of_mem_digits hdigits hc rfl⟩
  have hspan := isSpan_enclosed .object (hquoted.append hplain) []
  simpa [numberedSpan] using hspan

/-- The brace in front of the entry is left open, and the first span is the one in its comment. -/
theorem firstSpan_numberedFront :
    firstSpan '\x7b' '\x7d' (numberedFront digits) = some (numberedSpan digits) := by
  have hquotes : Value.InQuotes (digits ++ ['\x7d']) := by
    refine .of_plain fun c hc => ?_
    rcases List.mem_append.mp hc with hc | hc
    · exact ⟨ne_of_mem_digits hdigits hc rfl, ne_of_mem_digits hdigits hc rfl⟩
    · rw [List.mem_singleton.mp hc]
      decide
  have hunclosed : spanLength '\x7b' '\x7d' 0 0 .outside (numberedFront digits) = none := by
    have hinside : spanLength '\x7b' '\x7d' 35 1 .inside (digits ++ ['\x7d'] ++ []) = none :=
      spanLength_inQuotes hquotes 35 1 []
    rw [List.append_nil] at hinside
    exact hinside
  rw [numberedFront, firstSpan_unclosed hunclosed, firstSpan_behind (by decide)]
  exact firstSpan_of_isSpan (isSpan_numberedSpan hdigits)

/-- The number ends the search: the reader takes it for one. -/
theorem salvage_numberedReply (hlong : Decimal.maxDigits < digits.length) :
    salvage (numberedReply digits) fixKeys =
      .error (.tooManyDigits Decimal.maxDigits digits.length) := by
  have hfront : salvageFrom fixKeys 0 (numberedFront digits) =
      .error (.tooManyDigits Decimal.maxDigits digits.length) := by
    rw [numberedFront, salvageFrom_brace, ← numberedFront, firstSpan_numberedFront hdigits]
    simp only [parse_numberedSpan hdigits hlong]
    rfl
  have hplain := salvageFrom_object isFlatEntry_plainEntry.readsBack isFlatEntry_plainEntry.keys
    (", " ++ numberedFront digits)
  rw [salvage, numberedReply, salvageFrom_ne fixKeys (by decide), writeObject, hplain,
    salvageFrom_comma, hfront]
  rfl

theorem numberedReply_front :
    numberedReply digits <+:
      Value.writeLine (.list ([plainEntry, numberedEntry digits].map .object)) := by
  have hplain : digits.flatMap Value.escapeChar = digits := by
    rw [List.flatMap_congr fun c hc => Value.escapeChar_digit (hdigits.allDigits c hc),
      List.flatMap_singleton']
  have hkey : Value.writeText (':' :: (digits ++ ['\x7d'])) =
      '"' :: ':' :: (digits ++ "\x7d\"") := by
    rw [Value.writeText, List.flatMap_cons, List.flatMap_append, hplain]
    show '"' :: ':' :: (digits ++ ['\x7d'] ++ ['"']) = _
    rw [List.append_assoc]
    rfl
  have hentry : writeObject (numberedEntry digits) = numberedFront digits ++ "\": \"\"\x7d" := by
    rw [writeObject, Value.writeLine_object, numberedEntry, List.map_cons, List.map_cons,
      List.map_singleton, hkey]
    simp [numberedFront, numberedSpan, Text.join]
    rfl
  refine ⟨"\": \"\"\x7d]", ?_⟩
  have hlist : Value.writeLine (.list ([plainEntry, numberedEntry digits].map .object)) =
      '[' :: (writeObject plainEntry ++ (", " ++ writeObject (numberedEntry digits))) ++ [']'] := by
    rw [Value.writeLine_list, List.map_cons, List.map_singleton, List.map_cons, List.map_singleton,
      Text.join_cons_cons, Text.join_singleton]
    rfl
  rw [hlist, hentry, numberedReply]
  simp only [List.cons_append, List.append_assoc]
  rfl

end LongNumber

/-- A number in a text takes away the whole object in front of it. -/
theorem flat_objects_lost :
    ¬ ∀ (objects : List (List (Text × Value))) (p : Text), (∀ ms ∈ objects, IsFlatEntry ms) →
      p <+: Value.writeLine (.list (objects.map .object)) →
        salvage p fixKeys = .ok ((wholeItems writeObject p.length objects).map .object) := by
  intro h
  have hnumeral := isNumeral_ones Decimal.maxDigits
  have hlong : Decimal.maxDigits < (List.replicate (Decimal.maxDigits + 1) '1').length := by
    rw [List.length_replicate]
    exact Nat.lt_succ_self _
  generalize List.replicate (Decimal.maxDigits + 1) '1' = ones at hnumeral hlong
  have hentries : ∀ ms ∈ [plainEntry, numberedEntry ones], IsFlatEntry ms :=
    List.forall_mem_cons.mpr
      ⟨isFlatEntry_plainEntry, List.forall_mem_singleton.mpr (isFlatEntry_numberedEntry ones)⟩
  have hfound := h _ _ hentries (numberedReply_front hnumeral)
  exact absurd ((salvage_numberedReply hnumeral hlong).symm.trans hfound) (by simp)

end ChangeReview.Reply
