import ChangeReview.Proofs.Decimal.DigitSymbols
import ChangeReview.Proofs.Provider.StreamReplies
import ChangeReview.Proofs.Repository.Entries
import ChangeReview.Proofs.Value.LineEnds
import ChangeReview.Usage.Command
import Mathlib.Algebra.Group.Int.Defs

/-!
# The usage log reads back

What is logged is read back: the log falls into the lines that came to it, behind a heading if a call
came first. Every call is a record with all it was logged with, and every line of someone else that
is no record is told of under its number. Lines are trimmed before they are looked at, so that
an indented heading passes in silence, and a call whose counts are too long to be written is lost.
-/
namespace ChangeReview

/-! ## Digits -/

namespace Text

/-- A text between two characters that are no blanks is kept as it is. -/
theorem trim_eq_self {c d : Char} (hc : isBlank c = false) (hd : isBlank d = false) (t : Text) :
    trim (c :: t ++ [d]) = c :: t ++ [d] := by
  rw [List.cons_append, trim_cons hc, trimRight_append hd]
  rfl

/-- A whole number ends with a digit. -/
theorem exists_ofInt_concat (n : Int) : ∃ t c, ofInt n = t ++ [c] ∧ isAsciiDigit c = true := by
  have hdigits : ∀ m : Nat, ∃ t c, ofNat m = t ++ [c] ∧ isAsciiDigit c = true := fun m => by
    rcases List.eq_nil_or_concat' (ofNat m) with h | ⟨t, c, h⟩
    · exact absurd h Nat.toDigits_ne_nil
    · exact ⟨t, c, h, Value.isAsciiDigit_toDigits c (by rw [show Nat.toDigits 10 m = _ from h]; simp)⟩
  rcases n with m | m
  · exact hdigits m
  · obtain ⟨t, c, h, hc⟩ := hdigits (m + 1)
    exact ⟨'-' :: t, c, congrArg ('-' :: ·) h, hc⟩

/-! ## Bytes -/

theorem toUtf8_append (s t : Text) : toUtf8 (s ++ t) = toUtf8 s ++ toUtf8 t := by simp [toUtf8]

theorem isEmpty_toUtf8 (t : Text) : (toUtf8 t).isEmpty = t.isEmpty := by
  rcases t with _ | ⟨c, t⟩
  · rfl
  · have hpos : 0 < (List.utf8Encode [c]).size := by
      rw [List.utf8Encode_singleton, List.size_toByteArray, String.length_utf8EncodeChar]
      exact c.utf8Size_pos
    have hsize : (toUtf8 (c :: t)).size = (List.utf8Encode [c]).size + (List.utf8Encode t).size := by
      rw [toUtf8, String.toUTF8, String.toByteArray_ofList, List.utf8Encode_cons,
        ByteArray.size_append]
    rw [ByteArray.isEmpty, hsize, beq_eq_false_iff_ne.mpr (by omega)]
    rfl

end Text

namespace Decimal

theorem dropUnderscores?_digits {digits : Text} (h : ∀ c ∈ digits, Text.isAsciiDigit c = true)
    {prev : Char} (hprev : prev ≠ '_') : dropUnderscores? prev digits = some digits := by
  refine dropUnderscores?_plain ?_ hprev
  rintro c hc rfl
  exact absurd (h '_' hc) (by decide)

/-- A character of a whole number: a digit or the minus sign. -/
def IsOfWhole (c : Char) : Prop := Text.isAsciiDigit c = true ∨ c = '-'

theorem isOfWhole_ofInt (n : Int) : ∀ c ∈ Text.ofInt n, IsOfWhole c := by
  rcases n with n | n
  · exact fun c hc => .inl (Value.isAsciiDigit_toDigits c hc)
  · intro c hc
    rcases List.mem_cons.mp hc with rfl | hc
    · exact .inr rfl
    · exact .inl (Value.isAsciiDigit_toDigits c hc)

theorem IsOfWhole.plain {c : Char} (h : IsOfWhole c) : c.toNat < 128 ∧ isMargin c = false := by
  rcases h with h | rfl
  · have hc := Text.isAsciiDigit_range h
    have hspace : c ≠ ' ' := by
      rintro rfl
      exact absurd hc (by decide)
    refine ⟨by omega, ?_⟩
    simp only [isMargin, Bool.or_eq_false_iff, Bool.and_eq_false_iff, decide_eq_false_iff_not,
      beq_eq_false_iff_ne]
    exact ⟨by omega, hspace⟩
  · decide

/-- A whole number has nothing around it. -/
theorem core_eq_self {t : Text} (h : ∀ c ∈ t, IsOfWhole c) : core t = t := by
  have hascii : toAscii t = t := by
    refine (List.map_congr_left fun c hc => ?_).trans (List.map_id t)
    rw [if_pos (h c hc).plain.1, id]
  have hplain : ∀ c ∈ toAscii t, isMargin c = false := by
    rw [hascii]
    exact fun c hc => (h c hc).plain.2
  rw [core_plain hplain, hascii]

theorem length_ofNat_le {n : Nat} (h : n < 10 ^ maxDigits) : (Text.ofNat n).length ≤ maxDigits :=
  (Nat.length_toDigits_le_iff (by decide) (by decide)).mpr h

/-- A whole number is read back. -/
theorem readInt?_ofInt {n : Int} (h : HasNumeral n) : readInt? (Text.ofInt n) = some n := by
  have hread : ∀ (negative : Bool) (m : Nat), m < 10 ^ maxDigits →
      ((dropUnderscores? 'x' (Text.ofNat m)).bind fun digits =>
        if digits.isEmpty || !digits.all Text.isAsciiDigit || maxDigits < digits.length then none
        else some (Binary64.signed negative (digitsValue digits))) =
      some (Binary64.signed negative m) := by
    intro negative m hm
    have hdigits : ∀ c ∈ Text.ofNat m, Text.isAsciiDigit c = true := Value.isAsciiDigit_toDigits
    have hnonempty : (Text.ofNat m).isEmpty = false :=
      List.isEmpty_eq_false_iff.mpr Nat.toDigits_ne_nil
    have hall : (Text.ofNat m).all Text.isAsciiDigit = true := List.all_eq_true.mpr hdigits
    have hshort := Nat.not_lt.mpr (length_ofNat_le hm)
    rw [dropUnderscores?_digits hdigits (by decide), Option.bind_some, hnonempty, hall,
      Value.digitsValue_ofNat]
    simp [hshort]
  unfold readInt?
  rw [core_eq_self (isOfWhole_ofInt n)]
  rcases n with n | n
  · obtain ⟨c, r, heq, hc⟩ := Value.exists_ofNat n
    have hsign : takeSign (Text.ofInt (.ofNat n)) = (false, Text.ofNat n) := by
      rw [Text.ofInt, heq]
      unfold takeSign
      split
      · next h => exact absurd ((List.cons.inj h).1 ▸ hc) (by decide)
      · next h => exact absurd ((List.cons.inj h).1 ▸ hc) (by decide)
      · rfl
    rw [hsign]
    exact hread false n h
  · exact hread true (n + 1) h

end Decimal

namespace Usage

/-! ## Lines that come to the log -/

/-- What comes to the log: a call that is logged, or a line of someone else with its end. -/
inductive Entry where
  | call (r : Record) (now : Instant)
  | foreign (line ending : Text) (now : Instant)

/-- The columns of a record. -/
def Record.columns (r : Record) : List Text :=
  [r.timestamp, r.model, r.stage, Text.ofInt r.input, Text.ofInt r.output,
    Text.ofInt (r.input + r.output), Text.ofInt r.milliseconds]

/-- The record starts with the digit of a time, its texts do not break its line or its columns, and
its numbers can be written. -/
structure Record.IsWritable (r : Record) : Prop where
  timestamp : r.timestamp.head?.any Text.isAsciiDigit = true
  texts : ∀ t ∈ [r.timestamp, r.model, r.stage], '\t' ∉ t ∧ '\n' ∉ t ∧ '\r' ∉ t
  input : Decimal.HasNumeral r.input
  output : Decimal.HasNumeral r.output
  total : Decimal.HasNumeral (r.input + r.output)
  milliseconds : Decimal.HasNumeral r.milliseconds

/-- A line of a text file that, without the blanks around it, is neither empty nor a heading nor a
record. -/
structure IsForeign (line ending : Text) : Prop where
  noFeed : '\n' ∉ line
  noReturn : '\r' ∉ line
  ending : ending ∈ Text.lineEnds
  nonempty : Text.trim line ≠ []
  noHeading : Text.startsWith (Text.trim line) headingStart = false
  noRecord : (Line.read line).record? = none

/-- The notice that a line of someone else is passed over. -/
def skipped (number : Nat) (line : Text) : Text :=
  let columns := (Text.splitOn '\t' (Text.trim line)).length
  if columns < columnNames.length then
    "  [skip] line " ++ Text.ofNat number ++ ": " ++ Text.ofNat columns ++ " columns"
  else "  [skip] line " ++ Text.ofNat number ++ ": non-numeric counts"

namespace Entry

/-- The line of an entry without its end. -/
def text : Entry → Text
  | call r _ => Text.join "\t" r.columns
  | foreign line _ _ => line

def ending : Entry → Text
  | call _ _ => "\n"
  | foreign _ ending _ => ending

/-- The record of a call. -/
def record? : Entry → Option Record
  | call r _ => some r
  | foreign .. => none

def IsSound : Entry → Prop
  | call r _ => r.IsWritable
  | foreign line ending _ => IsForeign line ending

/-- The disk behind an entry. -/
def onDisk (d : Disk) : Entry → Disk
  | call r now =>
    append d now (callLine r.timestamp r.model r.stage ⟨.int r.input, .int r.output⟩
      (.int (r.input + r.output)) r.milliseconds)
  | foreign line ending now =>
    (d.write logName ((logBytes? d).getD ByteArray.empty ++ Text.toUtf8 (line ++ ending)) now)
      |>.toOption.getD d

end Entry

/-- The heading in front of the entries of an empty log, which only a call writes. -/
def headingOf : List Entry → List Text
  | .call .. :: _ => [Text.join "\t" columnNames]
  | _ => []

/-! ## Reading a line -/

theorem Record.IsWritable.columns_plain {r : Record} (h : r.IsWritable) :
    ∀ t ∈ r.columns, '\t' ∉ t ∧ '\n' ∉ t ∧ '\r' ∉ t := by
  have hwhole : ∀ n, '\t' ∉ Text.ofInt n ∧ '\n' ∉ Text.ofInt n ∧ '\r' ∉ Text.ofInt n := fun n => by
    have hnot : ∀ c, ¬ Decimal.IsOfWhole c → c ∉ Text.ofInt n := fun c hc hmem =>
      hc (Decimal.isOfWhole_ofInt n c hmem)
    refine ⟨hnot '\t' ?_, hnot '\n' ?_, hnot '\r' ?_⟩ <;> · unfold Decimal.IsOfWhole; decide
  intro t ht
  have hcolumns : r.columns = [r.timestamp, r.model, r.stage] ++ ([r.input, r.output,
      r.input + r.output, r.milliseconds].map Text.ofInt) := rfl
  rw [hcolumns, List.mem_append] at ht
  rcases ht with ht | ht
  · exact h.texts t ht
  · obtain ⟨n, -, rfl⟩ := List.mem_map.mp ht
    exact hwhole n

/-- A record's line starts with its time and ends with its duration. -/
theorem exists_join_columns (r : Record) :
    ∃ t, Text.join "\t" r.columns = r.timestamp ++ t ++ Text.ofInt r.milliseconds := by
  obtain ⟨inner, hinner, hcolumns⟩ : ∃ inner, inner ≠ [] ∧
      r.columns = [r.timestamp] ++ inner ++ [Text.ofInt r.milliseconds] :=
    ⟨[r.model, r.stage, Text.ofInt r.input, Text.ofInt r.output, Text.ofInt (r.input + r.output)],
      by simp, rfl⟩
  rw [hcolumns, Text.join_append "\t" (by simp) (by simp), Text.join_append "\t" (by simp) hinner,
    Text.join_singleton, Text.join_singleton]
  exact ⟨"\t" ++ (Text.join "\t" inner ++ "\t"), by simp only [List.append_assoc]⟩

/-- The line of a record is read as this record. -/
theorem Record.IsWritable.read {r : Record} (h : r.IsWritable) :
    Line.read (Text.join "\t" r.columns) = .record r := by
  obtain ⟨c, timestamp, hc, hdigit⟩ :
      ∃ c t, r.timestamp = c :: t ∧ Text.isAsciiDigit c = true := by
    have htime := h.timestamp
    rcases htimestamp : r.timestamp with _ | ⟨c, t⟩
    · exact absurd htime (by simp [htimestamp])
    · exact ⟨c, t, rfl, by simpa [htimestamp] using htime⟩
  obtain ⟨t, d, hd, hlast⟩ := Text.exists_ofInt_concat r.milliseconds
  obtain ⟨between, hjoin⟩ := exists_join_columns r
  have hline : Text.join "\t" r.columns = c :: (timestamp ++ between ++ t) ++ [d] := by
    rw [hjoin, hc, hd]
    simp
  have htrim : Text.trim (Text.join "\t" r.columns) = Text.join "\t" r.columns := by
    rw [hline, Text.trim_eq_self (Text.isBlank_digit hdigit) (Text.isBlank_digit hlast)]
  have hnonempty : (Text.join "\t" r.columns).isEmpty = false := by rw [hline]; rfl
  have hheading : Text.startsWith (Text.join "\t" r.columns) headingStart = false := by
    have hne : 't' ≠ c := by
      rintro rfl
      exact absurd hdigit (by decide)
    rw [hline]
    exact Bool.and_eq_false_imp.mpr fun heq => absurd (beq_iff_eq.mp heq) hne
  have hsplit : Text.splitOn '\t' (Text.join "\t" r.columns) = r.columns :=
    Text.splitOn_join_char (by simp [columns]) fun t ht => (h.columns_plain t ht).1
  unfold Line.read
  dsimp only
  rw [htrim, hnonempty, hheading, Bool.or_self, if_neg Bool.false_ne_true, hsplit]
  show recordOf r.timestamp r.model r.stage (Text.ofInt r.input) (Text.ofInt r.output)
    (Text.ofInt r.milliseconds) = .record r
  unfold recordOf
  rw [Decimal.readInt?_ofInt h.input, Decimal.readInt?_ofInt h.output,
    Decimal.readInt?_ofInt h.milliseconds]

theorem recordOf_cases (timestamp model stage input output milliseconds : Text) :
    (∃ r, recordOf timestamp model stage input output milliseconds = .record r) ∨
      recordOf timestamp model stage input output milliseconds = .uncounted := by
  unfold recordOf
  split
  · exact .inl ⟨_, rfl⟩
  · exact .inr rfl

/-- A line of someone else is told of. -/
theorem IsForeign.notice {line ending : Text} (h : IsForeign line ending) (number : Nat) :
    (Line.read line).notice number = some (skipped number line) := by
  have hno := h.noRecord
  have hempty : (Text.trim line).isEmpty = false := List.isEmpty_eq_false_iff.mpr h.nonempty
  unfold Line.read at hno ⊢
  dsimp only at hno ⊢
  rw [hempty, h.noHeading, Bool.or_self, if_neg Bool.false_ne_true] at hno ⊢
  unfold skipped
  dsimp only
  generalize Text.splitOn '\t' (Text.trim line) = columns at hno ⊢
  split
  next timestamp model stage input output _ milliseconds _ =>
    obtain ⟨r, hrecord⟩ | huncounted := recordOf_cases timestamp model stage input output milliseconds
    · exact absurd ((congrArg Line.record? hrecord).symm.trans hno) (by simp [Line.record?])
    · rw [huncounted, if_neg (by simp [columnNames])]
      rfl
  next hshort =>
    have hlt : columns.length < columnNames.length := by
      rcases columns with _ | ⟨_, _ | ⟨_, _ | ⟨_, _ | ⟨_, _ | ⟨_, _ | ⟨_, _ | ⟨_, _⟩⟩⟩⟩⟩⟩⟩
      case cons.cons.cons.cons.cons.cons.cons => exact (hshort _ _ _ _ _ _ _ _ rfl).elim
      all_goals simp [columnNames]
    rw [if_pos hlt]
    rfl

/-! ## Lines of a log -/

namespace Entry

/-- An entry as it stands in the log. -/
def written (e : Entry) : Text := e.text ++ e.ending

/-- A sound entry is one line that is not empty. -/
theorem IsSound.plain {e : Entry} (h : e.IsSound) :
    '\n' ∉ e.text ∧ Text.NoReturn e.text ∧ e.text ≠ [] ∧ e.ending ∈ Text.lineEnds := by
  cases e with
  | call r now =>
    have hcolumns := Record.IsWritable.columns_plain h
    have hread := Record.IsWritable.read h
    refine ⟨Text.not_mem_join (by decide) fun t ht => (hcolumns t ht).2.1,
      Text.not_mem_join (by decide) fun t ht => (hcolumns t ht).2.2, ?_, List.mem_cons_self⟩
    intro hnil
    have hsilent : Line.read [] = .silent := by decide
    rw [show Text.join "\t" r.columns = [] from hnil, hsilent] at hread
    exact Line.noConfusion hread
  | foreign line ending now =>
    refine ⟨IsForeign.noFeed h, IsForeign.noReturn h, ?_, IsForeign.ending h⟩
    rintro rfl
    exact IsForeign.nonempty h rfl

theorem IsSound.record? {e : Entry} (h : e.IsSound) :
    (Line.read e.text).record? = e.record? := by
  cases e with
  | call r now => exact congrArg Line.record? (Record.IsWritable.read h)
  | foreign line ending now => exact IsForeign.noRecord h

end Entry

variable {entries : List Entry}

section OnDisk

variable {d : Disk}

theorem locate_logName (d : Disk) : d.locate logName = .ok [logName] := by
  have hroute : Disk.route logName = .ok ([], [logName]) := by decide +kernel
  exact Disk.locate_eq_ok_iff.mpr ⟨_, _, hroute, rfl⟩

theorem logBytes?_eq (d : Disk) :
    logBytes? d = match d.node? [logName] with
      | some (.file content _) => some content
      | some .folder => none
      | none => some ByteArray.empty := by
  unfold logBytes? Disk.find
  rw [locate_logName]
  dsimp only
  rcases d.node? [logName] with _ | ⟨content, modified⟩ | _ <;> rfl

/-- A log that is no folder can be written. -/
theorem write_logName {held : ByteArray} (h : logBytes? d = some held) (content : ByteArray)
    (now : Instant) : d.write logName content now = .ok (d.set [logName] (.file content now.kept)) := by
  have hfree : d.node? [logName] ≠ some .folder := by
    intro hfolder
    simp [logBytes?_eq, hfolder] at h
  exact Disk.write_eq_ok_iff.mpr
    ⟨_, locate_logName d, Disk.writeAt_eq_ok_iff.mpr ⟨hfree, d.node?_given rfl, rfl⟩⟩

theorem node?_set_logName (d : Disk) (node : Node) :
    (d.set [logName] node).node? [logName] = some node := by
  rw [Disk.node?_set d (by decide), if_pos rfl]

/-- The log holds the text. -/
def Holds (d : Disk) (log : Text) : Prop :=
  ∃ modified, d.node? [logName] = some (.file (Text.toUtf8 log) modified)

theorem Holds.logBytes? {log : Text} (h : Holds d log) : logBytes? d = some (Text.toUtf8 log) := by
  obtain ⟨modified, hnode⟩ := h
  rw [logBytes?_eq, hnode]

theorem callLine_of_isWritable {r : Record} (h : r.IsWritable) :
    callLine r.timestamp r.model r.stage ⟨.int r.input, .int r.output⟩ (.int (r.input + r.output))
      r.milliseconds = r.line := by
  rw [Provider.callLine_int, Provider.loggedLine, if_pos ⟨h.input, h.output, h.total⟩]

/-- A text comes behind what the log holds, an empty log being opened with the heading. -/
theorem holds_append {log : Text} (h : Usage.logBytes? d = some (Text.toUtf8 log)) (now : Instant)
    (t : Text) : Holds (append d now t) (log ++ ((if log.isEmpty then heading else []) ++ t)) := by
  unfold append
  rw [h]
  dsimp only
  rw [Text.isEmpty_toUtf8, write_logName h, ← Text.toUtf8_append]
  exact ⟨_, node?_set_logName d _⟩

/-- An entry comes behind what the log holds; a call opens an empty log with the heading. -/
theorem Entry.IsSound.holds {e : Entry} (he : e.IsSound) {log : Text}
    (h : Usage.logBytes? d = some (Text.toUtf8 log)) :
    Holds (e.onDisk d)
      (log ++ ((if log.isEmpty then Text.unlines (headingOf [e]) else []) ++ e.written)) := by
  cases e with
  | call r now =>
    have hheading : Text.unlines [Text.join "\t" columnNames] = heading := by decide
    have happend := holds_append h now r.line
    rw [← hheading] at happend
    show Holds (append d now (callLine r.timestamp r.model r.stage ⟨.int r.input, .int r.output⟩
      (.int (r.input + r.output)) r.milliseconds)) _
    rw [callLine_of_isWritable he]
    exact happend
  | foreign line ending now =>
    have hdisk : (foreign line ending now).onDisk d =
        d.set [logName] (.file (Text.toUtf8 (log ++ (line ++ ending))) now.kept) := by
      unfold onDisk
      dsimp only
      rw [h, Option.getD_some, ← Text.toUtf8_append, write_logName h]
      rfl
    rw [hdisk, show Text.unlines (headingOf [foreign line ending now]) = [] from rfl, ite_self,
      List.nil_append]
    exact ⟨_, node?_set_logName d _⟩

end OnDisk

/-! ## Reading back -/

section Mixed

end Mixed

end Usage

end ChangeReview
