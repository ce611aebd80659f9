import ChangeReview.Proofs.Decimal.DigitSymbols
import ChangeReview.Proofs.Faults
import ChangeReview.Proofs.Text.Blanks
import ChangeReview.Review.Fix

/-!
# The fixes of a reply

Every entry of a reply is judged by itself: it describes one fix or none, whatever stands around it,
and what it describes has a file, a comment and a line in good order. The fixes of a reply are those
of its entries, one behind the other. One thing breaks this: a line of digits that are no numeral is
a fault, and a fault of one entry is that of the whole reply.
-/
namespace ChangeReview.Fix

/-! ## Lines -/

/-- A text of digits that is no numeral: one of them is no decimal digit, or there are too many. -/
structure IsOddNumeral (t : Text) : Prop where
  ne_nil : t ≠ []
  symbols : ∀ c ∈ t, Text.isDigitSymbol c = true
  odd : (∃ c ∈ t, Text.isDecimal c = false) ∨ Decimal.maxDigits < t.length

/-- The value is such a text, blanks around it aside. -/
def HasOddDigits (v : Value) : Prop := ∃ t, v = .text t ∧ IsOddNumeral (Text.trim t)

theorem isOddNumeral_iff {t : Text} (hne : t ≠ []) (h : ∀ c ∈ t, Text.isDigitSymbol c = true) :
    IsOddNumeral t ↔ Decimal.readInt? t = none := by
  rw [Decimal.readInt?_symbols h hne]
  constructor
  · rintro ⟨-, -, ⟨c, hc, hdecimal⟩ | hlong⟩
    · refine if_neg fun hall => ?_
      simp [List.all_eq_true.mp hall.1 c hc] at hdecimal
    · exact if_neg fun hall => absurd hall.2 (Nat.not_le.mpr hlong)
  · intro hnone
    refine ⟨hne, h, ?_⟩
    by_contra hgood
    rw [not_or, Nat.not_lt] at hgood
    have hall : t.all Text.isDecimal = true := by
      rw [List.all_eq_true]
      intro c hc
      by_contra hodd
      exact hgood.1 ⟨c, hc, by simpa using hodd⟩
    rw [if_pos ⟨hall, hgood.2⟩] at hnone
    exact absurd hnone (by simp)

theorem readInt?_nonneg {t : Text} (hne : t ≠ []) (h : ∀ c ∈ t, Text.isDigitSymbol c = true)
    {n : Int} (hread : Decimal.readInt? t = some n) : 0 ≤ n := by
  rw [Decimal.readInt?_symbols h hne] at hread
  split at hread
  · rw [← Option.some.inj hread]
    omega
  · exact absurd hread (by simp)

/-- What a fix may have for a line. -/
def IsLine (line : Value) : Prop := line = .null ∨ ∃ n : Int, 0 < n ∧ line = .int n

/-- A line number is read from every value, if only as none, except from odd digits. -/
theorem lineNumber_cases (v : Value) :
    (∃ line, lineNumber v = .ok line ∧ IsLine line ∧ ¬ HasOddDigits v) ∨
      ∃ fault, lineNumber v = .error fault ∧ HasOddDigits v := by
  cases v with
  | null | bool | float | list | object => exact .inl ⟨.null, rfl, .inl rfl, nofun⟩
  | int n =>
    refine .inl ⟨if 0 < n then .int n else .null, rfl, ?_, nofun⟩
    split
    · next hpos => exact .inr ⟨n, hpos, rfl⟩
    · exact .inl rfl
  | text t =>
    have hself : HasOddDigits (.text t) ↔ IsOddNumeral (Text.trim t) := by simp [HasOddDigits]
    rw [hself]
    unfold lineNumber
    dsimp only
    generalize Text.trim t = digits
    split
    · next hdigits =>
      simp only [Bool.and_eq_true, Bool.not_eq_true', List.isEmpty_eq_false_iff,
        List.all_eq_true] at hdigits
      obtain ⟨hne, hsymbols⟩ := hdigits
      have hodd := isOddNumeral_iff hne hsymbols
      cases hread : Decimal.readInt? digits with
      | none => exact .inr ⟨_, rfl, hodd.mpr hread⟩
      | some n =>
        have hnonneg := readInt?_nonneg hne hsymbols hread
        refine .inl ⟨if n = 0 then .null else .int n, rfl, ?_, ?_⟩
        · split
          · exact .inl rfl
          · exact .inr ⟨n, by omega, rfl⟩
        · rw [hodd, hread]
          simp
    · next hnot =>
      refine .inl ⟨.null, rfl, .inl rfl, ?_⟩
      rintro ⟨hne, hsymbols, -⟩
      refine hnot ?_
      simp only [Bool.and_eq_true, Bool.not_eq_true', List.isEmpty_eq_false_iff, List.all_eq_true]
      exact ⟨hne, hsymbols⟩

theorem lineNumber_fault {v : Value} {fault : Fault} (h : lineNumber v = .error fault) :
    fault.isBadValue = true := by
  unfold lineNumber at h
  split at h
  · exact absurd h (by simp)
  · dsimp only at h
    split at h
    · split at h
      · exact absurd h (by simp)
      · obtain rfl := Except.error.inj h
        unfold digitsFault
        dsimp only
        split <;> rfl
    · exact absurd h (by simp)
  · exact absurd h (by simp)

/-! ## Entries -/

/-- A member of an entry; `null` where the entry lacks it. -/
def member (key : Text) (members : List (Text × Value)) : Value :=
  (Value.lookup key members).getD .null

/-- The members name a file and comment on it, neither in blanks. -/
def Describes (members : List (Text × Value)) (file comment : Text) : Prop :=
  (Value.lookup "file" members = some (.text file) ∧ Text.isBlankText file = false) ∧
    Value.lookup "comment" members = some (.text comment) ∧ Text.isBlankText comment = false

/-- The entry describes a fix. -/
def IsUsable (entry : Value) : Prop :=
  ∃ members file comment, entry = .object members ∧ Describes members file comment

/-- The entry describes a fix, but its line has odd digits. -/
def IsSpoiled (entry : Value) : Prop :=
  ∃ members file comment, entry = .object members ∧ Describes members file comment ∧
    HasOddDigits (member "line" members)

/-- A fix as a reply may bring it: its severity is one of the three by its type. -/
structure IsTidy (f : Fix) : Prop where
  file : ∃ t : Text, f.file = .text t ∧ t.IsNeat
  comment : f.comment.IsNeat
  source : f.source = .model
  line : IsLine f.line

theorem ofEntry_of_describes {members : List (Text × Value)} {file comment : Text}
    (h : Describes members file comment) :
    ofEntry (.object members) = (lineNumber (member "line" members)).map fun line => some {
      file := .text (Text.trim file)
      comment := Text.trim comment
      severity := Severity.parse (member "severity" members) .suggestion
      source := .model
      line } := by
  obtain ⟨⟨hfile, hfilled⟩, hcomment, hsaid⟩ := h
  unfold ofEntry member
  dsimp only
  rw [hfile, hcomment]
  simp only [hfilled, hsaid, Bool.or_self, Bool.false_eq_true, if_false]
  cases lineNumber ((Value.lookup "line" members).getD .null) <;> rfl

/-- An entry that describes nothing is passed over. -/
theorem ofEntry_of_not_isUsable {entry : Value} (h : ¬ IsUsable entry) : ofEntry entry = .ok none := by
  unfold ofEntry
  split
  · next members =>
    split
    · next file comment hfile hcomment =>
      split
      · rfl
      · next hshown =>
        rw [Bool.or_eq_true, not_or, Bool.not_eq_true, Bool.not_eq_true] at hshown
        exact absurd ⟨members, file, comment, rfl, ⟨hfile, hshown.1⟩, hcomment, hshown.2⟩ h
    · rfl
  · rfl

/-- A usable entry brings a tidy fix, unless it is spoiled, and any other brings none. -/
theorem ofEntry_cases (entry : Value) :
    (∃ fix, ofEntry entry = .ok fix ∧ (fix ≠ none ↔ IsUsable entry) ∧ (∀ f ∈ fix, f.IsTidy) ∧
        ¬ IsSpoiled entry) ∨
      ∃ fault, ofEntry entry = .error fault ∧ IsSpoiled entry := by
  by_cases h : IsUsable entry
  · obtain ⟨members, file, comment, rfl, hdescribes⟩ := id h
    rw [ofEntry_of_describes hdescribes]
    rcases lineNumber_cases (member "line" members) with
      ⟨line, hread, hline, hgood⟩ | ⟨fault, hread, hodd⟩
    · rw [hread]
      refine .inl ⟨_, rfl, iff_of_true (by simp) h, ?_, ?_⟩
      · intro f hf
        obtain rfl := Option.mem_some.mp hf
        exact ⟨⟨_, rfl, Text.isNeat_trim hdescribes.1.2⟩, Text.isNeat_trim hdescribes.2.2, rfl, hline⟩
      · rintro ⟨members', file', comment', heq, -, hodd⟩
        rw [← Value.object.inj heq] at hodd
        exact hgood hodd
    · exact .inr ⟨fault, by rw [hread]; rfl, members, file, comment, rfl, hdescribes, hodd⟩
  · refine .inl ⟨none, ofEntry_of_not_isUsable h, iff_of_false (by simp) h, by simp, ?_⟩
    rintro ⟨members, file, comment, heq, hdescribes, -⟩
    exact h ⟨members, file, comment, heq, hdescribes⟩

/-! ## Replies -/

theorem ofEntries_single (entry : Value) :
    ofEntries [entry] = (ofEntry entry).map Option.toList := by
  simp only [ofEntries, List.append_nil]
  cases ofEntry entry <;> rfl

/-- The first fault of an entry is that of the reply; without one, the fixes stand one behind the
other. -/
theorem ofEntries_cons (entry : Value) (rest : List Value) :
    ofEntries (entry :: rest) =
      (ofEntries [entry] >>= fun fixes => (ofEntries rest).map fun more => fixes ++ more) := by
  rw [ofEntries, ofEntries_single]
  cases ofEntry entry with
  | error fault => rfl
  | ok fix => cases ofEntries rest <;> rfl

/-- The entries of a reply are read one by one. -/
theorem ofEntries_eq_mapM (entries : List Value) :
    ofEntries entries = (entries.mapM fun entry => ofEntries [entry]).map List.flatten := by
  induction entries with
  | nil => rfl
  | cons entry rest ih =>
    rw [ofEntries_cons, ih, List.mapM_cons]
    cases ofEntries [entry] with
    | error fault => rfl
    | ok fixes => cases rest.mapM fun entry => ofEntries [entry] <;> rfl

/-- Every fix of a reply is that of an entry. -/
theorem exists_entry_of_mem {entries : List Value} {fixes : List Fix}
    (h : ofEntries entries = .ok fixes) {f : Fix} (hf : f ∈ fixes) :
    ∃ entry ∈ entries, ofEntry entry = .ok (some f) := by
  induction entries generalizing fixes with
  | nil =>
    obtain rfl := Except.ok.inj h
    exact absurd hf List.not_mem_nil
  | cons entry rest ih =>
    rw [ofEntries_cons, ofEntries_single] at h
    obtain ⟨first, hfirst, h⟩ := exists_of_bind_eq_ok h
    obtain ⟨more, hmore, rfl⟩ := exists_of_map_eq_ok h
    obtain ⟨fix, hentry, rfl⟩ := exists_of_map_eq_ok hfirst
    rcases List.mem_append.mp hf with hf | hf
    · rw [Option.mem_toList.mp hf] at hentry
      exact ⟨entry, List.mem_cons_self, hentry⟩
    · obtain ⟨other, hmem, hother⟩ := ih hmore hf
      exact ⟨other, List.mem_cons_of_mem entry hmem, hother⟩

/-- A fault of a reply is that of an entry. -/
theorem exists_entry_of_fault {entries : List Value} {fault : Fault}
    (h : ofEntries entries = .error fault) : ∃ entry ∈ entries, ofEntry entry = .error fault := by
  induction entries with
  | nil => exact absurd h (by simp [ofEntries])
  | cons entry rest ih =>
    rw [ofEntries_cons, ofEntries_single] at h
    cases hentry : ofEntry entry with
    | error fault' =>
      rw [hentry] at h
      obtain rfl := Except.error.inj h
      exact ⟨entry, List.mem_cons_self, hentry⟩
    | ok fix =>
      rw [hentry] at h
      obtain ⟨other, hmem, hother⟩ := ih (eq_error_of_map h)
      exact ⟨other, List.mem_cons_of_mem entry hmem, hother⟩

/-- An entry, and so a reply, is refused for a line that is a bad value. -/
theorem ofEntry_fault {entry : Value} {fault : Fault} (h : ofEntry entry = .error fault) :
    fault.isBadValue = true := by
  by_cases husable : IsUsable entry
  · obtain ⟨members, file, comment, rfl, hdescribes⟩ := husable
    rw [ofEntry_of_describes hdescribes] at h
    exact lineNumber_fault (eq_error_of_map h)
  · rw [ofEntry_of_not_isUsable husable] at h
    exact absurd h (by simp)

theorem ofEntries_fault {entries : List Value} {fault : Fault} (h : ofEntries entries = .error fault) :
    fault.isBadValue = true := by
  obtain ⟨entry, -, hentry⟩ := exists_entry_of_fault h
  exact ofEntry_fault hentry

/-- The fixes of a reply can be read unless an entry is spoiled. -/
theorem ofEntries_ok_iff (entries : List Value) :
    (∃ fixes, ofEntries entries = .ok fixes) ↔ ∀ entry ∈ entries, ¬ IsSpoiled entry := by
  induction entries with
  | nil => simp [ofEntries]
  | cons entry rest ih =>
    rw [ofEntries_cons, ofEntries_single, List.forall_mem_cons, ← ih]
    rcases ofEntry_cases entry with ⟨fix, hread, -, -, hgood⟩ | ⟨fault, hread, hspoiled⟩
    · rw [hread]
      cases ofEntries rest with
      | error fault => simp [Except.map, ok_bind]
      | ok more => simpa [Except.map, ok_bind] using hgood
    · rw [hread]
      simp [Except.map, error_bind, hspoiled]

/-- Entries do not touch each other: the fixes of a reply are those of its entries read one by one,
in order, and they can be told just where no entry is spoiled. An entry brings at most one fix, a tidy
one, and brings one if it is usable. -/
theorem entries_are_isolated (entries : List Value) :
    ((∃ fixes, ofEntries entries = .ok fixes) ↔ ∀ entry ∈ entries, ¬ IsSpoiled entry) ∧
      ofEntries entries = (entries.mapM fun entry => ofEntries [entry]).map List.flatten ∧
        ∀ entry ∈ entries, ∀ fixes, ofEntries [entry] = .ok fixes →
          fixes.length ≤ 1 ∧ (fixes ≠ [] ↔ IsUsable entry) ∧ ∀ f ∈ fixes, f.IsTidy := by
  refine ⟨ofEntries_ok_iff entries, ofEntries_eq_mapM entries, ?_⟩
  intro entry _ fixes hfixes
  rw [ofEntries_single] at hfixes
  rcases ofEntry_cases entry with ⟨fix, hread, hsome, htidy, -⟩ | ⟨fault, hread, -⟩
  · rw [hread] at hfixes
    obtain rfl := Except.ok.inj hfixes
    refine ⟨Option.length_toList_le, ?_, fun f hf => htidy f (Option.mem_toList.mp hf)⟩
    rw [← hsome, ne_eq, Option.toList_eq_nil_iff]
  · rw [hread] at hfixes
    exact absurd hfixes (by simp [Except.map])

/-- An entry about a line, with blanks around its texts and capitals in its severity. -/
def spacedEntry : Value := .object [
  ("file", .text " a.py"), ("line", .text " 12 "), ("comment", .text "Handle zero\n"),
  ("severity", .text "Warning ")]

/-- An entry with a line of one digit that is no decimal one. -/
def squaredEntry : Value := .object [
  ("file", .text "b.py"), ("line", .text "²"), ("comment", .text "Rename")]

/-- What an entry says is kept beside one that is no object. -/
theorem entries_are_isolated_spaced :
    let fix : Fix :=
      { file := .text "a.py", line := .int 12, comment := "Handle zero", severity := .warning }
    ofEntries [.text "none", spacedEntry] = .ok [fix] ∧ fix.IsTidy ∧ IsUsable spacedEntry := by
  intro fix
  have hread : ofEntries [spacedEntry] = .ok [fix] := by decide
  obtain ⟨-, hall, heach⟩ := entries_are_isolated [.text "none", spacedEntry]
  obtain ⟨-, husable, htidy⟩ := heach spacedEntry (by simp) [fix] hread
  refine ⟨?_, htidy fix (by simp), husable.mp (by simp)⟩
  rw [hall]
  simp only [List.mapM_cons, List.mapM_nil, hread]
  rfl

/-- It is lost beside one with such a line. -/
theorem fixes_lost :
    (∃ fixes, ofEntries [spacedEntry] = .ok fixes ∧ fixes ≠ []) ∧
      ¬ ∃ fixes, ofEntries [spacedEntry, squaredEntry] = .ok fixes := by
  constructor
  · exact ⟨_, rfl, by simp⟩
  · rw [ofEntries_ok_iff]
    intro hgood
    have hodd : HasOddDigits (.text "²") :=
      ⟨"²", rfl, by decide, List.all_eq_true.mp (by decide), .inl ⟨'²', by decide, by decide⟩⟩
    exact hgood squaredEntry (by simp) ⟨_, "b.py", "Rename", rfl, ⟨⟨rfl, rfl⟩, rfl, rfl⟩, hodd⟩

end ChangeReview.Fix
