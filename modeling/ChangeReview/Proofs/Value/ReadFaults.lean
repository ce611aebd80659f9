import ChangeReview.Proofs.Value.Locality

/-!
# Faults of the reader

A text that is no document is refused for its form, for a number with too many digits, or for
brackets that nest too deep. Nothing else can happen to a text that is read, and the last two happen
only to a text that has such a number or so many brackets.
-/
namespace ChangeReview

/-- A fault that a reader of documents can have. -/
def Fault.IsOfReader (fault : Fault) : Prop :=
  fault.isBadValue = true ∨ ∃ part, fault = .tooDeep part

theorem Fault.isOfReader_tooDeep (part : Text) : (tooDeep part).IsOfReader := .inr ⟨part, rfl⟩

theorem Fault.IsOfReader.tooDeep {fault : Fault} (h : fault.IsOfReader)
    (hbad : fault.isBadValue = false) : ∃ part, fault = .tooDeep part := by
  rcases h with h | h
  · exact Bool.noConfusion (hbad.symm.trans h)
  · exact h

theorem Fault.ne_tooDeep {fault : Fault} (hbad : fault.isBadValue = true) (part : Text) :
    fault ≠ .tooDeep part := by
  rintro rfl
  exact Bool.noConfusion hbad

namespace Value

/-- The character opens a list or an object. -/
def isOpening (c : Char) : Bool := c == '[' || c == '\x7b'

/-- Why a reader refuses a text in which brackets may still nest to the given depth, with what in
the text it is refused for. -/
inductive Refusal (depth : Nat) (t : Text) : Fault → Prop where
  | form : Refusal depth t .notJson
  | long {run : Text} (hrun : run <:+: t) (hdigits : ∀ c ∈ run, Text.isAsciiDigit c = true)
      (hlong : Decimal.maxDigits < run.length) :
      Refusal depth t (.tooManyDigits Decimal.maxDigits run.length)
  | deep (part : Text) (hdeep : depth < t.countP isOpening) : Refusal depth t (.tooDeep part)

namespace Refusal

variable {depth : Nat} {s t : Text} {fault : Fault}

theorem isOfReader (h : Refusal depth t fault) : fault.IsOfReader := by
  cases h with
  | form => exact .inl rfl
  | long => exact .inl rfl
  | deep part => exact Fault.isOfReader_tooDeep part

/-- What is refused for a part of a text is refused for the text. -/
theorem mono (h : Refusal depth s fault) (hpart : s <:+: t) : Refusal depth t fault := by
  cases h with
  | form => exact .form
  | long hrun hdigits hlong => exact .long (hrun.trans hpart) hdigits hlong
  | deep part hdeep => exact .deep part (hdeep.trans_le (hpart.sublist.countP_le))

/-- Behind a bracket, brackets nest one less deep. -/
theorem behind {c : Char} (hc : isOpening c = true) (h : Refusal depth t fault) :
    Refusal (depth + 1) (c :: t) fault := by
  cases h with
  | form => exact .form
  | long hrun hdigits hlong => exact .long (hrun.trans (List.suffix_cons c t).isInfix) hdigits hlong
  | deep part hdeep =>
    refine .deep part ?_
    rw [List.countP_cons_of_pos hc]
    exact Nat.succ_lt_succ hdeep

end Refusal

/-! ## What is left behind a value -/

theorem skipGap_suffix (t : Text) : skipGap t <:+ t := List.dropWhile_suffix _

theorem suffix_of_skipGap {t r : Text} {c : Char} (h : skipGap t = c :: r) : r <:+ t :=
  (List.suffix_cons c r).trans (h ▸ skipGap_suffix t)

theorem suffix_of_readText? {fuel : Nat} {t s rest : Text}
    (h : readText? fuel t = some (s, rest)) : rest <:+ t := by
  obtain ⟨body, -, rfl⟩ := readText?_inQuotes h
  exact (List.suffix_cons _ _).trans (List.suffix_append _ _)

theorem suffix_of_readAtom {t rest : Text} {v : Value} (h : readAtom t = .ok (v, rest)) :
    rest <:+ t := by
  obtain ⟨-, front, -, -, rfl⟩ := exists_of_readAtom h
  exact List.suffix_append _ _

/-- The readers leave ends of the text. -/
theorem read_suffix (fuel : Nat) :
    (∀ {depth t v rest}, readValue fuel depth t = .ok (v, rest) → rest <:+ t) ∧
      (∀ {depth done t v rest}, readItems fuel depth done t = .ok (v, rest) → rest <:+ t) ∧
        ∀ {depth done t v rest}, readMembers fuel depth done t = .ok (v, rest) → rest <:+ t := by
  induction fuel with
  | zero =>
    refine ⟨?_, ?_, ?_⟩
    · intro depth t v rest h
      rw [readValue] at h
      exact absurd h (by simp)
    · intro depth done t v rest h
      rw [readItems] at h
      exact absurd h (by simp)
    · intro depth done t v rest h
      rw [readMembers] at h
      exact absurd h (by simp)
  | succ fuel ih =>
    obtain ⟨hvalues, hitems, hmembers⟩ := ih
    have hmember : ∀ {depth t key w rest}, ReadsMember fuel depth t key w rest → rest <:+ t := by
      rintro depth t key w rest ⟨r, r₁, r₂, rfl, hkey, hcolon, hw⟩
      have hvalue : rest <:+ r₂ := (hvalues hw).trans (skipGap_suffix _)
      have hrest : r₂ <:+ r := (suffix_of_skipGap hcolon).trans (suffix_of_readText? hkey)
      exact (hvalue.trans hrest).trans (List.suffix_cons _ _)
    refine ⟨?_, ?_, ?_⟩
    · intro depth t v rest h
      cases readValue_succ_eq_ok_iff.mp h with
      | text hs => exact (suffix_of_readText? hs).trans (List.suffix_cons _ _)
      | emptyList hgap | emptyObject hgap =>
        exact (suffix_of_skipGap hgap).trans (List.suffix_cons _ _)
      | list _ hread =>
        exact ((hitems hread).trans (skipGap_suffix _)).trans (List.suffix_cons _ _)
      | object _ hread =>
        exact ((hmembers hread).trans (skipGap_suffix _)).trans (List.suffix_cons _ _)
      | atom _ hread => exact suffix_of_readAtom hread
    · intro depth done t v rest h
      cases readItems_succ_eq_ok_iff.mp h with
      | more hw hgap hread =>
        exact (((hitems hread).trans (skipGap_suffix _)).trans (suffix_of_skipGap hgap)).trans
          (hvalues hw)
      | last hw hgap => exact (suffix_of_skipGap hgap).trans (hvalues hw)
    · intro depth done t v rest h
      cases readMembers_succ_eq_ok_iff.mp h with
      | more hw hgap hread =>
        exact (((hmembers hread).trans (skipGap_suffix _)).trans (suffix_of_skipGap hgap)).trans
          (hmember hw)
      | last hw hgap => exact (suffix_of_skipGap hgap).trans (hmember hw)

/-! ## Refusals -/

theorem readWhole?_digits {t digits rest : Text} (h : readWhole? t = some (digits, rest)) :
    ∀ c ∈ digits, Text.isAsciiDigit c = true := by
  unfold readWhole? at h
  split at h
  · obtain ⟨rfl, -⟩ := Prod.mk.inj (Option.some.inj h)
    exact List.forall_mem_singleton.mpr rfl
  · split at h
    · exact absurd h (by simp)
    · have hdigits : (takeDigits t).1 = digits := congrArg Prod.fst (Option.some.inj h)
      rw [takeDigits, List.span_eq_takeWhile_dropWhile] at hdigits
      intro c hc
      exact List.mem_takeWhile_imp (hdigits ▸ hc)

theorem readNumber_refusal {depth : Nat} {negative : Bool} {t : Text} {fault : Fault}
    (h : readNumber negative t = .error fault) : Refusal depth t fault := by
  unfold readNumber at h
  split at h
  · obtain rfl := Except.error.inj h
    exact .form
  · next whole rest hwhole =>
    dsimp only at h
    split at h
    · split at h
      · next hlong =>
        obtain rfl := Except.error.inj h
        obtain ⟨hsplit, -⟩ := readWhole?_length hwhole
        refine .long ?_ (readWhole?_digits hwhole) hlong
        rw [hsplit]
        exact (List.prefix_append _ _).isInfix
      · exact absurd h (by simp)
    · exact absurd h (by simp)

theorem readAtom_refusal {depth : Nat} {t : Text} {fault : Fault}
    (h : readAtom t = .error fault) : Refusal depth t fault := by
  unfold readAtom at h
  split at h
  case h_4 =>
    split at h
    case h_4 =>
      split at h
      · exact (readNumber_refusal h).mono (List.suffix_cons _ _).isInfix
      · exact readNumber_refusal h
    all_goals exact absurd h (by simp)
  all_goals exact absurd h (by simp)

/-- The readers with some fuel refuse a value, a row of items and a row of members for what is in
them. -/
def Refuses (fuel : Nat) : Prop :=
  (∀ {depth t fault}, readValue fuel depth t = .error fault → Refusal depth t fault) ∧
    (∀ {depth done t fault}, readItems fuel depth done t = .error fault → Refusal depth t fault) ∧
      ∀ {depth done t fault}, readMembers fuel depth done t = .error fault → Refusal depth t fault

section Steps

variable {fuel depth : Nat} {t : Text} {fault : Fault}

theorem Refuses.value (hfuel : Refuses fuel) (h : readValue (fuel + 1) depth t = .error fault) :
    Refusal depth t fault := by
  obtain ⟨-, hitems, hmembers⟩ := hfuel
  unfold readValue at h
  split at h
  · split at h
    · exact absurd h (by simp)
    · obtain rfl := Except.error.inj h
      exact .form
  · obtain rfl := Except.error.inj h
    exact .deep _ (by simp [isOpening])
  · split at h
    · exact absurd h (by simp)
    · exact ((hitems h).mono (skipGap_suffix _).isInfix).behind rfl
  · obtain rfl := Except.error.inj h
    exact .deep _ (by simp [isOpening])
  · split at h
    · exact absurd h (by simp)
    · exact ((hmembers h).mono (skipGap_suffix _).isInfix).behind rfl
  · exact readAtom_refusal h

theorem Refuses.items (hfuel : Refuses fuel) {done : List Value}
    (h : readItems (fuel + 1) depth done t = .error fault) : Refusal depth t fault := by
  obtain ⟨hvalues, hitems, -⟩ := hfuel
  rw [readItems] at h
  split at h
  · next hv =>
    obtain rfl := Except.error.inj h
    exact hvalues hv
  · next hv =>
    split at h
    · next hgap =>
      have hrest := ((skipGap_suffix _).trans (suffix_of_skipGap hgap)).trans ((read_suffix _).1 hv)
      exact (hitems h).mono hrest.isInfix
    · exact absurd h (by simp)
    · obtain rfl := Except.error.inj h
      exact .form

theorem Refuses.members (hfuel : Refuses fuel) {done : List (Text × Value)}
    (h : readMembers (fuel + 1) depth done t = .error fault) : Refusal depth t fault := by
  obtain ⟨hvalues, -, hmembers⟩ := hfuel
  have hform : ∀ {f : Fault}, (Except.error .notJson : Except Fault (Value × Text)) = .error f →
      Refusal depth t f := by
    intro f hf
    obtain rfl := Except.error.inj hf
    exact .form
  unfold readMembers at h
  split at h
  · split at h
    · exact hform h
    · next hkey =>
      split at h
      · next hcolon =>
        have hbehind := ((skipGap_suffix _).trans (suffix_of_skipGap hcolon)).trans
          ((suffix_of_readText? hkey).trans (List.suffix_cons '"' _))
        split at h
        · next hv =>
          obtain rfl := Except.error.inj h
          exact (hvalues hv).mono hbehind.isInfix
        · next hv =>
          split at h
          · next hgap =>
            have hrest := ((skipGap_suffix _).trans (suffix_of_skipGap hgap)).trans
              ((read_suffix _).1 hv)
            exact (hmembers h).mono (hrest.trans hbehind).isInfix
          · exact absurd h (by simp)
          · exact hform h
      · exact hform h
  · exact hform h

end Steps

/-- With any fuel the readers refuse a text for what is in it. -/
theorem refuses (fuel : Nat) : Refuses fuel := by
  induction fuel with
  | zero =>
    refine ⟨?_, ?_, ?_⟩
    · intro depth t fault h
      rw [readValue] at h
      exact Except.error.inj h ▸ .form
    · intro depth done t fault h
      rw [readItems] at h
      exact Except.error.inj h ▸ .form
    · intro depth done t fault h
      rw [readMembers] at h
      exact Except.error.inj h ▸ .form
  | succ fuel ih => exact ⟨ih.value, ih.items, ih.members⟩

/-- A text that is no document is refused for its form, its size or its depth. -/
theorem parse_refusal {t : Text} {fault : Fault} (h : parse t = .error fault) :
    Refusal maxDepth t fault := by
  rw [parse] at h
  split at h
  · next hread =>
    obtain rfl := Except.error.inj h
    exact ((refuses _).1 hread).mono (skipGap_suffix t).isInfix
  · split at h
    · exact absurd h (by simp)
    · obtain rfl := Except.error.inj h
      exact .form

/-- Nothing but a bad value or too deep a text keeps a text from being read. -/
theorem parse_fault {t : Text} {fault : Fault} (h : parse t = .error fault) : fault.IsOfReader :=
  (parse_refusal h).isOfReader

/-- The text has no run of digits that is longer than numerals may be, and no more brackets than may
nest. -/
structure IsModest (t : Text) : Prop where
  runs : ∀ run, run <:+: t → (∀ c ∈ run, Text.isAsciiDigit c = true) → run.length ≤ Decimal.maxDigits
  brackets : t.countP isOpening ≤ maxDepth

theorem IsModest.mono {s t : Text} (h : IsModest t) (hs : s <:+: t) : IsModest s where
  runs run hrun := h.runs run (hrun.trans hs)
  brackets := hs.sublist.countP_le.trans h.brackets

/-- A short text has neither. -/
theorem isModest_of_length_le {t : Text} (h : t.length ≤ maxDepth) : IsModest t where
  runs _ hrun _ := (hrun.length_le.trans h).trans (by decide)
  brackets := List.countP_le_length.trans h

/-- A text without long numbers and deep brackets can be refused for its form alone. -/
theorem IsModest.parse_error {t : Text} (ht : IsModest t) {fault : Fault}
    (h : parse t = .error fault) : fault = .notJson := by
  cases parse_refusal h with
  | form => rfl
  | long hrun hdigits hlong => exact absurd (ht.runs _ hrun hdigits) (Nat.not_le_of_lt hlong)
  | deep part hdeep => exact absurd ht.brackets (Nat.not_le_of_lt hdeep)

end Value

end ChangeReview
