import ChangeReview.Proofs.Reply.Balance
import ChangeReview.Reply.Document

/-!
# Documents in prose

A reply is often one document with prose around it. The document is found behind any prose without
an opening bracket and without a quote, in front of any text at all: fences are taken off, the reply
as a whole is no document, and the first balanced stretch is the document. Prose can be in its way
only by a whole number that has more digits than are read.
-/
namespace ChangeReview.Reply

open Value (Apart skipGap)

/-! ## Prose -/

/-- The text opens no bracket and no quote. -/
def IsPlainText (t : Text) : Prop := ∀ c ∈ t, c ≠ '\x7b' ∧ c ≠ '[' ∧ c ≠ '"'

instance (t : Text) : Decidable (IsPlainText t) := List.decidableBAll _ t

/-- What may stand in front of a document: a plain text, the first line of which ends if it opens a
fence. -/
structure IsProse (p : Text) : Prop where
  plain : IsPlainText p
  fenced : Text.startsWith (Text.trimLeft p) fence = true → '\n' ∈ Text.trimLeft p

/-- The prose without blanks in front and without the line of its fence. -/
def proseBody (p : Text) : Text :=
  let start := Text.trimLeft p
  if Text.startsWith start fence then (Text.cut '\n' start).2.getD [] else start

/-- The text starts with a whole number that has more digits than are read. -/
def Overlong (t : Text) : Prop :=
  ∃ digits, Value.parse t = .error (.tooManyDigits Decimal.maxDigits digits)

theorem proseBody_of_not_fenced {p : Text} (h : ¬ Text.startsWith (Text.trimLeft p) fence = true) :
    proseBody p = Text.trimLeft p := if_neg h

/-- Prose with a fence is cut behind the line of the fence, whatever follows. -/
theorem IsProse.cut_fence {p : Text} (hp : IsProse p)
    (hfence : Text.startsWith (Text.trimLeft p) fence = true) :
    ∃ front, Text.trimLeft p = front ++ '\n' :: proseBody p ∧
      ∀ t, Text.cut '\n' (Text.trimLeft p ++ t) = (front, some (proseBody p ++ t)) := by
  obtain ⟨front, r, hsplit, hcut⟩ := Text.exists_cut (hp.fenced hfence)
  have hstart := hcut []
  rw [List.append_nil, List.append_nil] at hstart
  have hbody : proseBody p = r := by
    unfold proseBody
    dsimp only
    rw [if_pos hfence, hstart]
    rfl
  rw [hbody]
  exact ⟨front, hsplit, hcut⟩

theorem IsProse.plain_proseBody {p : Text} (hp : IsProse p) : IsPlainText (proseBody p) := by
  have htrim : Text.trimLeft p ⊆ p := List.dropWhile_subset _
  by_cases hfence : Text.startsWith (Text.trimLeft p) fence = true
  · obtain ⟨front, hsplit, -⟩ := hp.cut_fence hfence
    rw [hsplit] at htrim
    exact fun c hc => hp.plain c (htrim (by simp [hc]))
  · rw [proseBody_of_not_fenced hfence]
    exact fun c hc => hp.plain c (htrim hc)

variable {opening closing : Char} {v : Value} {t : Text}

namespace IsDocument

/-- The brackets of a document are no blanks and no part of a fence or a word. -/
theorem isBlank_brackets (h : IsDocument opening closing v t) :
    Text.isBlank opening = false ∧ Text.isBlank closing = false ∧ opening ∉ fence ∧
      closing ∉ fence ∧ Value.isAtomChar opening = false := by
  cases h.brackets <;> decide

theorem trimRight_around (h : IsDocument opening closing v t) (p s : Text) :
    Text.trimRight (p ++ (t ++ s)) = p ++ (t ++ Text.trimRight s) := by
  obtain ⟨-, hclosing, -⟩ := h.isBlank_brackets
  obtain ⟨body, rfl⟩ := h.enclosed
  have hright := Text.trimRight_append hclosing (p ++ opening :: body) s
  simpa using hright

/-- Only what stands around a document is trimmed. -/
theorem trim_around (h : IsDocument opening closing v t) (p s : Text) :
    Text.trim (p ++ (t ++ s)) = Text.trimLeft p ++ (t ++ Text.trimRight s) := by
  rw [Text.trim, ← h.trimRight_around]
  obtain ⟨hopening, -⟩ := h.isBlank_brackets
  obtain ⟨body, rfl⟩ := h.enclosed
  exact congrArg Text.trimRight (Text.trimLeft_append_cons hopening p _)

theorem startsWith_fence (h : IsDocument opening closing v t) (p s : Text) :
    Text.startsWith (p ++ (t ++ s)) fence = Text.startsWith p fence := by
  obtain ⟨-, -, hopening, -⟩ := h.isBlank_brackets
  obtain ⟨body, rfl⟩ := h.enclosed
  exact Text.startsWith_append_cons hopening p _

theorem exists_of_endsWith_fence (h : IsDocument opening closing v t) {p s : Text}
    (hends : Text.endsWith (p ++ (t ++ s)) fence = true) : ∃ r, s = r ++ fence := by
  obtain ⟨-, -, -, hclosing, -⟩ := h.isBlank_brackets
  obtain ⟨body, rfl⟩ := h.enclosed
  have hsplit : p ++ (opening :: body ++ [closing] ++ s) = p ++ opening :: body ++ closing :: s := by
    simp
  rw [hsplit] at hends
  exact Text.endsWith_append_cons hclosing hends

/-- Taking a fence off keeps the document. -/
theorem stripFence (h : IsDocument opening closing v t) {p : Text} (hp : IsProse p) (s : Text) :
    ∃ s', stripFence (p ++ (t ++ s)) = proseBody p ++ (t ++ s') := by
  unfold Reply.stripFence
  dsimp only
  rw [h.trim_around, h.startsWith_fence]
  by_cases hfence : Text.startsWith (Text.trimLeft p) fence = true
  · obtain ⟨front, -, hcut⟩ := hp.cut_fence hfence
    rw [if_pos hfence, hcut]
    dsimp only
    split
    · next hends =>
      obtain ⟨r, hr⟩ := h.exists_of_endsWith_fence hends
      have hsplit : proseBody p ++ (t ++ Text.trimRight s) = proseBody p ++ (t ++ r) ++ fence := by
        simp [hr]
      rw [hsplit, List.length_append, Nat.add_sub_cancel, List.take_left, h.trimRight_around]
      exact ⟨_, rfl⟩
    · exact ⟨_, rfl⟩
  · rw [if_neg hfence, proseBody_of_not_fenced hfence]
    exact ⟨_, rfl⟩

/-- The document is the first balanced stretch behind a text without its opening bracket. -/
theorem firstSpan (h : IsDocument opening closing v t) {p : Text} (hp : ∀ c ∈ p, c ≠ opening)
    (s : Text) : firstSpan opening closing (p ++ (t ++ s)) = some t := by
  have hspan := h.isSpan s
  rw [firstSpan_behind fun hmem => hp opening hmem rfl]
  obtain ⟨body, rfl⟩ := h.enclosed
  exact firstSpan_of_isSpan hspan

end IsDocument

/-! ## Reading the whole reply -/

/-- A plain text is blank, or a word or number is read from it. -/
theorem parse_plain {b : Text} (hb : IsPlainText b) (hne : skipGap b ≠ []) (u : Text) :
    Value.parse (b ++ u) =
      match Value.readAtom (skipGap b ++ u) with
      | .error fault => .error fault
      | .ok (w, r) => if (skipGap r).isEmpty then .ok w else .error .notJson := by
  obtain ⟨c, r, hgap⟩ := List.exists_cons_of_ne_nil hne
  have hc : c ∈ b := List.dropWhile_subset _ (hgap ▸ List.mem_cons_self)
  obtain ⟨hobject, hlist, hquote⟩ := hb c hc
  have hread : Value.readValue (2 * (b ++ u).length + 2) Value.maxDepth (skipGap (b ++ u)) =
      Value.readAtom (skipGap b ++ u) := by
    rw [Value.skipGap_append_of_ne_nil hne, hgap, List.cons_append,
      Value.readValue_plain hquote hlist hobject]
  rw [← hread]
  rfl

theorem parse_gap {b : Text} (hb : skipGap b = []) : Value.parse b = .error .notJson := by
  rw [Value.parse, hb, Value.readValue_nil]

theorem isBlank_of_isGap {c : Char} (hc : Value.isGap c = true) : Text.isBlank c = true := by
  simp only [Value.isGap, Bool.or_eq_true, beq_iff_eq] at hc
  rcases hc with ((rfl | rfl) | rfl) | rfl <;> decide

theorem tooManyDigits_ne_notJson (limit digits : Nat) :
    Fault.tooManyDigits limit digits ≠ .notJson := nofun

/-- A plain text that is no document is none for its form, or for a number that it has room for. -/
theorem parse_plain_fault {b : Text} (hb : IsPlainText b) {fault : Fault}
    (h : Value.parse b = .error fault) :
    fault = .notJson ∨ (Overlong b ∧ Decimal.maxDigits < b.length) := by
  by_cases hne : skipGap b = []
  · rw [parse_gap hne] at h
    exact .inl (Except.error.inj h).symm
  · have hread := parse_plain hb hne []
    rw [List.append_nil, List.append_nil, h] at hread
    have houtcome := Value.readAtom_outcome (skipGap b)
    generalize Value.readAtom (skipGap b) = outcome at hread houtcome
    cases houtcome with
    | read _ _ _ =>
      dsimp only at hread
      split at hread
      · exact absurd hread (by simp)
      · exact .inl (Except.error.inj hread)
    | none => exact .inl (Except.error.inj hread)
    | long hlong hlength =>
      obtain rfl := Except.error.inj hread
      have hgap : (skipGap b).length ≤ b.length := (List.dropWhile_suffix _).length_le
      exact .inr ⟨⟨_, h⟩, by omega⟩

/-- Too long a number takes a long text. -/
theorem Overlong.length_lt {b : Text} (hb : IsPlainText b) (h : Overlong b) :
    Decimal.maxDigits < b.length := by
  obtain ⟨digits, h⟩ := h
  exact ((parse_plain_fault hb h).resolve_left (tooManyDigits_ne_notJson _ _)).2

namespace IsDocument

theorem apart (h : IsDocument opening closing v t) (s : Text) : Apart (t ++ s) := by
  obtain ⟨-, -, -, -, hatom⟩ := h.isBlank_brackets
  obtain ⟨body, rfl⟩ := h.enclosed
  exact Value.apart_cons.mpr hatom

theorem skipGap_ne_nil (h : IsDocument opening closing v t) (r s : Text) :
    Value.skipGap (r ++ (t ++ s)) ≠ [] := by
  intro hnil
  have hall := List.dropWhile_eq_nil_iff.mp hnil
  have hopening := h.isGap_opening.1
  obtain ⟨body, rfl⟩ := h.enclosed
  exact absurd (hall opening (by simp)) (by simp [hopening])

/-- Behind a gap the reply is the document, if nothing but a gap follows. -/
theorem parse_behind_gap (h : IsDocument opening closing v t) {b : Text}
    (hb : Value.skipGap b = []) (s : Text) :
    Value.parse (b ++ (t ++ s)) =
      if (Value.skipGap s).isEmpty then .ok v else .error .notJson := by
  have hgap : Value.skipGap (b ++ (t ++ s)) = t ++ s := by
    rw [Value.skipGap_append (List.dropWhile_eq_nil_iff.mp hb), h.skipGap]
  rw [Value.parse, hgap, h.readValue_append (by simp; omega)]

/-- Behind any other plain text it is none, for the reason that the text itself gives. -/
theorem parse_behind_plain (h : IsDocument opening closing v t) {b : Text} (hb : IsPlainText b)
    (hne : Value.skipGap b ≠ []) (s : Text) :
    Value.parse (b ++ (t ++ s)) =
      match Value.parse b with
      | .error fault => .error fault
      | .ok _ => .error .notJson := by
  have hread := parse_plain hb hne []
  rw [List.append_nil, List.append_nil] at hread
  rw [parse_plain hb hne, Value.readAtom_behind (h.apart s), hread]
  cases Value.readAtom (Value.skipGap b) with
  | error fault => rfl
  | ok x =>
    obtain ⟨w, r⟩ := x
    have hrest : (Value.skipGap (r ++ (t ++ s))).isEmpty = false :=
      List.isEmpty_eq_false_iff.mpr (h.skipGap_ne_nil r s)
    simp only [Except.map, Value.behind, hrest]
    cases (Value.skipGap r).isEmpty <;> rfl

/-- Where the prose is refused for too long a number, so is the reply. -/
theorem parse_behind_overlong (h : IsDocument opening closing v t) {b : Text} (hb : IsPlainText b)
    {digits : Nat} (hlong : Value.parse b = .error (.tooManyDigits Decimal.maxDigits digits))
    (s : Text) : Value.parse (b ++ (t ++ s)) = .error (.tooManyDigits Decimal.maxDigits digits) := by
  have hne : Value.skipGap b ≠ [] := by
    intro hnil
    rw [parse_gap hnil] at hlong
    exact tooManyDigits_ne_notJson _ _ (Except.error.inj hlong).symm
  rw [h.parse_behind_plain hb hne, hlong]

/-- Where it is not, the reply is the document or none. -/
theorem parse_behind (h : IsDocument opening closing v t) {b : Text} (hb : IsPlainText b)
    (hshort : ¬ Overlong b) (s : Text) :
    Value.parse (b ++ (t ++ s)) = .ok v ∨ Value.parse (b ++ (t ++ s)) = .error .notJson := by
  by_cases hne : Value.skipGap b = []
  · rw [h.parse_behind_gap hne]
    split
    · exact .inl rfl
    · exact .inr rfl
  · rw [h.parse_behind_plain hb hne]
    cases hparse : Value.parse b with
    | ok _ => exact .inr rfl
    | error fault =>
      obtain rfl := (parse_plain_fault hb hparse).resolve_right fun hlong => hshort hlong.1
      exact .inr rfl

end IsDocument

/-! ## The document of a reply -/

/-- The document is found unless the prose is too long a number, which is the fault then. -/
theorem extract_prose (h : IsDocument opening closing v t) {p : Text} (hp : IsProse p)
    (shape s : Text) :
    (¬ Overlong (proseBody p) → extract opening closing shape (p ++ (t ++ s)) = .ok v) ∧
      ∀ digits, Value.parse (proseBody p) = .error (.tooManyDigits Decimal.maxDigits digits) →
        extract opening closing shape (p ++ (t ++ s)) =
          .error (.tooManyDigits Decimal.maxDigits digits) := by
  obtain ⟨s', hstrip⟩ := h.stripFence hp s
  have hbody := hp.plain_proseBody
  unfold extract
  dsimp only
  rw [hstrip]
  constructor
  · intro hshort
    rcases h.parse_behind hbody hshort s' with hparse | hparse
    · rw [hparse]
    · have hopening : ∀ c ∈ proseBody p, c ≠ opening := by
        intro c hc
        obtain ⟨hobject, hlist, -⟩ := hbody c hc
        cases h.brackets with
        | list _ => exact hlist
        | object _ => exact hobject
      rw [hparse]
      dsimp only
      rw [h.firstSpan hopening]
      exact h.parse
  · intro digits hlong
    rw [h.parse_behind_overlong hbody hlong]
    rfl

/-- The document is what is read just where the prose is not too long a number. -/
theorem extract_prose_iff (h : IsDocument opening closing v t) {p : Text} (hp : IsProse p)
    (shape s : Text) :
    extract opening closing shape (p ++ (t ++ s)) = .ok v ↔ ¬ Overlong (proseBody p) := by
  obtain ⟨hfound, hlost⟩ := extract_prose h hp shape s
  refine ⟨?_, hfound⟩
  rintro hok ⟨digits, hlong⟩
  rw [hlost digits hlong] at hok
  exact absurd hok (by simp)

/-- A value, or a refusal for depth, is that of the whole reply, or that of its first balanced
stretch where the whole is no document. -/
theorem extract_eq_iff {shape t : Text} {outcome : Except Fault Value}
    (hfault : ∀ fault, outcome = .error fault → ∃ part, fault = .tooDeep part) :
    extract opening closing shape t = outcome ↔
      Value.parse (Reply.stripFence t) = outcome ∨
        Value.parse (Reply.stripFence t) = .error .notJson ∧ ∃ span,
          firstSpan opening closing (Reply.stripFence t) = some span ∧
            Value.parse span = outcome := by
  have hform : Except.error Fault.notJson ≠ outcome := by
    rintro rfl
    obtain ⟨part, hpart⟩ := hfault _ rfl
    exact absurd hpart (by simp)
  have hnone : ∀ message, Except.error (Fault.invalid message) ≠ outcome := by
    rintro message rfl
    obtain ⟨part, hpart⟩ := hfault _ rfl
    exact absurd hpart (by simp)
  unfold extract
  dsimp only
  generalize Reply.stripFence t = u
  split
  · next hparse => simp [hparse]
  · next hparse =>
    rw [hparse]
    cases hspan : Reply.firstSpan opening closing u with
    | none => simp [hform, hnone]
    | some span => simp [hform]
  · next fault hother hparse =>
    have hform : fault ≠ .notJson := hother
    simp [hparse, hform]

theorem extractObject_eq_ok {t : Text} {ms : List (Text × Value)} :
    extractObject t = .ok ms ↔ extract '\x7b' '\x7d' "object" t = .ok (.object ms) := by
  unfold extractObject
  split
  · next h => rw [h, Except.ok.injEq, Except.ok.injEq, Value.object.injEq]
  · next hother h =>
    rw [h]
    exact ⟨nofun, fun heq => (hother ms (Except.ok.inj heq)).elim⟩
  · next h =>
    rw [h]
    exact ⟨nofun, nofun⟩

theorem extractList_eq_ok {t : Text} {items : List Value} :
    extractList t = .ok items ↔ extract '[' ']' "array" t = .ok (.list items) := by
  unfold extractList
  split
  · next h => rw [h, Except.ok.injEq, Except.ok.injEq, Value.list.injEq]
  · next hother h =>
    rw [h]
    exact ⟨nofun, fun heq => (hother items (Except.ok.inj heq)).elim⟩
  · next h =>
    rw [h]
    exact ⟨nofun, nofun⟩

/-- The list of a reply is the whole of it, or its first balanced stretch. -/
theorem extractList_eq_ok_iff {t : Text} {items : List Value} :
    extractList t = .ok items ↔
      Value.parse (stripFence t) = .ok (.list items) ∨
        Value.parse (stripFence t) = .error .notJson ∧ ∃ span,
          firstSpan '[' ']' (stripFence t) = some span ∧ Value.parse span = .ok (.list items) := by
  rw [extractList_eq_ok, extract_eq_iff (by simp)]

/-- The list of a reply nests too deep if the whole of it does, or its first balanced stretch. -/
theorem extractList_eq_tooDeep_iff {t part : Text} :
    extractList t = .error (.tooDeep part) ↔
      Value.parse (stripFence t) = .error (.tooDeep part) ∨
        Value.parse (stripFence t) = .error .notJson ∧ ∃ span,
          firstSpan '[' ']' (stripFence t) = some span ∧
            Value.parse span = .error (.tooDeep part) := by
  have hextract := @extract_eq_iff '[' ']' "array" t (.error (.tooDeep part)) (by simp)
  rw [← hextract, extractList]
  split
  · next h =>
    rw [h]
    simp
  · next h =>
    rw [h]
    simp [wrongShape]
  · next h =>
    rw [h]
    simp

/-- A written object is found behind prose and in front of anything, and so is a written list, just
where the prose is not too long a number. -/
theorem document_in_prose {p : Text} (hp : IsProse p) (s : Text) :
    (∀ layout ms, Value.parse (Value.write layout (.object ms)) = .ok (.object ms) →
      (extractObject (p ++ Value.write layout (.object ms) ++ s) = .ok ms ↔
        ¬ Overlong (proseBody p))) ∧
    ∀ layout items, Value.parse (Value.write layout (.list items)) = .ok (.list items) →
      (extractList (p ++ Value.write layout (.list items) ++ s) = .ok items ↔
        ¬ Overlong (proseBody p)) := by
  refine ⟨fun layout ms hparse => ?_, fun layout items hparse => ?_⟩
  · rw [List.append_assoc, extractObject_eq_ok]
    exact extract_prose_iff (isDocument_write (.object ms) hparse) hp "object" s
  · rw [List.append_assoc, extractList_eq_ok]
    exact extract_prose_iff (isDocument_write (.list items) hparse) hp "array" s

/-- An object in a fence with brackets inside its texts, behind a line of prose and in front of
another object. -/
theorem document_in_prose_fenced :
    let p : Text := "```json\nHere are 12 of them:\n"
    let s : Text := "\n```\nor \x7b\x7d"
    let ms : List (Text × Value) := [("a]", .list [.int 1, .text "\x7d\"["])]
    let t : Text := Value.write (.spaces 2) (.object ms)
    (IsProse p ∧ Value.parse t = .ok (.object ms) ∧ ¬ Overlong (proseBody p)) ∧
      extractObject (p ++ t ++ s) = .ok ms := by
  intro p s ms t
  have hp : IsProse p := ⟨by decide, by decide⟩
  have hparse : Value.parse t = .ok (.object ms) := by decide
  have hshort : ¬ Overlong (proseBody p) := fun h =>
    absurd (h.length_lt hp.plain_proseBody) (by decide)
  exact ⟨⟨hp, hparse, hshort⟩, ((document_in_prose hp s).1 (.spaces 2) ms hparse).mpr hshort⟩

/-- A whole number with too many digits is refused whatever ends it. -/
theorem readValue_numeral_long {digits rest : Text} (h : Value.IsNumeral digits)
    (hlong : Decimal.maxDigits < digits.length) (hrest : Apart rest) (fuel depth : Nat) :
    Value.skipGap (digits ++ rest) = digits ++ rest ∧
      Value.readValue (fuel + 1) depth (digits ++ rest) =
        .error (.tooManyDigits Decimal.maxDigits digits.length) := by
  have hnumber : Value.readNumber false (digits ++ rest) =
      .error (.tooManyDigits Decimal.maxDigits digits.length) := by
    rw [Value.readNumber, Value.readWhole?_append h hrest]
    simp only [Value.readFraction_apart hrest, Value.readPower_apart hrest, List.isEmpty_nil,
      Option.isNone_none, Bool.and_self, if_true]
    rw [if_pos hlong]
  rcases digits with _ | ⟨c, digits⟩
  · exact absurd rfl h.nonempty
  · have hdigit := h.allDigits c List.mem_cons_self
    have hatom := Value.isAtomChar_digit hdigit
    rw [List.cons_append] at hnumber ⊢
    refine ⟨Value.skipGap_cons (Value.isGap_of_isAtomChar hatom) _, ?_⟩
    rw [Value.readValue_of_isAtomChar hatom, Value.readAtom_digit hdigit, hnumber]

theorem parse_numeral_long {digits rest : Text} (h : Value.IsNumeral digits)
    (hlong : Decimal.maxDigits < digits.length) (hrest : Apart rest) :
    Value.parse (digits ++ rest) = .error (.tooManyDigits Decimal.maxDigits digits.length) := by
  obtain ⟨hgap, hread⟩ :=
    readValue_numeral_long h hlong hrest (2 * (digits ++ rest).length + 1) Value.maxDepth
  rw [Value.parse, hgap, hread]

/-- A numeral is prose, and all of it is read. -/
theorem isProse_numeral {digits : Text} (h : Value.IsNumeral digits) :
    IsProse digits ∧ proseBody digits = digits := by
  have hne : ∀ {c d : Char}, c ∈ digits → Text.isAsciiDigit d = false → c ≠ d := by
    rintro c d hc hd rfl
    exact Bool.noConfusion (hd.symm.trans (h.allDigits c hc))
  rcases digits with _ | ⟨c, digits⟩
  · exact absurd rfl h.nonempty
  · have hblank : Text.isBlank c = false := by
      have hdigit := h.allDigits c List.mem_cons_self
      simp only [Text.isAsciiDigit, Bool.and_eq_true, decide_eq_true_eq] at hdigit
      have hlow : 48 ≤ c.toNat := Char.le_def.mp hdigit.1
      have hhigh : c.toNat ≤ 57 := Char.le_def.mp hdigit.2
      simp only [Text.isBlank, Bool.or_eq_false_iff, Bool.and_eq_false_iff, decide_eq_false_iff_not,
        beq_eq_false_iff_ne]
      omega
    have htrim : Text.trimLeft (c :: digits) = c :: digits :=
      List.dropWhile_cons_of_neg (by simp [hblank])
    have hfence : Text.startsWith (c :: digits) fence = false :=
      Text.startsWith_cons_ne (hne List.mem_cons_self (by decide)).symm digits _
    refine ⟨⟨fun d hd => ⟨hne hd (by decide), hne hd (by decide), hne hd (by decide)⟩, ?_⟩, ?_⟩
    · rw [htrim, hfence]
      exact fun h => absurd h Bool.false_ne_true
    · rw [proseBody_of_not_fenced (by simp [htrim, hfence]), htrim]

theorem isNumeral_ones (n : Nat) : Value.IsNumeral (List.replicate (n + 1) '1') where
  nonempty := by simp
  allDigits c hc := by
    rw [List.eq_of_mem_replicate hc]
    decide
  lead h := by
    rw [List.replicate_succ] at h
    exact absurd h (by simp)

/-- An object behind too long a number is not found. -/
theorem document_lost :
    ¬ ∀ (p s : Text) (ms : List (Text × Value)), IsProse p →
      Value.parse (Value.writeLine (.object ms)) = .ok (.object ms) →
        extractObject (p ++ Value.writeLine (.object ms) ++ s) = .ok ms := by
  intro h
  have hfound := h (List.replicate (Decimal.maxDigits + 1) '1') [] []
  have hnumeral := isNumeral_ones Decimal.maxDigits
  have hlength : Decimal.maxDigits < (List.replicate (Decimal.maxDigits + 1) '1').length := by
    rw [List.length_replicate]
    exact Nat.lt_succ_self _
  generalize List.replicate (Decimal.maxDigits + 1) '1' = ones at hfound hnumeral hlength
  obtain ⟨hprose, hbody⟩ := isProse_numeral hnumeral
  have hparse : Value.parse (Value.writeLine (.object [])) = .ok (.object []) := rfl
  have hlong := parse_numeral_long hnumeral hlength Value.apart_nil
  rw [List.append_nil, ← hbody] at hlong
  have hfound := hfound hprose hparse
  rw [List.append_assoc, extractObject_eq_ok, Value.writeLine,
    extract_prose_iff (isDocument_write (.object []) hparse) hprose] at hfound
  exact hfound ⟨_, hlong⟩

end ChangeReview.Reply
