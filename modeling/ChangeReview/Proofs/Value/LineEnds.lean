import ChangeReview.Proofs.Value.RoundTrip
import ChangeReview.Text.Encoding
import ChangeReview.Text.Basic

/-!
# Line ends in documents

A document that is written has no carriage return: texts have theirs escaped, and words, numbers and
layouts have none. Its bytes are therefore read as the text that was written.
-/
namespace ChangeReview

namespace Text

/-- The text has no carriage return. -/
def NoReturn (t : Text) : Prop := '\r' ∉ t

instance (t : Text) : Decidable (NoReturn t) := inferInstanceAs (Decidable (_ ∉ _))

namespace NoReturn

variable {s t : Text}

theorem append (hs : NoReturn s) (ht : NoReturn t) : NoReturn (s ++ t) := by
  unfold NoReturn at *
  rw [List.mem_append]
  rintro (h | h)
  · exact hs h
  · exact ht h

theorem cons {c : Char} (hc : c ≠ '\r') (ht : NoReturn t) : NoReturn (c :: t) := by
  unfold NoReturn at *
  rw [List.mem_cons]
  rintro (h | h)
  · exact hc h.symm
  · exact ht h

theorem flatMap {α : Type} {f : α → Text} {xs : List α} (h : ∀ x ∈ xs, NoReturn (f x)) :
    NoReturn (xs.flatMap f) := by
  intro hmem
  obtain ⟨x, hx, hc⟩ := List.mem_flatMap.mp hmem
  exact h x hx hc

theorem of_atom (h : Value.IsAtom t) : NoReturn t := fun hmem => absurd (h '\r' hmem) (by decide)

theorem replicate (n : Nat) {c : Char} (hc : c ≠ '\r') : NoReturn (List.replicate n c) :=
  fun hmem => hc (List.eq_of_mem_replicate hmem).symm

theorem intercalate {sep : Text} {parts : List Text} (hsep : NoReturn sep)
    (h : ∀ p ∈ parts, NoReturn p) : NoReturn (Text.join sep parts) :=
  not_mem_join hsep h

end NoReturn

/-- Every character but a carriage return is read as it is. -/
theorem normalizeNewlines_cons {c : Char} (hc : c ≠ '\r') (t : Text) :
    normalizeNewlines (c :: t) = c :: normalizeNewlines t := by
  conv => lhs; unfold normalizeNewlines
  split
  · next heq => exact absurd heq (List.cons_ne_nil c t)
  · next heq => exact absurd (List.cons.inj heq).1 hc
  · next heq => exact absurd (List.cons.inj heq).1 hc
  · next heq =>
    obtain ⟨rfl, rfl⟩ := List.cons.inj heq
    rfl

/-- A text without carriage returns is read as it is. -/
theorem normalizeNewlines_eq {t : Text} (h : NoReturn t) : normalizeNewlines t = t := by
  induction t with
  | nil => rfl
  | cons c t ih =>
    have hc : c ≠ '\r' := fun heq => h (heq ▸ List.mem_cons_self)
    rw [normalizeNewlines_cons hc, ih fun hmem => h (List.mem_cons_of_mem c hmem)]

/-- What ends a line of a text file. -/
def lineEnds : List Text := ["\n", "\r\n", "\r"]

/-- The digits of a number are digits of its base. -/
theorem exists_digit_of_mem_toDigits {base n : Nat} (hbase : 1 < base) {c : Char}
    (h : c ∈ Nat.toDigits base n) : ∃ d < base, c = Nat.digitChar d := by
  induction n using Nat.strongRecOn with
  | ind n ih =>
    by_cases hsmall : n < base
    · rw [Nat.toDigits_of_lt_base hsmall, List.mem_singleton] at h
      exact ⟨n, hsmall, h⟩
    · rw [Nat.toDigits_of_base_le hbase (Nat.not_lt.mp hsmall), List.mem_append] at h
      rcases h with h | h
      · exact ih (n / base) (Nat.div_lt_self (by omega) hbase) h
      · rw [List.mem_singleton] at h
        exact ⟨n % base, Nat.mod_lt n (by omega), h⟩

theorem exists_digit_of_mem_ofHex {width n : Nat} {c : Char} (h : c ∈ ofHex width n) :
    ∃ d < 16, c = Nat.digitChar d := by
  rcases List.mem_append.mp h with hzero | hdigit
  · exact ⟨0, by decide, (List.mem_replicate.mp hzero).2⟩
  · exact exists_digit_of_mem_toDigits (by decide) hdigit

/-- The bytes of a text are those of this text. -/
theorem ofUtf8_toUtf8 (t : Text) : ofUtf8 (toUtf8 t) = .ok t := by
  have hdecoded : String.fromUTF8? (toUtf8 t) = some (String.ofList t) :=
    dif_pos (String.ofList t).isValidUTF8
  unfold ofUtf8 ofSequences
  rw [hdecoded]
  simp

end Text

namespace Decimal

open Value (IsAtom isAtom_append isAtom_ofNat)

theorem isAtom_of_subset {s t : Text} (h : s ⊆ t) (ht : IsAtom t) : IsAtom s := fun c hc => ht c (h hc)

theorem isAtom_zeros (n : Nat) : IsAtom (List.replicate n '0') := by
  intro c hc
  rw [List.eq_of_mem_replicate hc]
  rfl

theorem isAtom_layOut {digits : Text} (h : IsAtom digits) (point : Int) :
    IsAtom (layOut digits point) := by
  have htake : ∀ n, IsAtom (digits.take n) := fun n => isAtom_of_subset (List.take_subset n digits) h
  have hdrop : ∀ n, IsAtom ('.' :: digits.drop n) := by
    intro n
    rw [← List.singleton_append, isAtom_append]
    exact ⟨by decide, isAtom_of_subset (List.drop_subset n digits) h⟩
  unfold layOut
  dsimp only
  split
  · simp only [isAtom_append]
    refine ⟨⟨⟨⟨htake 1, ?_⟩, ?_⟩, isAtom_zeros _⟩, isAtom_ofNat _⟩
    · split
      · exact fun c hc => absurd hc List.not_mem_nil
      · exact hdrop 1
    · split <;> decide
  · split
    · simp only [isAtom_append]
      exact ⟨⟨by decide, isAtom_zeros _⟩, h⟩
    · split
      · simp only [isAtom_append]
        exact ⟨⟨h, isAtom_zeros _⟩, by decide⟩
      · rw [isAtom_append]
        exact ⟨htake _, hdrop _⟩

theorem isAtom_shortestDigits (m : Nat) (e : Int) : IsAtom (shortestDigits m e).1 := by
  have htrimmed : ∀ n, IsAtom ((Text.ofNat n).reverse.dropWhile (· == '0')).reverse := by
    intro n c hc
    refine isAtom_ofNat n c ?_
    exact List.mem_reverse.mp (List.dropWhile_subset _ (List.mem_reverse.mp hc))
  exact htrimmed _

/-- A double is written in the characters of words and numbers. -/
theorem isAtom_shortest (x : Float) : IsAtom (shortest documentSpelling x) := by
  have hsign : ∀ negative : Bool, IsAtom (if negative then ['-'] else []) := by decide
  unfold shortest
  split
  · decide
  · rw [isAtom_append]
    exact ⟨hsign _, by decide⟩
  · dsimp only
    rw [isAtom_append]
    refine ⟨hsign _, isAtom_layOut ?_ _⟩
    split
    · decide
    · exact isAtom_shortestDigits _ _

end Decimal

namespace Value

open Text (NoReturn)

theorem noReturn_ofHex (width n : Nat) : NoReturn (Text.ofHex width n) := by
  have hdigit : ∀ d < 16, Nat.digitChar d ≠ '\r' := by decide
  intro hmem
  obtain ⟨d, hd, heq⟩ := Text.exists_digit_of_mem_ofHex hmem
  exact hdigit d hd heq.symm

theorem noReturn_unitEscape (c : Char) : NoReturn (unitEscape c) := by
  unfold unitEscape
  dsimp only
  split
  · exact NoReturn.append (by decide) (noReturn_ofHex _ _)
  · exact ((NoReturn.append (by decide) (noReturn_ofHex _ _)).append (by decide)).append
      (noReturn_ofHex _ _)

theorem noReturn_escapeChar (c : Char) : NoReturn (escapeChar c) := by
  by_cases hreturn : c = '\r'
  · subst hreturn
    decide
  · unfold escapeChar
    repeat' split
    case isFalse.isFalse.isFalse.isFalse.isFalse.isFalse.isFalse.isFalse => exact noReturn_unitEscape c
    case isFalse.isFalse.isFalse.isFalse.isFalse.isFalse.isFalse.isTrue =>
      exact NoReturn.cons hreturn List.not_mem_nil
    all_goals decide

theorem noReturn_writeText (t : Text) : NoReturn (writeText t) :=
  ((NoReturn.flatMap fun c _ => noReturn_escapeChar c).append (by decide)).cons (by decide)

section Layouts

variable {unit : Text}

theorem noReturn_break (hunit : NoReturn unit) (depth : Nat) : NoReturn ((Layout.indented unit).break depth) := by
  refine NoReturn.cons (by decide) ?_
  intro hmem
  obtain ⟨u, hu, hc⟩ := List.mem_flatten.mp hmem
  rw [List.eq_of_mem_replicate hu] at hc
  exact hunit hc

theorem noReturn_enclose (hunit : NoReturn unit) (depth : Nat) {opening closing : Char} (hopening : opening ≠ '\r')
    (hclosing : closing ≠ '\r') {items : List Text} (h : ∀ w ∈ items, NoReturn w) :
    NoReturn ((Layout.indented unit).enclose depth opening closing items) := by
  have hclose : NoReturn [closing] := NoReturn.cons hclosing List.not_mem_nil
  unfold Layout.enclose
  split
  · exact NoReturn.cons hopening hclose
  · refine NoReturn.append (NoReturn.append (NoReturn.append ?_ ?_) ?_) hclose
    · exact NoReturn.cons hopening (noReturn_break hunit _)
    · exact NoReturn.intercalate (NoReturn.cons (by decide) (noReturn_break hunit _)) h
    · exact noReturn_break hunit _

mutual

theorem noReturn_writeAt (hunit : NoReturn unit) (depth : Nat) :
    (v : Value) → NoReturn (writeAt (.indented unit) depth v)
  | null => by unfold writeAt; decide
  | bool true => by unfold writeAt; decide
  | bool false => by unfold writeAt; decide
  | int n => by
    unfold writeAt
    exact NoReturn.of_atom (isAtom_ofInt n)
  | float x => by
    unfold writeAt
    exact NoReturn.of_atom (Decimal.isAtom_shortest x)
  | text t => by
    unfold writeAt
    exact noReturn_writeText t
  | list items => by
    unfold writeAt
    exact noReturn_enclose hunit depth (by decide) (by decide)
      (noReturn_writeItems hunit (depth + 1) items)
  | object ms => by
    unfold writeAt
    exact noReturn_enclose hunit depth (by decide) (by decide)
      (noReturn_writeMembers hunit (depth + 1) ms)

theorem noReturn_writeItems (hunit : NoReturn unit) (depth : Nat) :
    (items : List Value) → ∀ w ∈ writeItems (.indented unit) depth items, NoReturn w
  | [] => fun _ hw => absurd hw List.not_mem_nil
  | v :: rest => by
    intro w hw
    rcases List.mem_cons.mp hw with rfl | hw
    · exact noReturn_writeAt hunit depth v
    · exact noReturn_writeItems hunit depth rest w hw

theorem noReturn_writeMembers (hunit : NoReturn unit) (depth : Nat) :
    (ms : List (Text × Value)) → ∀ w ∈ writeMembers (.indented unit) depth ms, NoReturn w
  | [] => fun _ hw => absurd hw List.not_mem_nil
  | (key, v) :: rest => by
    intro w hw
    rcases List.mem_cons.mp hw with rfl | hw
    · exact ((noReturn_writeText key).append (by decide)).append
        (noReturn_writeAt hunit depth v)
    · exact noReturn_writeMembers hunit depth rest w hw

end

end Layouts

/-- A document behind spaces is read as it was written. -/
theorem normalizeNewlines_write (width : Nat) (v : Value) :
    Text.normalizeNewlines (write (.spaces width) v) = write (.spaces width) v :=
  Text.normalizeNewlines_eq
    (noReturn_writeAt (NoReturn.replicate width (by decide)) 0 v)

end Value

end ChangeReview
