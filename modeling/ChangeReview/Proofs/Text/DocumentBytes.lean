import ChangeReview.Text.Encoding

/-!
# Documents in bytes

The encoding of a document is told by its first bytes. A document that begins with two plain
characters, as every one does that opens a bracket and a quote, is read as UTF-8.
-/
namespace ChangeReview.Text

/-- A character of one byte other than zero. -/
def IsPlain (c : Char) : Prop := 0 < c.toNat ∧ c.toNat < 128

instance (c : Char) : Decidable (IsPlain c) := inferInstanceAs (Decidable (_ ∧ _))

/-- The text begins with two plain characters. -/
def StartsPlain : Text → Prop
  | c :: d :: _ => IsPlain c ∧ IsPlain d
  | _ => False

instance : (t : Text) → Decidable (StartsPlain t)
  | c :: d :: _ => inferInstanceAs (Decidable (IsPlain c ∧ IsPlain d))
  | [] | [_] => .isFalse id

/-- A plain character is encoded by one byte of its number. -/
theorem IsPlain.exists_byte {c : Char} (h : IsPlain c) :
    ∃ b : UInt8, String.utf8EncodeChar c = [b] ∧ 0 < b.toNat ∧ b.toNat < 128 := by
  have hnat : (UInt8.ofNat c.toNat).toNat = c.toNat := by
    rw [UInt8.toNat_ofNat', Nat.mod_eq_of_lt (Nat.lt_trans h.2 (by decide))]
  exact ⟨UInt8.ofNat c.toNat, if_pos (Nat.le_of_lt_succ h.2), by rw [hnat]; exact h⟩

/-- No byte order mark begins like a plain text. -/
theorem isPrefixOf_mark {a : UInt8} (ha : 0 < a.toNat ∧ a.toNat < 128) (r : List UInt8) :
    ∀ m ∈ byteOrderMarks, m.1.isPrefixOf (a :: r) = false := by
  have hmarks : ∀ m ∈ byteOrderMarks,
      ∃ b rest, m.1 = b :: rest ∧ (b.toNat = 0 ∨ 128 ≤ b.toNat) := by
    simp [byteOrderMarks]
  intro m hm
  obtain ⟨b, rest, hmark, hb⟩ := hmarks m hm
  have hne : b ≠ a := by
    rintro rfl
    omega
  rw [hmark, List.isPrefixOf, beq_eq_false_iff_ne.mpr hne, Bool.false_and]

theorem detectEncoding_plain {a b : UInt8} (ha : 0 < a.toNat ∧ a.toNat < 128) (hb : 0 < b.toNat)
    (r : List UInt8) : detectEncoding (a :: b :: r) = (.utf8, a :: b :: r) := by
  have hzero : ∀ {n : UInt8}, 0 < n.toNat → (n == 0) = false := by
    intro n hn
    refine beq_eq_false_iff_ne.mpr ?_
    rintro rfl
    exact absurd hn (by decide)
  have hmark : byteOrderMarks.find? (fun m => m.1.isPrefixOf (a :: b :: r)) = none :=
    List.find?_eq_none.mpr fun m hm => by rw [isPrefixOf_mark ha (b :: r) m hm]; simp
  have hutf8 : unmarkedEncoding (a :: b :: r) = .utf8 := by
    rcases r with _ | ⟨c, _ | ⟨d, r⟩⟩
    · simp [unmarkedEncoding, hzero ha.1, hzero hb]
    · rfl
    · simp [unmarkedEncoding, hzero ha.1, hzero hb]
  unfold detectEncoding
  rw [hmark, hutf8]

/-- A text that begins with two plain characters is read as it is. -/
theorem ofDocumentBytes_toUtf8 : {t : Text} → StartsPlain t →
    ofDocumentBytes (toUtf8 t).data.toList = .ok t
  | c :: d :: t, ⟨hc, hd⟩ => by
    have hbytes : (toUtf8 (c :: d :: t)).data.toList =
        String.utf8EncodeChar c ++ (String.utf8EncodeChar d ++ (toUtf8 t).data.toList) := by
      simp [toUtf8, List.utf8Encode]
    obtain ⟨a, hencoded, ha⟩ := hc.exists_byte
    obtain ⟨b, hencoded', hb⟩ := hd.exists_byte
    have hutf8 : detectEncoding (toUtf8 (c :: d :: t)).data.toList =
        (.utf8, (toUtf8 (c :: d :: t)).data.toList) := by
      rw [hbytes, hencoded, hencoded']
      exact detectEncoding_plain ha hb.1 _
    unfold ofDocumentBytes
    rw [hutf8]
    dsimp only
    rw [Array.toArray_toList]
    unfold ofSequences
    have hdecoded : String.fromUTF8? (toUtf8 (c :: d :: t)) = some (String.ofList (c :: d :: t)) :=
      dif_pos (String.ofList (c :: d :: t)).isValidUTF8
    rw [hdecoded]
    simp

end ChangeReview.Text
