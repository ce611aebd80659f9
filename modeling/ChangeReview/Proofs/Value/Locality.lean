import ChangeReview.Proofs.Value.Truncation

/-!
# What the reader does not see

The reader of a word or number sees nothing behind the first character that is none of theirs, and
the reader of a whole value sees nothing behind it: what was read in front of one text is read in
front of any longer one. Only behind a word or number must stand something that ends it.

What is read with one more unit of fuel is said once for each of the three readers: the successful
runs of a reader are those of its steps, each with what it found in the text and with the runs that
it went on to.
-/
namespace ChangeReview.Value

/-! ## Steps -/

section Runs

/-- The ways to read a value, from the text and the depth on to the value and the rest. -/
inductive ValueStep (k : Nat) : (depth : Nat) → (t : Text) → Value → (rest : Text) → Prop where
  | text {depth : Nat} {r s rest : Text} : readText? (r.length + 1) r = some (s, rest) →
      ValueStep k depth ('"' :: r) (text s) rest
  | emptyList {depth : Nat} {r rest : Text} : skipGap r = ']' :: rest →
      ValueStep k (depth + 1) ('[' :: r) (list []) rest
  | list {depth : Nat} {r rest : Text} {v : Value} : (∀ r', skipGap r ≠ ']' :: r') →
      readItems k depth [] (skipGap r) = .ok (v, rest) → ValueStep k (depth + 1) ('[' :: r) v rest
  | emptyObject {depth : Nat} {r rest : Text} : skipGap r = '\x7d' :: rest →
      ValueStep k (depth + 1) ('\x7b' :: r) (object []) rest
  | object {depth : Nat} {r rest : Text} {v : Value} : (∀ r', skipGap r ≠ '\x7d' :: r') →
      readMembers k depth [] (skipGap r) = .ok (v, rest) →
        ValueStep k (depth + 1) ('\x7b' :: r) v rest
  | atom {depth : Nat} {c : Char} {t rest : Text} {v : Value} : isAtomChar c = true →
      readAtom (c :: t) = .ok (v, rest) → ValueStep k depth (c :: t) v rest

/-- The ways to read on in a list behind `done`. -/
inductive ItemsStep (k depth : Nat) (done : List Value) : (t : Text) → Value → (rest : Text) → Prop
    where
  | more {t r r' rest : Text} {w v : Value} : readValue k depth t = .ok (w, r) →
      skipGap r = ',' :: r' → readItems k depth (w :: done) (skipGap r') = .ok (v, rest) →
        ItemsStep k depth done t v rest
  | last {t r rest : Text} {w : Value} : readValue k depth t = .ok (w, r) →
      skipGap r = ']' :: rest → ItemsStep k depth done t (list (w :: done).reverse) rest

/-- A member is read: its key, its value and the rest. -/
def ReadsMember (k depth : Nat) (t key : Text) (w : Value) (rest : Text) : Prop :=
  ∃ r r₁ r₂, t = '"' :: r ∧ readText? (r.length + 1) r = some (key, r₁) ∧
    skipGap r₁ = ':' :: r₂ ∧ readValue k depth (skipGap r₂) = .ok (w, rest)

/-- The ways to read on in an object behind `done`. -/
inductive MembersStep (k depth : Nat) (done : List (Text × Value)) :
    (t : Text) → Value → (rest : Text) → Prop where
  | more {t key r r' rest : Text} {w v : Value} : ReadsMember k depth t key w r →
      skipGap r = ',' :: r' → readMembers k depth (put key w done) (skipGap r') = .ok (v, rest) →
        MembersStep k depth done t v rest
  | last {t key r rest : Text} {w : Value} : ReadsMember k depth t key w r →
      skipGap r = '\x7d' :: rest → MembersStep k depth done t (object (put key w done)) rest

variable {k depth : Nat} {t rest : Text} {v : Value}

/-- A word or number that is read is a scalar, and its characters are taken. -/
theorem exists_of_readAtom (h : readAtom t = .ok (v, rest)) :
    IsScalar v ∧ ∃ front, IsAtom front ∧ front ≠ [] ∧ t = front ++ rest := by
  have houtcome := readAtom_outcome t
  rw [h] at houtcome
  cases houtcome with
  | read hscalar hne htakes =>
    obtain ⟨front, hfront, rfl⟩ := htakes
    exact ⟨hscalar, front, hfront, fun hnil => hne (by rw [hnil, List.nil_append]), rfl⟩

theorem readValue_succ_eq_ok_iff :
    readValue (k + 1) depth t = .ok (v, rest) ↔ ValueStep k depth t v rest := by
  constructor
  · intro h
    unfold readValue at h
    split at h
    · split at h
      · next hs =>
        obtain ⟨rfl, rfl⟩ := Prod.mk.inj (Except.ok.inj h)
        exact .text hs
      · exact absurd h (by simp)
    · exact absurd h (by simp)
    · split at h
      · next hgap =>
        obtain ⟨rfl, rfl⟩ := Prod.mk.inj (Except.ok.inj h)
        exact .emptyList hgap
      · next hgap => exact .list hgap h
    · exact absurd h (by simp)
    · split at h
      · next hgap =>
        obtain ⟨rfl, rfl⟩ := Prod.mk.inj (Except.ok.inj h)
        exact .emptyObject hgap
      · next hgap => exact .object hgap h
    · obtain ⟨-, front, hfront, hne, rfl⟩ := exists_of_readAtom h
      obtain ⟨c, r, rfl⟩ := List.exists_cons_of_ne_nil hne
      exact .atom (hfront c List.mem_cons_self) h
  · intro h
    cases h with
    | text hs => rw [readValue, hs]
    | emptyList hgap => simp only [readValue, hgap]
    | list hgap hread =>
      rw [readValue]
      split
      · next heq => exact absurd heq (hgap _)
      · exact hread
    | emptyObject hgap => simp only [readValue, hgap]
    | object hgap hread =>
      rw [readValue]
      split
      · next heq => exact absurd heq (hgap _)
      · exact hread
    | atom hc hread => rwa [readValue_of_isAtomChar hc]

theorem readItems_succ_eq_ok_iff {done : List Value} :
    readItems (k + 1) depth done t = .ok (v, rest) ↔ ItemsStep k depth done t v rest := by
  rw [readItems]
  constructor
  · intro h
    split at h
    · exact absurd h (by simp)
    · next hw =>
      split at h
      · next hgap => exact .more hw hgap h
      · next hgap =>
        obtain ⟨rfl, rfl⟩ := Prod.mk.inj (Except.ok.inj h)
        exact .last hw hgap
      · exact absurd h (by simp)
  · intro h
    cases h with
    | more hw hgap hread => simp only [hw, hgap, hread]
    | last hw hgap => simp only [hw, hgap]

theorem readMembers_succ_eq_ok_iff {done : List (Text × Value)} :
    readMembers (k + 1) depth done t = .ok (v, rest) ↔ MembersStep k depth done t v rest := by
  constructor
  · intro h
    unfold readMembers at h
    split at h
    · split at h
      · exact absurd h (by simp)
      · next hkey =>
        split at h
        · next hcolon =>
          split at h
          · exact absurd h (by simp)
          · next hw =>
            split at h
            · next hgap => exact .more ⟨_, _, _, rfl, hkey, hcolon, hw⟩ hgap h
            · next hgap =>
              obtain ⟨rfl, rfl⟩ := Prod.mk.inj (Except.ok.inj h)
              exact .last ⟨_, _, _, rfl, hkey, hcolon, hw⟩ hgap
            · exact absurd h (by simp)
        · exact absurd h (by simp)
    · exact absurd h (by simp)
  · intro h
    cases h with
    | more hmember hgap hread =>
      obtain ⟨r, r₁, r₂, rfl, hkey, hcolon, hw⟩ := hmember
      simp only [readMembers, hkey, hcolon, hw, hgap, hread]
    | last hmember hgap =>
      obtain ⟨r, r₁, r₂, rfl, hkey, hcolon, hw⟩ := hmember
      simp only [readMembers, hkey, hcolon, hw, hgap]

/-- A document is a value behind blanks, with nothing but blanks behind it. -/
theorem parse_eq_ok_iff :
    parse t = .ok v ↔ ∃ rest, readValue (2 * t.length + 2) maxDepth (skipGap t) = .ok (v, rest) ∧
      skipGap rest = [] := by
  unfold parse
  cases readValue (2 * t.length + 2) maxDepth (skipGap t) with
  | error fault => simp
  | ok x =>
    obtain ⟨w, rest⟩ := x
    by_cases hrest : skipGap rest = [] <;> simp [hrest]

end Runs

variable {α : Type}

/-- What was read, with more text behind the rest. -/
def behind (u : Text) (x : α × Text) : α × Text := (x.1, x.2 ++ u)

/-! ## Words and numbers -/

theorem Apart.head_ne {u : Text} (hu : Apart u) {c d : Char} {r : Text} (h : u = c :: r)
    (hd : isAtomChar d = true) : d ≠ c := by
  subst h
  exact isAtomChar_ne hd (apart_cons.mp hu)

section Atoms

variable {u : Text} (hu : Apart u)

include hu

theorem dropPrefix?_behind {p : Text} (hp : IsAtom p) (w : Text) :
    Text.dropPrefix? p (w ++ u) = (Text.dropPrefix? p w).map (· ++ u) := by
  induction p generalizing w with
  | nil => rfl
  | cons a p ih =>
    cases w with
    | nil =>
      cases u with
      | nil => rfl
      | cons c u =>
        exact Text.dropPrefix?_cons_ne (hu.head_ne rfl (hp a List.mem_cons_self)) p u
    | cons b w =>
      rw [List.cons_append, Text.dropPrefix?, Text.dropPrefix?]
      split
      · exact ih (fun c hc => hp c (List.mem_cons_of_mem a hc)) w
      · rfl

theorem takeDigits_behind (w : Text) : takeDigits (w ++ u) = behind u (takeDigits w) := by
  induction w with
  | nil => exact takeDigits_append (List.forall_mem_nil _) hu
  | cons c w ih =>
    simp only [behind, takeDigits, List.span_eq_takeWhile_dropWhile, Prod.mk.injEq] at ih ⊢
    by_cases hc : Text.isAsciiDigit c = true
    · simp [hc, ih]
    · simp [hc]

theorem takeSign_behind (w : Text) : Decimal.takeSign (w ++ u) = behind u (Decimal.takeSign w) := by
  cases w with
  | nil =>
    show Decimal.takeSign u = (false, u)
    unfold Decimal.takeSign
    split
    · exact absurd rfl (hu.head_ne rfl (by decide))
    · exact absurd rfl (hu.head_ne rfl (by decide))
    · rfl
  | cons c w =>
    rw [List.cons_append]
    unfold Decimal.takeSign
    by_cases hminus : c = '-'
    · subst hminus
      rfl
    · by_cases hplus : c = '+'
      · subst hplus
        rfl
      · split
        · next h => exact absurd (List.cons.inj h).1 hminus
        · next h => exact absurd (List.cons.inj h).1 hplus
        · split
          · next h => exact absurd (List.cons.inj h).1 hminus
          · next h => exact absurd (List.cons.inj h).1 hplus
          · rfl

omit hu in
theorem readWhole?_of_ne {t : Text} (h : ∀ r, t ≠ '0' :: r) :
    readWhole? t = if (takeDigits t).1 = [] then none else some (takeDigits t) := by
  unfold readWhole?
  split
  · next r => exact absurd rfl (h r)
  · split
    · next heq => rw [heq, if_pos rfl]
    · next hne =>
      rw [if_neg]
      exact fun hnil => hne (takeDigits t).2 (Prod.ext hnil rfl)

theorem readWhole?_behind (w : Text) : readWhole? (w ++ u) = (readWhole? w).map (behind u) := by
  by_cases hzero : ∃ r, w = '0' :: r
  · obtain ⟨r, rfl⟩ := hzero
    rfl
  · have hw : ∀ r, w ≠ '0' :: r := fun r h => hzero ⟨r, h⟩
    have hwu : ∀ r, w ++ u ≠ '0' :: r := by
      intro r h
      cases w with
      | nil => exact absurd rfl (hu.head_ne h (by decide))
      | cons c w => exact hw w (by rw [(List.cons.inj h).1])
    rw [readWhole?_of_ne hw, readWhole?_of_ne hwu, takeDigits_behind hu]
    show (if (takeDigits w).1 = [] then none else _) = _
    split <;> rfl

theorem readFraction_behind (w : Text) : readFraction (w ++ u) = behind u (readFraction w) := by
  cases w with
  | nil => exact readFraction_apart hu
  | cons c w =>
    by_cases hpoint : c = '.'
    · subst hpoint
      rw [List.cons_append]
      simp only [readFraction, takeDigits_behind hu w, behind]
      rcases takeDigits w with ⟨_ | ⟨d, digits⟩, rest⟩ <;> rfl
    · have hnone : ∀ t, readFraction (c :: t) = ([], c :: t) := by
        intro t
        unfold readFraction
        split
        · next h => exact absurd (List.cons.inj h).1 hpoint
        · rfl
      rw [List.cons_append, hnone, hnone]
      rfl

theorem readPower_behind (w : Text) : readPower (w ++ u) = behind u (readPower w) := by
  cases w with
  | nil => exact readPower_apart hu
  | cons c w =>
    rw [List.cons_append]
    simp only [readPower]
    split
    · rw [takeSign_behind hu w]
      simp only [behind, takeDigits_behind hu (Decimal.takeSign w).2]
      rcases takeDigits (Decimal.takeSign w).2 with ⟨_ | ⟨d, digits⟩, rest⟩ <;> rfl
    · rfl

theorem readNumber_behind (negative : Bool) (w : Text) :
    readNumber negative (w ++ u) = (readNumber negative w).map (behind u) := by
  unfold readNumber
  rw [readWhole?_behind hu]
  cases readWhole? w with
  | none => rfl
  | some number =>
    obtain ⟨whole, rest⟩ := number
    simp only [Option.map_some, behind, readFraction_behind hu, readPower_behind hu]
    split
    · split <;> rfl
    · rfl

/-- A word or number ends where something stands that is apart from it. -/
theorem readAtom_behind (w : Text) : readAtom (w ++ u) = (readAtom w).map (behind u) := by
  unfold readAtom
  rw [dropPrefix?_behind hu (p := "null") (by decide), dropPrefix?_behind hu (p := "true") (by decide),
    dropPrefix?_behind hu (p := "false") (by decide), dropPrefix?_behind hu (p := "NaN") (by decide),
    dropPrefix?_behind hu (p := "Infinity") (by decide),
    dropPrefix?_behind hu (p := "-Infinity") (by decide)]
  cases Text.dropPrefix? "null" w with
  | some r => rfl
  | none =>
  cases Text.dropPrefix? "true" w with
  | some r => rfl
  | none =>
  cases Text.dropPrefix? "false" w with
  | some r => rfl
  | none =>
  cases Text.dropPrefix? "NaN" w with
  | some r => rfl
  | none =>
  cases Text.dropPrefix? "Infinity" w with
  | some r => rfl
  | none =>
  cases Text.dropPrefix? "-Infinity" w with
  | some r => rfl
  | none =>
    simp only [Option.map_none]
    split
    · next r heq =>
      cases w with
      | nil => exact absurd rfl (hu.head_ne heq (by decide))
      | cons c w =>
        obtain ⟨rfl, rfl⟩ := List.cons.inj heq
        exact readNumber_behind hu true w
    · next hne =>
      split
      · next r => exact absurd rfl (hne (r ++ u))
      · exact readNumber_behind hu false w

end Atoms

/-- A word or number that was read is read alike in front of any text that ends it. -/
theorem readAtom_append {t rest u : Text} {v : Value} (h : readAtom t = .ok (v, rest))
    (hu : Apart (rest ++ u)) : readAtom (t ++ u) = .ok (v, rest ++ u) := by
  obtain ⟨-, front, -, -, rfl⟩ := exists_of_readAtom h
  have hrest : Apart rest := hu.front (List.prefix_append rest u)
  rw [readAtom_behind hrest] at h
  obtain ⟨⟨w, left⟩, hfront, heq⟩ := exists_of_map_eq_ok h
  obtain ⟨rfl, hnil⟩ := Prod.mk.inj heq
  obtain rfl : left = [] := List.append_left_eq_self.mp hnil
  rw [List.append_assoc, readAtom_behind hu, hfront]
  rfl

/-! ## Texts -/

theorem hexUnit?_append {t rest : Text} {n : Nat} (h : hexUnit? t = some (n, rest)) (u : Text) :
    hexUnit? (t ++ u) = some (n, rest ++ u) := by
  unfold hexUnit? at h
  split at h
  · simp only [Option.bind_eq_bind, Option.bind_eq_some_iff, Option.some.injEq, Prod.mk.injEq] at h
    obtain ⟨_, ha, _, hb, _, hc, _, hd, rfl, rfl⟩ := h
    simp [hexUnit?, ha, hb, hc, hd]
  · exact absurd h (by simp)

/-- Enough stands here to tell whether a second unit follows the one in front. -/
def Settled (t : Text) : Prop := t ≠ [] ∧ t ≠ ['\\']

theorem Settled.append_ne {t : Text} (ht : Settled t) (h : ∀ more, t ≠ '\\' :: 'u' :: more)
    (u more : Text) : t ++ u ≠ '\\' :: 'u' :: more := by
  intro heq
  rcases t with _ | ⟨c, _ | ⟨d, r⟩⟩
  · exact ht.1 rfl
  · exact ht.2 (by rw [(List.cons.inj heq).1])
  · obtain ⟨rfl, htail⟩ := List.cons.inj heq
    exact h r (by rw [(List.cons.inj htail).1])

theorem readUnits?_append {t rest : Text} {c : Char} (h : readUnits? t = some (c, rest))
    (hrest : Settled rest) (u : Text) : readUnits? (t ++ u) = some (c, rest ++ u) := by
  simp only [readUnits?, Option.bind_eq_bind, Option.bind_eq_some_iff] at h ⊢
  obtain ⟨⟨high, r⟩, hfirst, h⟩ := h
  refine ⟨(high, r ++ u), hexUnit?_append hfirst u, ?_⟩
  dsimp only at h ⊢
  split at h
  · next more hhigh =>
    obtain ⟨⟨low, after⟩, hsecond, h⟩ := Option.bind_eq_some_iff.mp h
    simp only [hhigh, List.cons_append, hexUnit?_append hsecond u, Option.bind_some]
    dsimp only at h
    split at h
    · next hlow =>
      obtain ⟨rfl, rfl⟩ := Prod.mk.inj (Option.some.inj h)
      rw [if_pos hlow]
    · next hlow =>
      obtain ⟨rfl, rfl⟩ := Prod.mk.inj (Option.some.inj h)
      rw [if_neg hlow]
      rfl
  · next hone =>
    obtain ⟨rfl, rfl⟩ := Prod.mk.inj (Option.some.inj h)
    split
    · next more hhigh heq =>
      exact absurd heq (hrest.append_ne (fun more => hone more hhigh) u more)
    · rfl

theorem readEscape?_append {t rest : Text} {c : Char} (h : readEscape? t = some (c, rest))
    (hrest : Settled rest) (u : Text) : readEscape? (t ++ u) = some (c, rest ++ u) := by
  unfold readEscape? at h
  split at h
  case h_9 r => exact readUnits?_append h hrest u
  case h_10 => exact absurd h (by simp)
  all_goals
    obtain ⟨rfl, rfl⟩ := Prod.mk.inj (Option.some.inj h)
    rfl

theorem settled_of_readText? {fuel : Nat} {t : Text} {x : Text × Text}
    (h : readText? fuel t = some x) : Settled t := by
  refine ⟨?_, ?_⟩
  · rintro rfl
    cases fuel <;> exact absurd h (by simp [readText?])
  · rintro rfl
    cases fuel <;> exact absurd h (by simp [readText?, readEscape?])

/-- A text that was read is read alike with more fuel and in front of anything. -/
theorem readText?_append {k fuel : Nat} {t s rest : Text} (h : readText? k t = some (s, rest))
    (hfuel : k ≤ fuel) (u : Text) : readText? fuel (t ++ u) = some (s, rest ++ u) := by
  induction k generalizing fuel t s with
  | zero => exact absurd h (by simp [readText?])
  | succ k ih =>
    obtain ⟨fuel, rfl⟩ : ∃ n, fuel = n + 1 := ⟨fuel - 1, by omega⟩
    rcases t with _ | ⟨c, t⟩
    · exact absurd h (by simp [readText?])
    rw [List.cons_append, readText?]
    rw [readText?] at h
    split at h
    · next hquote =>
      obtain ⟨rfl, rfl⟩ := Prod.mk.inj (Option.some.inj h)
      rw [if_pos hquote]
    · next hquote =>
      rw [if_neg hquote]
      split at h
      · next hback =>
        obtain ⟨⟨d, r⟩, hescape, h⟩ := Option.bind_eq_some_iff.mp h
        obtain ⟨⟨s', r'⟩, hrest, h⟩ := Option.bind_eq_some_iff.mp h
        obtain ⟨rfl, rfl⟩ := Prod.mk.inj (Option.some.inj h)
        rw [if_pos hback, readEscape?_append hescape (settled_of_readText? hrest) u]
        simp only [Option.bind_eq_bind, Option.bind_some, ih hrest (Nat.le_of_succ_le_succ hfuel)]
      · next hback =>
        rw [if_neg hback]
        split at h
        · exact absurd h (by simp)
        · next hcontrol =>
          obtain ⟨⟨s', r'⟩, hrest, h⟩ := Option.bind_eq_some_iff.mp h
          obtain ⟨rfl, rfl⟩ := Prod.mk.inj (Option.some.inj h)
          rw [if_neg hcontrol]
          simp only [Option.bind_eq_bind, Option.bind_some, ih hrest (Nat.le_of_succ_le_succ hfuel)]

/-! ## Gaps -/

theorem skipGap_append_of_ne_nil {t : Text} (h : skipGap t ≠ []) (u : Text) :
    skipGap (t ++ u) = skipGap t ++ u := by
  induction t with
  | nil => exact absurd rfl h
  | cons c t ih =>
    by_cases hc : isGap c = true
    · have hskip : ∀ r, skipGap (c :: r) = skipGap r := fun r => List.dropWhile_cons_of_pos hc
      rw [hskip] at h
      rw [List.cons_append, hskip, hskip, ih h]
    · rw [List.cons_append, skipGap_cons (by simpa using hc), skipGap_cons (by simpa using hc),
        List.cons_append]

theorem skipGap_append_cons {t r : Text} {c : Char} (h : skipGap t = c :: r) (u : Text) :
    skipGap (t ++ u) = c :: (r ++ u) := by
  rw [skipGap_append_of_ne_nil (by simp [h]), h, List.cons_append]

/-- What stands behind a text does not change how it starts. -/
theorem append_ne_cons {t : Text} {c : Char} (hne : t ≠ []) (h : ∀ r, t ≠ c :: r) (u r : Text) :
    t ++ u ≠ c :: r := by
  intro heq
  rcases t with _ | ⟨d, t⟩
  · exact hne rfl
  · exact h t (by rw [(List.cons.inj heq).1])

/-- What goes on with a mark, behind a gap or at once, does not go on with a word or number. -/
theorem apart_of_skipGap {t r : Text} {c : Char} (h : skipGap t = c :: r)
    (hc : isAtomChar c = false) (u : Text) : Apart (t ++ u) := by
  rcases t with _ | ⟨d, t⟩
  · exact absurd h (by simp [skipGap])
  · by_cases hd : isGap d = true
    · exact apart_of_gap hd _
    · rw [skipGap_cons (by simpa using hd)] at h
      rw [(List.cons.inj h).1]
      exact apart_cons.mpr hc

/-! ## Values -/

/-- With this much fuel a value is read alike with more fuel and in front of any text, if that ends
a word or number. -/
def ExtendsValues (k : Nat) : Prop :=
  ∀ {fuel depth : Nat} {t rest u : Text} {v : Value}, k ≤ fuel →
    readValue k depth t = .ok (v, rest) → (IsScalar v → Apart (rest ++ u)) →
      readValue fuel depth (t ++ u) = .ok (v, rest ++ u)

def ExtendsItems (k : Nat) : Prop :=
  ∀ {fuel depth : Nat} {done : List Value} {t rest : Text} {v : Value} (u : Text), k ≤ fuel →
    readItems k depth done t = .ok (v, rest) →
      readItems fuel depth done (t ++ u) = .ok (v, rest ++ u)

def ExtendsMembers (k : Nat) : Prop :=
  ∀ {fuel depth : Nat} {done : List (Text × Value)} {t rest : Text} {v : Value} (u : Text),
    k ≤ fuel → readMembers k depth done t = .ok (v, rest) →
      readMembers fuel depth done (t ++ u) = .ok (v, rest ++ u)

theorem ne_nil_of_readItems {fuel depth : Nat} {done : List Value} {t : Text} {x : Value × Text}
    (h : readItems fuel depth done t = .ok x) : t ≠ [] := by
  rintro rfl
  rw [readItems_nil] at h
  exact absurd h (by simp)

theorem ne_nil_of_readMembers {fuel depth : Nat} {done : List (Text × Value)} {t : Text}
    {x : Value × Text} (h : readMembers fuel depth done t = .ok x) : t ≠ [] := by
  rintro rfl
  rw [readMembers_nil] at h
  exact absurd h (by simp)

section Steps

variable {k : Nat}

theorem ValueStep.append (hitems : ExtendsItems k) (hmembers : ExtendsMembers k)
    {fuel depth : Nat} {t rest u : Text} {v : Value} (hfuel : k ≤ fuel)
    (h : ValueStep k depth t v rest) (hu : IsScalar v → Apart (rest ++ u)) :
    ValueStep fuel depth (t ++ u) v (rest ++ u) := by
  cases h with
  | text hs => exact .text (readText?_append hs (by simp) u)
  | emptyList hgap => exact .emptyList (skipGap_append_cons hgap u)
  | emptyObject hgap => exact .emptyObject (skipGap_append_cons hgap u)
  | list hgap hread =>
    have hskip := skipGap_append_of_ne_nil (ne_nil_of_readItems hread) u
    refine .list ?_ (hskip ▸ hitems u hfuel hread)
    exact fun r' => hskip ▸ append_ne_cons (ne_nil_of_readItems hread) hgap u r'
  | object hgap hread =>
    have hskip := skipGap_append_of_ne_nil (ne_nil_of_readMembers hread) u
    refine .object ?_ (hskip ▸ hmembers u hfuel hread)
    exact fun r' => hskip ▸ append_ne_cons (ne_nil_of_readMembers hread) hgap u r'
  | atom hc hread =>
    have hscalar := (exists_of_readAtom hread).1
    exact .atom hc (readAtom_append hread (hu hscalar))

theorem ItemsStep.append (hvalues : ExtendsValues k) (hitems : ExtendsItems k)
    {fuel depth : Nat} {done : List Value} {t rest : Text} {v : Value} (u : Text)
    (hfuel : k ≤ fuel) (h : ItemsStep k depth done t v rest) :
    ItemsStep fuel depth done (t ++ u) v (rest ++ u) := by
  cases h with
  | more hw hgap hread =>
    have hskip := skipGap_append_of_ne_nil (ne_nil_of_readItems hread) u
    refine .more (hvalues hfuel hw fun _ => apart_of_skipGap hgap (by decide) u)
      (skipGap_append_cons hgap u) (hskip ▸ hitems u hfuel hread)
  | last hw hgap =>
    exact .last (hvalues hfuel hw fun _ => apart_of_skipGap hgap (by decide) u)
      (skipGap_append_cons hgap u)

/-- A member is read alike in front of any text, if that ends a word or number. -/
theorem ReadsMember.append (hvalues : ExtendsValues k) {fuel depth : Nat} {t key rest u : Text}
    {w : Value} (hfuel : k ≤ fuel) (h : ReadsMember k depth t key w rest)
    (hu : Apart (rest ++ u)) : ReadsMember fuel depth (t ++ u) key w (rest ++ u) := by
  obtain ⟨r, r₁, r₂, rfl, hkey, hcolon, hw⟩ := h
  have hgap : skipGap r₂ ≠ [] := by
    intro hnil
    rw [hnil, readValue_nil] at hw
    exact absurd hw (by simp)
  have hskip := skipGap_append_of_ne_nil hgap u
  exact ⟨r ++ u, r₁ ++ u, r₂ ++ u, rfl, readText?_append hkey (by simp) u,
    skipGap_append_cons hcolon u, hskip ▸ hvalues hfuel hw fun _ => hu⟩

theorem MembersStep.append (hvalues : ExtendsValues k) (hmembers : ExtendsMembers k)
    {fuel depth : Nat} {done : List (Text × Value)} {t rest : Text} {v : Value} (u : Text)
    (hfuel : k ≤ fuel) (h : MembersStep k depth done t v rest) :
    MembersStep fuel depth done (t ++ u) v (rest ++ u) := by
  cases h with
  | more hmember hgap hread =>
    have hskip := skipGap_append_of_ne_nil (ne_nil_of_readMembers hread) u
    exact .more (hmember.append hvalues hfuel (apart_of_skipGap hgap (by decide) u))
      (skipGap_append_cons hgap u) (hskip ▸ hmembers u hfuel hread)
  | last hmember hgap =>
    exact .last (hmember.append hvalues hfuel (apart_of_skipGap hgap (by decide) u))
      (skipGap_append_cons hgap u)

end Steps

theorem extends_all (k : Nat) : ExtendsValues k ∧ ExtendsItems k ∧ ExtendsMembers k := by
  induction k with
  | zero =>
    refine ⟨fun _ h => ?_, fun _ _ h => ?_, fun _ _ h => ?_⟩
    · exact absurd h (by simp [readValue])
    · exact absurd h (by simp [readItems])
    · exact absurd h (by simp [readMembers])
  | succ k ih =>
    obtain ⟨hvalues, hitems, hmembers⟩ := ih
    refine ⟨fun hfuel h hu => ?_, fun u hfuel h => ?_, fun u hfuel h => ?_⟩
    · obtain ⟨fuel, rfl⟩ := Nat.exists_eq_add_of_le' hfuel
      have hstep := readValue_succ_eq_ok_iff.mp h
      exact readValue_succ_eq_ok_iff.mpr (hstep.append hitems hmembers (Nat.le_add_left k fuel) hu)
    · obtain ⟨fuel, rfl⟩ := Nat.exists_eq_add_of_le' hfuel
      have hstep := readItems_succ_eq_ok_iff.mp h
      exact readItems_succ_eq_ok_iff.mpr (hstep.append hvalues hitems u (Nat.le_add_left k fuel))
    · obtain ⟨fuel, rfl⟩ := Nat.exists_eq_add_of_le' hfuel
      have hstep := readMembers_succ_eq_ok_iff.mp h
      exact readMembers_succ_eq_ok_iff.mpr
        (hstep.append hvalues hmembers u (Nat.le_add_left k fuel))

/-- A value that was read is read alike with more fuel and in front of any text, if that ends a word
or number. -/
theorem readValue_append {k fuel depth : Nat} {t rest u : Text} {v : Value}
    (h : readValue k depth t = .ok (v, rest)) (hfuel : k ≤ fuel)
    (hu : IsScalar v → Apart (rest ++ u)) :
    readValue fuel depth (t ++ u) = .ok (v, rest ++ u) :=
  (extends_all k).1 hfuel h hu

end ChangeReview.Value
