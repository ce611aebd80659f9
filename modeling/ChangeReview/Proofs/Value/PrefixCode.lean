import ChangeReview.Proofs.Value.RoundTrip

/-!
# Documents as a prefix code

A text that starts with the document of a value on one line determines the value and where its
document ends, if no word or number goes on there. This needs neither a reader nor a bound: the
numbers may be of any size and the brackets may nest to any depth. Only doubles are left out, and
objects that repeat a key.
-/
namespace ChangeReview.Value

mutual

/-- The value has no doubles, and none of its objects repeats a key. -/
def isPlain : Value → Bool
  | null | bool _ | int _ | text _ => true
  | float _ => false
  | list items => arePlain items
  | object members => decide (members.map Prod.fst).Nodup && arePlainMembers members
termination_by structural v => v

/-- Every item is plain. -/
def arePlain : List Value → Bool
  | [] => true
  | v :: r => v.isPlain && arePlain r
termination_by structural vs => vs

/-- Every member's value is plain. -/
def arePlainMembers : List (Text × Value) → Bool
  | [] => true
  | (_, v) :: r => v.isPlain && arePlainMembers r
termination_by structural ms => ms

end

theorem arePlain_iff {items : List Value} :
    arePlain items = true ↔ ∀ v ∈ items, v.isPlain = true := by
  induction items with
  | nil => simp [arePlain]
  | cons v items ih => simp [arePlain, ih]

theorem arePlainMembers_iff {ms : List (Text × Value)} :
    arePlainMembers ms = true ↔ ∀ m ∈ ms, m.2.isPlain = true := by
  induction ms with
  | nil => simp [arePlainMembers]
  | cons m ms ih => simp [arePlainMembers, ih]

@[simp] theorem isPlain_list {items : List Value} :
    (list items).isPlain = true ↔ ∀ v ∈ items, v.isPlain = true := by
  rw [isPlain, arePlain_iff]

@[simp] theorem isPlain_object {ms : List (Text × Value)} :
    (object ms).isPlain = true ↔
      (ms.map Prod.fst).Nodup ∧ ∀ m ∈ ms, m.2.isPlain = true := by
  rw [isPlain, Bool.and_eq_true, decide_eq_true_eq, arePlainMembers_iff]

/-! ## Codes -/

section Codes

variable {α : Type} {code : α → Text} {Good : α → Prop} {close : Char}

/-- Of the good things, a text that starts with the code of `a` starts with the code of no other,
and that code ends in one place. -/
def Determined (code : α → Text) (Good : α → Prop) (a : α) : Prop :=
  ∀ ⦃b : α⦄ ⦃r s : Text⦄, Good b → Apart r → Apart s → code a ++ r = code b ++ s → a = b ∧ r = s

/-- The further codes of a row, each behind a comma, then the closing bracket and the rest. -/
def rowOn (code : α → Text) (close : Char) : List α → Text → Text
  | [], r => close :: r
  | a :: as, r => ',' :: ' ' :: (code a ++ rowOn code close as r)

theorem join_cons_append (a : α) (as : List α) (r : Text) :
    Text.join ", " ((a :: as).map code) ++ close :: r = code a ++ rowOn code close as r := by
  induction as generalizing a with
  | nil => simp [Text.join, rowOn]
  | cons b as ih =>
    rw [List.map_cons, List.map_cons, Text.join, List.intercalate_cons_cons, List.append_assoc,
      List.append_assoc, ← List.map_cons, ← Text.join, ih b]
    rfl

theorem apart_rowOn (hclose : isAtomChar close = false) (as : List α) (r : Text) :
    Apart (rowOn code close as r) := by
  cases as with
  | nil => exact apart_cons.mpr hclose
  | cons a as => exact apart_cons.mpr (show isAtomChar ',' = false by decide)

theorem rowOn_determined (hclose : isAtomChar close = false) (hcomma : close ≠ ',')
    {as bs : List α} {r s : Text} (ha : ∀ a ∈ as, Determined code Good a) (hb : ∀ b ∈ bs, Good b)
    (h : rowOn code close as r = rowOn code close bs s) : as = bs ∧ r = s := by
  induction as generalizing bs with
  | nil =>
    cases bs with
    | nil => exact ⟨rfl, (List.cons.inj h).2⟩
    | cons b bs => exact absurd (List.cons.inj h).1 hcomma
  | cons a as ih =>
    cases bs with
    | nil => exact absurd (List.cons.inj h).1.symm hcomma
    | cons b bs =>
      rw [List.forall_mem_cons] at ha hb
      have hfirst := (List.cons.inj (List.cons.inj h).2).2
      obtain ⟨rfl, hmore⟩ := ha.1 hb.1 (apart_rowOn hclose as r) (apart_rowOn hclose bs s) hfirst
      obtain ⟨rfl, hend⟩ := ih ha.2 hb.2 hmore
      exact ⟨rfl, hend⟩

/-- A row in brackets is determined if each of its codes is and none starts like the closing
bracket. -/
theorem join_determined (hclose : isAtomChar close = false) (hcomma : close ≠ ',')
    (hstart : ∀ a, Good a → ∀ t r : Text, code a ++ t ≠ close :: r) {as bs : List α} {r s : Text}
    (hgood : ∀ a ∈ as, Good a) (ha : ∀ a ∈ as, Determined code Good a) (hb : ∀ b ∈ bs, Good b)
    (h : Text.join ", " (as.map code) ++ close :: r = Text.join ", " (bs.map code) ++ close :: s) :
    as = bs ∧ r = s := by
  cases as with
  | nil =>
    cases bs with
    | nil => exact ⟨rfl, (List.cons.inj h).2⟩
    | cons b bs =>
      rw [join_cons_append] at h
      exact absurd h.symm (hstart b (hb b List.mem_cons_self) _ _)
  | cons a as =>
    rw [join_cons_append] at h
    cases bs with
    | nil => exact absurd h (hstart a (hgood a List.mem_cons_self) _ _)
    | cons b bs =>
      rw [join_cons_append] at h
      rw [List.forall_mem_cons] at ha hb
      obtain ⟨rfl, hmore⟩ := ha.1 hb.1 (apart_rowOn hclose as r) (apart_rowOn hclose bs s) h
      obtain ⟨rfl, hend⟩ := rowOn_determined hclose hcomma ha.2 hb.2 hmore
      exact ⟨rfl, hend⟩

end Codes

/-! ## Texts, words and numbers -/

theorem writeText_determined (t : Text) : Determined writeText (fun _ => True) t := by
  intro u r s _ _ _ h
  rw [writeText_append, writeText_append] at h
  have hbody := (List.cons.inj h).2
  have hread := readText?_written t r
  dsimp only at hread
  rw [hbody, readText?_written u s] at hread
  obtain ⟨rfl, rfl⟩ := Prod.mk.inj (Option.some.inj hread)
  exact ⟨rfl, rfl⟩

/-- A word or number ends where something stands that is apart from it. -/
theorem isAtom_append_inj {a b r s : Text} (ha : IsAtom a) (hb : IsAtom b) (hr : Apart r)
    (hs : Apart s) (h : a ++ r = b ++ s) : a = b ∧ r = s := by
  have htake : ∀ {w rest : Text}, IsAtom w → Apart rest →
      (w ++ rest).takeWhile isAtomChar = w := by
    intro w rest hw hrest
    rw [List.takeWhile_append_of_pos hw]
    cases rest with
    | nil => simp
    | cons c rest => simp [apart_cons.mp hrest]
  have heq : a = b := by rw [← htake ha hr, h, htake hb hs]
  subst heq
  exact ⟨rfl, List.append_cancel_left h⟩

/-- The character that opens the document of a value, unless this is a word or number. -/
def opening? : Value → Option Char
  | text _ => some '"'
  | list _ => some '['
  | object _ => some '\x7b'
  | _ => none

theorem isAtom_writeLine {v : Value} (hv : v.isPlain = true) (h : v.opening? = none) :
    IsAtom (writeLine v) ∧ writeLine v ≠ [] := by
  cases v with
  | null => exact atomForm_null.isAtom
  | bool b => cases b with
    | false => exact (atomForm_bool false).isAtom
    | true => exact (atomForm_bool true).isAtom
  | int n =>
    refine ⟨isAtom_ofInt n, ?_⟩
    show Text.ofInt n ≠ []
    cases n with
    | ofNat n => exact Nat.toDigits_ne_nil
    | negSucc n => exact List.cons_ne_nil _ _
  | float x => exact absurd hv Bool.false_ne_true
  | text t => exact absurd h (by simp [opening?])
  | list items => exact absurd h (by simp [opening?])
  | object ms => exact absurd h (by simp [opening?])

/-- The first character of a document tells which bracket or quote opens it. -/
theorem exists_opening {v : Value} (hv : v.isPlain = true) (r : Text) :
    ∃ c t, writeLine v ++ r = c :: t ∧ v.opening? = if isAtomChar c then none else some c := by
  by_cases hatom : v.opening? = none
  · obtain ⟨hall, hne⟩ := isAtom_writeLine hv hatom
    rcases hw : writeLine v with _ | ⟨c, w⟩
    · exact absurd hw hne
    · rw [hw] at hall
      exact ⟨c, w ++ r, rfl, by rw [hatom, if_pos (hall c List.mem_cons_self)]⟩
  · cases v with
    | text t => exact ⟨'"', _, writeText_append t r, rfl⟩
    | list items => exact ⟨'[', _, by rw [writeLine_list]; rfl, rfl⟩
    | object ms => exact ⟨'\x7b', _, by rw [writeLine_object]; rfl, rfl⟩
    | _ => exact absurd rfl hatom

/-- Documents that start alike open alike. -/
theorem opening?_congr {v w : Value} {r s : Text} (hv : v.isPlain = true) (hw : w.isPlain = true)
    (h : writeLine v ++ r = writeLine w ++ s) : v.opening? = w.opening? := by
  obtain ⟨c, t, hleft, hc⟩ := exists_opening hv r
  obtain ⟨d, u, hright, hd⟩ := exists_opening hw s
  have hsame : c = d := (List.cons.inj (hleft.symm.trans (h.trans hright))).1
  rw [hc, hd, hsame]

/-- No document starts with a closing bracket. -/
theorem writeLine_ne_close {v : Value} (hv : v.isPlain = true) (t r : Text) :
    writeLine v ++ t ≠ ']' :: r := by
  intro h
  obtain ⟨c, u, hdoc, hc⟩ := exists_opening hv t
  have hclose : c = ']' := (List.cons.inj (hdoc.symm.trans h)).1
  have hopening : v.opening? = some ']' := by
    rw [hc, hclose]
    rfl
  cases v <;> simp [opening?] at hopening

theorem ofNat_injective {m n : Nat} (h : Text.ofNat m = Text.ofNat n) : m = n := by
  rw [← digitsValue_ofNat m, h, digitsValue_ofNat]

theorem ofInt_injective {m n : Int} (h : Text.ofInt m = Text.ofInt n) : m = n := by
  have hsign : ∀ k l : Nat, Text.ofNat k ≠ '-' :: Text.ofNat l := by
    intro k l heq
    obtain ⟨c, r, hk, hc⟩ := exists_ofNat k
    rw [hk] at heq
    obtain ⟨rfl, -⟩ := List.cons.inj heq
    exact absurd hc (by decide)
  cases m with
  | ofNat m =>
    cases n with
    | ofNat n => exact congrArg Int.ofNat (ofNat_injective h)
    | negSucc n => exact absurd h (hsign m (n + 1))
  | negSucc m =>
    cases n with
    | ofNat n => exact absurd h.symm (hsign n (m + 1))
    | negSucc n => rw [Nat.succ.inj (ofNat_injective (List.cons.inj h).2)]

/-- No whole number is written like a word. -/
theorem ofInt_ne_cons {c : Char} (hdigit : Text.isAsciiDigit c = false) (hminus : c ≠ '-') (n : Int)
    (r : Text) : Text.ofInt n ≠ c :: r := by
  intro h
  cases n with
  | ofNat n =>
    obtain ⟨d, w, hn, hd⟩ := exists_ofNat n
    rw [Text.ofInt, hn] at h
    rw [(List.cons.inj h).1, hdigit] at hd
    exact Bool.false_ne_true hd
  | negSucc n => exact hminus (List.cons.inj h).1.symm

theorem exists_of_atom {v : Value} (hv : v.isPlain = true) (h : v.opening? = none) :
    v = null ∨ (∃ b, v = bool b) ∨ ∃ n, v = int n := by
  cases v with
  | null => exact .inl rfl
  | bool b => exact .inr (.inl ⟨b, rfl⟩)
  | int n => exact .inr (.inr ⟨n, rfl⟩)
  | float x => exact absurd hv Bool.false_ne_true
  | text t => exact absurd h (Option.some_ne_none _)
  | list items => exact absurd h (Option.some_ne_none _)
  | object ms => exact absurd h (Option.some_ne_none _)

/-- Words and numbers are written differently. -/
theorem atom_injective {v w : Value} (hv : v.isPlain = true) (hw : w.isPlain = true)
    (hvatom : v.opening? = none) (hwatom : w.opening? = none) (h : writeLine v = writeLine w) :
    v = w := by
  have hnull : ∀ n, Text.ofInt n ≠ writeLine null := fun n =>
    ofInt_ne_cons rfl (by decide) n "ull"
  have hbool : ∀ n b, Text.ofInt n ≠ writeLine (bool b) := by
    intro n b
    cases b with
    | false => exact ofInt_ne_cons rfl (by decide) n "alse"
    | true => exact ofInt_ne_cons rfl (by decide) n "rue"
  have hwords : ∀ b, writeLine null ≠ writeLine (bool b) := by decide
  have hbools : ∀ b c, writeLine (bool b) = writeLine (bool c) → b = c := by decide
  rcases exists_of_atom hv hvatom with rfl | ⟨b, rfl⟩ | ⟨n, rfl⟩ <;>
    rcases exists_of_atom hw hwatom with rfl | ⟨c, rfl⟩ | ⟨m, rfl⟩
  · rfl
  · exact absurd h (hwords c)
  · exact absurd h.symm (hnull m)
  · exact absurd h.symm (hwords b)
  · rw [hbools b c h]
  · exact absurd h.symm (hbool m b)
  · exact absurd h (hnull n)
  · exact absurd h (hbool n c)
  · rw [ofInt_injective h]

/-! ## Values -/

/-- A member as it is written. -/
def writeMember (m : Text × Value) : Text := writeText m.1 ++ ": " ++ writeLine m.2

theorem writeMember_append (m : Text × Value) (r : Text) :
    writeMember m ++ r = writeText m.1 ++ ':' :: ' ' :: (writeLine m.2 ++ r) := by
  simp [writeMember]

theorem member_determined {m : Text × Value}
    (h : Determined writeLine (fun v => v.isPlain = true) m.2) :
    Determined writeMember (fun m => m.2.isPlain = true) m := by
  intro n r s hn hr hs heq
  rw [writeMember_append, writeMember_append] at heq
  have hcolon : ∀ t, Apart (':' :: t) := fun t => apart_cons.mpr (by decide)
  obtain ⟨hkey, hrest⟩ := writeText_determined m.1 trivial (hcolon _) (hcolon _) heq
  obtain ⟨hvalue, hend⟩ := h hn hr hs (List.cons.inj (List.cons.inj hrest).2).2
  exact ⟨Prod.ext hkey hvalue, hend⟩

theorem writeMember_ne_close (m : Text × Value) (t r : Text) : writeMember m ++ t ≠ '\x7d' :: r := by
  rw [writeMember_append, writeText_append]
  exact fun h => absurd (List.cons.inj h).1 (by decide)

section Steps

variable {v : Value}

theorem atom_determined (hv : v.isPlain = true) (hatom : v.opening? = none) :
    Determined writeLine (fun v => v.isPlain = true) v := by
  intro w r s hw hr hs h
  have hwatom : w.opening? = none := (opening?_congr hv hw h).symm.trans hatom
  obtain ⟨hdoc, hend⟩ := isAtom_append_inj (isAtom_writeLine hv hatom).1
    (isAtom_writeLine hw hwatom).1 hr hs h
  exact ⟨atom_injective hv hw hatom hwatom hdoc, hend⟩

theorem text_determined (t : Text) :
    Determined writeLine (fun v => v.isPlain = true) (text t) := by
  intro w r s hw hr hs h
  have hopening := opening?_congr (v := text t) rfl hw h
  cases w with
  | text u =>
    obtain ⟨rfl, hend⟩ := writeText_determined t trivial hr hs h
    exact ⟨rfl, hend⟩
  | _ => exact absurd hopening (by simp [opening?])

theorem list_determined {items : List Value} (hv : (list items).isPlain = true)
    (hitems : ∀ v ∈ items, Determined writeLine (fun v => v.isPlain = true) v) :
    Determined writeLine (fun v => v.isPlain = true) (list items) := by
  intro w r s hw hr hs h
  have hopening := opening?_congr hv hw h
  cases w with
  | list others =>
    rw [writeLine_list, writeLine_list, List.append_assoc, List.append_assoc, List.cons_append,
      List.cons_append] at h
    obtain ⟨rfl, hend⟩ := join_determined (by decide) (by decide)
      (fun _ hv => writeLine_ne_close hv) (isPlain_list.mp hv) hitems (isPlain_list.mp hw)
      (List.cons.inj h).2
    exact ⟨rfl, hend⟩
  | _ => exact absurd hopening (by simp [opening?])

theorem object_determined {ms : List (Text × Value)} (hv : (object ms).isPlain = true)
    (hmembers : ∀ m ∈ ms, Determined writeLine (fun v => v.isPlain = true) m.2) :
    Determined writeLine (fun v => v.isPlain = true) (object ms) := by
  intro w r s hw hr hs h
  have hopening := opening?_congr hv hw h
  cases w with
  | object others =>
    rw [writeLine_object, writeLine_object, List.append_assoc, List.append_assoc, List.cons_append,
      List.cons_append] at h
    have hcodes : ∀ m ∈ ms, Determined writeMember (fun m => m.2.isPlain = true) m :=
      fun m hm => member_determined (hmembers m hm)
    obtain ⟨rfl, hend⟩ := join_determined (by decide) (by decide)
      (fun m _ => writeMember_ne_close m) (isPlain_object.mp hv).2 hcodes (isPlain_object.mp hw).2
      (List.cons.inj h).2
    exact ⟨rfl, hend⟩
  | _ => exact absurd hopening (by simp [opening?])

end Steps

mutual

/-- A text that starts with the document of a plain value determines the value and the rest. -/
theorem writeLine_determined : (v : Value) → v.isPlain = true →
    Determined writeLine (fun v => v.isPlain = true) v
  | null, hv | bool _, hv | int _, hv => atom_determined hv rfl
  | float _, hv => absurd hv Bool.false_ne_true
  | text t, _ => text_determined t
  | list items, hv => list_determined hv (items_determined items (isPlain_list.mp hv))
  | object ms, hv => object_determined hv (members_determined ms (isPlain_object.mp hv).2)

theorem items_determined : (items : List Value) → (∀ v ∈ items, v.isPlain = true) →
    ∀ v ∈ items, Determined writeLine (fun v => v.isPlain = true) v
  | [], _ => List.forall_mem_nil _
  | v :: items, h => by
    rw [List.forall_mem_cons] at h ⊢
    exact ⟨writeLine_determined v h.1, items_determined items h.2⟩

theorem members_determined : (ms : List (Text × Value)) → (∀ m ∈ ms, m.2.isPlain = true) →
    ∀ m ∈ ms, Determined writeLine (fun v => v.isPlain = true) m.2
  | [], _ => List.forall_mem_nil _
  | (_, v) :: ms, h => by
    rw [List.forall_mem_cons] at h ⊢
    exact ⟨writeLine_determined v h.1, members_determined ms h.2⟩

end

end ChangeReview.Value
