import ChangeReview.Proofs.Text.Lines
import ChangeReview.Proofs.Value.AtomForm
import ChangeReview.Proofs.Value.TextForm

/-!
# Documents that are read back

A value is read back from its document in every layout whose indentation is blank, if its brackets
nest no deeper than the reader goes, its objects repeat no key, its whole numbers are not too long,
and its doubles have a text that is read as the same double.
-/
namespace ChangeReview.Value

/-! ## Gaps -/

/-- Nothing but blanks between tokens. -/
def AllGap (t : Text) : Prop := ∀ c ∈ t, isGap c = true

theorem skipGap_append {gap : Text} (h : AllGap gap) (t : Text) : skipGap (gap ++ t) = skipGap t := by
  induction gap with
  | nil => rfl
  | cons c gap ih =>
    have hc : isGap c = true := h c (by simp)
    rw [skipGap, List.cons_append, List.dropWhile_cons_of_pos hc]
    exact ih fun d hd => h d (List.mem_cons_of_mem c hd)

theorem skipGap_cons {c : Char} (hc : isGap c = false) (t : Text) : skipGap (c :: t) = c :: t := by
  rw [skipGap, List.dropWhile_cons_of_neg (by simp [hc])]

theorem apart_of_gap {c : Char} (hc : isGap c = true) (t : Text) : Apart (c :: t) := by
  simp only [isGap, Bool.or_eq_true, beq_iff_eq] at hc
  rw [apart_cons]
  rcases hc with ((rfl | rfl) | rfl) | rfl <;> decide

/-- A layout that indents with nothing but gaps. -/
def Layout.IsBlank : Layout → Prop
  | .oneLine => True
  | .indented unit => AllGap unit

namespace Layout

variable {layout : Layout}

theorem isBlank_oneLine : IsBlank .oneLine := trivial

theorem IsBlank.allGap_break (h : layout.IsBlank) (depth : Nat) : AllGap (layout.break depth) := by
  rcases layout with _ | unit
  · simp [Layout.break, AllGap]
  · intro c hc
    simp only [Layout.break, List.mem_cons, List.mem_flatten, List.mem_replicate] at hc
    rcases hc with rfl | ⟨_, ⟨-, rfl⟩, hc⟩
    · decide
    · exact h c hc

theorem IsBlank.exists_separator (h : layout.IsBlank) (depth : Nat) :
    ∃ gap, layout.separator depth = ',' :: gap ∧ AllGap gap := by
  rcases layout with _ | unit
  · exact ⟨[' '], rfl, by simp [AllGap, isGap]⟩
  · exact ⟨_, rfl, h.allGap_break depth⟩

end Layout

/-! ## Values that are read back -/

/-- The text of a double is read as the double, whatever stands apart behind it. -/
structure ReadsBack (x : Float) : Prop where
  read : ∀ rest, Apart rest →
    readAtom (Decimal.shortest Decimal.documentSpelling x ++ rest) = .ok (float x, rest)
  short : (Decimal.shortest Decimal.documentSpelling x).length ≤ Decimal.maxDigits

mutual

/-- A value whose document can be read by a reader that goes to the given depth. -/
def Readable : (depth : Nat) → Value → Prop
  | _, null | _, bool _ | _, text _ => True
  | _, int n => HasDigits n
  | _, float x => ReadsBack x
  | 0, list _ | 0, object _ => False
  | depth + 1, list items => ReadableItems depth items
  | depth + 1, object members => (members.map (·.1)).Nodup ∧ ReadableMembers depth members
termination_by structural _ v => v

/-- Every item is readable. -/
def ReadableItems : (depth : Nat) → List Value → Prop
  | _, [] => True
  | depth, v :: r => Readable depth v ∧ ReadableItems depth r
termination_by structural _ vs => vs

/-- Every member's value is readable. -/
def ReadableMembers : (depth : Nat) → List (Text × Value) → Prop
  | _, [] => True
  | depth, (_, v) :: r => Readable depth v ∧ ReadableMembers depth r
termination_by structural _ ms => ms

end

/-! ## Words and numbers -/

theorem isAtomChar_ne {c d : Char} (hc : isAtomChar c = true) (hd : isAtomChar d = false) : c ≠ d := by
  rintro rfl
  exact Bool.noConfusion (hd.symm.trans hc)

theorem isGap_of_isAtomChar {c : Char} (hc : isAtomChar c = true) : isGap c = false := by
  rw [← Bool.not_eq_true]
  intro hgap
  exact Bool.noConfusion ((apart_cons.mp (apart_of_gap hgap [])).symm.trans hc)

/-- What opens no bracket and no quote is read as a word or number. -/
theorem readValue_plain {c : Char} (hquote : c ≠ '"') (hlist : c ≠ '[') (hobject : c ≠ '\x7b')
    (fuel depth : Nat) (t : Text) : readValue (fuel + 1) depth (c :: t) = readAtom (c :: t) := by
  unfold readValue
  split
  · next h => exact absurd (List.cons.inj h).1 hquote
  · next h => exact absurd (List.cons.inj h).1 hlist
  · next h => exact absurd (List.cons.inj h).1 hlist
  · next h => exact absurd (List.cons.inj h).1 hobject
  · next h => exact absurd (List.cons.inj h).1 hobject
  · rfl

theorem readValue_of_isAtomChar {c : Char} (hc : isAtomChar c = true) (fuel depth : Nat) (t : Text) :
    readValue (fuel + 1) depth (c :: t) = readAtom (c :: t) :=
  readValue_plain (isAtomChar_ne hc (by decide)) (isAtomChar_ne hc (by decide))
    (isAtomChar_ne hc (by decide)) fuel depth t

/-- The text of a word or number, which is read back. -/
structure AtomForm (v : Value) (w : Text) : Prop where
  read : ∀ rest, Apart rest → readAtom (w ++ rest) = .ok (v, rest)
  short : w.length ≤ Decimal.maxDigits + 1

namespace AtomForm

variable {v : Value} {w : Text}

theorem isAtom (h : AtomForm v w) : IsAtom w ∧ w ≠ [] := by
  have houtcome := readAtom_outcome (w ++ [])
  rw [h.read [] apart_nil, List.append_nil] at houtcome
  cases houtcome with
  | read _ hne htakes =>
    obtain ⟨front, hfront, heq⟩ := htakes
    rw [heq, List.append_nil] at hne ⊢
    exact ⟨hfront, hne⟩

theorem readValue (h : AtomForm v w) {fuel depth : Nat} (hfuel : 0 < fuel) {rest : Text}
    (hrest : Apart rest) : readValue fuel depth (w ++ rest) = .ok (v, rest) := by
  obtain ⟨hatom, hne⟩ := h.isAtom
  obtain ⟨k, rfl⟩ : ∃ k, fuel = k + 1 := ⟨fuel - 1, by omega⟩
  rcases w with _ | ⟨c, w⟩
  · exact absurd rfl hne
  · rw [List.cons_append, readValue_of_isAtomChar (hatom c (by simp)), ← List.cons_append]
    exact h.read rest hrest

end AtomForm

theorem atomForm_null : AtomForm null "null" where
  read rest _ := by
    unfold readAtom
    rw [Text.dropPrefix?_append]
  short := by decide

theorem atomForm_bool (b : Bool) : AtomForm (bool b) (if b then "true" else "false") := by
  cases b with
  | false =>
    refine ⟨fun rest _ => ?_, by decide⟩
    show readAtom ("false" ++ rest) = _
    unfold readAtom
    rw [Text.dropPrefix?_append, show Text.dropPrefix? "null" ("false" ++ rest) = none from rfl,
      show Text.dropPrefix? "true" ("false" ++ rest) = none from rfl]
  | true =>
    refine ⟨fun rest _ => ?_, by decide⟩
    show readAtom ("true" ++ rest) = _
    unfold readAtom
    rw [Text.dropPrefix?_append, show Text.dropPrefix? "null" ("true" ++ rest) = none from rfl]

theorem atomForm_int {n : Int} (hn : HasDigits n) : AtomForm (int n) (Text.ofInt n) where
  read _ hrest := readAtom_ofInt hn hrest
  short := by
    rcases n with n | n
    · exact Nat.le_succ_of_le hn
    · exact Nat.succ_le_succ hn

theorem atomForm_float {x : Float} (hx : ReadsBack x) :
    AtomForm (float x) (Decimal.shortest Decimal.documentSpelling x) where
  read := hx.read
  short := Nat.le_succ_of_le hx.short

/-! ## The first character -/

/-- A text that can be the first of some items: it starts with neither blank nor closing bracket. -/
def StartsItem (t : Text) : Prop := ∃ c r, t = c :: r ∧ isGap c = false ∧ c ≠ ']' ∧ c ≠ '\x7d'

theorem StartsItem.append {s : Text} (h : StartsItem s) (t : Text) : StartsItem (s ++ t) := by
  obtain ⟨c, r, rfl, hc⟩ := h
  exact ⟨c, r ++ t, rfl, hc⟩

theorem StartsItem.ne_nil {t : Text} (h : StartsItem t) : t ≠ [] := by
  obtain ⟨c, r, rfl, -⟩ := h
  exact List.cons_ne_nil c r

theorem StartsItem.skipGap {t : Text} (h : StartsItem t) : skipGap t = t := by
  obtain ⟨c, r, rfl, hc, -⟩ := h
  exact skipGap_cons hc r

theorem AtomForm.startsItem {v : Value} {w : Text} (h : AtomForm v w) : StartsItem w := by
  obtain ⟨hatom, hne⟩ := h.isAtom
  rcases w with _ | ⟨c, r⟩
  · exact absurd rfl hne
  · have hc : isAtomChar c = true := hatom c (by simp)
    exact ⟨c, r, rfl, isGap_of_isAtomChar hc, isAtomChar_ne hc (by decide),
      isAtomChar_ne hc (by decide)⟩

theorem startsItem_writeText (t : Text) : StartsItem (writeText t) :=
  ⟨'"', _, rfl, by decide, by decide, by decide⟩

theorem startsItem_enclose (layout : Layout) (level : Nat) {opening : Char} (closing : Char)
    (items : List Text) (hgap : isGap opening = false) (hlist : opening ≠ ']')
    (hobject : opening ≠ '\x7d') :
    StartsItem (layout.enclose level opening closing items) := by
  unfold Layout.enclose
  split
  · exact ⟨opening, _, rfl, hgap, hlist, hobject⟩
  · exact ⟨opening, _, rfl, hgap, hlist, hobject⟩

theorem startsItem_writeAt (layout : Layout) (level : Nat) {depth : Nat} {v : Value}
    (h : Readable depth v) : StartsItem (writeAt layout level v) := by
  cases v with
  | null => exact atomForm_null.startsItem
  | bool b =>
    cases b with
    | false => exact (atomForm_bool false).startsItem
    | true => exact (atomForm_bool true).startsItem
  | int n => exact (atomForm_int (by simpa [Readable] using h)).startsItem
  | float x => exact (atomForm_float (by simpa [Readable] using h)).startsItem
  | text t => exact startsItem_writeText t
  | list items => exact startsItem_enclose _ _ _ _ (by decide) (by decide) (by decide)
  | object members => exact startsItem_enclose _ _ _ _ (by decide) (by decide) (by decide)

/-! ## Texts -/

theorem writeText_append (t rest : Text) :
    writeText t ++ rest = '"' :: (t.flatMap escapeChar ++ '"' :: rest) := by
  simp [writeText]

theorem readValue_writeText (t rest : Text) (fuel depth : Nat) :
    readValue (fuel + 1) depth (writeText t ++ rest) = .ok (text t, rest) := by
  rw [writeText_append]
  rw [readValue, readText?_written]

/-! ## Members -/

theorem put_of_not_mem {key : Text} {ms : List (Text × Value)} (h : key ∉ ms.map (·.1))
    (v : Value) : put key v ms = ms ++ [(key, v)] := by
  induction ms with
  | nil => rfl
  | cons m ms ih =>
    obtain ⟨k, w⟩ := m
    rw [List.map_cons, List.mem_cons, not_or] at h
    rw [put, if_neg (fun heq => h.1 heq.symm), ih h.2, List.cons_append]

theorem not_mem_of_nodup {key : Text} {v : Value} {done ms : List (Text × Value)}
    (h : ((done ++ (key, v) :: ms).map (·.1)).Nodup) : key ∉ done.map (·.1) := by
  rw [List.map_append, List.map_cons, List.nodup_append] at h
  intro hmem
  exact h.2.2 key hmem key List.mem_cons_self rfl

/-- A key is read up to its colon. -/
theorem readMembers_key (fuel depth : Nat) (done : List (Text × Value)) (key rest : Text) :
    readMembers (fuel + 1) depth done (writeText key ++ rest) =
      match skipGap rest with
      | ':' :: r =>
        match readValue fuel depth (skipGap r) with
        | .error fault => .error fault
        | .ok (v, r) =>
          match skipGap r with
          | ',' :: r => readMembers fuel depth (put key v done) (skipGap r)
          | '\x7d' :: r => .ok (object (put key v done), r)
          | _ => .error .notJson
      | _ => .error .notJson := by
  rewrite [writeText_append, readMembers, readText?_written]
  rfl

/-- A member is read up to what follows its value. -/
theorem readMembers_member {fuel depth : Nat} {done : List (Text × Value)} (key : Text)
    {w rest : Text} {v : Value} (hw : StartsItem w)
    (hread : readValue fuel depth (w ++ rest) = .ok (v, rest)) :
    readMembers (fuel + 1) depth done (writeText key ++ (": " ++ (w ++ rest))) =
      match skipGap rest with
      | ',' :: r => readMembers fuel depth (put key v done) (skipGap r)
      | '\x7d' :: r => .ok (object (put key v done), r)
      | _ => .error .notJson := by
  have hgap : skipGap (' ' :: (w ++ rest)) = w ++ rest := (hw.append rest).skipGap
  have hcolon : skipGap (": " ++ (w ++ rest)) = ':' :: ' ' :: (w ++ rest) := rfl
  rw [readMembers_key, hcolon]
  simp only [hgap, hread]

/-! ## Between items -/

section Between

variable {layout : Layout} (hl : layout.IsBlank) (level : Nat)

include hl

theorem Layout.IsBlank.skipGap_separator {t : Text} (ht : StartsItem t) :
    ∃ r, skipGap (layout.separator level ++ t) = ',' :: r ∧ skipGap r = t := by
  obtain ⟨gap, heq, hgap⟩ := hl.exists_separator level
  refine ⟨gap ++ t, by rw [heq]; rfl, ?_⟩
  rw [skipGap_append hgap, ht.skipGap]

theorem Layout.IsBlank.apart_separator (t : Text) : Apart (layout.separator level ++ t) := by
  obtain ⟨gap, heq, -⟩ := hl.exists_separator level
  rw [heq]
  exact apart_cons.mpr (by decide)

theorem Layout.IsBlank.skipGap_close {c : Char} (hc : isGap c = false) (t : Text) :
    skipGap (layout.break level ++ c :: t) = c :: t := by
  rw [skipGap_append (hl.allGap_break level), skipGap_cons hc]

theorem Layout.IsBlank.apart_close {c : Char} (hc : isAtomChar c = false) (t : Text) :
    Apart (layout.break level ++ c :: t) := by
  have hgap := hl.allGap_break level
  generalize layout.break level = gap at hgap ⊢
  rcases gap with _ | ⟨d, r⟩
  · exact apart_cons.mpr hc
  · exact apart_of_gap (hgap d List.mem_cons_self) _

end Between

theorem startsItem_items (layout : Layout) (level : Nat) {depth : Nat} {v : Value}
    (h : Readable depth v) (items : List Value) (sep : Text) :
    StartsItem (Text.join sep (writeItems layout level (v :: items))) := by
  have hfirst := startsItem_writeAt layout level h
  cases items with
  | nil => rwa [writeItems, writeItems, Text.join_singleton]
  | cons w items =>
    rw [writeItems, writeItems, Text.join_cons_cons]
    exact hfirst.append _

theorem startsItem_members (layout : Layout) (level : Nat) (key : Text) (v : Value)
    (ms : List (Text × Value)) (sep : Text) :
    StartsItem (Text.join sep (writeMembers layout level ((key, v) :: ms))) := by
  have hfirst : StartsItem (writeText key ++ ": " ++ writeAt layout level v) :=
    ((startsItem_writeText key).append _).append _
  cases ms with
  | nil => rwa [writeMembers, writeMembers, Text.join_singleton]
  | cons m ms =>
    obtain ⟨k, w⟩ := m
    rw [writeMembers, writeMembers, Text.join_cons_cons]
    exact hfirst.append _

/-- An item is read up to what follows it. -/
theorem readItems_item {fuel depth : Nat} {done : List Value} {w rest : Text} {v : Value}
    (hread : readValue fuel depth (w ++ rest) = .ok (v, rest)) :
    readItems (fuel + 1) depth done (w ++ rest) =
      match skipGap rest with
      | ',' :: r => readItems fuel depth (v :: done) (skipGap r)
      | ']' :: r => .ok (list (v :: done).reverse, r)
      | _ => .error .notJson := by
  rewrite [readItems, hread]
  rfl

/-- Behind a bracket and some gap the items are read. -/
theorem readValue_bracket {gap t : Text} (hgap : AllGap gap) (ht : StartsItem t)
    (fuel depth : Nat) :
    readValue (fuel + 1) (depth + 1) ('[' :: (gap ++ t)) = readItems fuel depth [] t := by
  rw [readValue, skipGap_append hgap, ht.skipGap]
  obtain ⟨c, r, rfl, -, hc, -⟩ := ht
  split
  · next h => exact absurd (List.cons.inj h).1 hc
  · rfl

theorem readValue_brace {gap t : Text} (hgap : AllGap gap) (ht : StartsItem t)
    (fuel depth : Nat) :
    readValue (fuel + 1) (depth + 1) ('\x7b' :: (gap ++ t)) = readMembers fuel depth [] t := by
  rw [readValue, skipGap_append hgap, ht.skipGap]
  obtain ⟨c, r, rfl, -, -, hc⟩ := ht
  split
  · next h => exact absurd (List.cons.inj h).1 hc
  · rfl

theorem enclose_cons (layout : Layout) (level : Nat) (opening closing : Char) (w : Text)
    (ws : List Text) (rest : Text) :
    layout.enclose level opening closing (w :: ws) ++ rest =
      opening :: (layout.break (level + 1) ++
        (Text.join (layout.separator (level + 1)) (w :: ws) ++
          (layout.break level ++ closing :: rest))) := by
  simp [Layout.enclose]

theorem length_enclose (layout : Layout) (level : Nat) (opening closing : Char) (w : Text)
    (ws : List Text) :
    (Text.join (layout.separator (level + 1)) (w :: ws)).length + 2 ≤
      (layout.enclose level opening closing (w :: ws)).length := by
  have hlength := congrArg List.length (enclose_cons layout level opening closing w ws [])
  simp only [List.append_nil, List.length_cons, List.length_append, List.length_nil] at hlength
  omega

/-! ## One step of the readers -/

/-- With this much fuel every value is read back, whatever stands apart behind it. -/
def ReadsValues (layout : Layout) (fuel : Nat) : Prop :=
  ∀ (level depth : Nat) (v : Value), Readable depth v → ∀ rest, Apart rest →
    2 * (writeAt layout level v).length ≤ fuel →
      readValue fuel depth (writeAt layout level v ++ rest) = .ok (v, rest)

/-- With this much fuel items are read back up to the closing bracket. -/
def ReadsItems (layout : Layout) (fuel : Nat) : Prop :=
  ∀ (level depth : Nat) (v : Value) (items : List Value), Readable depth v →
    ReadableItems depth items → ∀ (done : List Value) (rest : Text) {written : Text},
      written = Text.join (layout.separator (level + 1))
        (writeItems layout (level + 1) (v :: items)) →
      2 * written.length < fuel →
        readItems fuel depth done (written ++ (layout.break level ++ ']' :: rest)) =
          .ok (list (done.reverse ++ v :: items), rest)

/-- With this much fuel members are read back up to the closing brace. -/
def ReadsMembers (layout : Layout) (fuel : Nat) : Prop :=
  ∀ (level depth : Nat) (key : Text) (v : Value) (ms : List (Text × Value)), Readable depth v →
    ReadableMembers depth ms → ∀ (done : List (Text × Value)) (rest : Text) {written : Text},
      ((done ++ (key, v) :: ms).map (·.1)).Nodup →
      written = Text.join (layout.separator (level + 1))
        (writeMembers layout (level + 1) ((key, v) :: ms)) →
      2 * written.length < fuel →
        readMembers fuel depth done (written ++ (layout.break level ++ '\x7d' :: rest)) =
          .ok (object (done ++ (key, v) :: ms), rest)

section Steps

variable {layout : Layout} {k : Nat}

theorem readsValues_succ (hl : layout.IsBlank) (hitems : ReadsItems layout k)
    (hmembers : ReadsMembers layout k) : ReadsValues layout (k + 1) := by
  intro level depth v h rest hrest hfuel
  match v, depth with
  | null, _ => exact atomForm_null.readValue (Nat.succ_pos k) hrest
  | bool true, _ => exact (atomForm_bool true).readValue (Nat.succ_pos k) hrest
  | bool false, _ => exact (atomForm_bool false).readValue (Nat.succ_pos k) hrest
  | int n, _ =>
    rw [Readable] at h
    exact (atomForm_int h).readValue (Nat.succ_pos k) hrest
  | float x, _ =>
    rw [Readable] at h
    exact (atomForm_float h).readValue (Nat.succ_pos k) hrest
  | text t, _ => exact readValue_writeText t rest k _
  | list _, 0 | object _, 0 => exact absurd h (by simp [Readable])
  | list [], depth + 1 => rfl
  | object [], depth + 1 => rfl
  | list (v :: items), depth + 1 =>
    rw [Readable, ReadableItems] at h
    have hstart := startsItem_items layout (level + 1) h.1 items (layout.separator (level + 1))
    have hlength := length_enclose layout level '[' ']' (writeAt layout (level + 1) v)
      (writeItems layout (level + 1) items)
    rw [writeAt, writeItems] at hfuel ⊢
    rw [writeItems] at hstart
    rw [enclose_cons, readValue_bracket (hl.allGap_break (level + 1)) (hstart.append _)]
    exact hitems level depth v items h.1 h.2 [] rest (by rw [writeItems]) (by omega)
  | object ((key, v) :: ms), depth + 1 =>
    rw [Readable, ReadableMembers] at h
    have hstart := startsItem_members layout (level + 1) key v ms (layout.separator (level + 1))
    have hlength := length_enclose layout level '\x7b' '\x7d'
      (writeText key ++ ": " ++ writeAt layout (level + 1) v) (writeMembers layout (level + 1) ms)
    rw [writeAt, writeMembers] at hfuel ⊢
    rw [writeMembers] at hstart
    rw [enclose_cons, readValue_brace (hl.allGap_break (level + 1)) (hstart.append _)]
    exact hmembers level depth key v ms h.2.1 h.2.2 [] rest h.1 (by rw [writeMembers]) (by omega)

theorem readsItems_succ (hl : layout.IsBlank) (hvalues : ReadsValues layout k)
    (hitems : ReadsItems layout k) : ReadsItems layout (k + 1) := by
  intro level depth v items hv hvs done rest written hwritten hfuel
  cases items with
  | nil =>
    rw [writeItems, writeItems, Text.join_singleton] at hwritten
    subst hwritten
    have hread := hvalues (level + 1) depth v hv (layout.break level ++ ']' :: rest)
      (hl.apart_close level (by decide) rest) (by omega)
    rw [readItems_item hread, hl.skipGap_close level (by decide)]
    simp
  | cons w items =>
    rw [ReadableItems] at hvs
    have hfirst := List.length_pos_iff.mpr (startsItem_writeAt layout (level + 1) hv).ne_nil
    have hstart := startsItem_items layout (level + 1) hvs.1 items (layout.separator (level + 1))
    rw [writeItems, writeItems, Text.join_cons_cons, ← writeItems] at hwritten
    generalize hmore : Text.join _ (writeItems _ _ (w :: items)) = more at hwritten hstart
    subst hwritten
    rw [List.length_append, List.length_append] at hfuel
    have hread := hvalues (level + 1) depth v hv
      (layout.separator (level + 1) ++ (more ++ (layout.break level ++ ']' :: rest)))
      (hl.apart_separator (level + 1) _) (by omega)
    obtain ⟨r, hcomma, hr⟩ := hl.skipGap_separator (level + 1)
      (hstart.append (layout.break level ++ ']' :: rest))
    rw [List.append_assoc, List.append_assoc, readItems_item hread, hcomma]
    show readItems k depth (v :: done) (skipGap r) = _
    rw [hr, hitems level depth w items hvs.1 hvs.2 (v :: done) rest hmore.symm (by omega)]
    simp

theorem readsMembers_succ (hl : layout.IsBlank) (hvalues : ReadsValues layout k)
    (hmembers : ReadsMembers layout k) : ReadsMembers layout (k + 1) := by
  intro level depth key v ms hv hms done rest written hkeys hwritten hfuel
  have hfirst := startsItem_writeAt layout (level + 1) hv
  have hlength := List.length_pos_iff.mpr hfirst.ne_nil
  cases ms with
  | nil =>
    rw [writeMembers, writeMembers, Text.join_singleton] at hwritten
    subst hwritten
    simp only [List.length_append] at hfuel
    have hread := hvalues (level + 1) depth v hv (layout.break level ++ '\x7d' :: rest)
      (hl.apart_close level (by decide) rest) (by omega)
    simp only [List.append_assoc]
    rw [readMembers_member key hfirst hread, hl.skipGap_close level (by decide),
      put_of_not_mem (not_mem_of_nodup hkeys)]
    rfl
  | cons m ms =>
    obtain ⟨key', w⟩ := m
    rw [ReadableMembers] at hms
    have hstart := startsItem_members layout (level + 1) key' w ms (layout.separator (level + 1))
    rw [writeMembers, writeMembers, Text.join_cons_cons, ← writeMembers] at hwritten
    generalize hmore : Text.join _ (writeMembers _ _ ((key', w) :: ms)) = more at hwritten hstart
    subst hwritten
    simp only [List.length_append] at hfuel
    have hread := hvalues (level + 1) depth v hv
      (layout.separator (level + 1) ++ (more ++ (layout.break level ++ '\x7d' :: rest)))
      (hl.apart_separator (level + 1) _) (by omega)
    obtain ⟨r, hcomma, hr⟩ := hl.skipGap_separator (level + 1)
      (hstart.append (layout.break level ++ '\x7d' :: rest))
    simp only [List.append_assoc]
    rw [readMembers_member key hfirst hread, hcomma, put_of_not_mem (not_mem_of_nodup hkeys)]
    show readMembers k depth (done ++ [(key, v)]) (skipGap r) = _
    rw [hr, hmembers level depth key' w ms hms.1 hms.2 (done ++ [(key, v)]) rest (by simpa using hkeys)
      hmore.symm (by omega)]
    simp

end Steps

/-! ## Whole documents -/

theorem reads {layout : Layout} (hl : layout.IsBlank) (fuel : Nat) :
    ReadsValues layout fuel ∧ ReadsItems layout fuel ∧ ReadsMembers layout fuel := by
  induction fuel with
  | zero =>
    refine ⟨?_, fun _ _ _ _ _ _ _ _ _ _ h => absurd h (Nat.not_lt_zero _),
      fun _ _ _ _ _ _ _ _ _ _ _ _ h => absurd h (Nat.not_lt_zero _)⟩
    intro level depth v h rest _ hfuel
    have hlength := List.length_pos_iff.mpr (startsItem_writeAt layout level h).ne_nil
    omega
  | succ k ih =>
    obtain ⟨hvalues, hitems, hmembers⟩ := ih
    exact ⟨readsValues_succ hl hitems hmembers, readsItems_succ hl hvalues hitems,
      readsMembers_succ hl hvalues hmembers⟩

/-- A readable value is read back from its document. -/
theorem parse_write {layout : Layout} (hl : layout.IsBlank) {v : Value}
    (h : Readable maxDepth v) : parse (write layout v) = .ok v := by
  have hread := (reads hl (2 * (write layout v).length + 2)).1 0 maxDepth v h [] apart_nil
    (Nat.le_add_right _ 2)
  have hgap : skipGap (write layout v) = write layout v := (startsItem_writeAt layout 0 h).skipGap
  rw [List.append_nil] at hread
  rw [parse, hgap, show readValue _ _ (write layout v) = _ from hread]
  rfl

/-! ## Documents on one line -/

theorem enclose_oneLine (level : Nat) (opening closing : Char) (items : List Text) :
    Layout.enclose .oneLine level opening closing items =
      opening :: Text.join ", " items ++ [closing] := by
  rcases items with _ | ⟨w, ws⟩
  · rfl
  · rw [← List.append_nil (Layout.enclose _ _ _ _ _), enclose_cons]
    rfl

mutual

/-- On one line a value is written alike at every depth. -/
theorem writeAt_oneLine (level : Nat) : (v : Value) → writeAt .oneLine level v = writeLine v
  | null | bool true | bool false | int _ | float _ | text _ => rfl
  | list items => by
    rw [writeLine, write, writeAt, writeAt, writeItems_oneLine (level + 1) items,
      writeItems_oneLine (0 + 1) items]
    rfl
  | object ms => by
    rw [writeLine, write, writeAt, writeAt, writeMembers_oneLine (level + 1) ms,
      writeMembers_oneLine (0 + 1) ms]
    rfl

theorem writeItems_oneLine (level : Nat) :
    (items : List Value) → writeItems .oneLine level items = items.map writeLine
  | [] => rfl
  | v :: items => by
    rw [writeItems, writeAt_oneLine level v, writeItems_oneLine level items, List.map_cons]

theorem writeMembers_oneLine (level : Nat) : (ms : List (Text × Value)) →
    writeMembers .oneLine level ms = ms.map fun m => writeText m.1 ++ ": " ++ writeLine m.2
  | [] => rfl
  | (key, v) :: ms => by
    rw [writeMembers, writeAt_oneLine level v, writeMembers_oneLine level ms, List.map_cons]

end

/-- The document of a list on one line. -/
theorem writeLine_list (items : List Value) :
    writeLine (list items) = '[' :: Text.join ", " (items.map writeLine) ++ [']'] := by
  rw [writeLine, write, writeAt, writeItems_oneLine, enclose_oneLine]

theorem writeLine_object (ms : List (Text × Value)) :
    writeLine (object ms) = '\x7b' ::
      Text.join ", " (ms.map fun m => writeText m.1 ++ ": " ++ writeLine m.2) ++ ['\x7d'] := by
  rw [writeLine, write, writeAt, writeMembers_oneLine, enclose_oneLine]

end ChangeReview.Value
