import ChangeReview.Proofs.Value.RoundTrip

/-!
# Documents that break off

The document of a list or an object that breaks off anywhere is no document, and the reader says so
and nothing worse: it has read only complete items and the front of one more.
-/
namespace ChangeReview.Value

open Text (IsCut)

/-! ## Where nothing follows -/

theorem readValue_nil (fuel depth : Nat) : readValue fuel depth [] = .error .notJson := by
  cases fuel <;> rfl

theorem readItems_nil (fuel depth : Nat) (done : List Value) :
    readItems fuel depth done [] = .error .notJson := by
  cases fuel with
  | zero => rfl
  | succ fuel => rw [readItems, readValue_nil]

theorem readMembers_nil (fuel depth : Nat) (done : List (Text × Value)) :
    readMembers fuel depth done [] = .error .notJson := by
  cases fuel <;> rfl

theorem skipGap_allGap {t : Text} (h : AllGap t) : skipGap t = [] := by
  rw [← List.append_nil t, skipGap_append h]
  rfl

theorem AllGap.front {t u : Text} (h : AllGap t) (hu : u <+: t) : AllGap u := fun c hc =>
  h c (hu.subset hc)

theorem skipGap_front {t u : Text} (h : StartsItem t) (hu : u <+: t) : skipGap u = u := by
  obtain ⟨c, r, rfl, hc, -⟩ := h
  rcases List.prefix_cons_iff.mp hu with rfl | ⟨u', rfl, -⟩
  · rfl
  · exact skipGap_cons hc u'

theorem StartsItem.head_ne {c : Char} {t u : Text} (h : StartsItem t) (hu : c :: u <+: t) :
    c ≠ ']' ∧ c ≠ '\x7d' := by
  obtain ⟨d, r, rfl, -, hd⟩ := h
  obtain ⟨rfl, -⟩ := List.cons_prefix_cons.mp hu
  exact hd

theorem skipGap_isAtom {t : Text} (h : IsAtom t) : skipGap t = t := by
  rcases t with _ | ⟨c, r⟩
  · rfl
  · exact skipGap_cons (isGap_of_isAtomChar (h c List.mem_cons_self)) r

theorem Apart.front {t u : Text} (h : Apart t) (hu : u <+: t) : Apart u := by
  rcases u with _ | ⟨c, u⟩
  · exact apart_nil
  · obtain ⟨r, rfl⟩ := hu
    rw [List.cons_append, apart_cons] at h
    exact apart_cons.mpr h

/-! ## Between items -/

section Between

variable {layout : Layout} (hl : layout.IsBlank) (level : Nat)

include hl

/-- Where the break in front of a closing bracket breaks off, nothing follows. -/
theorem Layout.IsBlank.skipGap_cut_close {u : Text} {c : Char}
    (h : IsCut u (layout.break level ++ [c])) : skipGap u = [] :=
  skipGap_allGap ((hl.allGap_break level).front h.concat)

/-- Where a separator or what follows it breaks off, either nothing follows or a comma does, with
what follows it broken off. -/
theorem Layout.IsBlank.skipGap_cut_separator {u t : Text} (ht : StartsItem t)
    (h : IsCut u (layout.separator level ++ t)) :
    u = [] ∨ ∃ r, skipGap u = ',' :: r ∧ IsCut (skipGap r) t ∧ (skipGap r).length < u.length := by
  obtain ⟨gap, heq, hgap⟩ := hl.exists_separator level
  rw [heq, List.cons_append] at h
  rcases h.cons with rfl | ⟨r, rfl, hr⟩
  · exact .inl rfl
  refine .inr ⟨r, skipGap_cons (by decide) r, ?_⟩
  rcases hr.append with hr | ⟨u', rfl, hu'⟩
  · rw [skipGap_allGap (hgap.front hr.1)]
    exact ⟨⟨by simp, ht.ne_nil.symm⟩, Nat.succ_pos _⟩
  · rw [skipGap_append hgap, skipGap_front ht hu'.1]
    refine ⟨hu', ?_⟩
    rw [List.length_cons, List.length_append]
    omega

end Between

/-! ## One step of the readers -/

/-- With this much fuel no value that breaks off is read with something behind it. -/
def CutsValues (layout : Layout) (fuel : Nat) : Prop :=
  ∀ (level depth : Nat) (v : Value), Readable depth v → ∀ u, IsCut u (writeAt layout level v) →
    2 * u.length ≤ fuel → BreaksOff (readValue fuel depth u)

/-- With this much fuel items that break off are no document. -/
def CutsItems (layout : Layout) (fuel : Nat) : Prop :=
  ∀ (level depth : Nat) (v : Value) (items : List Value), Readable depth v →
    ReadableItems depth items → ∀ (done : List Value) (u : Text) {written : Text},
      written = Text.join (layout.separator (level + 1))
        (writeItems layout (level + 1) (v :: items)) →
      IsCut u (written ++ (layout.break level ++ [']'])) → 2 * u.length < fuel →
        readItems fuel depth done u = .error .notJson

/-- With this much fuel members that break off are no document. -/
def CutsMembers (layout : Layout) (fuel : Nat) : Prop :=
  ∀ (level depth : Nat) (key : Text) (v : Value) (ms : List (Text × Value)), Readable depth v →
    ReadableMembers depth ms → ∀ (done : List (Text × Value)) (u : Text) {written : Text},
      written = Text.join (layout.separator (level + 1))
        (writeMembers layout (level + 1) ((key, v) :: ms)) →
      IsCut u (written ++ (layout.break level ++ ['\x7d'])) → 2 * u.length < fuel →
        readMembers fuel depth done u = .error .notJson

section Steps

variable {layout : Layout} {k : Nat}

theorem AtomForm.breaksOff {v : Value} {w u : Text} (h : AtomForm v w) (hu : IsCut u w)
    (fuel depth : Nat) : BreaksOff (Value.readValue (fuel + 1) depth u) := by
  have hatom : IsAtom u := fun c hc => h.isAtom.1 c (hu.1.subset hc)
  rcases u with _ | ⟨c, u⟩
  · exact .inl (readValue_nil _ _)
  · rw [readValue_of_isAtomChar (hatom c List.mem_cons_self)]
    have hlength := hu.length_lt
    have hshort := h.short
    exact breaksOff_readAtom hatom (by omega)

/-- A text that breaks off before its closing quote is no value. -/
theorem readValue_cut_text {t u : Text} (hu : IsCut u (writeText t)) (fuel depth : Nat) :
    readValue (fuel + 1) depth u = .error .notJson := by
  rw [← List.append_nil (writeText t), writeText_append] at hu
  rcases hu.cons with rfl | ⟨u', rfl, hu'⟩
  · exact readValue_nil _ _
  · rw [readValue, readText?_truncated hu'.concat]

/-- A list that breaks off is no value. -/
theorem readValue_cut_list (hl : layout.IsBlank) (hitems : CutsItems layout k)
    {level depth : Nat} {items : List Value} (h : Readable depth (list items)) {u : Text}
    (hu : IsCut u (writeAt layout level (list items))) (hfuel : 2 * u.length ≤ k + 1) :
    readValue (k + 1) depth u = .error .notJson := by
  match items, depth with
  | _, 0 => exact absurd h (by simp [Readable])
  | [], depth + 1 =>
    rcases hu.cons with rfl | ⟨u', rfl, hu'⟩
    · exact readValue_nil _ _
    · obtain rfl := List.prefix_nil.mp (IsCut.concat (s := []) hu')
      exact readItems_nil k depth []
  | v :: items, depth + 1 =>
    rw [Readable, ReadableItems] at h
    have hstart := startsItem_items layout (level + 1) h.1 items (layout.separator (level + 1))
    rw [writeAt, ← List.append_nil (layout.enclose _ _ _ _), writeItems, enclose_cons,
      ← writeItems] at hu
    rcases hu.cons with rfl | ⟨u', rfl, hu'⟩
    · exact readValue_nil _ _
    rcases hu'.append with hgap | ⟨t, rfl, ht⟩
    · rw [readValue, skipGap_allGap ((hl.allGap_break (level + 1)).front hgap.1)]
      exact readItems_nil k depth []
    · rw [List.length_cons, List.length_append] at hfuel
      have hread := hitems level depth v items h.1 h.2 [] t rfl ht (by omega)
      rw [readValue, skipGap_append (hl.allGap_break (level + 1)),
        skipGap_front (hstart.append _) ht.1]
      split
      · exact absurd rfl (hstart.append _ |>.head_ne ht.1).1
      · exact hread

/-- An object that breaks off is no value. -/
theorem readValue_cut_object (hl : layout.IsBlank) (hmembers : CutsMembers layout k)
    {level depth : Nat} {ms : List (Text × Value)} (h : Readable depth (object ms)) {u : Text}
    (hu : IsCut u (writeAt layout level (object ms))) (hfuel : 2 * u.length ≤ k + 1) :
    readValue (k + 1) depth u = .error .notJson := by
  match ms, depth with
  | _, 0 => exact absurd h (by simp [Readable])
  | [], depth + 1 =>
    rcases hu.cons with rfl | ⟨u', rfl, hu'⟩
    · exact readValue_nil _ _
    · obtain rfl := List.prefix_nil.mp (IsCut.concat (s := []) hu')
      exact readMembers_nil k depth []
  | (key, v) :: ms, depth + 1 =>
    rw [Readable, ReadableMembers] at h
    have hstart := startsItem_members layout (level + 1) key v ms (layout.separator (level + 1))
    rw [writeAt, ← List.append_nil (layout.enclose _ _ _ _), writeMembers, enclose_cons,
      ← writeMembers] at hu
    rcases hu.cons with rfl | ⟨u', rfl, hu'⟩
    · exact readValue_nil _ _
    rcases hu'.append with hgap | ⟨t, rfl, ht⟩
    · rw [readValue, skipGap_allGap ((hl.allGap_break (level + 1)).front hgap.1)]
      exact readMembers_nil k depth []
    · rw [List.length_cons, List.length_append] at hfuel
      have hread := hmembers level depth key v ms h.2.1 h.2.2 [] t rfl ht (by omega)
      rw [readValue, skipGap_append (hl.allGap_break (level + 1)),
        skipGap_front (hstart.append _) ht.1]
      split
      · exact absurd rfl (hstart.append _ |>.head_ne ht.1).2
      · exact hread

theorem cutsValues_succ (hl : layout.IsBlank) (hitems : CutsItems layout k)
    (hmembers : CutsMembers layout k) : CutsValues layout (k + 1) := by
  intro level depth v h u hu hfuel
  match v with
  | null => exact atomForm_null.breaksOff hu k depth
  | bool true => exact (atomForm_bool true).breaksOff hu k depth
  | bool false => exact (atomForm_bool false).breaksOff hu k depth
  | int n => exact (atomForm_int (by simpa [Readable] using h)).breaksOff hu k depth
  | float x => exact (atomForm_float (by simpa [Readable] using h)).breaksOff hu k depth
  | text t => exact .inl (readValue_cut_text hu k depth)
  | list items => exact .inl (readValue_cut_list hl hitems h hu hfuel)
  | object ms => exact .inl (readValue_cut_object hl hmembers h hu hfuel)

theorem readItems_cut {depth : Nat} {u : Text} (h : BreaksOff (readValue k depth u))
    (done : List Value) : readItems (k + 1) depth done u = .error .notJson := by
  rw [readItems]
  rcases h with h | ⟨v, rest, h, hrest⟩
  · rw [h]
  · rw [h]
    dsimp only
    rw [skipGap_isAtom hrest]
    split
    · exact absurd (hrest _ List.mem_cons_self) (by decide)
    · exact absurd (hrest _ List.mem_cons_self) (by decide)
    · rfl

theorem cutsItems_succ (hl : layout.IsBlank) (hvalues : CutsValues layout k)
    (hitems : CutsItems layout k) : CutsItems layout (k + 1) := by
  intro level depth v items hv hvs done u written hwritten hu hfuel
  cases items with
  | nil =>
    rw [writeItems, writeItems, Text.join_singleton] at hwritten
    subst hwritten
    rcases hu.append with hu | ⟨u', rfl, hu'⟩
    · exact readItems_cut (hvalues (level + 1) depth v hv u hu (by omega)) done
    · have hfirst := List.length_pos_iff.mpr (startsItem_writeAt layout (level + 1) hv).ne_nil
      rw [List.length_append] at hfuel
      have hread := (reads hl k).1 (level + 1) depth v hv u'
        ((hl.apart_close level (by decide) []).front hu'.1) (by omega)
      rw [readItems_item hread, hl.skipGap_cut_close level hu']
  | cons w items =>
    rw [ReadableItems] at hvs
    have hstart := startsItem_items layout (level + 1) hvs.1 items (layout.separator (level + 1))
    rw [writeItems, writeItems, Text.join_cons_cons, ← writeItems] at hwritten
    generalize hmore : Text.join _ (writeItems _ _ (w :: items)) = more at hwritten hstart
    subst hwritten
    rw [List.append_assoc, List.append_assoc] at hu
    rcases hu.append with hu | ⟨u', rfl, hu'⟩
    · exact readItems_cut (hvalues (level + 1) depth v hv u hu (by omega)) done
    · rw [List.length_append] at hfuel
      have hread := (reads hl k).1 (level + 1) depth v hv u'
        ((hl.apart_separator (level + 1) _).front hu'.1) (by omega)
      rw [readItems_item hread]
      rcases hl.skipGap_cut_separator (level + 1) (hstart.append _) hu' with
        rfl | ⟨r, hcomma, hr, hlength⟩
      · rfl
      · rw [hcomma]
        exact hitems level depth w items hvs.1 hvs.2 (v :: done) (skipGap r) hmore.symm hr (by omega)

/-- Members that break off in front of their first value are no document. -/
theorem readMembers_cut_key {depth : Nat} {key u : Text} (h : IsCut u (writeText key ++ ": "))
    (done : List (Text × Value)) : readMembers (k + 1) depth done u = .error .notJson := by
  rcases h.append with hu | ⟨u', rfl, hu'⟩
  · rw [← List.append_nil (writeText key), writeText_append] at hu
    rcases hu.cons with rfl | ⟨u', rfl, hu'⟩
    · exact readMembers_nil _ _ _
    · rw [readMembers, readText?_truncated hu'.concat]
  · have hpair : ": ".toList = [':', ' '] := by decide
    rw [hpair] at hu'
    rw [readMembers_key]
    rcases hu'.cons with rfl | ⟨u'', rfl, hu''⟩
    · rfl
    · obtain rfl := List.prefix_nil.mp (IsCut.concat (s := []) hu'')
      have hcolon : skipGap [':'] = ':' :: [] := rfl
      have hnone : skipGap [] = [] := rfl
      rw [hcolon]
      simp only [hnone, readValue_nil]

theorem readMembers_cut_value {depth : Nat} {key u : Text} (hgap : skipGap u = u)
    (h : BreaksOff (readValue k depth u)) (done : List (Text × Value)) :
    readMembers (k + 1) depth done (writeText key ++ (": " ++ u)) = .error .notJson := by
  have hspace : skipGap (' ' :: u) = u := hgap
  have hcolon : skipGap (": " ++ u) = ':' :: ' ' :: u := rfl
  rw [readMembers_key, hcolon]
  simp only [hspace]
  rcases h with h | ⟨v, rest, h, hrest⟩
  · rw [h]
  · rw [h]
    dsimp only
    rw [skipGap_isAtom hrest]
    split
    · exact absurd (hrest _ List.mem_cons_self) (by decide)
    · exact absurd (hrest _ List.mem_cons_self) (by decide)
    · rfl

/-- A member that breaks off is no document, whatever was to follow it. -/
theorem readMembers_cut_member {depth : Nat} {key u w rest : Text} (hw : StartsItem w)
    (hu : IsCut u (writeText key ++ (": " ++ (w ++ rest))))
    (hbreaks : ∀ u', IsCut u' w → u'.length ≤ u.length → BreaksOff (readValue k depth u'))
    (done : List (Text × Value)) :
    readMembers (k + 1) depth done u = .error .notJson ∨
      ∃ u', u = writeText key ++ (": " ++ (w ++ u')) ∧ IsCut u' rest := by
  rw [← List.append_assoc] at hu
  rcases hu.append with hu | ⟨u', rfl, hu'⟩
  · exact .inl (readMembers_cut_key hu done)
  rw [List.append_assoc] at hbreaks ⊢
  rcases hu'.append with hu' | ⟨u'', rfl, hu''⟩
  · refine .inl (readMembers_cut_value (skipGap_front hw hu'.1) (hbreaks u' hu' ?_) done)
    simp only [List.length_append]
    omega
  · exact .inr ⟨u'', rfl, hu''⟩

theorem cutsMembers_succ (hl : layout.IsBlank) (hvalues : CutsValues layout k)
    (hmembers : CutsMembers layout k) : CutsMembers layout (k + 1) := by
  intro level depth key v ms hv hms done u written hwritten hu hfuel
  have hfirst := startsItem_writeAt layout (level + 1) hv
  have hbreaks : ∀ u', IsCut u' (writeAt layout (level + 1) v) → u'.length ≤ u.length →
      BreaksOff (readValue k depth u') := fun u' hu' hlength =>
    hvalues (level + 1) depth v hv u' hu' (by omega)
  cases ms with
  | nil =>
    rw [writeMembers, writeMembers, Text.join_singleton] at hwritten
    subst hwritten
    simp only [List.append_assoc] at hu
    rcases readMembers_cut_member hfirst hu hbreaks done with h | ⟨u', rfl, hu'⟩
    · exact h
    · simp only [List.length_append] at hfuel
      have hread := (reads hl k).1 (level + 1) depth v hv u'
        ((hl.apart_close level (by decide) []).front hu'.1) (by omega)
      rw [readMembers_member key hfirst hread, hl.skipGap_cut_close level hu']
  | cons m ms =>
    obtain ⟨key', w⟩ := m
    rw [ReadableMembers] at hms
    have hstart := startsItem_members layout (level + 1) key' w ms (layout.separator (level + 1))
    rw [writeMembers, writeMembers, Text.join_cons_cons, ← writeMembers] at hwritten
    generalize hmore : Text.join _ (writeMembers _ _ ((key', w) :: ms)) = more at hwritten hstart
    subst hwritten
    simp only [List.append_assoc] at hu
    rcases readMembers_cut_member hfirst hu hbreaks done with h | ⟨u', rfl, hu'⟩
    · exact h
    · simp only [List.length_append] at hfuel
      have hread := (reads hl k).1 (level + 1) depth v hv u'
        ((hl.apart_separator (level + 1) _).front hu'.1) (by omega)
      rw [readMembers_member key hfirst hread]
      rcases hl.skipGap_cut_separator (level + 1) (hstart.append _) hu' with
        rfl | ⟨r, hcomma, hr, hlength⟩
      · rfl
      · rw [hcomma]
        exact hmembers level depth key' w ms hms.1 hms.2 _ (skipGap r) hmore.symm hr (by omega)

end Steps

/-! ## Whole documents -/

theorem cuts {layout : Layout} (hl : layout.IsBlank) (fuel : Nat) :
    CutsValues layout fuel ∧ CutsItems layout fuel ∧ CutsMembers layout fuel := by
  induction fuel with
  | zero => exact ⟨fun _ _ _ _ _ _ _ => .inl rfl, fun _ _ _ _ _ _ _ _ _ _ _ _ => rfl,
      fun _ _ _ _ _ _ _ _ _ _ _ _ _ => rfl⟩
  | succ k ih =>
    obtain ⟨hvalues, hitems, hmembers⟩ := ih
    exact ⟨cutsValues_succ hl hitems hmembers, cutsItems_succ hl hvalues hitems,
      cutsMembers_succ hl hvalues hmembers⟩

/-- The document of a list that breaks off is no document. -/
theorem parse_cut_list {layout : Layout} (hl : layout.IsBlank) {items : List Value}
    (h : Readable maxDepth (list items)) {u : Text} (hu : IsCut u (write layout (list items))) :
    parse u = .error .notJson := by
  have hread := readValue_cut_list hl (cuts hl (2 * u.length + 1)).2.1 h hu (by omega)
  have hgap : skipGap u = u := skipGap_front (startsItem_writeAt layout 0 h) hu.1
  rw [parse, hgap, hread]

end ChangeReview.Value
