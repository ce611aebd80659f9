import ChangeReview.Proofs.Reply.Prose
import ChangeReview.Proofs.Reply.ReplyFaults
import ChangeReview.Proofs.Reply.Salvage
import ChangeReview.Proofs.Text.Blanks

/-!
# Wrapped fixes in prose

A reply with an object that holds its fixes is looked through for a list first. In prose the first
list that is met counts, which is the one of the fixes if nothing in front of it in the object opens
a bracket. Where no prose stands around the object, the reply as a whole is the object and no list.
-/
namespace ChangeReview.Reply

/-! ## Entries of a reply -/

/-- Where the object of a reply wraps fixes, they are its entries unless a list is met that is
another one, or nests too deep. -/
theorem fixEntries_wrapped_iff {t : Text} {items : List Value}
    (h : wrappedFixes t = .ok (some items)) :
    fixEntries t = .ok items ↔
      (∀ part, extractList t ≠ .error (.tooDeep part)) ∧
        ∀ others, extractList t = .ok others → others = items := by
  unfold fixEntries
  cases hlist : extractList t with
  | ok others => simp
  | error fault =>
    cases hbad : fault.isBadValue with
    | true => simp [h, hbad, Fault.ne_tooDeep hbad]
    | false =>
      obtain ⟨part, rfl⟩ := (extractList_fault hlist).tooDeep hbad
      simp [hbad]

theorem salvagedFixes_eq_ok_iff {t : Text} {items : List Value} :
    salvagedFixes t = .ok items ↔ items ≠ [] ∧ salvage t fixKeys = .ok items := by
  unfold salvagedFixes
  cases hsalvage : salvage t fixKeys with
  | error fault => simp
  | ok found => cases found <;> simp +contextual [eq_comm]

/-! ## Bare prose -/

/-- The text has no brackets, no braces, no double quotes and no backquotes. -/
def IsBare (t : Text) : Prop := ∀ c ∈ t, c ∉ ("[]\x7b\x7d\"`" : Text)

instance (t : Text) : Decidable (IsBare t) := List.decidableBAll _ t

namespace IsBare

variable {t : Text} (h : IsBare t)

include h

theorem not_mem {c : Char} (hc : c ∈ ("[]\x7b\x7d\"`" : Text)) : c ∉ t := fun hmem => h c hmem hc

theorem subset {s : Text} (hs : s ⊆ t) : IsBare s := fun c hc => h c (hs hc)

theorem not_fenced : ¬ Text.startsWith (Text.trimLeft t) fence = true := by
  have htrim : IsBare (Text.trimLeft t) := h.subset (List.dropWhile_subset _)
  cases hstart : Text.trimLeft t with
  | nil => decide
  | cons c r =>
    have hfence : c ∉ fence := fun hmem => htrim c (by simp [hstart])
      ((by decide : fence ⊆ ("[]\x7b\x7d\"`" : Text)) hmem)
    have hfirst : ∀ d ∈ fence, d ≠ c := fun d hd heq => hfence (heq ▸ hd)
    exact Bool.eq_false_iff.mp (Text.startsWith_cons_ne (hfirst _ List.mem_cons_self) r _)

theorem isProse : IsProse t where
  plain := fun c hc => by
    have hother := h c hc
    refine ⟨?_, ?_, ?_⟩ <;> rintro rfl <;> exact hother (by decide)
  fenced hfence := absurd hfence h.not_fenced

theorem plain_trimLeft : IsPlainText (Text.trimLeft t) := by
  rw [← proseBody_of_not_fenced h.not_fenced]
  exact h.isProse.plain_proseBody

/-- Too long a number takes long prose. -/
theorem length_lt (hlong : Overlong (Text.trimLeft t)) : Decimal.maxDigits < t.length :=
  (hlong.length_lt h.plain_trimLeft).trans_le (List.dropWhile_suffix _).length_le

end IsBare

/-- The first list that is met in a text is another one, or nests too deep. -/
def IsMisread (items : List Value) (t : Text) : Prop :=
  ∃ span, firstSpan '[' ']' t = some span ∧
    ((∃ part, Value.parse span = .error (.tooDeep part)) ∨
      ∃ others, Value.parse span = .ok (.list others) ∧ others ≠ items)

/-! ## The object in prose -/

theorem isBlankText_of_skipGap {t : Text} (h : Value.skipGap t = []) : Text.isBlankText t = true :=
  Text.isBlankText_iff.mpr fun c hc => isBlank_of_isGap (List.dropWhile_eq_nil_iff.mp h c hc)

theorem skipGap_trimLeft_eq_nil_iff {t : Text} :
    Value.skipGap (Text.trimLeft t) = [] ↔ Text.isBlankText t = true := by
  constructor
  · intro h
    obtain ⟨lead, hlead, hblank⟩ := Text.exists_trimLeft t
    have hrest := isBlankText_of_skipGap h
    rw [hlead, Text.isBlankText, List.all_append]
    exact Bool.and_eq_true_iff.mpr ⟨hblank, hrest⟩
  · intro h
    rw [Text.trimLeft, List.dropWhile_eq_nil_iff.mpr (Text.isBlankText_iff.mp h)]
    rfl

theorem skipGap_trimRight_eq_nil_iff {t : Text} :
    Value.skipGap (Text.trimRight t) = [] ↔ Text.isBlankText t = true := by
  constructor
  · intro h
    obtain ⟨tail, htail, hblank⟩ := Text.exists_trimRight t
    have hrest := isBlankText_of_skipGap h
    rw [htail, Text.isBlankText, List.all_append]
    exact Bool.and_eq_true_iff.mpr ⟨hrest, hblank⟩
  · intro h
    have hnil := Text.trimRight_append_blank h []
    rw [List.nil_append] at hnil
    rw [hnil]
    rfl

section Wrapped

variable {o : List (Text × Value)} {items : List Value} {doc p s : Text}
  (h : IsDocument '\x7b' '\x7d' (.object o) doc) (hp : IsBare p) (hs : IsBare s)

include h hp

theorem stripFence_bare (s : Text) :
    stripFence (p ++ (doc ++ s)) = Text.trimLeft p ++ (doc ++ Text.trimRight s) := by
  unfold stripFence
  dsimp only
  rw [h.trim_around, h.startsWith_fence, if_neg hp.not_fenced]

/-- The reply as a whole is the object just where nothing but blanks stands around it. -/
theorem parse_bare (hshort : ¬ Overlong (Text.trimLeft p)) (s : Text) :
    Value.parse (stripFence (p ++ (doc ++ s))) =
      if Text.isBlankText p && Text.isBlankText s then .ok (.object o) else .error .notJson := by
  rw [stripFence_bare h hp]
  by_cases hfront : Text.isBlankText p = true
  · rw [h.parse_behind_gap (skipGap_trimLeft_eq_nil_iff.mpr hfront), hfront, Bool.true_and]
    refine if_congr ?_ rfl rfl
    rw [List.isEmpty_iff, skipGap_trimRight_eq_nil_iff]
  · have hgap : Value.skipGap (Text.trimLeft p) ≠ [] := fun hnil =>
      hfront (skipGap_trimLeft_eq_nil_iff.mp hnil)
    rw [Bool.eq_false_iff.mpr hfront, Bool.false_and, if_neg Bool.false_ne_true]
    rw [h.parse_behind_plain hp.plain_trimLeft hgap]
    cases hparse : Value.parse (Text.trimLeft p) with
    | ok _ => rfl
    | error fault =>
      have hform := parse_plain_fault hp.plain_trimLeft hparse
      rw [hform.resolve_right fun hlong => hshort hlong.1]

include hs

/-- The first list in the reply is the first one in the object. -/
theorem firstSpan_bare :
    firstSpan '[' ']' (stripFence (p ++ (doc ++ s))) = firstSpan '[' ']' doc := by
  have hfront : IsBare (Text.trimLeft p) := hp.subset (List.dropWhile_subset _)
  have hback : IsBare (Text.trimRight s) := hs.subset (Text.trimRight_front s).subset
  rw [stripFence_bare h hp, firstSpan_behind (hfront.not_mem (by decide)),
    firstSpan_append_of_not_mem (hback.not_mem (by decide)) (hback.not_mem (by decide))]

omit h in
theorem salvage_bare (required : List Text) :
    salvage (p ++ (doc ++ s)) required = salvage doc required := by
  rw [salvage, salvageFrom_behind required (hp.not_mem (by decide)),
    salvageFrom_append_of_not_mem required (hs.not_mem (by decide)) (hs.not_mem (by decide)),
    salvage]

variable (hfixes : Value.lookup "fixes" o = some (.list items))

include hfixes

/-- Without too long a number the fixes are read where no prose stands around the object, or where
they are not misread. -/
theorem fixEntries_bare_iff (hshort : ¬ Overlong (Text.trimLeft p)) :
    fixEntries (p ++ (doc ++ s)) = .ok items ↔
      (Text.isBlankText p = true ∧ Text.isBlankText s = true) ∨ ¬ IsMisread items doc := by
  have hobject : extractObject (p ++ (doc ++ s)) = .ok o := by
    rw [extractObject_eq_ok, extract_prose_iff h hp.isProse, proseBody_of_not_fenced hp.not_fenced]
    exact hshort
  have hwrapped : wrappedFixes (p ++ (doc ++ s)) = .ok (some items) := by
    simp only [wrappedFixes, hobject, hfixes]
  rw [fixEntries_wrapped_iff hwrapped]
  simp only [ne_eq, extractList_eq_tooDeep_iff, extractList_eq_ok_iff, parse_bare h hp hshort,
    firstSpan_bare h hp hs]
  by_cases hblank : Text.isBlankText p = true ∧ Text.isBlankText s = true
  · simp [hblank]
  · have hprose : (Text.isBlankText p && Text.isBlankText s) = false := by
      simpa using hblank
    rw [or_iff_right hblank]
    simp only [hprose, Bool.false_eq_true, if_false, Except.error.injEq, reduceCtorEq, false_or,
      true_and]
    constructor
    · rintro ⟨hshallow, hothers⟩ ⟨span, hspan, ⟨part, hdeep⟩ | ⟨others, hlist, hne⟩⟩
      · exact hshallow part ⟨span, hspan, hdeep⟩
      · exact hne (hothers others ⟨span, hspan, hlist⟩)
    · intro hread
      refine ⟨fun part ⟨span, hspan, hdeep⟩ => hread ⟨span, hspan, .inl ⟨part, hdeep⟩⟩, ?_⟩
      rintro others ⟨span, hspan, hlist⟩
      by_contra hne
      exact hread ⟨span, hspan, .inr ⟨others, hlist, hne⟩⟩

omit hfixes in
/-- Behind too long a number they are read where they are all that can be salvaged. -/
theorem fixEntries_overlong_iff (hlong : Overlong (Text.trimLeft p)) :
    fixEntries (p ++ (doc ++ s)) = .ok items ↔ items ≠ [] ∧ salvage doc fixKeys = .ok items := by
  obtain ⟨digits, hlong⟩ := hlong
  have hparse : Value.parse (stripFence (p ++ (doc ++ s))) =
      .error (.tooManyDigits Decimal.maxDigits digits) := by
    rw [stripFence_bare h hp]
    exact h.parse_behind_overlong hp.plain_trimLeft hlong _
  have hextract (opening closing : Char) (shape : Text) :
      extract opening closing shape (p ++ (doc ++ s)) =
        .error (.tooManyDigits Decimal.maxDigits digits) := by
    unfold extract
    dsimp only
    rw [hparse]
    rfl
  have hsalvaged : fixEntries (p ++ (doc ++ s)) = salvagedFixes (p ++ (doc ++ s)) := by
    unfold fixEntries wrappedFixes extractList extractObject
    simp only [hextract]
    rfl
  rw [hsalvaged, salvagedFixes_eq_ok_iff, salvage_bare hp hs]

end Wrapped

/-! ## Members in front of the fixes -/

/-- The member under which an object wraps fixes. -/
def fixesMember (items : List Value) : Text × Value := ("fixes", .list items)

theorem exists_join_cons (sep w : Text) (ws : List Text) :
    ∃ tail, Text.join sep (w :: ws) = w ++ tail := by
  cases ws with
  | nil => exact ⟨[], by rw [Text.join_singleton, List.append_nil]⟩
  | cons v ws => exact ⟨_, Text.join_cons_cons sep w v ws⟩

/-- In front of an item among joined ones stand those that are joined in front of it. -/
theorem exists_join_front (ws : List Text) (w : Text) (vs : List Text) :
    ∃ front tail, Text.join ", " (ws ++ w :: vs) = front ++ (w ++ tail) ∧
      front ⊆ Text.join ", " ws ++ ", " := by
  obtain ⟨tail, htail⟩ := exists_join_cons ", " w vs
  by_cases hws : ws = []
  · subst hws
    exact ⟨[], tail, htail, List.nil_subset _⟩
  · refine ⟨Text.join ", " ws ++ ", ", tail, ?_, List.Subset.refl _⟩
    rw [Text.join_append ", " hws (List.cons_ne_nil w vs), htail, List.append_assoc]

/-- Where the members in front of the fixes open no bracket, the fixes are the first list. -/
theorem firstSpan_fixes {before after : List (Text × Value)} {items : List Value}
    (hbefore : '[' ∉ Value.writeLine (.object before))
    (hread : Value.parse (Value.writeLine (.list items)) = .ok (.list items)) :
    firstSpan '[' ']' (Value.writeLine (.object (before ++ fixesMember items :: after))) =
      some (Value.writeLine (.list items)) := by
  have hlist : IsDocument '[' ']' (.list items) (Value.writeLine (.list items)) :=
    isDocument_write (.list items) hread
  rw [Value.writeLine_object] at hbefore ⊢
  rw [List.map_append, List.map_cons]
  obtain ⟨front, tail, hjoin, hfront⟩ := exists_join_front
    (before.map fun m => Value.writeText m.1 ++ ": " ++ Value.writeLine m.2)
    (Value.writeText "fixes" ++ ": " ++ Value.writeLine (.list items))
    (after.map fun m => Value.writeText m.1 ++ ": " ++ Value.writeLine m.2)
  have hopen : ∀ c ∈ '\x7b' :: front ++ (Value.writeText "fixes" ++ ": "), c ≠ '[' := by
    rintro c hc rfl
    rcases List.mem_append.mp hc with hc | hc
    · have hc := hfront ((List.mem_cons.mp hc).resolve_left (by decide))
      rcases List.mem_append.mp hc with hc | hc
      · exact hbefore (List.mem_cons_of_mem _ (List.mem_append_left _ hc))
      · exact absurd hc (by decide)
    · exact absurd hc (by decide)
  have hspan := hlist.firstSpan hopen (tail ++ ['\x7d'])
  simp only [fixesMember, hjoin]
  simpa using hspan

/-- Fixes that an object wraps are read from bare prose around it just where there is none, or where
the first list that is met in the object is theirs or can be passed over; behind too long a number
just where they are all that can be salvaged. They are read where no member in front of them opens a
bracket. -/
theorem wrapped_fixes_survive {o : List (Text × Value)} {items : List Value} {p s : Text}
    (hread : Value.parse (Value.writeLine (.object o)) = .ok (.object o))
    (hfixes : Value.lookup "fixes" o = some (.list items)) (hp : IsBare p) (hs : IsBare s) :
    (¬ Overlong (Text.trimLeft p) →
      (fixEntries (p ++ Value.writeLine (.object o) ++ s) = .ok items ↔
        (Text.isBlankText p = true ∧ Text.isBlankText s = true) ∨
          ¬ IsMisread items (Value.writeLine (.object o)))) ∧
    (Overlong (Text.trimLeft p) →
      (fixEntries (p ++ Value.writeLine (.object o) ++ s) = .ok items ↔
        items ≠ [] ∧ salvage (Value.writeLine (.object o)) fixKeys = .ok items)) ∧
    ∀ before after, o = before ++ fixesMember items :: after →
      '[' ∉ Value.writeLine (.object before) →
      Value.parse (Value.writeLine (.list items)) = .ok (.list items) →
      p.length ≤ Decimal.maxDigits →
        fixEntries (p ++ Value.writeLine (.object o) ++ s) = .ok items := by
  have hdoc : IsDocument '\x7b' '\x7d' (.object o) (Value.writeLine (.object o)) :=
    isDocument_write (.object o) hread
  rw [List.append_assoc]
  refine ⟨fixEntries_bare_iff hdoc hp hs hfixes, fixEntries_overlong_iff hdoc hp hs, ?_⟩
  rintro before after ho hbefore hlist hlength
  have hshort : ¬ Overlong (Text.trimLeft p) := fun hlong =>
    absurd (hp.length_lt hlong) (Nat.not_lt.mpr hlength)
  refine (fixEntries_bare_iff hdoc hp hs hfixes hshort).mpr (.inr ?_)
  rintro ⟨span, hspan, hmisread⟩
  rw [ho, firstSpan_fixes hbefore hlist] at hspan
  obtain rfl := Option.some.inj hspan
  rcases hmisread with ⟨part, hdeep⟩ | ⟨others, hothers, hne⟩
  · exact absurd (hlist.symm.trans hdeep) (by simp)
  · exact hne (Value.list.inj (Except.ok.inj (hothers.symm.trans hlist)))

/-- A list with one fix. -/
def oneFix : List Value := [.object [("file", .text "a.py"), ("comment", .text "b")]]

/-- The fix comes through behind a note and in front of a list. -/
theorem wrapped_fixes_survive_note :
    let o : List (Text × Value) := [("note", .text "All"), fixesMember oneFix, ("more", .list [])]
    fixEntries ("Here they are:\n" ++ Value.writeLine (.object o) ++ "\nDone.") = .ok oneFix := by
  intro o
  have hread : Value.parse (Value.writeLine (.object o)) = .ok (.object o) := by decide +kernel
  have hp : IsBare "Here they are:\n" := by decide
  have hs : IsBare "\nDone." := by decide
  obtain ⟨-, -, hsurvive⟩ := wrapped_fixes_survive hread rfl hp hs
  exact hsurvive [("note", .text "All")] [("more", .list [])] rfl (by decide) (by decide +kernel)
    (by decide)

/-- A list of files in front of the fixes is taken for them. -/
theorem wrapped_fixes_misread :
    let o : List (Text × Value) := [("files", .list [.text "a.py"]), fixesMember oneFix]
    let p : Text := "Here are the fixes: "
    (Value.parse (Value.writeLine (.object o)) = .ok (.object o) ∧
      Value.lookup "fixes" o = some (.list oneFix) ∧ IsBare p) ∧
        fixEntries (p ++ Value.writeLine (.object o)) = .ok [.text "a.py"] ∧
          oneFix ≠ [.text "a.py"] := by
  decide +kernel

end ChangeReview.Reply
