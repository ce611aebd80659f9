import ChangeReview.Proofs.Reply.Spans
import ChangeReview.Proofs.Value.LineEnds
import ChangeReview.Proofs.Value.Locality

/-!
# Reading from inside a text

A bracket that a text holds can start a span of its own. A reader that starts there takes the
content of texts for structure, and what stands between texts for their content: as a closing quote
is followed by a comma, a colon or a bracket, every key it finds starts with one of these.
-/
namespace ChangeReview.Reply

open Value (IsAtom isAtomChar isGap skipGap readText? readValue readItems readMembers)

/-- The characters that may stand behind a closing quote. -/
def isDelimiter (c : Char) : Bool := c == ',' || c == ':' || c == '\x7d' || c == ']'

/-- The text is empty or starts with a delimiter. -/
def Delimited (t : Text) : Prop := ∀ c ∈ t.head?, isDelimiter c = true

@[simp] theorem delimited_nil : Delimited [] := by simp [Delimited]

@[simp] theorem delimited_cons {c : Char} {t : Text} :
    Delimited (c :: t) ↔ isDelimiter c = true := by
  simp [Delimited]

theorem delimited_comma (t : Text) : Delimited (", " ++ t) :=
  (delimited_cons (c := ',') (t := ' ' :: t)).mpr rfl

theorem delimited_colon (t : Text) : Delimited (": " ++ t) :=
  (delimited_cons (c := ':') (t := ' ' :: t)).mpr rfl

/-- The text goes on like a written document from a place in or outside quotes: outside there is no
backslash and no opening bracket, behind a closing quote there is a delimiter, and no backslash
hides an opening bracket. -/
def Regular (opening : Char) : Quoting → Text → Prop
  | _, [] => True
  | .outside, c :: r =>
    c ≠ '\\' ∧ c ≠ opening ∧ Regular opening (if c = '"' then .inside else .outside) r
  | .inside, c :: r =>
    if c = '"' then Delimited r ∧ Regular opening .outside r
    else Regular opening (if c = '\\' then .escaped else .inside) r
  | .escaped, c :: r => c ≠ opening ∧ Regular opening .inside r

namespace Regular

variable {opening : Char}

theorem inside_cons {c : Char} (hquote : c ≠ '"') (hback : c ≠ '\\') (t : Text) :
    Regular opening .inside (c :: t) ↔ Regular opening .inside t := by
  rw [Regular, if_neg hquote, if_neg hback]

theorem outside_cons {c : Char} (hquote : c ≠ '"') (hback : c ≠ '\\') (hopen : c ≠ opening)
    (t : Text) : Regular opening .outside (c :: t) ↔ Regular opening .outside t := by
  rw [Regular, if_neg hquote]
  exact ⟨fun h => h.2.2, fun h => ⟨hback, hopen, h⟩⟩

theorem inside_quote (t : Text) :
    Regular opening .inside ('"' :: t) ↔ Delimited t ∧ Regular opening .outside t := by
  rw [Regular, if_pos rfl]

theorem outside_quote (hopen : opening ≠ '"') (t : Text) :
    Regular opening .outside ('"' :: t) ↔ Regular opening .inside t := by
  rw [Regular, if_pos rfl]
  exact ⟨fun h => h.2.2, fun h => ⟨by decide, hopen.symm, h⟩⟩

theorem front {q : Quoting} {t u : Text} (h : Regular opening q t) (hu : u <+: t) :
    Regular opening q u := by
  induction u generalizing q t with
  | nil => trivial
  | cons c u ih =>
    obtain ⟨rest, rfl⟩ := hu
    have hpre : u <+: u ++ rest := List.prefix_append u rest
    rw [List.cons_append] at h
    cases q with
    | outside => exact ⟨h.1, h.2.1, ih h.2.2 hpre⟩
    | escaped => exact ⟨h.1, ih h.2 hpre⟩
    | inside =>
      rw [Regular] at h ⊢
      split
      · next hc =>
        rw [if_pos hc] at h
        refine ⟨?_, ih h.2 hpre⟩
        cases u with
        | nil => exact delimited_nil
        | cons d u => exact delimited_cons.mpr (delimited_cons.mp h.1)
      · next hc =>
        rw [if_neg hc] at h
        exact ih h hpre

/-- An opening bracket farther on stands in quotes. -/
theorem inside_of_opening {q : Quoting} {front rest : Text}
    (h : Regular opening q (front ++ opening :: rest)) :
    Regular opening .inside (opening :: rest) := by
  induction front generalizing q with
  | nil =>
    cases q with
    | outside => exact absurd rfl h.2.1
    | escaped => exact absurd rfl h.1
    | inside => exact h
  | cons c front ih =>
    rw [List.cons_append] at h
    cases q with
    | outside => exact ih h.2.2
    | escaped => exact ih h.2
    | inside =>
      rw [Regular] at h
      split at h
      · exact ih h.2
      · exact ih h

end Regular

/-! ## What is read from inside quotes -/

/-- A key that is no key of a written document: it starts with a delimiter. -/
def IsForeignKey (key : Text) : Prop := ∃ c r, key = c :: r ∧ isDelimiter c = true

def ForeignMembers (ms : List (Text × Value)) : Prop := ∀ m ∈ ms, IsForeignKey m.1

/-- If the value is an object, all its keys start with delimiters. -/
def Foreign : Value → Prop
  | .object ms => ForeignMembers ms
  | _ => True

variable {opening : Char}

theorem Regular.takes {t rest : Text} (h : Regular opening .inside t)
    (htakes : Value.Takes t rest) : Regular opening .inside rest := by
  obtain ⟨word, hword, rfl⟩ := htakes
  induction word with
  | nil => exact h
  | cons c word ih =>
    have hc : isAtomChar c = true := hword c List.mem_cons_self
    rw [List.cons_append, Regular.inside_cons (Value.isAtomChar_ne hc (by decide))
      (Value.isAtomChar_ne hc (by decide))] at h
    exact ih (fun d hd => hword d (List.mem_cons_of_mem c hd)) h

theorem Regular.skipGap {t : Text} (h : Regular opening .inside t) :
    Regular opening .inside (skipGap t) := by
  induction t with
  | nil => exact h
  | cons c t ih =>
    by_cases hc : isGap c = true
    · have hplain : c ≠ '"' ∧ c ≠ '\\' := by
        simp only [isGap, Bool.or_eq_true, beq_iff_eq] at hc
        rcases hc with ((rfl | rfl) | rfl) | rfl <;> decide
      rw [Regular.inside_cons hplain.1 hplain.2] at h
      rw [Value.skipGap, List.dropWhile_cons_of_pos hc]
      exact ih h
    · rw [Value.skipGap_cons (by simpa using hc)]
      exact h

/-- What stands behind a bracket, a comma or a colon behind blanks. -/
theorem Regular.behindGap {t r : Text} (h : Regular opening .inside t) {c : Char} (hquote : c ≠ '"')
    (hback : c ≠ '\\') (hgap : Value.skipGap t = c :: r) : Regular opening .inside r := by
  have hr := h.skipGap
  rwa [hgap, Regular.inside_cons hquote hback] at hr

/-- What a reader takes for a text ends where a text of the document starts. -/
theorem Regular.readText? (hopen : opening ≠ '"') {fuel : Nat} {t s rest : Text}
    (h : Regular opening .outside t) (hread : readText? fuel t = some (s, rest)) :
    Regular opening .inside rest := by
  induction fuel generalizing t s with
  | zero => exact absurd hread (by simp [Value.readText?])
  | succ fuel ih =>
    rcases t with _ | ⟨c, t⟩
    · exact absurd hread (by simp [Value.readText?])
    have hback : c ≠ '\\' := h.1
    rw [Value.readText?, if_neg (show ¬ (c == '\\') = true by simpa using hback)] at hread
    split at hread
    · next hc =>
      obtain rfl : c = '"' := by simpa using hc
      obtain ⟨-, rfl⟩ := Prod.mk.inj (Option.some.inj hread)
      exact (Regular.outside_quote hopen t).mp h
    · next hc =>
      split at hread
      · exact absurd hread (by simp)
      · obtain ⟨⟨s', rest'⟩, hrest, hread⟩ := Option.bind_eq_some_iff.mp hread
        obtain ⟨-, rfl⟩ := Prod.mk.inj (Option.some.inj hread)
        have hquote : c ≠ '"' := by simpa using hc
        exact ih ((Regular.outside_cons hquote hback h.2.1 t).mp h) hrest

theorem Delimited.readText? {fuel : Nat} {t s rest : Text} (h : Delimited t)
    (hread : readText? fuel t = some (s, rest)) : IsForeignKey s := by
  rcases fuel with _ | fuel
  · exact absurd hread (by simp [Value.readText?])
  rcases t with _ | ⟨c, t⟩
  · exact absurd hread (by simp [Value.readText?])
  rw [delimited_cons] at h
  have hc : c ≠ '"' ∧ c ≠ '\\' ∧ 32 ≤ c.toNat := by
    simp only [isDelimiter, Bool.or_eq_true, beq_iff_eq] at h
    rcases h with ((rfl | rfl) | rfl) | rfl <;> decide
  rw [Value.readText?_plain hc.1 hc.2.1 hc.2.2, Option.map_eq_some_iff] at hread
  obtain ⟨⟨s', rest'⟩, -, heq⟩ := hread
  exact ⟨c, s', (Prod.mk.inj heq).1.symm, h⟩

theorem ForeignMembers.put {ms : List (Text × Value)} (h : ForeignMembers ms) {key : Text}
    (hkey : IsForeignKey key) (v : Value) : ForeignMembers (Value.put key v ms) := by
  induction ms with
  | nil =>
    intro m hm
    rw [List.mem_singleton.mp hm]
    exact hkey
  | cons n ms ih =>
    obtain ⟨k, w⟩ := n
    rw [Value.put]
    intro m hm
    split at hm
    · rcases List.mem_cons.mp hm with rfl | hm
      · exact h (k, w) List.mem_cons_self
      · exact h m (List.mem_cons_of_mem _ hm)
    · rcases List.mem_cons.mp hm with rfl | hm
      · exact h (k, w) List.mem_cons_self
      · exact ih (fun x hx => h x (List.mem_cons_of_mem _ hx)) m hm

/-! ## One step of the readers -/

/-- With this much fuel a value read from inside quotes is foreign, and so are the items of a list,
and the reader stops inside quotes. -/
def ForeignValues (opening : Char) (fuel : Nat) : Prop :=
  ∀ {depth : Nat} {t rest : Text} {v : Value}, Regular opening .inside t →
    readValue fuel depth t = .ok (v, rest) →
      Regular opening .inside rest ∧ Foreign v ∧ ∀ items, v = .list items → ∀ i ∈ items, Foreign i

def ForeignItems (opening : Char) (fuel : Nat) : Prop :=
  ∀ {depth : Nat} {done : List Value} {t rest : Text} {v : Value}, Regular opening .inside t →
    (∀ i ∈ done, Foreign i) → readItems fuel depth done t = .ok (v, rest) →
      Regular opening .inside rest ∧ ∃ items, v = .list items ∧ ∀ i ∈ items, Foreign i

def ForeignObjects (opening : Char) (fuel : Nat) : Prop :=
  ∀ {depth : Nat} {done : List (Text × Value)} {t rest : Text} {v : Value},
    Regular opening .inside t → ForeignMembers done →
      readMembers fuel depth done t = .ok (v, rest) →
        Regular opening .inside rest ∧ ∃ ms, v = .object ms ∧ ForeignMembers ms

section Steps

variable {k : Nat}

theorem foreignValues_succ (hopen : opening ≠ '"') (hitems : ForeignItems opening k)
    (hobjects : ForeignObjects opening k) : ForeignValues opening (k + 1) := by
  intro depth t rest v h hread
  cases Value.readValue_succ_eq_ok_iff.mp hread with
  | text hs =>
    obtain ⟨-, hregular⟩ := (Regular.inside_quote _).mp h
    exact ⟨hregular.readText? hopen hs, trivial, fun _ h => absurd h (by simp)⟩
  | emptyList hgap =>
    have hr := (Regular.inside_cons (by decide) (by decide) _).mp h
    refine ⟨hr.behindGap (by decide) (by decide) hgap, trivial, fun items h => ?_⟩
    obtain rfl := Value.list.inj h
    simp
  | list _ hread =>
    have hr := (Regular.inside_cons (by decide) (by decide) _).mp h
    obtain ⟨hrest, items, rfl, hall⟩ := hitems hr.skipGap (by simp) hread
    refine ⟨hrest, trivial, fun items' h => ?_⟩
    obtain rfl := Value.list.inj h
    exact hall
  | emptyObject hgap =>
    have hr := (Regular.inside_cons (by decide) (by decide) _).mp h
    exact ⟨hr.behindGap (by decide) (by decide) hgap, by simp [Foreign, ForeignMembers],
      fun _ h => absurd h (by simp)⟩
  | object _ hread =>
    have hr := (Regular.inside_cons (by decide) (by decide) _).mp h
    obtain ⟨hrest, ms, rfl, hall⟩ := hobjects hr.skipGap (by simp [ForeignMembers]) hread
    exact ⟨hrest, hall, fun _ h => absurd h (by simp)⟩
  | atom _ hread =>
    obtain ⟨hscalar, front, hfront, -, heq⟩ := Value.exists_of_readAtom hread
    refine ⟨h.takes ⟨front, hfront, heq⟩, ?_, ?_⟩
    · cases v <;> trivial
    · rintro items rfl
      exact hscalar.elim

theorem foreignItems_succ (hvalues : ForeignValues opening k) (hitems : ForeignItems opening k) :
    ForeignItems opening (k + 1) := by
  intro depth done t rest v h hdone hread
  cases Value.readItems_succ_eq_ok_iff.mp hread with
  | more hw hgap hread =>
    obtain ⟨hr, hforeign, -⟩ := hvalues h hw
    exact hitems (hr.behindGap (by decide) (by decide) hgap).skipGap
      (List.forall_mem_cons.mpr ⟨hforeign, hdone⟩) hread
  | last hw hgap =>
    obtain ⟨hr, hforeign, -⟩ := hvalues h hw
    have hall := List.forall_mem_cons.mpr ⟨hforeign, hdone⟩
    exact ⟨hr.behindGap (by decide) (by decide) hgap, _, rfl,
      fun i hi => hall i (List.mem_reverse.mp hi)⟩

/-- The key of a member that is read from inside quotes is foreign. -/
theorem foreign_member (hopen : opening ≠ '"') (hvalues : ForeignValues opening k) {depth : Nat}
    {t key rest : Text} {w : Value} (h : Regular opening .inside t)
    (hread : Value.ReadsMember k depth t key w rest) :
    IsForeignKey key ∧ Regular opening .inside rest := by
  obtain ⟨r, r₁, r₂, rfl, hkey, hcolon, hw⟩ := hread
  obtain ⟨hdelimited, hregular⟩ := (Regular.inside_quote r).mp h
  have hvalue := (hregular.readText? hopen hkey).behindGap (by decide) (by decide) hcolon
  exact ⟨hdelimited.readText? hkey, (hvalues hvalue.skipGap hw).1⟩

theorem foreignObjects_succ (hopen : opening ≠ '"') (hvalues : ForeignValues opening k)
    (hobjects : ForeignObjects opening k) : ForeignObjects opening (k + 1) := by
  intro depth done t rest v h hdone hread
  cases Value.readMembers_succ_eq_ok_iff.mp hread with
  | more hmember hgap hread =>
    obtain ⟨hkey, hr⟩ := foreign_member hopen hvalues h hmember
    exact hobjects (hr.behindGap (by decide) (by decide) hgap).skipGap (hdone.put hkey _) hread
  | last hmember hgap =>
    obtain ⟨hkey, hr⟩ := foreign_member hopen hvalues h hmember
    exact ⟨hr.behindGap (by decide) (by decide) hgap, _, rfl, hdone.put hkey _⟩

end Steps

theorem foreign (hopen : opening ≠ '"') (fuel : Nat) :
    ForeignValues opening fuel ∧ ForeignItems opening fuel ∧ ForeignObjects opening fuel := by
  induction fuel with
  | zero =>
    refine ⟨?_, ?_, ?_⟩
    · intro _ _ _ _ _ hread
      exact absurd hread (by simp [readValue])
    · intro _ _ _ _ _ _ _ hread
      exact absurd hread (by simp [readItems])
    · intro _ _ _ _ _ _ _ hread
      exact absurd hread (by simp [readMembers])
  | succ k ih =>
    obtain ⟨hvalues, hitems, hobjects⟩ := ih
    exact ⟨foreignValues_succ hopen hitems hobjects, foreignItems_succ hvalues hitems,
      foreignObjects_succ hopen hvalues hobjects⟩

/-- A document that starts inside quotes is foreign, and so are its items. -/
theorem parse_foreign (hopen : opening ≠ '"') {t : Text} {v : Value}
    (h : Regular opening .inside t) (hread : Value.parse t = .ok v) :
    Foreign v ∧ ∀ items, v = .list items → ∀ i ∈ items, Foreign i := by
  obtain ⟨rest, hw, -⟩ := Value.parse_eq_ok_iff.mp hread
  exact ((foreign hopen _).1 h.skipGap hw).2

/-! ## Brackets inside texts -/

/-- Every opening bracket of the text is left open or stands in quotes. -/
def OpensInside (opening closing : Char) (t : Text) : Prop :=
  ∀ front rest, t = front ++ opening :: rest →
    spanLength opening closing 0 0 .outside (opening :: rest) = none ∨
      Regular opening .inside (opening :: rest)

namespace OpensInside

variable {closing : Char}

theorem of_regular {q : Quoting} {t : Text} (h : Regular opening q t) :
    OpensInside opening closing t := by
  rintro front rest rfl
  exact .inr h.inside_of_opening

theorem cons_ne {c : Char} {t : Text} (hc : c ≠ opening) (h : OpensInside opening closing t) :
    OpensInside opening closing (c :: t) := by
  intro front rest heq
  rcases front with _ | ⟨d, front⟩
  · exact absurd (List.cons.inj heq).1 hc
  · exact h front rest (List.cons.inj heq).2

theorem behind {p t : Text} (hp : opening ∉ p) (h : OpensInside opening closing t) :
    OpensInside opening closing (p ++ t) := by
  induction p with
  | nil => exact h
  | cons c p ih =>
    obtain ⟨hc, hp⟩ : opening ≠ c ∧ opening ∉ p := by simpa using hp
    exact (ih hp).cons_ne (Ne.symm hc)

theorem cons_unclosed {t : Text}
    (hspan : spanLength opening closing 0 0 .outside (opening :: t) = none)
    (h : OpensInside opening closing t) : OpensInside opening closing (opening :: t) := by
  intro front rest heq
  rcases front with _ | ⟨d, front⟩
  · obtain rfl := (List.cons.inj heq).2
    exact .inl hspan
  · exact h front rest (List.cons.inj heq).2

theorem tail {c : Char} {t : Text} (h : OpensInside opening closing (c :: t)) :
    OpensInside opening closing t := by
  rintro front rest rfl
  exact h (c :: front) rest rfl

theorem front {t u : Text} (h : OpensInside opening closing t) (hu : u <+: t) :
    OpensInside opening closing u := by
  rintro before rest rfl
  obtain ⟨more, rfl⟩ := hu
  have hrest : opening :: rest <+: opening :: (rest ++ more) := List.prefix_append _ more
  rcases h before (rest ++ more) (by simp) with hnone | hregular
  · exact .inl (spanLength_front hrest hnone)
  · exact .inr (hregular.front hrest)

/-- A span that is found all the same stands in quotes. -/
theorem firstSpan {t span : Text} (h : OpensInside opening closing t)
    (hspan : firstSpan opening closing t = some span) : Regular opening .inside span := by
  obtain ⟨front, rest, heq, n, hn, rfl⟩ := firstSpan_eq_some hspan
  rcases h front rest heq with hnone | hregular
  · exact absurd (hnone.symm.trans hn) (by simp)
  · exact hregular.front (List.take_prefix n _)

end OpensInside

/-! ## Written documents -/

/-- The text can stand outside quotes in front of a delimiter. -/
def RegularPiece (opening : Char) (w : Text) : Prop :=
  ∀ rest, Delimited rest → Regular opening .outside rest → Regular opening .outside (w ++ rest)

theorem regular_inside_plain {w : Text} (hw : ∀ c ∈ w, c ≠ '"' ∧ c ≠ '\\') {t : Text}
    (h : Regular opening .inside t) : Regular opening .inside (w ++ t) := by
  induction w with
  | nil => exact h
  | cons c w ih =>
    obtain ⟨hquote, hback⟩ := hw c List.mem_cons_self
    rw [List.cons_append, Regular.inside_cons hquote hback]
    exact ih fun d hd => hw d (List.mem_cons_of_mem c hd)

theorem regular_inside_escape {c : Char} (hc : c ≠ opening) {t : Text}
    (h : Regular opening .inside t) : Regular opening .inside ('\\' :: c :: t) := by
  rw [Regular, if_neg (by decide), if_pos rfl]
  exact ⟨hc, h⟩

section Written

variable {closing : Char} (hpair : IsPair opening closing)

include hpair

omit hpair in
theorem regular_inside_ofHex {n : Nat} (hn : n < 0x10000) {t : Text}
    (h : Regular opening .inside t) : Regular opening .inside (Text.ofHex 4 n ++ t) := by
  refine regular_inside_plain (fun c hc => ?_) h
  rw [Value.ofHex_four hn] at hc
  simp only [List.mem_cons, List.not_mem_nil, or_false] at hc
  rcases hc with rfl | rfl | rfl | rfl <;> exact Value.digitChar_plain _ (by omega)

theorem regular_inside_unitEscape (c : Char) {t : Text} (h : Regular opening .inside t) :
    Regular opening .inside (Value.unitEscape c ++ t) := by
  have hu : 'u' ≠ opening := by cases hpair <;> decide
  by_cases hc : c.toNat < 0x10000
  · rw [Value.unitEscape_one hc, List.cons_append, List.cons_append]
    exact regular_inside_escape hu (regular_inside_ofHex hc h)
  · have hbound := Value.toNat_lt c
    rw [Value.unitEscape_two hc, List.cons_append, List.cons_append, List.append_assoc,
      List.cons_append, List.cons_append]
    exact regular_inside_escape hu (regular_inside_ofHex (by omega)
      (regular_inside_escape hu (regular_inside_ofHex (by omega) h)))

theorem regular_inside_escapeChar (c : Char) {t : Text} (h : Regular opening .inside t) :
    Regular opening .inside (Value.escapeChar c ++ t) := by
  have hescape : ∀ d, d = '"' ∨ d = '\\' ∨ d = 'n' ∨ d = 'r' ∨ d = 't' ∨ d = 'f' ∨ d = 'b' →
      Regular opening .inside ('\\' :: d :: t) := by
    intro d hd
    refine regular_inside_escape ?_ h
    rcases hd with rfl | rfl | rfl | rfl | rfl | rfl | rfl <;> cases hpair <;> decide
  unfold Value.escapeChar
  by_cases hquote : c = '"'
  · subst hquote; exact hescape _ (by simp)
  by_cases hback : c = '\\'
  · subst hback; exact hescape _ (by simp)
  simp only [beq_iff_eq, hquote, hback, if_false]
  repeat' split
  case isFalse.isFalse.isFalse.isFalse.isFalse.isFalse => exact regular_inside_unitEscape hpair c h
  case isFalse.isFalse.isFalse.isFalse.isFalse.isTrue =>
    exact (Regular.inside_cons hquote hback t).mpr h
  all_goals exact hescape _ (by simp)

theorem regularPiece_writeText (t : Text) : RegularPiece opening (Value.writeText t) := by
  intro rest hdelimited hrest
  have hopen : opening ≠ '"' := by cases hpair <;> decide
  rw [Value.writeText_append, Regular.outside_quote hopen]
  induction t with
  | nil => exact (Regular.inside_quote rest).mpr ⟨hdelimited, hrest⟩
  | cons c t ih =>
    rw [List.flatMap_cons, List.append_assoc]
    exact regular_inside_escapeChar hpair c ih

theorem regularPiece_isAtom {w : Text} (h : IsAtom w) : RegularPiece opening w := by
  intro rest _ hrest
  induction w with
  | nil => exact hrest
  | cons c w ih =>
    have hc : isAtomChar c = true := h c List.mem_cons_self
    have hopen : c ≠ opening := (isPlain_atomChar hpair hc).2.1
    rw [List.cons_append, Regular.outside_cons (Value.isAtomChar_ne hc (by decide))
      (Value.isAtomChar_ne hc (by decide)) hopen]
    exact ih fun d hd => h d (List.mem_cons_of_mem c hd)

theorem regularPiece_scalar (layout : Value.Layout) (level : Nat) {v : Value}
    (h : Value.IsScalar v) : RegularPiece opening (Value.writeAt layout level v) := by
  match v with
  | .null => exact regularPiece_isAtom hpair Value.atomForm_null.isAtom.1
  | .bool true => exact regularPiece_isAtom hpair (Value.atomForm_bool true).isAtom.1
  | .bool false => exact regularPiece_isAtom hpair (Value.atomForm_bool false).isAtom.1
  | .int n => exact regularPiece_isAtom hpair (Value.isAtom_ofInt n)
  | .float x => exact regularPiece_isAtom hpair (Decimal.isAtom_shortest x)
  | .text t => exact regularPiece_writeText hpair t
  | .list _ | .object _ => exact h.elim

theorem regular_comma (rest : Text) :
    Regular opening .outside (", " ++ rest) ↔ Regular opening .outside rest := by
  have hcomma : ',' ≠ opening ∧ ' ' ≠ opening := by cases hpair <;> decide
  show Regular opening .outside (',' :: ' ' :: rest) ↔ _
  rw [Regular.outside_cons (by decide) (by decide) hcomma.1,
    Regular.outside_cons (by decide) (by decide) hcomma.2]

theorem regular_colon (rest : Text) :
    Regular opening .outside (": " ++ rest) ↔ Regular opening .outside rest := by
  have hcolon : ':' ≠ opening ∧ ' ' ≠ opening := by cases hpair <;> decide
  show Regular opening .outside (':' :: ' ' :: rest) ↔ _
  rw [Regular.outside_cons (by decide) (by decide) hcolon.1,
    Regular.outside_cons (by decide) (by decide) hcolon.2]

theorem RegularPiece.join {ws : List Text} (h : ∀ w ∈ ws, RegularPiece opening w) :
    RegularPiece opening (Text.join ", " ws) := by
  induction ws with
  | nil => exact fun _ _ hrest => hrest
  | cons w ws ih =>
    have hw := h w List.mem_cons_self
    have hmore := ih fun x hx => h x (List.mem_cons_of_mem w hx)
    cases ws with
    | nil => rwa [Text.join_singleton]
    | cons x ws =>
      intro rest hdelimited hrest
      rw [Text.join_cons_cons, List.append_assoc, List.append_assoc]
      exact hw _ (delimited_comma _) ((regular_comma hpair _).mpr (hmore rest hdelimited hrest))

theorem RegularPiece.member (key : Text) {w : Text} (h : RegularPiece opening w) :
    RegularPiece opening (Value.writeText key ++ ": " ++ w) := by
  intro rest hdelimited hrest
  rw [List.append_assoc, List.append_assoc]
  exact regularPiece_writeText hpair key _ (delimited_colon _)
    ((regular_colon hpair _).mpr (h rest hdelimited hrest))

theorem regularPiece_members (layout : Value.Layout) (level : Nat) {ms : List (Text × Value)}
    (h : ∀ m ∈ ms, RegularPiece opening (Value.writeAt layout level m.2)) :
    ∀ w ∈ Value.writeMembers layout level ms, RegularPiece opening w := by
  induction ms with
  | nil => exact fun w hw => absurd hw List.not_mem_nil
  | cons m ms ih =>
    obtain ⟨key, v⟩ := m
    rw [Value.writeMembers]
    intro w hw
    rcases List.mem_cons.mp hw with rfl | hw
    · exact (h _ List.mem_cons_self).member hpair key
    · exact ih (fun m hm => h m (List.mem_cons_of_mem _ hm)) w hw

end Written

end ChangeReview.Reply
