import ChangeReview.Proofs.Reply.Balance
import ChangeReview.Proofs.Reply.InsideOut
import ChangeReview.Reply.Answers

/-!
# Salvaged objects

A written object with the keys that are needed is salvaged whole, and the search goes on behind it.
Behind the last one nothing is salvaged from a text whose braces are left open or stand in quotes:
the search comes to its end, unless one of the spans in quotes is a document of a size that is
refused.
-/
namespace ChangeReview.Reply

theorem salvageFrom_skip (required : List Text) (s t : Text) :
    salvageFrom required s.length (s ++ t) = salvageFrom required 0 t := by
  induction s with
  | nil => rfl
  | cons c s ih => exact ih

theorem salvageFrom_ne (required : List Text) {c : Char} (hc : c ≠ '\x7b') (t : Text) :
    salvageFrom required 0 (c :: t) = salvageFrom required 0 t := by
  rw [salvageFrom, if_neg (by simpa using hc)]

/-- Nothing is salvaged from a text without an opening brace. -/
theorem salvageFrom_nothing (required : List Text) {s : Text} (hs : '\x7b' ∉ s) (skip : Nat) :
    salvageFrom required skip s = .ok [] := by
  induction s generalizing skip with
  | nil => rfl
  | cons c s ih =>
    obtain ⟨hc, hs⟩ : '\x7b' ≠ c ∧ '\x7b' ∉ s := by simpa using hs
    cases skip with
    | zero => rw [salvageFrom_ne required (Ne.symm hc), ih hs]
    | succ skip => exact ih hs skip

theorem salvageFrom_behind (required : List Text) {p : Text} (hp : '\x7b' ∉ p) (t : Text) :
    salvageFrom required 0 (p ++ t) = salvageFrom required 0 t := by
  induction p with
  | nil => rfl
  | cons c p ih =>
    obtain ⟨hc, hp⟩ : '\x7b' ≠ c ∧ '\x7b' ∉ p := by simpa using hp
    rw [List.cons_append, salvageFrom_ne required (Ne.symm hc), ih hp]

theorem salvageFrom_brace (required : List Text) (t : Text) :
    salvageFrom required 0 ('\x7b' :: t) =
      match firstSpan '\x7b' '\x7d' ('\x7b' :: t) with
      | none => .ok []
      | some span =>
        match Value.parse span with
        | .ok (.object members) =>
          if hasKeys required members then
            (salvageFrom required (span.length - 1) t).map (.object members :: ·)
          else salvageFrom required 0 t
        | .ok _ | .error .notJson => salvageFrom required 0 t
        | .error fault => .error fault := by
  rewrite [salvageFrom, if_pos (by decide)]
  rfl

theorem salvageFrom_append_of_not_mem (required : List Text) {s : Text} (hopening : '\x7b' ∉ s)
    (hclosing : '\x7d' ∉ s) (skip : Nat) (t : Text) :
    salvageFrom required skip (t ++ s) = salvageFrom required skip t := by
  induction t generalizing skip with
  | nil => exact salvageFrom_nothing required hopening skip
  | cons c t ih =>
    cases skip with
    | succ skip => exact ih skip
    | zero =>
      by_cases hc : c = '\x7b'
      · subst hc
        rw [List.cons_append, salvageFrom_brace, salvageFrom_brace, ← List.cons_append,
          firstSpan_append_of_not_mem hopening hclosing]
        simp only [ih]
      · rw [List.cons_append, salvageFrom_ne required hc, salvageFrom_ne required hc, ih]

/-- A written object is salvaged, and the search goes on behind it. -/
theorem salvageFrom_object {required : List Text} {ms : List (Text × Value)}
    (hparse : Value.parse (Value.writeLine (.object ms)) = .ok (.object ms))
    (hkeys : hasKeys required ms = true) (rest : Text) :
    salvageFrom required 0 (Value.writeLine (.object ms) ++ rest) =
      (salvageFrom required 0 rest).map (.object ms :: ·) := by
  have hspan : IsSpan '\x7b' '\x7d' (Value.writeLine (.object ms) ++ rest)
      (Value.writeLine (.object ms)) := (isDocument_write (.object ms) hparse).isSpan rest
  rw [Value.writeLine_object, List.cons_append] at hparse hspan ⊢
  generalize Text.join ", " _ ++ ['\x7d'] = body at hparse hspan ⊢
  rw [List.cons_append] at hspan ⊢
  rw [salvageFrom_brace, firstSpan_of_isSpan hspan]
  simp only [hparse, hkeys, if_true]
  rw [show ('\x7b' :: body).length - 1 = body.length from rfl, salvageFrom_skip]

theorem salvageFrom_comma (required : List Text) (t : Text) :
    salvageFrom required 0 (", " ++ t) = salvageFrom required 0 t :=
  salvageFrom_behind required (by decide) t

/-- Written objects with commas between them are salvaged in order and each once. -/
theorem salvageFrom_objects {required : List Text} (objects : List (List (Text × Value)))
    (h : ∀ ms ∈ objects, Value.parse (Value.writeLine (.object ms)) = .ok (.object ms) ∧
      hasKeys required ms = true)
    (rest : Text) :
    salvageFrom required 0
        (Text.join ", " (objects.map fun ms => Value.writeLine (.object ms)) ++ rest) =
      (salvageFrom required 0 rest).map (objects.map .object ++ ·) := by
  induction objects with
  | nil =>
    show salvageFrom required 0 rest = _
    cases salvageFrom required 0 rest <;> rfl
  | cons ms objects ih =>
    obtain ⟨hread, hkeys⟩ := h ms List.mem_cons_self
    have hmore := ih fun ns hns => h ns (List.mem_cons_of_mem ms hns)
    cases objects with
    | nil =>
      rw [List.map_singleton, Text.join_singleton, salvageFrom_object hread hkeys]
      rfl
    | cons ns objects =>
      rw [List.map_cons] at hmore
      rw [List.map_cons, List.map_cons, Text.join_cons_cons, List.append_assoc, List.append_assoc,
        salvageFrom_object hread hkeys, salvageFrom_comma, hmore]
      cases salvageFrom required 0 rest <;> rfl

/-! ## Behind the last whole object -/

/-- Some brace of the text starts a search whose first span is refused as a document, and not for
its form. -/
def Refused (t : Text) : Prop :=
  ∃ front rest span fault, t = front ++ '\x7b' :: rest ∧
    firstSpan '\x7b' '\x7d' ('\x7b' :: rest) = some span ∧ Value.parse span = .error fault ∧
      fault ≠ .notJson

theorem Refused.cons {t : Text} (h : Refused t) (c : Char) : Refused (c :: t) := by
  obtain ⟨front, rest, span, fault, rfl, hspan⟩ := h
  exact ⟨c :: front, rest, span, fault, rfl, hspan⟩

theorem refused_cons_ne {c : Char} (hc : c ≠ '\x7b') {t : Text} : Refused (c :: t) ↔ Refused t := by
  constructor
  · rintro ⟨front, rest, span, fault, heq, hspan⟩
    rcases front with _ | ⟨d, front⟩
    · exact absurd (List.cons.inj heq).1 hc
    · exact ⟨front, rest, span, fault, (List.cons.inj heq).2, hspan⟩
  · exact fun h => h.cons c

theorem refused_cons_brace {t : Text} : Refused ('\x7b' :: t) ↔
    (∃ span fault, firstSpan '\x7b' '\x7d' ('\x7b' :: t) = some span ∧
      Value.parse span = .error fault ∧ fault ≠ .notJson) ∨ Refused t := by
  constructor
  · rintro ⟨front, rest, span, fault, heq, hspan⟩
    rcases front with _ | ⟨d, front⟩
    · obtain rfl := (List.cons.inj heq).2
      exact .inl ⟨span, fault, hspan⟩
    · exact .inr ⟨front, rest, span, fault, (List.cons.inj heq).2, hspan⟩
  · rintro (⟨span, fault, hspan⟩ | h)
    · exact ⟨[], t, span, fault, rfl, hspan⟩
    · exact h.cons _

/-- A span that is a document, or none for its form, is not refused. -/
theorem refused_of_span {t span : Text}
    (hspan : firstSpan '\x7b' '\x7d' ('\x7b' :: t) = some span)
    (h : ∀ fault, Value.parse span = .error fault → fault = .notJson) :
    Refused ('\x7b' :: t) ↔ Refused t := by
  rw [refused_cons_brace]
  refine ⟨?_, .inr⟩
  rintro (⟨span', fault, hspan', hparse, hfault⟩ | hrefused)
  · obtain rfl := Option.some.inj (hspan.symm.trans hspan')
    exact absurd (h fault hparse) hfault
  · exact hrefused

/-- Where no span is left nothing is refused. -/
theorem not_refused_of_none {t : Text} (h : firstSpan '\x7b' '\x7d' t = none) : ¬ Refused t := by
  induction t with
  | nil =>
    rintro ⟨front, rest, _, _, heq, -⟩
    exact absurd heq (by simp)
  | cons c t ih =>
    have htail := ih (firstSpan_eq_none_tail h)
    by_cases hc : c = '\x7b'
    · subst hc
      rw [refused_cons_brace]
      rintro (⟨span, fault, hspan, -⟩ | hrefused)
      · exact absurd (h.symm.trans hspan) (by simp)
      · exact htail hrefused
    · rwa [refused_cons_ne hc]

theorem mem_of_lookup {key : Text} {ms : List (Text × Value)}
    (h : (Value.lookup key ms).isSome = true) : ∃ m ∈ ms, m.1 = key := by
  induction ms with
  | nil => exact absurd h (by simp [Value.lookup])
  | cons m ms ih =>
    obtain ⟨k, v⟩ := m
    rw [Value.lookup] at h
    split at h
    · next hk => exact ⟨(k, v), List.mem_cons_self, hk⟩
    · obtain ⟨m, hm, hkey⟩ := ih h
      exact ⟨m, List.mem_cons_of_mem _ hm, hkey⟩

/-- An object with foreign keys lacks every other key. -/
theorem hasKeys_foreign {required : List Text} {key : Text} (hkey : key ∈ required)
    (hforeign : ¬ IsForeignKey key) {ms : List (Text × Value)} (h : ForeignMembers ms) :
    hasKeys required ms = false := by
  rw [← Bool.not_eq_true, hasKeys, List.all_eq_true]
  intro hall
  obtain ⟨m, hm, rfl⟩ := mem_of_lookup (hall key hkey)
  exact hforeign (h m hm)

/-- Nothing is salvaged from inside quotes: the search ends with nothing or with a refusal. -/
theorem salvageFrom_inside {required : List Text} {key : Text} (hkey : key ∈ required)
    (hforeign : ¬ IsForeignKey key) {t : Text} (h : OpensInside '\x7b' '\x7d' t) :
    (¬ Refused t ∧ salvageFrom required 0 t = .ok []) ∨
      (Refused t ∧ ∃ fault, salvageFrom required 0 t = .error fault) := by
  induction t with
  | nil => exact .inl ⟨not_refused_of_none rfl, rfl⟩
  | cons c t ih =>
    have htail := ih h.tail
    by_cases hc : c = '\x7b'
    · subst hc
      rw [salvageFrom_brace]
      cases hspan : firstSpan '\x7b' '\x7d' ('\x7b' :: t) with
      | none => exact .inl ⟨not_refused_of_none hspan, rfl⟩
      | some span =>
        have hinside := h.firstSpan hspan
        dsimp only
        cases hparse : Value.parse span with
        | ok v =>
          rw [refused_of_span hspan (by simp [hparse])]
          cases v with
          | object ms =>
            have hms : ForeignMembers ms := (parse_foreign (by decide) hinside hparse).1
            dsimp only
            rw [hasKeys_foreign hkey hforeign hms, if_neg Bool.false_ne_true]
            exact htail
          | _ => exact htail
        | error fault =>
          by_cases hfault : fault = .notJson
          · subst hfault
            rw [refused_of_span hspan (by simp [hparse])]
            exact htail
          · refine .inr ⟨refused_cons_brace.mpr (.inl ⟨span, fault, hspan, hparse, hfault⟩), fault, ?_⟩
            cases fault <;> first | rfl | exact absurd rfl hfault
    · rwa [salvageFrom_ne required hc, refused_cons_ne hc]

end ChangeReview.Reply
