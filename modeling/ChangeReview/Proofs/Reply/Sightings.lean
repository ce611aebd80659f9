import ChangeReview.Proofs.Reply.Salvage

/-!
# Where salvaged objects stand

The search for objects sees each one from a brace, its cursor, that may stand in front of the object
and be left open. It takes up again as many characters behind the cursor as the object has. So an
object behind an open brace is used up in part or not at all, and what starts in the part that is
left is found once more.
-/
namespace ChangeReview.Reply

/-! ## Places of a text -/

/-- The brace at the place is closed at the end of the span. -/
def SpanAt (t : Text) (place : Nat) (span : Text) : Prop :=
  t[place]? = some '\x7b' ∧ IsSpan '\x7b' '\x7d' (t.drop place) span

theorem SpanAt.unique {t : Text} {place : Nat} {span span' : Text} (h : SpanAt t place span)
    (h' : SpanAt t place span') : span = span' := by
  obtain ⟨-, n, hn, rfl⟩ := h
  obtain ⟨-, n', hn', rfl⟩ := h'
  obtain rfl := Option.some.inj (hn.symm.trans hn')
  rfl

theorem spanAt_drop {t : Text} {place k : Nat} {span : Text} :
    SpanAt (t.drop place) k span ↔ SpanAt t (place + k) span := by
  rw [SpanAt, SpanAt, List.getElem?_drop, List.drop_drop]

theorem not_spanAt_of_length_le {t : Text} {place : Nat} (h : t.length ≤ place) (span : Text) :
    ¬ SpanAt t place span := by
  rintro ⟨hbrace, -⟩
  exact absurd hbrace (by simp [h])

/-- A span is what the text has at its place. -/
theorem SpanAt.front {t : Text} {place : Nat} {span : Text} (h : SpanAt t place span) :
    span <+: t.drop place := by
  obtain ⟨-, n, -, rfl⟩ := h
  exact List.take_prefix n _

theorem not_spanAt_of_firstSpan_none {t : Text} (h : firstSpan '\x7b' '\x7d' t = none) :
    ∀ place span, ¬ SpanAt t place span := by
  induction t with
  | nil => exact fun place span => not_spanAt_of_length_le (Nat.zero_le place) span
  | cons c t ih =>
    rintro (_ | place) span ⟨hbrace, hspan⟩
    · obtain rfl : c = '\x7b' := Option.some.inj hbrace
      exact absurd (h.symm.trans (firstSpan_of_isSpan hspan)) (by simp)
    · exact ih (firstSpan_eq_none_tail h) place span ⟨hbrace, hspan⟩

/-- The first span stands at the first brace that is closed. -/
theorem exists_spanAt_of_firstSpan {t span : Text} (h : firstSpan '\x7b' '\x7d' t = some span) :
    ∃ place, SpanAt t place span ∧ ∀ p < place, ∀ span', ¬ SpanAt t p span' := by
  induction t with
  | nil => exact absurd h (by simp [firstSpan])
  | cons c t ih =>
    by_cases hhead : ∃ span', SpanAt (c :: t) 0 span'
    · obtain ⟨span', hbrace, hspan⟩ := hhead
      obtain rfl : c = '\x7b' := Option.some.inj hbrace
      obtain rfl := Option.some.inj ((firstSpan_of_isSpan hspan).symm.trans h)
      exact ⟨0, ⟨hbrace, hspan⟩, fun p hp => absurd hp (Nat.not_lt_zero p)⟩
    · have htail : firstSpan '\x7b' '\x7d' t = some span := by
        by_cases hc : c = '\x7b'
        · subst hc
          cases hopen : spanLength '\x7b' '\x7d' 0 0 .outside ('\x7b' :: t) with
          | none => rwa [firstSpan_unclosed hopen] at h
          | some n => exact absurd ⟨_, rfl, n, hopen, rfl⟩ hhead
        · rwa [firstSpan_cons_ne hc] at h
      obtain ⟨place, hplace, hbefore⟩ := ih htail
      refine ⟨place + 1, hplace, ?_⟩
      rintro (_ | p) hp span' hspan'
      · exact hhead ⟨span', hspan'⟩
      · exact hbefore p (by omega) span' hspan'

/-- No brace from the place on is closed where no span is found. -/
theorem not_spanAt_of_drop {t : Text} {place : Nat}
    (h : firstSpan '\x7b' '\x7d' (t.drop place) = none) :
    ∀ p, place ≤ p → ∀ span, ¬ SpanAt t p span := by
  intro p hp span
  obtain ⟨k, rfl⟩ := Nat.exists_eq_add_of_le hp
  rw [← spanAt_drop]
  exact not_spanAt_of_firstSpan_none h k span

/-- The span that is found stands at the first brace from the place on that is closed. -/
theorem exists_spanAt_of_drop {t span : Text} {place : Nat}
    (h : firstSpan '\x7b' '\x7d' (t.drop place) = some span) :
    ∃ start, place ≤ start ∧ SpanAt t start span ∧
      ∀ p, place ≤ p → p < start → ∀ span', ¬ SpanAt t p span' := by
  obtain ⟨k, hspan, hbefore⟩ := exists_spanAt_of_firstSpan h
  refine ⟨place + k, Nat.le_add_right place k, spanAt_drop.mp hspan, fun p hp hlt span' => ?_⟩
  obtain ⟨d, rfl⟩ := Nat.exists_eq_add_of_le hp
  rw [← spanAt_drop]
  exact hbefore d (by omega) span'

/-! ## What the search goes through -/

variable {required : List Text} {t : Text}

/-- At the place stands an object with the keys that are needed. -/
structure ObjectAt (required : List Text) (t : Text) (place : Nat) (span : Text)
    (members : List (Text × Value)) : Prop where
  spans : SpanAt t place span
  reads : Value.parse span = .ok (.object members)
  keys : hasKeys required members = true

def HoldsObject (required : List Text) (t : Text) (place : Nat) : Prop :=
  ∃ span members, ObjectAt required t place span members

theorem ObjectAt.length_pos {place : Nat} {span : Text} {members : List (Text × Value)}
    (h : ObjectAt required t place span members) : 0 < span.length := by
  rcases span with _ | ⟨c, span⟩
  · exact absurd h.reads (by simp [show Value.parse [] = .error .notJson from rfl])
  · exact Nat.succ_pos _

/-- From the brace at the cursor on no brace in front of the place is closed. -/
structure LeadsTo (t : Text) (cursor place : Nat) : Prop where
  brace : t[cursor]? = some '\x7b'
  cursor_le : cursor ≤ place
  unclosed : ∀ p, cursor ≤ p → p < place → ∀ span, ¬ SpanAt t p span

/-- An object that was found, where it starts, and the brace that it was seen from. -/
@[ext]
structure Sighting where
  cursor : Nat
  start : Nat
  span : Text
  members : List (Text × Value)

namespace Sighting

def value (s : Sighting) : Value := .object s.members

/-- The end of the object. -/
def stop (s : Sighting) : Nat := s.start + s.span.length

/-- Where the search takes up again. -/
def resume (s : Sighting) : Nat := s.cursor + s.span.length

end Sighting

/-- The first object from the place on, seen from the first brace from which it can be. -/
structure FirstFrom (required : List Text) (t : Text) (place : Nat) (s : Sighting) : Prop where
  object : ObjectAt required t s.start s.span s.members
  first : ∀ p, place ≤ p → p < s.start → ¬ HoldsObject required t p
  place_le : place ≤ s.cursor
  leads : LeadsTo t s.cursor s.start
  least : ∀ p, place ≤ p → p < s.cursor → ¬ LeadsTo t p s.start

theorem LeadsTo.firstFrom {cursor start : Nat} {span : Text} {members : List (Text × Value)}
    (h : LeadsTo t cursor start) (hobject : ObjectAt required t start span members) :
    FirstFrom required t cursor ⟨cursor, start, span, members⟩ where
  object := hobject
  first p hp hlt := fun ⟨span', _, hother⟩ => h.unclosed p hp hlt span' hother.spans
  place_le := Nat.le_refl cursor
  leads := h
  least _ hp hlt := absurd hlt (Nat.not_lt.mpr hp)

/-- The objects that are found from the place on, one after the other. -/
inductive Search (required : List Text) (t : Text) : Nat → List Sighting → Prop where
  | done {place : Nat} (hnone : ∀ p, place ≤ p → ¬ HoldsObject required t p) :
    Search required t place []
  | found {place : Nat} {s : Sighting} {more : List Sighting} (hs : FirstFrom required t place s)
    (hmore : Search required t s.resume more) : Search required t place (s :: more)

/-- A place without an object is passed, unless an object farther on is seen from it. -/
theorem Search.extend {place : Nat} {found : List Sighting} (hno : ¬ HoldsObject required t place)
    (hpass : ∀ start, place < start → HoldsObject required t start → ¬ LeadsTo t place start)
    (h : Search required t (place + 1) found) : Search required t place found := by
  cases h with
  | done hnone =>
    refine .done fun p hp => ?_
    rcases Nat.eq_or_lt_of_le hp with rfl | hlt
    · exact hno
    · exact hnone p hlt
  | @found _ s more hs hmore =>
    have hlater : place < s.start := Nat.lt_of_lt_of_le hs.place_le hs.leads.cursor_le
    refine .found ⟨hs.object, fun p hp hlt => ?_, Nat.le_of_lt hs.place_le, hs.leads,
      fun p hp hlt => ?_⟩ hmore
    · rcases Nat.eq_or_lt_of_le hp with rfl | hp
      · exact hno
      · exact hs.first p hp hlt
    · rcases Nat.eq_or_lt_of_le hp with rfl | hp
      · exact hpass _ hlater ⟨_, _, hs.object⟩
      · exact hs.least p hp hlt

theorem Search.behind_ne {place : Nat} {found : List Sighting} (hbrace : t[place]? ≠ some '\x7b')
    (h : Search required t (place + 1) found) : Search required t place found :=
  h.extend (fun ⟨_, _, hobject⟩ => hbrace hobject.spans.1) fun _ _ _ hleads => hbrace hleads.brace

/-- A brace is passed where the first span from it on is no object that is needed. -/
theorem Search.behind_span {place start : Nat} {span : Text} {found : List Sighting}
    (hleads : LeadsTo t place start) (hspan : SpanAt t start span)
    (hno : ∀ members, Value.parse span = .ok (.object members) → hasKeys required members = false)
    (h : Search required t (place + 1) found) : Search required t place found := by
  have hfarther : ∀ p, place ≤ p → HoldsObject required t p → start < p := by
    rintro p hp ⟨span', members, hobject⟩
    rcases Nat.lt_trichotomy p start with hlt | rfl | hlt
    · exact absurd hobject.spans (hleads.unclosed p hp hlt span')
    · obtain rfl := hspan.unique hobject.spans
      exact absurd hobject.keys (by simp [hno members hobject.reads])
    · exact hlt
  refine h.extend (fun hholds => ?_) fun later hlater hholds hother => ?_
  · have hlt := hfarther place (Nat.le_refl place) hholds
    exact absurd hleads.cursor_le (Nat.not_le.mpr hlt)
  · have hlt := hfarther later (Nat.le_of_lt hlater) hholds
    exact hother.unclosed start hleads.cursor_le hlt span hspan

theorem Search.of_unclosed {place : Nat} (h : firstSpan '\x7b' '\x7d' (t.drop place) = none) :
    Search required t place [] :=
  .done fun p hp ⟨span, _, hobject⟩ => not_spanAt_of_drop h p hp span hobject.spans

/-- What a search from a brace comes to. -/
theorem salvageFrom_brace_eq_ok {r : Text} {values : List Value}
    (h : salvageFrom required 0 ('\x7b' :: r) = .ok values) :
    (firstSpan '\x7b' '\x7d' ('\x7b' :: r) = none ∧ values = []) ∨
    ∃ span, firstSpan '\x7b' '\x7d' ('\x7b' :: r) = some span ∧
      ((∃ members more, Value.parse span = .ok (.object members) ∧
          hasKeys required members = true ∧
          salvageFrom required (span.length - 1) r = .ok more ∧ values = .object members :: more) ∨
        ((∀ members, Value.parse span = .ok (.object members) → hasKeys required members = false) ∧
          salvageFrom required 0 r = .ok values)) := by
  rw [salvageFrom_brace] at h
  split at h
  · next hnone => exact .inl ⟨hnone, (Except.ok.inj h).symm⟩
  · next span hspan =>
    refine .inr ⟨span, hspan, ?_⟩
    split at h
    · next members hparse =>
      split at h
      · next hkeys =>
        cases hmore : salvageFrom required (span.length - 1) r with
        | error fault => exact absurd h (by simp [hmore, Except.map])
        | ok more =>
          rw [hmore] at h
          exact .inl ⟨members, more, hparse, hkeys, rfl, (Except.ok.inj h).symm⟩
      · next hkeys =>
        refine .inr ⟨fun members' hparse' => ?_, h⟩
        obtain rfl : members = members' := by simpa using hparse.symm.trans hparse'
        simpa using hkeys
    · next v hother hv =>
      exact .inr ⟨fun members hparse =>
        absurd (Except.ok.inj (hv.symm.trans hparse)) (hother members), h⟩
    · next hfault =>
      exact .inr ⟨fun members hparse => absurd (hfault.symm.trans hparse) (by simp), h⟩
    · exact absurd h (by simp)

/-- What is salvaged is found by a search. -/
theorem exists_search {u : Text} {place skip : Nat} {values : List Value} (hu : t.drop place = u)
    (h : salvageFrom required skip u = .ok values) :
    ∃ found, Search required t (place + skip) found ∧ values = found.map Sighting.value := by
  induction u generalizing place skip values with
  | nil =>
    obtain rfl := Except.ok.inj h
    have hend : t.length ≤ place + skip := Nat.le_add_right_of_le (List.drop_eq_nil_iff.mp hu)
    refine ⟨[], .of_unclosed ?_, rfl⟩
    rw [List.drop_eq_nil_iff.mpr hend]
    rfl
  | cons c r ih =>
    have hchar : t[place]? = some c := by
      rw [← Nat.add_zero place, ← List.getElem?_drop, hu]
      rfl
    have hr : t.drop (place + 1) = r := by
      rw [← List.drop_drop, hu]
      rfl
    cases skip with
    | succ skip =>
      obtain ⟨found, hsearch, hvalues⟩ := ih hr h
      rw [Nat.add_assoc, Nat.add_comm 1] at hsearch
      exact ⟨found, hsearch, hvalues⟩
    | zero =>
      by_cases hc : c = '\x7b'
      · subst hc
        rcases salvageFrom_brace_eq_ok h with ⟨hnone, rfl⟩ | ⟨span, hspan, hcase⟩
        · rw [← hu] at hnone
          exact ⟨[], .of_unclosed hnone, rfl⟩
        · rw [← hu] at hspan
          obtain ⟨start, hstart, hat, hopen⟩ := exists_spanAt_of_drop hspan
          have hleads : LeadsTo t place start := ⟨hchar, hstart, hopen⟩
          rcases hcase with ⟨members, more, hparse, hkeys, hmore, rfl⟩ | ⟨hno, hmore⟩
          · have hobject : ObjectAt required t start span members := ⟨hat, hparse, hkeys⟩
            obtain ⟨found, hsearch, rfl⟩ := ih hr hmore
            have hresume : place + 1 + (span.length - 1) = place + span.length := by
              have hpos := hobject.length_pos
              omega
            rw [hresume] at hsearch
            exact ⟨_, .found (hleads.firstFrom hobject) hsearch, rfl⟩
          · obtain ⟨found, hsearch, hvalues⟩ := ih hr hmore
            exact ⟨found, .behind_span hleads hat hno hsearch, hvalues⟩
      · rw [salvageFrom_ne required hc] at h
        obtain ⟨found, hsearch, hvalues⟩ := ih hr h
        exact ⟨found, .behind_ne (by simpa [hchar] using hc) hsearch, hvalues⟩

/-! ## One search -/

theorem FirstFrom.le_start {place : Nat} {s : Sighting} (h : FirstFrom required t place s) :
    place ≤ s.start :=
  Nat.le_trans h.place_le h.leads.cursor_le

theorem FirstFrom.unique {place : Nat} {s s' : Sighting} (h : FirstFrom required t place s)
    (h' : FirstFrom required t place s') : s = s' := by
  have hstart : s.start = s'.start := by
    rcases Nat.lt_trichotomy s.start s'.start with hlt | heq | hlt
    · exact absurd ⟨_, _, h.object⟩ (h'.first _ h.le_start hlt)
    · exact heq
    · exact absurd ⟨_, _, h'.object⟩ (h.first _ h'.le_start hlt)
  have hcursor : s.cursor = s'.cursor := by
    rcases Nat.lt_trichotomy s.cursor s'.cursor with hlt | heq | hlt
    · exact absurd (hstart ▸ h.leads) (h'.least _ h.place_le hlt)
    · exact heq
    · exact absurd (hstart ▸ h'.leads) (h.least _ h'.place_le hlt)
  have hspan : s.span = s'.span := h.object.spans.unique (hstart ▸ h'.object.spans)
  have hmembers : s.members = s'.members := by
    have hreads := h'.object.reads
    rw [← hspan, h.object.reads] at hreads
    simpa using hreads
  exact Sighting.ext hcursor hstart hspan hmembers

theorem Search.unique {place : Nat} {found other : List Sighting}
    (h : Search required t place found) (h' : Search required t place other) : found = other := by
  induction h generalizing other with
  | done hnone =>
    cases h' with
    | done _ => rfl
    | found hs _ => exact absurd ⟨_, _, hs.object⟩ (hnone _ hs.le_start)
  | found hs _ ih =>
    cases h' with
    | done hnone => exact absurd ⟨_, _, hs.object⟩ (hnone _ hs.le_start)
    | found hs' hmore' =>
      obtain rfl := hs.unique hs'
      rw [ih hmore']

theorem Search.objectAt {place : Nat} {found : List Sighting} (h : Search required t place found) :
    ∀ s ∈ found, ObjectAt required t s.start s.span s.members := by
  induction h with
  | done _ => simp
  | found hs _ ih => exact List.forall_mem_cons.mpr ⟨hs.object, ih⟩

theorem Search.le_start {place : Nat} {found : List Sighting} (h : Search required t place found) :
    ∀ s ∈ found, place ≤ s.start := by
  induction h with
  | done _ => simp
  | @found place s more hs _ ih =>
    have hresume : place ≤ s.resume := Nat.le_trans hs.place_le (Nat.le_add_right _ _)
    exact List.forall_mem_cons.mpr ⟨hs.le_start, fun b hb => Nat.le_trans hresume (ih b hb)⟩

/-- The objects that are found start behind a limit just where no object of the text starts between
the place and the limit. -/
theorem Search.le_start_iff {place limit : Nat} {found : List Sighting}
    (h : Search required t place found) : (∀ s ∈ found, limit ≤ s.start) ↔
      ∀ p, place ≤ p → p < limit → ¬ HoldsObject required t p := by
  constructor
  · intro hall p hp hlt hholds
    cases h with
    | done hnone => exact hnone p hp hholds
    | @found _ s _ hs _ =>
      have hlimit : limit ≤ s.start := hall s List.mem_cons_self
      exact hs.first p hp (by omega) hholds
  · intro hnone s hs
    by_contra hlt
    exact hnone s.start (h.le_start s hs) (by omega) ⟨_, _, h.objectAt s hs⟩

/-- Objects are found in the order in which they start. -/
theorem Search.ordered {place : Nat} {found : List Sighting} (h : Search required t place found) :
    found.Pairwise fun a b => a.start ≤ b.start := by
  induction h with
  | done _ => exact .nil
  | @found place s more hs hmore ih =>
    refine .cons (hmore.le_start_iff.mpr fun p hp hlt => hs.first p ?_ hlt) ih
    have hplace := hs.place_le
    rw [Sighting.resume] at hp
    omega

/-- No object starts in the part of this one that the search goes through again. -/
def Sighting.Covered (required : List Text) (t : Text) (s : Sighting) : Prop :=
  ∀ p, s.resume ≤ p → p < s.stop → ¬ HoldsObject required t p

theorem Search.apart_iff {place : Nat} {found : List Sighting} (h : Search required t place found) :
    (found.Pairwise fun a b => a.stop ≤ b.start) ↔ ∀ s ∈ found, s.Covered required t := by
  induction h with
  | done _ => simp
  | found _ hmore ih =>
    rw [List.pairwise_cons, List.forall_mem_cons, ih, hmore.le_start_iff]
    rfl

/-! ## Stretches that do not overlap -/

/-- The values are read from stretches of the text that follow one another and do not overlap. -/
def DecodedApart (t : Text) (values : List Value) : Prop :=
  ∃ stretches : List (Nat × Text), stretches.Pairwise (fun a b => a.1 + a.2.length ≤ b.1) ∧
    (∀ s ∈ stretches, s.2 <+: t.drop s.1) ∧
    stretches.map (fun s => Value.parse s.2) = values.map .ok

theorem Search.decodedApart {place : Nat} {found : List Sighting}
    (h : Search required t place found) (hfound : found.Pairwise fun a b => a.stop ≤ b.start) :
    DecodedApart t (found.map Sighting.value) := by
  refine ⟨found.map fun s => (s.start, s.span), ?_, ?_, ?_⟩
  · rw [List.pairwise_map]
    exact hfound
  · intro stretch hstretch
    obtain ⟨s, hs, rfl⟩ := List.mem_map.mp hstretch
    exact (h.objectAt s hs).spans.front
  · rw [List.map_map, List.map_map, List.map_inj_left]
    exact fun s hs => (h.objectAt s hs).reads

/-- Every brace of the text is closed. -/
def BracesClose (t : Text) : Prop :=
  ∀ p, t[p]? = some '\x7b' → ∃ span, SpanAt t p span

/-- From a brace that is closed only the object is seen that starts there. -/
theorem Search.covered_of_bracesClose {place : Nat} {found : List Sighting}
    (h : Search required t place found) (hclose : BracesClose t) :
    ∀ s ∈ found, s.Covered required t := by
  induction h with
  | done _ => simp
  | @found _ s _ hs _ ih =>
    refine List.forall_mem_cons.mpr ⟨fun p hp hlt => ?_, ih⟩
    obtain ⟨span, hspan⟩ := hclose s.cursor hs.leads.brace
    have hsame : ¬ s.cursor < s.start := fun hlt =>
      hs.leads.unclosed s.cursor (Nat.le_refl _) hlt span hspan
    rw [Sighting.resume] at hp
    rw [Sighting.stop] at hlt
    have hle := hs.leads.cursor_le
    omega

/-- What is salvaged was found by one search, in the order in which it stands in the text. The
objects do not overlap just where none of them has a part that is gone through again and starts an
object. So they are read from stretches that do not overlap where every brace is closed. -/
theorem salvage_sightings {values : List Value} (h : salvage t required = .ok values) :
    ∃ found, Search required t 0 found ∧ (∀ other, Search required t 0 other → other = found) ∧
      values = found.map Sighting.value ∧
      (found.Pairwise fun a b => a.start ≤ b.start) ∧
      ((found.Pairwise fun a b => a.stop ≤ b.start) ↔ ∀ s ∈ found, s.Covered required t) ∧
      ((∀ s ∈ found, s.Covered required t) → DecodedApart t values) ∧
      (BracesClose t → DecodedApart t values) := by
  obtain ⟨found, hsearch, rfl⟩ := exists_search List.drop_zero h
  have hapart : (∀ s ∈ found, s.Covered required t) → DecodedApart t (found.map Sighting.value) :=
    fun hcovered => hsearch.decodedApart (hsearch.apart_iff.mpr hcovered)
  exact ⟨found, hsearch, fun other hother => hother.unique hsearch, rfl, hsearch.ordered,
    hsearch.apart_iff, hapart, fun hclose => hapart (hsearch.covered_of_bracesClose hclose)⟩

/-- A reply with an object in another one and one behind it. -/
def nestedReply : Text :=
  "\x7b\"note\": \x7b\"file\": \"a.py\", \"comment\": \"b\"\x7d\x7d, " ++
    "\x7b\"file\": \"c.py\", \"comment\": \"d\"\x7d"

theorem salvage_sightings_nested :
    let values : List Value := [.object [("file", .text "a.py"), ("comment", .text "b")],
      .object [("file", .text "c.py"), ("comment", .text "d")]]
    salvage nestedReply fixKeys = .ok values ∧ DecodedApart nestedReply values := by
  intro values
  have hvalues : salvage nestedReply fixKeys = .ok values := by decide +kernel
  have hbraces : ∀ p < nestedReply.length, nestedReply[p]? = some '\x7b' →
      (spanLength '\x7b' '\x7d' 0 0 .outside (nestedReply.drop p)).isSome = true := by
    decide +kernel
  have hclose : BracesClose nestedReply := by
    intro p hp
    obtain ⟨hlt, -⟩ := List.getElem?_eq_some_iff.mp hp
    obtain ⟨n, hn⟩ := Option.isSome_iff_exists.mp (hbraces p hlt hp)
    exact ⟨_, hp, n, hn, rfl⟩
  obtain ⟨found, -, -, -, -, -, -, hapart⟩ := salvage_sightings hvalues
  exact ⟨hvalues, hapart hclose⟩

/-! ## Behind a brace that is left open -/

/-- Every object that is read from a stretch of its own has a closing brace of its own. -/
theorem DecodedApart.length_le_count {objects : List (List (Text × Value))}
    (h : DecodedApart t (objects.map .object)) : objects.length ≤ List.count '\x7d' t := by
  obtain ⟨stretches, hpairwise, hfront, hparse⟩ := h
  suffices hfrom : ∀ place, (∀ s ∈ stretches, place ≤ s.1) →
      objects.length ≤ List.count '\x7d' (t.drop place) by
    simpa using hfrom 0 (by simp)
  induction stretches generalizing objects with
  | nil =>
    intro place _
    have hnil : objects = [] := by simpa using hparse.symm
    simp [hnil]
  | cons s stretches ih =>
    intro place hplace
    rcases objects with _ | ⟨ms, objects⟩
    · simp
    obtain ⟨hread, hmore⟩ := List.cons.inj hparse
    obtain ⟨hbehind, hpairwise⟩ := List.pairwise_cons.mp hpairwise
    obtain ⟨hthis, hfront⟩ := List.forall_mem_cons.mp hfront
    obtain ⟨rest, hrest⟩ := hthis
    have hstop : t.drop (s.1 + s.2.length) = rest := by
      rw [← List.drop_drop, ← hrest, List.drop_left]
    have hlater := ih hpairwise hfront hmore (s.1 + s.2.length) hbehind
    have hbrace : 0 < List.count '\x7d' s.2 :=
      List.count_pos_iff.mpr (mem_closing_of_parse (.object ms) hread)
    have hsuffix : t.drop s.1 <:+ t.drop place := List.drop_suffix_drop_left t (hplace s (by simp))
    have hcount := hsuffix.sublist.count_le '\x7d'
    rw [← hrest, List.count_append, ← hstop] at hcount
    rw [List.length_cons]
    omega

/-- A reply that was cut off in front of the brackets that close its list and itself. -/
def unclosedReply : Text :=
  "\x7b\"summary\": \"Two problems were found in the change.\", " ++
    "\"fixes\": [\x7b\"file\": \"a.py\", \"comment\": \"b\"\x7d"

/-- The one object of a reply is reported twice, once from the brace in front of it. -/
theorem salvage_repeats :
    ¬ ∀ (t : Text) (required : List Text) (values : List Value),
      salvage t required = .ok values → DecodedApart t values := by
  intro h
  have hvalues : salvage unclosedReply fixKeys =
      .ok (List.replicate 2 (.object [("file", .text "a.py"), ("comment", .text "b")])) := by
    decide +kernel
  have hapart := h unclosedReply fixKeys _ hvalues
  rw [← List.map_replicate] at hapart
  exact absurd hapart.length_le_count (by decide +kernel)

end ChangeReview.Reply
