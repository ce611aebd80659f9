import ChangeReview.Proofs.Decimal.FiniteDoubles
import ChangeReview.Proofs.Faults
import ChangeReview.Proofs.Value.ReadFaults
import ChangeReview.Reply.Answers

/-!
# Faults of replies

What a reply can do to the stage that reads it. Whatever is looked for, a reply is read, or refused
as a bad value, or nests too deep. File analyses have one more way to fail: a complexity that stands
for an infinite number, or for a whole one that no double is near to.
-/
namespace ChangeReview.Reply

/-! ## Documents in replies -/

theorem extract_fault {opening closing : Char} {shape t : Text} {fault : Fault}
    (h : extract opening closing shape t = .error fault) : fault.IsOfReader := by
  unfold extract at h
  dsimp only at h
  split at h
  · exact absurd h (by simp)
  · split at h
    · obtain rfl := Except.error.inj h
      exact .inl rfl
    · exact Value.parse_fault h
  · next hparse =>
    obtain rfl := Except.error.inj h
    exact Value.parse_fault hparse

theorem extractObject_fault {t : Text} {fault : Fault} (h : extractObject t = .error fault) :
    fault.IsOfReader := by
  unfold extractObject at h
  split at h
  · exact absurd h (by simp)
  · obtain rfl := Except.error.inj h
    exact .inl rfl
  · next hextract =>
    obtain rfl := Except.error.inj h
    exact extract_fault hextract

theorem extractList_fault {t : Text} {fault : Fault} (h : extractList t = .error fault) :
    fault.IsOfReader := by
  unfold extractList at h
  split at h
  · exact absurd h (by simp)
  · obtain rfl := Except.error.inj h
    exact .inl rfl
  · next hextract =>
    obtain rfl := Except.error.inj h
    exact extract_fault hextract

/-! ## Fix entries -/

theorem wrappedFixes_fault {t : Text} {fault : Fault} (h : wrappedFixes t = .error fault) :
    fault.IsOfReader := by
  unfold wrappedFixes at h
  split at h
  · split at h <;> exact absurd h (by simp)
  · next hobject =>
    split at h
    · exact absurd h (by simp)
    · obtain rfl := Except.error.inj h
      exact extractObject_fault hobject

theorem salvageFrom_fault {required : List Text} {skip : Nat} {t : Text} {fault : Fault}
    (h : salvageFrom required skip t = .error fault) : fault.IsOfReader := by
  induction t generalizing skip with
  | nil => exact absurd h (by simp [salvageFrom])
  | cons c t ih =>
    cases skip with
    | succ skip => exact ih h
    | zero =>
      rw [salvageFrom] at h
      split at h
      · split at h
        · exact absurd h (by simp)
        · split at h
          · split at h
            · exact ih (eq_error_of_map h)
            · exact ih h
          · exact ih h
          · exact ih h
          · next hparse =>
            obtain rfl := Except.error.inj h
            exact Value.parse_fault hparse
      · exact ih h

theorem salvagedFixes_fault {t : Text} {fault : Fault} (h : salvagedFixes t = .error fault) :
    fault.IsOfReader := by
  unfold salvagedFixes at h
  split at h
  · obtain rfl := Except.error.inj h
    exact .inl rfl
  · exact salvageFrom_fault h

/-- Fix entries are read, refused as bad values, or nest too deep. -/
theorem fixEntries_fault {t : Text} {fault : Fault} (h : fixEntries t = .error fault) :
    fault.IsOfReader := by
  unfold fixEntries at h
  split at h
  · exact absurd h (by simp)
  · next hlist =>
    split at h
    · split at h
      · exact absurd h (by simp)
      · exact salvagedFixes_fault h
      · next hwrapped =>
        obtain rfl := Except.error.inj h
        exact wrappedFixes_fault hwrapped
    · obtain rfl := Except.error.inj h
      exact extractList_fault hlist

/-! ## Recommendations -/

/-- Recommendations are read from every reply but one that nests too deep. -/
theorem recommendations_eq_error_iff {t : Text} :
    (∃ fault, recommendations t = .error fault) ↔ ∃ part, extractList t = .error (.tooDeep part) := by
  unfold recommendations
  cases hlist : extractList t with
  | ok items => exact iff_of_false (by simp) (by simp)
  | error fault =>
    cases hbad : fault.isBadValue with
    | true =>
      refine iff_of_false (by simp [hbad]) ?_
      rintro ⟨part, hpart⟩
      rw [Except.error.inj hpart] at hbad
      exact Bool.noConfusion hbad
    | false =>
      obtain ⟨part, rfl⟩ := (extractList_fault hlist).tooDeep hbad
      exact iff_of_true ⟨_, rfl⟩ ⟨part, rfl⟩

/-! ## Complexity scores -/

/-- A double that is infinite. -/
def IsInfinite (x : Float) : Prop := ∃ negative, Binary64.ofFloat x = .infinite negative

/-- A complexity that no whole number is near to: an infinite double, the numeral of one, or a
whole number that no double is near to. -/
inductive IsUnbounded : Value → Prop where
  | infinite {x : Float} : IsInfinite x → IsUnbounded (.float x)
  | numeral {t : Text} {x : Float} : Decimal.readFloat? t = some x → IsInfinite x →
      IsUnbounded (.text t)
  | whole {n : Int} : Binary64.wholeLimit ≤ n.natAbs → IsUnbounded (.int n)

theorem scoreOfFloat_ok_iff (x : Float) : (∃ score, scoreOfFloat x = .ok score) ↔ ¬ IsInfinite x := by
  unfold scoreOfFloat IsInfinite
  cases Binary64.ofFloat x with
  | nan => exact iff_of_true ⟨none, rfl⟩ (by simp)
  | infinite negative => exact iff_of_false (by simp) (by simp)
  | finite negative m e => exact iff_of_true ⟨_, rfl⟩ (by simp)

theorem not_isInfinite {x : Float} (h : Binary64.field x < 2047) : ¬ IsInfinite x := by
  obtain ⟨negative, m, e, hfloat, -⟩ := Binary64.ofFloat_finite h
  rintro ⟨sign, hinfinite⟩
  exact absurd (hfloat.symm.trans hinfinite) (by simp)

/-- A whole number is a score as long as a double is near to it. -/
theorem scoreOfWhole_ok_iff (n : Int) :
    (∃ score, (Decimal.nearest n >>= scoreOfFloat) = .ok score) ↔
      n.natAbs < Binary64.wholeLimit := by
  rw [← Decimal.nearest_eq_ok_iff]
  cases hnearest : Decimal.nearest n with
  | error fault => exact iff_of_false (by simp [bind, Except.bind]) (by simp)
  | ok x =>
    have hscore := (scoreOfFloat_ok_iff x).mpr (not_isInfinite (Decimal.field_nearest hnearest))
    exact iff_of_true hscore ⟨x, rfl⟩

/-- A score is found, or found missing, just where the value is not unbounded. -/
theorem score?_ok_iff (v : Value) : (∃ score, score? v = .ok score) ↔ ¬ IsUnbounded v := by
  cases v with
  | null => exact iff_of_true ⟨none, rfl⟩ nofun
  | list items => exact iff_of_true ⟨none, rfl⟩ nofun
  | object members => exact iff_of_true ⟨none, rfl⟩ nofun
  | bool b =>
    refine iff_of_true ((scoreOfWhole_ok_iff _).mpr ?_) nofun
    have hlimit := Binary64.wholeLimit_bounds.1
    have hpos : 2 ^ 1 ≤ 2 ^ 1023 := Nat.pow_le_pow_right (by decide) (by decide)
    cases b <;> simp <;> omega
  | int n =>
    have hscore := scoreOfWhole_ok_iff n
    refine hscore.trans ⟨?_, ?_⟩
    · rintro hlt ⟨⟩
      omega
    · intro hbounded
      exact Nat.lt_of_not_le fun hle => hbounded (.whole hle)
  | float x =>
    refine (scoreOfFloat_ok_iff x).trans ⟨?_, ?_⟩
    · rintro hfinite (hinfinite | _ | _)
      exact hfinite hinfinite
    · exact fun hbounded hinfinite => hbounded (.infinite hinfinite)
  | text t =>
    cases hread : Decimal.readFloat? t with
    | none =>
      have hscore : score? (.text t) = .ok none := by simp [score?, Value.number?, hread]
      refine iff_of_true ⟨none, hscore⟩ ?_
      rintro (_ | ⟨hsome, _⟩ | _)
      exact absurd (hread.symm.trans hsome) (by simp)
    | some x =>
      have hscore : score? (.text t) = scoreOfFloat x := by simp [score?, Value.number?, hread]
      rw [hscore]
      refine (scoreOfFloat_ok_iff x).trans ⟨?_, ?_⟩
      · rintro hfinite (_ | ⟨hsome, hinfinite⟩ | _)
        obtain rfl := Option.some.inj (hread.symm.trans hsome)
        exact hfinite hinfinite
      · exact fun hbounded hinfinite => hbounded (.numeral hread hinfinite)

theorem scoreOfFloat_fault {x : Float} {fault : Fault} (h : scoreOfFloat x = .error fault) :
    ∃ message, fault = .outOfRange message := by
  unfold scoreOfFloat at h
  split at h
  · exact absurd h (by simp)
  · exact ⟨_, (Except.error.inj h).symm⟩
  · exact absurd h (by simp)

theorem scoreOfWhole_fault {n : Int} {fault : Fault}
    (h : (Decimal.nearest n >>= scoreOfFloat) = .error fault) :
    ∃ message, fault = .outOfRange message := by
  cases hnearest : Decimal.nearest n with
  | ok x =>
    rw [hnearest] at h
    exact scoreOfFloat_fault h
  | error fault' =>
    rw [hnearest] at h
    obtain rfl := Except.error.inj h
    unfold Decimal.nearest at hnearest
    split at hnearest
    · exact absurd hnearest (by simp)
    · exact ⟨_, (Except.error.inj hnearest).symm⟩

/-- A score out of range is no bad value, and no value of the wrong kind. -/
theorem score?_fault {v : Value} {fault : Fault} (h : score? v = .error fault) :
    ∃ message, fault = .outOfRange message := by
  unfold score? at h
  split at h
  · exact scoreOfWhole_fault h
  · exact scoreOfFloat_fault h
  · split at h
    · exact scoreOfFloat_fault h
    · exact absurd h (by simp)
  · exact absurd h (by simp)

/-! ## File analyses -/

/-- The complexity that an entry gives. -/
def complexityOf (entry : List (Text × Value)) : Value :=
  (Value.lookup "complexity" entry).getD .null

/-- An entry of a path that was asked about gives an unbounded complexity. -/
def HasUnbounded (paths : List Text) (members : List (Text × Value)) : Prop :=
  ∃ path entry, (path, .object entry) ∈ members ∧ path ∈ paths ∧ IsUnbounded (complexityOf entry)

/-- A reply that no analyses come of and no notice: it nests too deep, or gives an unbounded
complexity. -/
def SpoilsAnalyses (paths : List Text) (t : Text) : Prop :=
  (∃ part, extractObject t = .error (.tooDeep part)) ∨
    ∃ members, extractObject t = .ok members ∧ HasUnbounded paths members

theorem analysisOf_ok_iff (path : Text) (entry : List (Text × Value)) (base : FileAnalysis) :
    (∃ a, analysisOf path entry base = .ok a) ↔ ¬ IsUnbounded (complexityOf entry) := by
  rw [← score?_ok_iff]
  exact (map_ok_iff _).trans (map_ok_iff _)

theorem analysisOf_fault {path : Text} {entry : List (Text × Value)} {base : FileAnalysis}
    {fault : Fault} (h : analysisOf path entry base = .error fault) :
    ∃ message, fault = .outOfRange message := by
  change ((score? (complexityOf entry)).map _).map _ = _ at h
  exact score?_fault (eq_error_of_map (eq_error_of_map h))

theorem hasUnbounded_cons {paths : List Text} {path : Text} {v : Value}
    {members : List (Text × Value)} :
    HasUnbounded paths ((path, v) :: members) ↔
      (∃ entry, v = .object entry ∧ path ∈ paths ∧ IsUnbounded (complexityOf entry)) ∨
        HasUnbounded paths members := by
  constructor
  · rintro ⟨p, entry, hmem, hp, hunbounded⟩
    rcases List.mem_cons.mp hmem with heq | hmem
    · obtain ⟨rfl, rfl⟩ := Prod.mk.inj heq
      exact .inl ⟨entry, rfl, hp, hunbounded⟩
    · exact .inr ⟨p, entry, hmem, hp, hunbounded⟩
  · rintro (⟨entry, rfl, hp, hunbounded⟩ | ⟨p, entry, hmem, hp, hunbounded⟩)
    · exact ⟨path, entry, List.mem_cons_self, hp, hunbounded⟩
    · exact ⟨p, entry, List.mem_cons_of_mem _ hmem, hp, hunbounded⟩

section Entries

variable {defaults : FileAnalyses}

/-- An entry of no path that was asked about is passed over, and so is one that is no object. -/
theorem analysesOf_skip {path : Text} {v : Value}
    (h : ∀ base entry, defaults.lookup path = some base → v ≠ .object entry)
    (members : List (Text × Value)) :
    analysesOf defaults ((path, v) :: members) = analysesOf defaults members := by
  rw [analysesOf]
  intro base entry hbase heq
  exact h base entry hbase heq

theorem analysesOf_entry {path : Text} {base : FileAnalysis}
    (hbase : defaults.lookup path = some base) (entry members : List (Text × Value)) :
    analysesOf defaults ((path, .object entry) :: members) =
      (analysisOf path entry base).bind fun a =>
        (analysesOf defaults members).bind fun more => .ok ((path, a) :: more) := by
  rw [analysesOf]
  · rfl
  · exact hbase

variable {paths : List Text}
  (hpaths : ∀ path, (defaults.lookup path).isSome = true ↔ path ∈ paths)

include hpaths

/-- The entries of a reply become analyses, unless one of them gives an unbounded complexity. -/
theorem analysesOf_cases (members : List (Text × Value)) :
    ((∃ deep, analysesOf defaults members = .ok deep) ∧ ¬ HasUnbounded paths members) ∨
      ((∃ message, analysesOf defaults members = .error (.outOfRange message)) ∧
        HasUnbounded paths members) := by
  induction members with
  | nil =>
    refine .inl ⟨⟨[], rfl⟩, ?_⟩
    rintro ⟨path, entry, hmem, -⟩
    exact absurd hmem List.not_mem_nil
  | cons m members ih =>
    obtain ⟨path, v⟩ := m
    rw [hasUnbounded_cons]
    by_cases hentry : ∃ base entry, defaults.lookup path = some base ∧ v = .object entry
    · obtain ⟨base, entry, hbase, rfl⟩ := hentry
      have hpath : path ∈ paths := (hpaths path).mp (by rw [hbase]; rfl)
      rw [analysesOf_entry hbase]
      cases hanalysis : analysisOf path entry base with
      | error fault =>
        have hunbounded : IsUnbounded (complexityOf entry) := by
          rw [← Classical.not_not (a := IsUnbounded _), ← analysisOf_ok_iff path entry base]
          simp [hanalysis]
        obtain ⟨message, rfl⟩ := analysisOf_fault hanalysis
        exact .inr ⟨⟨message, rfl⟩, .inl ⟨entry, rfl, hpath, hunbounded⟩⟩
      | ok a =>
        have hbounded := (analysisOf_ok_iff path entry base).mp ⟨a, hanalysis⟩
        rcases ih with ⟨⟨deep, hdeep⟩, hnone⟩ | ⟨⟨message, hfault⟩, hsome⟩
        · refine .inl ⟨⟨(path, a) :: deep, by rw [hdeep]; rfl⟩, ?_⟩
          rintro (⟨entry', heq, -, hunbounded⟩ | hmore)
          · obtain rfl := Value.object.inj heq
            exact hbounded hunbounded
          · exact hnone hmore
        · exact .inr ⟨⟨message, by rw [hfault]; rfl⟩, .inr hsome⟩
    · have hskip := analysesOf_skip (v := v) (fun base entry hbase heq =>
        hentry ⟨base, entry, hbase, heq⟩) members
      rw [hskip]
      rcases ih with ⟨hdeep, hnone⟩ | ⟨hfault, hsome⟩
      · refine .inl ⟨hdeep, ?_⟩
        rintro (⟨entry, rfl, hpath, -⟩ | hmore)
        · obtain ⟨base, hbase⟩ := Option.isSome_iff_exists.mp ((hpaths path).mpr hpath)
          exact hentry ⟨base, entry, hbase, rfl⟩
        · exact hnone hmore
      · exact .inr ⟨hfault, .inr hsome⟩

/-- A reply gives analyses, or is refused as a bad value, or spoils them. -/
theorem fileAnalyses_cases (t : Text) :
    ((∃ deep, fileAnalyses t defaults = .ok deep) ∧ (∃ members, extractObject t = .ok members) ∧
        ¬ SpoilsAnalyses paths t) ∨
      (∃ fault, fileAnalyses t defaults = .error fault ∧ extractObject t = .error fault ∧
        fault.isBadValue = true ∧ ¬ SpoilsAnalyses paths t) ∨
      (∃ fault, fileAnalyses t defaults = .error fault ∧ fault.isBadValue = false ∧
        fault.isMismatch = false ∧ SpoilsAnalyses paths t) := by
  unfold fileAnalyses SpoilsAnalyses
  cases hobject : extractObject t with
  | ok members =>
    rcases analysesOf_cases hpaths members with ⟨hdeep, hnone⟩ | ⟨⟨message, hfault⟩, hsome⟩
    · refine .inl ⟨hdeep, ⟨members, rfl⟩, ?_⟩
      rintro (⟨part, hpart⟩ | ⟨ms, hms, hunbounded⟩)
      · exact absurd hpart (by simp)
      · obtain rfl := Except.ok.inj hms
        exact hnone hunbounded
    · exact .inr (.inr ⟨_, hfault, rfl, rfl, .inr ⟨members, rfl, hsome⟩⟩)
  | error fault =>
    cases hbad : fault.isBadValue with
    | true =>
      refine .inr (.inl ⟨fault, rfl, rfl, hbad, ?_⟩)
      rintro (⟨part, hpart⟩ | ⟨ms, hms, -⟩)
      · rw [Except.error.inj hpart] at hbad
        exact Bool.noConfusion hbad
      · exact absurd hms (by simp)
    | false =>
      obtain ⟨part, rfl⟩ := (extractObject_fault hobject).tooDeep hbad
      exact .inr (.inr ⟨_, rfl, rfl, rfl, .inl ⟨part, rfl⟩⟩)

end Entries

end ChangeReview.Reply
