import ChangeReview.Analysis.Run
import ChangeReview.Proofs.Scan.SoundReports

/-!
# Values that are no reports

A value that is no report is read with one of two sorts of fault: one for which it is passed over, or
that of asking a value for a member which its kind lacks. The second sort comes from a value that
has something else where a record is to be, and a value without such places is passed over or read.
-/
namespace ChangeReview.Analysis

open Scan (isObject memberOf)

/-- The computation ends well, with a fault for which a value is passed over, or, unless `P` holds,
with that of a member that is lacking. -/
inductive Admits {α : Type} (P : Prop) : Except Fault α → Prop where
  | ok (a : α) : Admits P (.ok a)
  | passed {fault : Fault} (h : isDiscarded fault = true) : Admits P (.error fault)
  | lacking {kind member : Text} (h : ¬ P) : Admits P (.error (.noMember kind member))

namespace Admits

variable {α β : Type} {P : Prop} {r : Except Fault α}

theorem bind {f : α → Except Fault β} (h : Admits P r) (hf : ∀ a, r = .ok a → Admits P (f a)) :
    Admits P (r >>= f) := by
  cases h with
  | ok a => exact hf a rfl
  | passed h => exact .passed h
  | lacking h => exact .lacking h

theorem map (h : Admits P r) (f : α → β) : Admits P (r.map f) := by
  cases h with
  | ok a => exact .ok _
  | passed h => exact .passed h
  | lacking h => exact .lacking h

theorem mapM {f : β → Except Fault α} {items : List β} (h : ∀ x ∈ items, Admits P (f x)) :
    Admits P (items.mapM f) := by
  induction items with
  | nil => exact .ok []
  | cons x items ih =>
    rw [List.mapM_cons]
    refine (h x List.mem_cons_self).bind fun a _ => ?_
    exact (ih fun y hy => h y (List.mem_cons_of_mem x hy)).bind fun _ _ => .ok _

theorem foldlM {f : α → β → Except Fault α} (h : ∀ a x, Admits P (f a x)) (items : List β) (a : α) :
    Admits P (items.foldlM f a) := by
  induction items generalizing a with
  | nil => exact .ok a
  | cons x items ih =>
    rw [List.foldlM_cons]
    exact (h a x).bind fun b _ => ih b

/-- The only other fault is that of a member that is lacking, and not where `P` holds. -/
theorem error {fault : Fault} (h : Admits P (.error fault : Except Fault α)) :
    isDiscarded fault = true ∨ ¬ P ∧ ∃ kind member, fault = .noMember kind member := by
  cases h with
  | passed h => exact .inl h
  | lacking h => exact .inr ⟨h, _, _, rfl⟩

end Admits

/-! ## Members -/

section Members

variable {P : Prop} {v : Value}

theorem admits_getD (h : P → isObject v = true) (key : Text) (default : Value) :
    Admits P (v.getD key default) := by
  cases v with
  | object members => exact .ok _
  | _ => exact .lacking fun hp => Bool.false_ne_true (h hp)

theorem isObject_of_require {key : Text} {w : Value} (h : v.require key = .ok w) :
    isObject v = true := by
  cases v <;> first | rfl | exact absurd h (by simp [Value.require])

theorem eq_of_getD {key : Text} {default w : Value} (h : v.getD key default = .ok w) :
    w = memberOf key default v := by
  cases v with
  | object members => exact (Except.ok.inj h).symm
  | _ => exact absurd h (by simp [Value.getD])

theorem admits_require (v : Value) (key : Text) : Admits P (v.require key) := by
  cases v with
  | object members =>
    rw [Value.require]
    split
    · exact .ok _
    · exact .passed rfl
  | _ => exact .passed rfl

theorem admits_elements (v : Value) : Admits P v.elements := by
  cases v <;> first | exact .ok _ | exact .passed rfl

theorem admits_listOf (h : P → isObject v = true) (key : Text) : Admits P (Report.listOf v key) :=
  (admits_getD h key _).bind fun w _ => admits_elements w

theorem admits_membersOf (h : P → isObject v = true) (member : Text) :
    Admits P (Report.membersOf v member) := by
  cases v with
  | object members => exact .ok _
  | _ => exact .lacking fun hp => Bool.false_ne_true (h hp)

theorem eq_of_membersOf {member : Text} {members : List (Text × Value)}
    (h : Report.membersOf v member = .ok members) : v = .object members := by
  cases v with
  | object ms => exact congrArg Value.object (Except.ok.inj h)
  | _ => exact absurd h (by simp [Report.membersOf])

theorem admits_named {α : Type} (ofName? : Text → Option α) (sort : Text) (v : Value) :
    Admits P (Report.named ofName? sort v) := by
  unfold Report.named
  split
  · exact .ok _
  · exact .passed rfl

theorem admits_sectionOf {α : Type} {read : Value → Except Fault α}
    (h : v.truthy = true → Admits P (read v)) : Admits P (Report.sectionOf read v) := by
  unfold Report.sectionOf
  split
  · next htruthy => exact (h htruthy).map _
  · exact .ok _

theorem admits_partsOf {α : Type} {read : Value → Except Fault α} (h : ∀ w, Admits P (read w)) :
    Admits P (Report.partsOf read v) := by
  unfold Report.partsOf
  split
  · exact (admits_elements v).bind fun items _ => .mapM fun w _ => h w
  · exact .ok _

end Members

/-! ## The parts of a report -/

section Parts

variable {P : Prop} {v : Value}

theorem admits_fileEntry (h : P → isObject v = true)
    (hchanges : P → isObject (memberOf "changes" (.object []) v) = true) :
    Admits P (Report.FileEntry.ofValue v) := by
  refine (admits_getD h _ _).bind fun changes hread => ?_
  rw [← eq_of_getD hread] at hchanges
  refine (admits_require v _).bind fun _ _ => (admits_getD h _ _).bind fun _ _ =>
    (admits_getD h _ _).bind fun _ _ => ?_
  refine (admits_getD hchanges _ _).bind fun _ _ => (admits_getD hchanges _ _).bind fun _ _ => ?_
  exact (admits_listOf h _).bind fun _ _ => (admits_listOf h _).bind fun _ _ => .ok _

/-- A fix is first asked for its file, so that what is no object is passed over. -/
theorem admits_fixEntry (v : Value) : Admits P (Report.FixEntry.ofValue v) := by
  refine (admits_require v _).bind fun _ hfile => (admits_require v _).bind fun _ _ => ?_
  have h : P → isObject v = true := fun _ => isObject_of_require hfile
  exact (admits_getD h _ _).bind fun _ _ => (admits_getD h _ _).bind fun _ _ =>
    (admits_named _ _ _).bind fun _ _ => (admits_getD h _ _).bind fun _ _ => .ok _

theorem admits_mode (v : Value) : Admits P (Report.Mode.ofValue v) := by
  have hset : ∀ (m : Report.Mode) (e : Text × Value), Admits P (m.set e.1 e.2) := by
    intro m e
    unfold Report.Mode.set
    split_ifs
    · exact .ok _
    · exact .ok _
    · exact .ok _
    · exact .passed rfl
  cases v with
  | object members => exact .foldlM hset members {}
  | _ => exact .passed rfl

theorem admits_docsImpact (h : P → isObject v = true) : Admits P (Report.DocsImpact.ofValue v) :=
  (admits_getD h _ _).bind fun _ _ => (admits_getD h _ _).bind fun _ _ =>
    (admits_getD h _ _).bind fun _ _ => (admits_listOf h _).bind fun _ _ =>
      (admits_listOf h _).bind fun _ _ => .ok _

theorem admits_scanFigures (h : P → isObject v = true) : Admits P (Report.ScanFigures.ofValue v) :=
  (admits_getD h _ _).bind fun _ _ => (admits_getD h _ _).bind fun _ _ =>
    (admits_getD h _ _).bind fun _ _ => (admits_getD h _ _).bind fun _ _ =>
      (admits_listOf h _).bind fun _ _ => .ok _

theorem admits_testEntry (v : Value) : Admits P (Report.TestEntry.ofValue v) := by
  refine (admits_require v _).bind fun _ hfile => ?_
  have h : P → isObject v = true := fun _ => isObject_of_require hfile
  exact (admits_getD h _ _).bind fun _ _ => (admits_getD h _ _).bind fun _ _ =>
    (admits_getD h _ _).bind fun _ _ => (admits_getD h _ _).bind fun _ _ => .ok _

theorem admits_costEntry (v : Value) : Admits P (Report.CostEntry.ofValue v) := by
  refine (admits_require v _).bind fun _ hresource => ?_
  have h : P → isObject v = true := fun _ => isObject_of_require hresource
  exact (admits_getD h _ _).bind fun _ _ => (admits_getD h _ _).bind fun _ _ =>
    (admits_getD h _ _).bind fun _ _ => (admits_named _ _ _).bind fun _ _ =>
      (admits_getD h _ _).bind fun _ _ => .ok _

theorem admits_fileCoverage (v : Value) : Admits P (Report.fileCoverageOf v) := by
  refine (admits_require v _).bind fun _ hfile => ?_
  have h : P → isObject v = true := fun _ => isObject_of_require hfile
  exact (admits_getD h _ _).bind fun _ _ => (admits_getD h _ _).bind fun _ _ => .ok _

theorem admits_coverage (h : P → isObject v = true) : Admits P (Report.coverageOf v) :=
  (admits_getD h _ _).bind fun _ _ => (admits_getD h _ _).bind fun _ _ =>
    (admits_getD h _ _).bind fun _ _ => (admits_getD h _ _).bind fun _ _ =>
      (admits_getD h _ _).bind fun _ _ => (admits_listOf h _).bind fun _ _ =>
        (Admits.mapM fun w _ => admits_fileCoverage w).bind fun _ _ => .ok _

end Parts

/-! ## Reports -/

/-- The files that a value tells of. -/
def filesIn (v : Value) : Value := memberOf "fileAnalyses" (.object []) v

/-- The value has objects where a report has records that are asked for their members at once. -/
structure IsLayered (v : Value) : Prop where
  top : isObject v = true
  files : isObject (filesIn v) = true
  entries : ∀ members, filesIn v = .object members → ∀ e ∈ members,
    isObject e.2 = true ∧ isObject (memberOf "changes" (.object []) e.2) = true
  sections : ∀ key ∈ ["archDocsImpact", "staticAnalysis", "coverageReport"],
    (memberOf key.toList .null v).truthy = true → isObject (memberOf key.toList .null v) = true

/-- A value is read as a report or passed over, unless it has something else where a record is to
be. -/
theorem admits_report (v : Value) : Admits (IsLayered v) (Report.ofValue v) := by
  have h : IsLayered v → isObject v = true := IsLayered.top
  have hsection : ∀ {key : String} {w : Value},
      key ∈ ["archDocsImpact", "staticAnalysis", "coverageReport"] →
      v.getD key .null = .ok w → w.truthy = true → IsLayered v → isObject w = true := by
    intro key w hkey hread htruthy hlayered
    rw [eq_of_getD hread] at htruthy ⊢
    exact hlayered.sections key hkey htruthy
  refine (admits_getD h _ _).bind fun docs hdocs => (admits_getD h _ _).bind fun scan hscan =>
    (admits_getD h _ _).bind fun _ _ => (admits_getD h _ _).bind fun _ _ =>
      (admits_getD h _ _).bind fun coverage hcoverage => (admits_getD h _ _).bind fun _ _ => ?_
  refine (admits_getD h _ _).bind fun files hfiles => ?_
  obtain rfl : files = filesIn v := eq_of_getD hfiles
  refine (admits_membersOf IsLayered.files _).bind fun members hmembers => ?_
  have hentries := fun hlayered : IsLayered v => hlayered.entries members (eq_of_membersOf hmembers)
  refine (Admits.mapM fun e he => Admits.map ?_ _).bind fun _ _ => ?_
  · exact admits_fileEntry (fun hlayered => (hentries hlayered e he).1)
      fun hlayered => (hentries hlayered e he).2
  refine (admits_listOf h _).bind fun _ _ =>
    (Admits.mapM fun w _ => admits_fixEntry w).bind fun _ _ => ?_
  refine (admits_listOf h _).bind fun _ _ => (admits_listOf h _).bind fun _ _ =>
    (admits_listOf h _).bind fun _ _ => (admits_getD h _ _).bind fun _ _ =>
      (admits_getD h _ _).bind fun _ _ => (admits_getD h _ _).bind fun _ _ =>
        (admits_getD h _ _).bind fun _ _ => (admits_getD h _ _).bind fun _ _ =>
          (admits_mode _).bind fun _ _ => (admits_getD h _ _).bind fun _ _ => ?_
  refine (admits_sectionOf fun ht => admits_docsImpact (hsection (by simp) hdocs ht)).bind
    fun _ _ => ?_
  refine (admits_sectionOf fun ht => admits_scanFigures (hsection (by simp) hscan ht)).bind
    fun _ _ => ?_
  refine (admits_partsOf admits_testEntry).bind fun _ _ =>
    (admits_partsOf admits_costEntry).bind fun _ _ => ?_
  exact (admits_sectionOf fun ht => admits_coverage (hsection (by simp) hcoverage ht)).bind
    fun _ _ => .ok _

end ChangeReview.Analysis
