import ChangeReview.Proofs.Decimal.Rounding
import ChangeReview.Report.Reading

/-!
# The normal form of a report

What is written of a report is read as the same report, section by section and member by member,
with the cost as it was rounded. So a report that has been written and read is written as it was:
the object of a report is a normal form of all the objects that are read as it.
-/
namespace ChangeReview

namespace Value

theorem lookup_members (key : String) (ms : List (String × Value)) :
    lookup key.toList (ms.map fun m => (m.1.toList, m.2)) = ms.lookup key := by
  induction ms with
  | nil => rfl
  | cons m ms ih =>
    obtain ⟨k, v⟩ := m
    rw [List.map_cons, lookup, List.lookup_cons, ih]
    by_cases hk : k = key
    · subst hk
      simp
    · have hlist : k.toList ≠ key.toList := fun h => hk (String.toList_injective h)
      have hbeq : (key == k) = false := beq_eq_false_iff_ne.mpr (Ne.symm hk)
      rw [if_neg hlist, hbeq]

theorem getD_members (ms : List (String × Value)) (key : String) (default : Value) :
    (members ms).getD key default = .ok ((ms.lookup key).getD default) := by
  rw [members, getD, lookup_members]

theorem require_members (ms : List (String × Value)) (key : String) :
    (members ms).require key =
      match ms.lookup key with
      | some v => .ok v
      | none => .error (.missingKey key) := by
  have hfound := lookup_members key ms
  unfold members require
  dsimp only
  generalize lookup key.toList (ms.map fun m => (m.1.toList, m.2)) = found at hfound ⊢
  subst hfound
  rfl

theorem lookup_unlessNull (key k : String) (v : Value) :
    (unlessNull k v).lookup key = if key = k ∧ v.isNull = false then some v else none := by
  unfold unlessNull
  cases h : v.isNull with
  | true => simp
  | false =>
    by_cases hk : key = k
    · subst hk
      simp
    · have hbeq : (key == k) = false := beq_eq_false_iff_ne.mpr hk
      simp [List.lookup_cons, hbeq, hk]

theorem getD_unlessNull (v : Value) :
    (if v.isNull = false then some v else none).getD .null = v := by
  cases v <;> rfl

end Value

namespace Report

theorem listOf_members (ms : List (String × Value)) (key : String) :
    listOf (.members ms) key = ((ms.lookup key).getD (.list [])).elements := by
  unfold listOf
  rw [Value.getD_members]
  rfl

theorem FileEntry.ofValue_toValue (e : FileEntry) : FileEntry.ofValue e.toValue = .ok e := by
  simp only [FileEntry.ofValue, FileEntry.toValue, Value.getD_members, Value.require_members,
    listOf_members, List.lookup_cons, String.reduceBEq, Option.getD_some, Value.elements, bind,
    Except.bind, pure, Except.pure]

theorem named_name {α : Type} {ofName? : Text → Option α} {name : α → Text}
    (h : ∀ a, ofName? (name a) = some a) (sort : Text) (a : α) :
    named ofName? sort (.text (name a)) = .ok a := by
  have hread : (Value.text (name a)).text? >>= ofName? = some a := h a
  rw [named, hread]

theorem parse_name (s default : Severity) : Severity.parse (.text s.name) default = s := by
  cases s <;> rfl

theorem FixEntry.ofValue_toValue (e : FixEntry) : FixEntry.ofValue e.toValue = .ok e := by
  simp only [FixEntry.ofValue, FixEntry.toValue, Value.getD_members, Value.require_members,
    List.cons_append, List.nil_append, Value.lookup_unlessNull, List.lookup_cons, String.reduceBEq,
    true_and, Option.getD_some, Value.getD_unlessNull, named_name FixSource.ofName?_name, parse_name,
    bind, Except.bind, pure, Except.pure]

theorem Mode.ofValue_toValue (m : Mode) : Mode.ofValue m.toValue = .ok m := by
  have hsummary : ∀ (m : Mode) (v : Value), m.set "summary" v = .ok { m with summary := v } :=
    fun _ _ => rfl
  have hrisks : ∀ (m : Mode) (v : Value), m.set "risks" v = .ok { m with risks := v } :=
    fun _ _ => rfl
  have hcomplexity : ∀ (m : Mode) (v : Value),
      m.set "complexity" v = .ok { m with complexity := v } := fun _ _ => rfl
  unfold Mode.toValue Value.members Mode.ofValue
  dsimp only
  rw [List.map_cons, List.map_cons, List.map_cons, List.foldlM_cons, hsummary, ok_bind,
    List.foldlM_cons, hrisks, ok_bind, List.foldlM_cons, hcomplexity, ok_bind]
  rfl

theorem DocsImpact.ofValue_toValue (d : DocsImpact) : DocsImpact.ofValue d.toValue = .ok d := by
  simp only [DocsImpact.ofValue, DocsImpact.toValue, Value.getD_members, listOf_members,
    List.lookup_cons, String.reduceBEq, Option.getD_some, Value.elements, bind, Except.bind, pure,
    Except.pure]

theorem ScanFigures.ofValue_toValue (s : ScanFigures) : ScanFigures.ofValue s.toValue = .ok s := by
  simp only [ScanFigures.ofValue, ScanFigures.toValue, Value.getD_members, listOf_members,
    List.lookup_cons, String.reduceBEq, Option.getD_some, Value.elements, bind, Except.bind, pure,
    Except.pure]

theorem TestEntry.ofValue_toValue (e : TestEntry) : TestEntry.ofValue e.toValue = .ok e := by
  simp only [TestEntry.ofValue, TestEntry.toValue, Value.getD_members, Value.require_members,
    List.cons_append, List.nil_append, Value.lookup_unlessNull, List.lookup_cons, String.reduceBEq,
    true_and, Option.getD_some, Value.getD_unlessNull, bind, Except.bind, pure, Except.pure]

theorem CostEntry.ofValue_toValue (e : CostEntry) : CostEntry.ofValue e.toValue = .ok e := by
  have hname : ∀ c : Infra.Confidence, Infra.Confidence.ofName? c.name = some c := by
    intro c
    cases c <;> rfl
  simp only [CostEntry.ofValue, CostEntry.toValue, Value.getD_members, Value.require_members,
    List.lookup_cons, String.reduceBEq, Option.getD_some, named_name hname, bind, Except.bind, pure,
    Except.pure]

theorem fileCoverageOf_toValue (f : FileCoverage) : fileCoverageOf f.toValue = .ok f := by
  simp only [fileCoverageOf, FileCoverage.toValue, Value.getD_members, Value.require_members,
    List.cons_append, List.nil_append, Value.lookup_unlessNull, List.lookup_cons, String.reduceBEq,
    true_and, Option.getD_some, Value.getD_unlessNull, bind, Except.bind, pure, Except.pure]

/-- Items that are written one by one are read one by one. -/
theorem mapM_map_eq_ok {α β : Type} {read : β → Except Fault α} {write : α → β}
    (h : ∀ a, read (write a) = .ok a) (items : List α) : (items.map write).mapM read = .ok items := by
  rw [List.mapM_map]
  exact (mapM_eq_ok fun a _ => h a).trans (by rw [List.map_id'])

@[simp] theorem lookup_optional {α : Type} (key k : String) (write : α → Value) (o : Option α) :
    (optional k write o).lookup key = if key = k then o.map write else none := by
  cases o with
  | none => simp [optional]
  | some a =>
    by_cases hk : key = k
    · subst hk
      simp [optional]
    · have hbeq : (key == k) = false := beq_eq_false_iff_ne.mpr hk
      simp [optional, List.lookup_cons, hbeq, hk]

@[simp] theorem lookup_present {α : Type} (key k : String) (write : α → Value) (items : List α) :
    (present k write items).lookup key =
      if key = k then (if items.isEmpty then none else some (.list (items.map write))) else none := by
  cases items with
  | nil => simp [present]
  | cons a items =>
    by_cases hk : key = k
    · subst hk
      simp [present]
    · have hbeq : (key == k) = false := beq_eq_false_iff_ne.mpr hk
      simp [present, List.lookup_cons, hbeq, hk]

theorem elements_present {α : Type} (write : α → Value) (items : List α) :
    ((if items.isEmpty then none else some (Value.list (items.map write))).getD (.list [])).elements =
      .ok (items.map write) := by
  cases items <;> rfl

theorem coverageOf_toValue (r : CoverageReport) : coverageOf r.toValue = .ok r := by
  have hfiles : CoverageReport.toValue r = .members ([("available", r.available)] ++
      Value.unlessNull "coverageTool" r.tool ++ Value.unlessNull "overallPercentage" r.overall ++
      Value.unlessNull "lineCoverage" r.lines ++ Value.unlessNull "branchCoverage" r.branches ++
      present "fileBreakdown" FileCoverage.toValue r.files) := rfl
  simp only [coverageOf, hfiles, Value.getD_members, listOf_members, List.lookup_append,
    Value.lookup_unlessNull, lookup_present, List.lookup_cons, List.lookup_nil, String.reduceBEq,
    String.reduceEq, Option.none_or, Option.or_none, if_true, if_false, false_and, true_and,
    Option.getD_some, Value.getD_unlessNull, elements_present,
    mapM_map_eq_ok fileCoverageOf_toValue, bind, Except.bind, pure, Except.pure]

/-! ## The whole report -/

/-- A section that is written under its key is read, and one that is left out is absent. -/
theorem sectionOf_optional {α : Type} {read : Value → Except Fault α} {write : α → Value}
    (h : ∀ a, read (write a) = .ok a) (htruthy : ∀ a, (write a).truthy = true) (o : Option α) :
    sectionOf read ((o.map write).getD .null) = .ok o := by
  cases o with
  | none => rfl
  | some a =>
    show sectionOf read (write a) = _
    rw [sectionOf, if_pos (htruthy a), h]
    rfl

theorem partsOf_present {α : Type} {read : Value → Except Fault α} {write : α → Value}
    (h : ∀ a, read (write a) = .ok a) (items : List α) :
    partsOf read ((if items.isEmpty then none else some (.list (items.map write))).getD .null) =
      .ok items := by
  cases items with
  | nil => rfl
  | cons a items => exact mapM_map_eq_ok h (a :: items)

theorem files_written (files : List (Text × FileEntry)) :
    ((files.map fun e => (e.1, e.2.toValue)).mapM fun e =>
      (FileEntry.ofValue e.2).map fun entry => (e.1, entry)) = .ok files :=
  mapM_map_eq_ok (fun e => by rw [FileEntry.ofValue_toValue]; rfl) files

/-- The members that every report has. -/
def fixedMembers (r : Report) (mode : Mode) (cost : Value) : List (String × Value) :=
  [("summary", r.summary),
    ("fileAnalyses", .object (r.files.map fun e => (e.1, e.2.toValue))),
    ("fixes", .list (r.fixes.map FixEntry.toValue)),
    ("recommendations", .list r.recommendations),
    ("insights", .list r.insights),
    ("reasoning", .list r.reasoning),
    ("totalTokensUsed", r.tokens),
    ("executionTime", r.milliseconds),
    ("provider", r.provider),
    ("model", r.model),
    ("mode", mode.toValue),
    ("estimatedCost", cost)]

/-- The sections that a report may have. -/
def sectionMembers (r : Report) : List (String × Value) :=
  optional "archDocsImpact" DocsImpact.toValue r.docs ++
  optional "staticAnalysis" ScanFigures.toValue r.scan ++
  present "testSuggestions" TestEntry.toValue r.tests ++
  present "devOpsCostEstimates" CostEntry.toValue r.costs ++
  optional "coverageReport" CoverageReport.toValue r.coverage

theorem toMembers_eq (r : Report) (mode : Mode) (cost : Value) :
    r.toMembers mode cost = r.fixedMembers mode cost ++ r.sectionMembers := by
  simp only [toMembers, fixedMembers, sectionMembers, List.append_assoc]

section Members

variable {r : Report} {mode : Mode} {cost : Value} {key : String}

theorem getD_fixed {w : Value} (h : (r.fixedMembers mode cost).lookup key = some w)
    (default : Value) : (Value.members (r.toMembers mode cost)).getD key default = .ok w := by
  rw [Value.getD_members, toMembers_eq, List.lookup_append, h]
  rfl

theorem getD_section {o : Option Value} (h : (r.fixedMembers mode cost).lookup key = none)
    (ho : r.sectionMembers.lookup key = o) (default : Value) :
    (Value.members (r.toMembers mode cost)).getD key default = .ok (o.getD default) := by
  rw [Value.getD_members, toMembers_eq, List.lookup_append, h, ho]
  rfl

theorem listOf_fixed {items : List Value}
    (h : (r.fixedMembers mode cost).lookup key = some (.list items)) :
    listOf (.members (r.toMembers mode cost)) key = .ok items := by
  rw [listOf, getD_fixed h, ok_bind]
  rfl

/-- What is written is read as the same report, with the mode and the cost that were written. -/
theorem ofValue_toMembers (r : Report) (mode : Mode) (cost : Value) :
    ofValue (.members (r.toMembers mode cost)) = .ok { r with mode := some mode, cost } := by
  have hdocs : r.sectionMembers.lookup "archDocsImpact" = r.docs.map DocsImpact.toValue := by
    simp [sectionMembers, List.lookup_append]
  have hscan : r.sectionMembers.lookup "staticAnalysis" = r.scan.map ScanFigures.toValue := by
    simp [sectionMembers, List.lookup_append]
  have htests : r.sectionMembers.lookup "testSuggestions" =
      if r.tests.isEmpty then none else some (.list (r.tests.map TestEntry.toValue)) := by
    simp [sectionMembers, List.lookup_append]
  have hcosts : r.sectionMembers.lookup "devOpsCostEstimates" =
      if r.costs.isEmpty then none else some (.list (r.costs.map CostEntry.toValue)) := by
    simp [sectionMembers, List.lookup_append]
  have hcoverage : r.sectionMembers.lookup "coverageReport" =
      r.coverage.map CoverageReport.toValue := by
    simp [sectionMembers, List.lookup_append]
  have hmembers : ∀ (members : List (Text × Value)) (member : Text),
      membersOf (.object members) member = .ok members := fun _ _ => rfl
  rw [ofValue]
  -- the sections, the fixed members up to the cost, and then the parts in the sections
  rw [getD_section rfl hdocs, ok_bind, getD_section rfl hscan, ok_bind, getD_section rfl htests,
    ok_bind, getD_section rfl hcosts, ok_bind, getD_section rfl hcoverage, ok_bind]
  rw [getD_fixed rfl, ok_bind, getD_fixed rfl, ok_bind, hmembers, ok_bind, files_written, ok_bind,
    listOf_fixed rfl, ok_bind, mapM_map_eq_ok FixEntry.ofValue_toValue, ok_bind,
    listOf_fixed rfl, ok_bind, listOf_fixed rfl, ok_bind, listOf_fixed rfl, ok_bind,
    getD_fixed rfl, ok_bind, getD_fixed rfl, ok_bind, getD_fixed rfl, ok_bind, getD_fixed rfl,
    ok_bind, getD_fixed rfl, ok_bind, Mode.ofValue_toValue, ok_bind, getD_fixed rfl, ok_bind]
  rw [sectionOf_optional DocsImpact.ofValue_toValue fun _ => rfl, ok_bind,
    sectionOf_optional ScanFigures.ofValue_toValue fun _ => rfl, ok_bind,
    partsOf_present TestEntry.ofValue_toValue, ok_bind,
    partsOf_present CostEntry.ofValue_toValue, ok_bind,
    sectionOf_optional coverageOf_toValue fun _ => rfl, ok_bind]
  rfl

end Members

/-! ## Normal forms -/

/-- A rounded cost is not changed by rounding it again. -/
theorem roundCost_roundCost {cost rounded : Value} (h : roundCost cost = .ok rounded) :
    roundCost rounded = .ok rounded := by
  cases cost with
  | int n =>
    obtain rfl := Except.ok.inj h
    rfl
  | bool b =>
    obtain rfl := Except.ok.inj h
    rfl
  | float x =>
    obtain rfl := Except.ok.inj h
    show Except.ok (Value.float (Decimal.roundTo 6 (Decimal.roundTo 6 x))) = _
    rw [Decimal.roundTo_roundTo]
    rfl
  | null | text t | list items | object members => exact absurd h (by simp [roundCost])

theorem toValue_eq_ok_iff (r : Report) (n : Value) :
    r.toValue = .ok n ↔ ∃ mode cost, r.mode = some mode ∧ roundCost r.cost = .ok cost ∧
      n = .members (r.toMembers mode cost) := by
  unfold toValue writtenMode
  cases r.mode with
  | none =>
    refine ⟨fun h => absurd h (by simp [bind, Except.bind]), ?_⟩
    rintro ⟨_, _, hmode, -⟩
    exact absurd hmode (by simp)
  | some mode =>
    dsimp only
    rw [ok_bind]
    cases roundCost r.cost with
    | error fault =>
      refine ⟨fun h => absurd h (by simp [bind, Except.bind]), ?_⟩
      rintro ⟨_, _, -, hcost, -⟩
      exact absurd hcost (by simp)
    | ok cost =>
      constructor
      · intro h
        exact ⟨mode, cost, rfl, rfl, (Except.ok.inj h).symm⟩
      · rintro ⟨_, _, hmode, hcost, rfl⟩
        obtain rfl := Option.some.inj hmode
        obtain rfl := Except.ok.inj hcost
        rfl

/-- What has been written is read as a report that is written the same. -/
theorem rewritten {r : Report} {n : Value} (h : r.toValue = .ok n) : (ofValue n >>= toValue) = .ok n := by
  obtain ⟨mode, cost, -, hcost, rfl⟩ := (toValue_eq_ok_iff r n).mp h
  rw [ofValue_toMembers, ok_bind, toValue_eq_ok_iff]
  exact ⟨mode, cost, rfl, roundCost_roundCost hcost, rfl⟩

/-- A report with a mode and a cost that is a number is written. -/
theorem exists_toValue {r : Report} {mode : Mode} {x : Value.Number} (hmode : r.mode = some mode)
    (hcost : r.cost.number? = some x) : ∃ n, r.toValue = .ok n := by
  have hrounded : ∃ cost, roundCost r.cost = .ok cost := by
    cases hvalue : r.cost with
    | int n => exact ⟨_, rfl⟩
    | bool b => exact ⟨_, rfl⟩
    | float x => exact ⟨_, rfl⟩
    | null | text t | list items | object members =>
      rw [hvalue] at hcost
      exact absurd hcost (by simp [Value.number?])
  obtain ⟨cost, hrounded⟩ := hrounded
  exact ⟨_, (toValue_eq_ok_iff r _).mpr ⟨mode, cost, hmode, hrounded, rfl⟩⟩

/-- An object that is read as a report which can be written is written as an object that no further
reading and writing changes. So is every report with a mode and a cost that is a number. -/
theorem toValue_is_normal :
    (∀ d n : Value, (ofValue d >>= toValue) = .ok n → (ofValue n >>= toValue) = .ok n) ∧
      ∀ (r : Report) (mode : Mode) (x : Value.Number), r.mode = some mode →
        r.cost.number? = some x → ∃ n, r.toValue = .ok n ∧ (ofValue n >>= toValue) = .ok n := by
  constructor
  · intro d n h
    cases hread : ofValue d with
    | error fault =>
      rw [hread] at h
      exact absurd h (by simp [bind, Except.bind])
    | ok r =>
      rw [hread, ok_bind] at h
      exact rewritten h
  · intro r mode x hmode hcost
    obtain ⟨n, hn⟩ := exists_toValue hmode hcost
    exact ⟨n, hn, rewritten hn⟩

/-- An object that lacks most members, with a severity and a section to be put in order. -/
def loose : Value := .members [
  ("summary", .text "Adds a parser"),
  ("fixes", .list [.members [("comment", .text "unused"), ("file", .text "a.py"),
    ("severity", .text " Critical ")]]),
  ("recommendations", .text "ok"),
  ("estimatedCost", .float 0.12345678),
  ("mode", .members [("risks", .bool false)]),
  ("staticAnalysis", .members []),
  ("testSuggestions", .list []),
  ("coverageReport", .members [("lineCoverage", .float 81.5), ("coverageTool", .null)])]

/-- The same report in its normal form. -/
def tidy : Value := .members [
  ("summary", .text "Adds a parser"),
  ("fileAnalyses", .object []),
  ("fixes", .list [.members [("file", .text "a.py"), ("comment", .text "unused"),
    ("severity", .text "critical"), ("source", .text "model")]]),
  ("recommendations", .list [.text "o", .text "k"]),
  ("insights", .list []),
  ("reasoning", .list []),
  ("totalTokensUsed", .int 0),
  ("executionTime", .int 0),
  ("provider", .text "unknown"),
  ("model", .text "unknown"),
  ("mode", .members [("summary", .bool true), ("risks", .bool false), ("complexity", .bool true)]),
  ("estimatedCost", .float 0.123457),
  ("coverageReport", .members [("available", .bool false), ("lineCoverage", .float 81.5)])]

theorem tidy_is_normal :
    (ofValue loose >>= toValue) = .ok tidy ∧ (ofValue tidy >>= toValue) = .ok tidy ∧
      ∃ n, ({ summary := .null, cost := .float 2.0000004 } : Report).toValue = .ok n ∧
        (ofValue n >>= toValue) = .ok n := by
  have hread : (ofValue loose >>= toValue) = .ok tidy := by decide +kernel
  exact ⟨hread, toValue_is_normal.1 loose tidy hread,
    toValue_is_normal.2 { summary := .null, cost := .float 2.0000004 } {} _ rfl rfl⟩

end Report

end ChangeReview
