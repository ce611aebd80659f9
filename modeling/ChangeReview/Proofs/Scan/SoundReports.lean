import ChangeReview.Proofs.Scan.Commands
import ChangeReview.Proofs.Value.ReadFaults
import ChangeReview.Scan.Finding
import ChangeReview.Workflow.Stages

/-!
# Reports that can be read

What the scanner prints is read without looking at the kinds of things: a report is gone through, its
entries are asked for their members, and kept findings are counted by their category. So a report can
be used exactly when the parts of it that are asked are of the kinds they are asked as. That covers
the entries about files that nobody changed, but not their categories.
-/
namespace ChangeReview.Scan

/-! ## Members -/

/-- The value is an object. -/
def isObject (v : Value) : Bool := v.object?.isSome

/-- The member of a value under a key, or `default`; what is no object has none. -/
def memberOf (key : Text) (default v : Value) : Value :=
  (v.object?.bind (Value.lookup key ·)).getD default

/-- The member under a key, or an empty object where it is absent, false or empty. -/
def partOf (key : Text) (v : Value) : Value := (memberOf key .null v).orElse (.object [])

section Members

variable {v : Value}

theorem getD_eq (h : isObject v = true) (key : Text) (default : Value) :
    v.getD key default = .ok (memberOf key default v) := by
  cases v with
  | object members => rfl
  | _ => exact absurd h Bool.false_ne_true

theorem part_eq (h : isObject v = true) (key : Text) :
    Finding.part v key = .ok (partOf key v) := by
  rw [Finding.part, getD_eq h]
  rfl

theorem getD_refused (h : ¬ isObject v = true) (key : Text) (default : Value) :
    v.getD key default = .error (.noMember v.kind "get") := by
  cases v <;> first | rfl | exact absurd rfl h

theorem part_refused (h : ¬ isObject v = true) (key : Text) :
    Finding.part v key = .error (.noMember v.kind "get") := by
  rw [Finding.part, getD_refused h]
  rfl

end Members

/-! ## Entries -/

/-- The parts of an entry that are asked for members are objects, unless they are empty. -/
structure HasParts (entry : Value) : Prop where
  extra : isObject (partOf "extra" entry) = true
  metadata : isObject (partOf "metadata" (partOf "extra" entry)) = true
  start : isObject (partOf "start" entry) = true

/-- The path that an entry gives. -/
def pathOf (entry : Value) : Value := memberOf "path" (.text []) entry

/-- The category that an entry gives. -/
def categoryOf (entry : Value) : Value :=
  (memberOf "category" .null (partOf "metadata" (partOf "extra" entry))).orElse (.text "unknown")

theorem ofValue_eq {entry : Value} (hentry : isObject entry = true) (h : HasParts entry) :
    ∃ f, Finding.ofValue entry = .ok f ∧ f.path = pathOf entry ∧ f.category = categoryOf entry := by
  unfold Finding.ofValue
  simp only [part_eq hentry, getD_eq hentry, part_eq h.extra, getD_eq h.extra, getD_eq h.metadata,
    getD_eq h.start, ok_bind]
  exact ⟨_, rfl, rfl, rfl⟩

theorem ofValue_refused {entry : Value} (hentry : isObject entry = true) (h : ¬ HasParts entry) :
    ∃ kind, Finding.ofValue entry = .error (.noMember kind "get") := by
  unfold Finding.ofValue
  simp only [part_eq hentry, getD_eq hentry, ok_bind]
  by_cases hextra : isObject (partOf "extra" entry) = true
  · simp only [part_eq hextra, getD_eq hextra, ok_bind]
    by_cases hstart : isObject (partOf "start" entry) = true
    · have hmetadata : ¬ isObject (partOf "metadata" (partOf "extra" entry)) = true :=
        fun hmetadata => h ⟨hextra, hmetadata, hstart⟩
      simp only [getD_eq hstart, getD_refused hmetadata, ok_bind, error_bind]
      exact ⟨_, rfl⟩
    · simp only [getD_refused hstart, error_bind]
      exact ⟨_, rfl⟩
  · simp only [part_refused hextra, error_bind]
    exact ⟨_, rfl⟩

/-- A finding is made of an entry with these parts, and of no other. -/
theorem requires_ofValue {entry : Value} (hentry : isObject entry = true) :
    Requires (Finding.ofValue entry) (HasParts entry) := by
  by_cases hparts : HasParts entry
  · obtain ⟨f, hf, -⟩ := ofValue_eq hentry hparts
    rw [hf]
    exact .ok hparts
  · obtain ⟨kind, hf⟩ := ofValue_refused hentry hparts
    rw [hf]
    exact .fault hparts rfl

/-- What a finding is kept and counted by. -/
def placeOf (entry : Value) : Value × Value := (pathOf entry, categoryOf entry)

theorem findingsOf_places {items : List Value} {fs : List Finding} (h : findingsOf items = .ok fs) :
    fs.map (fun f => (f.path, f.category)) = (items.filter isObject).map placeOf := by
  induction items generalizing fs with
  | nil =>
    obtain rfl := Except.ok.inj h
    rfl
  | cons v items ih =>
    by_cases hobject : isObject v = true
    · obtain ⟨members, rfl⟩ : ∃ members, v = .object members := by
        cases v <;> first | exact ⟨_, rfl⟩ | exact absurd hobject Bool.false_ne_true
      rw [findingsOf] at h
      obtain ⟨f, hf, h⟩ := exists_of_bind_eq_ok h
      obtain ⟨rest, hrest, h⟩ := exists_of_bind_eq_ok h
      obtain rfl := Except.ok.inj h
      have hparts := (requires_ofValue hobject).ok_iff.mp ⟨f, hf⟩
      obtain ⟨g, hg, hpath, hcategory⟩ := ofValue_eq hobject hparts
      obtain rfl := Except.ok.inj (hf.symm.trans hg)
      rw [List.filter_cons_of_pos hobject, List.map_cons, List.map_cons, ih hrest, placeOf, hpath,
        hcategory]
    · have hskip : findingsOf (v :: items) = findingsOf items := by
        cases v <;> first | rfl | exact absurd rfl hobject
      rw [hskip] at h
      rw [List.filter_cons_of_neg hobject, ih h]

/-- All objects among the results have to have their parts; what is no object is passed over. -/
theorem requires_findingsOf (items : List Value) :
    Requires (findingsOf items) (∀ e ∈ items.filter isObject, HasParts e) := by
  induction items with
  | nil => exact .ok (by simp)
  | cons v items ih =>
    by_cases hobject : isObject v = true
    · rw [List.filter_cons_of_pos hobject, List.forall_mem_cons]
      obtain ⟨members, rfl⟩ : ∃ members, v = .object members := by
        cases v <;> first | exact ⟨_, rfl⟩ | exact absurd hobject Bool.false_ne_true
      exact (requires_ofValue hobject).bind fun _ _ => ih.map _
    · rw [List.filter_cons_of_neg hobject]
      cases v <;> first | exact ih | exact absurd rfl hobject

/-! ## Findings in changed files -/

/-- A finding with this path is about one of the changed normal paths. -/
def isAbout (changed : List Text) : Value → Bool
  | .text path => !path.isEmpty && Finding.pathsMatch changed path
  | _ => false

theorem requires_concerns (changed : List Text) (f : Finding) :
    Requires (f.concerns changed) f.path.IsTextual := by
  unfold Finding.concerns Value.IsTextual
  by_cases htruthy : f.path.truthy = true
  · rw [htruthy]
    cases hpath : f.path with
    | text p => exact .ok fun _ => rfl
    | _ => exact .fault (fun h => absurd (h rfl) Bool.false_ne_true) rfl
  · rw [Bool.not_eq_true] at htruthy
    rw [htruthy]
    exact .ok fun h => absurd h Bool.false_ne_true

theorem concerns_inv {changed : List Text} {f : Finding} {kept : Bool}
    (h : f.concerns changed = .ok kept) : kept = isAbout changed f.path := by
  unfold Finding.concerns at h
  cases hpath : f.path with
  | text p =>
    rw [hpath] at h
    cases p with
    | nil => exact (Except.ok.inj h).symm
    | cons x p => exact (Except.ok.inj h).symm
  | _ =>
    rw [hpath] at h
    split at h
    · exact (Except.ok.inj h).symm
    · exact absurd h (by simp)

theorem keep_cons (changed : List Text) (f : Finding) (fs : List Finding) :
    Finding.keep changed (f :: fs) = f.concerns changed >>= fun kept =>
      (Finding.keep changed fs).map fun more => if kept then f :: more else more := by
  rw [Finding.keep]
  cases f.concerns changed with
  | error fault => rfl
  | ok kept => cases Finding.keep changed fs <;> rfl

/-- All findings have to have paths, also those that are not kept. -/
theorem requires_keep (changed : List Text) (fs : List Finding) :
    Requires (Finding.keep changed fs) (∀ f ∈ fs, f.path.IsTextual) := by
  induction fs with
  | nil => exact .ok (by simp)
  | cons f fs ih =>
    rw [keep_cons, List.forall_mem_cons]
    exact (requires_concerns changed f).bind fun _ _ => ih.map _

theorem keep_inv {changed : List Text} {fs kept : List Finding}
    (h : Finding.keep changed fs = .ok kept) : kept = fs.filter fun f => isAbout changed f.path := by
  induction fs generalizing kept with
  | nil => exact (Except.ok.inj h).symm
  | cons f fs ih =>
    rw [keep_cons] at h
    obtain ⟨about, habout, h⟩ := exists_of_bind_eq_ok h
    obtain ⟨more, hmore, rfl⟩ := exists_of_map_eq_ok h
    rw [List.filter_cons, ← concerns_inv habout, ih hmore]

theorem requires_addKey (keys : List Value) (v : Value) :
    Requires (Value.addKey keys v) (v.isKey = true) := by
  unfold Value.addKey
  cases v.isKey with
  | false => exact .fault Bool.false_ne_true rfl
  | true =>
    rw [if_neg (by simp)]
    split <;> exact .ok rfl

/-- Findings are counted by their categories and paths, which have to be keys. -/
theorem requires_ofFindings (fs : List Finding) :
    Requires (FindingsSummary.ofFindings fs) (∀ f ∈ fs, f.category.isKey = true ∧ f.path.isKey = true) := by
  suffices hfrom : ∀ s : FindingsSummary, Requires (fs.foldlM FindingsSummary.add s)
      (∀ f ∈ fs, f.category.isKey = true ∧ f.path.isKey = true) from hfrom {}
  induction fs with
  | nil => exact fun s => .ok (by simp)
  | cons f fs ih =>
    intro s
    rw [List.foldlM_cons, List.forall_mem_cons]
    refine Requires.bind ?_ fun next _ => ih next
    exact (requires_addKey s.categories f.category).bind fun _ _ => (requires_addKey s.files f.path).map _

/-! ## Errors in a report -/

/-- The message of an error that the scanner reports as one. -/
def messageOf (e : Value) : Option Value :=
  if memberOf "level" .null e = .text "error" then
    some (memberOf "message" (.text "unknown error") e)
  else none

theorem errorMessage?_eq {e : Value} (h : isObject e = true) :
    Workflow.errorMessage? e = .ok (messageOf e) := by
  unfold Workflow.errorMessage?
  rw [getD_eq h, getD_eq h]
  rfl

theorem requires_joinFrom (k : Nat) (vs : List Value) :
    Requires (Provider.joinFrom k vs) (∀ v ∈ vs, v.text?.isSome = true) := by
  induction vs generalizing k with
  | nil => exact .ok (by simp)
  | cons v vs ih =>
    rw [List.forall_mem_cons]
    cases htext : v.text? with
    | none =>
      rw [Provider.joinFrom_other k htext]
      exact .fault (fun h => Bool.false_ne_true h.1) rfl
    | some t =>
      obtain rfl : v = .text t := by cases v <;> simp_all [Value.text?]
      rw [Provider.joinFrom_text]
      exact ((ih (k + 1)).map _).congr (and_iff_right rfl).symm

theorem requires_joinMessages (messages : List Value) :
    Requires (Workflow.joinMessages messages) (∀ m ∈ messages, m.text?.isSome = true) :=
  (requires_joinFrom 0 messages).map (Text.join "; ")

theorem mapM_errorMessage? {errors : List Value} (h : ∀ e ∈ errors, isObject e = true) :
    errors.mapM Workflow.errorMessage? = .ok (errors.map messageOf) :=
  mapM_eq_ok fun e he => errorMessage?_eq (h e he)

theorem mem_of_lookup_eq {key : Text} {members : List (Text × Value)} {v : Value}
    (h : Value.lookup key members = some v) : (key, v) ∈ members := by
  induction members with
  | nil => exact absurd h (by simp [Value.lookup])
  | cons m members ih =>
    rw [Value.lookup] at h
    split at h
    · next hkey =>
      obtain rfl := Option.some.inj h
      rw [← hkey]
      exact List.mem_cons_self
    · exact List.mem_cons_of_mem m (ih h)

/-- An error that is reported as one is noticed as one. -/
theorem failed_of_messageOf {r : Result} {e m : Value} (he : e ∈ r.errors)
    (hm : messageOf e = some m) : r.failed = true := by
  unfold messageOf at hm
  split at hm
  · next hlevel =>
    unfold Result.failed Result.hasError
    rw [List.any_eq_true]
    refine ⟨e, he, ?_⟩
    cases e with
    | object members =>
      have hmember : Value.lookup "level" members = some (.text "error") := by
        unfold memberOf at hlevel
        simp only [Value.object?, Option.bind_some] at hlevel
        cases hlookup : Value.lookup "level" members with
        | none =>
          rw [hlookup] at hlevel
          exact absurd hlevel (by simp)
        | some v =>
          rw [hlookup] at hlevel
          exact congrArg some hlevel
      exact List.any_eq_true.mpr ⟨_, mem_of_lookup_eq hmember, by simp⟩
    | _ => exact absurd hlevel (by simp [memberOf, Value.object?])
  · exact absurd hm (by simp)

/-- Messages are only asked of errors when there is a scanner, and they have to be texts. -/
theorem requires_scanNotices {r : Result} (h : ∀ e ∈ r.errors, isObject e = true) :
    Requires (Workflow.scanNotices r)
      (r.notInstalled = true ∨ ∀ e ∈ r.errors, ∀ m, messageOf e = some m → m.text?.isSome = true) := by
  unfold Workflow.scanNotices
  cases hinstalled : r.notInstalled with
  | true => exact .ok (.inl rfl)
  | false =>
    cases hfailed : r.failed with
    | true =>
      rw [mapM_errorMessage? h]
      refine ((requires_joinMessages _).map fun t => ["Static analysis reported errors: " ++ t]).congr ?_
      rw [or_iff_right Bool.false_ne_true]
      simp only [List.mem_filterMap, List.mem_map, id_eq, exists_eq_right]
      exact ⟨fun htexts e he m hm => htexts m ⟨e, he, hm⟩, fun htexts m ⟨e, he, hm⟩ => htexts e he m hm⟩
    | false =>
      refine .ok (.inr fun e he m hm => ?_)
      rw [failed_of_messageOf he hm] at hfailed
      exact Bool.noConfusion hfailed

/-! ## Reports -/

/-- The objects in the list that a report gives under a key. -/
def listed (key : Text) (report : Value) : List Value :=
  match memberOf key (.list []) report with
  | .list items => items.filter isObject
  | _ => []

theorem filter_texts {α : Type} (f : α → Text) (xs : List α) :
    (xs.map fun x => Value.text (f x)).filter isObject = [] := by
  refine List.filter_eq_nil_iff.mpr fun v hv => ?_
  obtain ⟨x, -, rfl⟩ := List.mem_map.mp hv
  exact Bool.false_ne_true

/-- What is no list yields no objects. -/
theorem filter_elements {key : Text} {report : Value} {items : List Value}
    (h : (memberOf key (.list []) report).elements = .ok items) :
    items.filter isObject = listed key report := by
  unfold listed
  cases hmember : memberOf key (.list []) report with
  | list xs =>
    rw [hmember] at h
    obtain rfl := Except.ok.inj h
    rfl
  | text t =>
    rw [hmember] at h
    obtain rfl := Except.ok.inj h
    exact filter_texts (fun c => [c]) t
  | object members =>
    rw [hmember] at h
    obtain rfl := Except.ok.inj h
    exact filter_texts (·.1) members
  | _ =>
    rw [hmember] at h
    exact absurd h (by simp [Value.elements])

/-- The scanner printed this report. -/
structure Prints (stdout : Text) (report : Value) : Prop where
  notBlank : Text.isBlankText stdout = false
  reads : Value.parse stdout = .ok report
  object : isObject report = true

/-- The scanner printed no report: nothing, no document, or a document that is no object. -/
def PrintsNone (stdout : Text) : Prop :=
  Text.isBlankText stdout = true ∨ Value.parse stdout = .error .notJson ∨
    ∃ v, Value.parse stdout = .ok v ∧ isObject v = false

/-- A report that findings and errors can be taken from. -/
structure IsReadable (report : Value) : Prop where
  results : (memberOf "results" (.list []) report).isIterable = true
  errors : (memberOf "errors" (.list []) report).isIterable = true
  parts : ∀ e ∈ listed "results" report, HasParts e

/-- What is taken from a report. -/
structure TakenFrom (report : Value) (r : Result) : Prop where
  findings : r.findings.map (fun f => (f.path, f.category)) = (listed "results" report).map placeOf
  errors : r.errors = listed "errors" report

/-- The result that a report holds. -/
def taken (report : Value) : Except Fault Result := do
  let results ← (memberOf "results" (.list []) report).elements
  let findings ← findingsOf results
  let errors ← (memberOf "errors" (.list []) report).elements
  return ⟨findings, errors.filter isObject, memberOf "version" .null report⟩

theorem readReport_prints {stdout : Text} {report : Value} (h : Prints stdout report) :
    readReport stdout = (taken report).map some := by
  obtain ⟨hblank, hreads, hobject⟩ := h
  obtain ⟨members, rfl⟩ : ∃ members, report = .object members := by
    cases report <;> first | exact ⟨_, rfl⟩ | exact absurd hobject Bool.false_ne_true
  unfold readReport taken
  rw [hblank, hreads]
  simp only [getD_eq hobject, ok_bind]
  cases (memberOf "results" (.list []) (.object members)).elements with
  | error fault => rfl
  | ok results =>
    simp only [ok_bind]
    cases findingsOf results with
    | error fault => rfl
    | ok findings => cases (memberOf "errors" (.list []) (.object members)).elements <;> rfl

theorem readReport_printsNone {stdout : Text} (h : PrintsNone stdout) :
    readReport stdout = .ok none := by
  unfold readReport
  cases hblank : Text.isBlankText stdout with
  | true => rfl
  | false =>
    rcases h with h | h | ⟨v, h, hobject⟩
    · exact Bool.noConfusion (hblank.symm.trans h)
    · rw [h]
      rfl
    · rw [h]
      cases v <;> first | rfl | exact Bool.noConfusion hobject

theorem Prints.not_printsNone {stdout : Text} {report : Value} (h : Prints stdout report) :
    ¬ PrintsNone stdout := by
  rintro (hblank | hreads | ⟨v, hreads, hobject⟩)
  · exact Bool.noConfusion (h.notBlank.symm.trans hblank)
  · exact absurd (h.reads.symm.trans hreads) (by simp)
  · obtain rfl := Except.ok.inj (h.reads.symm.trans hreads)
    exact Bool.noConfusion (h.object.symm.trans hobject)

/-- What is printed is nothing, a report, or a document that the reader refuses. -/
theorem printed_cases (stdout : Text) :
    PrintsNone stdout ∨ (∃ report, Prints stdout report) ∨
      ¬ PrintsNone stdout ∧ (∀ report, ¬ Prints stdout report) ∧
        ∃ fault, readReport stdout = .error fault ∧ fault.isOfScan = false := by
  cases hblank : Text.isBlankText stdout with
  | true => exact .inl (.inl hblank)
  | false =>
    cases hreads : Value.parse stdout with
    | ok v =>
      cases hobject : isObject v with
      | false => exact .inl (.inr (.inr ⟨v, hreads, hobject⟩))
      | true => exact .inr (.inl ⟨v, hblank, hreads, hobject⟩)
    | error fault =>
      by_cases hnotJson : fault = .notJson
      · exact .inl (.inr (.inl (hnotJson ▸ hreads)))
      · refine .inr (.inr ⟨?_, fun report h => ?_, fault, ?_, ?_⟩)
        · rintro (h | h | ⟨v, h, -⟩)
          · exact Bool.noConfusion (hblank.symm.trans h)
          · exact hnotJson (Except.error.inj (hreads.symm.trans h))
          · exact absurd (hreads.symm.trans h) (by simp)
        · exact absurd (hreads.symm.trans h.reads) (by simp)
        · unfold readReport
          rw [hblank, hreads]
          cases fault <;> first | rfl | exact absurd rfl hnotJson
        · rcases Value.parse_fault hreads with hbad | ⟨part, rfl⟩
          · cases fault <;> first | rfl | exact Bool.noConfusion hbad
          · exact rfl

theorem requires_taken (report : Value) : Requires (taken report) (IsReadable report) := by
  have hresults := requires_elements (memberOf "results" (.list []) report)
  have herrors := requires_elements (memberOf "errors" (.list []) report)
  have hparts : ∀ items, (memberOf "results" (.list []) report).elements = .ok items →
      Requires (findingsOf items) (∀ e ∈ listed "results" report, HasParts e) := by
    intro items hitems
    rw [← filter_elements hitems]
    exact requires_findingsOf items
  refine (hresults.bind fun items hitems => (hparts items hitems).bind fun _ _ => herrors.map _).congr ?_
  exact ⟨fun ⟨hr, hp, he⟩ => ⟨hr, he, hp⟩, fun ⟨hr, he, hp⟩ => ⟨hr, hp, he⟩⟩

theorem taken_inv {report : Value} {r : Result} (h : taken report = .ok r) : TakenFrom report r := by
  obtain ⟨results, hresults, h⟩ := exists_of_bind_eq_ok h
  obtain ⟨findings, hfindings, h⟩ := exists_of_bind_eq_ok h
  obtain ⟨errors, herrors, h⟩ := exists_of_bind_eq_ok h
  obtain rfl := Except.ok.inj h
  exact ⟨by rw [← filter_elements hresults]; exact findingsOf_places hfindings,
    filter_elements herrors⟩

/-! ## The output of a scan -/

/-- What is kept and counted of the findings of a scan. -/
theorem requires_scanOutput {r : Result} (hobjects : ∀ e ∈ r.errors, isObject e = true)
    (files : List ChangedFile) :
    let changed := Finding.normalPaths (files.map (·.path))
    Requires (Workflow.scanOutput files r)
      ((r.notInstalled = true ∨ ∀ e ∈ r.errors, ∀ m, messageOf e = some m → m.text?.isSome = true) ∧
        (∀ f ∈ r.findings, f.path.IsTextual) ∧
        ∀ f ∈ r.findings, isAbout changed f.path = true → f.category.isKey = true) := by
  intro changed
  refine (requires_scanNotices hobjects).bind fun _ _ => ?_
  refine (requires_keep changed r.findings).bind fun kept hkept => ?_
  refine ((requires_ofFindings kept).map _).congr ?_
  rw [keep_inv hkept]
  constructor
  · intro h f hf habout
    exact (h f (List.mem_filter.mpr ⟨hf, habout⟩)).1
  · intro h f hf
    obtain ⟨hf, habout⟩ := List.mem_filter.mp hf
    refine ⟨h f hf habout, ?_⟩
    cases hpath : f.path with
    | text p => exact rfl
    | _ =>
      rw [hpath] at habout
      exact Bool.noConfusion habout

/-- An entry that a report may list. Its category is counted only if it is about a changed file. -/
structure IsEntry (changed : List Text) (entry : Value) : Prop where
  parts : HasParts entry
  path : (pathOf entry).IsTextual
  category : isAbout changed (pathOf entry) = true → (categoryOf entry).isKey = true

/-- Some error in a report says that the scanner is not installed. -/
def SaysNotInstalled (report : Value) : Prop :=
  ∃ e ∈ listed "errors" report, ∃ members, e = .object members ∧
    (("type", .text "semgrep_not_installed") : Text × Value) ∈ members

/-- A report that can be used: the results and the errors can be gone through, the results are
entries, and unless the scanner says that it is not installed the messages of its errors are texts. -/
structure IsSound (changed : List Text) (report : Value) : Prop where
  results : (memberOf "results" (.list []) report).isIterable = true
  errors : (memberOf "errors" (.list []) report).isIterable = true
  entries : ∀ e ∈ listed "results" report, IsEntry changed e
  messages : SaysNotInstalled report ∨
    ∀ e ∈ listed "errors" report, ∀ m, messageOf e = some m → m.text?.isSome = true

namespace TakenFrom

variable {report : Value} {r : Result}

theorem forall_findings (h : TakenFrom report r) (P : Value × Value → Prop) :
    (∀ f ∈ r.findings, P (f.path, f.category)) ↔ ∀ e ∈ listed "results" report, P (placeOf e) := by
  rw [← List.forall_mem_map, h.findings, List.forall_mem_map]

theorem isObject_errors (h : TakenFrom report r) : ∀ e ∈ r.errors, isObject e = true := by
  intro e he
  rw [h.errors] at he
  unfold listed at he
  split at he
  · exact (List.mem_filter.mp he).2
  · exact absurd he (by simp)

theorem notInstalled_iff (h : TakenFrom report r) :
    r.notInstalled = true ↔ SaysNotInstalled report := by
  unfold Result.notInstalled Result.hasError SaysNotInstalled
  rw [List.any_eq_true, ← h.errors]
  refine exists_congr fun e => and_congr_right fun he => ?_
  have hobject := h.isObject_errors e he
  cases e with
  | object members =>
    simp only [Value.object?, Option.getD_some, List.any_eq_true, Bool.and_eq_true, beq_iff_eq,
      Value.object.injEq, exists_eq_left']
    constructor
    · rintro ⟨⟨key, v⟩, hmember, rfl, rfl⟩
      exact hmember
    · exact fun hmember => ⟨_, hmember, rfl, rfl⟩
  | _ => exact absurd hobject Bool.false_ne_true

/-- What is taken from a report can be used as the report can. -/
theorem requires_scanOutput (h : TakenFrom report r) (hreadable : IsReadable report)
    (files : List ChangedFile) :
    Requires (Workflow.scanOutput files r) (IsSound (Finding.normalPaths (files.map (·.path))) report) := by
  refine (Scan.requires_scanOutput h.isObject_errors files).congr ?_
  rw [h.notInstalled_iff, h.errors, h.forall_findings fun p => p.1.IsTextual,
    h.forall_findings fun p => isAbout _ p.1 = true → p.2.isKey = true]
  constructor
  · rintro ⟨hmessages, hpaths, hcategories⟩
    exact ⟨hreadable.results, hreadable.errors,
      fun e he => ⟨hreadable.parts e he, hpaths e he, hcategories e he⟩, hmessages⟩
  · intro hsound
    exact ⟨hsound.messages, fun e he => (hsound.entries e he).path,
      fun e he => (hsound.entries e he).category⟩

end TakenFrom

end ChangeReview.Scan
