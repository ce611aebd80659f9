import ChangeReview.Proofs.Reply.CutLists
import ChangeReview.Proofs.Value.Truncation
import Mathlib

/-!
# Fix entries of a reply that was cut off

A reply that is a list of fix entries may be cut off at any character. The entries that are whole
are recovered, unless a bracket or a brace inside a text misleads the reader: it then takes what
stands from there on for a document of its own.
-/
namespace ChangeReview.Reply

open Text (IsCut)
open Value (Layout)

/-! ## Fix entries and their document -/

/-- What a member of a fix entry holds: a text, or a whole number that can be written. -/
inductive Field where
  | text (t : Text)
  | whole (n : Int) (short : Value.HasDigits n)

def Field.value : Field → Value
  | text t => .text t
  | whole n _ => .int n

/-- A fix entry before anybody has checked it. -/
structure FixObject where
  members : List (Text × Field)
  distinct : (members.map (·.1)).Nodup
  hasFile : ∃ t, ("file".toList, Field.text t) ∈ members
  hasComment : ∃ t, ("comment".toList, Field.text t) ∈ members

namespace FixObject

def valueMembers (o : FixObject) : List (Text × Value) := o.members.map fun m => (m.1, m.2.value)

def value (o : FixObject) : Value := .object o.valueMembers

def written (o : FixObject) : Text := Value.writeLine o.value

end FixObject

/-- The document of some fix entries. -/
def document (os : List FixObject) : Text := Value.writeLine (.list (os.map FixObject.value))

/-- The document of some fix entries up to the closing brace of the last one. -/
def upTo (os : List FixObject) : Text := '[' :: Text.join ", " (os.map FixObject.written)

/-- The entries whose closing brace lies within so many characters of their document. -/
def completeIn (length : Nat) (os : List FixObject) : List FixObject :=
  (os.zipIdx.filter fun o => (upTo (os.take (o.2 + 1))).length ≤ length).map (·.1)

/-- The first span between the brackets of a list is taken for the whole reply: it is a document, or
is refused as one and not for its form or size. -/
def TakenForList (t : Text) : Prop :=
  ∃ span, firstSpan '[' ']' t = some span ∧
    ∀ fault, Value.parse span = .error fault → fault.isBadValue = false

/-- Something in a text misleads the reader of a reply that was cut off: a bracket that starts a
list of its own, or, behind the last whole entry, a brace that starts a refused document. -/
def Misled (os : List FixObject) (reply : Text) : Prop :=
  TakenForList (Text.trim reply) ∨
    Refused (reply.drop (upTo (completeIn reply.length os)).length)

namespace FixObject

variable (o : FixObject)

theorem map_fst_valueMembers : o.valueMembers.map (·.1) = o.members.map (·.1) := by
  simp [valueMembers]

theorem isScalar_valueMembers : ∀ m ∈ o.valueMembers, Value.IsScalar m.2 := by
  intro m hm
  obtain ⟨⟨key, field⟩, -, rfl⟩ := List.mem_map.mp hm
  cases field <;> trivial

theorem readableMembers (depth : Nat) (ms : List (Text × Field)) :
    Value.ReadableMembers depth (ms.map fun m => (m.1, m.2.value)) := by
  induction ms with
  | nil => trivial
  | cons m ms ih =>
    obtain ⟨key, field⟩ := m
    rw [List.map_cons, Value.ReadableMembers]
    refine ⟨?_, ih⟩
    cases field with
    | text t => trivial
    | whole n short => simpa [Field.value, Value.Readable] using short

theorem readable (depth : Nat) : Value.Readable (depth + 1) o.value := by
  rw [value, Value.Readable, map_fst_valueMembers]
  exact ⟨o.distinct, readableMembers depth o.members⟩

theorem lookup_isSome {key : Text} {v : Value} {ms : List (Text × Value)} (h : (key, v) ∈ ms) :
    (Value.lookup key ms).isSome = true := by
  induction ms with
  | nil => exact absurd h List.not_mem_nil
  | cons m ms ih =>
    obtain ⟨k, w⟩ := m
    rw [Value.lookup]
    split
    · rfl
    · next hk =>
      rcases List.mem_cons.mp h with heq | h
      · exact absurd (Prod.mk.inj heq).1.symm hk
      · exact ih h

theorem hasKeys_valueMembers : hasKeys fixKeys o.valueMembers = true := by
  have hkey : ∀ {key : Text}, (∃ t, (key, Field.text t) ∈ o.members) →
      (Value.lookup key o.valueMembers).isSome = true := by
    rintro key ⟨t, ht⟩
    exact lookup_isSome (v := .text t) (List.mem_map.mpr ⟨(key, .text t), ht, rfl⟩)
  simp only [hasKeys, fixKeys, List.all_cons, List.all_nil, Bool.and_true, Bool.and_eq_true]
  exact ⟨hkey o.hasFile, hkey o.hasComment⟩

/-- No member of a fix entry holds a list. -/
theorem lookup_ne_list (key : Text) (items : List Value) :
    Value.lookup key o.valueMembers ≠ some (.list items) := by
  intro h
  have hmem : ∀ {ms : List (Text × Value)} {v : Value}, Value.lookup key ms = some v →
      ∃ m ∈ ms, m.2 = v := by
    intro ms v h
    induction ms with
    | nil => exact absurd h (by simp [Value.lookup])
    | cons m ms ih =>
      obtain ⟨k, w⟩ := m
      rw [Value.lookup] at h
      split at h
      · exact ⟨(k, w), List.mem_cons_self, Option.some.inj h⟩
      · obtain ⟨m, hm, heq⟩ := ih h
        exact ⟨m, List.mem_cons_of_mem _ hm, heq⟩
  obtain ⟨m, hm, heq⟩ := hmem h
  have hscalar := o.isScalar_valueMembers m hm
  rw [heq] at hscalar
  exact hscalar

end FixObject

/-! ## Where a document is cut -/

theorem document_eq (os : List FixObject) : document os = upTo os ++ [']'] := by
  rw [document, Value.writeLine_list, List.map_map]
  rfl

theorem upTo_append {done : List FixObject} (hdone : done ≠ []) (o : FixObject)
    (rest : List FixObject) :
    upTo (done ++ o :: rest) =
      upTo done ++ (", " ++ Text.join ", " ((o :: rest).map FixObject.written)) :=
  listUpTo_append FixObject.written hdone o rest

/-! ## Brackets of a document that was cut off -/

namespace FixObject

/-- A fix entry without its closing brace. -/
def opened (o : FixObject) : Text :=
  '\x7b' :: Text.join ", " (Value.writeMembers .oneLine 0 o.valueMembers)

variable (o : FixObject)

theorem written_eq : o.written = o.opened ++ ['\x7d'] := by
  rw [written, value, Value.writeLine_object, opened, Value.writeMembers_oneLine]

theorem regular_body {opening closing : Char} (hpair : IsPair opening closing) {rest : Text}
    (hdelimited : Delimited rest) (hrest : Regular opening .outside rest) :
    Regular opening .outside
      (Text.join ", " (Value.writeMembers .oneLine 0 o.valueMembers) ++ rest) := by
  have hpieces := regularPiece_members hpair .oneLine 0 fun m hm =>
    regularPiece_scalar hpair .oneLine 0 (o.isScalar_valueMembers m hm)
  exact RegularPiece.join hpair hpieces rest hdelimited hrest

theorem regularPiece_written : RegularPiece '[' o.written := by
  intro rest hdelimited hrest
  have hclose : Regular '[' .outside ('\x7d' :: rest) :=
    (Regular.outside_cons (by decide) (by decide) (by decide) rest).mpr hrest
  have hbody := o.regular_body .list (delimited_cons.mpr (by decide)) hclose
  rw [written_eq, List.append_assoc, opened, List.cons_append,
    Regular.outside_cons (by decide) (by decide) (by decide)]
  exact hbody

/-- The brace of an entry that is not closed is left open, and every other one is in quotes. -/
theorem opensOnce_written : OpensOnce o.written := by
  refine ⟨o.opened, o.written_eq, ?_⟩
  have hpasses : Passes '\x7b' '\x7d'
      (Text.join ", " (Value.writeMembers .oneLine 0 o.valueMembers)) :=
    passes_join (passes_separator .object Layout.isBlank_oneLine 0)
      (passes_writeMembers .object Layout.isBlank_oneLine 0 0 o.valueMembers
        (readableMembers 0 o.members))
  have hregular := o.regular_body .object delimited_nil (show Regular '\x7b' .outside [] from trivial)
  rw [List.append_nil] at hregular
  exact (OpensInside.of_regular hregular).cons_unclosed (spanLength_unclosed .object hpasses)

end FixObject

/-- The bracket of a document that is not closed is left open, and every other one is in quotes. -/
theorem opensInside_upTo (os : List FixObject) : OpensInside '[' ']' (upTo os) := by
  have hpasses : Passes '[' ']' (Text.join ", " (os.map FixObject.written)) := by
    refine passes_join (passes_separator .list Layout.isBlank_oneLine 0) fun w hw => ?_
    obtain ⟨o, -, rfl⟩ := List.mem_map.mp hw
    rw [FixObject.written, ← Value.writeAt_oneLine 0]
    exact passes_writeAt .list Layout.isBlank_oneLine 0 1 o.value (o.readable 0)
  have hpieces : ∀ w ∈ os.map FixObject.written, RegularPiece '[' w := by
    intro w hw
    obtain ⟨o, -, rfl⟩ := List.mem_map.mp hw
    exact o.regularPiece_written
  have hregular := RegularPiece.join .list hpieces [] delimited_nil trivial
  rw [List.append_nil] at hregular
  exact (OpensInside.of_regular hregular).cons_unclosed (spanLength_unclosed .list hpasses)

/-! ## What is left of a reply -/

/-- A reply that broke off is its whole entries and a rest that starts no object. -/
theorem exists_tail {os : List FixObject} {p : Text} (hp : IsCut p (document os))
    (hsome : completeIn p.length os ≠ []) :
    ∃ tail, p = upTo (completeIn p.length os) ++ tail ∧ OpensInside '\x7b' '\x7d' tail := by
  have hne : p ≠ [] := by
    rintro rfl
    exact hsome (wholeItems_zero FixObject.written os)
  rw [document_eq] at hp
  exact exists_rest FixObject.written (fun o _ => o.opensOnce_written) hp.1 hne

/-- Only what follows the last whole entry can be trimmed. -/
theorem trim_upTo {os : List FixObject} (hos : os ≠ []) (t : Text) :
    Text.trim (upTo os ++ t) = upTo os ++ Text.trimRight t := by
  have hlast := (List.dropLast_concat_getLast hos).symm
  generalize os.dropLast = done, os.getLast hos = o at hlast
  subst hlast
  have hend : ∃ s, upTo (done ++ [o]) = '[' :: s ++ ['\x7d'] := by
    by_cases hdone : done = []
    · subst hdone
      refine ⟨o.opened, ?_⟩
      rw [List.nil_append, upTo, List.map_singleton, Text.join_singleton, o.written_eq]
      rfl
    · refine ⟨Text.join ", " (done.map FixObject.written) ++ (", " ++ o.opened), ?_⟩
      rw [upTo_append hdone, List.map_singleton, Text.join_singleton, o.written_eq, upTo]
      simp
  obtain ⟨s, hs⟩ := hend
  rw [hs, List.append_assoc, List.cons_append, List.singleton_append, Text.trim_cons (by decide),
    Text.trimRight_append (by decide)]
  simp

/-! ## The three ways to read a reply -/

theorem readItems_list {fuel depth : Nat} {done : List Value} {t rest : Text} {v : Value}
    (h : Value.readItems fuel depth done t = .ok (v, rest)) : ∃ items, v = .list items := by
  induction fuel generalizing done t with
  | zero => exact absurd h (by simp [Value.readItems])
  | succ fuel ih =>
    rw [Value.readItems] at h
    split at h
    · exact absurd h (by simp)
    · split at h
      · exact ih h
      · exact ⟨_, (Prod.mk.inj (Except.ok.inj h)).1.symm⟩
      · exact absurd h (by simp)

/-- A document that starts with a bracket is a list. -/
theorem parse_bracket {t : Text} {v : Value} (h : Value.parse ('[' :: t) = .ok v) :
    ∃ items, v = .list items := by
  have hread : ∃ fuel rest, Value.readValue fuel Value.maxDepth ('[' :: t) = .ok (v, rest) := by
    rw [Value.parse, Value.skipGap_cons (by decide)] at h
    split at h
    · exact absurd h (by simp)
    · next w rest hw =>
      split at h
      · obtain rfl := Except.ok.inj h
        exact ⟨_, rest, hw⟩
      · exact absurd h (by simp)
  obtain ⟨fuel, rest, hread⟩ := hread
  rcases fuel with _ | fuel
  · exact absurd hread (by simp [Value.readValue])
  · have hdeep : Value.maxDepth = 989 + 1 := rfl
    rw [hdeep, Value.readValue] at hread
    split at hread
    · exact ⟨[], (Prod.mk.inj (Except.ok.inj hread)).1.symm⟩
    · exact readItems_list hread

theorem readableItems (depth : Nat) (os : List FixObject) :
    Value.ReadableItems (depth + 1) (os.map FixObject.value) := by
  induction os with
  | nil => trivial
  | cons o os ih =>
    rw [List.map_cons, Value.ReadableItems]
    exact ⟨o.readable depth, ih⟩

/-- Where a document broke off, all is left to the first span. -/
theorem extract_cut {os : List FixObject} {p s : Text} (hcut : IsCut (Text.trim p) (document os))
    (hs : Text.trim p = '[' :: s) (opening closing : Char) (shape : Text) :
    extract opening closing shape p =
      match firstSpan opening closing (Text.trim p) with
      | none => .error (.invalid ("No JSON " ++ shape ++ " found in response"))
      | some span => Value.parse span := by
  have hread : Value.Readable (988 + 1 + 1) (.list (os.map FixObject.value)) := by
    rw [Value.Readable]
    exact readableItems 988 os
  have hparse := Value.parse_cut_list Layout.isBlank_oneLine hread hcut
  have hstrip : stripFence p = Text.trim p := by
    unfold stripFence
    rw [hs]
    rfl
  unfold extract
  rw [hstrip]
  dsimp only
  rewrite [hparse]
  rfl

/-- A list that starts inside quotes is no list of fix entries. -/
theorem ne_of_foreign {items : List Value} (h : ∀ i ∈ items, Foreign i) (o : FixObject)
    (os : List FixObject) : items ≠ (o :: os).map FixObject.value := by
  rintro rfl
  have hforeign : ForeignMembers o.valueMembers := h o.value (by simp)
  obtain ⟨t, ht⟩ := o.hasFile
  obtain ⟨c, r, hkey, hdelimiter⟩ :=
    hforeign ("file".toList, .text t) (List.mem_map.mpr ⟨_, ht, rfl⟩)
  obtain rfl : c = 'f' := (List.cons.inj hkey).1.symm
  exact absurd hdelimiter (by decide)

section BrokenOff

variable {os : List FixObject} {p : Text} (hcut : IsCut (Text.trim p) (document os))

include hcut

/-- The first way: nothing is taken for the whole reply, or something else than its entries. -/
theorem extractList_cut {s : Text} (hs : Text.trim p = '[' :: s) :
    (¬ TakenForList (Text.trim p) ∧
        ∃ fault, extractList p = .error fault ∧ fault.isBadValue = true) ∨
      (TakenForList (Text.trim p) ∧
        ((∃ items, extractList p = .ok items ∧ ∀ i ∈ items, Foreign i) ∨
          ∃ fault, extractList p = .error fault ∧ fault.isBadValue = false)) := by
  have hinside : OpensInside '[' ']' (Text.trim p) := by
    rw [document_eq] at hcut
    exact (opensInside_upTo os).front hcut.concat
  unfold extractList
  rw [extract_cut hcut hs]
  cases hspan : firstSpan '[' ']' (Text.trim p) with
  | none =>
    refine .inl ⟨?_, _, rfl, rfl⟩
    rintro ⟨span, hspan', -⟩
    exact absurd (hspan.symm.trans hspan') (by simp)
  | some span =>
    have hregular := hinside.firstSpan hspan
    dsimp only
    cases hparse : Value.parse span with
    | ok v =>
      obtain ⟨-, r, -, n, -, hspan_eq⟩ := firstSpan_eq_some hspan
      have hlist : ∃ items, v = .list items := by
        rw [hspan_eq] at hparse
        rcases n with _ | n
        · have hempty : Value.parse [] = .error .notJson := by decide
          exact absurd (hempty.symm.trans hparse) (by simp)
        · exact parse_bracket hparse
      obtain ⟨items, rfl⟩ := hlist
      have htaken : TakenForList (Text.trim p) :=
        ⟨span, hspan, fun fault h => absurd (hparse.symm.trans h) (by simp)⟩
      exact .inr ⟨htaken, .inl ⟨items, rfl,
        (parse_foreign (by decide) hregular hparse).2 items rfl⟩⟩
    | error fault =>
      cases hbad : fault.isBadValue with
      | false =>
        refine .inr ⟨⟨span, hspan, fun fault' h => ?_⟩, .inr ⟨fault, rfl, hbad⟩⟩
        obtain rfl := Except.error.inj (hparse.symm.trans h)
        exact hbad
      | true =>
        refine .inl ⟨?_, fault, rfl, hbad⟩
        rintro ⟨span', hspan', htaken⟩
        obtain rfl := Option.some.inj (hspan.symm.trans hspan')
        exact Bool.noConfusion (hbad.symm.trans (htaken fault hparse))

/-- The second way: the first object of the reply has no list under `fixes`. -/
theorem wrappedFixes_cut {o : FixObject} {more : List FixObject} {tail : Text}
    (htrim : Text.trim p = upTo (o :: more) ++ tail) : wrappedFixes p = .ok none := by
  have hs : ∃ rest, Text.trim p = '[' :: (o.written ++ rest) := by
    rw [htrim, upTo]
    cases more with
    | nil => exact ⟨tail, by simp⟩
    | cons o' more => exact ⟨_, by rw [List.map_cons, List.map_cons, Text.join_cons_cons,
        List.cons_append, List.append_assoc]⟩
  obtain ⟨rest, hs⟩ := hs
  have hspan : firstSpan '\x7b' '\x7d' (Text.trim p) = some o.written := by
    have hobject : IsSpan '\x7b' '\x7d' (o.written ++ rest) o.written := by
      rw [FixObject.written, ← Value.writeAt_oneLine 0]
      exact isSpan_object Layout.isBlank_oneLine 0 (o.readable 0) rest
    rw [hs, firstSpan_cons_ne (by decide)]
    rw [o.written_eq, FixObject.opened, List.cons_append, List.cons_append] at hobject ⊢
    exact firstSpan_of_isSpan hobject
  have hparse : Value.parse o.written = .ok o.value :=
    Value.parse_write Layout.isBlank_oneLine (o.readable 989)
  have hobject : extractObject p = .ok o.valueMembers := by
    unfold extractObject
    rw [extract_cut hcut hs, hspan]
    dsimp only
    rw [hparse]
    rfl
  unfold wrappedFixes
  rw [hobject]
  dsimp only
  split
  · next h => exact absurd h (o.lookup_ne_list _ _)
  · rfl

end BrokenOff

/-- The third way: the whole entries are salvaged, unless something behind them is refused. -/
theorem salvagedFixes_upTo {done : List FixObject} (hdone : done ≠ []) {tail : Text}
    (htail : OpensInside '\x7b' '\x7d' tail) :
    salvagedFixes (upTo done ++ tail) = .ok (done.map FixObject.value) ∧ ¬ Refused tail ∨
      (∃ fault, salvagedFixes (upTo done ++ tail) = .error fault) ∧ Refused tail := by
  have hobjects : ∀ ms ∈ done.map FixObject.valueMembers,
      Value.parse (writeObject ms) = .ok (.object ms) ∧ hasKeys fixKeys ms = true := by
    intro ms hms
    obtain ⟨o, -, rfl⟩ := List.mem_map.mp hms
    exact ⟨Value.parse_write Layout.isBlank_oneLine (o.readable 989), o.hasKeys_valueMembers⟩
  have hupTo : upTo done = listUpTo writeObject (done.map FixObject.valueMembers) := by
    rw [upTo, listUpTo, List.map_map]
    rfl
  obtain ⟨o, more, rfl⟩ := List.exists_cons_of_ne_nil hdone
  have hsalvage := salvage_listUpTo exists_fixKey hobjects htail
  rw [← hupTo, List.map_map] at hsalvage
  unfold salvagedFixes
  rcases hsalvage with ⟨hnot, h⟩ | ⟨hrefused, fault, h⟩
  · refine .inl ⟨?_, hnot⟩
    rw [h]
    rfl
  · refine .inr ⟨⟨fault, ?_⟩, hrefused⟩
    rw [h]

/-- The whole entries of a reply that was cut off are recovered, in order and each once, just where
nothing in a text misleads the reader. -/
theorem fixEntries_truncated (os : List FixObject) (p : Text) (hp : IsCut p (document os))
    (hsome : completeIn p.length os ≠ []) :
    fixEntries p = .ok ((completeIn p.length os).map FixObject.value) ↔ ¬ Misled os p := by
  obtain ⟨tail, hreply, htail⟩ := exists_tail hp hsome
  unfold Misled
  generalize completeIn p.length os = done at *
  have hdrop : p.drop (upTo done).length = tail := by rw [hreply, List.drop_left]
  rw [hdrop]
  obtain ⟨o, more, rfl⟩ := List.exists_cons_of_ne_nil hsome
  have htrim : Text.trim p = upTo (o :: more) ++ Text.trimRight tail := by
    rw [hreply, trim_upTo hsome]
  have hcut : IsCut (Text.trim p) (document os) := by
    refine .of_front ?_ hp
    rw [htrim, hreply, List.prefix_append_right_inj]
    exact Text.trimRight_front tail
  have hsecond := wrappedFixes_cut hcut htrim
  unfold fixEntries
  rcases extractList_cut hcut htrim with ⟨hnot, fault, hlist, hbad⟩ | ⟨htaken, hlist⟩
  · rw [hlist]
    dsimp only
    rw [hbad, if_pos rfl, hsecond]
    dsimp only
    rcases salvagedFixes_upTo hsome htail with ⟨hsalvaged, hwhole⟩ | ⟨⟨fault, hsalvaged⟩, hrefused⟩
    · rw [← hreply] at hsalvaged
      rw [hsalvaged]
      exact ⟨fun _ h => h.elim hnot hwhole, fun _ => rfl⟩
    · rw [← hreply] at hsalvaged
      rw [hsalvaged]
      exact ⟨fun h => absurd h (by simp), fun h => absurd (.inr hrefused) h⟩
  · refine ⟨fun h => ?_, fun h => absurd (.inl htaken) h⟩
    rcases hlist with ⟨items, hlist, hforeign⟩ | ⟨fault, hlist, hbad⟩
    · rw [hlist] at h
      exact absurd (Except.ok.inj h) (ne_of_foreign hforeign o more)
    · rw [hlist] at h
      dsimp only at h
      rw [hbad] at h
      exact absurd h (by simp)

/-! ## Two entries -/

/-- A fix entry with nothing but a file and a comment. -/
def remark (file comment : Text) : FixObject where
  members := [("file", .text file), ("comment", .text comment)]
  distinct := (by decide : ["file".toList, "comment".toList].Nodup)
  hasFile := ⟨file, List.mem_cons_self⟩
  hasComment := ⟨comment, List.mem_cons_of_mem _ List.mem_cons_self⟩

def typo : FixObject := remark "a.py" "typo"

def indexing : FixObject := remark "a.py" "use xs[0]"

/-- The cut falls within the first key of the second entry, in front of its brackets. -/
theorem fixEntries_truncated_typo :
    ∃ p, IsCut p (document [typo, indexing]) ∧ completeIn p.length [typo, indexing] ≠ [] ∧
      fixEntries p = .ok [typo.value] ∧ ¬ Misled [typo, indexing] p := by
  obtain ⟨p, hp⟩ : ∃ p : Text, p = upTo [typo] ++ ", \x7b\"fi" := ⟨_, rfl⟩
  have hdocument : document [typo, indexing] =
      p ++ "le\": \"a.py\", \"comment\": \"use xs[0]\"\x7d]" := by
    rw [hp]
    cbv
  have hcut : IsCut p (document [typo, indexing]) := by
    rw [hdocument]
    exact ⟨List.prefix_append _ _, by simp⟩
  have hcomplete : (completeIn p.length [typo, indexing]).map FixObject.value = [typo.value] := by
    rw [hp]
    cbv
  have hsome : completeIn p.length [typo, indexing] ≠ [] := by
    intro h
    rw [h] at hcomplete
    exact absurd hcomplete (by simp)
  have hentries : fixEntries p = .ok [typo.value] := by
    rw [hp]
    cbv
  refine ⟨p, hcut, hsome, hentries, ?_⟩
  rw [← fixEntries_truncated [typo, indexing] p hcut hsome, hcomplete]
  exact hentries

/-- An index in a comment is taken for the list of entries, so the whole entry in front of the cut
is lost. -/
theorem fixEntries_lost : ¬ ∀ (os : List FixObject) (p : Text), IsCut p (document os) →
    completeIn p.length os ≠ [] →
      fixEntries p = .ok ((completeIn p.length os).map FixObject.value) := by
  intro h
  have hcut : IsCut (upTo [indexing]) (document [indexing]) := by
    rw [document_eq]
    exact ⟨List.prefix_append _ _, by simp⟩
  have hcomplete : (completeIn (upTo [indexing]).length [indexing]).map FixObject.value =
      [indexing.value] := by cbv
  have hsome : completeIn (upTo [indexing]).length [indexing] ≠ [] := by
    intro h
    rw [h] at hcomplete
    exact absurd hcomplete (by simp)
  have hentries : fixEntries (upTo [indexing]) = .ok [.int 0] := by cbv
  have hlost := h [indexing] (upTo [indexing]) hcut hsome
  rw [hentries, hcomplete] at hlost
  exact absurd (List.cons.inj (Except.ok.inj hlost)).1 (by simp [FixObject.value])

end ChangeReview.Reply
