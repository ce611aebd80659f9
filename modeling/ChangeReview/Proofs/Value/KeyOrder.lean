import ChangeReview.Proofs.Backend.Keys
import ChangeReview.Proofs.Value.PrefixCode

/-!
# The order of keys

Two values are the same data when they are the same but for the order of the members in their
objects, on every level. Values with their members in the order of their keys are one representative
for each: plain values are the same data exactly when they are sorted to the same value.
-/
namespace ChangeReview.Value

mutual

/-- The two values are the same up to the order of members, on every level. A truth value is no
number here. -/
def sameData : (a b : Value) → Bool
  | null, null => true
  | bool a, bool b => a == b
  | int a, int b => a == b
  | float x, float y => x = y
  | text s, text t => s == t
  | list as, list bs => sameItems as bs
  | object as, object bs => as.length == bs.length && sameMembers as bs
  | _, _ => false
termination_by structural a => a

/-- The items are the same data one by one. -/
def sameItems : (as bs : List Value) → Bool
  | [], [] => true
  | a :: as, b :: bs => sameData a b && sameItems as bs
  | _, _ => false
termination_by structural as => as

/-- Every member of the first is found in the second with the same data. -/
def sameMembers : (as bs : List (Text × Value)) → Bool
  | [], _ => true
  | (k, a) :: as, bs =>
    (match lookup k bs with
    | some b => sameData a b
    | none => false) && sameMembers as bs
termination_by structural as => as

end

theorem sortedMembers_eq_map (ms : List (Text × Value)) :
    sortedMembers ms = ms.map fun m => (m.1, m.2.sorted) := by
  induction ms with
  | nil => rfl
  | cons m ms ih => rw [sortedMembers, ih, List.map_cons]

theorem keys_sortedMembers (ms : List (Text × Value)) :
    (sortedMembers ms).map Prod.fst = ms.map Prod.fst := by
  rw [sortedMembers_eq_map, List.map_map]
  rfl

theorem sameMembers_iff {as bs : List (Text × Value)} :
    sameMembers as bs = true ↔ ∀ m ∈ as, ∃ b, lookup m.1 bs = some b ∧ m.2.sameData b = true := by
  induction as with
  | nil => simp [sameMembers]
  | cons m as ih =>
    rw [sameMembers, Bool.and_eq_true, ih, List.forall_mem_cons]
    refine and_congr_left fun _ => ?_
    cases lookup m.1 bs <;> simp

theorem lookup_eq_some_iff {ms : List (Text × Value)} (hnodup : (ms.map Prod.fst).Nodup)
    {key : Text} {v : Value} : lookup key ms = some v ↔ (key, v) ∈ ms := by
  induction ms with
  | nil => simp [lookup]
  | cons m ms ih =>
    rw [List.map_cons, List.nodup_cons] at hnodup
    rw [lookup, List.mem_cons]
    split
    · next hkey =>
      have hrest : (key, v) ∉ ms := fun hmem => hnodup.1 (hkey ▸ List.mem_map_of_mem hmem)
      rw [or_iff_left hrest, Option.some.injEq, ← hkey, Prod.mk.injEq, eq_comm]
      exact (and_iff_right rfl).symm
    · next hkey =>
      have hfirst : (key, v) ≠ m := fun heq => hkey (congrArg Prod.fst heq).symm
      rw [or_iff_right hfirst, ih hnodup.2]

/-! ## Sorted values are plain -/

mutual

theorem isPlain_sorted : (v : Value) → v.isPlain = true → v.sorted.isPlain = true
  | null, _ | bool _, _ | int _, _ | text _, _ => rfl
  | float _, hv => absurd hv Bool.false_ne_true
  | list items, hv => by
    rw [sorted, isPlain_list]
    exact arePlain_iff.mp (arePlain_sortedItems items (isPlain_list.mp hv))
  | object ms, hv => by
    obtain ⟨hnodup, hplain⟩ := isPlain_object.mp hv
    rw [sorted, isPlain_object]
    have hperm := List.mergeSort_perm (sortedMembers ms) fun a b => Text.le a.1 b.1
    refine ⟨?_, fun m hm => ?_⟩
    · rw [(hperm.map Prod.fst).nodup_iff, keys_sortedMembers]
      exact hnodup
    · exact arePlainMembers_iff.mp (arePlainMembers_sortedMembers ms hplain) m (hperm.mem_iff.mp hm)

theorem arePlain_sortedItems : (items : List Value) → (∀ v ∈ items, v.isPlain = true) →
    arePlain (sortedItems items) = true
  | [], _ => rfl
  | v :: items, h => by
    rw [List.forall_mem_cons] at h
    rw [sortedItems, arePlain, isPlain_sorted v h.1, arePlain_sortedItems items h.2]
    rfl

theorem arePlainMembers_sortedMembers : (ms : List (Text × Value)) →
    (∀ m ∈ ms, m.2.isPlain = true) → arePlainMembers (sortedMembers ms) = true
  | [], _ => rfl
  | (k, v) :: ms, h => by
    rw [List.forall_mem_cons] at h
    rw [sortedMembers, arePlainMembers, isPlain_sorted v h.1, arePlainMembers_sortedMembers ms h.2]
    rfl

end

/-! ## The representative -/

theorem length_sortedMembers (ms : List (Text × Value)) :
    (sortedMembers ms).length = ms.length := by
  rw [sortedMembers_eq_map, List.length_map]

theorem nodup_sortedMembers {ms : List (Text × Value)} (h : (ms.map Prod.fst).Nodup) :
    (sortedMembers ms).Nodup := by
  rw [← keys_sortedMembers] at h
  exact h.of_map _

/-- Members are the same data when there are as many and each is found, with its value sorted, among
the others. -/
theorem sortedMembers_mem_iff {as bs : List (Text × Value)} (ha : (as.map Prod.fst).Nodup)
    (hb : (bs.map Prod.fst).Nodup)
    (hsame : ∀ m ∈ as, ∀ n ∈ bs, (m.2.sorted = n.2.sorted ↔ m.2.sameData n.2 = true)) :
    (∀ o, o ∈ sortedMembers as ↔ o ∈ sortedMembers bs) ↔
      as.length = bs.length ∧ sameMembers as bs = true := by
  -- A member is found in the other object with the same data when it is one of its sorted members.
  have hfound : ∀ m ∈ as, (m.1, m.2.sorted) ∈ sortedMembers bs ↔
      ∃ b, lookup m.1 bs = some b ∧ m.2.sameData b = true := by
    intro m hm
    rw [sortedMembers_eq_map, List.mem_map]
    constructor
    · rintro ⟨n, hn, heq⟩
      obtain ⟨hkey, hvalue⟩ := Prod.mk.inj heq
      refine ⟨n.2, ?_, (hsame m hm n hn).mp hvalue.symm⟩
      rw [← hkey]
      exact (lookup_eq_some_iff hb).mpr hn
    · rintro ⟨b, hlookup, hdata⟩
      have hn := (lookup_eq_some_iff hb).mp hlookup
      exact ⟨(m.1, b), hn, by rw [(hsame m hm _ hn).mpr hdata]⟩
  have hall : sameMembers as bs = true ↔ ∀ o ∈ sortedMembers as, o ∈ sortedMembers bs := by
    rw [sameMembers_iff, sortedMembers_eq_map as, List.forall_mem_map]
    exact forall₂_congr fun m hm => (hfound m hm).symm
  rw [hall, ← length_sortedMembers as, ← length_sortedMembers bs]
  constructor
  · intro h
    have hperm :=
      (List.perm_ext_iff_of_nodup (nodup_sortedMembers ha) (nodup_sortedMembers hb)).mpr h
    exact ⟨hperm.length_eq, fun o => (h o).mp⟩
  · rintro ⟨hcount, hsub⟩ o
    have hperm : (sortedMembers as).Perm (sortedMembers bs) :=
      (List.subperm_of_subset (nodup_sortedMembers ha) hsub).perm_of_length_le hcount.ge
    exact hperm.mem_iff

mutual

/-- Plain values are sorted to the same value when they are the same data. -/
theorem sorted_eq_iff : (a b : Value) → a.isPlain = true → b.isPlain = true →
    (a.sorted = b.sorted ↔ a.sameData b = true)
  | list as, b, ha, hb => by
    cases b with
    | list bs =>
      rw [sorted, sorted, list.injEq, sameData]
      exact sortedItems_eq_iff as bs (isPlain_list.mp ha) (isPlain_list.mp hb)
    | _ => simp [sorted, sameData]
  | object as, b, ha, hb => by
    cases b with
    | object bs =>
      obtain ⟨hanodup, ha⟩ := isPlain_object.mp ha
      obtain ⟨hbnodup, hb⟩ := isPlain_object.mp hb
      rw [sorted, sorted, object.injEq, sameData, Bool.and_eq_true, beq_iff_eq,
        Text.mergeSort_byName_eq_iff (by rwa [keys_sortedMembers]) (by rwa [keys_sortedMembers])]
      exact sortedMembers_mem_iff hanodup hbnodup (members_sorted_eq_iff as bs ha hb)
    | _ => simp [sorted, sameData]
  | null, b, _, _ => by cases b <;> simp [sorted, sameData]
  | bool x, b, _, _ => by cases b <;> simp [sorted, sameData]
  | int x, b, _, _ => by cases b <;> simp [sorted, sameData]
  | float x, b, _, _ => by cases b <;> simp [sorted, sameData]
  | text x, b, _, _ => by cases b <;> simp [sorted, sameData]

theorem sortedItems_eq_iff : (as bs : List Value) → (∀ v ∈ as, v.isPlain = true) →
    (∀ v ∈ bs, v.isPlain = true) → (sortedItems as = sortedItems bs ↔ sameItems as bs = true)
  | [], bs, _, _ => by cases bs <;> simp [sortedItems, sameItems]
  | a :: as, [], _, _ => by simp [sortedItems, sameItems]
  | a :: as, b :: bs, ha, hb => by
    rw [List.forall_mem_cons] at ha hb
    rw [sortedItems, sortedItems, List.cons.injEq, sameItems, Bool.and_eq_true,
      sorted_eq_iff a b ha.1 hb.1, sortedItems_eq_iff as bs ha.2 hb.2]

theorem members_sorted_eq_iff : (as bs : List (Text × Value)) →
    (∀ m ∈ as, m.2.isPlain = true) → (∀ n ∈ bs, n.2.isPlain = true) →
    ∀ m ∈ as, ∀ n ∈ bs, (m.2.sorted = n.2.sorted ↔ m.2.sameData n.2 = true)
  | [], _, _, _ => List.forall_mem_nil _
  | (_, a) :: as, bs, ha, hb => by
    rw [List.forall_mem_cons] at ha ⊢
    exact ⟨fun n hn => sorted_eq_iff a n.2 ha.1 (hb n hn), members_sorted_eq_iff as bs ha.2 hb⟩

end

end ChangeReview.Value
