import ChangeReview.Backend.Basic
import ChangeReview.Proofs.Decimal.ExactDoubles
import ChangeReview.Proofs.Text.Ordering
import ChangeReview.Value.Number

/-!
# Keys of instances

What makes two values the same key is their form: the exact number a value stands for, and the value
itself where it stands for none. So being the same key is an equivalence, although it is decided kind
by kind. Two sets of options have the same key when they have the same names with the same values.
The keys hold the options in the order of their names, so that they can be compared one by one
whatever the order they were given in.
-/
namespace ChangeReview.Value

open Binary64 (Amount)

/-- What a value is as a key. -/
inductive KeyForm where
  | numeric (a : Amount)
  | other (v : Value)

/-- The exact number. -/
def Number.amount : Number → Amount
  | .whole n => .number n
  | .double x => (Binary64.ofFloat x).amount

def keyForm (v : Value) : KeyForm :=
  match v.number? with
  | some x => .numeric x.amount
  | none => .other v

variable {a b c : Value}

/-- Numbers are the same when they have the same exact value, or are both no number. -/
theorem Number.same_iff (x y : Number) : x.same y = true ↔ x.amount = y.amount := by
  cases x with
  | whole m =>
    cases y with
    | whole n => simp [same, amount]
    | double y =>
      rw [same, beq_iff_eq, Binary64.compareInt?_eq_iff, amount, amount]
      exact eq_comm
  | double x =>
    cases y with
    | whole n => rw [same, beq_iff_eq, Binary64.compareInt?_eq_iff, amount, amount]
    | double y =>
      rw [same, Bool.or_eq_true, Bool.and_eq_true, Binary64.beq_iff, beq_iff_eq, beq_iff_eq, amount,
        amount, ne_eq, ← Binary64.amount_eq_notANumber, ← Binary64.amount_eq_notANumber]
      constructor
      · rintro (⟨heq, -⟩ | ⟨hx, hy⟩)
        · exact heq
        · rw [hx, hy]
      · intro heq
        rw [← heq]
        by_cases hx : (Binary64.ofFloat x).amount = .notANumber
        · exact .inr ⟨hx, hx⟩
        · exact .inl ⟨rfl, hx⟩

/-- Two values are the same key when they have the same form. -/
theorem sameKey_iff : sameKey a b = true ↔ a.keyForm = b.keyForm := by
  unfold sameKey keyForm
  cases a.number? with
  | none => cases b.number? <;> simp
  | some x =>
    cases b.number? with
    | none => simp
    | some y => simp [Number.same_iff]

theorem sameKey_refl (a : Value) : sameKey a a = true := sameKey_iff.mpr rfl

theorem sameKey_comm : sameKey a b = sameKey b a :=
  Bool.eq_iff_iff.mpr (by rw [sameKey_iff, sameKey_iff, eq_comm])

theorem sameKey_trans (h : sameKey a b = true) (h' : sameKey b c = true) : sameKey a c = true :=
  sameKey_iff.mpr ((sameKey_iff.mp h).trans (sameKey_iff.mp h'))

/-- What is the same as a key is a key. -/
theorem isKey_of_sameKey (h : sameKey a b = true) : a.isKey = b.isKey := by
  have hnumber : ∀ v : Value, v.number? ≠ none → v.isKey = true := by
    intro v hv
    cases v <;> first | rfl | exact absurd rfl hv
  unfold sameKey at h
  split at h
  · next ha hb => rw [hnumber a (by simp [ha]), hnumber b (by simp [hb])]
  · rw [beq_iff_eq.mp h]
  · exact absurd h (by simp)

end ChangeReview.Value

namespace ChangeReview

/-- Things under different names are in the same order by their names when they are the same. -/
theorem Text.mergeSort_byName_eq_iff {α : Type} {as bs : List (Text × α)}
    (ha : (as.map Prod.fst).Nodup) (hb : (bs.map Prod.fst).Nodup) :
    (as.mergeSort fun a b => le a.1 b.1) = (bs.mergeSort fun a b => le a.1 b.1) ↔
      ∀ o, o ∈ as ↔ o ∈ bs := by
  constructor
  · intro h o
    have hsame : o ∈ (as.mergeSort fun a b => le a.1 b.1) ↔
        o ∈ bs.mergeSort fun a b => le a.1 b.1 := by
      rw [h]
    rwa [List.mem_mergeSort, List.mem_mergeSort] at hsame
  · intro h
    have hperm : as.Perm bs := (List.perm_ext_iff_of_nodup (ha.of_map _) (hb.of_map _)).mpr h
    have hsorted : ((bs.mergeSort fun a b => le a.1 b.1).map Prod.fst).Pairwise fun s t =>
        le s t = true := by
      rw [List.map_mergeSort (s := le) (fun _ _ _ _ => rfl)]
      exact pairwise_mergeSort _
    have hnodup : ((bs.mergeSort fun a b => le a.1 b.1).map Prod.fst).Nodup :=
      ((List.mergeSort_perm bs _).map Prod.fst).nodup_iff.mpr hb
    exact mergeSort_byName (hperm.trans (List.mergeSort_perm bs _).symm) (hsorted.and hnodup)

/-- Options, none of which is given twice. -/
structure Keywords where
  options : BuildOptions
  nodup : (options.map Prod.fst).Nodup

namespace Registry

/-- Options as they are compared: a value by its form as a key. -/
def forms (options : BuildOptions) : List (Text × Value.KeyForm) :=
  options.map fun o => (o.1, o.2.keyForm)

/-- The same names have the same values, in whatever order. -/
def SameOptions (a b : BuildOptions) : Prop := ∀ o, o ∈ forms a ↔ o ∈ forms b

namespace Key

variable {a b c : Key}

theorem sameOptions_iff {a b : BuildOptions} : sameOptions a b = true ↔ forms a = forms b := by
  induction a generalizing b with
  | nil => cases b <;> simp [sameOptions, forms]
  | cons o a ih =>
    cases b with
    | nil => simp [sameOptions, forms]
    | cons p b =>
      simp only [sameOptions, Bool.and_eq_true, beq_iff_eq, Value.sameKey_iff, ih, forms,
        List.map_cons, List.cons.injEq, Prod.mk.injEq]

/-- Keys are the same when they have the same name and compare alike option by option. -/
theorem same_iff : a.same b = true ↔ a.name = b.name ∧ forms a.options = forms b.options := by
  rw [same, Bool.and_eq_true, beq_iff_eq, sameOptions_iff]

end Key

end Registry

end ChangeReview
