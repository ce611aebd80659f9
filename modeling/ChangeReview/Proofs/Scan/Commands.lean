import ChangeReview.Proofs.Provider.StreamFaults
import ChangeReview.Proofs.Review.DefaultAnalyses
import ChangeReview.Scan.Run

/-!
# Commands that can be made

The options of a scan may hold anything, so there need not be a command for them. What a computation
of a scan needs is stated together with its faults: a scan may end with a fault of the scanner or of
the system, and none of those stands in the place of a missing result.
-/
namespace ChangeReview

/-- A fault that a scan may end with: of the scanner, or of the system. -/
def Fault.isOfScan : Fault → Bool
  | scan _ | isFolder _ | system _ => true
  | _ => false

/-- The value yields something when it is gone through. -/
def Value.isIterable : Value → Bool
  | text _ | list _ | object _ => true
  | _ => false

/-- The value is a text, or it is absent, false, zero or empty. -/
def Value.IsTextual (v : Value) : Prop := v.truthy = true → v.text?.isSome = true

namespace Scan

/-- There is a result exactly when `P` holds, and the fault in the place of a missing one is none
that a scan may end with. -/
inductive Requires {α : Type} : Except Fault α → Prop → Prop where
  | ok {a : α} {P : Prop} (holds : P) : Requires (.ok a) P
  | fault {fault : Fault} {P : Prop} (fails : ¬ P) (escapes : fault.isOfScan = false) :
      Requires (.error fault) P

namespace Requires

variable {α β : Type} {r : Except Fault α} {P Q : Prop}

theorem ok_iff (h : Requires r P) : (∃ a, r = .ok a) ↔ P := by
  cases h with
  | ok holds => exact iff_of_true ⟨_, rfl⟩ holds
  | fault fails => exact iff_of_false (by simp) fails

theorem congr (h : Requires r P) (hiff : P ↔ Q) : Requires r Q := by
  cases h with
  | ok holds => exact .ok (hiff.mp holds)
  | fault fails escapes => exact .fault (fun hq => fails (hiff.mpr hq)) escapes

/-- A computation needs what its parts need, as long as the need of the second does not depend on
what the first comes to. -/
theorem bind {f : α → Except Fault β} (h : Requires r P) (hf : ∀ a, r = .ok a → Requires (f a) Q) :
    Requires (r >>= f) (P ∧ Q) := by
  cases h with
  | ok holds => exact (hf _ rfl).congr ⟨fun hq => ⟨holds, hq⟩, fun hpq => hpq.2⟩
  | fault fails escapes => exact .fault (fun hpq => fails hpq.1) escapes

theorem map (h : Requires r P) (f : α → β) : Requires (r.map f) P := by
  cases h with
  | ok holds => exact .ok holds
  | fault fails escapes => exact .fault fails escapes

end Requires

/-! ## Options -/

theorem requires_elements (v : Value) : Requires v.elements (v.isIterable = true) := by
  cases v <;> first | exact .ok rfl | exact .fault Bool.false_ne_true rfl

theorem requires_itemsOr {default : Except Fault (List Text)} {P : Prop} (h : Requires default P)
    (given : Value) :
    Requires (itemsOr given default) (if given.truthy then given.isIterable = true else P) := by
  unfold itemsOr
  split
  · exact requires_elements given
  · exact h.map _

theorem requires_textFor (member : Text) (v : Value) :
    Requires (v.textFor member) v.IsTextual := by
  cases htext : v.text? with
  | some t =>
    obtain rfl : v = .text t := by cases v <;> simp_all [Value.text?]
    exact .ok fun _ => rfl
  | none =>
    have hfor : v.textFor member =
        if v.truthy then .error (.noMember v.kind member) else .ok none := by
      cases v <;> first | rfl | exact absurd htext (by simp [Value.text?])
    rw [hfor]
    by_cases htruthy : v.truthy = true
    · rw [if_pos htruthy]
      exact .fault (fun h => absurd (h htruthy) (by simp [htext])) rfl
    · rw [if_neg htruthy]
      exact .ok fun h => absurd h htruthy

theorem requires_rulesetsOf (language framework : Value) :
    Requires (rulesetsOf language framework) (language.IsTextual ∧ framework.IsTextual) :=
  (requires_textFor "lower" language).bind fun _ _ => (requires_textFor "lower" framework).map _

theorem requires_written (v : Value) :
    Requires (written v) (∀ n, v = .int n → Decimal.HasNumeral n) := by
  cases v with
  | int n =>
    by_cases hn : Decimal.HasNumeral n
    · rw [written, Decimal.numeral_of_hasNumeral hn]
      refine .ok fun m hm => ?_
      obtain rfl := Value.int.inj hm
      exact hn
    · rw [written, Decimal.numeral_of_not_hasNumeral hn]
      exact .fault (fun h => hn (h n rfl)) rfl
  | _ => exact .ok fun n hn => absurd hn (by simp)

/-- A value and a whole number in the range of doubles have a sum when the value is a number. -/
theorem requires_sum_int {n : Int} (hn : n.natAbs < Binary64.wholeLimit) (v : Value) :
    Requires (v.sum (.int n)) (v.number?.isSome = true) := by
  have hright : (Value.int n).whole? = some n := rfl
  cases v with
  | float x =>
    obtain ⟨s, hs⟩ := Value.sum_ok_iff.mpr (.doubleWhole x hright hn)
    rw [hs]
    exact .ok rfl
  | bool b => exact .ok rfl
  | int m => exact .ok rfl
  | _ => exact .fault Bool.false_ne_true rfl

/-- Options, a language and a framework that a command can be made of. -/
structure IsLaunchable (o : Options) (language framework : Value) : Prop where
  /-- Rulesets that are given can be gone through; otherwise the names are texts or empty. -/
  rulesets : if o.rulesets.truthy then o.rulesets.isIterable = true
    else language.IsTextual ∧ framework.IsTextual
  excludes : o.excludes.truthy = true → o.excludes.isIterable = true
  timeout : o.timeout.number?.isSome = true
  shownTimeout : ∀ n, o.timeout = .int n → Decimal.HasNumeral n
  shownMaxFileBytes : ∀ n, o.maxFileBytes = .int n → Decimal.HasNumeral n

theorem graceSeconds_lt : graceSeconds.natAbs < Binary64.wholeLimit := by
  have hbounds := Binary64.wholeLimit_bounds
  rw [graceSeconds]
  omega

/-- A command can be made exactly of such options, whatever the target. -/
theorem requires_command (target : Value) (o : Options) (language framework : Value) :
    Requires (command target o language framework) (IsLaunchable o language framework) := by
  have harguments : Requires (arguments target o language framework) _ :=
    (requires_itemsOr (requires_rulesetsOf language framework) o.rulesets).bind fun _ _ =>
      (requires_itemsOr (.ok trivial) o.excludes).bind fun _ _ =>
        (requires_written o.timeout).bind fun _ _ => (requires_written o.maxFileBytes).map _
  refine (harguments.bind fun _ _ => (requires_sum_int graceSeconds_lt o.timeout).map _).congr ?_
  constructor
  · rintro ⟨⟨hrulesets, hexcludes, htimeout, hbytes⟩, hnumber⟩
    exact ⟨hrulesets, fun h => by rwa [if_pos h] at hexcludes, hnumber, htimeout, hbytes⟩
  · rintro ⟨hrulesets, hexcludes, hnumber, htimeout, hbytes⟩
    refine ⟨⟨hrulesets, ?_, htimeout, hbytes⟩, hnumber⟩
    split
    · next h => exact hexcludes h
    · exact trivial

/-- The limit of the process is the sum of a whole limit and the seconds of grace, unless it is no
whole number. -/
theorem timeout_of_command {target : Value} {o : Options} {language framework : Value} {c : Command}
    (h : command target o language framework = .ok c) :
    (∃ n, o.timeout.whole? = some n ∧ c.timeout = .int (n + graceSeconds)) ∨
      o.timeout.whole? = none ∧ ∀ n, c.timeout ≠ .int n := by
  obtain ⟨_, -, h⟩ := exists_of_bind_eq_ok h
  obtain ⟨timeout, hsum, h⟩ := exists_of_bind_eq_ok h
  obtain rfl := Except.ok.inj h
  cases htimeout : o.timeout with
  | bool b =>
    rw [htimeout] at hsum
    exact .inl ⟨_, rfl, (Except.ok.inj hsum).symm⟩
  | int n =>
    rw [htimeout] at hsum
    exact .inl ⟨n, rfl, (Except.ok.inj hsum).symm⟩
  | float x =>
    rw [htimeout] at hsum
    change (Decimal.nearest graceSeconds).map (fun y => Value.float (x + y)) = .ok timeout at hsum
    obtain ⟨y, -, rfl⟩ := exists_of_map_eq_ok hsum
    exact .inr ⟨rfl, by simp⟩
  | _ =>
    rw [htimeout] at hsum
    exact absurd hsum (by simp [Value.sum, Value.whole?])

end Scan

end ChangeReview
