import ChangeReview.Fault

/-!
# Operations that end well

When operations in a row end well: one behind another, the same for every item of a list, and a fold
over a list. What a fold comes to is told by what each of its steps keeps.
-/
namespace ChangeReview

variable {α β : Type} {r : Except Fault α}

/-- What ends well just under a condition goes on just under one more. -/
theorem bind_ok_iff {f : α → Except Fault β} {P Q : Prop} (hr : (∃ a, r = .ok a) ↔ P)
    (hf : ∀ a, r = .ok a → ((∃ b, f a = .ok b) ↔ Q)) : (∃ b, (r >>= f) = .ok b) ↔ P ∧ Q := by
  constructor
  · rintro ⟨b, h⟩
    obtain ⟨a, ha, hb⟩ := exists_of_bind_eq_ok h
    exact ⟨hr.mp ⟨a, ha⟩, (hf a ha).mp ⟨b, hb⟩⟩
  · rintro ⟨hp, hq⟩
    obtain ⟨a, ha⟩ := hr.mpr hp
    obtain ⟨b, hb⟩ := (hf a ha).mpr hq
    exact ⟨b, by rw [ha]; exact hb⟩

theorem map_ok_iff (f : α → β) : (∃ b, r.map f = .ok b) ↔ ∃ a, r = .ok a := by
  cases r with
  | ok a => exact iff_of_true ⟨_, rfl⟩ ⟨a, rfl⟩
  | error fault => exact iff_of_false (by simp [Except.map]) (by simp)

theorem eq_error_of_map {f : α → β} {fault : Fault} (h : r.map f = .error fault) :
    r = .error fault := by
  cases r with
  | ok a => exact absurd h (by simp [Except.map])
  | error fault' => exact congrArg Except.error (Except.error.inj h)

theorem bind_ok_iff_left {f : α → Except Fault β} (hf : ∀ a, ∃ b, f a = .ok b) :
    (∃ b, (r >>= f) = .ok b) ↔ ∃ a, r = .ok a := by
  cases r with
  | ok a => exact iff_of_true (hf a) ⟨a, rfl⟩
  | error fault => exact iff_of_false (by rw [error_bind]; simp) (by simp)

theorem bind_pure_ok_iff (f : α → β) :
    (∃ b, (r >>= fun a => pure (f a)) = .ok b) ↔ ∃ a, r = .ok a :=
  bind_ok_iff_left fun a => ⟨f a, rfl⟩

theorem mapM_ok_iff {f : α → Except Fault β} (items : List α) :
    (∃ bs, items.mapM f = .ok bs) ↔ ∀ a ∈ items, ∃ b, f a = .ok b := by
  induction items with
  | nil => exact iff_of_true ⟨[], rfl⟩ (by simp)
  | cons a items ih =>
    rw [List.mapM_cons, List.forall_mem_cons, ← ih]
    exact bind_ok_iff Iff.rfl fun b _ => bind_pure_ok_iff (b :: ·)

theorem anyM_ok {f : α → Except Fault Bool} {items : List α} (h : ∀ a ∈ items, ∃ b, f a = .ok b) :
    ∃ b, items.anyM f = .ok b := by
  induction items with
  | nil => exact ⟨false, rfl⟩
  | cons a items ih =>
    obtain ⟨⟨b, hb⟩, hitems⟩ := List.forall_mem_cons.mp h
    rw [List.anyM, hb]
    cases b with
    | true => exact ⟨true, rfl⟩
    | false => exact ih hitems

theorem findM?_ok {f : α → Except Fault Bool} {items : List α} (h : ∀ a ∈ items, ∃ b, f a = .ok b) :
    ∃ b, items.findM? f = .ok b := by
  induction items with
  | nil => exact ⟨none, rfl⟩
  | cons a items ih =>
    obtain ⟨⟨b, hb⟩, hitems⟩ := List.forall_mem_cons.mp h
    rw [List.findM?, hb]
    cases b with
    | true => exact ⟨some a, rfl⟩
    | false => exact ih hitems

theorem findSomeM?_ok {f : α → Except Fault (Option β)} {items : List α}
    (h : ∀ a ∈ items, ∃ b, f a = .ok b) : ∃ b, items.findSomeM? f = .ok b := by
  induction items with
  | nil => exact ⟨none, rfl⟩
  | cons a items ih =>
    obtain ⟨⟨b, hb⟩, hitems⟩ := List.forall_mem_cons.mp h
    rw [List.findSomeM?, hb]
    cases b with
    | some b => exact ⟨some b, rfl⟩
    | none => exact ih hitems

/-! ## Folds -/

/-- What holds of no item and is kept by one more holds of all items of a fold. -/
theorem foldlM_induction {f : β → α → Except Fault β} {P : List α → β → Prop} {items : List α}
    {b₀ b : β} (hnone : P [] b₀)
    (hmore : ∀ seen b a b', P seen b → f b a = .ok b' → P (seen ++ [a]) b')
    (h : items.foldlM f b₀ = .ok b) : P items b := by
  suffices hfrom : ∀ (more seen : List α) (b₁ : β), P seen b₁ →
      more.foldlM f b₁ = .ok b → P (seen ++ more) b from hfrom items [] b₀ hnone h
  intro more
  induction more with
  | nil =>
    intro seen b₁ hseen hend
    obtain rfl := Except.ok.inj hend
    rwa [List.append_nil]
  | cons a more ih =>
    intro seen b₁ hseen hrest
    rw [List.foldlM_cons] at hrest
    obtain ⟨b₂, hstep, hrest⟩ := exists_of_bind_eq_ok hrest
    have hlater := ih (seen ++ [a]) b₂ (hmore seen b₁ a b₂ hseen hstep) hrest
    rwa [List.append_assoc, List.singleton_append] at hlater

/-- A fold goes through where each of its steps does, whatever it has come to. -/
theorem foldlM_ok_iff {f : β → α → Except Fault β} {P : α → Prop}
    (h : ∀ b a, (∃ b', f b a = .ok b') ↔ P a) (items : List α) (b : β) :
    (∃ b', items.foldlM f b = .ok b') ↔ ∀ a ∈ items, P a := by
  induction items generalizing b with
  | nil => simp [pure, Except.pure]
  | cons a items ih =>
    rw [List.foldlM_cons, List.forall_mem_cons]
    exact bind_ok_iff (h b a) fun b₁ _ => ih b₁

end ChangeReview
