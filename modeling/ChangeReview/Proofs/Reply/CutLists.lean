import ChangeReview.Proofs.Reply.Salvage
import Mathlib.Data.List.Induction

/-!
# Lists of objects that were cut off

A written list of objects may be cut off at any character. Some of its objects are whole then, and
they are salvaged. What follows the last whole one starts no object: the brace of the next object is
left open, and every other brace stands in quotes.
-/
namespace ChangeReview.Reply

open Text (IsCut)

/-! ## Whole items of a list -/

section Items

variable {α : Type} (written : α → Text)

/-- A written list up to the end of its last item. -/
def listUpTo (items : List α) : Text := '[' :: Text.join ", " (items.map written)

/-- The items that end within so many characters of the written list. -/
def wholeItems (length : Nat) (items : List α) : List α :=
  (items.zipIdx.filter fun i => (listUpTo written (items.take (i.2 + 1))).length ≤ length).map (·.1)

theorem listUpTo_append {front : List α} (hfront : front ≠ []) (i : α) (rest : List α) :
    listUpTo written (front ++ i :: rest) =
      listUpTo written front ++ (", " ++ Text.join ", " ((i :: rest).map written)) := by
  rw [listUpTo, List.map_append, Text.join_append ", " (by simpa using hfront) (by simp), listUpTo,
    List.cons_append]

/-- One item more stands behind a comma, or behind nothing if it is the first one. -/
theorem exists_listUpTo_concat (front : List α) (i : α) : ∃ gap,
    listUpTo written (front ++ [i]) = listUpTo written front ++ (gap ++ written i) ∧
      '\x7b' ∉ gap := by
  by_cases hfront : front = []
  · subst hfront
    exact ⟨[], by simp [listUpTo, Text.join], List.not_mem_nil⟩
  · refine ⟨", ", ?_, by decide⟩
    rw [listUpTo_append written hfront, List.map_singleton, Text.join_singleton]

theorem listUpTo_front (front rest : List α) :
    listUpTo written front <+: listUpTo written (front ++ rest) := by
  induction rest generalizing front with
  | nil => simp
  | cons i rest ih =>
    obtain ⟨gap, hconcat, -⟩ := exists_listUpTo_concat written front i
    rw [List.append_cons]
    refine List.IsPrefix.trans ?_ (ih (front ++ [i]))
    rw [hconcat]
    exact List.prefix_append _ _

/-- One item more is whole or not, and changes nothing for those in front of it. -/
theorem wholeItems_concat (length : Nat) (items : List α) (i : α) :
    wholeItems written length (items ++ [i]) = wholeItems written length items ++
      if (listUpTo written (items ++ [i])).length ≤ length then [i] else [] := by
  have hfront : ∀ x ∈ items.zipIdx,
      decide ((listUpTo written ((items ++ [i]).take (x.2 + 1))).length ≤ length) =
        decide ((listUpTo written (items.take (x.2 + 1))).length ≤ length) := by
    intro x hx
    have hlt := List.snd_lt_of_mem_zipIdx hx
    rw [List.take_append_of_le_length (by omega)]
  have hall : (items ++ [i]).take (items.length + 1) = items ++ [i] :=
    List.take_of_length_le (by simp)
  rw [wholeItems, List.zipIdx_append, List.filter_append, List.filter_congr hfront,
    List.map_append, ← wholeItems]
  congr 1
  rw [List.zipIdx_singleton, Nat.zero_add, List.filter_cons, List.filter_nil]
  simp only [hall, decide_eq_true_eq]
  split <;> rfl

/-- Some items are whole and the next one is not. -/
theorem exists_split (items : List α) (length : Nat) :
    ∃ rest, items = wholeItems written length items ++ rest ∧
      (wholeItems written length items ≠ [] →
        (listUpTo written (wholeItems written length items)).length ≤ length) ∧
      ∀ i more, rest = i :: more →
        length < (listUpTo written (wholeItems written length items ++ [i])).length := by
  induction items using List.reverseRecOn with
  | nil => exact ⟨[], rfl, fun h => absurd rfl h, fun i more h => absurd h (by simp)⟩
  | append_singleton items i ih =>
    obtain ⟨rest, hsplit, hwhole, hnext⟩ := ih
    rw [wholeItems_concat]
    split
    · next hle =>
      have hrest : rest = [] := by
        rcases rest with _ | ⟨r, more⟩
        · rfl
        · have hlt := hnext r more rfl
          have hitems : wholeItems written length items ++ [r] ++ (more ++ [i]) = items ++ [i] := by
            rw [List.append_assoc, List.singleton_append, ← List.cons_append, ← List.append_assoc,
              ← hsplit]
          have hfront := (listUpTo_front written (wholeItems written length items ++ [r])
            (more ++ [i])).length_le
          rw [hitems] at hfront
          omega
      subst hrest
      rw [List.append_nil] at hsplit
      rw [← hsplit]
      exact ⟨[], by simp, fun _ => hle, fun i more h => absurd h (by simp)⟩
    · next hgt =>
      rw [List.append_nil]
      refine ⟨rest ++ [i], by rw [← List.append_assoc, ← hsplit], hwhole, ?_⟩
      intro r more heq
      rcases rest with _ | ⟨r', rest⟩
      · obtain ⟨rfl, -⟩ := List.cons.inj heq
        rw [List.append_nil] at hsplit
        rw [← hsplit]
        omega
      · obtain ⟨rfl, -⟩ := List.cons.inj heq
        exact hnext r' rest rfl

theorem mem_of_mem_wholeItems {length : Nat} {items : List α} {i : α}
    (h : i ∈ wholeItems written length items) : i ∈ items := by
  obtain ⟨rest, hsplit, -⟩ := exists_split written items length
  rw [hsplit]
  exact List.mem_append_left rest h

/-- Nothing is whole where nothing is left. -/
theorem wholeItems_zero (items : List α) : wholeItems written 0 items = [] := by
  obtain ⟨-, -, hwhole, -⟩ := exists_split written items 0
  by_contra hne
  exact absurd (hwhole hne) (by simp [listUpTo])

/-- Behind its first brace the object opens no other one outside quotes, and it ends with the brace
that closes the first one. -/
def OpensOnce (w : Text) : Prop :=
  ∃ opened, w = opened ++ ['\x7d'] ∧ OpensInside '\x7b' '\x7d' opened

/-- What follows the last whole object of a list that was cut off starts no object. -/
theorem exists_rest {items : List α} (hitems : ∀ i ∈ items, OpensOnce (written i)) {p : Text}
    (hp : p <+: listUpTo written items ++ [']']) (hne : p ≠ []) :
    ∃ rest, p = listUpTo written (wholeItems written p.length items) ++ rest ∧
      OpensInside '\x7b' '\x7d' rest := by
  obtain ⟨more, hsplit, hwhole, hnext⟩ := exists_split written items p.length
  generalize wholeItems written p.length items = done at *
  have hfits : (listUpTo written done).length ≤ p.length := by
    by_cases hdone : done = []
    · rw [hdone]
      exact List.length_pos_iff.mpr hne
    · exact hwhole hdone
  have hdone : listUpTo written done <+: listUpTo written items :=
    hsplit ▸ listUpTo_front written done more
  obtain ⟨rest, rfl⟩ :=
    List.prefix_of_prefix_length_le (hdone.trans (List.prefix_append _ _)) hp hfits
  refine ⟨rest, rfl, ?_⟩
  rcases more with _ | ⟨i, more⟩
  · rw [List.append_nil] at hsplit
    rw [hsplit, List.prefix_append_right_inj] at hp
    exact OpensInside.front (.of_regular (q := .outside) (by simp [Regular])) hp
  · obtain ⟨opened, hwritten, hopened⟩ := hitems i (by simp [hsplit])
    obtain ⟨gap, hconcat, hgap⟩ := exists_listUpTo_concat written done i
    have hlt := hnext i more rfl
    have hitem : listUpTo written (done ++ [i]) <+: listUpTo written items ++ [']'] := by
      rw [hsplit, List.append_cons done i more]
      exact (listUpTo_front written _ _).trans (List.prefix_append _ _)
    have hcut := List.prefix_of_prefix_length_le hp hitem (Nat.le_of_lt hlt)
    rw [hconcat] at hlt
    rw [hconcat, List.prefix_append_right_inj] at hcut
    have hshort : rest ≠ gap ++ written i := by
      rintro rfl
      exact Nat.lt_irrefl _ hlt
    have hrest : IsCut rest (gap ++ written i) := ⟨hcut, hshort⟩
    rw [hwritten, ← List.append_assoc] at hrest
    exact (hopened.behind hgap).front hrest.concat

end Items

/-! ## Salvaged objects -/

/-- The document of the object with some members. -/
def writeObject (ms : List (Text × Value)) : Text := Value.writeLine (.object ms)

/-- A fix entry needs a key that no object read from inside quotes has. -/
theorem exists_fixKey : ∃ key ∈ fixKeys, ¬ IsForeignKey key := by
  refine ⟨"file", List.mem_cons_self, ?_⟩
  rintro ⟨c, r, hkey, hdelimiter⟩
  obtain rfl : c = 'f' := (List.cons.inj hkey).1.symm
  exact absurd hdelimiter (by decide)

/-- The whole objects of a list are salvaged, unless something behind them is refused. -/
theorem salvage_listUpTo {required : List Text} (hrequired : ∃ key ∈ required, ¬ IsForeignKey key)
    {objects : List (List (Text × Value))}
    (h : ∀ ms ∈ objects, Value.parse (writeObject ms) = .ok (.object ms) ∧
      hasKeys required ms = true)
    {rest : Text} (hrest : OpensInside '\x7b' '\x7d' rest) :
    (¬ Refused rest ∧
        salvage (listUpTo writeObject objects ++ rest) required = .ok (objects.map .object)) ∨
      (Refused rest ∧
        ∃ fault, salvage (listUpTo writeObject objects ++ rest) required = .error fault) := by
  have hsalvage : salvage (listUpTo writeObject objects ++ rest) required =
      (salvageFrom required 0 rest).map (objects.map .object ++ ·) := by
    rw [salvage, listUpTo, List.cons_append, salvageFrom_ne required (by decide)]
    exact salvageFrom_objects objects h rest
  obtain ⟨key, hkey, hforeign⟩ := hrequired
  rw [hsalvage]
  rcases salvageFrom_inside hkey hforeign hrest with ⟨hnot, hnothing⟩ | ⟨hrefused, fault, hfault⟩
  · refine .inl ⟨hnot, ?_⟩
    rw [hnothing]
    simp [Except.map]
  · refine .inr ⟨hrefused, fault, ?_⟩
    rw [hfault]
    rfl

end ChangeReview.Reply
