import ChangeReview.Proofs.Reply.Spans
import ChangeReview.Proofs.Value.Locality

/-!
# Documents are balanced

The scan for a balanced stretch keeps its depth over every document that the reader takes, whoever
wrote it. So in front of any text the stretch from the bracket of a list or an object is that list
or object, and the reader reads it there as it does alone.
-/
namespace ChangeReview.Reply

open Value (readItems readMembers readValue skipGap)

/-- The value stands between the brackets. -/
inductive Brackets : Char → Char → Value → Prop where
  | list (items : List Value) : Brackets '[' ']' (.list items)
  | object (members : List (Text × Value)) : Brackets '\x7b' '\x7d' (.object members)

theorem Brackets.isPair {o c : Char} {v : Value} (h : Brackets o c v) : IsPair o c := by
  cases h with
  | list _ => exact .list
  | object _ => exact .object

theorem Brackets.not_isScalar {o c : Char} {v : Value} (h : Brackets o c v) :
    ¬ Value.IsScalar v := by
  cases h <;> exact id

variable {opening closing : Char}

/-- The scan keeps its depth over the document of a value, and over what it has between brackets. -/
structure IsBalanced (opening closing : Char) (v : Value) (t : Text) : Prop where
  passes : Passes opening closing t
  enclosed : ∀ {o c : Char}, Brackets o c v →
    ∃ body, t = o :: body ++ [c] ∧ Passes opening closing body

/-- What is skipped in front of a text keeps the depth. -/
theorem exists_gap (hpair : IsPair opening closing) {t u : Text} (h : skipGap t = u) :
    ∃ gap, t = gap ++ u ∧ Passes opening closing gap := by
  refine ⟨t.takeWhile Value.isGap, ?_, ?_⟩
  · rw [← h]
    exact List.takeWhile_append_dropWhile.symm
  · exact passes_allGap hpair fun c hc => List.mem_takeWhile_imp hc

/-- Brackets around what keeps the depth are balanced as the value between them. -/
theorem isBalanced_brackets (hpair : IsPair opening closing) {o c : Char} {v : Value}
    (hv : Brackets o c v) {body : Text} (h : Passes opening closing body) :
    IsBalanced opening closing v (o :: body ++ [c]) where
  passes := passes_brackets hpair hv.isPair h
  enclosed := by
    intro o' c' hv'
    have hsame : o' = o ∧ c' = c := by cases hv <;> cases hv' <;> exact ⟨rfl, rfl⟩
    exact ⟨body, by rw [hsame.1, hsame.2], h⟩

theorem isBalanced_scalar {v : Value} (hv : Value.IsScalar v) {t : Text}
    (h : Passes opening closing t) : IsBalanced opening closing v t where
  passes := h
  enclosed hbrackets := absurd hv hbrackets.not_isScalar

/-! ## One step of the readers -/

/-- With this much fuel every value that is read is balanced. -/
def BalancedValues (opening closing : Char) (fuel : Nat) : Prop :=
  ∀ {depth : Nat} {t rest : Text} {v : Value}, readValue fuel depth t = .ok (v, rest) →
    ∃ front, t = front ++ rest ∧ IsBalanced opening closing v front

def BalancedItems (opening closing : Char) (fuel : Nat) : Prop :=
  ∀ {depth : Nat} {done : List Value} {t rest : Text} {v : Value},
    readItems fuel depth done t = .ok (v, rest) →
      ∃ items body, v = .list items ∧ t = body ++ ']' :: rest ∧ Passes opening closing body

def BalancedMembers (opening closing : Char) (fuel : Nat) : Prop :=
  ∀ {depth : Nat} {done : List (Text × Value)} {t rest : Text} {v : Value},
    readMembers fuel depth done t = .ok (v, rest) →
      ∃ members body, v = .object members ∧ t = body ++ '\x7d' :: rest ∧
        Passes opening closing body

section Steps

variable {k : Nat} (hpair : IsPair opening closing)

include hpair

/-- A mark between items keeps the depth. -/
theorem passes_mark {c : Char} (h : c = ',' ∨ c = ':') : Passes opening closing [c] :=
  .of_char (by rcases h with rfl | rfl <;> cases hpair <;> decide)

theorem balancedValues_succ (hitems : BalancedItems opening closing k)
    (hmembers : BalancedMembers opening closing k) :
    BalancedValues opening closing (k + 1) := by
  intro depth t rest v hread
  cases Value.readValue_succ_eq_ok_iff.mp hread with
  | text hs =>
    obtain ⟨body, hbody, rfl⟩ := Value.readText?_inQuotes hs
    exact ⟨'"' :: body ++ ['"'], by simp, isBalanced_scalar (v := .text _) trivial (.quoted hbody)⟩
  | emptyList hskip =>
    obtain ⟨gap, rfl, hgap⟩ := exists_gap hpair hskip
    exact ⟨'[' :: gap ++ [']'], by simp, isBalanced_brackets hpair (.list []) hgap⟩
  | list _ hitem =>
    obtain ⟨items, body, rfl, hbody, hpasses⟩ := hitems hitem
    obtain ⟨gap, rfl, hgap⟩ := exists_gap hpair hbody
    exact ⟨'[' :: (gap ++ body) ++ [']'], by simp,
      isBalanced_brackets hpair (.list items) (hgap.append hpasses)⟩
  | emptyObject hskip =>
    obtain ⟨gap, rfl, hgap⟩ := exists_gap hpair hskip
    exact ⟨'\x7b' :: gap ++ ['\x7d'], by simp, isBalanced_brackets hpair (.object []) hgap⟩
  | object _ hmember =>
    obtain ⟨members, body, rfl, hbody, hpasses⟩ := hmembers hmember
    obtain ⟨gap, rfl, hgap⟩ := exists_gap hpair hbody
    exact ⟨'\x7b' :: (gap ++ body) ++ ['\x7d'], by simp,
      isBalanced_brackets hpair (.object members) (hgap.append hpasses)⟩
  | atom _ hatom =>
    obtain ⟨hscalar, front, hfront, -, hsplit⟩ := Value.exists_of_readAtom hatom
    exact ⟨front, hsplit, isBalanced_scalar hscalar (passes_isAtom hpair hfront)⟩

theorem balancedItems_succ (hvalues : BalancedValues opening closing k)
    (hitems : BalancedItems opening closing k) : BalancedItems opening closing (k + 1) := by
  intro depth done t rest v hread
  cases Value.readItems_succ_eq_ok_iff.mp hread with
  | more hw hskip hmore =>
    obtain ⟨front, rfl, hfront⟩ := hvalues hw
    obtain ⟨gap, rfl, hgap⟩ := exists_gap hpair hskip
    obtain ⟨items, body, rfl, hbody, hpasses⟩ := hitems hmore
    obtain ⟨gap', rfl, hgap'⟩ := exists_gap hpair hbody
    refine ⟨items, front ++ gap ++ [','] ++ gap' ++ body, rfl, by simp, ?_⟩
    exact (((hfront.passes.append hgap).append (passes_mark hpair (.inl rfl))).append
      hgap').append hpasses
  | last hw hskip =>
    obtain ⟨front, rfl, hfront⟩ := hvalues hw
    obtain ⟨gap, rfl, hgap⟩ := exists_gap hpair hskip
    exact ⟨_, front ++ gap, rfl, by simp, hfront.passes.append hgap⟩

/-- A member with the gap behind it keeps the depth. -/
theorem exists_member (hvalues : BalancedValues opening closing k) {depth : Nat}
    {t key r u : Text} {w : Value} (h : Value.ReadsMember k depth t key w r)
    (hskip : skipGap r = u) : ∃ front, t = front ++ u ∧ Passes opening closing front := by
  obtain ⟨r₀, r₁, r₂, rfl, hkey, hcolon, hw⟩ := h
  obtain ⟨quoted, hquoted, rfl⟩ := Value.readText?_inQuotes hkey
  obtain ⟨gap₁, rfl, hgap₁⟩ := exists_gap hpair hcolon
  obtain ⟨front, hfront, hbalanced⟩ := hvalues hw
  obtain ⟨gap₂, rfl, hgap₂⟩ := exists_gap hpair hfront
  obtain ⟨gap₃, rfl, hgap₃⟩ := exists_gap hpair hskip
  refine ⟨'"' :: quoted ++ ['"'] ++ gap₁ ++ [':'] ++ gap₂ ++ front ++ gap₃, by simp, ?_⟩
  have hhead := ((Passes.quoted hquoted).append hgap₁).append (passes_mark hpair (.inr rfl))
  exact ((hhead.append hgap₂).append hbalanced.passes).append hgap₃

theorem balancedMembers_succ (hvalues : BalancedValues opening closing k)
    (hmembers : BalancedMembers opening closing k) :
    BalancedMembers opening closing (k + 1) := by
  intro depth done t rest v hread
  cases Value.readMembers_succ_eq_ok_iff.mp hread with
  | more hmember hskip hmore =>
    obtain ⟨front, rfl, hfront⟩ := exists_member hpair hvalues hmember hskip
    obtain ⟨members, body, rfl, hbody, hpasses⟩ := hmembers hmore
    obtain ⟨gap, rfl, hgap⟩ := exists_gap hpair hbody
    refine ⟨members, front ++ [','] ++ gap ++ body, rfl, by simp, ?_⟩
    exact ((hfront.append (passes_mark hpair (.inl rfl))).append hgap).append hpasses
  | last hmember hskip =>
    obtain ⟨front, rfl, hfront⟩ := exists_member hpair hvalues hmember hskip
    exact ⟨_, front, rfl, rfl, hfront⟩

end Steps

theorem balanced_all (hpair : IsPair opening closing) (fuel : Nat) :
    BalancedValues opening closing fuel ∧ BalancedItems opening closing fuel ∧
      BalancedMembers opening closing fuel := by
  induction fuel with
  | zero =>
    refine ⟨fun h => ?_, fun h => ?_, fun h => ?_⟩
    · exact absurd h (by simp [readValue])
    · exact absurd h (by simp [readItems])
    · exact absurd h (by simp [readMembers])
  | succ k ih =>
    obtain ⟨hvalues, hitems, hmembers⟩ := ih
    exact ⟨balancedValues_succ hpair hitems hmembers, balancedItems_succ hpair hvalues hitems,
      balancedMembers_succ hpair hvalues hmembers⟩

/-! ## Whole documents -/

/-- A text that is read as a list or an object has the bracket that closes it. -/
theorem mem_closing_of_parse {v : Value} (hv : Brackets opening closing v) {t : Text}
    (h : Value.parse t = .ok v) : closing ∈ t := by
  obtain ⟨rest, hread, -⟩ := Value.parse_eq_ok_iff.mp h
  obtain ⟨front, hsplit, hbalanced⟩ := (balanced_all hv.isPair _).1 hread
  obtain ⟨body, rfl, -⟩ := hbalanced.enclosed hv
  have hmem : closing ∈ Value.skipGap t := by simp [hsplit]
  exact (List.dropWhile_suffix Value.isGap).subset hmem

/-- The document of a list or an object and nothing around it. -/
structure IsDocument (opening closing : Char) (v : Value) (t : Text) : Prop where
  brackets : Brackets opening closing v
  parse : Value.parse t = .ok v
  enclosed : ∃ body, t = opening :: body ++ [closing]

namespace IsDocument

variable {v : Value} {t : Text}

theorem isGap_opening (h : IsDocument opening closing v t) :
    Value.isGap opening = false ∧ Value.isGap closing = false := by
  cases h.brackets <;> decide

theorem skipGap (h : IsDocument opening closing v t) (u : Text) :
    Value.skipGap (t ++ u) = t ++ u := by
  obtain ⟨body, rfl⟩ := h.enclosed
  exact Value.skipGap_cons h.isGap_opening.1 _

/-- The reader takes all of the document. -/
theorem readValue (h : IsDocument opening closing v t) :
    Value.readValue (2 * t.length + 2) Value.maxDepth t = .ok (v, []) := by
  have hparse := h.parse
  have hgap := h.skipGap []
  rw [List.append_nil] at hgap
  rw [Value.parse, hgap] at hparse
  split at hparse
  · exact absurd hparse (by simp)
  · next w rest hread =>
    split at hparse
    · next hrest =>
      obtain rfl := Except.ok.inj hparse
      suffices hnil : rest = [] by rwa [hnil] at hread
      -- What is left is a gap at the end of the document, which ends in a bracket.
      obtain ⟨front, hsplit, -⟩ := (balanced_all h.brackets.isPair _).1 hread
      rcases rest.eq_nil_or_concat with hnil | ⟨rest, last, rfl⟩
      · exact hnil
      obtain ⟨body, hbody⟩ := h.enclosed
      rw [hbody, List.concat_eq_append, ← List.append_assoc] at hsplit
      obtain ⟨-, hlast⟩ := List.append_inj' hsplit rfl
      obtain rfl := (List.cons.inj hlast).1
      have hempty : Value.skipGap (rest.concat closing) = [] := List.isEmpty_iff.mp hrest
      have hall := List.dropWhile_eq_nil_iff.mp hempty closing (by simp)
      exact absurd hall (by simp [h.isGap_opening.2])
    · exact absurd hparse (by simp)

/-- In front of any text the document is read as it is alone. -/
theorem readValue_append (h : IsDocument opening closing v t) {fuel : Nat}
    (hfuel : 2 * t.length + 2 ≤ fuel) (u : Text) :
    Value.readValue fuel Value.maxDepth (t ++ u) = .ok (v, u) :=
  Value.readValue_append h.readValue hfuel fun hscalar => absurd hscalar h.brackets.not_isScalar

/-- What stands between the brackets of the document keeps the depth. -/
theorem exists_passes (h : IsDocument opening closing v t) :
    ∃ body, t = opening :: body ++ [closing] ∧ Passes opening closing body := by
  obtain ⟨front, hsplit, hbalanced⟩ := (balanced_all h.brackets.isPair _).1 h.readValue
  rw [List.append_nil] at hsplit
  rw [hsplit]
  exact hbalanced.enclosed h.brackets

/-- In front of any text the document is the balanced stretch from its bracket. -/
theorem isSpan (h : IsDocument opening closing v t) (u : Text) :
    IsSpan opening closing (t ++ u) t := by
  obtain ⟨body, hbody, hpasses⟩ := h.exists_passes
  have hspan := isSpan_enclosed h.brackets.isPair hpasses u
  rw [hbody, List.append_assoc]
  exact hspan

end IsDocument

theorem exists_enclosed (layout : Value.Layout) (level : Nat) (opening closing : Char)
    (items : List Text) :
    ∃ body, layout.enclose level opening closing items = opening :: body ++ [closing] := by
  unfold Value.Layout.enclose
  split
  · exact ⟨[], rfl⟩
  · exact ⟨layout.break (level + 1) ++ Text.join (layout.separator (level + 1)) items ++
      layout.break level, rfl⟩

/-- A written list or object that is read back is a document. -/
theorem isDocument_write {v : Value} (hv : Brackets opening closing v) {layout : Value.Layout}
    (hparse : Value.parse (Value.write layout v) = .ok v) :
    IsDocument opening closing v (Value.write layout v) where
  brackets := hv
  parse := hparse
  enclosed := by
    cases hv with
    | list items => exact exists_enclosed layout 0 '[' ']' _
    | object members => exact exists_enclosed layout 0 '\x7b' '\x7d' _

end ChangeReview.Reply
