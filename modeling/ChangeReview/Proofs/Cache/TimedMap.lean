import ChangeReview.Cache
import ChangeReview.Proofs.Repository.Entries
import ChangeReview.Proofs.Repository.WholeSeconds
import ChangeReview.Proofs.Value.LineEnds
import Mathlib.Logic.Function.Basic

/-!
# The cache as a timed map

What a cache does with the disk is what a map does that keeps a value and the time of its writing
under each key. A reader gets the value that was last put under the key unless it is older than the
reader allows; then it is gone for every later reader. No key bears on another one, and only
clearing empties the map. The map is the specification; the cache refines it step by step, however
its uses are mixed.
-/
namespace ChangeReview

theorem Cache.stored_eq_some_iff (v w : Value) : stored v = some w ↔ v = w ∧ w ≠ .null := by
  cases v with
  | null => exact ⟨fun h => absurd h (by simp [stored, Value.isNull]), fun h => absurd h.1.symm h.2⟩
  | _ =>
    refine ⟨fun h => ?_, fun h => congrArg some h.1⟩
    obtain rfl := Option.some.inj h
    exact ⟨rfl, by simp⟩

/-- A value and the time of its writing under each key that has one. -/
abbrev TimedMap := Text → Option (Value × Instant)

namespace TimedMap

def empty : TimedMap := fun _ => none

def put (m : TimedMap) (key : Text) (v : Value) (now : Instant) : TimedMap :=
  Function.update m key (some (v, now))

def evict (m : TimedMap) (key : Text) : TimedMap := Function.update m key none

/-- The seconds from a writing until now, as the clock of the disk tells them. -/
def age (written now : Instant) : Instant := Instant.since written.kept now

/-- In whole seconds the clock of the disk is exact, also at the end of a life. -/
theorem age_le_iff {written now life : Int} (hwritten : written.natAbs < 2 ^ 53)
    (hnow : now.natAbs < 2 ^ 53) (hbetween : (now - written).natAbs < 2 ^ 53) :
    age written now ≤ life ↔ now ≤ written + life := by
  unfold age
  rw [Instant.since_whole hwritten hnow hbetween, ← Int.cast_sub, Int.cast_le, sub_le_iff_le_add']

/-- The value under a key that is at most `life` seconds old, where `null` counts as none. An older
one is evicted. -/
def get (m : TimedMap) (now : Instant) (key : Text) (life : Int) : TimedMap × Option Value :=
  match m key with
  | none => (m, none)
  | some (v, written) =>
    if age written now ≤ life then (m, Cache.stored v) else (m.evict key, none)

theorem get_eq_some_iff (m : TimedMap) (now : Instant) (k key : Text) (life : Int) (v : Value)
    (written : Instant) :
    (m.get now k life).1 key = some (v, written) ↔
      m key = some (v, written) ∧ (k = key → age written now ≤ life) := by
  unfold get
  by_cases hk : k = key
  · subst hk
    cases hm : m k with
    | none => simp [hm]
    | some e =>
      obtain ⟨w, t⟩ := e
      dsimp only
      by_cases hyoung : age t now ≤ life
      · rw [if_pos hyoung]
        dsimp only
        rw [hm]
        refine ⟨fun h => ⟨h, fun _ => ?_⟩, fun h => h.1⟩
        obtain ⟨rfl, rfl⟩ := Prod.mk.inj (Option.some.inj h)
        exact hyoung
      · rw [if_neg hyoung]
        refine ⟨fun h => absurd h (by simp [evict]), ?_⟩
        rintro ⟨h, hlife⟩
        obtain ⟨rfl, rfl⟩ := Prod.mk.inj (Option.some.inj h)
        exact absurd (hlife rfl) hyoung
  · have hsame : (m.get now k life).1 key = m key := by
      unfold get
      split
      · rfl
      · split
        · rfl
        · exact Function.update_of_ne (Ne.symm hk) _ _
    unfold get at hsame
    rw [hsame]
    simp [hk]

theorem get_snd_eq_some_iff (m : TimedMap) (now : Instant) (key : Text) (life : Int)
    (v : Value) :
    (m.get now key life).2 = some v ↔
      ∃ written, m key = some (v, written) ∧ age written now ≤ life ∧ v ≠ .null := by
  unfold get
  cases hm : m key with
  | none => simp
  | some e =>
    obtain ⟨w, t⟩ := e
    dsimp only
    by_cases hyoung : age t now ≤ life
    · rw [if_pos hyoung, Cache.stored_eq_some_iff]
      constructor
      · rintro ⟨rfl, hnull⟩
        exact ⟨t, rfl, hyoung, hnull⟩
      · rintro ⟨_, heq, -, hnull⟩
        exact ⟨(Prod.mk.inj (Option.some.inj heq)).1, hnull⟩
    · rw [if_neg hyoung]
      refine ⟨fun h => absurd h (by simp), ?_⟩
      rintro ⟨_, heq, hlife, -⟩
      obtain ⟨rfl, rfl⟩ := Prod.mk.inj (Option.some.inj heq)
      exact absurd hlife hyoung

end TimedMap

namespace Cache

/-! ## Uses of a cache -/

/-- What is done with a cache, and the passing of time. -/
inductive Action where
  | set (key : Text) (v : Value)
  /-- A value without a JSON document is to be put under the key. -/
  | setUnwritable (key : Text)
  | get (key : Text) (life : Int)
  | clear
  | wait (seconds : Rat)

namespace Action

/-- The key that an action is about. -/
def key? : Action → Option Text
  | set key _ | setUnwritable key | get key _ => some key
  | clear | wait _ => none

/-- The value that an action puts. -/
def value? : Action → Option Value
  | set _ v => some v
  | _ => none

/-- An action on the cache: the disk and the time behind it, and what a reader gets. -/
def onDisk (c : Cache) (s : Disk × Instant) : Action → (Disk × Instant) × Except Fault (Option Value)
  | set key v => (((c.set s.1 s.2 key v).1, s.2), (c.set s.1 s.2 key v).2.map fun _ => none)
  | setUnwritable key =>
    (((c.put s.1 s.2 key none).1, s.2), (c.put s.1 s.2 key none).2.map fun _ => none)
  | get key life => (((c.get s.1 s.2 key (.int life)).1, s.2), (c.get s.1 s.2 key (.int life)).2)
  | clear => (((c.clear s.1).1, s.2), (c.clear s.1).2.map fun _ => none)
  | wait seconds => ((s.1, s.2 + seconds), .ok none)

/-- The same action on the map. -/
def onMap (s : TimedMap × Instant) : Action → (TimedMap × Instant) × Option Value
  | set key v => ((s.1.put key v s.2, s.2), none)
  | setUnwritable _ => (s, none)
  | get key life => (((s.1.get s.2 key life).1, s.2), (s.1.get s.2 key life).2)
  | clear => ((.empty, s.2), none)
  | wait seconds => ((s.1, s.2 + seconds), none)

/-- The state behind a row of actions, and what each of them gave. -/
def run {σ α : Type} (step : σ → Action → σ × α) : σ → List Action → σ × List α
  | s, [] => (s, [])
  | s, a :: actions =>
    ((run step (step s a).1 actions).1, (step s a).2 :: (run step (step s a).1 actions).2)

/-- The time behind an action. -/
def later (now : Instant) : Action → Instant
  | wait seconds => now + seconds
  | _ => now

/-- The time behind a row of actions. -/
def timeAfter (now : Instant) (actions : List Action) : Instant := actions.foldl later now

/-- The action leaves a value alone that was put under the key at an earlier time: it is no other
value for the key, no clearing, and no reader who finds the value too old. -/
def Spares (key : Text) (written now : Instant) : Action → Prop
  | set k _ => k ≠ key
  | get k life => k = key → TimedMap.age written now ≤ life
  | clear => False
  | setUnwritable _ | wait _ => True

/-- All of the actions leave the value alone. -/
def Spare (key : Text) (written : Instant) : Instant → List Action → Prop
  | _, [] => True
  | now, a :: actions => a.Spares key written now ∧ Spare key written (a.later now) actions

/-- The value was put under the key at the time `written`, and no action since took it away. -/
def LastPut (key : Text) (v : Value) (written : Instant) (now : Instant) (actions : List Action) :
    Prop :=
  ∃ before after, actions = before ++ set key v :: after ∧ written = timeAfter now before ∧
    Spare key written written after

end Action

/-! ## What the map has -/

theorem Action.onMap_time (s : TimedMap × Instant) (a : Action) : (a.onMap s).1.2 = a.later s.2 := by
  cases a <;> rfl

/-- A value in the map has just been put, or was there and was left alone. -/
theorem Action.onMap_eq_some_iff (m : TimedMap) (now : Instant) (a : Action) (key : Text) (v : Value)
    (written : Instant) :
    (a.onMap (m, now)).1.1 key = some (v, written) ↔
      a = .set key v ∧ written = now ∨ m key = some (v, written) ∧ a.Spares key written now := by
  cases a with
  | set k w =>
    show Function.update m k (some (w, now)) key = _ ↔ _
    by_cases hk : key = k
    · subst hk
      simp [Spares, eq_comm]
    · rw [Function.update_of_ne hk]
      simp [Spares, Ne.symm hk]
  | setUnwritable k => simp [onMap, Spares]
  | clear => simp [onMap, Spares, TimedMap.empty]
  | wait seconds => simp [onMap, Spares]
  | get k life =>
    rw [show ((get k life).onMap (m, now)).1.1 = (m.get now k life).1 from rfl,
      TimedMap.get_eq_some_iff]
    simp [Spares]

theorem Action.lastPut_cons {key : Text} {v : Value} {written now : Instant} {a : Action}
    {actions : List Action} :
    LastPut key v written now (a :: actions) ↔
      (a = .set key v ∧ written = now) ∧ Spare key written (a.later now) actions ∨
        LastPut key v written (a.later now) actions := by
  constructor
  · rintro ⟨before, after, hsplit, htime, hspare⟩
    cases before with
    | nil =>
      obtain ⟨rfl, rfl⟩ := List.cons.inj hsplit
      subst htime
      exact .inl ⟨⟨rfl, rfl⟩, hspare⟩
    | cons b before =>
      obtain ⟨rfl, rfl⟩ := List.cons.inj hsplit
      exact .inr ⟨before, after, rfl, htime, hspare⟩
  · rintro (⟨⟨rfl, rfl⟩, hspare⟩ | ⟨before, after, rfl, htime, hspare⟩)
    · exact ⟨[], actions, rfl, rfl, hspare⟩
    · exact ⟨a :: before, after, rfl, htime, hspare⟩

/-- Behind a row of actions the map has what was last put, if nothing took it away. -/
theorem Action.run_onMap_eq_some_iff (m : TimedMap) (now : Instant) (actions : List Action)
    (key : Text) (v : Value) (written : Instant) :
    (run onMap (m, now) actions).1.1 key = some (v, written) ↔
      LastPut key v written now actions ∨
        m key = some (v, written) ∧ Spare key written now actions := by
  induction actions generalizing m now with
  | nil => simp [run, LastPut, Spare]
  | cons a actions ih =>
    have hrun : (run onMap (m, now) (a :: actions)).1 =
        (run onMap ((a.onMap (m, now)).1.1, a.later now) actions).1 := by
      rw [run, ← onMap_time (m, now) a]
    rw [hrun, ih, onMap_eq_some_iff, lastPut_cons, Spare]
    tauto

/-- A reader behind a row of actions on an empty map gets exactly what was last put, unless it is
`null`, was taken away, or is too old. -/
theorem Action.get_run_onMap (now : Instant) (actions : List Action) (key : Text) (v : Value)
    (later : Instant) (life : Int) :
    ((run onMap (.empty, now) actions).1.1.get later key life).2 = some v ↔
      ∃ written, LastPut key v written now actions ∧ TimedMap.age written later ≤ life ∧
        v ≠ .null := by
  have hmap := fun w written => run_onMap_eq_some_iff .empty now actions key w written
  generalize (run onMap (.empty, now) actions).1.1 = m at hmap
  have hlast : ∀ w written, m key = some (w, written) ↔ LastPut key w written now actions := by
    intro w written
    rw [hmap w written]
    simp [TimedMap.empty]
  rw [TimedMap.get_snd_eq_some_iff]
  simp only [hlast]

/-! ## One entry -/

/-- The name of the entry under a key. -/
def entryName (key : Text) : Text := key ++ ".json"

/-- The file that keeps a value. -/
def entry (v : Value) (written : Instant) : Node :=
  .file (Text.toUtf8 (Value.write (.spaces 2) v)) written.kept

/-- The document of the value is read back as the value. -/
def Reads (v : Value) : Prop := Value.parse (Value.write (.spaces 2) v) = .ok v

variable {c : Cache} {d d' : Disk} {now : Instant} {key : Text}

theorem entryPath_eq (c : Cache) (key : Text) :
    c.entryPath key = Text.joinPath c.folder (entryName key) := rfl

theorem isName_entryName (h : '/' ∉ key) : Text.IsName (entryName key) where
  slash := by
    unfold entryName
    rw [List.mem_append]
    rintro (hkey | hend)
    · exact h hkey
    · exact absurd hend (by decide)
  nonempty := by simp [entryName]
  notHere := by
    intro heq
    have hlength := congrArg List.length heq
    simp [entryName] at hlength

theorem entryName_ne_up (key : Text) : entryName key ≠ ".." := by
  intro heq
  have hlength := congrArg List.length heq
  simp [entryName] at hlength

theorem entryName_injective : Function.Injective entryName :=
  fun _ _ h => List.append_cancel_right h

/-- The bytes of an entry that was put are read as its value. -/
theorem decode_write {v : Value} (h : Reads v) :
    decode (Text.toUtf8 (Value.write (.spaces 2) v)) = .ok (stored v) := by
  unfold decode
  rw [Text.ofUtf8_toUtf8]
  simp only [bind, Except.bind]
  rw [Value.normalizeNewlines_write, h]
  rfl

/-- Reading a file of the cache removes it when it is too old, and else gives its value. -/
theorem get_of_find {place : Place} {content : ByteArray} {modified : Instant}
    (h : d.find (c.entryPath key) = .ok (place, .file content modified)) (life : Int) :
    c.get d now key (.int life) =
      if (life : Rat) < modified.since now then (d.removeBelow place, .ok none)
      else (d, decode content) := by
  have holder : isOlder (modified.since now) (.int life) =
      .ok (decide ((life : Rat) < modified.since now)) := rfl
  unfold get
  rw [h]
  dsimp only
  rw [holder]
  by_cases hold : (life : Rat) < modified.since now
  · rw [decide_eq_true hold, if_pos hold]
  · rw [decide_eq_false hold, if_neg hold]

/-- An entry that is young enough is read, and stays. -/
theorem get_entry {place : Place} {v : Value} {written : Instant}
    (h : d.find (c.entryPath key) = .ok (place, entry v written)) (hv : Reads v) {life : Int}
    (hyoung : TimedMap.age written now ≤ life) : c.get d now key (.int life) = (d, .ok (stored v)) := by
  have hread : c.get d now key (.int life) =
      if (life : Rat) < TimedMap.age written now then (d.removeBelow place, .ok none)
      else (d, decode (Text.toUtf8 (Value.write (.spaces 2) v))) := get_of_find h life
  rw [hread, if_neg (Rat.not_lt.mpr hyoung), decode_write hv]

/-! ## The disk and the map -/

/-- Nothing stands under the key, which can be the name of a file, in the folder that is made. -/
structure Vacant (c : Cache) (made : Disk) (key : Text) : Prop where
  slash : '/' ∉ key
  absent : made.find (c.entryPath key) = .error .absent

/-- The folder of the cache is there, and under every key that was vacant at the start stands what
the map has there. -/
structure Settled (c : Cache) (made d : Disk) (m : TimedMap) : Prop where
  entries : ∃ p, d.find c.folder = .ok (p, .folder) ∧ ∀ key, c.Vacant made key →
    Disk.Fits c.folder (entryName key) ∧
      d.node? (p ++ [entryName key]) = (m key).map fun e => entry e.1 e.2
  reads : ∀ key v written, m key = some (v, written) → Reads v

/-- The disk holds what the map has: its cache is settled, or both are as they were at the start. -/
inductive Refines (c : Cache) (start made : Disk) : Disk → TimedMap → Prop where
  | settled {d : Disk} {m : TimedMap} : c.Settled made d m → Refines c start made d m
  | fresh : Refines c start made start .empty

section Steps

variable {start made : Disk} {m : TimedMap}

/-- A made folder of a cache is settled with nothing in it. -/
theorem settled_made (hmade : start.makeFolder c.folder = .ok made) :
    c.Settled made made .empty where
  entries := by
    obtain ⟨-, p, hfolder⟩ := Disk.find_of_makeFolder hmade
    refine ⟨p, hfolder, fun key hkey => ?_⟩
    exact Disk.Fits.of_absent (isName_entryName hkey.slash) (entryName_ne_up key) hfolder hkey.absent
  reads _ _ _ h := absurd h (by simp [TimedMap.empty])

/-- Making the folder settles the cache. -/
theorem Refines.makeFolder (hmade : start.makeFolder c.folder = .ok made)
    (h : Refines c start made d m) : ∃ e, d.makeFolder c.folder = .ok e ∧ c.Settled made e m := by
  cases h with
  | settled h =>
    obtain ⟨p, hfolder, -⟩ := h.entries
    exact ⟨d, Disk.makeFolder_of_find hfolder, h⟩
  | fresh => exact ⟨made, hmade, settled_made hmade⟩

/-- What is found in place of an entry. -/
theorem Settled.find (h : c.Settled made d m) (hkey : c.Vacant made key) :
    ∃ p, d.find (c.entryPath key) =
      match m key with
      | some (v, written) => .ok (p ++ [entryName key], entry v written)
      | none => .error .absent := by
  obtain ⟨p, hfolder, hentries⟩ := h.entries
  obtain ⟨hfits, hnode⟩ := hentries key hkey
  refine ⟨p, ?_⟩
  rw [entryPath_eq, hfits.find_eq hfolder, hnode]
  cases m key <;> rfl

/-- The entries of a settled cache are no folders. -/
theorem Settled.not_folder (h : c.Settled made d m) {p : Place}
    (hfolder : d.find c.folder = .ok (p, .folder)) (hkey : c.Vacant made key) :
    Disk.Fits c.folder (entryName key) ∧
      d.node? (p ++ [entryName key]) = (m key).map (fun e => entry e.1 e.2) ∧
      d.node? (p ++ [entryName key]) ≠ some .folder := by
  obtain ⟨q, hfolder', hentries⟩ := h.entries
  obtain ⟨rfl, -⟩ := Prod.mk.inj (Except.ok.inj (hfolder.symm.trans hfolder'))
  obtain ⟨hfits, hnode⟩ := hentries key hkey
  refine ⟨hfits, hnode, ?_⟩
  rw [hnode]
  cases m key <;> simp [entry]

/-- A change of one entry changes the map under its key alone. -/
theorem Settled.update (h : c.Settled made d m) {p : Place}
    (hfolder : d.find c.folder = .ok (p, .folder)) (hkey : c.Vacant made key) {e : Disk}
    (hway : ∀ q, d.Stands q → e.node? q = some .folder) (x : Option (Value × Instant))
    (hx : ∀ v written, x = some (v, written) → Reads v)
    (hnode : ∀ name, e.node? (p ++ [name]) =
      if name = entryName key then x.map (fun e => entry e.1 e.2) else d.node? (p ++ [name])) :
    c.Settled made e (Function.update m key x) where
  entries := by
    have hstands := Disk.stands_of_find hfolder
    have hp : e.node? p = d.node? p := (hway p hstands).trans hstands.node.symm
    refine ⟨p, Disk.find_of_stands hway hp hfolder, fun other hother => ?_⟩
    obtain ⟨hfits, hold, -⟩ := h.not_folder hfolder hother
    refine ⟨hfits, ?_⟩
    rw [hnode]
    by_cases heq : other = key
    · subst heq
      rw [if_pos rfl, Function.update_self]
    · rw [if_neg fun h => heq (entryName_injective h), Function.update_of_ne heq]
      exact hold
  reads other v written hm := by
    by_cases heq : other = key
    · subst heq
      rw [Function.update_self] at hm
      exact hx v written hm
    · rw [Function.update_of_ne heq] at hm
      exact h.reads other v written hm

/-- A value is written where the folder has been made. -/
theorem Settled.set_eq {e : Disk} (h : c.Settled made e m) (hmade : d.makeFolder c.folder = .ok e)
    {p : Place} (hfolder : e.find c.folder = .ok (p, .folder)) (hkey : c.Vacant made key) (v : Value)
    (now : Instant) :
    c.set d now key v = (e.set (p ++ [entryName key]) (entry v now), .ok ()) := by
  obtain ⟨hfits, -, hfree⟩ := h.not_folder hfolder hkey
  have hwrite := hfits.write_eq hfolder hfree (Text.toUtf8 (Value.write (.spaces 2) v)) now
  unfold Cache.set put
  rw [hmade]
  dsimp only
  rw [entryPath_eq, hwrite]
  rfl

theorem Settled.set {e : Disk} (h : c.Settled made e m) (hmade : d.makeFolder c.folder = .ok e)
    (hkey : c.Vacant made key) {v : Value} (hv : Reads v) (now : Instant) :
    ∃ e', c.set d now key v = (e', .ok ()) ∧ c.Settled made e' (m.put key v now) := by
  obtain ⟨p, hfolder, -⟩ := h.entries
  obtain ⟨hfits, -, hfree⟩ := h.not_folder hfolder hkey
  refine ⟨_, h.set_eq hmade hfolder hkey v now, ?_⟩
  refine h.update hfolder hkey (Disk.node?_set_of_stands hfree _) (some (v, now)) ?_ fun name => ?_
  · rintro _ _ heq
    obtain ⟨rfl, rfl⟩ := Prod.mk.inj (Option.some.inj heq)
    exact hv
  · rw [Disk.node?_set e (hfits.isGiven p)]
    simp

/-- Reading agrees with the map, and evicts what the map evicts. -/
theorem Settled.get (h : c.Settled made d m) (hkey : c.Vacant made key) (now : Instant) (life : Int) :
    ∃ e, c.get d now key (.int life) = (e, .ok (m.get now key life).2) ∧
      c.Settled made e (m.get now key life).1 := by
  obtain ⟨p, hfolder, -⟩ := h.entries
  obtain ⟨hfits, hnode, hfree⟩ := h.not_folder hfolder hkey
  have hfind := hfits.find_eq hfolder
  rw [← entryPath_eq, hnode] at hfind
  unfold TimedMap.get
  cases hm : m key with
  | none =>
    rw [hm] at hfind
    refine ⟨d, ?_, h⟩
    unfold Cache.get
    rw [hfind]
    rfl
  | some e =>
    obtain ⟨v, written⟩ := e
    rw [hm] at hfind
    dsimp only
    by_cases hyoung : TimedMap.age written now ≤ life
    · rw [if_pos hyoung]
      exact ⟨d, get_entry hfind (h.reads key v written hm) hyoung, h⟩
    · rw [if_neg hyoung]
      refine ⟨d.removeBelow (p ++ [entryName key]), ?_, ?_⟩
      · rw [get_of_find hfind life]
        exact if_pos (Rat.not_le.mp hyoung)
      · refine h.update hfolder hkey (Disk.node?_removeBelow_of_stands hfree) none (by simp)
          fun name => ?_
        exact Disk.node?_removeBelow_entry hfits p name

/-- Clearing leaves a settled cache with nothing in it. -/
theorem Settled.clear (h : c.Settled made d m) :
    ∃ e, c.clear d = (e, .ok ()) ∧ c.Settled made e .empty := by
  obtain ⟨p, hfolder, -⟩ := h.entries
  obtain ⟨e, hagain, hfolder', hgone⟩ := Disk.makeFolder_removeBelow hfolder
  refine ⟨e, ?_, ⟨p, hfolder', fun key hkey => ?_⟩, fun _ _ _ hm => absurd hm (by simp [TimedMap.empty])⟩
  · unfold Cache.clear
    rw [hfolder]
    dsimp only
    rw [hagain]
    rfl
  · obtain ⟨hfits, -, hfree⟩ := h.not_folder hfolder hkey
    exact ⟨hfits, hgone _ hfree⟩

/-- Before anything was put, nothing is read. -/
theorem get_start (hmade : start.makeFolder c.folder = .ok made) (hkey : c.Vacant made key)
    (now : Instant) (life : Int) : c.get start now key (.int life) = (start, .ok none) := by
  obtain ⟨hgrows, -⟩ := Disk.find_of_makeFolder hmade
  have habsent := hkey.absent
  unfold Cache.get
  cases hfind : start.find (c.entryPath key) with
  | ok found =>
    obtain ⟨q, node⟩ := found
    exact absurd ((Disk.find_of_keeps hgrows.keeps hfind).symm.trans habsent) (by simp)
  | error fault =>
    cases fault with
    | nullCharacter =>
      have hroute := Disk.route_of_find_nullCharacter hfind
      unfold Disk.find Disk.locate at habsent
      rw [hroute] at habsent
      exact absurd habsent (by simp)
    | absent | blocked | nameTooLong => rfl

theorem Refines.get (hmade : start.makeFolder c.folder = .ok made) (h : Refines c start made d m)
    (hkey : c.Vacant made key) (now : Instant) (life : Int) :
    ∃ e, c.get d now key (.int life) = (e, .ok (m.get now key life).2) ∧
      Refines c start made e (m.get now key life).1 := by
  cases h with
  | settled h =>
    obtain ⟨e, hget, hnext⟩ := h.get hkey now life
    exact ⟨e, hget, .settled hnext⟩
  | fresh => exact ⟨d, get_start hmade hkey now life, .fresh⟩

theorem Refines.clear (hmade : start.makeFolder c.folder = .ok made) (h : Refines c start made d m) :
    ∃ e, c.clear d = (e, .ok ()) ∧ c.Settled made e .empty := by
  cases h with
  | settled h => exact h.clear
  | fresh =>
    obtain ⟨hgrows, p, hfolder⟩ := Disk.find_of_makeFolder hmade
    cases hfind : d.find c.folder with
    | ok found =>
      obtain ⟨q, node⟩ := found
      obtain ⟨rfl, rfl⟩ := Prod.mk.inj (Except.ok.inj ((Disk.find_of_keeps hgrows.keeps hfind).symm.trans hfolder))
      -- a folder that is there is the one that would be made
      obtain rfl := Except.ok.inj ((Disk.makeFolder_of_find hfind).symm.trans hmade)
      exact (settled_made hmade).clear
    | error fault =>
      refine ⟨made, ?_, settled_made hmade⟩
      unfold Cache.clear
      rw [hfind]
      dsimp only
      rw [hmade]
      rfl

/-! ## Steps and runs -/

/-- What one action keeps: disk and map agree behind it, and on what it gives. -/
theorem Refines.step (hmade : start.makeFolder c.folder = .ok made) (h : Refines c start made d m)
    (a : Action) (now : Instant) (hkey : ∀ key ∈ a.key?, c.Vacant made key)
    (hvalue : ∀ v ∈ a.value?, Reads v) :
    ∃ e, a.onDisk c (d, now) = ((e, (a.onMap (m, now)).1.2), .ok (a.onMap (m, now)).2) ∧
      Refines c start made e (a.onMap (m, now)).1.1 := by
  cases a with
  | set key v =>
    obtain ⟨e, hfolder, hsettled⟩ := h.makeFolder hmade
    obtain ⟨e', hset, hnext⟩ := hsettled.set hfolder (hkey key rfl) (hvalue v rfl) now
    refine ⟨e', ?_, .settled hnext⟩
    simp only [Action.onDisk, Action.onMap, hset]
    rfl
  | setUnwritable key =>
    obtain ⟨e, hfolder, hsettled⟩ := h.makeFolder hmade
    have hput : c.put d now key none = (e, .ok ()) := by
      unfold put
      rw [hfolder]
    refine ⟨e, ?_, .settled hsettled⟩
    simp only [Action.onDisk, Action.onMap, hput]
    rfl
  | get key life =>
    obtain ⟨e, hget, hnext⟩ := h.get hmade (hkey key rfl) now life
    refine ⟨e, ?_, hnext⟩
    simp only [Action.onDisk, Action.onMap, hget]
  | clear =>
    obtain ⟨e, hclear, hnext⟩ := h.clear hmade
    refine ⟨e, ?_, .settled hnext⟩
    simp only [Action.onDisk, Action.onMap, hclear]
    rfl
  | wait seconds => exact ⟨d, rfl, h⟩

theorem Refines.run (hmade : start.makeFolder c.folder = .ok made) (h : Refines c start made d m)
    (actions : List Action) (now : Instant)
    (hkeys : ∀ a ∈ actions, ∀ key ∈ a.key?, c.Vacant made key)
    (hvalues : ∀ a ∈ actions, ∀ v ∈ a.value?, Reads v) :
    (Action.run (Action.onDisk c) (d, now) actions).2 =
        (Action.run Action.onMap (m, now) actions).2.map .ok ∧
      Refines c start made (Action.run (Action.onDisk c) (d, now) actions).1.1
        (Action.run Action.onMap (m, now) actions).1.1 := by
  induction actions generalizing d m now with
  | nil => exact ⟨rfl, h⟩
  | cons a actions ih =>
    obtain ⟨e, hstep, hnext⟩ := h.step hmade a now (hkeys a List.mem_cons_self)
      (hvalues a List.mem_cons_self)
    obtain ⟨hgiven, hlast⟩ := ih hnext (a.onMap (m, now)).1.2
      (fun b hb => hkeys b (List.mem_cons_of_mem a hb))
      (fun b hb => hvalues b (List.mem_cons_of_mem a hb))
    unfold Action.run
    rw [hstep, List.map_cons]
    exact ⟨congrArg _ hgiven, hlast⟩

end Steps

/-! ## Refinement -/

/-- However a cache whose folder can be made is used, every use gives what it gives on the map. A
later reader gets the value that was last put under the key, unless it is `null`, was taken away
since, or is too old for the reader. -/
theorem run_refines_timedMap (c : Cache) {d made : Disk} (hmade : d.makeFolder c.folder = .ok made)
    (now : Instant) (actions : List Action)
    (hkeys : ∀ a ∈ actions, ∀ key ∈ a.key?, c.Vacant made key)
    (hvalues : ∀ a ∈ actions, ∀ v ∈ a.value?, Reads v) :
    (Action.run (Action.onDisk c) (d, now) actions).2 =
        (Action.run Action.onMap (.empty, now) actions).2.map .ok ∧
      ∀ key, c.Vacant made key → ∀ (later : Instant) (life : Int),
        ∃ r, (c.get (Action.run (Action.onDisk c) (d, now) actions).1.1 later key (.int life)).2 = .ok r ∧
          ∀ v, r = some v ↔ ∃ written, Action.LastPut key v written now actions ∧
            TimedMap.age written later ≤ life ∧ v ≠ .null := by
  obtain ⟨hgiven, hlast⟩ := Refines.fresh.run hmade actions now hkeys hvalues
  refine ⟨hgiven, fun key hkey later life => ?_⟩
  obtain ⟨e, hget, -⟩ := hlast.get hmade hkey later life
  rw [hget]
  exact ⟨_, rfl, fun v => Action.get_run_onMap now actions key v later life⟩

/-- Uses of one key and another: a reader within and beyond the age, a late reader, a value without
a document, `null`, and clearing. -/
def mixedUses : List Action :=
  [.set "review" (.int 1), .set "draft" .null, .wait 100, .get "review" 100, .get "draft" 100,
    .get "review" 99, .get "review" 1000, .set "review" (.text "kept"), .setUnwritable "review",
    .get "review" 0, .clear, .get "review" 0]

/-- The folder of a repository's cache on an empty disk. -/
def madeFolder : Disk := ⟨[([".pr-agent"], .folder), ([".pr-agent", "cache"], .folder)]⟩

theorem run_mixedUses :
    (∀ a ∈ mixedUses, ∀ key ∈ a.key?, (Cache.ofRepository ".").Vacant madeFolder key) ∧
      (Action.run (Action.onDisk (.ofRepository ".")) ({}, 1000) mixedUses).2 =
        [.ok none, .ok none, .ok none, .ok (some (.int 1)), .ok none, .ok none, .ok none, .ok none,
          .ok none, .ok (some (.text "kept")), .ok none, .ok none] := by
  have hmade : Disk.makeFolder {} (Cache.ofRepository ".").folder = .ok madeFolder := by rfl
  have hkeys : ∀ a ∈ mixedUses, ∀ key ∈ a.key?, (Cache.ofRepository ".").Vacant madeFolder key := by
    have hused : ∀ a ∈ mixedUses, ∀ key ∈ a.key?, key = "review".toList ∨ key = "draft".toList := by
      decide
    intro a ha key hkey
    rcases hused a ha key hkey with rfl | rfl
    · exact ⟨by decide, by rfl⟩
    · exact ⟨by decide, by rfl⟩
  have hvalues : ∀ a ∈ mixedUses, ∀ v ∈ a.value?, Reads v := by
    unfold Reads
    decide +kernel
  have hmap : (Action.run Action.onMap (.empty, 1000) mixedUses).2 =
      [none, none, none, some (.int 1), none, none, none, none, none, some (.text "kept"), none, none] := by
    decide +kernel
  refine ⟨hkeys, ?_⟩
  rw [(run_refines_timedMap (.ofRepository ".") hmade 1000 mixedUses hkeys hvalues).1, hmap]
  rfl

end Cache

end ChangeReview
