import ChangeReview.Proofs.Cache.TimedMap
import ChangeReview.Proofs.Value.ReadFaults

/-!
# The cache advises

Whatever stands under a key, a reader of the cache gets the value of its document, nothing, or the
one kind of fault that is left: that of bytes that are no text, or of a document with a number too
long or brackets too deep to read. A file that is too old goes; nothing else on the disk moves, and
what cannot be read stays where it is. A writer is never told what became of its value.
-/
namespace ChangeReview

namespace Text

/-- Bytes that are no text have a fault of their own. -/
theorem exists_of_ofUtf8_error {content : ByteArray} {fault : Fault}
    (h : ofUtf8 content = .error fault) : ∃ message, fault = .undecodable message := by
  unfold ofUtf8 ofSequences at h
  split at h
  · exact absurd h (by simp)
  · split at h
    · exact absurd h (by simp)
    · exact ⟨_, (Except.error.inj h).symm⟩

theorem mem_joinPath {p q : Text} {c : Char} (h : c ∈ joinPath p q) : c ∈ p ∨ c = '/' ∨ c ∈ q := by
  unfold joinPath at h
  split_ifs at h
  · exact .inr (.inr h)
  · exact (List.mem_append.mp h).imp id .inr
  · exact (List.mem_append.mp h).imp id List.mem_cons.mp

end Text

namespace Disk

variable {d : Disk} {path : Text}

theorem route_ne_nullCharacter (hpath : '\x00' ∉ path) : route path ≠ .error .nullCharacter := by
  unfold route
  rw [if_neg (by simpa using hpath)]
  split <;> simp

theorem makeFolders_ne_nullCharacter {here : Place} (names : List Text) :
    d.makeFolders here names ≠ .error .nullCharacter := by
  induction names generalizing d here with
  | nil =>
    unfold makeFolders
    split <;> simp
  | cons name rest ih =>
    unfold makeFolders
    split
    · simp
    · simp
    · split
      · exact ih
      · split
        · simp
        · exact ih

theorem makeFolder_ne_nullCharacter (hpath : '\x00' ∉ path) :
    d.makeFolder path ≠ .error .nullCharacter := by
  unfold makeFolder
  split
  · exact makeFolders_ne_nullCharacter _
  · next hroute =>
    exact fun h => route_ne_nullCharacter hpath (hroute.trans (congrArg _ (Except.error.inj h)))

theorem write_ne_nullCharacter (hpath : '\x00' ∉ path) (content : ByteArray) (now : Instant) :
    d.write path content now ≠ .error .nullCharacter := by
  unfold write
  split
  · unfold writeAt
    split
    · simp
    · split <;> simp
  · next hlocate =>
    intro h
    obtain rfl := Except.error.inj h
    unfold locate at hlocate
    split at hlocate
    · exact follow_ne_nullCharacter _ hlocate
    · next hroute =>
      exact route_ne_nullCharacter hpath (hroute.trans (congrArg _ (Except.error.inj hlocate)))

end Disk

namespace Cache

/-! ## The bytes of an entry -/

/-- The value of the document that the bytes are. -/
def document (content : ByteArray) : Except Fault Value :=
  Text.ofUtf8 content >>= fun t => Value.parse (Text.normalizeNewlines t)

/-- The bytes cannot be read, and that is no miss. -/
def Spoils (content : ByteArray) (fault : Fault) : Prop :=
  document content = .error fault ∧ fault ≠ .notJson

theorem decode_eq (content : ByteArray) :
    decode content = match document content with
      | .ok v => .ok (stored v)
      | .error .notJson => .ok none
      | .error fault => .error fault := by
  unfold decode document
  cases htext : Text.ofUtf8 content with
  | error fault =>
    obtain ⟨message, rfl⟩ := Text.exists_of_ofUtf8_error htext
    rfl
  | ok t =>
    rw [ok_bind, ok_bind]
    dsimp only
    cases Value.parse (Text.normalizeNewlines t) with
    | ok v => rfl
    | error fault => cases fault <;> rfl

theorem decode_eq_error_iff (content : ByteArray) (fault : Fault) :
    decode content = .error fault ↔ Spoils content fault := by
  rw [decode_eq]
  unfold Spoils
  cases document content with
  | ok v => simp
  | error f => cases f <;> simp <;> rintro rfl <;> simp

theorem decode_eq_some_iff (content : ByteArray) (v : Value) :
    decode content = .ok (some v) ↔ document content = .ok v ∧ v ≠ .null := by
  rw [decode_eq]
  cases document content with
  | ok w => simp [stored_eq_some_iff]
  | error f => cases f <;> simp

/-- Only bytes that are no text, a number that is too long and brackets that are too deep are more
than a miss. -/
theorem Spoils.cases {content : ByteArray} {fault : Fault} (h : Spoils content fault) :
    Text.ofUtf8 content = .error fault ∨
      ∃ t, Text.ofUtf8 content = .ok t ∧ ¬ Value.IsModest (Text.normalizeNewlines t) := by
  obtain ⟨hread, hform⟩ := h
  unfold document at hread
  cases htext : Text.ofUtf8 content with
  | error f =>
    rw [htext, error_bind] at hread
    exact .inl (congrArg _ (Except.error.inj hread))
  | ok t =>
    rw [htext, ok_bind] at hread
    exact .inr ⟨t, rfl, fun hmodest => hform (hmodest.parse_error hread)⟩

/-! ## What stands under a key -/

section Get

variable (c : Cache) (d : Disk) (now : Instant) (key : Text) (life : Value)

/-- A file with the content stands under the key and is not older than the life. -/
def Offers (content : ByteArray) : Prop :=
  ∃ place modified, d.find (c.entryPath key) = .ok (place, .file content modified) ∧
    isOlder (modified.since now) life = .ok false

/-- The file under the key, which stands at the place, is older than the life. -/
def IsExpired (place : Place) : Prop :=
  ∃ content modified, d.find (c.entryPath key) = .ok (place, .file content modified) ∧
    isOlder (modified.since now) life = .ok true

/-- What a reader can meet under a key, and what it gets. -/
inductive Meets : Disk × Except Fault (Option Value) → Prop where
  | offer {content : ByteArray} (h : Offers c d now key life content) : Meets (d, decode content)
  | expired {place : Place} (h : IsExpired c d now key life place) :
      Meets (d.removeBelow place, .ok none)
  | nothing (hoffer : ∀ content, ¬ Offers c d now key life content)
      (hexpired : ∀ place, ¬ IsExpired c d now key life place) : Meets (d, .ok none)

variable {c d now key life}

theorem Offers.inj {content content' : ByteArray} (h : Offers c d now key life content)
    (h' : Offers c d now key life content') : content = content' := by
  obtain ⟨place, modified, hfind, -⟩ := h
  obtain ⟨place', modified', hfind', -⟩ := h'
  have heq := Except.ok.inj (hfind.symm.trans hfind')
  exact (Node.file.inj (Prod.mk.inj heq).2).1

theorem Offers.not_expired {content : ByteArray} (h : Offers c d now key life content)
    (place : Place) : ¬ IsExpired c d now key life place := by
  rintro ⟨content', modified', hfind', hold⟩
  obtain ⟨place, modified, hfind, hyoung⟩ := h
  have heq := Except.ok.inj (hfind.symm.trans hfind')
  obtain ⟨-, rfl⟩ := Node.file.inj (Prod.mk.inj heq).2
  exact absurd (hyoung.symm.trans hold) (by simp)

theorem IsExpired.inj {place place' : Place} (h : IsExpired c d now key life place)
    (h' : IsExpired c d now key life place') : place = place' := by
  obtain ⟨content, modified, hfind, -⟩ := h
  obtain ⟨content', modified', hfind', -⟩ := h'
  exact (Prod.mk.inj (Except.ok.inj (hfind.symm.trans hfind'))).1

theorem exists_isOlder (hlife : life.number?.isSome) (age : Instant) :
    ∃ old, isOlder age life = .ok old := by
  unfold isOlder
  obtain ⟨n, hn⟩ := Option.isSome_iff_exists.mp hlife
  rw [hn]
  cases n with
  | whole n => exact ⟨_, rfl⟩
  | double x => exact ⟨_, rfl⟩

theorem null_not_mem_entryPath (hfolder : '\x00' ∉ c.folder) (hkey : '\x00' ∉ key) :
    '\x00' ∉ c.entryPath key := by
  intro hmem
  rcases Text.mem_joinPath hmem with h | h | h
  · exact hfolder h
  · exact absurd h (by decide)
  · rcases List.mem_append.mp h with h | h
    · exact hkey h
    · exact absurd h (by decide)

/-- Every reader meets a young file, an old one or none. -/
theorem get_meets (hfolder : '\x00' ∉ c.folder) (hkey : '\x00' ∉ key)
    (hlife : life.number?.isSome) : Meets c d now key life (c.get d now key life) := by
  have hnone : (∀ place content modified,
      d.find (c.entryPath key) ≠ .ok (place, .file content modified)) →
      Meets c d now key life (d, .ok none) := by
    intro hno
    refine .nothing ?_ ?_
    · rintro content ⟨place, modified, hfind, -⟩
      exact hno _ _ _ hfind
    · rintro place ⟨content, modified, hfind, -⟩
      exact hno _ _ _ hfind
  unfold get
  split
  · next hfind =>
    exact absurd (Disk.route_of_find_nullCharacter hfind)
      (Disk.route_ne_nullCharacter (null_not_mem_entryPath hfolder hkey))
  · next hfind => exact hnone fun _ _ _ h => absurd (hfind.symm.trans h) (by simp)
  · next hfind =>
    obtain ⟨old, hold⟩ := exists_isOlder hlife 0
    rw [hold]
    exact hnone fun _ _ _ h => absurd (hfind.symm.trans h) (by simp)
  · next place content modified hfind =>
    obtain ⟨old, hold⟩ := exists_isOlder hlife (modified.since now)
    rw [hold]
    cases old with
    | true => exact .expired ⟨_, _, hfind, hold⟩
    | false => exact .offer ⟨_, _, hfind, hold⟩

/-- A writer is told nothing. -/
theorem set_eq_ok (hfolder : '\x00' ∉ c.folder) (hkey : '\x00' ∉ key) (v : Value) :
    (c.set d now key v).2 = .ok () := by
  have hattempt : ∀ (d : Disk) (path : Text) {r : Except PathFault Disk},
      r ≠ .error .nullCharacter → (attempt d path r).2 = .ok () := by
    intro d path r hr
    unfold attempt
    split
    · rfl
    · exact absurd rfl hr
    · rfl
  unfold set put
  split
  · next hmade =>
    exact hattempt _ _ fun h => Disk.makeFolder_ne_nullCharacter hfolder (hmade.trans h)
  · rfl
  · exact hattempt _ _ (Disk.write_ne_nullCharacter (null_not_mem_entryPath hfolder hkey) _ now)

theorem Offers.get {content : ByteArray} (h : Offers c d now key life content) :
    c.get d now key life = (d, decode content) := by
  obtain ⟨place, modified, hfind, hyoung⟩ := h
  unfold Cache.get
  rw [hfind]
  dsimp only
  rw [hyoung]

theorem IsExpired.get {place : Place} (h : IsExpired c d now key life place) :
    c.get d now key life = (d.removeBelow place, .ok none) := by
  obtain ⟨content, modified, hfind, hold⟩ := h
  unfold Cache.get
  rw [hfind]
  dsimp only
  rw [hold]

/-- A reader fails exactly on a young file whose bytes cannot be read and are no miss. -/
theorem exists_get_iff (hfolder : '\x00' ∉ c.folder) (hkey : '\x00' ∉ key)
    (hlife : life.number?.isSome) :
    (∃ found, (c.get d now key life).2 = .ok found) ↔
      ∀ content, Offers c d now key life content → ∀ fault, ¬ Spoils content fault := by
  constructor
  · rintro ⟨found, hfound⟩ content hoffer fault hspoils
    rw [hoffer.get, (decode_eq_error_iff content fault).mpr hspoils] at hfound
    exact absurd hfound (by simp)
  · intro hclean
    have hmeets : Meets c d now key life (c.get d now key life) := get_meets hfolder hkey hlife
    generalize c.get d now key life = gotten at hmeets
    cases hmeets with
    | offer hoffer =>
      cases hread : decode _ with
      | ok found => exact ⟨found, rfl⟩
      | error fault => exact absurd ((decode_eq_error_iff _ fault).mp hread) (hclean _ hoffer fault)
    | expired | nothing => exact ⟨none, rfl⟩

/-- What a reader gets is the value of the document that a young file is. -/
theorem get_eq_some_iff (hfolder : '\x00' ∉ c.folder) (hkey : '\x00' ∉ key)
    (hlife : life.number?.isSome) (v : Value) :
    (c.get d now key life).2 = .ok (some v) ↔
      ∃ content, Offers c d now key life content ∧ document content = .ok v ∧ v ≠ .null := by
  constructor
  · intro hfound
    have hmeets : Meets c d now key life (c.get d now key life) := get_meets hfolder hkey hlife
    generalize c.get d now key life = gotten at hmeets hfound
    cases hmeets with
    | offer hoffer => exact ⟨_, hoffer, (decode_eq_some_iff _ v).mp hfound⟩
    | expired | nothing => exact absurd (Except.ok.inj hfound) (by simp)
  · rintro ⟨content, hoffer, hdocument⟩
    rw [hoffer.get]
    exact (decode_eq_some_iff content v).mpr hdocument

/-- Without an old file under the key, reading leaves the disk as it is. -/
theorem get_stays (hfolder : '\x00' ∉ c.folder) (hkey : '\x00' ∉ key)
    (hlife : life.number?.isSome) (hyoung : ∀ place, ¬ IsExpired c d now key life place) :
    (c.get d now key life).1 = d := by
  have hmeets : Meets c d now key life (c.get d now key life) := get_meets hfolder hkey hlife
  generalize c.get d now key life = gotten at hmeets
  cases hmeets with
  | expired h => exact absurd h (hyoung _)
  | offer | nothing => rfl

/-- Whatever stands under the key, a reader gets a value or nothing unless a young file has bytes
that are no text or a document beyond what is read, as no text has without long numbers and deep
brackets. The value is that of the document, if it is not `null`. An old file is removed, and else
the disk stays as it is. -/
theorem get_advises (hfolder : '\x00' ∉ c.folder) (hkey : '\x00' ∉ key)
    (hlife : life.number?.isSome) :
    ((∃ found, (c.get d now key life).2 = .ok found) ↔
        ∀ content, Offers c d now key life content → ∀ fault, ¬ Spoils content fault) ∧
      (∀ content t, Text.ofUtf8 content = .ok t → Value.IsModest (Text.normalizeNewlines t) →
        ∀ fault, ¬ Spoils content fault) ∧
      (∀ v, (c.get d now key life).2 = .ok (some v) ↔
        ∃ content, Offers c d now key life content ∧ document content = .ok v ∧ v ≠ .null) ∧
      (∀ place, IsExpired c d now key life place →
        c.get d now key life = (d.removeBelow place, .ok none)) ∧
      ((∀ place, ¬ IsExpired c d now key life place) → (c.get d now key life).1 = d) := by
  refine ⟨exists_get_iff hfolder hkey hlife, ?_, get_eq_some_iff hfolder hkey hlife,
    fun place h => h.get, get_stays hfolder hkey hlife⟩
  intro content t htext hmodest fault hspoils
  rcases hspoils.cases with hbytes | ⟨t', htext', hlarge⟩
  · exact absurd (htext.symm.trans hbytes) (by simp)
  · obtain rfl := Except.ok.inj (htext.symm.trans htext')
    exact hlarge hmodest

/-- The folder of the cache with a file of the given content in it, written at the start of time. -/
def fileUnder (key : Text) (content : ByteArray) : Disk :=
  ⟨madeFolder.entries ++ [(([".pr-agent", "cache"] : Place) ++ [entryName key], .file content 0)]⟩

/-- A file that breaks off inside its document is a miss and stays. -/
theorem get_advises_brokenOff :
    ('\x00' ∉ (Cache.ofRepository ".").folder ∧ '\x00' ∉ "review".toList ∧
        defaultLife.number?.isSome) ∧
      (∃ found, ((Cache.ofRepository ".").get (fileUnder "review" (Text.toUtf8 "[1, 2")) 60 "review"
          defaultLife).2 = .ok found) ∧
        ((Cache.ofRepository ".").get (fileUnder "review" (Text.toUtf8 "[1, 2")) 60 "review"
          defaultLife).1 = fileUnder "review" (Text.toUtf8 "[1, 2") := by
  have hclean : '\x00' ∉ (Cache.ofRepository ".").folder ∧ '\x00' ∉ "review".toList ∧
      defaultLife.number?.isSome := by decide
  have hoffer : Offers (.ofRepository ".") (fileUnder "review" (Text.toUtf8 "[1, 2")) 60 "review"
      defaultLife (Text.toUtf8 "[1, 2") := by
    refine ⟨[".pr-agent", "cache", "review.json"], 0, by rfl, congrArg Except.ok ?_⟩
    decide +kernel
  obtain ⟨hok, -, -, -, hstays⟩ := @get_advises (.ofRepository ".")
    (fileUnder "review" (Text.toUtf8 "[1, 2")) 60 "review" defaultLife hclean.1 hclean.2.1 hclean.2.2
  refine ⟨hclean, hok.mpr ?_, hstays hoffer.not_expired⟩
  intro content hcontent fault hspoils
  obtain rfl := hoffer.inj hcontent
  have hmiss : decode (Text.toUtf8 "[1, 2") = .ok none := by rfl
  exact absurd (((decode_eq_error_iff _ fault).mpr hspoils).symm.trans hmiss) (by simp)

/-- Bytes that are no text are more than a miss. -/
theorem get_noText :
    ¬ ∃ found, ((Cache.ofRepository ".").get (fileUnder "review" ⟨#[0xff]⟩) 60 "review"
      defaultLife).2 = .ok found := by
  rintro ⟨found, hfound⟩
  have hnone : ((Cache.ofRepository ".").get (fileUnder "review" ⟨#[0xff]⟩) 60 "review"
      defaultLife).2.toOption = none := by decide +kernel
  rw [hfound] at hnone
  exact absurd hnone (by simp [Except.toOption])

end Get

end Cache

end ChangeReview
