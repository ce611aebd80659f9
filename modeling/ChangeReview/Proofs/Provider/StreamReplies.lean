import ChangeReview.Proofs.Provider.StreamFaults
import ChangeReview.Proofs.Reply.Prose
import ChangeReview.Proofs.Review.DefaultAnalyses
import ChangeReview.Proofs.Value.ReadFaults
import Mathlib.Data.List.Forall2

/-!
# Replies of streams

A stream of the service starts a message, brings its text in deltas and says why it ends. Between
these stand chunks and events that tell nothing; a notice of an error, a broken connection or a text
that the reader refuses ends it early. The reply has the text so far and the last counts, and is
logged once; nothing is logged for a call that fails.
-/
namespace ChangeReview.Provider

open Value (lookup)

/-- What an event of the service tells. -/
inductive Told where
  | text (t : Text)
  | start (input : Int)
  | stop (reason : Text) (output : Int)
  | nothing
  | notice (key message : Text)
  | broken (fault : Fault)

/-- The event holds the text of a document, in the bytes of a chunk or as it is. -/
inductive Carries : StreamEvent → Text → Prop
  | chunk {bytes : List UInt8} {t : Text} (decoded : Text.ofDocumentBytes bytes = .ok t) :
    Carries (.chunk bytes) t
  | other {ms chunk : List (Text × Value)} {t : Text}
    (held : lookup "chunk" ms = some (.object chunk))
    (bytes : lookup "bytes" chunk = some (.text t)) : Carries (.other (.object ms)) t

/-- The document that the event holds is an object. -/
def Brings (e : StreamEvent) (ms : List (Text × Value)) : Prop :=
  ∃ t, Carries e t ∧ Value.parse t = .ok (.object ms)

/-- The types of chunks that tell something. -/
def tellingTypes : List Text := ["content_block_delta", "message_delta", "message_start"]

/-- What the events of the service tell. Members that are left out have their defaults. -/
inductive Tells : StreamEvent → Told → Prop
  | text {e : StreamEvent} {ms delta : List (Text × Value)} {t : Text} (brings : Brings e ms)
    (type : lookup "type" ms = some (.text "content_block_delta"))
    (held : lookup "delta" ms = some (.object delta))
    (kind : lookup "type" delta = some (.text "text_delta"))
    (piece : (lookup "text" delta).getD (.text []) = .text t) : Tells e (.text t)
  | start {e : StreamEvent} {ms message usage : List (Text × Value)} {n : Int}
    (brings : Brings e ms) (type : lookup "type" ms = some (.text "message_start"))
    (held : (lookup "message" ms).getD (.object []) = .object message)
    (used : (lookup "usage" message).getD (.object []) = .object usage)
    (tokens : (lookup "input_tokens" usage).getD (.int 0) = .int n) : Tells e (.start n)
  | stop {e : StreamEvent} {ms delta usage : List (Text × Value)} {reason : Text} {n : Int}
    (brings : Brings e ms) (type : lookup "type" ms = some (.text "message_delta"))
    (held : (lookup "delta" ms).getD (.object []) = .object delta)
    (why : (lookup "stop_reason" delta).getD unknownReason = .text reason)
    (used : (lookup "usage" ms).getD (.object []) = .object usage)
    (tokens : (lookup "output_tokens" usage).getD (.int 0) = .int n) : Tells e (.stop reason n)
  | otherType {e : StreamEvent} {ms : List (Text × Value)} (brings : Brings e ms)
    (type : ∀ name ∈ tellingTypes, lookup "type" ms ≠ some (.text name)) : Tells e .nothing
  | otherDelta {e : StreamEvent} {ms delta : List (Text × Value)} (brings : Brings e ms)
    (type : lookup "type" ms = some (.text "content_block_delta"))
    (held : (lookup "delta" ms).getD (.object []) = .object delta)
    (kind : lookup "type" delta ≠ some (.text "text_delta")) : Tells e .nothing
  | noBytes {ms chunk : List (Text × Value)} (held : lookup "chunk" ms = some (.object chunk))
    (bytes : lookup "bytes" chunk = none) : Tells (.other (.object ms)) .nothing
  | malformed {e : StreamEvent} {t : Text} (carries : Carries e t)
    (parsed : Value.parse t = .error .notJson) : Tells e .nothing
  | unknown {ms : List (Text × Value)} (held : lookup "chunk" ms = none)
    (keys : ∀ key ∈ StreamState.errorKeys, lookup key ms = none) :
    Tells (.other (.object ms)) .nothing
  | notice {ms notice : List (Text × Value)} {before after : List Text} {key message : Text}
    (held : lookup "chunk" ms = none) (keys : StreamState.errorKeys = before ++ key :: after)
    (first : ∀ k ∈ before, lookup k ms = none) (found : lookup key ms = some (.object notice))
    (said : lookup "message" notice = some (.text message)) :
    Tells (.other (.object ms)) (.notice key message)
  | broken {fault : Fault} (h : ∀ m p, fault ≠ .backend m p) : Tells (.broken fault) (.broken fault)
  /-- The text is refused for its size or its depth, not for its form. -/
  | refused {e : StreamEvent} {t : Text} {fault : Fault} (carries : Carries e t)
    (parsed : Value.parse t = .error fault) (form : fault ≠ .notJson) : Tells e (.broken fault)

namespace Told

/-- The fault of a notice. -/
def noticeFault (key message : Text) : Fault :=
  .backend ("Bedrock stream error (" ++ key ++ "): " ++ message) (some "bedrock".toList)

def news : Told → News
  | text t => .piece (.text t)
  | start n => .start (.int n)
  | stop reason n => .stop (.text reason) (.int n)
  | nothing => .nothing
  | notice key message => .failure (noticeFault key message)
  | broken fault => .failure fault

/-- The event ends the stream. -/
def Ends : Told → Prop
  | notice .. | broken _ => True
  | _ => False

def text? : Told → Option Text
  | text t => some t
  | _ => none

def started? : Told → Option Int
  | start n => some n
  | _ => none

def stopped? : Told → Option (Text × Int)
  | stop reason n => some (reason, n)
  | _ => none

/-- All text that has come. -/
def allText (tolds : List Told) : Text := (tolds.filterMap text?).flatten

/-- The tokens of the input as they were told last. -/
def input (tolds : List Told) : Int := (tolds.filterMap started?).getLastD 0

/-- The reason for the end and the tokens of the output as they were told last. -/
def ending (tolds : List Told) : Text × Int :=
  (tolds.filterMap stopped?).getLastD ("unknown".toList, 0)

end Told

/-! ## Events and what they tell -/

variable {e : StreamEvent} {ms : List (Text × Value)} {t : Text}

theorem holds_object (ms : List (Text × Value)) (key : Text) :
    StreamState.holds (.object ms) key = .ok (lookup key ms).isSome := rfl

theorem getD_object (ms : List (Text × Value)) (key : Text) (default : Value) :
    (Value.object ms).getD key default = .ok ((lookup key ms).getD default) := rfl

theorem require_of_lookup {key : Text} {v : Value} (h : lookup key ms = some v) :
    (Value.object ms).require key = .ok v := by
  simp only [Value.require, h]

theorem require_of_lookup_none {key : Text} (h : lookup key ms = none) :
    (Value.object ms).require key = .error (.missingKey key) := by
  simp only [Value.require, h]

theorem news_of_chunk {v : Value} (held : lookup "chunk" ms = some v) :
    (StreamEvent.other (.object ms)).news =
      News.ofDocument (StreamState.eventDocument (.object ms)) := by
  show News.ofOther (.object ms) = _
  unfold News.ofOther
  rw [holds_object, held]
  rfl

theorem Carries.news_eq (h : Carries e t) : e.news = News.ofDocument (.ok t) := by
  cases h with
  | chunk decoded => exact congrArg News.ofDocument decoded
  | other held bytes =>
    rw [news_of_chunk held]
    congr 1
    unfold StreamState.eventDocument
    rw [require_of_lookup held]
    simp only [bind, Except.bind, require_of_lookup bytes]
    rfl

theorem Brings.news_eq (h : Brings e ms) : e.news = News.ofChunk (.object ms) := by
  obtain ⟨t, hcarries, hparsed⟩ := h
  have hdocument : (Except.ok t >>= Value.parse) = .ok (.object ms) := hparsed
  rw [hcarries.news_eq, News.ofDocument, hdocument]

theorem ofChunk_of_type {type : Value} (h : lookup "type" ms = some type) :
    News.ofChunk (.object ms) =
      if type = .text "content_block_delta" then
        News.ofAttempt (fun v => v.elim .nothing .piece) (StreamState.deltaPiece? (.object ms))
      else if type = .text "message_delta" then
        News.ofAttempt (fun e => .stop e.1 e.2) (News.ending? (.object ms))
      else if type = .text "message_start" then News.ofAttempt .start (News.input? (.object ms))
      else .nothing := by
  unfold News.ofChunk
  rw [getD_object, h]
  rfl

theorem deltaPiece?_object {delta : List (Text × Value)}
    (held : (lookup "delta" ms).getD (.object []) = .object delta) :
    StreamState.deltaPiece? (.object ms) =
      .ok (if (lookup "type" delta).getD .null = .text "text_delta" then
        some ((lookup "text" delta).getD (.text [])) else none) := by
  simp only [StreamState.deltaPiece?, getD_object, held, bind, Except.bind, pure, Except.pure]
  split <;> rfl

theorem ending?_object {delta usage : List (Text × Value)}
    (held : (lookup "delta" ms).getD (.object []) = .object delta)
    (used : (lookup "usage" ms).getD (.object []) = .object usage) :
    News.ending? (.object ms) = .ok ((lookup "stop_reason" delta).getD unknownReason,
      (lookup "output_tokens" usage).getD (.int 0)) := by
  simp only [News.ending?, getD_object, held, used, bind, Except.bind, pure, Except.pure]

theorem input?_object {message usage : List (Text × Value)}
    (held : (lookup "message" ms).getD (.object []) = .object message)
    (used : (lookup "usage" message).getD (.object []) = .object usage) :
    News.input? (.object ms) = .ok ((lookup "input_tokens" usage).getD (.int 0)) := by
  simp only [News.input?, getD_object, held, used, bind, Except.bind]

/-- The keys of notices are searched one after another. -/
theorem firstHeld_append {before after : List Text} {key : Text}
    (first : ∀ k ∈ before, lookup k ms = none) (found : (lookup key ms).isSome = true) :
    StreamState.firstHeld (.object ms) (before ++ key :: after) = .ok (some key) := by
  induction before with
  | nil =>
    rw [List.nil_append, StreamState.firstHeld, holds_object, found]
    rfl
  | cons k before ih =>
    rw [List.cons_append, StreamState.firstHeld, holds_object, first k List.mem_cons_self]
    exact ih fun k hk => first k (List.mem_cons_of_mem _ hk)

theorem firstHeld_none {keys : List Text} (h : ∀ key ∈ keys, lookup key ms = none) :
    StreamState.firstHeld (.object ms) keys = .ok none := by
  induction keys with
  | nil => rfl
  | cons k keys ih =>
    rw [StreamState.firstHeld, holds_object, h k List.mem_cons_self]
    exact ih fun k hk => h k (List.mem_cons_of_mem _ hk)

/-- A text that is not read for another reason than its form is a failure. -/
theorem news_of_refused {fault : Fault} (carries : Carries e t)
    (parsed : Value.parse t = .error fault) (form : fault ≠ .notJson) :
    e.news = .failure fault := by
  have hdocument : (Except.ok t >>= Value.parse) = .error fault := parsed
  have hreader := Value.parse_fault parsed
  rw [carries.news_eq, News.ofDocument, hdocument]
  cases fault with
  | notJson => exact absurd rfl form
  | missingKey key =>
    rcases hreader with hbad | ⟨part, hdeep⟩
    · exact absurd hbad (by simp [Fault.isBadValue])
    · exact absurd hdeep (by simp)
  | _ => rfl

/-- A chunk of none of the telling types tells nothing. -/
theorem ofChunk_of_otherType
    (type : ∀ name ∈ tellingTypes, lookup "type" ms ≠ some (.text name)) :
    News.ofChunk (.object ms) = .nothing := by
  cases htype : lookup "type" ms with
  | none =>
    rw [News.ofChunk, getD_object, htype]
    rfl
  | some v =>
    have hother : ∀ name ∈ tellingTypes, v ≠ .text name := fun name hname heq =>
      type name hname (htype.trans (congrArg some heq))
    rw [ofChunk_of_type htype, if_neg (hother _ (by decide)), if_neg (hother _ (by decide)),
      if_neg (hother _ (by decide))]

/-- A delta of another type brings no piece. -/
theorem deltaPiece?_of_otherDelta {delta : List (Text × Value)}
    (held : (lookup "delta" ms).getD (.object []) = .object delta)
    (kind : lookup "type" delta ≠ some (.text "text_delta")) :
    StreamState.deltaPiece? (.object ms) = .ok none := by
  rw [deltaPiece?_object held, if_neg]
  intro hkind
  cases hlookup : lookup "type" delta with
  | none =>
    rw [hlookup] at hkind
    exact absurd hkind (by simp)
  | some v =>
    rw [hlookup] at hkind
    exact kind (hlookup.trans (congrArg some hkind))

/-- Of an event without a chunk, the keys of notices tell the news. -/
theorem news_of_noChunk (held : lookup "chunk" ms = none) {key : Option Text}
    (found : StreamState.firstHeld (.object ms) StreamState.errorKeys = .ok key) :
    (StreamEvent.other (.object ms)).news =
      key.elim .nothing fun key => .failure (StreamState.noticeFault (.object ms) key) := by
  show News.ofOther (.object ms) = _
  unfold News.ofOther
  rw [holds_object, held]
  show News.ofAttempt _ (StreamState.firstHeld _ _) = _
  rw [found]
  cases key <;> rfl

theorem noticeFault_object {notice : List (Text × Value)} {key message : Text}
    (found : lookup key ms = some (.object notice))
    (said : lookup "message" notice = some (.text message)) :
    StreamState.noticeFault (.object ms) key = Told.noticeFault key message := by
  unfold StreamState.noticeFault
  simp only [require_of_lookup found, getD_object, said, bind, Except.bind]
  rfl

/-- What an event tells is its news. -/
theorem Tells.news_eq {told : Told} (h : Tells e told) : e.news = told.news := by
  cases h with
  | text brings type held kind piece =>
    rw [brings.news_eq, ofChunk_of_type type, if_pos rfl, deltaPiece?_object (by rw [held]; rfl),
      kind, Option.getD_some, if_pos rfl, piece]
    rfl
  | start brings type held used tokens =>
    rw [brings.news_eq, ofChunk_of_type type, if_neg (by decide), if_neg (by decide), if_pos rfl,
      input?_object held used, tokens]
    rfl
  | stop brings type held why used tokens =>
    rw [brings.news_eq, ofChunk_of_type type, if_neg (by decide), if_pos rfl,
      ending?_object held used, why, tokens]
    rfl
  | otherType brings type => exact brings.news_eq.trans (ofChunk_of_otherType type)
  | otherDelta brings type held kind =>
    rw [brings.news_eq, ofChunk_of_type type, if_pos rfl, deltaPiece?_of_otherDelta held kind]
    rfl
  | @noBytes ms _ held bytes =>
    have hdocument : StreamState.eventDocument (.object ms) = .error (.missingKey "bytes") := by
      simp only [StreamState.eventDocument, require_of_lookup held, require_of_lookup_none bytes,
        bind, Except.bind]
    rw [news_of_chunk held, hdocument]
    rfl
  | malformed carries parsed =>
    have hdocument : (Except.ok _ >>= Value.parse) = .error .notJson := parsed
    rw [carries.news_eq, News.ofDocument, hdocument]
    rfl
  | unknown held keys => exact news_of_noChunk held (firstHeld_none keys)
  | @notice ms _ _ _ key _ held keys first found said =>
    have hkey : StreamState.firstHeld (.object ms) StreamState.errorKeys = .ok (some key) := by
      rw [keys, firstHeld_append first (by rw [found]; rfl)]
    rw [news_of_noChunk held hkey, Option.elim_some, noticeFault_object found said]
    rfl
  | broken hfault => rfl
  | refused carries parsed form => exact news_of_refused carries parsed form

/-! ## What has come -/

namespace Told

/-- The state behind what was told. -/
def state (tolds : List Told) : StreamState where
  pieces := (tolds.filterMap text?).map Value.text
  input := .int (input tolds)
  output := .int (ending tolds).2
  stopReason := .text (ending tolds).1

/-- What is picked from the news is what is told, as a value. -/
theorem filterMap_news {α β : Type} {pick : News → Option β} {told? : Told → Option α} {f : α → β}
    (h : ∀ told : Told, pick told.news = (told? told).map f) (tolds : List Told) :
    (tolds.map news).filterMap pick = (tolds.filterMap told?).map f := by
  rw [List.filterMap_map, List.map_filterMap]
  exact congrArg (List.filterMap · tolds) (funext h)

theorem hear_news (tolds : List Told) : StreamState.hear {} (tolds.map news) = state tolds := by
  have hpieces : (tolds.map news).filterMap News.piece? = (tolds.filterMap text?).map Value.text :=
    filterMap_news (fun told => by cases told <;> rfl) tolds
  have hstarted : (tolds.map news).filterMap News.started? =
      (tolds.filterMap started?).map Value.int :=
    filterMap_news (fun told => by cases told <;> rfl) tolds
  have hstopped : (tolds.map news).filterMap News.stopped? =
      (tolds.filterMap stopped?).map (Prod.map Value.text Value.int) :=
    filterMap_news (fun told => by cases told <;> rfl) tolds
  have hlast : ((tolds.filterMap stopped?).map (Prod.map Value.text Value.int)).getLastD
      (unknownReason, .int 0) = (.text (ending tolds).1, .int (ending tolds).2) :=
    List.getLastD_map (a := ("unknown".toList, 0))
  unfold StreamState.hear
  dsimp only
  rw [hpieces, hstarted, hstopped, hlast, List.getLastD_map]
  rfl

theorem fault?_news {told : Told} (h : ¬ told.Ends) : told.news.fault? = none := by
  cases told <;> first | rfl | exact absurd trivial h

theorem fault?_map_news {tolds : List Told} (h : ∀ told ∈ tolds, ¬ told.Ends) :
    ∀ n ∈ tolds.map news, n.fault? = none := by
  rintro n hn
  obtain ⟨told, htold, rfl⟩ := List.mem_map.mp hn
  exact fault?_news (h told htold)

theorem wholeReply_state (tolds : List Told) :
    (state tolds).wholeReply = .ok ⟨.text (allText tolds),
      some ⟨.int (input tolds), .int (ending tolds).2⟩, .text (ending tolds).1⟩ := by
  unfold StreamState.wholeReply
  rw [show (state tolds).pieces = (tolds.filterMap text?).map Value.text from rfl, joinTexts_texts]
  rfl

theorem partialReply_state (tolds : List Told) {fault : Fault} (h : ∀ m p, fault ≠ .backend m p) :
    (state tolds).partialReply fault =
      if allText tolds = [] then .error (failed .bedrock fault)
      else .ok ⟨.text (allText tolds), some ⟨.int (input tolds), .int (ending tolds).2⟩,
        .text "stream_error"⟩ := by
  rw [StreamState.partialReply_eq _ h,
    show (state tolds).pieces = (tolds.filterMap text?).map Value.text from rfl, joinTexts_texts]
  unfold allText
  cases (tolds.filterMap text?).flatten with
  | nil => rfl
  | cons c t => rfl

end Told

open Told

variable {events : List StreamEvent} {tolds before after : List Told}

theorem map_news (h : List.Forall₂ Tells events tolds) :
    events.map StreamEvent.news = tolds.map Told.news := by
  induction h with
  | nil => rfl
  | cons head _ ih => rw [List.map_cons, List.map_cons, head.news_eq, ih]

/-- The reply of a stream that nothing ends. -/
theorem answerStream_whole (h : List.Forall₂ Tells events tolds)
    (hends : ∀ told ∈ tolds, ¬ told.Ends) :
    answerStream (.ok events) = .ok ⟨.text (allText tolds),
      some ⟨.int (input tolds), .int (ending tolds).2⟩, .text (ending tolds).1⟩ := by
  obtain ⟨hheard, hfailed⟩ := News.heard_of_forall (fault?_map_news hends)
  unfold answerStream
  dsimp only
  rw [StreamState.read_eq, map_news h, hheard, hfailed, hear_news]
  simp only [News.outcome, wholeReply_state]

/-- The reply of a stream that ends with a failure is made of what came before. -/
theorem answerStream_ended {last : Told} {fault : Fault}
    (h : List.Forall₂ Tells events (before ++ last :: after))
    (hends : ∀ told ∈ before, ¬ told.Ends) (hlast : last.news = .failure fault) :
    answerStream (.ok events) = (state before).partialReply fault := by
  have hfault : last.news.fault? = some fault := by rw [hlast]; rfl
  obtain ⟨hheard, hfailed⟩ :=
    News.heard_append_cons (fault?_map_news hends) hfault (after.map Told.news)
  unfold answerStream
  dsimp only
  rw [StreamState.read_eq, map_news h, List.map_append, List.map_cons, hheard, hfailed,
    StreamState.hear_append, hear_news, hlast, StreamState.hear_failure]
  rfl

/-- What breaks a stream is no fault of the backend. -/
theorem Tells.not_backend {e : StreamEvent} {fault : Fault} (h : Tells e (.broken fault)) (m : Text)
    (p : Option Text) : fault ≠ .backend m p := by
  cases h with
  | broken hfault => exact hfault m p
  | refused carries parsed form =>
    rintro rfl
    rcases Value.parse_fault parsed with hbad | ⟨part, hdeep⟩
    · exact absurd hbad (by simp [Fault.isBadValue])
    · exact absurd hdeep (by simp)

theorem exists_tells {last : Told} (h : List.Forall₂ Tells events (before ++ last :: after)) :
    ∃ e, Tells e last := by
  induction before generalizing events with
  | nil =>
    obtain ⟨e, rest, head, -, -⟩ := List.forall₂_cons_right_iff.mp h
    exact ⟨e, head⟩
  | cons told before ih =>
    obtain ⟨e, rest, -, tail, -⟩ := List.forall₂_cons_right_iff.mp h
    exact ih tail

/-- The first event that ends the stream, if there is one. -/
theorem whole_or_ended (tolds : List Told) :
    (∀ told ∈ tolds, ¬ told.Ends) ∨
      ∃ before last after, tolds = before ++ last :: after ∧ (∀ told ∈ before, ¬ told.Ends) ∧
        last.Ends := by
  induction tolds with
  | nil => exact .inl (by simp)
  | cons told tolds ih =>
    by_cases hends : told.Ends
    · exact .inr ⟨[], told, tolds, rfl, by simp, hends⟩
    · rcases ih with hwhole | ⟨before, last, after, rfl, hbefore, hlast⟩
      · exact .inl (List.forall_mem_cons.mpr ⟨hends, hwhole⟩)
      · exact .inr ⟨told :: before, last, after, rfl,
          List.forall_mem_cons.mpr ⟨hends, hbefore⟩, hlast⟩

/-! ## The log -/

instance (n : Int) : Decidable (Decimal.HasNumeral n) := inferInstanceAs (Decidable (_ < _))

/-- The line that is logged about a call. A count with more digits than a numeral may have cannot be
written. -/
def loggedLine (timestamp model tool : Text) (input output milliseconds : Int) : Text :=
  if Decimal.HasNumeral input ∧ Decimal.HasNumeral output ∧ Decimal.HasNumeral (input + output) then
    Usage.Record.line ⟨timestamp, model, tool, input, output, milliseconds⟩
  else []

theorem digits?_int (n : Int) :
    Usage.digits? (.int n) = if Decimal.HasNumeral n then some (Text.ofInt n) else none := by
  have hwhole : Usage.whole? (.int n) = some n := rfl
  unfold Usage.digits?
  rw [hwhole, Option.bind_eq_bind, Option.bind_some]
  by_cases h : Decimal.HasNumeral n
  · rw [if_pos h, Decimal.numeral_of_hasNumeral h]
    rfl
  · rw [if_neg h, Decimal.numeral_of_not_hasNumeral h]
    rfl

theorem callLine_int (timestamp model tool : Text) (i j milliseconds : Int) :
    Usage.callLine timestamp model tool ⟨.int i, .int j⟩ (.int (i + j)) milliseconds =
      loggedLine timestamp model tool i j milliseconds := by
  unfold Usage.callLine loggedLine
  rw [digits?_int, digits?_int, digits?_int]
  by_cases hall : Decimal.HasNumeral i ∧ Decimal.HasNumeral j ∧ Decimal.HasNumeral (i + j)
  · obtain ⟨hi, hj, htotal⟩ := hall
    rw [if_pos hi, if_pos hj, if_pos htotal, if_pos ⟨hi, hj, htotal⟩]
    rfl
  · rw [if_neg hall]
    split
    · next hi hj htotal =>
      refine absurd ⟨?_, ?_, ?_⟩ hall
      · exact (Option.ite_none_right_eq_some.mp hi).1
      · exact (Option.ite_none_right_eq_some.mp hj).1
      · exact (Option.ite_none_right_eq_some.mp htotal).1
    · rfl

/-- A reply with whole counts is logged with one line. -/
theorem Client.log_counted (c : Client) (d : Disk) (now : Instant) (timestamp tool : Text)
    (milliseconds : Int) (text : Value) (i j : Int) (reason : Value) :
    c.log d now timestamp tool milliseconds (.ok ⟨text, some ⟨.int i, .int j⟩, reason⟩) =
      Usage.append d now (loggedLine timestamp c.options.model.display tool i j milliseconds) :=
  congrArg (Usage.append d now) (callLine_int _ _ _ i j milliseconds)

/-! ## Calls -/

/-- What is delivered to a call tells this, or the call is refused before anything comes. -/
inductive Conveys : Except Fault (List StreamEvent) → List Told → Prop
  | stream {events : List StreamEvent} {tolds : List Told}
    (tells : List.Forall₂ Tells events tolds) : Conveys (.ok events) tolds
  | refused {fault : Fault} (h : ∀ m p, fault ≠ .backend m p) :
    Conveys (.error fault) [.broken fault]

theorem answerStream_of_conveys {delivery : Except Fault (List StreamEvent)}
    (h : Conveys delivery tolds) :
    ((∀ told ∈ tolds, ¬ told.Ends) → answerStream delivery = .ok ⟨.text (allText tolds),
      some ⟨.int (input tolds), .int (ending tolds).2⟩, .text (ending tolds).1⟩) ∧
    (∀ before key message after, tolds = before ++ .notice key message :: after →
      (∀ told ∈ before, ¬ told.Ends) →
        answerStream delivery = .error (noticeFault key message)) ∧
    ∀ before fault after, tolds = before ++ .broken fault :: after →
      (∀ told ∈ before, ¬ told.Ends) → answerStream delivery =
        if allText before = [] then .error (failed .bedrock fault)
        else .ok ⟨.text (allText before), some ⟨.int (input before), .int (ending before).2⟩,
          .text "stream_error"⟩ := by
  cases h with
  | stream tells =>
    refine ⟨answerStream_whole tells, ?_, ?_⟩
    · rintro before key message after rfl hends
      exact answerStream_ended tells hends rfl
    · rintro before fault after rfl hends
      obtain ⟨e, he⟩ := exists_tells tells
      rw [answerStream_ended tells hends rfl, partialReply_state before he.not_backend]
  | @refused fault hfault =>
    have hreply : answerStream (.error fault) = (state []).partialReply fault := rfl
    rw [hreply, partialReply_state [] hfault]
    refine ⟨fun hends => absurd trivial (hends _ List.mem_cons_self), ?_, ?_⟩
    · intro before key message after heq _
      exact absurd heq (by rcases before with _ | ⟨told, _ | _⟩ <;> simp)
    · intro before fault' after heq _
      obtain ⟨rfl, rfl⟩ : before = [] ∧ fault = fault' := by
        rcases before with _ | ⟨told, _ | _⟩
        · exact ⟨rfl, Told.broken.inj (List.cons.inj heq).1⟩
        · exact absurd heq (by simp)
        · exact absurd heq (by simp)
      rfl

/-- Whatever reply a stream makes, its counts are whole numbers. -/
theorem exists_counts {delivery : Except Fault (List StreamEvent)} (h : Conveys delivery tolds)
    {r : Reply} (hr : answerStream delivery = .ok r) :
    ∃ text i j reason, r = ⟨text, some ⟨.int i, .int j⟩, reason⟩ := by
  obtain ⟨hwhole, hnotice, hbroken⟩ := answerStream_of_conveys h
  rw [hr] at hwhole hnotice hbroken
  rcases whole_or_ended tolds with hends | ⟨before, last, after, heq, hends, hlast⟩
  · exact ⟨_, _, _, _, Except.ok.inj (hwhole hends)⟩
  · cases last with
    | notice key message => exact absurd (hnotice before key message after heq hends) (by simp)
    | broken fault =>
      have hend := hbroken before fault after heq hends
      split at hend
      · exact absurd hend (by simp)
      · exact ⟨_, _, _, _, Except.ok.inj hend⟩
    | _ => exact hlast.elim

/-- A call of the service for streams. When nothing ends the stream, the reply has all of the text,
the input tokens that were told last, and the last output tokens and reason. The notice of an error
fails the call whatever has come. A stream that breaks off, or a text that is refused for its size
or depth, makes a reply of what has come if that is any text, and fails the call otherwise. A reply
is logged with one line, unless its counts or their sum are too long to be written, and a failure is
not logged. -/
theorem ask_stream_reply {σ : Type} (o : Options) (connection : Connection)
    (s : Client.Service .bedrock σ) (here : σ) (prompt : Text) (tolds : List Told)
    (h : Conveys (Client.delivered ⟨.bedrock, o, connection⟩ s here prompt) tolds) :
    let c : Client := ⟨.bedrock, o, connection⟩
    let reply := (c.ask s here prompt).reply
    ((∀ told ∈ tolds, ¬ told.Ends) → reply = .ok ⟨.text (allText tolds),
      some ⟨.int (input tolds), .int (ending tolds).2⟩, .text (ending tolds).1⟩) ∧
    (∀ before key message after, tolds = before ++ .notice key message :: after →
      (∀ told ∈ before, ¬ told.Ends) → reply = .error (noticeFault key message)) ∧
    (∀ before fault after, tolds = before ++ .broken fault :: after →
      (∀ told ∈ before, ¬ told.Ends) → reply =
        if allText before = [] then .error (failed .bedrock fault)
        else .ok ⟨.text (allText before), some ⟨.int (input before), .int (ending before).2⟩,
          .text "stream_error"⟩) ∧
    ∀ d now timestamp tool milliseconds,
      (∀ r, reply = .ok r → ∃ i j, r.usage = some ⟨.int i, .int j⟩ ∧
        c.log d now timestamp tool milliseconds reply =
          Usage.append d now (loggedLine timestamp o.model.display tool i j milliseconds)) ∧
      ∀ fault, reply = .error fault → c.log d now timestamp tool milliseconds reply = d := by
  intro c reply
  have hreply : reply = answerStream (c.delivered s here prompt) := Client.reply_ask c s here prompt
  obtain ⟨hwhole, hnotice, hbroken⟩ := answerStream_of_conveys h
  rw [← hreply] at hwhole hnotice hbroken
  refine ⟨hwhole, hnotice, hbroken, fun d now timestamp tool milliseconds => ⟨?_, ?_⟩⟩
  · intro r hr
    obtain ⟨text, i, j, reason, rfl⟩ := exists_counts h (hreply.symm.trans hr)
    rw [hr]
    exact ⟨i, j, rfl, c.log_counted d now timestamp tool milliseconds text i j reason⟩
  · intro fault hfault
    rw [hfault]
    rfl

/-- A chunk of text, as the service writes it. -/
def textChunk (t : Text) : Value :=
  .members [("type", .text "content_block_delta"),
    ("delta", .members [("type", .text "text_delta"), ("text", .text t)])]

theorem tells_textChunk (t : Text) : Tells (chunkOf (Value.writeLine (textChunk t))) (.text t) := by
  have hreadable : Value.Readable Value.maxDepth (textChunk t) := by
    show Value.Readable 990 _
    simp [textChunk, Value.members, Value.Readable, Value.ReadableMembers]
  have hbrings : Brings (chunkOf (Value.writeLine (textChunk t)))
      [("type".toList, .text "content_block_delta"),
        ("delta".toList, .members [("type", .text "text_delta"), ("text", .text t)])] :=
    ⟨_, .chunk (Text.ofDocumentBytes_toUtf8 (startsPlain_writeLine _ _)),
      Value.parse_write Value.Layout.isBlank_oneLine hreadable⟩
  exact .text hbrings rfl rfl rfl (by simp [lookup])

/-- A chunk of bytes that are no document, between two chunks of text, is passed over. -/
theorem ask_stream_reply_malformed :
    let events := [chunkOf (Value.writeLine (textChunk "a")), chunkOf "oops",
      chunkOf (Value.writeLine (textChunk "b"))]
    let s : Client.Service .bedrock Unit := { deliver := fun u _ => (u, .ok events) }
    Conveys (Client.delivered ⟨.bedrock, { model := .text "m" }, .ready⟩ s () "p")
        [.text "a", .nothing, .text "b"] ∧
      (Client.ask ⟨.bedrock, { model := .text "m" }, .ready⟩ s () "p").reply =
        .ok ⟨.text "ab", some ⟨.int 0, .int 0⟩, .text "unknown"⟩ := by
  intro events s
  have hmalformed : Tells (chunkOf "oops") .nothing :=
    .malformed (.chunk (Text.ofDocumentBytes_toUtf8 (by decide))) (by decide)
  have hconveys : Conveys (Client.delivered ⟨.bedrock, { model := .text "m" }, .ready⟩ s () "p")
      [.text "a", .nothing, .text "b"] :=
    .stream (.cons (tells_textChunk "a") (.cons hmalformed (.cons (tells_textChunk "b") .nil)))
  exact ⟨hconveys, (ask_stream_reply _ _ s () "p" _ hconveys).1 (by simp [Told.Ends])⟩

/-- A text that begins with a number of more digits than a numeral may have, and is no document. -/
def overlong : Text := List.replicate (Decimal.maxDigits + 1) '1' ++ ['!']

theorem parse_overlong :
    Value.parse overlong = .error (.tooManyDigits Decimal.maxDigits (Decimal.maxDigits + 1)) := by
  have hlong := Reply.parse_numeral_long (Reply.isNumeral_ones Decimal.maxDigits)
    (by rw [List.length_replicate]; exact Nat.lt_succ_self _)
    (show Value.Apart ['!'] from Value.apart_cons.mpr (by decide))
  rwa [List.length_replicate] at hlong

/-- A chunk with such a text is not passed over: it cuts the stream short. -/
theorem answerStream_overlong :
    (∀ v, Value.parse overlong ≠ .ok v) ∧
      answerStream (.ok [chunkOf (Value.writeLine (textChunk "a")), chunkOf overlong,
        chunkOf (Value.writeLine (textChunk "b"))]) =
          .ok ⟨.text "a", some ⟨.int 0, .int 0⟩, .text "stream_error"⟩ := by
  have hplain : Text.StartsPlain overlong := by decide +kernel
  have hrefused : Tells (chunkOf overlong)
      (.broken (.tooManyDigits Decimal.maxDigits (Decimal.maxDigits + 1))) :=
    .refused (.chunk (Text.ofDocumentBytes_toUtf8 hplain)) parse_overlong
      (by simp [Fault.tooManyDigits])
  have htells : List.Forall₂ Tells
      [chunkOf (Value.writeLine (textChunk "a")), chunkOf overlong,
        chunkOf (Value.writeLine (textChunk "b"))]
      ([.text "a"] ++ .broken (.tooManyDigits Decimal.maxDigits (Decimal.maxDigits + 1)) ::
        [.text "b"]) :=
    .cons (tells_textChunk "a") (.cons hrefused (.cons (tells_textChunk "b") .nil))
  refine ⟨fun v h => absurd (parse_overlong.symm.trans h) (by simp), ?_⟩
  rw [answerStream_ended htells (by simp [Told.Ends]) rfl,
    partialReply_state _ hrefused.not_backend]
  rfl

end ChangeReview.Provider
