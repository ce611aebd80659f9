import ChangeReview.Proofs.Decimal.QuotientRange
import ChangeReview.Proofs.Provider.StreamNews
import ChangeReview.Provider.Client

/-!
# Faults that come out of a stream

A call whose reply comes in a stream ends with a reply or with a fault of the backend, unless what
has come cannot be put together: a piece that is no text cannot be joined to the others, and counts
that cannot be added cannot be logged. The attempt to save what has come meets the same piece and
the same counts again, and nothing stops the second fault.
-/
namespace ChangeReview

namespace Value

/-- The two values have a sum: whole numbers, doubles, a whole number in the range of doubles and a
double, two texts, or two lists. -/
inductive Adds : Value → Value → Prop
  | whole {a b : Value} {m n : Int} (left : a.whole? = some m) (right : b.whole? = some n) :
    Adds a b
  | wholeDouble {a : Value} {m : Int} (left : a.whole? = some m) (x : Float)
    (range : m.natAbs < Binary64.wholeLimit) : Adds a (.float x)
  | doubleWhole {b : Value} {n : Int} (x : Float) (right : b.whole? = some n)
    (range : n.natAbs < Binary64.wholeLimit) : Adds (.float x) b
  | doubles (x y : Float) : Adds (.float x) (.float y)
  | texts (s t : Text) : Adds (.text s) (.text t)
  | lists (xs ys : List Value) : Adds (.list xs) (.list ys)

theorem nearest_of_range {n : Int} (h : n.natAbs < Binary64.wholeLimit) (f : Float → Value) :
    ∃ v, (Decimal.nearest n).map f = .ok v := by
  obtain ⟨x, hx⟩ := (Decimal.nearest_eq_ok_iff n).mpr h
  exact ⟨f x, by rw [hx]; rfl⟩

theorem range_of_nearest {n : Int} {f : Float → Value} {v : Value}
    (h : (Decimal.nearest n).map f = .ok v) : n.natAbs < Binary64.wholeLimit := by
  obtain ⟨x, hx, -⟩ := exists_of_map_eq_ok h
  exact (Decimal.nearest_eq_ok_iff n).mp ⟨x, hx⟩

/-- Values have a sum exactly when they add up. -/
theorem sum_ok_iff {a b : Value} : (∃ v, a.sum b = .ok v) ↔ Adds a b := by
  constructor
  · rintro ⟨v, h⟩
    unfold sum at h
    split at h
    · next hm hn => exact .whole hm hn
    · next hm _ => exact .wholeDouble hm _ (range_of_nearest h)
    · exact .doubleWhole _ (by assumption) (range_of_nearest h)
    · exact .doubles _ _
    · exact .texts _ _
    · exact .lists _ _
    · exact absurd h (by simp)
  · intro h
    cases h with
    | whole left right =>
      unfold sum
      rw [left, right]
      exact ⟨_, rfl⟩
    | wholeDouble left x range =>
      unfold sum
      rw [left]
      exact nearest_of_range range fun y => float (y + x)
    | doubleWhole x right range =>
      unfold sum
      rw [right]
      exact nearest_of_range range fun y => float (x + y)
    | doubles | texts | lists => exact ⟨_, rfl⟩

/-- Values that have no sum are no fault of the backend. -/
theorem sum_fault {a b : Value} {fault : Fault} (h : a.sum b = .error fault) (m : Text)
    (p : Option Text) : fault ≠ .backend m p := by
  have hnearest : ∀ {n : Int} {f : Float → Value}, (Decimal.nearest n).map f = .error fault →
      fault ≠ .backend m p := by
    intro n f h
    unfold Decimal.nearest at h
    split at h
    · exact absurd h (by simp [Except.map])
    · rw [← Except.error.inj h]
      simp [Decimal.tooLarge]
  unfold sum at h
  split at h
  · exact absurd h (by simp)
  · exact hnearest h
  · exact hnearest h
  · exact absurd h (by simp)
  · exact absurd h (by simp)
  · exact absurd h (by simp)
  · rw [← Except.error.inj h]
    simp

end Value

namespace Provider

/-! ## Pieces -/

/-- The texts of pieces that are counted from `k` on. -/
def joinFrom (k : Nat) (vs : List Value) : Except Fault (List Text) :=
  (vs.zipIdx k).mapM fun (v, i) =>
    match v with
    | .text t => .ok t
    | v => .error (.mismatch (.notJoinable i v.kind))

theorem joinFrom_text (k : Nat) (t : Text) (vs : List Value) :
    joinFrom k (.text t :: vs) = (joinFrom (k + 1) vs).map (t :: ·) := by
  unfold joinFrom
  rw [List.zipIdx_cons, List.mapM_cons]
  change (Except.ok t >>= fun t => joinFrom (k + 1) vs >>= fun ts => pure (t :: ts)) = _
  cases hrest : joinFrom (k + 1) vs <;> simp only [joinFrom] at hrest <;> rw [hrest] <;> rfl

theorem joinFrom_other (k : Nat) {v : Value} (h : v.text? = none) (vs : List Value) :
    joinFrom k (v :: vs) = .error (.mismatch (.notJoinable k v.kind)) := by
  simp only [joinFrom, List.zipIdx_cons, List.mapM_cons]
  cases v <;> first | rfl | exact absurd h (by simp [Value.text?])

theorem joinFrom_cases (k : Nat) (vs : List Value) :
    (∃ ts : List Text, vs = ts.map Value.text ∧ joinFrom k vs = .ok ts) ∨
      (∀ ts : List Text, vs ≠ ts.map Value.text) ∧
        ∃ i kind, joinFrom k vs = .error (.mismatch (.notJoinable i kind)) := by
  induction vs generalizing k with
  | nil => exact .inl ⟨[], rfl, rfl⟩
  | cons v vs ih =>
    cases hv : v.text? with
    | none =>
      refine .inr ⟨fun ts hts => ?_, k, _, joinFrom_other k hv vs⟩
      rcases ts with _ | ⟨t, ts⟩
      · exact absurd hts (by simp)
      · rw [(List.cons.inj hts).1] at hv
        exact absurd hv (by simp [Value.text?])
    | some t =>
      obtain rfl : v = .text t := by cases v <;> simp_all [Value.text?]
      rw [joinFrom_text]
      rcases ih (k + 1) with ⟨ts, rfl, hjoined⟩ | ⟨hnot, i, kind, hjoined⟩
      · exact .inl ⟨t :: ts, rfl, by rw [hjoined]; rfl⟩
      · refine .inr ⟨fun ts hts => ?_, i, kind, by rw [hjoined]; rfl⟩
        rcases ts with _ | ⟨u, ts⟩
        · exact absurd hts (by simp)
        · exact hnot ts (List.cons.inj hts).2

/-- Pieces are joined when all of them are texts; otherwise one of them is refused. -/
theorem joinTexts_cases (vs : List Value) :
    (∃ ts : List Text, vs = ts.map Value.text ∧ joinTexts vs = .ok ts.flatten) ∨
      (∀ ts : List Text, vs ≠ ts.map Value.text) ∧
        ∃ i kind, joinTexts vs = .error (.mismatch (.notJoinable i kind)) := by
  have hjoin : joinTexts vs = (joinFrom 0 vs).map List.flatten := by
    show joinFrom 0 vs >>= _ = _
    cases joinFrom 0 vs <;> rfl
  rw [hjoin]
  rcases joinFrom_cases 0 vs with ⟨ts, rfl, hjoined⟩ | ⟨hnot, i, kind, hjoined⟩
  · exact .inl ⟨ts, rfl, by rw [hjoined]; rfl⟩
  · exact .inr ⟨hnot, i, kind, by rw [hjoined]; rfl⟩

theorem joinTexts_texts (ts : List Text) : joinTexts (ts.map Value.text) = .ok ts.flatten := by
  rcases joinTexts_cases (ts.map Value.text) with ⟨us, hus, hjoined⟩ | ⟨hnot, -⟩
  · rw [hjoined, (List.map_inj_right fun _ _ => Value.text.inj).mp hus]
  · exact absurd rfl (hnot ts)

/-! ## Replies -/

/-- A call ends as its callers expect: with a reply, or with a fault of the backend. -/
def EndsWell (r : Except Fault Reply) : Prop :=
  (∃ reply, r = .ok reply) ∨ ∃ m p, r = .error (.backend m p)

namespace StreamState

/-- What has come can be put together: all pieces are texts, and the counts add up unless there is
no text. -/
def Coherent (s : StreamState) : Prop :=
  ∃ ts : List Text, s.pieces = ts.map Value.text ∧ (ts.flatten = [] ∨ Value.Adds s.input s.output)

theorem endsWell_counted (t : Value) (c : Usage.Counts) (reason : Value) :
    EndsWell (Reply.counted ⟨t, some c, reason⟩) ↔ Value.Adds c.input c.output := by
  rw [← Value.sum_ok_iff]
  show EndsWell ((c.input.sum c.output).map _) ↔ _
  cases hsum : c.input.sum c.output with
  | ok v => exact iff_of_true (.inl ⟨_, rfl⟩) ⟨v, rfl⟩
  | error fault =>
    refine iff_of_false ?_ (by simp)
    rintro (⟨reply, h⟩ | ⟨m, p, h⟩)
    · exact absurd h (by simp [Except.map])
    · exact Value.sum_fault hsum m p (Except.error.inj h)

/-- A stream that breaks off has what came put together. -/
theorem partialReply_eq (s : StreamState) {fault : Fault} (h : ∀ m p, fault ≠ .backend m p) :
    s.partialReply fault = match joinTexts s.pieces with
      | .error unjoined => .error unjoined
      | .ok [] => .error (failed .bedrock fault)
      | .ok text => Reply.counted ⟨.text text, some s.counts, .text "stream_error"⟩ := by
  unfold partialReply
  cases fault <;> first | rfl | exact absurd rfl (h _ _)

theorem endsWell_partialReply (s : StreamState) (fault : Fault) :
    EndsWell (s.partialReply fault) ↔ (∃ m p, fault = .backend m p) ∨ s.Coherent := by
  by_cases hbackend : ∃ m p, fault = .backend m p
  · obtain ⟨m, p, rfl⟩ := hbackend
    exact iff_of_true (.inr ⟨m, p, rfl⟩) (.inl ⟨m, p, rfl⟩)
  · rw [partialReply_eq s fun m p h => hbackend ⟨m, p, h⟩, or_iff_right hbackend]
    rcases joinTexts_cases s.pieces with ⟨ts, hts, hjoined⟩ | ⟨hnot, i, kind, hjoined⟩
    · rw [hjoined]
      have hcoherent : s.Coherent ↔ ts.flatten = [] ∨ Value.Adds s.input s.output := by
        constructor
        · rintro ⟨us, hus, hadds⟩
          rwa [(List.map_inj_right fun _ _ => Value.text.inj).mp (hts.symm.trans hus)]
        · exact fun hadds => ⟨ts, hts, hadds⟩
      rw [hcoherent]
      cases ts.flatten with
      | nil => exact iff_of_true (.inr ⟨_, _, rfl⟩) (.inl rfl)
      | cons c text => rw [or_iff_right (by simp)]; exact endsWell_counted _ s.counts _
    · rw [hjoined]
      refine iff_of_false ?_ fun ⟨ts, hts, _⟩ => hnot ts hts
      rintro (⟨reply, h⟩ | ⟨m, p, h⟩)
      · exact absurd h (by simp)
      · exact absurd h (by simp)

/-- A whole stream makes a reply, or has a fault that is none of the backend. -/
theorem wholeReply_cases (s : StreamState) :
    (s.Coherent ∧ ∃ reply, s.wholeReply = .ok reply) ∨
      ∃ fault, s.wholeReply = .error fault ∧ ∀ m p, fault ≠ .backend m p := by
  unfold wholeReply
  rcases joinTexts_cases s.pieces with ⟨ts, hts, hjoined⟩ | ⟨hnot, i, kind, hjoined⟩
  · rw [hjoined]
    show (_ ∧ ∃ reply, (s.input.sum s.output).map _ = .ok reply) ∨
      ∃ fault, (s.input.sum s.output).map _ = .error fault ∧ _
    cases hsum : s.input.sum s.output with
    | ok v => exact .inl ⟨⟨ts, hts, .inr (Value.sum_ok_iff.mp ⟨v, hsum⟩)⟩, _, rfl⟩
    | error fault => exact .inr ⟨fault, rfl, Value.sum_fault hsum⟩
  · rw [hjoined]
    exact .inr ⟨_, rfl, by simp⟩

end StreamState

open News

/-- A stream ends well when an error notice or another fault of the backend ends it, or when what
was heard can be put together. -/
theorem endsWell_answerStream (events : List StreamEvent) :
    EndsWell (answerStream (.ok events)) ↔
      (∃ m p, failed? (events.map StreamEvent.news) = some (.backend m p)) ∨
        (StreamState.hear {} (heard (events.map StreamEvent.news))).Coherent := by
  unfold answerStream
  dsimp only
  rw [StreamState.read_eq]
  cases hfailed : failed? (events.map StreamEvent.news) with
  | some fault =>
    refine (StreamState.endsWell_partialReply _ fault).trans ?_
    simp
  | none =>
    generalize StreamState.hear {} (heard (events.map StreamEvent.news)) = s
    rw [or_iff_right (by simp), outcome]
    dsimp only
    rcases s.wholeReply_cases with ⟨hcoherent, reply, hreply⟩ | ⟨fault, hreply, hbackend⟩
    · rw [hreply]
      exact iff_of_true (.inl ⟨reply, rfl⟩) hcoherent
    · rw [hreply]
      refine (s.endsWell_partialReply fault).trans (or_iff_right ?_)
      rintro ⟨m, p, rfl⟩
      exact hbackend m p rfl

/-! ## Calls -/

/-- What the service delivers to a call, or what keeps it from being asked. -/
def Client.delivered {σ : Type} (c : Client) (s : Client.Service c.provider σ) (here : σ)
    (prompt : Text) : Except Fault (Delivery c.provider) :=
  match c.connection, s.session with
  | .ready, _ | .pending, .ok () => (s.deliver here (c.provider.request c.options prompt)).2
  | .standIn v, _ => .error (.noMember v.kind c.provider.entry)
  | .pending, .error fault => .error fault

/-- The reply is what becomes of the delivery. -/
theorem Client.reply_ask {σ : Type} (c : Client) (s : Client.Service c.provider σ) (here : σ)
    (prompt : Text) :
    (c.ask s here prompt).reply = answer c.provider (c.delivered s here prompt) := by
  obtain ⟨provider, options, connection⟩ := c
  obtain ⟨session, deliver⟩ := s
  cases connection with
  | ready => rfl
  | standIn v => rfl
  | pending => cases session <;> rfl

/-- Over a connection that is there, the stream is all that counts. -/
theorem Client.reply_stream {σ : Type} (o : Options)
    (deliver : σ → Value → σ × Except Fault (List StreamEvent)) (here : σ) (prompt : Text) :
    (ask ⟨.bedrock, o, .ready⟩ { deliver := deliver } here prompt).reply =
      answerStream (deliver here (request .bedrock o prompt)).2 := rfl

/-- A call whose reply comes in a stream ends with a reply or with a fault of the backend, whatever
keeps it from being asked and wherever the stream breaks off, exactly as long as what was heard up
to there can be put together: all pieces are texts, and the last counts add up unless there is no
text. Behind the notice of an error nothing is put together. -/
theorem ask_endsWell_iff {σ : Type} (o : Options) (connection : Connection)
    (s : Client.Service .bedrock σ) (here : σ) (prompt : Text) :
    let c : Client := ⟨.bedrock, o, connection⟩
    EndsWell (c.ask s here prompt).reply ↔
      ∀ events, c.delivered s here prompt = .ok events →
        let news := events.map StreamEvent.news
        (∃ m p, failed? news = some (.backend m p)) ∨
          ∃ ts : List Text, (heard news).filterMap piece? = ts.map Value.text ∧
            (ts.flatten = [] ∨
              Value.Adds (((heard news).filterMap started?).getLastD (.int 0))
                (((heard news).filterMap stopped?).getLastD (unknownReason, .int 0)).2) := by
  intro c
  rw [Client.reply_ask]
  show EndsWell (answerStream (c.delivered s here prompt)) ↔ _
  cases hdelivered : c.delivered s here prompt with
  | error fault =>
    refine iff_of_true ?_ (by simp)
    exact (StreamState.endsWell_partialReply {} fault).mpr (.inr ⟨[], rfl, .inl rfl⟩)
  | ok events =>
    rw [endsWell_answerStream]
    constructor
    · rintro h events' heq
      obtain rfl := Except.ok.inj heq
      exact h
    · exact fun h => h events rfl

/-- A delta with a number in the place of its text. -/
def numberDelta : Value :=
  .members [("type", .text "content_block_delta"),
    ("delta", .members [("type", .text "text_delta"), ("text", .int 5)])]

/-- A number in the place of a text is met twice, and the second time nothing stops the fault. -/
theorem answerStream_number :
    answerStream (.ok [chunkOf (Value.writeLine numberDelta)]) =
      .error (.mismatch (.notJoinable 0 "int")) := by
  have hreadable : Value.Readable Value.maxDepth numberDelta := by
    have hdigits : Value.HasDigits 5 := by decide
    show Value.Readable 990 _
    simp [numberDelta, Value.members, Value.Readable, Value.ReadableMembers, hdigits]
  have hchunk : News.ofChunk numberDelta = .piece (.int 5) := rfl
  have hnews : (chunkOf (Value.writeLine numberDelta)).news = .piece (.int 5) :=
    (news_chunkOf hreadable).trans hchunk
  unfold answerStream
  dsimp only
  rw [StreamState.read_eq, List.map_cons, hnews]
  rfl

/-- So a call can end with a fault that is none of the backend. -/
theorem ask_number_escapes :
    ¬ EndsWell (Client.ask ⟨.bedrock, { model := .text "m" }, .ready⟩
      { deliver := fun (u : Unit) _ => (u, .ok [chunkOf (Value.writeLine numberDelta)]) }
      () "p").reply := by
  rw [Client.reply_stream, answerStream_number]
  rintro (⟨reply, h⟩ | ⟨m, p, h⟩)
  · exact absurd h (by simp)
  · exact absurd h (by simp)

end Provider

end ChangeReview
