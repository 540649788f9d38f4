import Arbys.Adapters.KalshiWs

/-!
# Reconnecting to Kalshi

`stream_quotes` and `_connect_and_stream` of `adapters/kalshi_ws.py`. An
adapter keeps its books when a connection ends, by a frame that raises or
otherwise, and dials again. The venue sends a snapshot of a market up front and
deltas after it, so what a connection yields is what an adapter that has just
been built would yield: no quote mixes the books of two connections.
-/

namespace Arbys

namespace KalshiWs

open PyJson

/-! ## A connection -/

/-- One frame, `none` where it is not JSON. -/
abbrev Frame := Option Json

/-- The turn of a frame in `_connect_and_stream`. -/
def onFrame (books : Books) : Frame → Books × Except Raised (List FeedQuote)
  | none => (books, .ok [])
  | some (.dict msg _) => handleMessage books msg
  | some _ => (books, .error .attributeError)

/-- `_connect_and_stream`: the books it leaves, and what it yields until the
connection ends or a frame raises. -/
def connectAndStream (books : Books) : List Frame → Books × List FeedQuote
  | [] => (books, [])
  | f :: fs =>
      match onFrame books f with
      | (books, .error _) => (books, [])
      | (books, .ok quotes) =>
          let rest := connectAndStream books fs
          (rest.1, quotes ++ rest.2)

/-- What one turn of the loop of `stream_quotes` meets: the frames of a
connection, none where it is refused, and the draw of `random.random()`. -/
structure Connection where
  frames : List Frame
  jitter : ℚ

/-- An adapter that streams. -/
structure KalshiWebSocketAdapter where
  marketTickers : List String
  initialBackoffS : ℚ := 1
  maxBackoffS : ℚ := 30

namespace KalshiWebSocketAdapter

/-- The loop of `stream_quotes`: what it yields, and how long it sleeps after
each connection. -/
def reconnect (a : KalshiWebSocketAdapter) :
    Books → ℚ → List Connection → List FeedQuote × List ℚ
  | _, _, [] => ([], [])
  | books, backoff, c :: cs =>
      let streamed := connectAndStream books c.frames
      let backoff := if streamed.2 = [] then backoff else a.initialBackoffS
      let rest := a.reconnect streamed.1 (min (backoff * 2) a.maxBackoffS) cs
      (streamed.2 ++ rest.1, backoff * (1 / 2 + c.jitter) :: rest.2)

/-- `stream_quotes`. -/
def streamQuotes (a : KalshiWebSocketAdapter) (cs : List Connection) :
    List FeedQuote × List ℚ :=
  if a.marketTickers = [] then ([], [])
  else a.reconnect (newBooks a.marketTickers) a.initialBackoffS cs

end KalshiWebSocketAdapter

/-- The market a body names. -/
def tickerOf (body : Fields) : Option String :=
  match Json.field body "market_ticker" with
  | .str ticker => some ticker
  | _ => none

/-- `msg.get("type")`, where it is a text. -/
def typeOf (msg : Fields) : Option String :=
  match Json.field msg "type" with
  | .str mtype => some mtype
  | _ => none

/-- `msg.get("msg")`, where it is an object. -/
def bodyOf (msg : Fields) : Fields :=
  match Json.field msg "msg" with
  | .dict body _ => body
  | _ => []

/-- The market that a frame of a type is about. -/
def marketOf (mtype : String) : Frame → Option String
  | some (.dict msg _) => if typeOf msg = some mtype then tickerOf (bodyOf msg) else none
  | _ => none

/-- The venue sends no delta of a market before a snapshot of it. -/
def SnapshotFirst (frames : List Frame) : Prop :=
  ∀ before f after ticker, frames = before ++ f :: after →
    marketOf "orderbook_delta" f = some ticker →
    ∃ g ∈ before, marketOf "orderbook_snapshot" g = some ticker

/-! ## Books that agree -/

/-- Books of the same markets, the same on the ones seen. -/
structure Agree (seen : List String) (books books' : Books) : Prop where
  markets : ∀ t, (books.get? t).isSome = (books'.get? t).isSome
  same : ∀ t ∈ seen, books.get? t = books'.get? t

section Agree

variable {seen : List String} {books books' : Books}

theorem Agree.set (h : Agree seen books books') (t : String) (book : MarketBook) :
    Agree (t :: seen) (books.set t book) (books'.set t book) := by
  constructor
  · intro s
    rw [Dict.get?_set, Dict.get?_set]
    split
    · rfl
    · exact h.markets s
  · intro s hs
    rw [Dict.get?_set, Dict.get?_set]
    split
    · rfl
    · rename_i hst
      exact h.same s ((List.mem_cons.mp hs).resolve_left hst)

theorem Agree.mono {seen' : List String} (h : Agree seen books books')
    (hsub : ∀ t ∈ seen', t ∈ seen) : Agree seen' books books' :=
  ⟨h.markets, fun t ht => h.same t (hsub t ht)⟩

/-- Both have the market, or neither. -/
theorem Agree.get? (h : Agree seen books books') (t : String) :
    (books.get? t = none ∧ books'.get? t = none) ∨
      ∃ book book', books.get? t = some book ∧ books'.get? t = some book' := by
  have hsome := h.markets t
  cases hb : books.get? t with
  | none =>
      rw [hb] at hsome
      exact .inl ⟨rfl, Option.not_isSome_iff_eq_none.mp (by rw [← hsome]; simp)⟩
  | some book =>
      rw [hb] at hsome
      obtain ⟨book', hb'⟩ := Option.isSome_iff_exists.mp hsome.symm
      exact .inr ⟨book, book', rfl, hb'⟩

/-- Writing a market that is there adds none. -/
theorem markets_set {t : String} {book : MarketBook} (h : books.get? t = some book)
    (book' : MarketBook) (s : String) :
    ((books.set t book').get? s).isSome = (books.get? s).isSome := by
  rw [Dict.get?_set]
  split
  · rename_i hs
    rw [hs, h]
    rfl
  · rfl

/-- A snapshot leaves nothing of the book there was, unless it raises. -/
theorem applySnapshot_congr (book book' : MarketBook) (msg : Fields) :
    (book.applySnapshot msg).2 = (book'.applySnapshot msg).2 ∧
      ((book.applySnapshot msg).2 = .ok () →
        (book.applySnapshot msg).1 = (book'.applySnapshot msg).1) := by
  unfold MarketBook.applySnapshot
  cases levelsToDict (Json.field msg "yes_dollars_fp") with
  | error e => exact ⟨rfl, fun h => by cases h⟩
  | ok yes =>
      cases levelsToDict (Json.field msg "no_dollars_fp") with
      | error e => exact ⟨rfl, fun h => by cases h⟩
      | ok no => exact ⟨rfl, fun _ => rfl⟩

/-- What two adapters make of one frame: they yield or raise the same, and
agree afterwards unless it raised. -/
structure SameTurn (seen : List String) (r r' : Books × Except Raised (List FeedQuote)) :
    Prop where
  yields : r.2 = r'.2
  agree : (∃ quotes, r.2 = .ok quotes) → Agree seen r.1 r'.1

theorem handleSnapshot_congr (h : Agree seen books books') (body : Fields) :
    SameTurn ((tickerOf body).toList ++ seen) (handleSnapshot books body)
      (handleSnapshot books' body) := by
  unfold handleSnapshot subscribed tickerOf
  cases Json.field body "market_ticker" with
  | str t =>
      rcases h.get? t with ⟨hb, hb'⟩ | ⟨book, book', hb, hb'⟩
      · simp only [hb, hb', Option.map_none]
        refine ⟨rfl, fun _ => ⟨h.markets, fun s hs => ?_⟩⟩
        rcases List.mem_cons.mp hs with rfl | hs
        · rw [hb, hb']
        · exact h.same s hs
      · simp only [hb, hb', Option.map_some]
        obtain ⟨hresult, hbook⟩ := applySnapshot_congr book book' body
        rcases hs : book.applySnapshot body with ⟨after, applied⟩
        rcases hs' : book'.applySnapshot body with ⟨after', applied'⟩
        rw [hs, hs'] at hresult hbook
        cases hresult
        cases applied with
        | error e => exact ⟨rfl, fun ⟨_, hq⟩ => by cases hq⟩
        | ok u =>
            cases hbook rfl
            exact ⟨rfl, fun _ => h.set t after⟩
  | list items text => exact ⟨rfl, fun ⟨_, hq⟩ => by cases hq⟩
  | dict fields text => exact ⟨rfl, fun ⟨_, hq⟩ => by cases hq⟩
  | null => exact ⟨rfl, fun _ => h⟩
  | bool b => exact ⟨rfl, fun _ => h⟩
  | int n => exact ⟨rfl, fun _ => h⟩
  | float x text => exact ⟨rfl, fun _ => h⟩

theorem handleDelta_congr (h : Agree seen books books') {body : Fields}
    (hseen : ∀ t, tickerOf body = some t → t ∈ seen) :
    SameTurn seen (handleDelta books body) (handleDelta books' body) := by
  unfold handleDelta subscribed
  unfold tickerOf at hseen
  cases hticker : Json.field body "market_ticker" with
  | str t =>
      have hsame := h.same t (hseen t (by rw [hticker]))
      simp only [hsame]
      cases books'.get? t with
      | none => exact ⟨rfl, fun _ => h⟩
      | some book =>
          simp only [Option.map_some]
          split
          · split
            · exact ⟨rfl, fun ⟨_, hq⟩ => by cases hq⟩
            · exact ⟨rfl, fun _ => (h.set t _).mono fun s hs => List.mem_cons_of_mem _ hs⟩
          · exact ⟨rfl, fun _ => h⟩
  | list items text => exact ⟨rfl, fun ⟨_, hq⟩ => by cases hq⟩
  | dict fields text => exact ⟨rfl, fun ⟨_, hq⟩ => by cases hq⟩
  | null => exact ⟨rfl, fun _ => h⟩
  | bool b => exact ⟨rfl, fun _ => h⟩
  | int n => exact ⟨rfl, fun _ => h⟩
  | float x text => exact ⟨rfl, fun _ => h⟩

/-- What a frame comes to, whatever the books are. -/
inductive Turn (f : Frame) : Prop where
  | skipped (none : marketOf "orderbook_snapshot" f = none)
      (turn : ∀ books, onFrame books f = (books, .ok []))
  | raised (turn : ∀ books, onFrame books f = (books, .error .attributeError))
  | snapshot (body : Fields) (market : marketOf "orderbook_snapshot" f = tickerOf body)
      (turn : ∀ books, onFrame books f = handleSnapshot books body)
  | delta (body : Fields) (none : marketOf "orderbook_snapshot" f = none)
      (market : marketOf "orderbook_delta" f = tickerOf body)
      (turn : ∀ books, onFrame books f = handleDelta books body)

/-- A body that is empty is of no market. -/
theorem handleMessage_empty {msg : Fields} (h : ¬ (Json.field msg "msg").truthy = true)
    (books : Books) : handleMessage books msg = (books, .ok []) := by
  have hnull : Json.field ([] : Fields) "market_ticker" = .null := rfl
  unfold handleMessage
  simp only [h]
  cases Json.field msg "type" with
  | str mtype =>
      simp only [Bool.false_eq_true, if_false, handleSnapshot, handleDelta, subscribed, hnull]
      split
      · rfl
      · split
        · rfl
        · rfl
  | null => rfl
  | bool b => rfl
  | int n => rfl
  | float x text => rfl
  | list items text => rfl
  | dict fields text => rfl

theorem marketOf_empty {msg : Fields} (h : ¬ (Json.field msg "msg").truthy = true)
    (mtype text : String) : marketOf mtype (some (.dict msg text)) = none := by
  have hnil : bodyOf msg = [] := by
    unfold bodyOf
    cases hbody : Json.field msg "msg" with
    | dict body btext => simpa [hbody, Json.truthy] using h
    | _ => rfl
  rw [marketOf, hnil]
  split
  · rfl
  · rfl

theorem turn_message (msg : Fields) (text : String) : Turn (some (.dict msg text)) := by
  -- a body that is falsy is dropped before the type is read
  by_cases htruthy : (Json.field msg "msg").truthy = true
  · cases hbody : Json.field msg "msg" with
    | dict body btext =>
        have hrun : ∀ books, onFrame books (some (.dict msg text)) =
            match Json.field msg "type" with
            | .str mtype =>
                if mtype = "orderbook_snapshot" then handleSnapshot books body
                else if mtype = "orderbook_delta" then handleDelta books body
                else (books, .ok [])
            | _ => (books, .ok []) := by
          intro books
          rw [hbody] at htruthy
          cases htype : Json.field msg "type" <;>
            simp [onFrame, handleMessage, hbody, htruthy, htype]
        have hbodyOf : bodyOf msg = body := by rw [bodyOf, hbody]
        have hmarket : ∀ mtype, marketOf mtype (some (.dict msg text)) =
            if typeOf msg = some mtype then tickerOf body else none := by
          intro mtype
          rw [marketOf, hbodyOf]
        unfold typeOf at hmarket
        cases htype : Json.field msg "type" with
        | str mtype =>
            simp only [htype, Option.some.injEq] at hrun hmarket
            by_cases hsnap : mtype = "orderbook_snapshot"
            · exact .snapshot body (by rw [hmarket, if_pos hsnap])
                fun books => by rw [hrun, if_pos hsnap]
            · have hnone : marketOf "orderbook_snapshot" (some (.dict msg text)) = none := by
                rw [hmarket, if_neg hsnap]
              by_cases hdelta : mtype = "orderbook_delta"
              · exact .delta body hnone (by rw [hmarket, if_pos hdelta])
                  fun books => by rw [hrun, if_neg hsnap, if_pos hdelta]
              · exact .skipped hnone fun books => by rw [hrun, if_neg hsnap, if_neg hdelta]
        | _ =>
            simp only [htype] at hrun hmarket
            exact .skipped (hmarket _) hrun
    | null =>
        rw [hbody] at htruthy
        cases htruthy
    | _ =>
        rw [hbody] at htruthy
        exact .raised fun books => by simp only [onFrame, handleMessage, hbody, htruthy, if_true]
  · exact .skipped (marketOf_empty htruthy _ text) (handleMessage_empty htruthy)

theorem turn_frame (f : Frame) : Turn f := by
  cases f with
  | none => exact .skipped rfl fun _ => rfl
  | some v =>
      cases v with
      | dict msg text => exact turn_message msg text
      | _ => exact .raised fun _ => rfl

/-- **One frame** on books that agree on the markets seen: a delta is of one of
these, and a snapshot adds its own. -/
theorem onFrame_congr (h : Agree seen books books') {f : Frame}
    (hseen : ∀ t, marketOf "orderbook_delta" f = some t → t ∈ seen) :
    SameTurn ((marketOf "orderbook_snapshot" f).toList ++ seen) (onFrame books f)
      (onFrame books' f) := by
  cases turn_frame f with
  | skipped none turn =>
      rw [turn, turn, none]
      exact ⟨rfl, fun _ => h⟩
  | raised turn =>
      rw [turn, turn]
      exact ⟨rfl, fun ⟨_, hq⟩ => by cases hq⟩
  | snapshot body market turn =>
      rw [turn, turn, market]
      exact handleSnapshot_congr h body
  | delta body none market turn =>
      rw [turn, turn, none]
      rw [market] at hseen
      exact handleDelta_congr h hseen

/-- No frame adds a market or takes one away. -/
theorem markets_onFrame (books : Books) (f : Frame) (t : String) :
    ((onFrame books f).1.get? t).isSome = (books.get? t).isSome := by
  cases turn_frame f with
  | skipped none turn => rw [turn]
  | raised turn => rw [turn]
  | snapshot body market turn =>
      rw [turn]
      unfold handleSnapshot subscribed
      cases Json.field body "market_ticker" with
      | str s =>
          cases hs : books.get? s with
          | none => simp [hs]
          | some book =>
              simp only [hs, Option.map_some]
              rcases book.applySnapshot body with ⟨after, _ | _⟩
              · exact markets_set hs after t
              · exact markets_set hs after t
      | _ => rfl
  | delta body none market turn =>
      rw [turn]
      unfold handleDelta subscribed
      cases Json.field body "market_ticker" with
      | str s =>
          cases hs : books.get? s with
          | none => simp [hs]
          | some book =>
              simp only [hs, Option.map_some]
              split
              · split
                · rfl
                · exact markets_set hs _ t
              · rfl
      | _ => rfl

/-! ## Connections -/

theorem markets_connectAndStream (books : Books) (frames : List Frame) (t : String) :
    ((connectAndStream books frames).1.get? t).isSome = (books.get? t).isSome := by
  induction frames generalizing books with
  | nil => rfl
  | cons f frames ih =>
      have hfirst := markets_onFrame books f t
      unfold connectAndStream
      rcases hr : onFrame books f with ⟨after, _ | quotes⟩
      · rw [hr] at hfirst
        exact hfirst
      · rw [hr] at hfirst
        exact (ih after).trans hfirst

/-- Adapters that agree on the markets seen yield the same, if every delta to
come is of a market that has been seen by then. -/
theorem connectAndStream_congr (h : Agree seen books books') {frames : List Frame}
    (hfirst : ∀ before f after t, frames = before ++ f :: after →
      marketOf "orderbook_delta" f = some t →
        t ∈ seen ∨ ∃ g ∈ before, marketOf "orderbook_snapshot" g = some t) :
    (connectAndStream books frames).2 = (connectAndStream books' frames).2 := by
  induction frames generalizing books books' seen with
  | nil => rfl
  | cons f frames ih =>
      have hnow : ∀ t, marketOf "orderbook_delta" f = some t → t ∈ seen := by
        intro t ht
        rcases hfirst [] f frames t rfl ht with hseen | ⟨g, hg, -⟩
        · exact hseen
        · cases hg
      obtain ⟨hyields, hagree⟩ := onFrame_congr h hnow
      -- the frame raises for both adapters or for neither, and leaves them agreeing
      unfold connectAndStream
      rcases hr : onFrame books f with ⟨after, _ | quotes⟩
      · rcases hr' : onFrame books' f with ⟨after', _ | quotes'⟩
        · rfl
        · rw [hr, hr'] at hyields
          cases hyields
      · rcases hr' : onFrame books' f with ⟨after', _ | quotes'⟩
        · rw [hr, hr'] at hyields
          cases hyields
        · rw [hr, hr'] at hyields hagree
          cases hyields
          refine congrArg (quotes ++ ·) (ih (hagree ⟨quotes, rfl⟩) fun before g rest t hsplit ht => ?_)
          rcases hfirst (f :: before) g rest t (by rw [hsplit]; rfl) ht with hseen | ⟨s, hs, hst⟩
          · exact .inl (List.mem_append_right _ hseen)
          · rcases List.mem_cons.mp hs with rfl | hs
            · exact .inl (List.mem_append_left _ (by rw [hst]; exact List.mem_singleton_self t))
            · exact .inr ⟨s, hs, hst⟩

end Agree

/-- An adapter of no market yields nothing. -/
theorem connectAndStream_empty (frames : List Frame) :
    (connectAndStream Dict.empty frames).2 = [] := by
  have hframe : ∀ f : Frame, ∀ quotes, (onFrame Dict.empty f).2 = .ok quotes →
      quotes = [] ∧ (onFrame Dict.empty f).1 = Dict.empty := by
    intro f quotes hq
    cases turn_frame f with
    | skipped none turn =>
        rw [turn] at hq ⊢
        cases hq
        exact ⟨rfl, rfl⟩
    | raised turn =>
        rw [turn] at hq
        cases hq
    -- a ticker that is not hashable raises, and any other is not subscribed
    | snapshot body market turn =>
        rw [turn] at hq ⊢
        unfold handleSnapshot subscribed at hq ⊢
        cases hticker : Json.field body "market_ticker" with
        | list items text => simp [hticker] at hq
        | dict fields text => simp [hticker] at hq
        | _ =>
            simp only [hticker, Dict.get?_empty, Option.map_none, Except.ok.injEq] at hq
            exact ⟨hq.symm, rfl⟩
    | delta body none market turn =>
        rw [turn] at hq ⊢
        unfold handleDelta subscribed at hq ⊢
        cases hticker : Json.field body "market_ticker" with
        | list items text => simp [hticker] at hq
        | dict fields text => simp [hticker] at hq
        | _ =>
            simp only [hticker, Dict.get?_empty, Option.map_none, Except.ok.injEq] at hq
            exact ⟨hq.symm, rfl⟩
  induction frames with
  | nil => rfl
  | cons f frames ih =>
      have hf := hframe f
      unfold connectAndStream
      rcases hr : onFrame Dict.empty f with ⟨after, _ | quotes⟩
      · rfl
      · rw [hr] at hf
        obtain ⟨rfl, rfl⟩ := hf quotes rfl
        exact ih

/-! ## The stream -/

namespace KalshiWebSocketAdapter

variable {a : KalshiWebSocketAdapter}

theorem reconnect_fresh {books : Books}
    (hmarkets : ∀ t, (books.get? t).isSome = ((newBooks a.marketTickers).get? t).isSome)
    {cs : List Connection} (hfirst : ∀ c ∈ cs, SnapshotFirst c.frames) (backoff : ℚ) :
    (a.reconnect books backoff cs).1 =
      cs.flatMap fun c => (connectAndStream (newBooks a.marketTickers) c.frames).2 := by
  induction cs generalizing books backoff with
  | nil => rfl
  | cons c cs ih =>
      have hagree : Agree [] books (newBooks a.marketTickers) :=
        ⟨hmarkets, fun t ht => absurd ht List.not_mem_nil⟩
      have hsame : (connectAndStream books c.frames).2 =
          (connectAndStream (newBooks a.marketTickers) c.frames).2 :=
        connectAndStream_congr hagree fun before f after t hsplit ht =>
          .inr (hfirst c List.mem_cons_self before f after t hsplit ht)
      have hnext : ∀ t, ((connectAndStream books c.frames).1.get? t).isSome =
          ((newBooks a.marketTickers).get? t).isSome := fun t =>
        (markets_connectAndStream books c.frames t).trans (hmarkets t)
      have hrest := fun b => ih hnext (fun d hd => hfirst d (List.mem_cons_of_mem _ hd)) b
      rw [reconnect, List.flatMap_cons]
      simp only [hrest, hsame]

/-- How long it sleeps: never less than half the first backoff, never as long as
half again the longest. -/
theorem sleep_bounds (hpos : 0 < a.initialBackoffS) (hle : a.initialBackoffS ≤ a.maxBackoffS)
    {cs : List Connection} (hjitter : ∀ c ∈ cs, 0 ≤ c.jitter ∧ c.jitter < 1) :
    ∀ s ∈ (a.streamQuotes cs).2, a.initialBackoffS / 2 ≤ s ∧ s < a.maxBackoffS * (3 / 2) := by
  have hrun : ∀ (cs : List Connection) (books : Books) (backoff : ℚ),
      (∀ c ∈ cs, 0 ≤ c.jitter ∧ c.jitter < 1) →
      a.initialBackoffS ≤ backoff → backoff ≤ a.maxBackoffS →
      ∀ s ∈ (a.reconnect books backoff cs).2,
        a.initialBackoffS / 2 ≤ s ∧ s < a.maxBackoffS * (3 / 2) := by
    intro cs
    induction cs with
    | nil =>
        intro books backoff _ _ _ s hs
        cases hs
    | cons c cs ih =>
        intro books backoff hj hlow hhigh s hs
        obtain ⟨h0, h1⟩ := hj c List.mem_cons_self
        rw [reconnect] at hs
        simp only at hs
        -- a connection that yielded starts the backoff again, before it is slept and doubled
        generalize hb : (if (connectAndStream books c.frames).2 = [] then backoff
          else a.initialBackoffS) = b at hs
        have hbound : a.initialBackoffS ≤ b ∧ b ≤ a.maxBackoffS := by
          rw [← hb]
          split
          · exact ⟨hlow, hhigh⟩
          · exact ⟨le_refl _, hle⟩
        rcases List.mem_cons.mp hs with rfl | hs
        · constructor <;> nlinarith
        · refine ih _ _ (fun d hd => hj d (List.mem_cons_of_mem _ hd)) ?_ (min_le_right _ _) s hs
          exact le_min (by linarith) hle
  unfold streamQuotes
  split
  · intro s hs
    cases hs
  · exact hrun cs _ _ hjitter (le_refl _) hle

end KalshiWebSocketAdapter

/-- **No quote mixes two connections.** Where the venue sends a snapshot of a
market before its deltas, each connection yields what an adapter built anew for
it would yield, whatever was streamed before and however that ended. -/
theorem reconnecting_is_fresh (a : KalshiWebSocketAdapter) (cs : List Connection)
    (hfirst : ∀ c ∈ cs, SnapshotFirst c.frames) :
    (a.streamQuotes cs).1 =
      cs.flatMap fun c => (connectAndStream (newBooks a.marketTickers) c.frames).2 := by
  unfold KalshiWebSocketAdapter.streamQuotes
  by_cases hnone : a.marketTickers = []
  · have hbooks : newBooks a.marketTickers = Dict.empty := by rw [hnone]; rfl
    rw [if_pos hnone, hbooks]
    simp [connectAndStream_empty]
  · rw [if_neg hnone]
    exact a.reconnect_fresh (fun _ => rfl) hfirst _

/-! ### A market that is dialled twice -/

namespace TwoDials

def adapter : KalshiWebSocketAdapter := { marketTickers := ["T"] }

def snapshotFrame (price : String) : Frame :=
  some (.dict [("type", .str "orderbook_snapshot"),
    ("msg", .dict [("market_ticker", .str "T"),
      ("yes_dollars_fp", .list [.list [.str price, .str "10"] ""] "")] "")] "")

def deltaFrame : Frame :=
  some (.dict [("type", .str "orderbook_delta"),
    ("msg", .dict [("market_ticker", .str "T"), ("side", .str "yes"),
      ("price_dollars", .str "0.45"), ("delta_fp", .str "5")] "")] "")

/-- The second connection opens on another book. -/
def dialled : List Connection :=
  [⟨[snapshotFrame "0.45", deltaFrame, some (.str "bye")], 0⟩,
    ⟨[snapshotFrame "0.30", deltaFrame], 1 / 2⟩]

theorem snapshotFirst_dialled : ∀ c ∈ dialled, SnapshotFirst c.frames := by
  intro c hc before f after t hsplit ht
  have hnone : ∀ price, marketOf "orderbook_delta" (snapshotFrame price) = none := fun _ => rfl
  have hsome : ∀ price, marketOf "orderbook_snapshot" (snapshotFrame price) = some "T" :=
    fun _ => rfl
  have hdelta : ∀ t, marketOf "orderbook_delta" deltaFrame = some t → t = "T" := by
    intro t ht
    exact (Option.some.inj ht).symm
  simp only [dialled, List.mem_cons, List.not_mem_nil, or_false] at hc
  rcases hc with rfl | rfl
  · match before with
    | [] =>
        injection hsplit with hf
        rw [← hf, hnone] at ht
        cases ht
    | [g] =>
        injection hsplit with hg hrest
        injection hrest with hf
        rw [← hf] at ht
        exact ⟨g, List.mem_singleton_self g, by rw [← hg, hsome, hdelta t ht]⟩
    | g :: _ :: _ =>
        injection hsplit with hg hrest
        injection hrest with _ hrest
        have hlast : f = some (.str "bye") := by
          have hmem : f ∈ [some (Json.str "bye")] := hrest ▸ List.mem_append_right _ List.mem_cons_self
          exact List.mem_singleton.mp hmem
        rw [hlast] at ht
        cases ht
  · match before with
    | [] =>
        injection hsplit with hf
        rw [← hf, hnone] at ht
        cases ht
    | g :: before =>
        injection hsplit with hg hrest
        have hf : f = deltaFrame := by
          have hmem : f ∈ [deltaFrame] := hrest ▸ List.mem_append_right _ List.mem_cons_self
          exact List.mem_singleton.mp hmem
        rw [hf] at ht
        exact ⟨g, List.mem_cons_self, by rw [← hg, hsome, hdelta t ht]⟩

end TwoDials

open TwoDials in
theorem reconnecting_is_fresh_dialled :
    (adapter.streamQuotes dialled).1 =
      dialled.flatMap fun c => (connectAndStream (newBooks ["T"]) c.frames).2 :=
  reconnecting_is_fresh adapter dialled snapshotFirst_dialled

end KalshiWs
end Arbys
