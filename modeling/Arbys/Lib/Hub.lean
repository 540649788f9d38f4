import Arbys.Lib.Dict
import Arbys.Lib.Runs

/-!
# A hub of bounded queues

A publisher puts each item into the queue of every subscriber, without
waiting: an item that finds a queue full is lost to that subscriber. Readers
take from their own queues in their own time. What one subscriber gets is a
run of a machine of its own (`Local`), in which no other subscriber occurs, so
a slow reader costs nobody but itself.
-/

universe u

namespace Hub

variable {α : Type u}

/-- A subscriber: what waits for it, and what it has taken so far. -/
structure Subscriber (α : Type u) where
  queue : List α := []
  taken : List α := []

namespace Subscriber

/-- `put_nowait`, to a queue of bounded length. -/
def offer (bound : ℕ) (x : α) (s : Subscriber α) : Subscriber α :=
  if s.queue.length < bound then { s with queue := s.queue ++ [x] } else s

/-- `get`, which waits where there is nothing to take. -/
def take (s : Subscriber α) : Subscriber α :=
  match s.queue with
  | [] => s
  | x :: rest => ⟨rest, s.taken ++ [x]⟩

/-- Everything that reached the subscriber, in order. -/
def stream (s : Subscriber α) : List α := s.taken ++ s.queue

theorem stream_take (s : Subscriber α) : s.take.stream = s.stream := by
  unfold take
  split
  · rfl
  · rename_i x rest hq
    simp [stream, hq]

theorem stream_offer (bound : ℕ) (x : α) (s : Subscriber α) :
    (s.offer bound x).stream =
      if s.queue.length < bound then s.stream ++ [x] else s.stream := by
  unfold offer
  split
  · exact (List.append_assoc ..).symm
  · rfl

theorem length_queue_take (s : Subscriber α) : s.take.queue.length ≤ s.queue.length := by
  unfold take
  split
  · exact le_refl _
  · rename_i x rest hq
    rw [hq, List.length_cons]
    exact Nat.le_succ _

theorem length_queue_offer {bound : ℕ} {s : Subscriber α} (h : s.queue.length ≤ bound) (x : α) :
    (s.offer bound x).queue.length ≤ bound := by
  unfold offer
  split
  · rename_i hroom
    rw [List.length_append]
    exact hroom
  · exact h

end Subscriber

end Hub

/-- The subscribers, each under the number it was drawn. -/
structure Hub (α : Type u) where
  bound : ℕ
  drawn : ℕ := 0
  subscribers : Dict ℕ (Hub.Subscriber α) := Dict.empty

namespace Hub

variable {α : Type u}

/-- What can happen to a hub. -/
inductive Event (α : Type u) where
  | publish (x : α)
  | subscribe
  | unsubscribe (i : ℕ)
  | take (i : ℕ)

def publish (h : Hub α) (x : α) : Hub α :=
  { h with subscribers := h.subscribers.mapVal fun _ s => s.offer h.bound x }

def subscribe (h : Hub α) : Hub α :=
  { h with drawn := h.drawn + 1, subscribers := h.subscribers.set h.drawn {} }

def unsubscribe (h : Hub α) (i : ℕ) : Hub α :=
  { h with subscribers := h.subscribers.erase i }

def take (h : Hub α) (i : ℕ) : Hub α :=
  match h.subscribers.get? i with
  | none => h
  | some s => { h with subscribers := h.subscribers.set i s.take }

def step (h : Hub α) : Event α → Hub α
  | .publish x => h.publish x
  | .subscribe => h.subscribe
  | .unsubscribe i => h.unsubscribe i
  | .take i => h.take i

/-- The items published in a run. -/
def published (es : List (Event α)) : List α :=
  es.filterMap fun
    | .publish x => some x
    | _ => none

@[simp] theorem published_nil : published ([] : List (Event α)) = [] := rfl

@[simp] theorem published_append (es es' : List (Event α)) :
    published (es ++ es') = published es ++ published es' := List.filterMap_append ..

@[simp] theorem published_publish (x : α) (es : List (Event α)) :
    published (.publish x :: es) = x :: published es := rfl

@[simp] theorem published_subscribe (es : List (Event α)) :
    published (.subscribe :: es) = published es := rfl

@[simp] theorem published_unsubscribe (i : ℕ) (es : List (Event α)) :
    published (.unsubscribe i :: es) = published es := rfl

@[simp] theorem published_take (i : ℕ) (es : List (Event α)) :
    published (.take i :: es) = published es := rfl

/-! ## One subscriber -/

/-- The machine of the subscriber `i`, which is gone once it unsubscribes. -/
def localStep (bound i : ℕ) (s : Option (Subscriber α)) : Event α → Option (Subscriber α)
  | .publish x => s.map (·.offer bound x)
  | .subscribe => s
  | .unsubscribe j => if j = i then none else s
  | .take j => if j = i then s.map Subscriber.take else s

/-- Whether an event is one of the subscriber's own machine. -/
def Event.concerns (i : ℕ) : Event α → Bool
  | .publish _ => true
  | .subscribe => false
  | .unsubscribe j => j == i
  | .take j => j == i

section One

variable {h : Hub α} {i : ℕ}

@[simp] theorem bound_step (h : Hub α) (e : Event α) : (h.step e).bound = h.bound := by
  cases e with
  | publish x => rfl
  | subscribe => rfl
  | unsubscribe j => rfl
  | take j =>
      simp only [step, take]
      split
      · rfl
      · rfl

theorem drawn_le_step (h : Hub α) (e : Event α) : h.drawn ≤ (h.step e).drawn := by
  cases e with
  | publish x => exact le_refl _
  | subscribe => exact Nat.le_succ _
  | unsubscribe j => exact le_refl _
  | take j =>
      simp only [step, take]
      split
      · exact le_refl _
      · exact le_refl _

/-- **A step, as a subscriber sees it**: a number that is drawn is not drawn
again. -/
theorem get?_step (hi : i < h.drawn) (e : Event α) :
    (h.step e).subscribers.get? i = localStep h.bound i (h.subscribers.get? i) e := by
  cases e with
  | publish x => exact Dict.get?_mapVal ..
  | subscribe => exact Dict.get?_set_ne _ (Nat.ne_of_lt hi) _
  | unsubscribe j =>
      simp only [step, unsubscribe, localStep, Dict.get?_erase, eq_comm]
  | take j =>
      simp only [step, take, localStep]
      by_cases hji : j = i
      · subst hji
        rw [if_pos rfl]
        split
        · rename_i hj
          rw [hj]
          rfl
        · rename_i s hj
          rw [hj]
          exact Dict.get?_set_self ..
      · rw [if_neg hji]
        split
        · rfl
        · exact Dict.get?_set_ne _ (Ne.symm hji) _

/-- **A run, as a subscriber sees it.** -/
theorem get?_run (hi : i < h.drawn) (es : List (Event α)) :
    (Runs.run step h es).subscribers.get? i =
      Runs.run (localStep h.bound i) (h.subscribers.get? i) es := by
  induction es generalizing h with
  | nil => rfl
  | cons e es ih =>
      rw [Runs.run_cons, ih (lt_of_lt_of_le hi (h.drawn_le_step e)), bound_step, get?_step hi,
        Runs.run_cons]

theorem localStep_of_not_concerns {bound : ℕ} {s : Option (Subscriber α)} {e : Event α}
    (he : e.concerns i = false) : localStep bound i s e = s := by
  cases e with
  | publish x => cases he
  | subscribe => rfl
  | unsubscribe j => exact if_neg (by simpa [Event.concerns] using he)
  | take j => exact if_neg (by simpa [Event.concerns] using he)

/-- **Nobody else matters**: a subscriber gets what it would get if no other
came, went or read. -/
theorem get?_run_concerns (hi : i < h.drawn) (es : List (Event α)) :
    (Runs.run step h es).subscribers.get? i =
      (Runs.run step h (es.filter (Event.concerns i))).subscribers.get? i := by
  rw [get?_run hi, get?_run hi]
  generalize h.subscribers.get? i = s
  induction es generalizing s with
  | nil => rfl
  | cons e es ih =>
      cases he : e.concerns i with
      | true => rw [List.filter_cons_of_pos he, Runs.run_cons, Runs.run_cons, ih]
      | false =>
          rw [List.filter_cons_of_neg (by simp [he]), Runs.run_cons,
            localStep_of_not_concerns he, ih]

end One

/-! ## What it gets -/

/-- Room for an item that is published. -/
def Roomy (bound : ℕ) (s : Option (Subscriber α)) : Event α → Prop
  | .publish _ => ∀ sub ∈ s, sub.queue.length < bound
  | _ => True

/-- The subscriber stays. -/
def Stays (i : ℕ) (es : List (Event α)) : Prop := ∀ e ∈ es, ∀ j, e = .unsubscribe j → j ≠ i

section Stream

variable {bound i : ℕ}

/-- A step of a subscriber that stays: what it gets is what is published, if
there is room. -/
theorem localStep_some (bound : ℕ) (s : Subscriber α) {e : Event α}
    (he : ∀ j, e = .unsubscribe j → j ≠ i) :
    ∃ s', localStep bound i (some s) e = some s' ∧
      (s'.stream = s.stream ++ published [e] ∧ Roomy bound (some s) e ∨
        s'.stream = s.stream ∧ (published [e]).length = 1 ∧ ¬ Roomy bound (some s) e) := by
  cases e with
  | publish x =>
      refine ⟨s.offer bound x, rfl, ?_⟩
      rw [Subscriber.stream_offer]
      by_cases hroom : s.queue.length < bound
      · rw [if_pos hroom]
        exact .inl ⟨rfl, fun sub hsub => by cases hsub; exact hroom⟩
      · rw [if_neg hroom]
        exact .inr ⟨rfl, rfl, fun hall => hroom (hall s rfl)⟩
  | subscribe => exact ⟨s, rfl, .inl ⟨(List.append_nil _).symm, trivial⟩⟩
  | unsubscribe j =>
      exact ⟨s, if_neg (he j rfl), .inl ⟨(List.append_nil _).symm, trivial⟩⟩
  | take j =>
      simp only [localStep]
      split
      · exact ⟨s.take, rfl, .inl ⟨by rw [s.stream_take]; exact (List.append_nil _).symm, trivial⟩⟩
      · exact ⟨s, rfl, .inl ⟨(List.append_nil _).symm, trivial⟩⟩

/-- **What a subscriber gets**: a part of what is published, in the order it
was; and all of it exactly if it was never published to a full queue. -/
theorem stream_run (bound : ℕ) {es : List (Event α)} (hstays : Stays i es) (s : Subscriber α) :
    ∃ s' kept, Runs.run (localStep bound i) (some s) es = some s' ∧
      s'.stream = s.stream ++ kept ∧ kept.Sublist (published es) ∧
      (kept = published es ↔ Runs.Guarded (localStep bound i) (Roomy bound) (some s) es) := by
  induction es generalizing s with
  | nil => exact ⟨s, [], rfl, (List.append_nil _).symm, List.Sublist.refl _, by simp [Runs.Guarded]⟩
  | cons e es ih =>
      obtain ⟨s₁, hs₁, hone⟩ :=
        localStep_some bound s (hstays e List.mem_cons_self)
      obtain ⟨s', kept, hs', hstream, hsub, hall⟩ :=
        ih (fun e' he' => hstays e' (List.mem_cons_of_mem _ he')) s₁
      have hpub : published (e :: es) = published [e] ++ published es :=
        published_append [e] es
      have hrun : Runs.run (localStep bound i) (some s) (e :: es) = some s' := by
        rw [Runs.run_cons, hs₁, hs']
      rw [hpub]
      rcases hone with ⟨hgot, hroomy⟩ | ⟨hgot, hlen, hfull⟩
      · refine ⟨s', published [e] ++ kept, hrun, ?_, List.Sublist.append_left hsub _, ?_⟩
        · rw [hstream, hgot, List.append_assoc]
        · rw [List.append_right_inj, hall, Runs.Guarded, hs₁]
          exact (and_iff_right hroomy).symm
      · refine ⟨s', kept, hrun, by rw [hstream, hgot],
          hsub.trans (List.sublist_append_right ..), ?_⟩
        -- one item is lost, and what is lost does not come back
        have hshort : kept ≠ published [e] ++ published es := by
          intro heq
          have hle := hsub.length_le
          rw [heq, List.length_append, hlen] at hle
          omega
        simp only [hshort, false_iff, Runs.Guarded]
        exact fun hg => hfull hg.1

/-- Items published in one go all find room exactly if there is room for so
many. -/
theorem guarded_publish {s : Subscriber α} {xs : List α} :
    Runs.Guarded (localStep bound i) (Roomy bound) (some s) (xs.map .publish) ↔
      xs = [] ∨ s.queue.length + xs.length ≤ bound := by
  induction xs generalizing s with
  | nil => simp [Runs.Guarded]
  | cons x xs ih =>
      have hroomy : Roomy bound (some s) (.publish x) ↔ s.queue.length < bound :=
        ⟨fun h => h s rfl, fun h sub hsub => by cases hsub; exact h⟩
      have hnext : localStep bound i (some s) (.publish x) = some (s.offer bound x) := rfl
      rw [List.map_cons, Runs.Guarded, hnext, hroomy, ih]
      by_cases hlt : s.queue.length < bound
      · have hlen : (s.offer bound x).queue.length = s.queue.length + 1 := by
          simp [Subscriber.offer, hlt]
        rw [hlen]
        cases xs with
        | nil => simp [hlt, Nat.succ_le_of_lt hlt]
        | cons y ys =>
            simp only [List.length_cons, reduceCtorEq, false_or]
            omega
      · simp only [hlt, false_and, reduceCtorEq, false_or, List.length_cons, false_iff]
        omega

/-- No more than the bound waits for anybody. -/
theorem length_queue_run {s : Option (Subscriber α)} (hs : ∀ sub ∈ s, sub.queue.length ≤ bound)
    (es : List (Event α)) :
    ∀ sub ∈ Runs.run (localStep bound i) s es, sub.queue.length ≤ bound := by
  let Bounded (s : Option (Subscriber α)) : Prop := ∀ sub ∈ s, sub.queue.length ≤ bound
  refine Runs.run_inv (I := Bounded) (fun s e h => ?_) es hs
  intro sub hsub
  cases e with
  | publish x =>
      obtain ⟨sub', hsub', rfl⟩ := Option.mem_map.mp hsub
      exact Subscriber.length_queue_offer (h sub' hsub') x
  | subscribe => exact h sub hsub
  | unsubscribe j =>
      simp only [localStep] at hsub
      split at hsub
      · cases hsub
      · exact h sub hsub
  | take j =>
      simp only [localStep] at hsub
      split at hsub
      · obtain ⟨sub', hsub', rfl⟩ := Option.mem_map.mp hsub
        exact le_trans sub'.length_queue_take (h sub' hsub')
      · exact h sub hsub

theorem length_queue_le {s s' : Subscriber α} {es : List (Event α)} (hs : s.queue.length ≤ bound)
    (h : Runs.run (localStep bound i) (some s) es = some s') : s'.queue.length ≤ bound := by
  have hbefore : ∀ sub ∈ some s, sub.queue.length ≤ bound := by
    intro sub hsub
    cases hsub
    exact hs
  exact length_queue_run (i := i) hbefore es s' h

end Stream

end Hub
