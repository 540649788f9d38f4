import Arbys.Lib.Downsample
import Arbys.Performance

/-!
# The accrual series

`_accrual_curve` sums up the matched pairs in the order they were submitted
and keeps every `step`-th of the running sums, and the last. The stride is
`n // 400`, rounded down, so it reaches the last pair in 400 steps only where
`n` is hardly more than a multiple of 400.
-/

namespace Arbys.Performance

open LedgerDb (TicketEntry)
open Downsample (Kept kept stays)

/-- What a list of pairs settles for, guaranteed. -/
def valueOf (rows : List Row) : ℚ := (rows.map fun r => r.settlementValue.getD 0).sum

/-- The part of it that is resolved. -/
def resolvedOf (rows : List Row) : ℚ := valueOf (rows.filter fun r => r.net.isSome)

/-- The point of the `i`-th pair: each sum up to it exact, and rounded once. -/
def pointOf (pts : List Row) (i : ℕ) (r : Row) : AccrualPoint :=
  ⟨r.submittedAt, cents (valueOf (pts.take (i + 1))), cents (resolvedOf (pts.take (i + 1)))⟩

/-! ## The loop -/

theorem valueOf_concat (rows : List Row) (r : Row) :
    valueOf (rows ++ [r]) = valueOf rows + r.settlementValue.getD 0 := by
  simp [valueOf]

theorem resolvedOf_concat (rows : List Row) (r : Row) :
    resolvedOf (rows ++ [r]) =
      if r.net.isSome then resolvedOf rows + r.settlementValue.getD 0 else resolvedOf rows := by
  rw [resolvedOf, List.filter_append]
  cases hnet : r.net.isSome with
  | true => rw [List.filter_cons_of_pos (by simpa using hnet), List.filter_nil, valueOf_concat,
      if_pos rfl, resolvedOf]
  | false => rw [List.filter_cons_of_neg (by simpa using hnet), List.filter_nil, List.append_nil,
      if_neg (by simp), resolvedOf]

/-- From any pair on, the loop keeps the points whose index is kept. -/
theorem accrualLoop_eq (step n : ℕ) (before rows : List Row) :
    accrualLoop step n before.length (valueOf before) (resolvedOf before) rows =
      ((rows.zipIdx before.length).filter (stays step n)).map fun e =>
        pointOf (before ++ rows) e.2 e.1 := by
  induction rows generalizing before with
  | nil => rfl
  | cons r rows ih =>
      have hrest := ih (before ++ [r])
      rw [← List.append_cons, List.length_append, List.length_singleton, valueOf_concat,
        resolvedOf_concat] at hrest
      have htake : (before ++ r :: rows).take (before.length + 1) = before ++ [r] := by
        rw [List.append_cons, List.take_left' (by simp)]
      -- the sums of a turn are those up to and with its pair
      rw [accrualLoop, hrest, List.zipIdx_cons]
      by_cases hkept : Kept step n before.length
      · have hmem : stays step n (r, before.length) = true := decide_eq_true hkept
        have hturn : before.length % step = 0 ∨ before.length = n - 1 := hkept
        rw [if_pos hturn, List.filter_cons_of_pos hmem, List.map_cons, pointOf, htake,
          valueOf_concat, resolvedOf_concat]
      · have hmem : ¬stays step n (r, before.length) = true := by simpa [stays] using hkept
        have hturn : ¬(before.length % step = 0 ∨ before.length = n - 1) := hkept
        rw [if_neg hturn, List.filter_cons_of_neg hmem]

/-! ## The series -/

/-- What the series says of the matched pairs and of its header. -/
structure CurveHolds (rows : List Row) (curve : List AccrualPoint) (accrualTotal : ℚ) : Prop where
  ordered : (curve.map (·.ts)).Pairwise (· ≤ ·)
  bounded : curve.length ≤ maxCurvePoints + 1
  first : ∃ oldest, (accrualPoints rows).head? = some oldest ∧
    (∀ r ∈ rows, r.settlementValue.isSome → oldest.submittedAt ≤ r.submittedAt) ∧
    curve.head? = some (pointOf (accrualPoints rows) 0 oldest)
  last : curve.getLast?.map (·.total) = some (cents accrualTotal)
  exact : ∀ pt ∈ curve, ∃ i r, (accrualPoints rows)[i]? = some r ∧
    pt = pointOf (accrualPoints rows) i r

section Curve

variable {rows : List Row}

/-- The stride of the series. -/
def stride (rows : List Row) : ℕ := max 1 ((accrualPoints rows).length / maxCurvePoints)

/-- The pairs whose points stay, with their indices. -/
def keptPairs (rows : List Row) : List (Row × ℕ) :=
  (accrualPoints rows).zipIdx.filter (stays (stride rows) (accrualPoints rows).length)

theorem accrualCurve_eq (hn : 2 ≤ (accrualPoints rows).length) :
    accrualCurve rows = (keptPairs rows).map fun e => pointOf (accrualPoints rows) e.2 e.1 := by
  rw [accrualCurve, if_neg (Nat.not_lt.mpr hn)]
  exact accrualLoop_eq (stride rows) (accrualPoints rows).length [] (accrualPoints rows)

theorem pairwise_accrualPoints (rows : List Row) :
    ((accrualPoints rows).map (·.submittedAt)).Pairwise (· ≤ ·) := by
  rw [List.pairwise_map]
  have htrans : ∀ a b c : Row, decide (a.submittedAt ≤ b.submittedAt) = true →
      decide (b.submittedAt ≤ c.submittedAt) = true →
      decide (a.submittedAt ≤ c.submittedAt) = true := by
    intro a b c hab hbc
    simp only [decide_eq_true_eq] at hab hbc ⊢
    exact hab.trans hbc
  have htotal : ∀ a b : Row, (decide (a.submittedAt ≤ b.submittedAt) ||
      decide (b.submittedAt ≤ a.submittedAt)) = true := by
    intro a b
    simpa using le_total a.submittedAt b.submittedAt
  have h := List.pairwise_mergeSort htrans htotal
    (rows.filter fun r => r.settlementValue.isSome)
  exact h.imp fun hab => by simpa using hab

theorem mem_accrualPoints {r : Row} :
    r ∈ accrualPoints rows ↔ r ∈ rows ∧ r.settlementValue.isSome = true := by
  rw [accrualPoints, List.mem_mergeSort, List.mem_filter]

theorem sum_accrualPoints (rows : List Row) : valueOf (accrualPoints rows) = valueOf rows := by
  rw [valueOf, accrualPoints, ((List.mergeSort_perm _ _).map _).sum_eq]
  refine Dict.sum_filter_of_eq_zero fun r _ hnone => ?_
  rw [Option.isSome_eq_false_iff, Option.isNone_iff_eq_none] at hnone
  rw [hnone]
  rfl

/-- The length of the series, by the indices that stay. -/
theorem length_accrualCurve (hn : 2 ≤ (accrualPoints rows).length) :
    (accrualCurve rows).length = (kept (stride rows) (accrualPoints rows).length).length := by
  rw [accrualCurve_eq hn, List.length_map, ← Downsample.map_snd_filter_stays, List.length_map,
    keptPairs]

theorem stride_pos (rows : List Row) : 0 < stride rows :=
  Nat.lt_of_lt_of_le Nat.zero_lt_one (Nat.le_max_left _ _)

theorem curve_ordered (hn : 2 ≤ (accrualPoints rows).length) :
    ((accrualCurve rows).map (·.ts)).Pairwise (· ≤ ·) := by
  have hsub : ((keptPairs rows).map Prod.fst).Sublist (accrualPoints rows) :=
    Downsample.map_fst_filter_stays ..
  have htimes : (accrualCurve rows).map (·.ts) =
      ((keptPairs rows).map Prod.fst).map (·.submittedAt) := by
    rw [accrualCurve_eq hn, List.map_map, List.map_map]
    rfl
  rw [htimes]
  exact (pairwise_accrualPoints rows).sublist (hsub.map _)

theorem curve_first (hn : 2 ≤ (accrualPoints rows).length) :
    ∃ oldest, (accrualPoints rows).head? = some oldest ∧
      (∀ r ∈ rows, r.settlementValue.isSome → oldest.submittedAt ≤ r.submittedAt) ∧
      (accrualCurve rows).head? = some (pointOf (accrualPoints rows) 0 oldest) := by
  have hsorted := pairwise_accrualPoints rows
  have hcurve := accrualCurve_eq hn
  rw [keptPairs] at hcurve
  cases hpts : accrualPoints rows with
  | nil =>
      rw [hpts] at hn
      cases hn
  | cons oldest pts =>
      refine ⟨oldest, rfl, fun r hr hvalue => ?_, ?_⟩
      · have hmem : r ∈ oldest :: pts := hpts ▸ mem_accrualPoints.mpr ⟨hr, hvalue⟩
        rw [hpts, List.map_cons, List.pairwise_cons] at hsorted
        rcases List.mem_cons.mp hmem with rfl | hmem
        · exact le_rfl
        · exact hsorted.1 _ (List.mem_map_of_mem hmem)
      · rw [hcurve, hpts, List.head?_map, Downsample.head?_filter_stays, Option.map_some]

/-- The last point sums up all the pairs. -/
theorem curve_last (hn : 2 ≤ (accrualPoints rows).length) :
    (accrualCurve rows).getLast?.map (·.total) = some (cents (valueOf rows)) := by
  have hcurve := accrualCurve_eq hn
  rw [keptPairs] at hcurve
  rcases List.eq_nil_or_concat (accrualPoints rows) with hpts | ⟨pts, last, hpts⟩
  · rw [hpts] at hn
    cases hn
  · rw [List.concat_eq_append] at hpts
    rw [hcurve, ← sum_accrualPoints, hpts, List.getLast?_map, Downsample.getLast?_filter_stays,
      Option.map_some, Option.map_some, pointOf, List.take_of_length_le (by simp)]

theorem curve_exact (hn : 2 ≤ (accrualPoints rows).length) {pt : AccrualPoint}
    (hpt : pt ∈ accrualCurve rows) :
    ∃ i r, (accrualPoints rows)[i]? = some r ∧ pt = pointOf (accrualPoints rows) i r := by
  rw [accrualCurve_eq hn] at hpt
  obtain ⟨⟨r, i⟩, he, rfl⟩ := List.mem_map.mp hpt
  exact ⟨i, r, List.mem_zipIdx_iff_getElem?.mp (List.mem_of_mem_filter he), rfl⟩

end Curve

/-- **The series and its bound**: for two matched pairs or more the series is in
order, starts at the oldest, ends on its header and is exact, and it has no
more points than it should exactly where the pairs are fewer than 400, or a
multiple of 400, or one more. -/
theorem accrual_curve_holds_iff (scalars : List TicketScalar) (traded : List TicketEntry)
    (hn : 2 ≤ (accrualPoints (traded.map Row.ofTicket)).length) :
    CurveHolds (traded.map Row.ofTicket) (summarize scalars traded).accrualCurve
        (summarize scalars traded).accrualTotal ↔
      (accrualPoints (traded.map Row.ofTicket)).length < maxCurvePoints ∨
        (accrualPoints (traded.map Row.ofTicket)).length % maxCurvePoints ≤ 1 := by
  have hcurve : (summarize scalars traded).accrualCurve =
      accrualCurve (traded.map Row.ofTicket) := rfl
  have htotal : (summarize scalars traded).accrualTotal = valueOf (traded.map Row.ofTicket) := rfl
  rw [hcurve, htotal]
  have hbound : (accrualCurve (traded.map Row.ofTicket)).length ≤ maxCurvePoints + 1 ↔
      (accrualPoints (traded.map Row.ofTicket)).length < maxCurvePoints ∨
        (accrualPoints (traded.map Row.ofTicket)).length % maxCurvePoints ≤ 1 := by
    rw [length_accrualCurve hn, Downsample.length_kept_le_iff (stride_pos _) (by omega),
      ← Downsample.le_stride_iff (by decide), stride]
  constructor
  · exact fun h => hbound.mp h.bounded
  · exact fun h => ⟨curve_ordered hn, hbound.mpr h, curve_first hn, curve_last hn,
      fun pt hpt => curve_exact hn hpt⟩

/-! ## One pair, many times -/

namespace Pairs

def order (id : String) (venueId : VenueId) : PaperOrder where
  id := id
  accountId := "default"
  venueId := venueId
  outcomeId := id
  isBuy := true
  qty := 10
  limitPrice := 1 / 2
  status := "filled"
  submittedAt := 10
  ticketId := some "t1"
  rejectionReason := none

/-- Two legs of ten contracts, filled at 0.50 and 0.45. -/
def ticket : TicketEntry where
  ticket :=
    { id := "t1"
      accountId := "default"
      eventGroupId := "mlb-BOS-NYY-2026-09-05"
      titleSnapshot := "Red Sox vs Yankees"
      startsAt := none
      source := "auto"
      status := "filled"
      rejectionReason := none
      excludedReason := none
      totalStake := none
      expectedProfit := none
      expectedEdgeBps := none
      submittedAt := 10 }
  realizedProfit := none
  legs := [⟨order "o1" "kalshi", some (1 / 2), 0, none⟩,
    ⟨order "o2" "polymarket_us", some (9 / 20), 0, none⟩]

def traded (n : ℕ) : List TicketEntry := List.replicate n ticket

def scalars (n : ℕ) : List TicketScalar :=
  (traded n).map fun t => TicketScalar.ofTicket t.ticket

theorem length_accrualPoints (n : ℕ) :
    (accrualPoints ((traded n).map Row.ofTicket)).length = n := by
  have hpair : (Row.ofTicket ticket).settlementValue.isSome = true := by decide +kernel
  rw [accrualPoints, List.length_mergeSort, traded, List.map_replicate, List.filter_replicate,
    if_pos hpair, List.length_replicate]

end Pairs

open Pairs in
theorem accrual_curve_holds_two :
    CurveHolds ((traded 2).map Row.ofTicket) (summarize (scalars 2) (traded 2)).accrualCurve
      (summarize (scalars 2) (traded 2)).accrualTotal :=
  (accrual_curve_holds_iff (scalars 2) (traded 2) (length_accrualPoints 2).ge).mpr
    (Or.inl (by rw [length_accrualPoints]; decide))

open Pairs in
/-- 402 pairs are thinned by nothing, and give 402 points. -/
theorem accrual_curve_overflows :
    (accrualPoints ((traded 402).map Row.ofTicket)).length = 402 ∧
      ¬ CurveHolds ((traded 402).map Row.ofTicket)
        (summarize (scalars 402) (traded 402)).accrualCurve
        (summarize (scalars 402) (traded 402)).accrualTotal := by
  refine ⟨length_accrualPoints 402, fun h => ?_⟩
  have hlen := length_accrualPoints 402
  have hbound : (accrualCurve ((traded 402).map Row.ofTicket)).length ≤ 400 + 1 := h.bounded
  rw [length_accrualCurve (by omega), Downsample.length_kept_le_iff (stride_pos _) (by omega),
    stride, hlen] at hbound
  revert hbound
  decide

end Arbys.Performance
