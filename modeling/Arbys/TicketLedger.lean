import Arbys.Persistence

/-!
# Tickets scored from the tables

The leg join of `list_paper_tickets`, `list_paper_settlements` and
`_score_ticket` in `db/repositories.py`. The rows of a table are kept in the
order in which they were written.
-/

namespace Arbys

/-- A leg as `list_paper_tickets` hands it on: an order with its fill, and
what its outcome resolved at. -/
structure TicketLeg where
  order : Order
  rejectionReason : Option RejectReason
  fillPrice : Option ℚ
  fee : ℚ
  resolvedValue : Option ℚ

/-- `_score_ticket`: realized profit, or `none` while a leg is unsettled. -/
def scoreTicket (legs : List TicketLeg) (settled : Dict OutcomeId ℚ) : Option ℚ :=
  if legs = [] then none
  else
    legs.foldlM (fun total leg => do
      let fillPrice ← leg.fillPrice
      let resolved ← settled.get? leg.order.outcomeId
      let direction : ℚ := if leg.order.isBuy then 1 else -1
      pure (total + (direction * (resolved - fillPrice) * leg.order.qty - leg.fee))) 0

namespace Db

/-- `fills_by_order`: the price of an order's last fill, and its fees. -/
def fillsByOrder (db : Db) : Dict OrderId (ℚ × ℚ) :=
  db.fills.foldl (fun d f => d.set f.orderId (f.price, (d.getD f.orderId (0, 0)).2 + f.fee))
    Dict.empty

/-- `list_paper_settlements`: the latest value of each outcome. -/
def settledValues (db : Db) : Dict OutcomeId ℚ :=
  db.settlements.reverse.foldl (fun d row =>
    if (d.get? row.outcomeId).isSome then d else d.set row.outcomeId row.resolvedValue) Dict.empty

/-- The leg of an order row. -/
def legOf (db : Db) (row : AccountId × Order × Option RejectReason) : TicketLeg :=
  let fill := db.fillsByOrder.get? row.2.1.id
  { order := row.2.1
    rejectionReason := row.2.2
    fillPrice := fill.map (·.1)
    fee := (fill.map (·.2)).getD 0
    resolvedValue := db.settledValues.get? row.2.1.outcomeId }

/-- `legs_by_ticket`. -/
def legsByTicket (db : Db) (ticketId : TicketId) : List TicketLeg :=
  (db.orders.filter fun row => row.2.1.ticketId = some ticketId).map db.legOf

/-- The `realized_profit` of a ticket. -/
def realizedProfit (db : Db) (ticketId : TicketId) : Option ℚ :=
  scoreTicket (db.legsByTicket ticketId) db.settledValues

/-- The tickets that order rows name. -/
def tickets (db : Db) : Finset TicketId := (db.orders.filterMap fun row => row.2.1.ticketId).toFinset

/-! ## Reading the joins -/

theorem get?_fillsByOrder_foldl (fills : List Fill) (d : Dict OrderId (ℚ × ℚ)) (id : OrderId)
    (h : id ∉ fills.map (·.orderId)) :
    (fills.foldl (fun d f => d.set f.orderId (f.price, (d.getD f.orderId (0, 0)).2 + f.fee))
      d).get? id = d.get? id := by
  induction fills generalizing d with
  | nil => rfl
  | cons f fills ih =>
      obtain ⟨hf, hfills⟩ := List.ne_and_not_mem_of_not_mem_cons h
      rw [List.foldl_cons, ih _ hfills, Dict.get?_set_ne _ hf]

/-- An order with one fill is joined with it. -/
theorem get?_fillsByOrder {db : Db} (hnodup : (db.fills.map (·.orderId)).Nodup) {f : Fill}
    (hf : f ∈ db.fills) : db.fillsByOrder.get? f.orderId = some (f.price, f.fee) := by
  obtain ⟨before, after, hsplit⟩ := List.append_of_mem hf
  rw [hsplit, List.map_append, List.map_cons] at hnodup
  obtain ⟨-, hcons, hdisj⟩ := List.nodup_append'.mp hnodup
  have hbefore : f.orderId ∉ before.map (·.orderId) := fun h =>
    hdisj h List.mem_cons_self
  have hafter : f.orderId ∉ after.map (·.orderId) := (List.nodup_cons.mp hcons).1
  have hzero := get?_fillsByOrder_foldl before Dict.empty f.orderId hbefore
  rw [fillsByOrder, hsplit, List.foldl_append, List.foldl_cons,
    get?_fillsByOrder_foldl after _ _ hafter, Dict.get?_set_self, Dict.getD, hzero]
  simp [Dict.empty, Dict.get?, Dict.find]

theorem get?_settledValues_foldl (rows : List SettlementRow) (d : Dict OutcomeId ℚ)
    (o : OutcomeId) :
    (rows.foldl (fun d row =>
      if (d.get? row.outcomeId).isSome then d else d.set row.outcomeId row.resolvedValue) d).get? o =
      (d.get? o).or ((rows.find? fun row => row.outcomeId = o).map (·.resolvedValue)) := by
  induction rows generalizing d with
  | nil => simp
  | cons row rows ih =>
      rw [List.foldl_cons, ih, List.find?_cons]
      by_cases ho : row.outcomeId = o
      · subst ho
        cases hd : d.get? row.outcomeId <;> simp [hd]
      · rw [decide_eq_false ho]
        split
        · rfl
        · rw [Dict.get?_set_ne _ (Ne.symm ho)]

/-- An outcome whose rows all carry one value has resolved at it. -/
theorem get?_settledValues {db : Db} {o : OutcomeId} {x : ℚ} (hrow : db.hasSettlementRow o = true)
    (hvalue : ∀ row ∈ db.settlements, row.outcomeId = o → row.resolvedValue = x) :
    db.settledValues.get? o = some x := by
  rw [settledValues, get?_settledValues_foldl]
  cases hfind : db.settlements.reverse.find? fun row => row.outcomeId = o with
  | none =>
      obtain ⟨row, hmem, ho⟩ := List.any_eq_true.mp hrow
      exact absurd ho (List.find?_eq_none.mp hfind row (List.mem_reverse.mpr hmem))
  | some row =>
      have hmem := List.mem_reverse.mp (List.mem_of_find?_eq_some hfind)
      have ho : row.outcomeId = o := by simpa using List.find?_some hfind
      show some row.resolvedValue = some x
      rw [hvalue row hmem ho]

end Db

/-- **The score of a ticket all of whose legs are filled and settled.** -/
theorem scoreTicket_eq_sum {legs : List TicketLeg} (settled : Dict OutcomeId ℚ)
    (gain : TicketLeg → ℚ) (hne : legs ≠ [])
    (h : ∀ leg ∈ legs, ∃ price value, leg.fillPrice = some price ∧
      settled.get? leg.order.outcomeId = some value ∧
      gain leg = (if leg.order.isBuy then 1 else -1) * (value - price) * leg.order.qty - leg.fee) :
    scoreTicket legs settled = some ((legs.map gain).sum) := by
  have hfold : ∀ total : ℚ, legs.foldlM (fun total leg => do
      let fillPrice ← leg.fillPrice
      let resolved ← settled.get? leg.order.outcomeId
      let direction : ℚ := if leg.order.isBuy then 1 else -1
      pure (total + (direction * (resolved - fillPrice) * leg.order.qty - leg.fee))) total =
        some (total + (legs.map gain).sum) := by
    clear hne
    induction legs with
    | nil => simp
    | cons leg legs ih =>
        intro total
        obtain ⟨price, value, hprice, hvalue, hgain⟩ := h leg List.mem_cons_self
        have hrest := ih fun leg' hleg' => h leg' (List.mem_cons_of_mem _ hleg')
        simp only [List.foldlM_cons, hprice, hvalue, Option.bind_eq_bind, Option.bind_some,
          Option.pure_def] at hrest ⊢
        rw [hrest, List.map_cons, List.sum_cons, hgain]
        congr 1
        ring
  rw [scoreTicket, if_neg hne, hfold, zero_add]

end Arbys
