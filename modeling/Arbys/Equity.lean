import Arbys.Movement

/-!
# Mark-to-market for a paper account

`shared/equity.py`. A position marks at the mid of its live quote, and at its
own average price where there is none. `clock v o` is the reading at which the
quote of outcome `o` is looked up for the broker of venue `v`.
-/

namespace Arbys

structure AccountEquity where
  cash : ℚ
  positionValue : ℚ
  equity : ℚ
  unrealized : ℚ
  realized : ℚ
  deriving DecidableEq

/-- `_mid`. -/
def mid (q : Quote) : ℚ := (q.bid + q.ask) / 2

/-- The price a position is marked at. -/
def markOf (book : QuoteBook) (now : ℚ) (o : OutcomeId) (avgPrice : ℚ) : ℚ :=
  match book.get now o with
  | some quote => mid quote
  | none => avgPrice

/-- `account_equity`. -/
def accountEquity (brokers : Dict VenueId PaperExecutionAdapter) (book : QuoteBook)
    (clock : VenueId → OutcomeId → ℚ) (acct : AccountId) : AccountEquity :=
  let cash := brokers.sumBy fun _ b => (b.accountSnapshot acct).1
  let realized := brokers.sumBy fun _ b => b.realizedPnl acct
  let positionValue := brokers.sumBy fun v b =>
    ((b.accountSnapshot acct).2.map fun (o, qty, avg, _) =>
      markOf book (clock v o) o avg * qty).sum
  let unrealized := brokers.sumBy fun v b =>
    ((b.accountSnapshot acct).2.map fun (o, qty, avg, _) =>
      (markOf book (clock v o) o avg - avg) * qty).sum
  ⟨cash, positionValue, cash + positionValue, unrealized, realized⟩

/-- A sum over the snapshot's positions is the sum over all of them, when a
position of zero adds nothing. -/
theorem sum_accountSnapshot (b : PaperExecutionAdapter) (acct : AccountId)
    {g : OutcomeId → ℚ → ℚ → ℚ} (hg : ∀ o avg, g o 0 avg = 0) :
    ((b.accountSnapshot acct).2.map fun (o, qty, avg, _) => g o qty avg).sum =
      (b.account acct).positions.sumBy fun o qty => g o qty ((b.account acct).avg o) := by
  simp only [PaperExecutionAdapter.accountSnapshot, Dict.sumBy, List.map_map]
  generalize (b.account acct).positions.entries = l
  induction l with
  | nil => rfl
  | cons e rest ih =>
      by_cases he : e.2 = 0
      · rw [List.filter_cons_of_neg (by simpa using he), ih, List.map_cons, List.sum_cons, he,
          hg, zero_add]
      · rw [List.filter_cons_of_pos (by simpa using he), List.map_cons, List.sum_cons, ih,
          List.map_cons, List.sum_cons]
        rfl

/-- What one broker's positions are worth, less their unrealized gain, is what
they cost. -/
theorem positionValue_sub_unrealized (b : PaperExecutionAdapter) (acct : AccountId)
    (mark : OutcomeId → ℚ → ℚ) :
    ((b.accountSnapshot acct).2.map fun (o, qty, avg, _) => mark o avg * qty).sum =
      ((b.accountSnapshot acct).2.map fun (o, qty, avg, _) => (mark o avg - avg) * qty).sum +
        (b.account acct).costBasis := by
  rw [sum_accountSnapshot b acct (g := fun o qty avg => mark o avg * qty) (by simp),
    sum_accountSnapshot b acct (g := fun o qty avg => (mark o avg - avg) * qty) (by simp),
    AccountState.costBasis, ← Dict.sumBy_add]
  congr 1
  funext o qty
  ring

/-- **Equity without the marks**: equity less unrealized gain is cash and the
cost of what is held, whatever the book says. -/
theorem accountEquity_equity (brokers : Dict VenueId PaperExecutionAdapter) (book : QuoteBook)
    (clock : VenueId → OutcomeId → ℚ) (acct : AccountId) :
    (accountEquity brokers book clock acct).equity =
      (brokers.sumBy fun _ b => b.cash acct + (b.account acct).costBasis) +
        (accountEquity brokers book clock acct).unrealized := by
  have hpos : (brokers.sumBy fun v b =>
      ((b.accountSnapshot acct).2.map fun (o, qty, avg, _) =>
        markOf book (clock v o) o avg * qty).sum) =
      brokers.sumBy fun v b =>
        ((b.accountSnapshot acct).2.map fun (o, qty, avg, _) =>
          (markOf book (clock v o) o avg - avg) * qty).sum + (b.account acct).costBasis := by
    congr 1
    funext v b
    exact positionValue_sub_unrealized b acct fun o avg => markOf book (clock v o) o avg
  simp only [accountEquity]
  rw [hpos, Dict.sumBy_add, Dict.sumBy_add]
  simp only [PaperExecutionAdapter.accountSnapshot, PaperExecutionAdapter.cash]
  ring

end Arbys
