import Arbys.DecimalOps
import Arbys.Movement

/-!
# A restart reads back what is stored

Two facts meet here. Hydrating fresh brokers reads every balance and position
of the account back from its row (`hydratedIn`), and in a run whose writes all
land the rows read as the brokers do (`Mirror`), because each operation writes
the balance it leaves and the row of the one outcome it moved. Neither depends
on what the arithmetic rounds. The total realized P&L has no row of its own: a
start adds the rows up, in the order the query lists them, where the running
process added what it booked, in the order it booked it. The two sums are one
wherever nothing is rounded as it is added (`RealizesExactly`,
`SumsExactly`).
-/

namespace Arbys

open AccountState PaperExecutionAdapter PaperSystem RelativeError

/-- An outcome of an account, as its row would hold it. -/
def AccountState.row (st : AccountState) (o : OutcomeId) : PositionRow :=
  ⟨st.qty o, st.avg o, st.realizedOn o, st.openFees o⟩

theorem AccountState.Movement.row_off {v : VenueId} {o : OutcomeId} {st st' : AccountState}
    {dCash dRealized qty' avg' fees' : ℚ}
    (m : Movement v o st st' dCash dRealized qty' avg' fees') {j : OutcomeId} (hj : j ≠ o) :
    st'.row j = st.row j := by
  rw [row, m.qty_off j hj, m.avg_off j hj, m.realizedOn_off j hj, m.openFees_off j hj, ← row]

theorem AccountState.Elsewhere.row_off {v : VenueId} {o : OutcomeId} {st st' : AccountState}
    (h : Elsewhere v o st st') {j : OutcomeId} (hj : j ≠ o) : st'.row j = st.row j := by
  obtain ⟨hqty, havg, hfees, hrealized⟩ := h.reads hj
  rw [row, row, hqty, havg, hfees, hrealized]

/-- The stored rows read as the brokers do. -/
structure Mirror (acct : AccountId) (b : Brokers) (db : Db) : Prop where
  cash : ∀ v a, b.get? v = some a → db.balances.get? (acct, v) = some (a.cash acct)
  row : ∀ v a, b.get? v = some a → ∀ o,
    db.positions.getD (acct, v, o) {} = (a.account acct).row o

/-! ## Sums that do not round -/

/-- An amount that neither the total nor its outcome's entry rounds when it is
added. -/
def AccountState.RealizesExactly (ctx : Context) (st : AccountState) (o : OutcomeId)
    (gain : ℚ) : Prop :=
  ctx (st.realizedPnl + gain) = st.realizedPnl + gain ∧
    ctx (st.realizedOn o + gain) = st.realizedOn o + gain

instance (ctx : Context) (st : AccountState) (o : OutcomeId) (gain : ℚ) :
    Decidable (st.RealizesExactly ctx o gain) :=
  inferInstanceAs (Decidable (_ ∧ _))

/-- Amounts added one after another without a rounding. -/
def SumsExactly (ctx : Context) : ℚ → List ℚ → Prop
  | _, [] => True
  | sum, x :: xs => ctx (sum + x) = sum + x ∧ SumsExactly ctx (sum + x) xs

instance decidableSumsExactly (ctx : Context) :
    ∀ (sum : ℚ) (xs : List ℚ), Decidable (SumsExactly ctx sum xs)
  | _, [] => isTrue trivial
  | sum, x :: xs =>
      have := decidableSumsExactly ctx (sum + x) xs
      inferInstanceAs (Decidable (ctx (sum + x) = sum + x ∧ SumsExactly ctx (sum + x) xs))

theorem sumsExactly_exact (sum : ℚ) (xs : List ℚ) : SumsExactly .exact sum xs := by
  induction xs generalizing sum with
  | nil => trivial
  | cons x xs ih => exact ⟨rfl, ih _⟩

/-- The total realized P&L is that of the outcomes. -/
def AccountState.Summed (st : AccountState) : Prop := st.realizedPnl = st.realizedSum

theorem AccountState.Summed.of_eq {st st' : AccountState} (h : st.Summed)
    (htotal : st'.realizedPnl = st.realizedPnl)
    (hon : st'.realizedByOutcome = st.realizedByOutcome) : st'.Summed := by
  rw [Summed, realizedSum, htotal, hon]
  exact h

/-- An amount added to the total and to one outcome keeps it so. -/
theorem AccountState.Summed.add {st st' : AccountState} (h : st.Summed) (o : OutcomeId)
    (gain : ℚ) (htotal : st'.realizedPnl = st.realizedPnl + gain)
    (hon : st'.realizedOn o = st.realizedOn o + gain)
    (hoff : ∀ j, j ≠ o → st'.realizedOn j = st.realizedOn j) : st'.Summed := by
  have hsum := Dict.sumBy_sub_sumBy (d := st'.realizedByOutcome) (e := st.realizedByOutcome)
    (f := fun _ r => r) (g := fun _ r => r) o fun j hj => by
      rw [contrib_realizedSum, contrib_realizedSum, hoff j hj]
  rw [contrib_realizedSum, contrib_realizedSum, hon] at hsum
  simp only [Summed, realizedSum] at h ⊢
  linarith

/-! ## Hydration -/

section Hydration

variable {acct : AccountId} {v : VenueId}

/-- What hydration keeps of a broker. -/
structure SameBroker (a a' : PaperExecutionAdapter) : Prop where
  venueId : a'.venueId = a.venueId
  fees : a'.fees = a.fees
  slippageBps : a'.slippageBps = a.slippageBps

theorem SameBroker.trans {a a' a'' : PaperExecutionAdapter} (h : SameBroker a a')
    (h' : SameBroker a' a'') : SameBroker a a'' :=
  ⟨h'.venueId.trans h.venueId, h'.fees.trans h.fees, h'.slippageBps.trans h.slippageBps⟩

theorem SameBroker.refl (a : PaperExecutionAdapter) : SameBroker a a := ⟨rfl, rfl, rfl⟩

theorem account_hydrateBalance (a : PaperExecutionAdapter) (amount : ℚ) :
    (a.hydrateBalance acct amount).account acct =
      { a.account acct with balances := (a.account acct).balances.set a.venueId amount } := by
  rw [hydrateBalance, account_setAccount, if_pos rfl]

theorem cash_hydrateBalance (a : PaperExecutionAdapter) (amount : ℚ) :
    (a.hydrateBalance acct amount).cash acct = amount := by
  rw [PaperExecutionAdapter.cash, account_hydrateBalance]
  exact Dict.getD_set_self ..

/-- **Balances**: each venue holds what its row says, or what it held; the
rest of the account is not touched. -/
theorem get?_hydrateBalances (acct : AccountId) {rows : List ((AccountId × VenueId) × ℚ)}
    (hrows : (rows.map Prod.fst).Nodup) {b : Brokers} {a : PaperExecutionAdapter}
    (ha : b.get? v = some a) :
    ∃ a', (hydrateBalances acct b rows).get? v = some a' ∧ SameBroker a a' ∧
      a'.cash acct = ((Dict.find (acct, v) rows).getD (a.cash acct)) ∧
      ∃ balances, a'.account acct = { a.account acct with balances := balances } := by
  induction rows generalizing b a with
  | nil => exact ⟨a, ha, .refl a, rfl, _, rfl⟩
  | cons row rows ih =>
      obtain ⟨hrow, hrest⟩ := List.nodup_cons.mp hrows
      obtain ⟨⟨j, w⟩, amount⟩ := row
      by_cases hkey : (j, w) = (acct, v)
      · -- the row of this venue, written here and by no row after it
        cases hkey
        have hb : (b.modify v fun a => a.hydrateBalance acct amount).get? v =
            some (a.hydrateBalance acct amount) := by
          have := b.get?_modify v v (f := fun a => a.hydrateBalance acct amount) fun _ => rfl
          rw [if_pos rfl, ha] at this
          exact this
        obtain ⟨a', ha', hsame, hcash, balances, hacct⟩ := ih hrest hb
        have hnone : Dict.find (acct, v) rows = none := by
          rw [← Option.not_isSome_iff_eq_none, Dict.find_isSome_iff]
          exact hrow
        rw [hnone, Option.getD_none, cash_hydrateBalance] at hcash
        refine ⟨a', ?_, ⟨hsame.venueId, hsame.fees, hsame.slippageBps⟩, ?_, balances, ?_⟩
        · simpa only [hydrateBalances, List.foldl_cons, if_true] using ha'
        · simpa only [Dict.find, if_true, Option.getD_some] using hcash
        · rw [hacct, account_hydrateBalance]
      · have hfind : Dict.find (acct, v) (((j, w), amount) :: rows) =
            Dict.find (acct, v) rows := by
          rw [Dict.find, if_neg hkey]
        rw [hfind]
        by_cases hj : j = acct
        · have hw : v ≠ w := fun hw => hkey (by rw [hj, hw])
          have hb : (b.modify w fun a => a.hydrateBalance acct amount).get? v = some a := by
            have := b.get?_modify w v (f := fun a => a.hydrateBalance acct amount) fun _ => rfl
            rw [if_neg hw, ha] at this
            exact this
          obtain ⟨a', ha', hrest'⟩ := ih hrest hb
          exact ⟨a', by simpa only [hydrateBalances, List.foldl_cons, if_pos hj] using ha', hrest'⟩
        · obtain ⟨a', ha', hrest'⟩ := ih hrest ha
          exact ⟨a', by simpa only [hydrateBalances, List.foldl_cons, if_neg hj] using ha', hrest'⟩

/-- A hydrated position reads as its row, and no other one changes. -/
theorem row_hydratePositionIn (ctx : Context) (acct : AccountId) (a : PaperExecutionAdapter)
    (o j : OutcomeId) (row : PositionRow) :
    ((a.hydratePositionIn ctx acct o row.qty row.avgPrice row.realizedPnl
      row.openFees).account acct).row j = if j = o then row else (a.account acct).row j := by
  rw [hydratePositionIn, account_setAccount, if_pos rfl]
  by_cases hj : j = o
  · subst hj
    simp [AccountState.row, AccountState.qty, avg, realizedOn, openFees]
  · simp [AccountState.row, AccountState.qty, avg, realizedOn, openFees, hj,
      Dict.getD_set_ne _ hj]

/-- The realized P&L of each row of the account on a venue, in the order of the
rows. -/
def realizedRows (acct : AccountId) (v : VenueId)
    (rows : List ((AccountId × VenueId × OutcomeId) × PositionRow)) : List ℚ :=
  (rows.filter fun e => e.1.1 = acct ∧ e.1.2.1 = v).map fun e => e.2.realizedPnl

/-- What the rows make of a broker: each outcome of the venue reads as its row,
or as it did; the total has the rows added to it one by one, and is their sum
if it was and nothing is rounded. Cash is not touched. -/
structure HydratedFrom (ctx : Context) (acct : AccountId) (v : VenueId)
    (rows : List ((AccountId × VenueId × OutcomeId) × PositionRow))
    (a a' : PaperExecutionAdapter) : Prop where
  same : SameBroker a a'
  cash : a'.cash acct = a.cash acct
  row : ∀ o, (a'.account acct).row o =
    (Dict.find (acct, v, o) rows).getD ((a.account acct).row o)
  total : (a'.account acct).realizedPnl =
    sumUp ctx (a.account acct).realizedPnl (realizedRows acct v rows)
  summed : (a.account acct).Summed →
    SumsExactly ctx (a.account acct).realizedPnl (realizedRows acct v rows) →
      (a'.account acct).Summed

namespace HydratedFrom

variable {ctx : Context} {rows : List ((AccountId × VenueId × OutcomeId) × PositionRow)}
  {a a' : PaperExecutionAdapter} {o : OutcomeId} {row : PositionRow}

/-- A row of another account, or of another broker. -/
theorem other (h : HydratedFrom ctx acct v rows a a') {k : AccountId × VenueId × OutcomeId}
    (hkey : ¬ (k.1 = acct ∧ k.2.1 = v)) : HydratedFrom ctx acct v ((k, row) :: rows) a a' := by
  have hfind : ∀ o, Dict.find (acct, v, o) ((k, row) :: rows) = Dict.find (acct, v, o) rows := by
    intro o
    have hne : ¬ k = (acct, v, o) := fun he => hkey (by rw [he]; exact ⟨rfl, rfl⟩)
    rw [Dict.find, if_neg hne]
  have hlist : realizedRows acct v ((k, row) :: rows) = realizedRows acct v rows := by
    simp [realizedRows, hkey]
  refine ⟨h.same, h.cash, fun o => ?_, ?_, fun hsummed hexact => ?_⟩
  · rw [hfind]
    exact h.row o
  · rw [hlist]
    exact h.total
  · rw [hlist] at hexact
    exact h.summed hsummed hexact

/-- A row of this broker, on an outcome that had nothing realized and that no
row after it is of. -/
theorem own
    (h : HydratedFrom ctx acct v rows
      (a.hydratePositionIn ctx acct o row.qty row.avgPrice row.realizedPnl row.openFees) a')
    (hrow : (acct, v, o) ∉ rows.map Prod.fst) (hzero : (a.account acct).realizedOn o = 0) :
    HydratedFrom ctx acct v (((acct, v, o), row) :: rows) a a' := by
  have hread := fun j => row_hydratePositionIn ctx acct a o j row
  have htotal : ((a.hydratePositionIn ctx acct o row.qty row.avgPrice row.realizedPnl
      row.openFees).account acct).realizedPnl =
        ctx ((a.account acct).realizedPnl + row.realizedPnl) := by
    simp only [hydratePositionIn, account_setAccount, if_true]
  have hlist : realizedRows acct v (((acct, v, o), row) :: rows) =
      row.realizedPnl :: realizedRows acct v rows := by
    simp [realizedRows]
  refine ⟨⟨h.same.venueId, h.same.fees, h.same.slippageBps⟩, ?_, fun j => ?_, ?_,
    fun hsummed hexact => ?_⟩
  · rw [h.cash]
    simp only [PaperExecutionAdapter.cash, hydratePositionIn, account_setAccount, if_true]
    rfl
  · rw [h.row j, hread j]
    by_cases hj : j = o
    · subst hj
      have hnone : Dict.find (acct, v, j) rows = none := by
        rw [← Option.not_isSome_iff_eq_none, Dict.find_isSome_iff]
        exact hrow
      simp [hnone, Dict.find]
    · have hne : ¬ (acct, v, o) = (acct, v, j) := by simp [Ne.symm hj]
      rw [if_neg hj, Dict.find, if_neg hne]
  · rw [hlist, h.total, htotal]
    rfl
  · rw [hlist] at hexact
    have hstep := htotal.trans hexact.1
    have hrest := h.summed
    rw [hstep] at hrest
    refine hrest (hsummed.add o row.realizedPnl hstep ?_ fun j hj => ?_) hexact.2
    · have hon := congrArg PositionRow.realizedPnl (hread o)
      rw [if_pos rfl] at hon
      rw [hzero, zero_add]
      exact hon
    · have hoff := congrArg PositionRow.realizedPnl (hread j)
      rw [if_neg hj] at hoff
      exact hoff

end HydratedFrom

/-- **Positions**: the rows are gone through one by one, each on its broker. -/
theorem get?_hydratePositionsIn (ctx : Context)
    {rows : List ((AccountId × VenueId × OutcomeId) × PositionRow)}
    (hrows : (rows.map Prod.fst).Nodup) {b : Brokers} {a : PaperExecutionAdapter}
    (ha : b.get? v = some a)
    (hzero : ∀ o, (acct, v, o) ∈ rows.map Prod.fst → (a.account acct).realizedOn o = 0) :
    ∃ a', (hydratePositionsIn ctx acct b rows).get? v = some a' ∧
      HydratedFrom ctx acct v rows a a' := by
  induction rows generalizing b a with
  | nil => exact ⟨a, ha, .refl a, rfl, fun _ => rfl, rfl, fun h _ => h⟩
  | cons row rows ih =>
      obtain ⟨hrow, hrest⟩ := List.nodup_cons.mp hrows
      obtain ⟨⟨j, w, o⟩, row⟩ := row
      have hzero' : ∀ o', (acct, v, o') ∈ rows.map Prod.fst →
          (a.account acct).realizedOn o' = 0 := fun o' ho' =>
        hzero o' (List.mem_cons_of_mem _ ho')
      by_cases hkey : j = acct ∧ w = v
      · obtain ⟨rfl, rfl⟩ := hkey
        have hb := b.get?_modify w w (f := fun a => a.hydratePositionIn ctx j o row.qty
          row.avgPrice row.realizedPnl row.openFees) fun _ => rfl
        rw [if_pos rfl, ha, Option.map_some] at hb
        obtain ⟨a', ha', hafter⟩ := ih hrest hb fun o' ho' => by
          have hne : o' ≠ o := fun he => hrow (he ▸ ho')
          have hread := congrArg PositionRow.realizedPnl (row_hydratePositionIn ctx j a o o' row)
          rw [if_neg hne] at hread
          exact hread.trans (hzero' o' ho')
        refine ⟨a', ?_, hafter.own hrow (hzero o List.mem_cons_self)⟩
        simpa only [hydratePositionsIn, List.foldl_cons, if_true] using ha'
      · have hb : (if j = acct then b.modify w fun a => a.hydratePositionIn ctx acct o row.qty
            row.avgPrice row.realizedPnl row.openFees else b).get? v = some a := by
          split
          · rename_i hj
            have hget := b.get?_modify w v (f := fun a => a.hydratePositionIn ctx acct o row.qty
              row.avgPrice row.realizedPnl row.openFees) fun _ => rfl
            rw [if_neg fun hw => hkey ⟨hj, hw.symm⟩, ha] at hget
            exact hget
          · exact ha
        obtain ⟨a', ha', hafter⟩ := ih hrest hb hzero'
        exact ⟨a', ha', hafter.other hkey⟩

/-- **Seeding**: a venue with a stored balance is left alone; any other of the
list ends with the starting balance, in memory and stored. -/
theorem seedBalances_get? (acct : AccountId) (stored : Dict (AccountId × VenueId) ℚ)
    (venues : List VenueId) {b : Brokers} (db : Db) {a : PaperExecutionAdapter} (ha : b.get? v = some a) :
    let r := seedBalances acct stored venues (b, db)
    r.2.positions = db.positions ∧ ∃ a', r.1.get? v = some a' ∧ SameBroker a a' ∧
      (∃ balances, a'.account acct = { a.account acct with balances := balances }) ∧
      ((stored.get? (acct, v)).isSome = true →
        a' = a ∧ r.2.balances.get? (acct, v) = db.balances.get? (acct, v)) ∧
      (stored.get? (acct, v) = none →
        (v ∈ venues ∨ a.cash acct = defaultStartingBalance ∧
          db.balances.get? (acct, v) = some defaultStartingBalance) →
        a'.cash acct = defaultStartingBalance ∧
          r.2.balances.get? (acct, v) = some defaultStartingBalance) := by
  -- the induction is on the venues still to seed; a venue seeded stays seeded
  induction venues generalizing b db a with
  | nil =>
      refine ⟨rfl, a, ha, .refl a, ⟨_, rfl⟩, fun _ => ⟨rfl, rfl⟩, fun _ h => ?_⟩
      exact h.resolve_left fun h => by cases h
  | cons w venues ih =>
      simp only [seedBalances]
      by_cases hw : (stored.get? (acct, w)).isSome = true
      · rw [if_pos hw]
        obtain ⟨hpos, a', ha', hsame, hbal, hstored, hseeded⟩ := ih db ha
        refine ⟨hpos, a', ha', hsame, hbal, hstored, fun hnone h => hseeded hnone ?_⟩
        rcases h with h | h
        · rcases List.mem_cons.mp h with rfl | h
          · rw [hnone] at hw
            cases hw
          · exact .inl h
        · exact .inr h
      · rw [if_neg hw]
        have hget := b.get?_modify w v
          (f := fun a => a.hydrateBalance acct defaultStartingBalance) fun _ => rfl
        by_cases hwv : v = w
        · subst hwv
          rw [if_pos rfl, ha] at hget
          obtain ⟨hpos, a', ha', hsame, ⟨balances, hbal⟩, _, hseeded⟩ :=
            ih (db.upsertPaperBalance acct v defaultStartingBalance) hget
          refine ⟨hpos, a', ha', ⟨hsame.venueId, hsame.fees, hsame.slippageBps⟩, ⟨balances, ?_⟩,
            fun h => absurd h hw, fun hnone _ => hseeded hnone (.inr ⟨?_, ?_⟩)⟩
          · rw [hbal, account_hydrateBalance]
          · exact cash_hydrateBalance a defaultStartingBalance
          · exact Dict.get?_set_self ..
        · rw [if_neg hwv, ha] at hget
          have hdb : (db.upsertPaperBalance acct w defaultStartingBalance).balances.get?
              (acct, v) = db.balances.get? (acct, v) :=
            Dict.get?_set_ne _ (by simp [hwv]) _
          obtain ⟨hpos, a', ha', hsame, hbal, hstored, hseeded⟩ :=
            ih (db.upsertPaperBalance acct w defaultStartingBalance) hget
          rw [hdb] at hstored hseeded
          refine ⟨hpos, a', ha', hsame, hbal, hstored, fun hnone h => hseeded hnone ?_⟩
          rcases h with h | h
          · exact .inl ((List.mem_cons.mp h).resolve_left hwv)
          · exact .inr h

/-- A query lists the rows of a table in some order. -/
theorem find_of_perm {db : Db} {rows : List ((AccountId × VenueId × OutcomeId) × PositionRow)}
    (hrows : rows.Perm db.positions.entries) (k : AccountId × VenueId × OutcomeId) :
    Dict.find k rows = db.positions.get? k := by
  have hnodup : (rows.map Prod.fst).Nodup := (hrows.map Prod.fst).nodup_iff.mpr db.positions.nodup
  refine Option.ext fun row => ?_
  rw [Dict.find_eq_some_iff hnodup, hrows.mem_iff]
  exact Dict.mem_entries_iff

/-- **What a start reads back**: the stored balance, or the starting one, stored
by then; every outcome as its row says; and as total realized P&L the rows
added up, which is that of the outcomes where nothing is rounded. -/
theorem hydratedIn (ctx : Context) (acct : AccountId) (b : Brokers) (db : Db)
    {rows : List ((AccountId × VenueId × OutcomeId) × PositionRow)}
    (hrows : rows.Perm db.positions.entries) {a : PaperExecutionAdapter}
    (ha : b.get? v = some a) (hfresh : a.account acct = {}) :
    let r := bootstrapIn ctx acct b db rows
    r.2.positions = db.positions ∧ ∃ a', r.1.get? v = some a' ∧ SameBroker a a' ∧
      a'.cash acct = (db.balances.get? (acct, v)).getD defaultStartingBalance ∧
      r.2.balances.get? (acct, v) = some (a'.cash acct) ∧
      (∀ o, (a'.account acct).row o = db.positions.getD (acct, v, o) {}) ∧
      (a'.account acct).realizedPnl = sumUp ctx 0 (realizedRows acct v rows) ∧
      (SumsExactly ctx 0 (realizedRows acct v rows) → (a'.account acct).Summed) := by
  have hnodup : (rows.map Prod.fst).Nodup := (hrows.map Prod.fst).nodup_iff.mpr db.positions.nodup
  -- balances first, then the rows, then the venues without a stored balance
  obtain ⟨a₁, ha₁, hsame₁, hcash₁, _, hacct₁⟩ :=
    get?_hydrateBalances acct db.balances.nodup ha
  have hrow₁ : ∀ o, (a₁.account acct).row o = {} := fun o => by
    rw [hacct₁, hfresh]
    rfl
  have htotal₁ : (a₁.account acct).realizedPnl = 0 := by rw [hacct₁, hfresh]
  have hsummed₁ : (a₁.account acct).Summed := by
    rw [hacct₁, hfresh]
    rfl
  obtain ⟨a₂, ha₂, hsame₂, hcash₂, hrow₂, hsum₂, hsummed₂⟩ :=
    get?_hydratePositionsIn ctx hnodup ha₁
      (fun o _ => congrArg PositionRow.realizedPnl (hrow₁ o))
  rw [htotal₁] at hsum₂ hsummed₂
  obtain ⟨hpos, a₃, ha₃, hsame₃, ⟨balances, hacct₃⟩, hstored, hseeded⟩ :=
    seedBalances_get? acct db.balances
      (hydratePositionsIn ctx acct (hydrateBalances acct b db.balances.entries)
        rows).adapters.keys db ha₂
  have hrow₃ : ∀ o, (a₃.account acct).row o = db.positions.getD (acct, v, o) {} := fun o => by
    have hkept : (a₃.account acct).row o = (a₂.account acct).row o := by rw [hacct₃]; rfl
    rw [hkept, hrow₂ o, hrow₁ o, find_of_perm hrows]
    rfl
  have hsum₃ : (a₃.account acct).realizedPnl = sumUp ctx 0 (realizedRows acct v rows) := by
    rw [hacct₃]
    exact hsum₂
  have hsummed₃ : SumsExactly ctx 0 (realizedRows acct v rows) → (a₃.account acct).Summed := by
    rw [hacct₃]
    exact hsummed₂ hsummed₁
  refine ⟨hpos, a₃, ha₃, (hsame₁.trans hsame₂).trans hsame₃, ?_, ?_, hrow₃, hsum₃, hsummed₃⟩
  all_goals
    cases hb : db.balances.get? (acct, v) with
    | some amount =>
        obtain ⟨rfl, hdb⟩ := hstored (by rw [hb]; rfl)
        have hcash : a₃.cash acct = amount := by
          rw [hcash₂, hcash₁]
          exact congrArg (fun x => Option.getD x _) hb
        first
          | exact hcash
          | rw [hcash, ← hb]
            exact hdb
    | none =>
        have hmem : v ∈ (hydratePositionsIn ctx acct (hydrateBalances acct b db.balances.entries)
            rows).adapters.keys :=
          Dict.mem_keys_iff.mpr (by
            have : (hydratePositionsIn ctx acct (hydrateBalances acct b db.balances.entries)
              rows).adapters.get? v = some a₂ := ha₂
            rw [this]
            rfl)
        obtain ⟨hcash, hdb⟩ := hseeded hb (.inl hmem)
        first
          | exact hcash
          | rw [hcash]
            exact hdb

/-- Without rounding, in the order of the table. -/
theorem hydrated (acct : AccountId) (b : Brokers) (db : Db) {a : PaperExecutionAdapter}
    (ha : b.get? v = some a) (hfresh : a.account acct = {}) :
    let r := bootstrap acct b db
    r.2.positions = db.positions ∧ ∃ a', r.1.get? v = some a' ∧ SameBroker a a' ∧
      a'.cash acct = (db.balances.get? (acct, v)).getD defaultStartingBalance ∧
      r.2.balances.get? (acct, v) = some (a'.cash acct) ∧
      (∀ o, (a'.account acct).row o = db.positions.getD (acct, v, o) {}) ∧
      (a'.account acct).realizedPnl = (a'.account acct).realizedSum := by
  obtain ⟨hpos, a', ha', hsame, hcash, hstored, hrow, -, hsummed⟩ :=
    hydratedIn .exact acct b db (List.Perm.refl _) ha hfresh
  exact ⟨hpos, a', ha', hsame, hcash, hstored, hrow, hsummed (sumsExactly_exact _ _)⟩

/-- Two brokers that agree on every account but one. -/
def SameOthers (acct : AccountId) (a a' : PaperExecutionAdapter) : Prop :=
  ∀ j, j ≠ acct → a'.account j = a.account j

theorem SameOthers.refl (a : PaperExecutionAdapter) : SameOthers acct a a := fun _ _ => rfl

theorem SameOthers.trans {a a' a'' : PaperExecutionAdapter} (h : SameOthers acct a a')
    (h' : SameOthers acct a' a'') : SameOthers acct a a'' :=
  fun j hj => (h' j hj).trans (h j hj)

/-- Setting the account of one broker. -/
theorem sameOthers_modify (b : Brokers) (v : VenueId) (st : PaperExecutionAdapter → AccountState) :
    b.Related (SameOthers acct) (b.modify v fun a => a.setAccount acct (st a)) := by
  refine Brokers.related_modify .refl b v (fun a j hj => ?_) fun _ => rfl
  rw [account_setAccount, if_neg hj]

/-- **Hydration sets the account it serves** and no other. -/
theorem bootstrapIn_others (ctx : Context) (acct : AccountId) (b : Brokers) (db : Db)
    (rows : List ((AccountId × VenueId × OutcomeId) × PositionRow)) :
    b.Related (SameOthers acct) (bootstrapIn ctx acct b db rows).1 := by
  have hbal := Brokers.Related.foldl (R := SameOthers acct) .refl .trans
    (f := fun b (row : (AccountId × VenueId) × ℚ) =>
      if row.1.1 = acct then b.modify row.1.2 fun a => a.hydrateBalance acct row.2 else b)
    (fun b row => by
      split
      · exact sameOthers_modify b _ _
      · exact .refl .refl b) db.balances.entries b
  have hpos := Brokers.Related.foldl (R := SameOthers acct) .refl .trans
    (f := fun b (row : (AccountId × VenueId × OutcomeId) × PositionRow) =>
      if row.1.1 = acct then
        b.modify row.1.2.1 fun a => a.hydratePositionIn ctx acct row.1.2.2 row.2.qty
          row.2.avgPrice row.2.realizedPnl row.2.openFees
      else b)
    (fun b row => by
      split
      · exact sameOthers_modify b _ _
      · exact .refl .refl b) rows (hydrateBalances acct b db.balances.entries)
  have hseed : ∀ (venues : List VenueId) (s : Brokers × Db),
      s.1.Related (SameOthers acct) (seedBalances acct db.balances venues s).1 := by
    intro venues
    induction venues with
    | nil => exact fun s => .refl .refl s.1
    | cons v venues ih =>
        intro s
        refine Brokers.Related.trans .trans ?_ (ih _)
        split
        · exact .refl .refl s.1
        · exact sameOthers_modify s.1 _ _
  exact Brokers.Related.trans .trans hbal
    (Brokers.Related.trans .trans hpos (hseed _ (_, db)))

theorem bootstrap_others (acct : AccountId) (b : Brokers) (db : Db) :
    b.Related (SameOthers acct) (bootstrap acct b db).1 :=
  bootstrapIn_others .exact acct b db db.positions.entries

/-- A restart has the brokers it had. -/
theorem bootstrap_eq_none (b : Brokers) (db : Db) :
    (bootstrap acct b db).1.get? v = none ↔ b.get? v = none :=
  (bootstrap_others acct b db).eq_none_iff v

/-- Seeding stores balances only. -/
theorem bootstrap_tables (b : Brokers) (db : Db) :
    (bootstrap acct b db).2.positions = db.positions ∧
      (bootstrap acct b db).2.settlements = db.settlements := by
  have hseed : ∀ (venues : List VenueId) (s : Brokers × Db),
      (seedBalances acct db.balances venues s).2.positions = s.2.positions ∧
        (seedBalances acct db.balances venues s).2.settlements = s.2.settlements := by
    intro venues
    induction venues with
    | nil => exact fun s => ⟨rfl, rfl⟩
    | cons v venues ih =>
        intro s
        obtain ⟨hpos, hrows⟩ := ih (if (db.balances.get? (acct, v)).isSome then s
          else (s.1.modify v fun a => a.hydrateBalance acct defaultStartingBalance,
            s.2.upsertPaperBalance acct v defaultStartingBalance))
        refine ⟨hpos.trans ?_, hrows.trans ?_⟩
        · split
          · rfl
          · rfl
        · split
          · rfl
          · rfl
  exact hseed _ (_, db)

theorem get?_fresh (b : Brokers) :
    b.fresh.get? v =
      (b.get? v).map fun a => PaperExecutionAdapter.new v a.fees a.slippageBps :=
  Dict.get?_mapVal ..

/-- **Brokers just hydrated read as the stored rows.** -/
theorem mirror_bootstrapIn (ctx : Context) (acct : AccountId) (v : VenueId) (b : Brokers)
    (db : Db)
    {rows : List ((AccountId × VenueId × OutcomeId) × PositionRow)}
    (hrows : rows.Perm db.positions.entries) :
    Mirror acct (bootstrapIn ctx acct b.fresh db rows).1
        (bootstrapIn ctx acct b.fresh db rows).2 ∧
      (SumsExactly ctx 0 (realizedRows acct v rows) → ∀ a,
        (bootstrapIn ctx acct b.fresh db rows).1.get? v = some a → (a.account acct).Summed) := by
  have hread : ∀ w a', (bootstrapIn ctx acct b.fresh db rows).1.get? w = some a' →
      (bootstrapIn ctx acct b.fresh db rows).2.balances.get? (acct, w) = some (a'.cash acct) ∧
      (∀ o, (bootstrapIn ctx acct b.fresh db rows).2.positions.getD (acct, w, o) {} =
        (a'.account acct).row o) ∧
      (SumsExactly ctx 0 (realizedRows acct w rows) → (a'.account acct).Summed) := by
    intro w a' ha'
    obtain ⟨f, hf, -⟩ := (bootstrapIn_others ctx acct b.fresh db rows).back ha'
    have hempty : f.account acct = {} := by
      rw [get?_fresh] at hf
      obtain ⟨a, -, rfl⟩ := Option.map_eq_some_iff.mp hf
      rfl
    obtain ⟨hpos, a'', ha'', -, -, hcash, hrow, -, hsummed⟩ :=
      hydratedIn ctx acct b.fresh db hrows hf hempty
    rw [ha'] at ha''
    cases ha''
    exact ⟨hcash, fun o => by rw [hpos, hrow o], hsummed⟩
  exact ⟨⟨fun w a ha => (hread w a ha).1, fun w a ha => (hread w a ha).2.1⟩,
    fun hexact a ha => (hread v a ha).2.2 hexact⟩

theorem mirror_bootstrap (b : Brokers) (db : Db) :
    Mirror acct (bootstrap acct b.fresh db).1 (bootstrap acct b.fresh db).2 :=
  (mirror_bootstrapIn .exact acct "" b db (List.Perm.refl _)).1

end Hydration

/-! ## What a settlement and a sweep store -/

theorem onSettled_tables (db : Db) (o : OutcomeId) (value : ℚ) (v : VenueId) (source : String)
    (closed : List (AccountId × ℚ × ℚ × ℚ)) :
    (db.onSettled o value v source closed).balances =
        db.balances.setAll (closed.map fun c => ((c.1, v), c.2.1)) ∧
      (db.onSettled o value v source closed).positions =
        db.positions.setAll (closed.map fun c => ((c.1, v, o), ⟨0, 0, c.2.2.1, c.2.2.2⟩)) ∧
      (db.onSettled o value v source closed).settlements =
        db.settlements ++ [⟨o, value, source⟩] := by
  simp only [Db.onSettled, Db.insertPaperSettlement]
  induction closed generalizing db with
  | nil => exact ⟨rfl, rfl, rfl⟩
  | cons c closed ih => exact ih _

/-- A table keyed by account, written once for each account of a list. -/
theorem setAll_by_account {κ ν σ : Type} [DecidableEq κ] (key : AccountId → κ)
    (hkey : Function.Injective key) {l : List (AccountId × σ)} (hl : (l.map Prod.fst).Nodup)
    (value : AccountId × σ → ν) (d : Dict κ ν) (j : AccountId) :
    (∀ x, (j, x) ∈ l → (d.setAll (l.map fun e => (key e.1, value e))).get? (key j) =
        some (value (j, x))) ∧
      (j ∉ l.map Prod.fst →
        (d.setAll (l.map fun e => (key e.1, value e))).get? (key j) = d.get? (key j)) ∧
      ∀ k, (∀ i, key i ≠ k) →
        (d.setAll (l.map fun e => (key e.1, value e))).get? k = d.get? k := by
  have hkeys : (l.map fun e => (key e.1, value e)).map Prod.fst = (l.map Prod.fst).map key := by
    simp [List.map_map, Function.comp_def]
  refine ⟨fun x hx => ?_, fun hj => ?_, fun k hk => ?_⟩
  · refine Dict.get?_setAll_of_mem (by rw [hkeys]; exact hl.map hkey) ?_
    exact List.mem_map.mpr ⟨(j, x), hx, rfl⟩
  · refine Dict.get?_setAll_of_notMem ?_
    rw [hkeys, List.mem_map]
    rintro ⟨i, hi, he⟩
    exact hj (hkey he ▸ hi)
  · refine Dict.get?_setAll_of_notMem ?_
    rw [hkeys, List.mem_map]
    rintro ⟨i, _, he⟩
    exact hk i he

/-- The accounts that hold an outcome, with what is made of each. -/
theorem mem_holders {σ : Type} (a : PaperExecutionAdapter) (o : OutcomeId)
    (f : AccountState → σ) (j : AccountId) :
    let holders := (a.accounts.entries.filter fun e => e.2.qty o ≠ 0).map fun e => (e.1, f e.2)
    (holders.map Prod.fst).Nodup ∧
      ((a.account j).qty o ≠ 0 → (j, f (a.account j)) ∈ holders) ∧
      ((a.account j).qty o = 0 → j ∉ holders.map Prod.fst) := by
  intro holders
  have hfst : holders.map Prod.fst =
      (a.accounts.entries.filter fun e => e.2.qty o ≠ 0).map Prod.fst := by
    simp [holders, List.map_map, Function.comp_def]
  refine ⟨?_, fun hq => ?_, fun hq hmem => ?_⟩
  · rw [hfst]
    exact (List.filter_sublist.map Prod.fst).nodup a.accounts.nodup
  · cases hg : a.accounts.get? j with
    | none =>
        have hempty : a.account j = {} := Dict.getD_of_get?_none hg {}
        exact absurd (by rw [hempty]; rfl) hq
    | some st =>
        have hst : a.account j = st := Dict.getD_of_get? hg {}
        rw [hst] at hq ⊢
        exact List.mem_map.mpr ⟨(j, st), List.mem_filter.mpr
          ⟨Dict.mem_entries_iff.mpr hg, by simpa using hq⟩, rfl⟩
  · rw [hfst] at hmem
    obtain ⟨⟨i, st⟩, he, rfl⟩ := List.mem_map.mp hmem
    obtain ⟨hent, hne⟩ := List.mem_filter.mp he
    have hst : a.account i = st := Dict.getD_of_get? (Dict.mem_entries_iff.mp hent) {}
    rw [hst] at hq
    exact absurd hq (by simpa using hne)

/-- Closing writes the position rows and nothing else. -/
theorem writeAll_onPosition (db : Db) (scope : AccountId) (o : OutcomeId) (v : VenueId)
    (closed : List (AccountId × ℚ)) :
    let db' := db.writeAll scope (closed.map fun c => .onPosition c.1 o 0 0 c.2 v 0)
    db'.balances = db.balances ∧ db'.settlements = db.settlements ∧
      db'.positions = db.positions.setAll (closed.map fun c => ((c.1, v, o), ⟨0, 0, c.2, 0⟩)) := by
  induction closed generalizing db with
  | nil => exact ⟨rfl, rfl, rfl⟩
  | cons c closed ih => exact ih _

/-- Writing the balance of each venue of a list that has a broker. -/
theorem foldl_upsertPaperBalance {j : AccountId} {b : Brokers} {f : Db → VenueId → Db}
    (hnone : ∀ db v, b.get? v = none → f db v = db)
    (hsome : ∀ db v a, b.get? v = some a → f db v = db.upsertPaperBalance j v (a.cash j))
    (venues : List VenueId) (db : Db) :
    (venues.foldl f db).positions = db.positions ∧
      (venues.foldl f db).settlements = db.settlements ∧
      ∀ i w, (venues.foldl f db).balances.get? (i, w) =
        if i = j ∧ w ∈ venues ∧ (b.get? w).isSome = true then
          (b.get? w).map fun a => a.cash j
        else db.balances.get? (i, w) := by
  induction venues generalizing db with
  | nil => exact ⟨rfl, rfl, fun i w => by simp⟩
  | cons v venues ih =>
      rw [List.foldl_cons]
      cases hb : b.get? v with
      | none =>
          obtain ⟨hpos, hrows, hbal⟩ := ih db
          rw [hnone db v hb]
          refine ⟨hpos, hrows, fun i w => (hbal i w).trans ?_⟩
          by_cases hw : w = v
          · subst hw
            simp [hb]
          · simp [hw]
      | some a =>
          obtain ⟨hpos, hrows, hbal⟩ := ih (db.upsertPaperBalance j v (a.cash j))
          rw [hsome db v a hb]
          refine ⟨hpos, hrows, fun i w => (hbal i w).trans ?_⟩
          simp only [Db.upsertPaperBalance, Dict.get?_set]
          by_cases hw : (i, w) = (j, v)
          · cases hw
            simp [hb]
          · have hne : ¬ (i = j ∧ w = v) := fun h => hw (by rw [h.1, h.2])
            by_cases hi : i = j
            · have : w ≠ v := fun hw => hne ⟨hi, hw⟩
              simp [hi, this]
            · simp [hi]

/-- What a sweep stores: the cash of the touched venues, no position and no
settlement. -/
theorem persistSweep_tables (db : Db) (j : AccountId) (b : Brokers) (moved : List CashTransfer) :
    (db.persistSweep j b moved).positions = db.positions ∧
      (db.persistSweep j b moved).settlements = db.settlements ∧
      ∀ i w, (db.persistSweep j b moved).balances.get? (i, w) =
        if i = j ∧ w ∈ touched moved ∧ (b.get? w).isSome = true then
          (b.get? w).map fun a => a.cash j
        else db.balances.get? (i, w) :=
  foldl_upsertPaperBalance (fun db v hb => by simp only [hb]) (fun db v a hb => by simp only [hb])
    (touched moved) _

/-- What the tables hold after a sweep, persisted or not. -/
theorem sweep_tables (db : Db) (j : AccountId) (b : Brokers) (moved : List CashTransfer) :
    let db' := if moved = [] then db else db.persistSweep j b moved
    db'.positions = db.positions ∧ ∀ i w, db'.balances.get? (i, w) =
      if i = j ∧ w ∈ touched moved ∧ (b.get? w).isSome = true then
        (b.get? w).map fun a => a.cash j
      else db.balances.get? (i, w) := by
  intro db'
  by_cases hm : moved = []
  · have hdb : db' = db := if_pos hm
    rw [hdb]
    refine ⟨rfl, fun i w => ?_⟩
    rw [if_neg]
    simp [touched, hm]
  · have hdb : db' = db.persistSweep j b moved := if_neg hm
    obtain ⟨hpos, _, hbal⟩ := persistSweep_tables db j b moved
    rw [hdb]
    exact ⟨hpos, hbal⟩

/-! ## Every operation keeps the mirror -/

namespace Mirror

variable {acct : AccountId} {b : Brokers} {db db' : Db} {v : VenueId}
  {a a' : PaperExecutionAdapter}

/-- **The step rule**: replacing one broker keeps the mirror when the rows of
its venue are written to match, and no other venue's. -/
theorem put (h : Mirror acct b db) (hv : a'.venueId = v)
    (hcash : db'.balances.get? (acct, v) = some (a'.cash acct))
    (hcash_off : ∀ w, w ≠ v → db'.balances.get? (acct, w) = db.balances.get? (acct, w))
    (hrow : ∀ o, db'.positions.getD (acct, v, o) {} = (a'.account acct).row o)
    (hrow_off : ∀ w o, w ≠ v →
      db'.positions.getD (acct, w, o) {} = db.positions.getD (acct, w, o) {}) :
    Mirror acct (b.put a') db' := by
  have hget : ∀ w c, (b.put a').get? w = some c → (w = v ∧ c = a') ∨ (w ≠ v ∧ b.get? w = some c) := by
    intro w c hc
    rw [Brokers.get?_put, hv] at hc
    split at hc
    · rename_i hw
      cases hc
      exact .inl ⟨hw, rfl⟩
    · rename_i hw
      exact .inr ⟨hw, hc⟩
  constructor
  · intro w c hc
    rcases hget w c hc with ⟨rfl, rfl⟩ | ⟨hw, hc⟩
    · exact hcash
    · rw [hcash_off w hw]
      exact h.cash w c hc
  · intro w c hc o
    rcases hget w c hc with ⟨rfl, rfl⟩ | ⟨hw, hc⟩
    · exact hrow o
    · rw [hrow_off w o hw]
      exact h.row w c hc o

/-- An operation that leaves the account alone, and its rows unwritten. -/
theorem put_same (h : Mirror acct b db) (ha : b.get? v = some a) (hv : a'.venueId = a.venueId)
    (hacct : a'.account acct = a.account acct)
    (hcash : ∀ w, db'.balances.get? (acct, w) = db.balances.get? (acct, w))
    (hrow : ∀ w o, db'.positions.get? (acct, w, o) = db.positions.get? (acct, w, o)) :
    Mirror acct (b.put a') db' := by
  have hav : a'.venueId = v := hv.trans (Brokers.venueId_of_get? ha)
  refine h.put hav ?_ (fun w _ => hcash w) (fun o => ?_)
    (fun w o _ => by rw [Dict.getD, hrow, ← Dict.getD])
  · rw [hcash, h.cash v a ha, PaperExecutionAdapter.cash, PaperExecutionAdapter.cash, hacct, hv]
  · rw [hacct, Dict.getD, hrow, ← Dict.getD, h.row v a ha o]

/-- An operation that moves one outcome of the account, and writes the balance
it leaves and that outcome's row. -/
theorem put_elsewhere (h : Mirror acct b db) (ha : b.get? v = some a)
    (hv : a'.venueId = a.venueId) {o : OutcomeId}
    (he : Elsewhere v o (a.account acct) (a'.account acct))
    (hcash : db'.balances.get? (acct, v) = some (a'.cash acct))
    (hcash_off : ∀ w, w ≠ v → db'.balances.get? (acct, w) = db.balances.get? (acct, w))
    (hrow : db'.positions.get? (acct, v, o) = some ((a'.account acct).row o))
    (hrow_off : ∀ w o', (w, o') ≠ (v, o) →
      db'.positions.get? (acct, w, o') = db.positions.get? (acct, w, o')) :
    Mirror acct (b.put a') db' := by
  refine h.put (hv.trans (Brokers.venueId_of_get? ha)) hcash hcash_off (fun j => ?_)
    (fun w j hw => ?_)
  · by_cases hj : j = o
    · rw [hj]
      exact Dict.getD_of_get? hrow _
    · rw [he.row_off hj, Dict.getD, hrow_off v j (by simp [hj]), ← Dict.getD, h.row v a ha j]
  · rw [Dict.getD, hrow_off w j (by simp [hw]), ← Dict.getD]

end Mirror

section Operations

variable {acct : AccountId} {s : PaperSystem} (ctx : Context)

theorem Mirror.placeOrderIn (h : Mirror acct s.brokers s.db) (scope : AccountId) (v : VenueId)
    (book : QuoteBook) (now : ℚ) (j : AccountId) (o : OutcomeId) (isBuy : Bool) (qty limit : ℚ)
    (ticketId : Option TicketId) :
    let s' := s.onBroker scope v fun a =>
      a.placeOrderIn ctx book now j o isBuy qty limit ticketId
    Mirror acct s'.brokers s'.db := by
  simp only [onBroker]
  cases ha : s.brokers.get? v with
  | none => exact h
  | some a =>
      have hv := Brokers.venueId_of_get? ha
      subst hv
      simp only [PaperExecutionAdapter.placeOrderIn]
      rcases applyFillIn_cases ctx a book now j o isBuy qty limit ticketId with
        ⟨reason, hr⟩ | ⟨px, _, _, hr⟩ <;> rw [hr]
      · exact h.put_same ha rfl rfl (fun _ => rfl) fun _ _ => rfl
      · by_cases hj : j = acct
        · subst hj
          refine h.put_elsewhere ha rfl (o := o) ?_ (Dict.get?_set_self ..) (fun w hw => ?_)
            (Dict.get?_set_self ..) fun w o' hne => ?_
          · rw [account_acceptIn, if_pos rfl]
            exact elsewhere_bookFillIn ctx (a.account j) a.venueId o isBuy qty px _
          · exact Dict.get?_set_ne _ (fun he => hw (congrArg Prod.snd he)) _
          · refine Dict.get?_set_ne _ (fun he => hne ?_) _
            exact congrArg Prod.snd he
        · refine h.put_same ha rfl ?_ (fun w => ?_) fun w o' => ?_
          · rw [account_acceptIn, if_neg (Ne.symm hj)]
          · exact Dict.get?_set_ne _ (by simp [Ne.symm hj]) _
          · exact Dict.get?_set_ne _ (by simp [Ne.symm hj]) _

theorem Mirror.settleOutcomeAsyncIn (h : Mirror acct s.brokers s.db) (scope : AccountId)
    (v : VenueId) (o : OutcomeId) (value : ℚ) (source : String) :
    let s' := s.onBroker scope v fun a => a.settleOutcomeAsyncIn ctx o value source
    Mirror acct s'.brokers s'.db := by
  simp only [onBroker]
  cases ha : s.brokers.get? v with
  | none => exact h
  | some a =>
      have hv := Brokers.venueId_of_get? ha
      subst hv
      obtain ⟨hbal, hpos, _⟩ :=
        onSettled_tables s.db o value a.venueId source (a.closedByIn ctx o value)
      obtain ⟨hnodup, hheld, hflat⟩ := mem_holders a o (fun st =>
        ((st.settleIn ctx a.venueId o value).cash a.venueId,
          (st.settleIn ctx a.venueId o value).realizedOn o,
          (st.settleIn ctx a.venueId o value).openFees o)) acct
      obtain ⟨hb₁, hb₂, hb₃⟩ := setAll_by_account (fun j => (j, a.venueId))
        (fun _ _ he => congrArg Prod.fst he) hnodup (fun c => c.2.1) s.db.balances acct
      obtain ⟨hp₁, hp₂, hp₃⟩ := setAll_by_account (fun j => (j, a.venueId, o))
        (fun _ _ he => congrArg Prod.fst he) hnodup
        (fun c => (⟨0, 0, c.2.2.1, c.2.2.2⟩ : PositionRow)) s.db.positions acct
      have hacct := account_settleAllIn ctx a o value acct
      have hcash_off : ∀ w, w ≠ a.venueId → (s.db.onSettled o value a.venueId source
          (a.closedByIn ctx o value)).balances.get? (acct, w) = s.db.balances.get? (acct, w) :=
        fun w hw => (congrArg (fun d => Dict.get? d (acct, w)) hbal).trans
          (hb₃ _ fun i he => hw (congrArg Prod.snd he).symm)
      have hrow_off : ∀ w o', (w, o') ≠ (a.venueId, o) → (s.db.onSettled o value a.venueId source
          (a.closedByIn ctx o value)).positions.get? (acct, w, o') =
            s.db.positions.get? (acct, w, o') :=
        fun w o' hne => (congrArg (fun d => Dict.get? d (acct, w, o')) hpos).trans
          (hp₃ _ fun i he => hne (congrArg Prod.snd he).symm)
      by_cases hq : (a.account acct).qty o = 0
      · rw [settleIn_of_qty_zero ctx hq] at hacct
        refine h.put_same ha rfl hacct (fun w => ?_) fun w o' => ?_
        · by_cases hw : w = a.venueId
          · subst hw
            exact (congrArg (fun d => Dict.get? d (acct, a.venueId)) hbal).trans (hb₂ (hflat hq))
          · exact hcash_off w hw
        · by_cases hw : (w, o') = (a.venueId, o)
          · cases hw
            exact (congrArg (fun d => Dict.get? d (acct, a.venueId, o)) hpos).trans
              (hp₂ (hflat hq))
          · exact hrow_off w o' hw
      · have he := elsewhere_settleIn ctx (a.account acct) a.venueId o value
        rw [← hacct] at he
        refine h.put_elsewhere ha rfl he ?_ hcash_off ?_ hrow_off
        · refine (congrArg (fun d => Dict.get? d (acct, a.venueId)) hbal).trans
            ((hb₁ _ (hheld hq)).trans ?_)
          rw [← hacct]
          rfl
        · refine (congrArg (fun d => Dict.get? d (acct, a.venueId, o)) hpos).trans
            ((hp₁ _ (hheld hq)).trans ?_)
          have hqty : ((a.settleAllIn ctx o value).account acct).qty o = 0 := by
            rw [hacct, qty_settleIn_self]
          have havg : ((a.settleAllIn ctx o value).account acct).avg o = 0 := by
            rw [hacct, settleIn_of_held ctx a.venueId value hq]
            exact Dict.getD_set_self ..
          show some (⟨0, 0, _, _⟩ : PositionRow) =
            some (((a.settleAllIn ctx o value).account acct).row o)
          rw [AccountState.row, hqty, havg, hacct]

theorem Mirror.closeAlreadySettled (h : Mirror acct s.brokers s.db) (scope : AccountId)
    (v : VenueId) (o : OutcomeId) :
    let s' := s.onBroker scope v fun a => a.closeAlreadySettled o
    Mirror acct s'.brokers s'.db := by
  simp only [onBroker]
  cases ha : s.brokers.get? v with
  | none => exact h
  | some a =>
      have hv := Brokers.venueId_of_get? ha
      subst hv
      obtain ⟨hnodup, hheld, hflat⟩ := mem_holders a o (fun st => st.realizedOn o) acct
      obtain ⟨hbal, _, hpos⟩ := writeAll_onPosition s.db scope o a.venueId
        ((a.accounts.entries.filter fun e => e.2.qty o ≠ 0).map fun e => (e.1, e.2.realizedOn o))
      rw [List.map_map] at hbal hpos
      obtain ⟨hp₁, hp₂, hp₃⟩ := setAll_by_account (fun j => (j, a.venueId, o))
        (fun _ _ he => congrArg Prod.fst he) hnodup
        (fun c => (⟨0, 0, c.2, 0⟩ : PositionRow)) s.db.positions acct
      have hacct := account_closeAlreadySettled a o acct
      by_cases hq : (a.account acct).qty o = 0
      · rw [if_pos hq] at hacct
        refine h.put_same ha rfl hacct (fun w => ?_) fun w o' => ?_
        · exact congrArg (fun d => Dict.get? d (acct, w)) hbal
        · by_cases hw : (w, o') = (a.venueId, o)
          · cases hw
            exact (congrArg (fun d => Dict.get? d (acct, a.venueId, o)) hpos).trans
              (hp₂ (hflat hq))
          · exact (congrArg (fun d => Dict.get? d (acct, w, o')) hpos).trans
              (hp₃ _ fun i he => hw (congrArg Prod.snd he).symm)
      · rw [if_neg hq] at hacct
        have he := elsewhere_closeOut (a.account acct) a.venueId o
        rw [← hacct] at he
        refine h.put_elsewhere ha rfl he ?_ (fun w hw => ?_) ?_ fun w o' hne => ?_
        · -- no balance is written, and none changed
          refine (congrArg (fun d => Dict.get? d (acct, a.venueId)) hbal).trans
            ((h.cash _ a ha).trans (congrArg some ?_))
          rw [PaperExecutionAdapter.cash, PaperExecutionAdapter.cash, hacct]
          rfl
        · exact congrArg (fun d => Dict.get? d (acct, w)) hbal
        · refine (congrArg (fun d => Dict.get? d (acct, a.venueId, o)) hpos).trans
            ((hp₁ _ (hheld hq)).trans ?_)
          rw [hacct]
          simp [AccountState.row, closeOut, AccountState.qty, avg, openFees, realizedOn]
        · exact (congrArg (fun d => Dict.get? d (acct, w, o')) hpos).trans
            (hp₃ _ fun i he => hne (congrArg Prod.snd he).symm)

theorem Mirror.sweepOneIn (h : Mirror acct s.brokers s.db) (minTransfer : ℚ) (j : AccountId) :
    Mirror acct (s.sweepOneIn ctx minTransfer j).brokers (s.sweepOneIn ctx minTransfer j).db := by
  simp only [PaperSystem.sweepOneIn]
  have hmoved := applyTransfersIn_cashMoved ctx j s.brokers
    (planTransfersIn ctx (s.brokers.adapters.mapVal fun _ a => a.cash j) minTransfer)
  generalize hsw : sweepAccountIn ctx s.brokers j minTransfer = swept
  rw [sweepAccountIn] at hsw
  rw [hsw] at hmoved
  obtain ⟨b', moved⟩ := swept
  simp only at hmoved ⊢
  obtain ⟨hpos, hbal⟩ := sweep_tables s.db j b' moved
  generalize (if moved = [] then s.db else s.db.persistSweep j b' moved) = db' at hpos hbal
  have hback : ∀ w a', b'.get? w = some a' →
      ∃ a, s.brokers.get? w = some a ∧ CashMoved j a a' := by
    intro w a' ha'
    have hrel := (hmoved w).2
    rw [ha'] at hrel
    generalize s.brokers.get? w = x at hrel ⊢
    rcases hrel with ⟨hc⟩
    exact ⟨_, rfl, hc⟩
  constructor
  · intro w a' ha'
    obtain ⟨a, ha, hc⟩ := hback w a' ha'
    rw [hbal, ha']
    by_cases hj : acct = j
    · subst hj
      by_cases hw : w ∈ touched moved
      · simp [hw]
      · rw [if_neg fun hm => hw hm.2.1, h.cash w a ha]
        have hsame := (hmoved w).1 hw
        rw [ha', ha] at hsame
        cases hsame
        rfl
    · rw [if_neg fun hm => hj hm.1, h.cash w a ha, PaperExecutionAdapter.cash,
        PaperExecutionAdapter.cash, hc.others acct hj, hc.venueId]
  · intro w a' ha' o
    obtain ⟨a, ha, hc⟩ := hback w a' ha'
    rw [hpos, h.row w a ha o]
    by_cases hj : acct = j
    · subst hj
      obtain ⟨balances, hheld⟩ := hc.held
      rw [hheld]
      rfl
    · rw [hc.others acct hj]

theorem Mirror.sweepOnceIn (h : Mirror acct s.brokers s.db) (minTransfer : ℚ)
    (accountIds : List AccountId) :
    let s' := accountIds.foldl (PaperSystem.sweepOneIn ctx minTransfer) s
    Mirror acct s'.brokers s'.db := by
  induction accountIds generalizing s with
  | nil => exact h
  | cons j accountIds ih => exact ih (h.sweepOneIn ctx minTransfer j)

/-- **The step lemma.** -/
theorem Mirror.stepIn (scope : AccountId) (op : PaperOp) (h : Mirror acct s.brokers s.db) :
    Mirror acct (PaperSystem.stepIn ctx scope s op).brokers
      (PaperSystem.stepIn ctx scope s op).db := by
  cases op with
  | placeOrder v book now j o isBuy qty limit ticketId =>
      exact h.placeOrderIn ctx scope v book now j o isBuy qty limit ticketId
  | settleOutcomeAsync v o value source => exact h.settleOutcomeAsyncIn ctx scope v o value source
  | closeAlreadySettled v o => exact h.closeAlreadySettled scope v o
  | sweepOnce accountIds minTransfer => exact h.sweepOnceIn ctx minTransfer accountIds

end Operations

/-! ## The totals -/

/-- No addition of realized P&L that an operation makes for the account on the
venue rounds: a sale's, or a settlement's of an outcome the account holds. -/
def PaperOp.RealizesExactly (ctx : Context) (acct : AccountId) (v : VenueId) (s : PaperSystem) :
    PaperOp → Prop
  | .placeOrder w book now j o isBuy qty limit _ =>
      w = v → j = acct → isBuy = false → ∀ a ∈ s.brokers.get? v,
        ∀ filled ∈ (a.previewFillIn ctx book now o isBuy qty limit).toOption,
          (a.account acct).RealizesExactly ctx o
            ((a.account acct).saleGain ctx o qty filled.1 (a.fees.fee filled.1 qty false))
  | .settleOutcomeAsync w o value _ =>
      w = v → ∀ a ∈ s.brokers.get? v, (a.account acct).qty o ≠ 0 →
        (a.account acct).RealizesExactly ctx o ((a.account acct).settledGain ctx o value)
  | .closeAlreadySettled .. => True
  | .sweepOnce .. => True

instance (ctx : Context) (acct : AccountId) (v : VenueId) (s : PaperSystem) (op : PaperOp) :
    Decidable (op.RealizesExactly ctx acct v s) :=
  match op with
  | .placeOrder .. => inferInstanceAs (Decidable (_ → _ → _ → ∀ a ∈ _, ∀ filled ∈ _, _))
  | .settleOutcomeAsync .. => inferInstanceAs (Decidable (_ → ∀ a ∈ _, _ → _))
  | .closeAlreadySettled .. => isTrue trivial
  | .sweepOnce .. => isTrue trivial

/-- The account's total on a venue is the sum of its outcomes. -/
def SummedOn (acct : AccountId) (v : VenueId) (b : Brokers) : Prop :=
  ∀ a, b.get? v = some a → (a.account acct).Summed

namespace SummedOn

variable {acct : AccountId} {v : VenueId} {s : PaperSystem} (ctx : Context)

theorem onBroker (h : SummedOn acct v s.brokers) (scope : AccountId) (w : VenueId)
    {op : PaperExecutionAdapter → PaperExecutionAdapter × List SinkEvent}
    (hv : ∀ a, (op a).1.venueId = a.venueId)
    (hop : w = v → ∀ a, s.brokers.get? v = some a → (a.account acct).Summed →
      ((op a).1.account acct).Summed) :
    SummedOn acct v (s.onBroker scope w op).brokers := by
  intro a' ha'
  rw [PaperSystem.onBroker] at ha'
  cases ha : s.brokers.get? w with
  | none =>
      rw [ha] at ha'
      exact h a' ha'
  | some a =>
      simp only [ha, Brokers.get?_put, hv, Brokers.venueId_of_get? ha] at ha'
      split at ha'
      · rename_i hw
        cases ha'
        cases hw
        exact hop rfl a ha (h a ha)
      · exact h a' ha'

theorem placeOrderIn (h : SummedOn acct v s.brokers) (scope : AccountId) {w : VenueId}
    {book : QuoteBook} {now : ℚ} {j : AccountId} {o : OutcomeId} {isBuy : Bool} {qty limit : ℚ}
    {ticketId : Option TicketId}
    (hexact : (PaperOp.placeOrder w book now j o isBuy qty limit ticketId).RealizesExactly ctx
      acct v s) :
    SummedOn acct v (s.onBroker scope w fun a =>
      a.placeOrderIn ctx book now j o isBuy qty limit ticketId).brokers := by
  have hends := fun a : PaperExecutionAdapter =>
    applyFillIn_cases ctx a book now j o isBuy qty limit ticketId
  refine h.onBroker scope w (fun a => ?_) fun hw a ha hs => ?_
  · rcases hends a with ⟨_, hr⟩ | ⟨_, _, _, hr⟩
    · rw [PaperExecutionAdapter.placeOrderIn, hr]
      rfl
    · rw [PaperExecutionAdapter.placeOrderIn, hr]
      rfl
  · rcases hends a with ⟨_, hr⟩ | ⟨px, cost, hpreview, hr⟩
    · rw [PaperExecutionAdapter.placeOrderIn, hr]
      exact hs
    · rw [PaperExecutionAdapter.placeOrderIn, hr, account_acceptIn]
      by_cases hj : acct = j
      · subst hj
        rw [if_pos rfl]
        cases isBuy with
        | true => exact hs.of_eq rfl rfl
        | false =>
            obtain ⟨htotal, hon⟩ := bookFillIn_sell ctx (a.account acct) a.venueId o qty px
              (a.fees.fee px qty false)
            have hfits := hexact hw rfl rfl a ha (px, cost) (by rw [hpreview]; rfl)
            refine hs.add o _ (htotal.trans hfits.1) ?_ fun i hi => ?_
            · rw [realizedOn, hon, Dict.getD_set_self]
              exact hfits.2
            · rw [realizedOn, hon, Dict.getD_set_ne _ hi]
              rfl
      · rw [if_neg hj]
        exact hs

theorem settleOutcomeAsyncIn (h : SummedOn acct v s.brokers) (scope : AccountId) {w : VenueId}
    {o : OutcomeId} {value : ℚ} {source : String}
    (hexact : (PaperOp.settleOutcomeAsync w o value source).RealizesExactly ctx acct v s) :
    SummedOn acct v (s.onBroker scope w fun a =>
      a.settleOutcomeAsyncIn ctx o value source).brokers := by
  refine h.onBroker scope w (fun _ => rfl) fun hw a ha hs => ?_
  rw [PaperExecutionAdapter.settleOutcomeAsyncIn, account_settleAllIn]
  by_cases hq : (a.account acct).qty o = 0
  · rw [settleIn_of_qty_zero ctx hq]
    exact hs
  · have hfits := hexact hw a ha hq
    rw [settleIn_of_held ctx a.venueId value hq]
    refine hs.add o _ hfits.1 ?_ fun i hi => ?_
    · exact (Dict.getD_set_self ..).trans hfits.2
    · exact Dict.getD_set_ne _ hi ..

theorem closeAlreadySettled (h : SummedOn acct v s.brokers) (scope : AccountId) (w : VenueId)
    (o : OutcomeId) :
    SummedOn acct v (s.onBroker scope w fun a => a.closeAlreadySettled o).brokers := by
  refine h.onBroker scope w (fun _ => rfl) fun _ a _ hs => ?_
  rw [account_closeAlreadySettled]
  split
  · exact hs
  · exact hs.of_eq rfl rfl

theorem sweepOneIn (h : SummedOn acct v s.brokers) (minTransfer : ℚ) (j : AccountId) :
    SummedOn acct v (s.sweepOneIn ctx minTransfer j).brokers := by
  intro a' ha'
  have hrel := (applyTransfersIn_cashMoved ctx j s.brokers
    (planTransfersIn ctx (s.brokers.adapters.mapVal fun _ a => a.cash j) minTransfer) v).2
  rw [PaperSystem.sweepOneIn, sweepAccountIn] at ha'
  rw [ha'] at hrel
  cases ha : s.brokers.get? v with
  | none =>
      rw [ha] at hrel
      cases hrel
  | some a =>
      rw [ha] at hrel
      obtain ⟨hc⟩ := hrel
      by_cases hj : acct = j
      · subst hj
        obtain ⟨balances, hheld⟩ := hc.held
        rw [hheld]
        exact (h a ha).of_eq rfl rfl
      · rw [hc.others acct hj]
        exact h a ha

theorem sweepOnceIn (h : SummedOn acct v s.brokers) (minTransfer : ℚ)
    (accountIds : List AccountId) :
    SummedOn acct v (accountIds.foldl (PaperSystem.sweepOneIn ctx minTransfer) s).brokers := by
  induction accountIds generalizing s with
  | nil => exact h
  | cons j accountIds ih => exact ih (h.sweepOneIn ctx minTransfer j)

/-- **The step lemma.** -/
theorem stepIn (scope : AccountId) {op : PaperOp} (h : SummedOn acct v s.brokers)
    (hexact : op.RealizesExactly ctx acct v s) :
    SummedOn acct v (PaperSystem.stepIn ctx scope s op).brokers := by
  cases op with
  | placeOrder w book now j o isBuy qty limit ticketId => exact h.placeOrderIn ctx scope hexact
  | settleOutcomeAsync w o value source => exact h.settleOutcomeAsyncIn ctx scope hexact
  | closeAlreadySettled w o => exact h.closeAlreadySettled scope w o
  | sweepOnce accountIds minTransfer => exact h.sweepOnceIn ctx minTransfer accountIds

end SummedOn

/-! ## The restart -/

/-- **A restart is invisible**, but for what the total rounds. After any run
from brokers just hydrated, hydrating fresh brokers from the rows, in whatever
order they are listed, gives on every venue the cash and every outcome as they
are in memory. The total realized P&L is the rows' added up; it is the total in
memory if neither start nor any operation of the run rounds where it adds to
the total or to an outcome. -/
theorem restart_is_invisible (ctx : Context) (fleet : Brokers) (db : Db)
    (listed : List ((AccountId × VenueId × OutcomeId) × PositionRow))
    (hlisted : listed.Perm db.positions.entries) (ops : List PaperOp) (v : VenueId) :
    let started := bootstrapIn ctx defaultAccountId fleet.fresh db listed
    let s₀ : PaperSystem := ⟨started.1, started.2⟩
    let s := Runs.run (PaperSystem.stepIn ctx defaultAccountId) s₀ ops
    ∀ rows, rows.Perm s.db.positions.entries → ∀ a, s.brokers.get? v = some a →
      ∃ a', (bootstrapIn ctx defaultAccountId s.brokers.fresh s.db rows).1.get? v = some a' ∧
        a'.cash defaultAccountId = a.cash defaultAccountId ∧
        (∀ o, (a'.account defaultAccountId).qty o = (a.account defaultAccountId).qty o ∧
          (a'.account defaultAccountId).avg o = (a.account defaultAccountId).avg o ∧
          (a'.account defaultAccountId).realizedOn o =
            (a.account defaultAccountId).realizedOn o ∧
          (a'.account defaultAccountId).openFees o =
            (a.account defaultAccountId).openFees o) ∧
        a'.realizedPnl defaultAccountId =
          sumUp ctx 0 (realizedRows defaultAccountId v rows) ∧
        (SumsExactly ctx 0 (realizedRows defaultAccountId v listed) →
          Runs.Guarded (PaperSystem.stepIn ctx defaultAccountId)
            (fun s op => op.RealizesExactly ctx defaultAccountId v s) s₀ ops →
          SumsExactly ctx 0 (realizedRows defaultAccountId v rows) →
          a'.realizedPnl defaultAccountId = a.realizedPnl defaultAccountId) := by
  intro started s₀ s rows hrows a ha
  obtain ⟨hmirror₀, hsummed₀⟩ :=
    mirror_bootstrapIn ctx defaultAccountId v fleet db hlisted
  have hmirror : Mirror defaultAccountId s.brokers s.db :=
    Runs.run_inv (I := fun s : PaperSystem => Mirror defaultAccountId s.brokers s.db)
      (fun _ op h => h.stepIn ctx defaultAccountId op) ops hmirror₀
  have hf : s.brokers.fresh.get? v =
      some (PaperExecutionAdapter.new v a.fees a.slippageBps) := by
    rw [get?_fresh, ha]
    rfl
  obtain ⟨_, a', ha', _, hcash, _, hrow, htotal, hsummed⟩ :=
    hydratedIn ctx defaultAccountId s.brokers.fresh s.db hrows hf rfl
  have hread : ∀ o, (a'.account defaultAccountId).row o = (a.account defaultAccountId).row o :=
    fun o => (hrow o).trans (hmirror.row v a ha o)
  refine ⟨a', ha', ?_, fun o => ?_, htotal, fun hstart hrun hend => ?_⟩
  · rw [hcash, hmirror.cash v a ha, Option.getD_some]
  · have hr := hread o
    simp only [AccountState.row, PositionRow.mk.injEq] at hr
    exact hr
  · -- both totals are the sum of the outcomes, and those are the same
    have hmemory : SummedOn defaultAccountId v s.brokers :=
      Runs.Guarded.inv (I := fun s : PaperSystem => SummedOn defaultAccountId v s.brokers)
        (fun _ _ h hok => h.stepIn ctx defaultAccountId hok) hrun (hsummed₀ hstart)
    have hleft : (a'.account defaultAccountId).Summed := hsummed hend
    have hright : (a.account defaultAccountId).Summed := hmemory a ha
    rw [PaperExecutionAdapter.realizedPnl, PaperExecutionAdapter.realizedPnl, hleft, hright]
    refine Dict.sumBy_congr fun o => ?_
    rw [contrib_realizedSum, contrib_realizedSum]
    exact congrArg PositionRow.realizedPnl (hread o)

/-! ## Cent buys -/

namespace CentBuys

/-- A first start with one venue. -/
def fleet : Brokers := Brokers.empty.put (.new "kalshi" .kalshi 0)

def start : PaperSystem :=
  let started := bootstrapIn .default defaultAccountId fleet.fresh {} []
  ⟨started.1, started.2⟩

/-- A price in whole cents. -/
def price (cents : Fin 101) : ℚ := cents.val / 100

theorem price_nonneg (cents : Fin 101) : 0 ≤ price cents :=
  div_nonneg (Nat.cast_nonneg _) (by norm_num)

theorem price_le_one (cents : Fin 101) : price cents ≤ 1 := by
  have hcents : (cents.val : ℚ) ≤ 100 := by exact_mod_cast Nat.le_of_lt_succ cents.isLt
  exact div_le_one_of_le₀ hcents (by norm_num)

theorem price_zero_le (cents : Fin 101) : price 0 ≤ price cents := by
  have hzero : price 0 = 0 := by simp [price]
  rw [hzero]
  exact price_nonneg cents

/-- What is offered at a price, against no bid, with no size reported. -/
def quote (o : OutcomeId) (cents : Fin 101) : Quote where
  outcomeId := o
  bid := price 0
  ask := price cents
  bid_nonneg := price_nonneg 0
  ask_le_one := price_le_one cents
  bid_le_ask := price_zero_le cents

def buy (o : OutcomeId) (qty : ℚ) (cents : Fin 101) : PaperOp :=
  .placeOrder "kalshi" ((QuoteBook.mk Dict.empty (some defaultMaxAgeS)).upsert 0 (quote o cents))
    0 defaultAccountId o true qty (price cents) none

def settle (o : OutcomeId) (value : ℚ) : PaperOp :=
  .settleOutcomeAsync "kalshi" o value "venue"

/-- One market, won. -/
def won : List PaperOp := [buy "A" 10 30, settle "A" 1]

/-- Three markets, settled in another order than that of their rows. What `B`
cost on average, 47/150, is cut off at 28 digits. -/
def outOfOrder : List PaperOp :=
  [buy "A" 1 50, buy "B" 10 30, buy "B" 20 32, buy "C" 3 52, buy "C" 7 60,
    settle "A" 0, settle "C" 1, settle "B" 0]

end CentBuys

open CentBuys in
theorem restart_is_invisible_won :
    let s := Runs.run (PaperSystem.stepIn .default defaultAccountId) start won
    ∃ a a', s.brokers.get? "kalshi" = some a ∧
      (bootstrapIn .default defaultAccountId s.brokers.fresh s.db
        s.db.positions.entries).1.get? "kalshi" = some a' ∧
      a'.realizedPnl defaultAccountId = a.realizedPnl defaultAccountId := by
  intro s
  have hsome : (s.brokers.get? "kalshi").isSome = true := by decide +kernel
  obtain ⟨a, ha⟩ := Option.isSome_iff_exists.mp hsome
  obtain ⟨a', ha', -, -, -, htotal⟩ := restart_is_invisible .default fleet {} []
    (List.Perm.refl _) won "kalshi" s.db.positions.entries (List.Perm.refl _) a ha
  exact ⟨a, a', ha, ha', htotal trivial (by decide +kernel) (by decide +kernel)⟩

open CentBuys in
/-- **The total is not restored** where it rounds: memory adds what it books in
the order of the settlements, the start in the order of the rows. -/
theorem total_not_restored :
    let s := Runs.run (PaperSystem.stepIn .default defaultAccountId) start outOfOrder
    let restarted := (bootstrapIn .default defaultAccountId s.brokers.fresh s.db
      s.db.positions.entries).1
    (s.brokers.get? "kalshi").map (·.realizedPnl defaultAccountId) =
        some (-6299155999999999999999999999 / 10 ^ 27) ∧
      (restarted.get? "kalshi").map (·.realizedPnl defaultAccountId) =
        some (-6299156 / 10 ^ 6) ∧
      (restarted.get? "kalshi").map (·.realizedPnl defaultAccountId) ≠
        (s.brokers.get? "kalshi").map (·.realizedPnl defaultAccountId) := by
  intro s restarted
  have hmemory : (s.brokers.get? "kalshi").map (·.realizedPnl defaultAccountId) =
      some (-6299155999999999999999999999 / 10 ^ 27) := by decide +kernel
  have hstored : (restarted.get? "kalshi").map (·.realizedPnl defaultAccountId) =
      some (-6299156 / 10 ^ 6) := by decide +kernel
  refine ⟨hmemory, hstored, ?_⟩
  rw [hmemory, hstored, ne_eq, Option.some.injEq]
  norm_num

end Arbys
