import Arbys.Types

/-!
# Per-venue fee models

`shared/fees.py`. A fee model is a pure function of price, quantity and side;
every venue charges either nothing or `rate * p * (1 - p)` per contract.
-/

namespace Arbys

structure FeeModel where
  venueId : VenueId
  fee : ℚ → ℚ → Bool → ℚ

/-- `dict[str, FeeModel]`. -/
abbrev FeeModelRegistry := Dict VenueId FeeModel

namespace FeeModel

/-- The shape the taker schedules share: nothing on an empty order, otherwise
`rate * price * (1 - price) * qty`. -/
def taker (venueId : VenueId) (rate : ℚ) : FeeModel where
  venueId := venueId
  fee price qty _ := if qty ≤ 0 then 0 else rate * price * (1 - price) * qty

def zero (venueId : VenueId) : FeeModel := ⟨venueId, fun _ _ _ => 0⟩

def kalshi : FeeModel := taker "kalshi" (7 / 100)

def polymarketUs : FeeModel := taker "polymarket_us" (6 / 100)

def novig : FeeModel := taker "novig" (3 / 100)

/-- The vig is already in the odds. -/
def sportsbook (venueId : VenueId) : FeeModel := zero venueId

/-- Linear in quantity: `fee(N) / N` is the fee of one contract. -/
def Linear (m : FeeModel) : Prop :=
  ∀ price qty isBuy, 0 < qty → m.fee price qty isBuy = qty * m.fee price 1 isBuy

/-- A fill at a price in `[0, 1]` is never paid for trading. -/
def Nonneg (m : FeeModel) : Prop :=
  ∀ price qty isBuy, 0 ≤ price → price ≤ 1 → 0 ≤ m.fee price qty isBuy

theorem zero_linear (v : VenueId) : (zero v).Linear := by
  intro price qty isBuy _
  simp [zero]

theorem zero_nonneg (v : VenueId) : (zero v).Nonneg := fun _ _ _ _ _ => le_refl 0

theorem taker_linear (v : VenueId) (rate : ℚ) : (taker v rate).Linear := by
  intro price qty isBuy hq
  simp only [taker, if_neg (not_le.mpr hq), if_neg (not_le.mpr (zero_lt_one' ℚ))]
  ring

theorem taker_nonneg (v : VenueId) {rate : ℚ} (hr : 0 ≤ rate) : (taker v rate).Nonneg := by
  intro price qty isBuy h0 h1
  simp only [taker]
  split
  · exact le_refl 0
  · rename_i hq
    have hq : 0 ≤ qty := le_of_lt (not_le.mp hq)
    have h1' : 0 ≤ 1 - price := by linarith
    exact mul_nonneg (mul_nonneg (mul_nonneg hr h0) h1') hq

end FeeModel

/-- A registry whose models never pay the taker; the venues the application
registers are of this kind. -/
def FeeModelRegistry.Nonneg (fees : FeeModelRegistry) : Prop :=
  ∀ v m, fees.get? v = some m → m.Nonneg

end Arbys
