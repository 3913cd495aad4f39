import Forecast.Proofs.Statement.Collected
import Forecast.Proofs.Statement.Movements
import Mathlib.Algebra.BigOperators.Group.List.Lemmas
import Mathlib.Data.Rat.Cast.Defs

/-!
# Balances of channels

Each channel weighs in a balance as often as it reaches movements of the
balance, with their signs. The balance of a month is the weighted sum of the
channels up to the month; it is zero if no month has a weight left over.
-/

namespace Forecast

def Sign.toInt : Sign → Int
  | .plus => 1
  | .minus => -1

theorem factor_eq_cast (s : Sign) : (Lines.factor s : Rat) = s.toInt := by
  cases s <;> decide +kernel

/-- How often destinations reach movements, with their signs. -/
def weight (moves : List (Sign × String)) (destinations : List String) : Int :=
  (moves.map fun u => u.1.toInt * (destinations.count u.2 : Int)).sum

namespace Financials

variable {schema : Schema} {t : Template} {months m : Nat} {channels : List (ChannelSeries Rat)}
  {c : Collected Rat} {code : String} {moves : List (Sign × String)}

/-- What channels change a balance by in one month. -/
def changeAt (schema : Schema) (moves : List (Sign × String)) (channels : List (ChannelSeries Rat))
    (m : Nat) : Rat :=
  (channels.map fun s => (weight moves (destinations schema s) : Rat) * s.amounts.getD m 0).sum

theorem sum_received (schema : Schema) (channels : List (ChannelSeries Rat)) (code : String)
    (m : Nat) :
    ((received schema channels code).map fun xs => xs.getD m 0).sum =
      (channels.map fun s => ((destinations schema s).count code : Rat) *
        s.amounts.getD m 0).sum := by
  induction channels with
  | nil => rfl
  | cons s channels ih =>
    unfold received at ih ⊢
    rw [List.flatMap_cons, List.map_append, List.sum_append, ih, List.map_replicate,
      List.sum_replicate, nsmul_eq_mul, List.map_cons, List.sum_cons]

theorem Holds.getD_read {codes : List String} (h : Holds codes months (received schema channels) c)
    (fits : ∀ s ∈ channels, s.amounts.length = months) (known : code ∈ codes) (m : Nat) :
    (c.lines.read months code).getD m 0 =
      (channels.map fun s => ((destinations schema s).count code : Rat) *
        s.amounts.getD m 0).sum := by
  have sum :
      ((received schema channels code).foldl Lines.plus (Series.zeros months)).getD m 0 = _ :=
    Lines.getD_foldl_plus (fun xs mem => length_of_mem_received fits mem)
      (Series.length_zeros months) m
  rw [Lines.read, h.sums code known, Option.getD_some, sum, Series.getD_zeros, zero_add,
    sum_received]

/-- Before the statements are computed, a signed sum of codes weighs the channels. -/
theorem Holds.sumAt_eq_change {codes : List String}
    (h : Holds codes months (received schema channels) c)
    (fits : ∀ s ∈ channels, s.amounts.length = months) (known : ∀ u ∈ moves, u.2 ∈ codes)
    (m : Nat) :
    c.lines.sumAt months moves m = changeAt schema moves channels m := by
  unfold changeAt
  induction moves with
  | nil => simp [weight]
  | cons u moves ih =>
    rw [Lines.sumAt_cons, ih fun v hv => known v (by simp [hv]),
      h.getD_read fits (known u (by simp)), ← List.sum_map_mul_left, ← List.sum_map_add]
    congr 1
    apply List.map_congr_left
    intro s _
    simp only [weight, List.map_cons, List.sum_cons, factor_eq_cast]
    push_cast
    ring

/-- The balance of a month is what the channels have changed it by up to the month. -/
theorem Holds.getD_balance (h : Holds (t.items.map (·.code)) months (received schema channels) c)
    (distinct : (t.items.map (·.code)).Nodup) (ordered : t.Ordered)
    (fits : ∀ s ∈ channels, s.amounts.length = months)
    (consists : Template.movements? t.byCode t.items code = some moves)
    (known : ∀ u ∈ moves, u.2 ∈ t.items.map (·.code)) (inside : m < months) :
    ((compute t months c.lines).1.read months code).getD m 0 =
      ∑ k ∈ Finset.range (m + 1), changeAt schema moves channels k := by
  rw [getD_compute_of_balance distinct h.sized_lines inside ordered consists]
  apply Finset.sum_congr rfl
  intro k _
  exact h.sumAt_eq_change fits known k

end Financials
end Forecast
