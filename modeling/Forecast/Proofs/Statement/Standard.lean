import Forecast.Proofs.Statement.Balance
import Forecast.Proofs.Statement.Totals

/-!
# Standard statements

The standard template is ordered, and its balance check consists of the
movements of assets less those of liabilities and equity. Every channel of a
standard type reaches them with signs that cancel, but for the loans, whose
channels cancel together. Every item with children is matched by a total.
-/

namespace Forecast

namespace Template

/-- The movements of assets: of cash, and of what else the balance sheet has. -/
def standardAssets : List (Sign × String) :=
  [(.plus, "cash.ops.in.sales"), (.plus, "cash.ops.in.other"), (.minus, "cash.ops.out.cogs"),
    (.minus, "cash.ops.out.opex"), (.minus, "cash.ops.out.other"),
    (.plus, "cash.invest.in.assetSale"), (.minus, "cash.invest.out.capex"),
    (.plus, "cash.finance.in.equity"), (.plus, "cash.finance.in.debt"),
    (.minus, "cash.finance.out.dividends"), (.minus, "cash.finance.out.debtRepay"),
    (.plus, "balance.assets.current.ar"), (.plus, "balance.assets.current.inventory"),
    (.plus, "balance.assets.current.other"), (.plus, "balance.assets.fixed.ppe"),
    (.plus, "balance.assets.fixed.intangible")]

/-- The movements of liabilities and equity, taken off: of debts, shares and net income. -/
def standardClaims : List (Sign × String) :=
  [(.minus, "balance.liabilities.current.ap"), (.minus, "balance.liabilities.current.accrued"),
    (.minus, "balance.liabilities.current.debtShort"),
    (.minus, "balance.liabilities.longTerm.debt"),
    (.minus, "balance.equity.share"), (.minus, "pnl.revenue.new"), (.minus, "pnl.revenue.recur"),
    (.plus, "pnl.cogs.direct"), (.plus, "pnl.opex.sm"), (.plus, "pnl.opex.ga"),
    (.plus, "pnl.opex.rd"), (.plus, "pnl.da"), (.minus, "pnl.otherIncome"),
    (.plus, "pnl.otherExpenses"), (.plus, "pnl.interest"), (.plus, "pnl.tax")]

/-- What there is to compute on the texts of the standard template. It stands in one theorem since
all parts look at the same codes and formulas, and taking these apart is most of the work. -/
theorem standard_computed :
    (standard.items.map (·.code)).Nodup ∧
      (let items := standard.items.map fun i => (i.code, i)
       StatementsOrdered items standard.items [] (standard.statements.map (·.2.items)) ∧
         movements? items standard.items "balance.assets.total" = some standardAssets ∧
         movements? items standard.items "balance.check" = some (standardAssets ++ standardClaims) ∧
         sums? items "balance.check" =
           some [(.plus, "balance.assets.total"), (.minus, "balance.total")] ∧
         sums? items "balance.total" =
           some [(.plus, "balance.liabilities.total"), (.plus, "balance.equity.total")] ∧
         Paired items standard.items) ∧
      (∀ u ∈ standardAssets ++ standardClaims, u.2 ∈ standard.items.map (·.code)) ∧
      ∀ code ∈ ["balance.check", "balance.assets.total", "balance.liabilities.total",
        "balance.equity.total"], code ∈ standard.items.map (·.code) := by
  decide +kernel

theorem standard_distinct : (standard.items.map (·.code)).Nodup :=
  standard_computed.1

theorem standard_ordered : standard.Ordered := by
  unfold Ordered
  rw [byCode_of_distinct standard_distinct]
  exact standard_computed.2.1.1

theorem standard_assets :
    movements? standard.byCode standard.items "balance.assets.total" = some standardAssets := by
  rw [byCode_of_distinct standard_distinct]
  exact standard_computed.2.1.2.1

theorem standard_movements :
    movements? standard.byCode standard.items "balance.check" =
      some (standardAssets ++ standardClaims) := by
  rw [byCode_of_distinct standard_distinct]
  exact standard_computed.2.1.2.2.1

theorem standard_check :
    sums? standard.byCode "balance.check" =
      some [(.plus, "balance.assets.total"), (.minus, "balance.total")] := by
  rw [byCode_of_distinct standard_distinct]
  exact standard_computed.2.1.2.2.2.1

theorem standard_total :
    sums? standard.byCode "balance.total" =
      some [(.plus, "balance.liabilities.total"), (.plus, "balance.equity.total")] := by
  rw [byCode_of_distinct standard_distinct]
  exact standard_computed.2.1.2.2.2.2.1

theorem standard_paired : Paired standard.byCode standard.items := by
  rw [byCode_of_distinct standard_distinct]
  exact standard_computed.2.1.2.2.2.2.2

theorem standard_known :
    ∀ u ∈ standardAssets ++ standardClaims, u.2 ∈ standard.items.map (·.code) :=
  standard_computed.2.2.1

end Template

/-- What a loan's channel changes the balance check by. -/
def debtWeight (kind channel : String) : Int :=
  if kind = "FundDebt" then
    if channel = "raised" then 1
    else if channel = "repaid" then -1
    else if channel = "debtMove" then -1
    else 0
  else 0

theorem standard_channels :
    ∀ e ∈ Schema.standard, ∀ c ∈ e.2.channels,
      weight (Template.standardAssets ++ Template.standardClaims) c.2.destinations =
        debtWeight e.1 c.1 := by
  decide +kernel

end Forecast
