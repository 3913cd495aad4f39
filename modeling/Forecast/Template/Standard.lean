import Forecast.Template

/-!
# Standard template

The statements of a model without a template of its own: profit and loss, cash
flow, balance sheet and memo items. In the first two and the last, an item with
children sums them; next to it stands a total computed by a formula.
-/

namespace Forecast.Template

namespace Standard

def leaf (code label : String) (level : Int) : LineItem where
  code := code
  label := some label
  level := level
  sign := .plus
  formula := none
  cumulative := false
  collapsible := false
  children := none

def computed (code label : String) (level : Int) (formula : String) : LineItem :=
  { leaf code label level with formula := some formula }

def parent (code label : String) (level : Int) (children : List String) : LineItem :=
  { leaf code label level with children := some children, collapsible := true }

def subtracted (i : LineItem) : LineItem :=
  { i with sign := .minus }

def running (i : LineItem) : LineItem :=
  { i with cumulative := true }

/-- Revenue and expenses. -/
def profitItems : List LineItem :=
  [parent "pnl.revenue" "Revenue" 1 ["pnl.revenue.new", "pnl.revenue.recur"],
    leaf "pnl.revenue.new" "New Revenue" 2,
    leaf "pnl.revenue.recur" "Recurring Revenue" 2,
    computed "pnl.revenue.total" "Total Revenue" 1 "sum(pnl.revenue.*)",
    subtracted (parent "pnl.cogs" "Cost of Goods Sold" 1 ["pnl.cogs.direct"]),
    leaf "pnl.cogs.direct" "Direct Costs" 2,
    computed "pnl.cogs.total" "Total COGS" 1 "sum(pnl.cogs.*)",
    computed "pnl.grossProfit" "Gross Profit" 0 "pnl.revenue.total - pnl.cogs.total",
    subtracted (parent "pnl.opex" "Operating Expenses" 1
      ["pnl.opex.sm", "pnl.opex.ga", "pnl.opex.rd"]),
    leaf "pnl.opex.sm" "Sales & Marketing" 2,
    leaf "pnl.opex.ga" "General & Administrative" 2,
    leaf "pnl.opex.rd" "Research & Development" 2,
    computed "pnl.opex.total" "Total Operating Expenses" 1 "sum(pnl.opex.*)",
    computed "pnl.ebitda" "EBITDA" 0 "pnl.grossProfit - pnl.opex.total",
    subtracted (leaf "pnl.da" "Depreciation & Amortization" 1),
    computed "pnl.ebit" "EBIT" 0 "pnl.ebitda - pnl.da",
    leaf "pnl.otherIncome" "Other Income" 1,
    subtracted (leaf "pnl.otherExpenses" "Other Expenses" 1),
    subtracted (leaf "pnl.interest" "Interest Expense" 1),
    subtracted (leaf "pnl.tax" "Tax" 1),
    computed "pnl.netIncome" "Net Income" 0
      "pnl.ebit + pnl.otherIncome - pnl.otherExpenses - pnl.interest - pnl.tax"]

/-- Movements of cash. -/
def cashItems : List LineItem :=
  [parent "cash.ops" "Operating Activities" 1 ["cash.ops.in", "cash.ops.out"],
    parent "cash.ops.in" "Cash In" 2 ["cash.ops.in.sales", "cash.ops.in.other"],
    leaf "cash.ops.in.sales" "Sales Collections" 3,
    leaf "cash.ops.in.other" "Other Operating Cash In" 3,
    computed "cash.ops.in.total" "Total Cash In" 2 "sum(cash.ops.in.*)",
    subtracted (parent "cash.ops.out" "Cash Out" 2
      ["cash.ops.out.cogs", "cash.ops.out.opex", "cash.ops.out.other"]),
    leaf "cash.ops.out.cogs" "COGS Payments" 3,
    leaf "cash.ops.out.opex" "Operating Expense Payments" 3,
    leaf "cash.ops.out.other" "Other Operating Cash Out" 3,
    computed "cash.ops.out.total" "Total Cash Out" 2 "sum(cash.ops.out.*)",
    computed "cash.ops.total" "Net Operating Cash Flow" 1 "cash.ops.in.total - cash.ops.out.total",
    parent "cash.invest" "Investing Activities" 1 ["cash.invest.in", "cash.invest.out"],
    parent "cash.invest.in" "Investment Cash In" 2 ["cash.invest.in.assetSale"],
    leaf "cash.invest.in.assetSale" "Asset Sales" 3,
    computed "cash.invest.in.total" "Total Investment Cash In" 2 "sum(cash.invest.in.*)",
    subtracted (parent "cash.invest.out" "Investment Cash Out" 2 ["cash.invest.out.capex"]),
    leaf "cash.invest.out.capex" "Capital Expenditure" 3,
    computed "cash.invest.out.total" "Total Investment Cash Out" 2 "sum(cash.invest.out.*)",
    computed "cash.invest.total" "Net Investing Cash Flow" 1
      "cash.invest.in.total - cash.invest.out.total",
    parent "cash.finance" "Financing Activities" 1 ["cash.finance.in", "cash.finance.out"],
    parent "cash.finance.in" "Financing Cash In" 2
      ["cash.finance.in.equity", "cash.finance.in.debt"],
    leaf "cash.finance.in.equity" "Equity Raised" 3,
    leaf "cash.finance.in.debt" "Debt Raised" 3,
    computed "cash.finance.in.total" "Total Financing Cash In" 2 "sum(cash.finance.in.*)",
    subtracted (parent "cash.finance.out" "Financing Cash Out" 2
      ["cash.finance.out.dividends", "cash.finance.out.debtRepay"]),
    leaf "cash.finance.out.dividends" "Dividends Paid" 3,
    leaf "cash.finance.out.debtRepay" "Debt Repayment" 3,
    computed "cash.finance.out.total" "Total Financing Cash Out" 2 "sum(cash.finance.out.*)",
    computed "cash.finance.total" "Net Financing Cash Flow" 1
      "cash.finance.in.total - cash.finance.out.total",
    computed "cash.netChange" "Net Change in Cash" 0
      "cash.ops.total + cash.invest.total + cash.finance.total",
    running (computed "cash.balance" "Cash Balance" 0 "cash.netChange")]

/-- Assets, liabilities and equity. What a leaf receives is a movement; it reports the balance. -/
def balanceItems : List LineItem :=
  [parent "balance.assets" "Assets" 0 ["balance.assets.current", "balance.assets.fixed"],
    parent "balance.assets.current" "Current Assets" 1
      ["balance.assets.current.cash", "balance.assets.current.ar",
        "balance.assets.current.inventory", "balance.assets.current.other"],
    computed "balance.assets.current.cash" "Cash" 2 "cash.balance",
    running (leaf "balance.assets.current.ar" "Accounts Receivable" 2),
    running (leaf "balance.assets.current.inventory" "Inventory" 2),
    running (leaf "balance.assets.current.other" "Other Current Assets" 2),
    computed "balance.assets.current.total" "Total Current Assets" 1
      ("balance.assets.current.cash + balance.assets.current.ar + " ++
        "balance.assets.current.inventory + balance.assets.current.other"),
    parent "balance.assets.fixed" "Fixed Assets" 1
      ["balance.assets.fixed.ppe", "balance.assets.fixed.intangible"],
    running (leaf "balance.assets.fixed.ppe" "Property, Plant & Equipment" 2),
    running (leaf "balance.assets.fixed.intangible" "Intangible Assets" 2),
    computed "balance.assets.fixed.total" "Total Fixed Assets" 1 "sum(balance.assets.fixed.*)",
    computed "balance.assets.total" "Total Assets" 0
      "balance.assets.current.total + balance.assets.fixed.total",
    parent "balance.liabilities" "Liabilities" 0
      ["balance.liabilities.current", "balance.liabilities.longTerm"],
    parent "balance.liabilities.current" "Current Liabilities" 1
      ["balance.liabilities.current.ap", "balance.liabilities.current.accrued",
        "balance.liabilities.current.debtShort"],
    running (leaf "balance.liabilities.current.ap" "Accounts Payable" 2),
    running (leaf "balance.liabilities.current.accrued" "Accrued Expenses" 2),
    running (leaf "balance.liabilities.current.debtShort" "Short-term Debt" 2),
    computed "balance.liabilities.current.total" "Total Current Liabilities" 1
      "sum(balance.liabilities.current.*)",
    parent "balance.liabilities.longTerm" "Long-term Liabilities" 1
      ["balance.liabilities.longTerm.debt"],
    running (leaf "balance.liabilities.longTerm.debt" "Long-term Debt" 2),
    computed "balance.liabilities.longTerm.total" "Total Long-term Liabilities" 1
      "sum(balance.liabilities.longTerm.*)",
    computed "balance.liabilities.total" "Total Liabilities" 0
      "balance.liabilities.current.total + balance.liabilities.longTerm.total",
    parent "balance.equity" "Equity" 0 ["balance.equity.share", "balance.equity.retained"],
    running (leaf "balance.equity.share" "Share Capital" 1),
    computed "balance.equity.retained" "Retained Earnings" 1 "cumsum(pnl.netIncome)",
    computed "balance.equity.total" "Total Equity" 0
      "balance.equity.share + balance.equity.retained",
    computed "balance.total" "Total Liabilities & Equity" 0
      "balance.liabilities.total + balance.equity.total",
    computed "balance.check" "Balance Check" 0 "balance.assets.total - balance.total"]

/-- Figures outside the main statements. -/
def memoItems : List LineItem :=
  [parent "memo.payroll" "Payroll Costs" 0
      ["memo.payroll.cogs", "memo.payroll.sm", "memo.payroll.ga", "memo.payroll.rd"],
    leaf "memo.payroll.cogs" "COGS Team Payroll" 1,
    leaf "memo.payroll.sm" "Sales & Marketing Team Payroll" 1,
    leaf "memo.payroll.ga" "G&A Team Payroll" 1,
    leaf "memo.payroll.rd" "R&D Team Payroll" 1,
    computed "memo.payroll.total" "Total Payroll" 0 "sum(memo.payroll.*)",
    parent "memo.headcount" "Headcount" 0
      ["memo.headcount.cogs", "memo.headcount.sm", "memo.headcount.ga", "memo.headcount.rd"],
    leaf "memo.headcount.cogs" "COGS Team Headcount" 1,
    leaf "memo.headcount.sm" "Sales & Marketing Team Headcount" 1,
    leaf "memo.headcount.ga" "G&A Team Headcount" 1,
    leaf "memo.headcount.rd" "R&D Team Headcount" 1,
    computed "memo.headcount.total" "Total Headcount" 0 "sum(memo.headcount.*)"]

end Standard

def standard : Template where
  name := "Standard"
  statements :=
    [("pnl", ⟨"pnl", "Profit & Loss", "Revenue and expenses", Standard.profitItems⟩),
      ("cash", ⟨"cash", "Cash Flow", "Cash movements", Standard.cashItems⟩),
      ("balance", ⟨"balance", "Balance Sheet", "Assets, liabilities, and equity",
        Standard.balanceItems⟩),
      ("memo", ⟨"memo", "Memo Items",
        "Items tracked for reporting but not shown in main statements", Standard.memoItems⟩)]

end Forecast.Template
