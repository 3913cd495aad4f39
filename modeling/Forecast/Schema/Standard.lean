import Forecast.Schema

/-!
# Standard object types

The types of objects that a model may use without a schema of its own. Many
types share a function and differ only in the line items their channels reach.
Fields that name a month count from zero.
-/

namespace Forecast.Schema.Standard

/-! ## Fields -/

def series : Supports :=
  { Supports.onlySingle with annual := true, monthly := true, growth := true, smoothing := true }

def seasonalSeries : Supports :=
  { series with seasonal := true, dateRange := true }

def rate : Supports :=
  { Supports.onlySingle with annual := true, monthly := true, smoothing := true }

def number (name label : String) (default : Value) (supports : Supports) (format : String) :
    FieldSpec where
  name := name
  label := some label
  baseType := .number
  format := some format
  default := default
  supports := supports

def startMonth : FieldSpec :=
  number "startMonth" "Start Month" (.int 0) Supports.onlySingle "integer"

/-! ## Channels -/

def plain (label : String) (destinations : List String) : Channel where
  label := some label
  format := none
  destinations := destinations
  hidden := false

def currency (label : String) (destinations : List String) : Channel :=
  { plain label destinations with format := some "currency" }

def opexGA : List String := ["pnl.opex.ga", "cash.ops.out.opex"]
def opexSM : List String := ["pnl.opex.sm", "cash.ops.out.opex"]
def opexRD : List String := ["pnl.opex.rd", "cash.ops.out.opex"]
def otherExpenses : List String := ["pnl.otherExpenses", "cash.ops.out.opex"]
def direct : List String := ["pnl.cogs.direct", "cash.ops.out.cogs"]

/-! ## Types -/

/-- A type whose assumptions all belong to its outputs. -/
def perOutput (function : String) (channels : Entries Channel) (fields : List FieldSpec) :
    ObjectType where
  function := some function
  channels := channels
  objectFields := []
  outputFields := fields

def quant : ObjectType :=
  perOutput "QuantStart" [("val", plain "Value" [])]
    [number "amount" "Monthly Quantity" (.int 10) seasonalSeries "integer", startMonth]

def quantMul : ObjectType :=
  perOutput "Multiply" [("val", plain "Quantity" [])]
    [number "factor" "Multiplier" (.int 1) { series with seasonal := true } "decimal", startMonth]

def quantDiv : ObjectType :=
  perOutput "Divide" [("val", plain "Quantity" [])]
    [number "factor" "Divisor" (.int 1) series "decimal", startMonth]

def cost (destinations : List String) : ObjectType :=
  perOutput "QuantStart" [("cost", currency "Cost" destinations)]
    [number "amount" "Monthly amount" (.int 100) seasonalSeries "currency", startMonth]

def costMul (destinations : List String) : ObjectType :=
  perOutput "Multiply" [("cost", currency "Cost" destinations)]
    [number "factor" "Unit cost" (.int 1) series "currency", startMonth]

def revMul (destinations : List String) : ObjectType :=
  perOutput "Multiply" [("rev", currency "Revenue" destinations)]
    [number "factor" "Price" (.int 1) { series with seasonal := true } "currency", startMonth]

def subRetain : ObjectType :=
  perOutput "SubRetain" [("act", plain "Active Users" []), ("chu", plain "Churned Users" [])]
    [number "churn" "Monthly churn rate" (.float 0.08) rate "percent", startMonth]

def subMth : ObjectType :=
  perOutput "SubMth"
    [("act", plain "Active Users" []), ("chu", plain "Churned Users" []),
      ("rev", currency "Revenue" ["pnl.revenue.recur", "cash.ops.in.sales"])]
    [number "price" "Monthly Price" (.int 10) { rate with dateRange := true } "currency",
      number "churn" "Monthly churn rate" (.float 0.05) rate "percent", startMonth]

def delay : ObjectType :=
  perOutput "Delay" [("val", plain "Delayed value" [])]
    [number "delayMonths" "Delay (months)" (.int 1)
      { Supports.onlySingle with monthly := true } "integer"]

def advance : ObjectType :=
  perOutput "Advance" [("val", plain "Advanced value" [])]
    [number "advanceMonths" "Advance (months)" (.int 1) { Supports.onlySingle with monthly := true }
      "integer"]

def staffDiv : ObjectType :=
  perOutput "StaffDiv"
    [("heads", plain "Headcount" ["memo.headcount.cogs"]),
      ("cost", currency "Salary cost" (direct ++ ["memo.payroll.cogs"]))]
    [number "productivity" "Activity per head per month" (.int 100) rate "decimal",
      number "salary" "Monthly salary" (.int 5000) series "currency", startMonth]

def staffTeam : ObjectType :=
  perOutput "StaffTeam"
    [("heads", plain "Headcount" ["memo.headcount.ga"]),
      ("cost", currency "Salary cost" (opexGA ++ ["memo.payroll.ga"]))]
    [number "headCount" "Heads" (.int 1) series "integer",
      number "salary" "Monthly salary" (.int 5000) series "currency", startMonth]

def staffRole : ObjectType :=
  perOutput "StaffRole"
    [("cost", currency "Salary cost" (opexGA ++ ["memo.payroll.ga"])),
      ("heads", plain "Headcount" ["memo.headcount.ga"])]
    [number "salary" "Monthly salary" (.int 8000) series "currency", startMonth]

def fundEquity : ObjectType :=
  perOutput "QuantPulse"
    [("val", currency "Amount" ["cash.finance.in.equity", "balance.equity.share"]),
      ("cum", currency "Cumulative Amount" [])]
    [number "amount" "Amount" (.int 100000) Supports.onlySingle "currency",
      number "month" "Month" (.int 0) Supports.onlySingle "integer"]

def fundDebt : ObjectType :=
  perOutput "FundDebt"
    [("int", currency "Interest Expense" ["pnl.interest", "cash.ops.out.other"]),
      ("raised", currency "Debt Raised" ["cash.finance.in.debt"]),
      ("repaid", currency "Debt Repaid" ["cash.finance.out.debtRepay"]),
      ("bal", currency "Debt Balance" []),
      ("debtMove", currency "Net Debt Movement" ["balance.liabilities.longTerm.debt"])]
    [startMonth,
      number "amount" "Amount Borrowed" (.int 0) Supports.onlySingle "currency",
      number "rate" "Interest Rate (Monthly)" (.float 0.01) Supports.onlySingle "percent",
      number "term" "Term (Months)" (.int 12) Supports.onlySingle "integer"]

def sum : ObjectType :=
  perOutput "Sum" [("val", plain "Total" [])] []

def setup : ObjectType :=
  perOutput "Setup" [("val", plain "Value" [])] []

end Standard

def standard : Schema :=
  [("Quant", Standard.quant),
    ("QuantMul", Standard.quantMul),
    ("QuantDiv", Standard.quantDiv),
    ("Cost", Standard.cost Standard.opexGA),
    ("CostDC", Standard.cost Standard.direct),
    ("CostSM", Standard.cost Standard.opexSM),
    ("CostGA", Standard.cost Standard.opexGA),
    ("CostRD", Standard.cost Standard.opexRD),
    ("CostOE", Standard.cost Standard.otherExpenses),
    ("CostMul", Standard.costMul Standard.direct),
    ("CostMulDC", Standard.costMul Standard.direct),
    ("CostMulSM", Standard.costMul Standard.opexSM),
    ("CostMulGA", Standard.costMul Standard.opexGA),
    ("CostMulRD", Standard.costMul Standard.opexRD),
    ("RevMul", Standard.revMul ["pnl.revenue.recur", "cash.ops.in.sales"]),
    ("RevMulNew", Standard.revMul ["pnl.revenue.new", "cash.ops.in.sales"]),
    ("RevMulDel", Standard.revMul ["pnl.revenue.recur", "balance.assets.current.ar"]),
    ("RevMulNewDel", Standard.revMul ["pnl.revenue.new", "balance.assets.current.ar"]),
    ("SubRetain", Standard.subRetain),
    ("SubMth", Standard.subMth),
    ("Del", Standard.delay),
    ("Adv", Standard.advance),
    ("StaffDiv", Standard.staffDiv),
    ("StaffTeam", Standard.staffTeam),
    ("StaffRole", Standard.staffRole),
    ("FundEquity", Standard.fundEquity),
    ("FundDebt", Standard.fundDebt),
    ("Sum", Standard.sum),
    ("Setup", Standard.setup)]

def standardType (name : String) : Except Fault ObjectType :=
  match standard.lookup name with
  | some t => .ok t
  | none => .error (.unknownName name)

end Forecast.Schema
