import Forecast.Proofs.Statement.Standard

/-!
# Subtotals of the standard statements

Every item of the standard template that has children stands beside a total, and
over exact amounts both report the same series. This holds whatever is added to
which items: what a channel adds to an item with children or to a total is
replaced when the statements are computed.
-/

namespace Forecast

namespace Template

theorem standard_parents :
    (standard.items.filter (·.hasChildren)).map (·.code) =
      ["pnl.revenue", "pnl.cogs", "pnl.opex", "cash.ops", "cash.ops.in", "cash.ops.out",
        "cash.invest", "cash.invest.in", "cash.invest.out", "cash.finance", "cash.finance.in",
        "cash.finance.out", "balance.assets", "balance.assets.current", "balance.assets.fixed",
        "balance.liabilities", "balance.liabilities.current", "balance.liabilities.longTerm",
        "balance.equity", "memo.payroll", "memo.headcount"] ∧
      ∀ i ∈ standard.items, i.hasChildren = true → i.formula? = none := by
  decide +kernel

theorem Paired.known {t : Template} (distinct : (t.items.map (·.code)).Nodup) {l : List LineItem}
    (paired : Paired t.byCode l) {i : LineItem} (hi : i ∈ l) (parent : i.hasChildren = true) :
    totalCode i.code ∈ t.items.map (·.code) := by
  induction l with
  | nil => simp at hi
  | cons j below ih =>
    rcases List.mem_cons.1 hi with rfl | hi
    · obtain ⟨_, _, -, sums, -⟩ := (paired.1 parent).exists_terms
      simp only [sums?, Option.bind_eq_bind, Option.bind_eq_some_iff] at sums
      obtain ⟨total, found, -⟩ := sums
      obtain ⟨known, bears⟩ := of_lookup_byCode distinct found
      exact List.mem_map.2 ⟨total, known, bears⟩
    · exact ih paired.2 hi

end Template

namespace Financials

open Template

/-- The standard statements can be built from channels that fit the horizon, and then every item
with children has the same series as the total beside it, month by month the signed sum of its
children. -/
theorem subtotals_agree (schema : Schema) {channels : List (ChannelSeries Rat)} {months : Nat}
    (fits : ∀ s ∈ channels, s.amounts.length = months) :
    (standard.items.filter (·.hasChildren)).map (·.code) =
      ["pnl.revenue", "pnl.cogs", "pnl.opex", "cash.ops", "cash.ops.in", "cash.ops.out",
        "cash.invest", "cash.invest.in", "cash.invest.out", "cash.finance", "cash.finance.in",
        "cash.finance.out", "balance.assets", "balance.assets.current", "balance.assets.fixed",
        "balance.liabilities", "balance.liabilities.current", "balance.liabilities.longTerm",
        "balance.equity", "memo.payroll", "memo.headcount"] ∧
    ∃ f, (build channels months schema standard).outcome = .ok f ∧
      ∀ i ∈ standard.items, i.hasChildren = true →
        ∃ xs, f.lines.lookup i.code = some xs ∧ f.lines.lookup (i.code ++ ".total") = some xs ∧
          xs.length = months ∧ ∀ m < months,
            xs.getD m 0 = f.lines.sumAt months (Lines.childTerms standard.byCode i) m := by
  obtain ⟨c, holds, built⟩ := exists_build schema standard_distinct fits
  have sized := holds.sized_lines
  refine ⟨standard_parents.1, _, built, ?_⟩
  intro i known parent
  have total := standard_paired.known standard_distinct known parent
  refine ⟨_, lookup_compute (List.mem_map_of_mem known), ?_,
    sized_compute standard sized i.code, ?_⟩
  · rw [read_compute_total standard_distinct standard_ordered sized standard_paired i known parent]
    exact lookup_compute total
  · intro m inside
    exact getD_compute_of_children standard_distinct standard_ordered sized known parent
      (standard_parents.2 i known parent) inside

def strayTotals : Schema :=
  [("Stray", ⟨none,
    [("val", ⟨none, none, ["pnl.revenue.new", "pnl.revenue", "pnl.revenue.total"], false⟩)],
    [], []⟩)]

theorem subtotals_agree_stray :
    (∀ s ∈ [(⟨"Stray", "a", "val", [3, 4]⟩ : ChannelSeries Rat)], s.amounts.length = 2) ∧
      ∃ f xs, (build [(⟨"Stray", "a", "val", [3, 4]⟩ : ChannelSeries Rat)] 2 strayTotals
          standard).outcome = .ok f ∧
        f.lines.lookup "pnl.revenue" = some xs ∧ f.lines.lookup "pnl.revenue.total" = some xs ∧
          xs.length = 2 := by
  have fits : ∀ s ∈ [(⟨"Stray", "a", "val", [3, 4]⟩ : ChannelSeries Rat)],
      s.amounts.length = 2 := by
    decide
  obtain ⟨-, f, built, same⟩ := subtotals_agree strayTotals fits
  obtain ⟨xs, item, total, length, -⟩ := same standard.items[0] (List.getElem_mem _) rfl
  exact ⟨fits, f, xs, built, item, total, length⟩

end Financials

end Forecast
