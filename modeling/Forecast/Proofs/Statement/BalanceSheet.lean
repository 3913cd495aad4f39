import Forecast.Compute.Funding
import Forecast.Proofs.Outcome
import Forecast.Proofs.Statement.Standard
import Mathlib.Tactic.Linarith

/-!
# The balance sheet balances

Over exact amounts, the standard statements balance in every month if loans move
the debt by what they raise less what they repay. The loans that `fundDebt`
computes do so.
-/

namespace Forecast

theorem Compute.answer_of_fundDebt {α : Type} [Amount α] {task : Task α}
    {answer : Entries (Series α)}
    (h : fundDebt task = .ok answer) :
    ∃ interest raised repaid balance : Series α,
      answer = [("int", interest), ("raised", raised), ("repaid", repaid), ("bal", balance),
        ("debtMove", List.zipWith (· - ·) raised repaid)] ∧ raised.length = repaid.length := by
  unfold fundDebt at h
  simp only [Outcome.bind_eq_ok, Outcome.pure_eq_ok] at h
  obtain ⟨start, -, amount, -, rate, -, term, -, h⟩ := h
  refine ⟨_, _, _, _, h.symm, ?_⟩
  split <;> simp

namespace Financials

variable {channels : List (ChannelSeries Rat)} {months m : Nat}

/-- The sum of a channel over all outputs of a type, in one month. -/
def totalAt (channels : List (ChannelSeries Rat)) (kind channel : String) (m : Nat) : Rat :=
  ((channels.filter fun s => s.kind == kind && s.channel == channel).map
    fun s => s.amounts.getD m 0).sum

/-- Loans move the debt by what they raise less what they repay. -/
def DebtMoves (channels : List (ChannelSeries Rat)) (months : Nat) : Prop :=
  ∀ m < months, totalAt channels "FundDebt" "debtMove" m =
    totalAt channels "FundDebt" "raised" m - totalAt channels "FundDebt" "repaid" m

theorem totalAt_cons (s : ChannelSeries Rat) (channels : List (ChannelSeries Rat))
    (kind channel : String) (m : Nat) :
    totalAt (s :: channels) kind channel m =
      (if s.kind = kind ∧ s.channel = channel then s.amounts.getD m 0 else 0) +
        totalAt channels kind channel m := by
  unfold totalAt
  rw [List.filter_cons]
  simp only [Bool.and_eq_true, beq_iff_eq]
  split
  · rw [List.map_cons, List.sum_cons]
  · rw [zero_add]

theorem totalAt_append (channels more : List (ChannelSeries Rat)) (kind channel : String)
    (m : Nat) :
    totalAt (channels ++ more) kind channel m =
      totalAt channels kind channel m + totalAt more kind channel m := by
  simp [totalAt]

theorem totalAt_filter (channels : List (ChannelSeries Rat)) (kind channel : String) (m : Nat) :
    totalAt (channels.filter fun s => s.kind == kind) kind channel m =
      totalAt channels kind channel m := by
  unfold totalAt
  rw [List.filter_filter]
  congr 3
  ext s
  cases s.kind == kind <;> simp

/-! ## Loans -/

/-- A loan with what `fundDebt` answers. -/
structure Loan where
  output : String
  task : Task Rat
  answer : Entries (Series Rat)
  computed : Compute.fundDebt task = .ok answer

namespace Loan

def series (l : Loan) : List (ChannelSeries Rat) :=
  l.answer.map fun e => ⟨"FundDebt", l.output, e.1, e.2⟩

theorem moves (l : Loan) (m : Nat) :
    totalAt l.series "FundDebt" "debtMove" m =
      totalAt l.series "FundDebt" "raised" m - totalAt l.series "FundDebt" "repaid" m := by
  obtain ⟨interest, raised, repaid, balance, answer, same⟩ := Compute.answer_of_fundDebt l.computed
  have difference := Series.getD_zipWith (sub_self 0) same m
  unfold series
  rw [answer]
  simpa [totalAt] using difference

end Loan

theorem DebtMoves.of_loans {loans : List Loan}
    (computed : (channels.filter fun s => s.kind == "FundDebt") = loans.flatMap Loan.series) :
    DebtMoves channels months := by
  intro m _
  rw [← totalAt_filter channels, ← totalAt_filter channels, ← totalAt_filter channels, computed]
  clear computed
  induction loans with
  | nil => simp [totalAt]
  | cons l loans ih =>
    rw [List.flatMap_cons, totalAt_append, totalAt_append, totalAt_append, ih, l.moves]
    ring

/-! ## Balance -/

theorem loan_channels :
    ∀ channel ∈ ["raised", "repaid", "debtMove"],
      ((Schema.standard.lookup "FundDebt").bind fun t =>
        t.channels.lookup channel).isSome = true := by
  decide +kernel

theorem weight_standard (s : ChannelSeries Rat) :
    weight (Template.standardAssets ++ Template.standardClaims) (destinations Schema.standard s) =
      debtWeight s.kind s.channel := by
  unfold destinations
  cases known : channelOf Schema.standard s with
  | some channel =>
    simp only [channelOf, Option.bind_eq_some_iff] at known
    obtain ⟨type, hType, hChannel⟩ := known
    exact standard_channels _ (Entries.mem_of_lookup hType) _ (Entries.mem_of_lookup hChannel)
  | none =>
    have other : ∀ channel ∈ ["raised", "repaid", "debtMove"],
        ¬ (s.kind = "FundDebt" ∧ s.channel = channel) := by
      rintro channel mem ⟨kind, bears⟩
      have loan := loan_channels channel mem
      rw [channelOf, kind, bears] at known
      rw [known] at loan
      cases loan
    simp only [List.mem_cons, List.not_mem_nil, or_false, forall_eq_or_imp, forall_eq,
      not_and] at other
    obtain ⟨raised, repaid, move⟩ := other
    unfold debtWeight
    split
    · rename_i kind
      simp [weight, raised kind, repaid kind, move kind]
    · simp [weight]

/-- What a month changes the balance check by is left over from loans. -/
theorem changeAt_standard (channels : List (ChannelSeries Rat)) (m : Nat) :
    changeAt Schema.standard (Template.standardAssets ++ Template.standardClaims) channels m =
      totalAt channels "FundDebt" "raised" m - totalAt channels "FundDebt" "repaid" m -
        totalAt channels "FundDebt" "debtMove" m := by
  unfold changeAt
  induction channels with
  | nil => simp [totalAt]
  | cons s channels ih =>
    rw [List.map_cons, List.sum_cons, ih, weight_standard, totalAt_cons, totalAt_cons, totalAt_cons]
    unfold debtWeight
    split
    · rename_i kind
      by_cases raised : s.channel = "raised"
      · simp [kind, raised]
        ring
      · by_cases repaid : s.channel = "repaid"
        · simp [kind, repaid]
          ring
        · by_cases move : s.channel = "debtMove"
          · simp [kind, move]
            ring
          · simp [kind, raised, repaid, move]
    · rename_i other
      simp [other]

section

variable {c : Collected Rat}
  (holds : Holds (Template.standard.items.map (·.code)) months
    (received Schema.standard channels) c)
include holds

theorem read_check (fits : ∀ s ∈ channels, s.amounts.length = months)
    (debt : DebtMoves channels months) :
    (compute Template.standard months c.lines).1.read months "balance.check" =
      Series.zeros months := by
  have sized := sized_compute Template.standard holds.sized_lines "balance.check"
  apply Series.ext_getD (by rw [sized, Series.length_zeros])
  intro m inside
  rw [sized] at inside
  rw [Series.getD_zeros,
    holds.getD_balance Template.standard_distinct Template.standard_ordered fits
    Template.standard_movements Template.standard_known inside]
  apply Finset.sum_eq_zero
  intro k hk
  have earlier : k < months := by
    have := Finset.mem_range.1 hk
    omega
  rw [changeAt_standard, debt k earlier]
  ring

theorem read_assets (fits : ∀ s ∈ channels, s.amounts.length = months)
    (debt : DebtMoves channels months) :
    (compute Template.standard months c.lines).1.read months "balance.assets.total" =
      Lines.plus ((compute Template.standard months c.lines).1.read months
        "balance.liabilities.total")
        ((compute Template.standard months c.lines).1.read months "balance.equity.total") := by
  have sized := sized_compute Template.standard holds.sized_lines
  have same := (sized "balance.liabilities.total").trans (sized "balance.equity.total").symm
  apply Series.ext_getD
  · rw [sized, Lines.plus, List.length_zipWith, sized, sized, Nat.min_self]
  · intro m inside
    rw [sized] at inside
    have zero := congrArg (fun xs => xs.getD m 0) (read_check holds fits debt)
    have check := getD_compute_of_sums Template.standard_distinct holds.sized_lines inside
      Template.standard_ordered Template.standard_check
    have total := getD_compute_of_sums Template.standard_distinct holds.sized_lines inside
      Template.standard_ordered Template.standard_total
    rw [Series.getD_zeros, check] at zero
    simp only [Lines.sumAt_cons, Lines.sumAt_nil, factor_eq_cast, Sign.toInt] at zero total
    rw [Series.getD_plus same]
    push_cast at zero total
    linarith

theorem getD_assets (fits : ∀ s ∈ channels, s.amounts.length = months) (inside : m < months) :
    ((compute Template.standard months c.lines).1.read months "balance.assets.total").getD m 0 =
      ∑ k ∈ Finset.range (m + 1),
        changeAt Schema.standard Template.standardAssets channels k := by
  apply holds.getD_balance Template.standard_distinct Template.standard_ordered fits
    Template.standard_assets ?_ inside
  intro u hu
  exact Template.standard_known u (List.mem_append_left _ hu)

end

/-- If loans move the debt by what they raise less what they repay, assets are liabilities plus
equity in every month, and the sum of all that the channels have moved in assets up to the month;
loans that `fundDebt` computes move the debt so. -/
theorem balanced (fits : ∀ s ∈ channels, s.amounts.length = months) :
    (∀ loans : List Loan,
      (channels.filter fun s => s.kind == "FundDebt") = loans.flatMap Loan.series →
        DebtMoves channels months) ∧
    (DebtMoves channels months →
      ∃ f assets liabilities equity,
        (build channels months Schema.standard Template.standard).outcome = .ok f ∧
          f.lines.lookup "balance.check" = some (Series.zeros months) ∧
          f.lines.lookup "balance.assets.total" = some assets ∧
          f.lines.lookup "balance.liabilities.total" = some liabilities ∧
          f.lines.lookup "balance.equity.total" = some equity ∧
          assets = Lines.plus liabilities equity ∧
          ∀ m < months, assets.getD m 0 =
            ∑ k ∈ Finset.range (m + 1),
              changeAt Schema.standard Template.standardAssets channels k) := by
  constructor
  · intro loans computed
    exact DebtMoves.of_loans computed
  · intro debt
    obtain ⟨c, holds, built⟩ := exists_build Schema.standard Template.standard_distinct fits
    have known := Template.standard_computed.2.2.2
    refine ⟨_, _, _, _, built, ?_, lookup_compute (known _ (by simp)),
      lookup_compute (known _ (by simp)), lookup_compute (known _ (by simp)),
      read_assets holds fits debt, ?_⟩
    · rw [lookup_compute (known _ (by simp)), read_check holds fits debt]
    · intro m inside
      exact getD_assets holds fits inside

def shortLoan : Loan where
  output := "Bridge"
  task :=
    { months := 3
      inputs := []
      settings := ⟨[], [("amount", .scalar 100), ("rate", .scalar (1 / 100)), ("term", .scalar 2)]⟩
      output := "Bridge" }
  answer :=
    [("int", [1, 1, 0]), ("raised", [100, 0, 0]), ("repaid", [0, 0, 100]), ("bal", [100, 100, 0]),
      ("debtMove", [100, 0, -100])]
  computed := by with_unfolding_all rfl

def bridged : List (ChannelSeries Rat) :=
  [⟨"RevMulDel", "Sales", "rev", [40, 50, 60]⟩, ⟨"Grant", "Subsidy", "val", [7, 7, 7]⟩] ++
    shortLoan.series ++ [⟨"CostGA", "Rent", "cost", [10, 10, 10]⟩]

theorem balanced_bridged :
    (∀ s ∈ bridged, s.amounts.length = 3) ∧ DebtMoves bridged 3 ∧
      ∃ f assets liabilities equity,
        (build bridged 3 Schema.standard Template.standard).outcome = .ok f ∧
          f.lines.lookup "balance.check" = some (Series.zeros 3) ∧
          f.lines.lookup "balance.assets.total" = some assets ∧
          f.lines.lookup "balance.liabilities.total" = some liabilities ∧
          f.lines.lookup "balance.equity.total" = some equity ∧
          assets = Lines.plus liabilities equity ∧ assets.getD 1 0 = 168 := by
  have fits : ∀ s ∈ bridged, s.amounts.length = 3 := by decide +kernel
  have debt : DebtMoves bridged 3 := (balanced fits).1 [shortLoan] (by rfl)
  obtain ⟨f, assets, liabilities, equity, built, check, hAssets, hLiabilities, hEquity, sum,
      moved⟩ :=
    (balanced fits).2 debt
  refine ⟨fits, debt, f, assets, liabilities, equity, built, check, hAssets, hLiabilities, hEquity,
    sum, ?_⟩
  rw [moved 1 (by decide)]
  decide +kernel

end Financials
end Forecast
