import Forecast.Compute.Funding
import Forecast.Proofs.Outcome
import Forecast.Proofs.Statement.Exact
import Mathlib.Algebra.BigOperators.Group.Finset.Piecewise

/-!
# The balance of a loan

What a loan raises and repays are single amounts, each in a month of its own,
while the balance is there month by month. Over exact amounts they agree: the
balance is the running total of the movement, on top of what is owed already
when the first month begins. Only a loan that started before it owes anything
then.
-/

namespace Forecast

namespace Series

variable {months m : Nat} {month : Int} {x : Rat} {xs ys : Series Rat}

theorem getD_single (inside : m < months) :
    (single months month x).getD m 0 = if (m : Int) = month then x else 0 := by
  simp [single, List.getD_eq_getElem?_getD, inside]

theorem upTo_single (inside : m < months) :
    (single months month x).upTo m = if 0 ≤ month ∧ month ≤ m then x else 0 := by
  have each : ∀ k ∈ Finset.range (m + 1),
      (single months month x).getD k 0 = if (k : Int) = month then x else 0 := by
    intro k hk
    rw [Finset.mem_range] at hk
    exact getD_single (by omega)
  rw [upTo, Finset.sum_congr rfl each]
  by_cases nonneg : 0 ≤ month
  · obtain ⟨n, rfl⟩ := Int.eq_ofNat_of_zero_le nonneg
    simp only [Int.ofNat_inj, Finset.sum_ite_eq', Finset.mem_range]
    have same : n < m + 1 ↔ 0 ≤ (n : Int) ∧ (n : Int) ≤ m := by omega
    simp only [same]
  · have never : ∀ k ∈ Finset.range (m + 1), (if (k : Int) = month then x else 0) = 0 := by
      intro k _
      exact if_neg (by omega)
    rw [Finset.sum_eq_zero never, if_neg fun both => nonneg both.1]

theorem upTo_zeros : (zeros months : Series Rat).upTo m = 0 := by
  simp only [upTo, getD_zeros, Finset.sum_const_zero]

theorem upTo_sub (same : xs.length = ys.length) :
    upTo (List.zipWith (· - ·) xs ys) m = xs.upTo m - ys.upTo m := by
  simp only [upTo, getD_zipWith (sub_self 0) same, Finset.sum_sub_distrib]

/-- The running total of a difference is the difference of the running totals. -/
theorem runningTotal_sub (same : xs.length = ys.length) :
    runningTotal (List.zipWith (· - ·) xs ys) =
      List.zipWith (· - ·) (runningTotal xs) (runningTotal ys) := by
  have totals : (runningTotal xs).length = (runningTotal ys).length := by simpa using same
  apply ext_getD (by simp)
  intro m inside
  have within : m < xs.length ∧ m < ys.length := by
    simp at inside
    omega
  rw [getD_runningTotal (by simp; omega), getD_zipWith (sub_self 0) totals, upTo_sub same,
    getD_runningTotal within.1, getD_runningTotal within.2]

theorem map_add_eq_self {c : Rat} : xs.map (c + ·) = xs ↔ xs = [] ∨ c = 0 := by
  cases xs with
  | nil => simp
  | cons x xs =>
    constructor
    · intro same
      have first : c + x = x := (List.cons.inj same).1
      exact .inr (add_eq_right.1 first)
    · rintro (none | rfl)
      · cases none
      · simp

end Series

namespace Compute

variable {t : Task Rat} {start term : Int} {amount rate : Rat} {months m : Nat}

/-- What a loan owes when the first month begins: its amount, if it started before that month and
its term is not over then. -/
def opening (start term : Int) (amount : Rat) : Rat :=
  if start < 0 ∧ (term ≤ 0 ∨ 0 ≤ start + term) then amount else 0

def repayment (months : Nat) (start term : Int) (amount : Rat) : Series Rat :=
  if 0 < term then Series.single months (start + term) amount else Series.zeros months

def owed (months : Nat) (start term : Int) (amount : Rat) : Series Rat :=
  (List.range months).map fun m => if outstanding start term m then amount else 0

@[simp] theorem length_repayment : (repayment months start term amount).length = months := by
  unfold repayment
  split <;> simp

@[simp] theorem length_owed : (owed months start term amount).length = months := by
  simp [owed]

theorem upTo_repayment (inside : m < months) :
    (repayment months start term amount).upTo m =
      if 0 < term ∧ 0 ≤ start + term ∧ start + term ≤ m then amount else 0 := by
  unfold repayment
  split
  · rename_i ends
    simp only [Series.upTo_single inside, ends, true_and]
  · rename_i endless
    rw [Series.upTo_zeros, if_neg fun all => endless all.1]

theorem getD_owed (inside : m < months) :
    (owed months start term amount).getD m 0 = if outstanding start term m then amount else 0 := by
  simp [owed, List.getD_eq_getElem?_getD, inside]

/-- A loan is outstanding in a month if it has been raised, or was owed from the beginning, and has
not been repaid. -/
theorem outstanding_eq (start term : Int) (amount : Rat) (m : Nat) :
    (if outstanding start term m then amount else 0) = opening start term amount +
      ((if 0 ≤ start ∧ start ≤ m then amount else 0) -
        (if 0 < term ∧ 0 ≤ start + term ∧ start + term ≤ m then amount else 0)) := by
  unfold opening outstanding
  grind

theorem owed_eq (months : Nat) (start term : Int) (amount : Rat) :
    owed months start term amount =
      (Series.runningTotal (List.zipWith (· - ·) (Series.single months start amount)
        (repayment months start term amount))).map (opening start term amount + ·) := by
  have same : (Series.single months start amount).length =
      (repayment months start term amount).length := by simp
  apply Series.ext_getD (by simp)
  intro m inside
  rw [length_owed] at inside
  have within : m < (List.zipWith (· - ·) (Series.single months start amount)
      (repayment months start term amount)).length := by
    simpa using inside
  have total := Series.getD_runningTotal within
  rw [Series.upTo_sub same, Series.upTo_single inside, upTo_repayment inside] at total
  rw [getD_owed inside, outstanding_eq, ← total]
  simp [List.getD_eq_getElem?_getD, inside]

theorem fundDebt_eq (hstart : t.settings.month "startMonth" = .ok start)
    (hamount : t.settings.scalar "amount" = .ok amount)
    (hrate : t.settings.scalar "rate" = .ok rate)
    (hterm : t.settings.month "term" = .ok term) :
    fundDebt t = .ok [("int", (owed t.months start term amount).map (· * rate)),
      ("raised", Series.single t.months start amount),
      ("repaid", repayment t.months start term amount),
      ("bal", owed t.months start term amount),
      ("debtMove", List.zipWith (· - ·) (Series.single t.months start amount)
        (repayment t.months start term amount))] := by
  simp only [fundDebt, hstart, hamount, hrate, hterm, Outcome.ok_bind]
  rfl

theorem opening_of_nonneg (h : 0 ≤ start) : opening start term amount = 0 :=
  if_neg fun early => absurd early.1 (by omega)

theorem eq_zero_or_of_mem_owed {x : Rat} (h : x ∈ owed months start term amount) :
    x = 0 ∨ x = amount := by
  obtain ⟨m, -, rfl⟩ := List.mem_map.1 h
  split
  · exact .inr rfl
  · exact .inl rfl

/-- The balance of a loan is what it owes when the first month begins and the running total of its
movement, whatever its start, term, amount and rate are; so it is the running total itself just if
nothing is owed then. -/
theorem balance_accumulates (hstart : t.settings.month "startMonth" = .ok start)
    (hamount : t.settings.scalar "amount" = .ok amount)
    (hrate : t.settings.scalar "rate" = .ok rate)
    (hterm : t.settings.month "term" = .ok term) :
    ∃ interest raised repaid balance movement : Series Rat,
      fundDebt t = .ok [("int", interest), ("raised", raised), ("repaid", repaid), ("bal", balance),
        ("debtMove", movement)] ∧
      (∀ xs ∈ [interest, raised, repaid, balance, movement], xs.length = t.months) ∧
      balance = (Series.runningTotal movement).map (opening start term amount + ·) ∧
      (balance = Series.runningTotal movement ↔ t.months = 0 ∨ opening start term amount = 0) ∧
      (0 ≤ start → balance = Series.runningTotal movement) ∧
      Series.runningTotal movement =
        List.zipWith (· - ·) (Series.runningTotal raised) (Series.runningTotal repaid) ∧
      interest = balance.map (· * rate) ∧
      ∀ x ∈ balance, x = 0 ∨ x = amount := by
  have accumulated := owed_eq t.months start term amount
  have same : (Series.single t.months start amount).length =
      (repayment t.months start term amount).length := by simp
  refine ⟨_, _, _, _, _, fundDebt_eq hstart hamount hrate hterm, by simp, accumulated, ?_, ?_,
    Series.runningTotal_sub same, rfl, fun x => eq_zero_or_of_mem_owed⟩
  · rw [accumulated, Series.map_add_eq_self, ← List.length_eq_zero_iff]
    simp
  · intro late
    rw [accumulated, Series.map_add_eq_self]
    exact .inr (opening_of_nonneg late)

/-- A loan that has run for a month already and is repaid in the second one. -/
def runningLoan : Task Rat where
  months := 3
  inputs := []
  settings :=
    ⟨[("startMonth", .scalar (-1 / 2))],
      [("amount", .series [100, 200]), ("rate", .scalar (1 / 100)), ("term", .scalar 2)]⟩
  output := "bridge"

theorem balance_accumulates_runningLoan :
    runningLoan.settings.month "startMonth" = .ok (-1) ∧
      runningLoan.settings.scalar "amount" = .ok 100 ∧
      runningLoan.settings.scalar "rate" = .ok (1 / 100) ∧
      runningLoan.settings.month "term" = .ok 2 ∧
      ∃ interest raised repaid balance movement : Series Rat,
        fundDebt runningLoan = .ok [("int", interest), ("raised", raised), ("repaid", repaid),
          ("bal", balance), ("debtMove", movement)] ∧
        balance = (Series.runningTotal movement).map (100 + ·) ∧
        interest = balance.map (· * (1 / 100)) ∧
        balance = [100, 0, 0] ∧ Series.runningTotal movement = [0, -100, -100] := by
  have hstart : runningLoan.settings.month "startMonth" = .ok (-1) := by with_unfolding_all rfl
  have hamount : runningLoan.settings.scalar "amount" = .ok 100 := by with_unfolding_all rfl
  have hrate : runningLoan.settings.scalar "rate" = .ok (1 / 100) := by with_unfolding_all rfl
  have hterm : runningLoan.settings.month "term" = .ok 2 := by with_unfolding_all rfl
  have computed : fundDebt runningLoan = .ok [("int", [1, 0, 0]), ("raised", [0, 0, 0]),
      ("repaid", [0, 100, 0]), ("bal", [100, 0, 0]), ("debtMove", [0, -100, 0])] := by
    with_unfolding_all rfl
  obtain ⟨interest, raised, repaid, balance, movement, answer, -, accumulated, -, -, -,
      interests, -⟩ :=
    balance_accumulates hstart hamount hrate hterm
  refine ⟨hstart, hamount, hrate, hterm, interest, raised, repaid, balance, movement, answer,
    accumulated, interests, ?_, ?_⟩
  · cases computed.symm.trans answer
    rfl
  · cases computed.symm.trans answer
    decide +kernel

/-- A loan that has run for a month already and has no term. -/
def endlessLoan : Task Rat where
  months := 2
  inputs := []
  settings := ⟨[], [("startMonth", .scalar (-1)), ("amount", .scalar 100), ("term", .scalar 0)]⟩
  output := "bridge"

/-- A loan that started before the first month is owed, but none of its movements is in the
horizon. -/
theorem balance_not_accumulated :
    endlessLoan.settings.month "startMonth" = .ok (-1) ∧ endlessLoan.settings.month "term" = .ok 0 ∧
      fundDebt endlessLoan = .ok [("int", [0, 0]), ("raised", [0, 0]), ("repaid", [0, 0]),
        ("bal", [100, 100]), ("debtMove", [0, 0])] ∧
      Series.runningTotal [0, 0] ≠ ([100, 100] : Series Rat) := by
  refine ⟨?_, ?_, ?_, ?_⟩
  · with_unfolding_all rfl
  · with_unfolding_all rfl
  · with_unfolding_all rfl
  · decide +kernel

end Compute
end Forecast
