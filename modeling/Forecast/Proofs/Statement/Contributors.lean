import Forecast.Proofs.Statement.Equations

/-!
# Contributors of line items

The contributors of a line item are the channels that have been added to it, in
order. A leaf adds up just these, or reports the running total of that.
Building statements from channels that fit the horizon never fails. The notices
about stray destinations come first, those about formulas after them.
-/

namespace Forecast

namespace Lines

variable {α : Type} [Amount α]

theorem notices_evaluate (items : Entries LineItem) (lines : Lines α) (months : Nat)
    (i : LineItem) :
    ∀ n ∈ (lines.evaluate items months i).2, ∃ code, n = .unknownItem code i.code := by
  have missing (code : String) : ∀ n ∈ lines.missing code i.code, n = .unknownItem code i.code := by
    intro n hn
    unfold Lines.missing at hn
    split at hn
    · cases hn
    · exact List.mem_singleton.1 hn
  have terms (ts : List (Sign × String)) :
      ∀ n ∈ ts.flatMap fun t => lines.missing t.2 i.code, ∃ code, n = .unknownItem code i.code := by
    intro n hn
    obtain ⟨t, -, hn⟩ := List.mem_flatMap.1 hn
    exact ⟨t.2, missing t.2 n hn⟩
  unfold evaluate
  cases i.formula? with
  | some text =>
    dsimp only
    cases Formula.ofText text with
    | leaves above => simp [formulaNotices]
    | copy code => exact fun n hn => ⟨code, missing code n hn⟩
    | runningTotal code => exact fun n hn => ⟨code, missing code n hn⟩
    | signedSum ts => exact terms ts
  | none =>
    dsimp only
    split
    · exact terms _
    · split <;> simp

end Lines

namespace Financials

variable {α : Type} [Amount α] {schema : Schema} {t : Template} {months : Nat}
  {channels : List (ChannelSeries α)} {c : Collected α}

/-- The sum of what contributors give, from zeros on. -/
def totalOf (months : Nat) (contributors : List (Contributor α)) : Series α :=
  (contributors.map (·.amounts)).foldl Lines.plus (Series.zeros months)

theorem notices_compute (t : Template) (months : Nat) (lines : Lines α) :
    ∀ n ∈ (compute t months lines).2, ∃ code user, n = .unknownItem code user := by
  have run : ∀ (order : List LineItem) (state : Lines α × List Notice),
      (∀ n ∈ state.2, ∃ code user, n = .unknownItem code user) →
      ∀ n ∈ (order.foldl (Lines.step t.byCode months) state).2, ∃ code user,
      n = .unknownItem code user := by
    intro order
    induction order with
    | nil => exact fun _ start => start
    | cons i order ih =>
      intro state start
      apply ih
      intro n hn
      rcases List.mem_append.1 hn with hn | hn
      · exact start n hn
      · obtain ⟨code, same⟩ := Lines.notices_evaluate t.byCode state.1 months i n hn
        exact ⟨code, i.code, same⟩
  exact run _ _ (by simp)

/-- Once the channels are collected, only notices about codes are made. -/
theorem build_eq {notices : List Notice}
    (collected : channels.foldlM (collect schema t) ⟨blank t months, []⟩ = ⟨notices, .ok c⟩) :
    build channels months schema t =
      ⟨notices ++ (compute t months c.lines).2,
        .ok ⟨(compute t months c.lines).1, c.contributors, months, .monthly, t⟩⟩ := by
  rw [build, collected, Logged.ok_bind]
  dsimp only
  rw [Logged.forM_note, Logged.ok_bind, Logged.notices_pure, Logged.outcome_pure, List.append_nil]

/-- Statements of channels that fit the horizon are always built. They have the codes of the
template in order, with an amount for each month. The contributors of a code are the channels that
name it, in order and as often as they name it, and a leaf adds up just these. Each stray
destination makes one notice, ahead of those about formulas. -/
theorem builds_with_contributors (schema : Schema) (distinct : (t.items.map (·.code)).Nodup)
    (fits : ∀ s ∈ channels, s.amounts.length = months) :
    ∃ lines contributors later,
      build channels months schema t =
        ⟨channels.flatMap (strays schema t) ++ later,
          .ok ⟨lines, contributors, months, .monthly, t⟩⟩ ∧
      (∀ n ∈ later, ∃ code user, n = .unknownItem code user) ∧
      lines.keys = t.items.map (·.code) ∧ (∀ e ∈ lines, e.2.length = months) ∧
      contributors.keys.Nodup ∧
      (∀ code, contributors.lookup code =
        if code ∈ t.items.map (·.code) ∧ contributorsOf schema channels code ≠ [] then
          some (contributorsOf schema channels code)
        else none) ∧
      ∀ i ∈ t.items, i.isLeaf = true →
        lines.lookup i.code = some
          (if i.cumulative then
            Series.runningTotal (totalOf months (contributorsOf schema channels i.code))
          else totalOf months (contributorsOf schema channels i.code)) := by
  obtain ⟨c, collected, credited⟩ := exists_credited schema distinct fits
  have built := build_eq collected
  have keys := keys_build distinct (congrArg Logged.outcome built)
  have sized := sized_compute t credited.sized_lines
  refine ⟨(compute t months c.lines).1, c.contributors, (compute t months c.lines).2, built,
    notices_compute t months c.lines, keys, ?_, credited.distinct, credited.recorded, ?_⟩
  · intro e mem
    have found := Entries.lookup_of_mem (keys ▸ distinct) mem
    have length := sized e.1
    rwa [Lines.read, found] at length
  · intro i known leaf
    have code : i.code ∈ t.items.map (·.code) := List.mem_map_of_mem known
    rw [lookup_compute code, read_compute_of_leaf distinct known leaf, Lines.evaluate_of_leaf leaf,
      Lines.read, credited.sums i.code code]
    rfl

def till : Template where
  name := "Till"
  statements :=
    [("till", ⟨"till", "Till", "",
      [⟨"till.sales", none, 1, .plus, none, false, false, none⟩,
        ⟨"till.cash", none, 1, .plus, none, true, false, none⟩]⟩)]

def tillSchema : Schema :=
  [("Stall", ⟨none,
    [("val", ⟨none, none, ["till.sales", "till.tips", "till.cash", "till.sales"], false⟩)],
    [], []⟩)]

theorem builds_with_contributors_till :
    (till.items.map (·.code)).Nodup ∧
      (∀ s ∈ [(⟨"Stall", "tea", "val", [3, 4]⟩ : ChannelSeries Float)], s.amounts.length = 2) ∧
      ∃ lines contributors later,
        build [⟨"Stall", "tea", "val", [(3 : Float), 4]⟩] 2 tillSchema till =
          ⟨.unknownDestination "till.tips" "tea" "val" "Stall" "Till" :: later,
            .ok ⟨lines, contributors, 2, .monthly, till⟩⟩ ∧
        lines.lookup "till.sales" = some [6, 8] ∧ lines.lookup "till.cash" = some [3, 7] ∧
        contributors.lookup "till.sales" = some
          [⟨"Stall", "tea", "val", "Tea - val", [3, 4]⟩,
            ⟨"Stall", "tea", "val", "Tea - val", [3, 4]⟩] ∧
        contributors.lookup "till.tips" = none := by
  have distinct : (till.items.map (·.code)).Nodup := by decide
  have fits : ∀ s ∈ [(⟨"Stall", "tea", "val", [3, 4]⟩ : ChannelSeries Float)],
      s.amounts.length = 2 := by
    decide
  obtain ⟨lines, contributors, later, built, -, -, -, -, recorded, leaves⟩ :=
    builds_with_contributors tillSchema distinct fits
  refine ⟨distinct, fits, lines, contributors, later, built, ?_, ?_, ?_, ?_⟩
  · exact (leaves till.items[0] (by simp) rfl).trans (by decide +kernel)
  · exact (leaves till.items[1] (by simp) rfl).trans (by decide +kernel)
  · exact (recorded "till.sales").trans (if_pos ⟨by decide, List.cons_ne_nil _ _⟩)
  · exact (recorded "till.tips").trans (if_neg (by decide))

end Financials
end Forecast
