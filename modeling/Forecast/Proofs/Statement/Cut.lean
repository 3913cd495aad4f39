import Forecast.Proofs.Series.Cut
import Forecast.Proofs.Statement.Collected

/-!
# Statements over fewer months

Line items are sums and running totals of what they receive, month by month. So
the statements of the first months of some channels are the first months of the
statements of all their months.
-/

namespace Forecast

open Outcome

variable {α : Type} [Amount α] {months n : Nat} {lines : Lines α} {items : Entries LineItem}

def Lines.cut (n : Nat) (lines : Lines α) : Lines α :=
  lines.mapValues (List.take n)

namespace Lines

theorem read_cut (shorter : n ≤ months) (lines : Lines α) (code : String) :
    (lines.cut n).read n code = (lines.read months code).take n := by
  unfold read
  rw [← Series.take_zeros shorter]
  exact Entries.getD_lookup_mapValues _ _ _ _

omit [Amount α] in
theorem missing_cut (lines : Lines α) (n : Nat) (code user : String) :
    (lines.cut n).missing code user = lines.missing code user := by
  unfold missing cut
  rw [Entries.has_mapValues]

theorem foldl_plus_cut {β : Type} (terms : List β) (f f' : β → Series α)
    (each : ∀ x ∈ terms, f' x = (f x).take n) (total : Series α) :
    terms.foldl (fun total x => plus total (f' x)) (total.take n) =
      (terms.foldl (fun total x => plus total (f x)) total).take n := by
  induction terms generalizing total with
  | nil => rfl
  | cons x terms ih =>
    have first : plus (total.take n) (f' x) = (plus total (f x)).take n := by
      rw [each x (by simp), plus, plus, List.take_zipWith]
    rw [List.foldl_cons, List.foldl_cons, first]
    exact ih (fun y hy => each y (by simp [hy])) _

theorem signedSum_cut (shorter : n ≤ months) (lines : Lines α) (terms : List (Sign × String)) :
    signedSum (lines.cut n) n terms = (signedSum lines months terms).take n := by
  unfold signedSum
  rw [← Series.take_zeros shorter]
  apply foldl_plus_cut
  intro t _
  rw [read_cut shorter, List.map_take]

theorem formula_cut (shorter : n ≤ months) (items : Entries LineItem) (lines : Lines α)
    (f : Formula) :
    (lines.cut n).formula items n f = (lines.formula items months f).take n := by
  cases f with
  | leaves above =>
    simp only [formula]
    rw [← Series.take_zeros shorter]
    apply foldl_plus_cut
    exact fun code _ => read_cut shorter lines code
  | copy code => exact read_cut shorter lines code
  | runningTotal code => simp only [formula, read_cut shorter, Series.take_runningTotal]
  | signedSum terms => exact signedSum_cut shorter lines terms

omit [Amount α] in
theorem formulaNotices_cut (lines : Lines α) (n : Nat) (user : String) (f : Formula) :
    (lines.cut n).formulaNotices user f = lines.formulaNotices user f := by
  cases f <;> simp only [formulaNotices, missing_cut]

theorem evaluate_cut (shorter : n ≤ months) (items : Entries LineItem) (lines : Lines α)
    (i : LineItem) :
    (lines.cut n).evaluate items n i =
      ((lines.evaluate items months i).1.take n, (lines.evaluate items months i).2) := by
  unfold evaluate
  cases i.formula? with
  | some text =>
    simp only [formula_cut shorter, formulaNotices_cut]
    split <;> simp only [Series.take_runningTotal]
  | none =>
    simp only [signedSum_cut shorter, missing_cut, read_cut shorter]
    split
    · rfl
    · split <;> simp only [Series.take_runningTotal]

theorem step_cut (shorter : n ≤ months) (items : Entries LineItem) (lines : Lines α)
    (notices : List Notice) (i : LineItem) :
    step items n (lines.cut n, notices) i =
      ((step items months (lines, notices) i).1.cut n,
        (step items months (lines, notices) i).2) := by
  simp only [step, evaluate_cut shorter items lines i]
  rw [cut, cut, Entries.mapValues_put]

end Lines

def ChannelSeries.cut (n : Nat) (s : ChannelSeries α) : ChannelSeries α :=
  { s with amounts := s.amounts.take n }

def Contributor.cut (n : Nat) (k : Contributor α) : Contributor α :=
  { k with amounts := k.amounts.take n }

namespace Financials

variable {schema : Schema} {t : Template} {s : ChannelSeries α} {c : Collected α}
  {channels : List (ChannelSeries α)}

def Collected.cut (n : Nat) (c : Collected α) : Collected α :=
  ⟨c.lines.cut n, c.contributors.mapValues (List.map (Contributor.cut n))⟩

theorem exists_addTo (n : Nat) (t : Template) (label : String)
    (fits : s.amounts.length = months) (lengths : ∀ e ∈ c.lines, e.2.length = months)
    (destination : String) :
    ∃ c', (addTo t label s c destination).outcome = .ok c' ∧
      (addTo t label (s.cut n) (c.cut n) destination).outcome = .ok (c'.cut n) ∧
      ∀ e ∈ c'.lines, e.2.length = months := by
  have cut : (c.cut n).lines.lookup destination = (c.lines.lookup destination).map (List.take n) :=
    Entries.lookup_mapValues _ _ _
  unfold addTo
  rw [cut]
  cases found : c.lines.lookup destination with
  | none => exact ⟨c, rfl, rfl, lengths⟩
  | some total =>
    have length : total.length = months := lengths _ (Entries.mem_of_lookup found)
    have same : total.length = s.amounts.length := length.trans fits.symm
    have sum := Series.add_of_length_eq same
    have sum' : Series.add (total.take n) (s.cut n).amounts = _ := Series.take_add same sum
    simp only [Option.map_some, sum, sum']
    refine ⟨_, rfl, ?_, ?_⟩
    · have earlier : ((c.cut n).contributors.lookup destination).getD [] =
          ((c.contributors.lookup destination).getD []).map (Contributor.cut n) :=
        Entries.getD_lookup_mapValues (List.map (Contributor.cut n)) _ _ []
      rw [earlier]
      simp only [Collected.cut, Lines.cut, Entries.mapValues_put, List.map_append]
      rfl
    · intro e he
      rcases Entries.mem_of_mem_put he with rfl | he
      · simp [← same, length]
      · exact lengths e he

theorem exists_collect (n : Nat) (schema : Schema) (t : Template)
    (fits : s.amounts.length = months) (lengths : ∀ e ∈ c.lines, e.2.length = months) :
    ∃ c', (collect schema t c s).outcome = .ok c' ∧
      (collect schema t (c.cut n) (s.cut n)).outcome = .ok (c'.cut n) ∧
      ∀ e ∈ c'.lines, e.2.length = months := by
  have same : channelOf schema (s.cut n) = channelOf schema s := rfl
  unfold collect
  rw [same]
  cases known : channelOf schema s with
  | none => exact ⟨c, rfl, rfl, lengths⟩
  | some channel =>
    have label : labelOf channel (s.cut n) = labelOf channel s := rfl
    simp only [label, Logged.outcome_foldlM]
    have side : ∃ c', channel.destinations.foldlM
          (fun c destination => (addTo t (labelOf channel s) s c destination).outcome) c = .ok c' ∧
        (channel.destinations.map id).foldlM
          (fun c destination => (addTo t (labelOf channel s) (s.cut n) c destination).outcome)
            (c.cut n) = .ok (c'.cut n) ∧
        ∀ e ∈ c'.lines, e.2.length = months := by
      refine exists_foldlM_map id (Collected.cut n)
        (fun c : Collected α => ∀ e ∈ c.lines, e.2.length = months) ?_ lengths
      intro destination _ c lengths
      exact exists_addTo n t (labelOf channel s) fits lengths destination
    rwa [List.map_id] at side

theorem blank_cut (shorter : n ≤ months) (t : Template) :
    (blank t n : Lines α) = (blank t months : Lines α).cut n := by
  unfold blank Lines.cut
  rw [Entries.mapValues_ofList]
  simp only [Entries.mapValues, List.map_map, Function.comp_def, Series.take_zeros shorter]

theorem compute_cut (shorter : n ≤ months) (t : Template) (lines : Lines α) :
    compute t n (lines.cut n) =
      ((compute t months lines).1.cut n, (compute t months lines).2) := by
  unfold compute
  generalize (t.statements.flatMap fun s => Lines.evaluationOrder s.2.items) = order
  suffices each : ∀ notices, order.foldl (Lines.step t.byCode n) (lines.cut n, notices) =
      ((order.foldl (Lines.step t.byCode months) (lines, notices)).1.cut n,
        (order.foldl (Lines.step t.byCode months) (lines, notices)).2) from each []
  induction order generalizing lines with
  | nil => exact fun _ => rfl
  | cons i order ih =>
    intro notices
    rw [List.foldl_cons, List.foldl_cons, Lines.step_cut shorter]
    exact ih _ _

theorem exists_build_cut (shorter : n ≤ months) (schema : Schema) (t : Template)
    (fits : ∀ s ∈ channels, s.amounts.length = months) :
    ∃ f f', (build (channels.map (ChannelSeries.cut n)) n schema t).outcome = .ok f ∧
      (build channels months schema t).outcome = .ok f' ∧ f.lines = f'.lines.cut n := by
  have blank_lengths : ∀ e ∈ (blank t months : Lines α), e.2.length = months := by
    intro e he
    obtain ⟨i, -, rfl⟩ := List.mem_map.1 (Entries.mem_of_mem_ofList he)
    exact Series.length_zeros months
  have start : (⟨blank t n, []⟩ : Collected α) = Collected.cut n ⟨blank t months, []⟩ := by
    rw [blank_cut shorter]
    rfl
  obtain ⟨c, collected, collected', -⟩ :
      ∃ c, (channels.foldlM (collect schema t) ⟨blank t months, []⟩).outcome = .ok c ∧
        ((channels.map (ChannelSeries.cut n)).foldlM (collect schema t) ⟨blank t n, []⟩).outcome =
          .ok (c.cut n) ∧ ∀ e ∈ c.lines, e.2.length = months := by
    rw [start, Logged.outcome_foldlM, Logged.outcome_foldlM]
    refine exists_foldlM_map (ChannelSeries.cut n) (Collected.cut n)
      (fun c : Collected α => ∀ e ∈ c.lines, e.2.length = months) ?_ blank_lengths
    intro s mem c lengths
    exact exists_collect n schema t (fits s mem) lengths
  refine ⟨_, _, build_of_collect collected', build_of_collect collected, ?_⟩
  exact congrArg Prod.fst (compute_cut shorter t c.lines)

end Financials
end Forecast
