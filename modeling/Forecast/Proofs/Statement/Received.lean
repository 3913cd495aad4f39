import Forecast.Proofs.Series
import Forecast.Proofs.Statement.Collected

/-!
# What line items receive

Channels of any length are collected, or one of them does not fit its
destination. If they are, each line item of the template holds the sum of what
it has received: adding a channel to a destination continues the sum of the
destination and changes no other.
-/

namespace Forecast.Financials

open Outcome

variable {α : Type} [Amount α] {schema : Schema} {t : Template} {months : Nat} {s : ChannelSeries α}
  {channels : List (ChannelSeries α)} {c c' : Collected α} {destination : String}

/-- The line items while channels of any length are added: each code holds the sum of what it has
got. -/
structure Sums (codes : List String) (months : Nat) (got : String → List (Series α))
    (c : Collected α) : Prop where
  keys : c.lines.keys = codes
  sums : ∀ code ∈ codes, ∃ total, c.lines.lookup code = some total ∧
    Series.sum months (got code) = .ok total

theorem addTo_ok {label : String} (h : (addTo t label s c destination).outcome = .ok c') :
    (destination ∉ c.lines.keys ∧ c' = c) ∨
      ∃ total sum, c.lines.lookup destination = some total ∧ total.add s.amounts = .ok sum ∧
        c'.lines = c.lines.put destination sum := by
  unfold addTo at h
  cases found : c.lines.lookup destination with
  | none =>
    rw [found, Logged.outcome_bind] at h
    cases h
    exact .inl ⟨Entries.lookup_eq_none.1 found, rfl⟩
  | some total =>
    simp only [found, Logged.outcome_bind, bind_eq_ok] at h
    obtain ⟨sum, added, h⟩ := h
    cases h
    exact .inr ⟨total, sum, rfl, mapError_eq_ok.1 added, rfl⟩

namespace Sums

variable {codes : List String} {got : String → List (Series α)}

theorem congr {got' : String → List (Series α)} (h : Sums codes months got c)
    (same : ∀ code ∈ codes, got code = got' code) : Sums codes months got' c where
  keys := h.keys
  sums code known := by
    rw [← same code known]
    exact h.sums code known

theorem addTo {label : String} (h : Sums codes months got c)
    (added : (Financials.addTo t label s c destination).outcome = .ok c') :
    Sums codes months (fun code => got code ++ List.replicate ([destination].count code) s.amounts)
      c' := by
  rcases addTo_ok added with ⟨unknown, rfl⟩ | ⟨total, sum, found, sums, lines⟩
  · apply h.congr
    intro code known
    have other : destination ≠ code := by
      rintro rfl
      exact unknown (h.keys ▸ known)
    simp [other]
  · refine ⟨?_, ?_⟩
    · rw [lines, Entries.keys_put, if_pos (Entries.mem_keys_of_lookup found), h.keys]
    · intro code known
      obtain ⟨before, hbefore, hsum⟩ := h.sums code known
      rw [lines, Entries.lookup_put]
      by_cases own : code = destination
      · subst own
        rw [found, Option.some.injEq] at hbefore
        subst hbefore
        refine ⟨sum, if_pos rfl, ?_⟩
        rw [Series.sum_append hsum]
        simp [sums]
      · have other : destination ≠ code := Ne.symm own
        exact ⟨before, by rw [if_neg own, hbefore], by simpa [other] using hsum⟩

theorem foldlM_addTo {label : String} {destinations : List String} (h : Sums codes months got c)
    (added : (destinations.foldlM (Financials.addTo t label s) c).outcome = .ok c') :
    Sums codes months (fun code => got code ++ List.replicate (destinations.count code) s.amounts)
      c' := by
  induction destinations generalizing c got with
  | nil =>
    cases added
    exact h.congr (by simp)
  | cons destination destinations ih =>
    rw [List.foldlM_cons, Logged.outcome_bind, bind_eq_ok] at added
    obtain ⟨next, first, rest⟩ := added
    apply (ih (h.addTo first) rest).congr
    intro code _
    rw [List.append_assoc, List.replicate_append_replicate, ← List.count_append,
      List.singleton_append]

theorem collect (h : Sums codes months got c)
    (added : (Financials.collect schema t c s).outcome = .ok c') :
    Sums codes months (fun code => got code ++ received schema [s] code) c' := by
  unfold Financials.collect at added
  unfold received destinations
  cases known : channelOf schema s with
  | none =>
    rw [known] at added
    cases added
    exact h.congr (by simp [known])
  | some channel =>
    rw [known] at added
    simpa [known] using h.foldlM_addTo added

theorem foldlM_collect (h : Sums codes months got c)
    (added : (channels.foldlM (Financials.collect schema t) c).outcome = .ok c') :
    Sums codes months (fun code => got code ++ received schema channels code) c' := by
  induction channels generalizing c got with
  | nil =>
    cases added
    exact h.congr (by simp [received])
  | cons s channels ih =>
    rw [List.foldlM_cons, Logged.outcome_bind, bind_eq_ok] at added
    obtain ⟨next, first, rest⟩ := added
    apply (ih (h.collect first) rest).congr
    intro code _
    simp [received]

theorem sized_lines (h : Sums codes months got c) : c.lines.Sized months := by
  intro code
  unfold Lines.read
  cases found : c.lines.lookup code with
  | none => simp
  | some xs =>
    obtain ⟨total, known, sum⟩ := h.sums code (h.keys ▸ Entries.mem_keys_of_lookup found)
    rw [found, Option.some.injEq] at known
    subst known
    exact Series.length_sum sum

end Sums

theorem sums_blank (distinct : (t.items.map (·.code)).Nodup) :
    Sums (t.items.map (·.code)) months (fun _ => []) (⟨blank t months, []⟩ : Collected α) where
  keys := (blank_holds distinct).keys
  sums code known := ⟨_, (blank_holds distinct).sums code known, rfl⟩

theorem exists_collected {f : Financials α} (h : (build channels months schema t).outcome = .ok f) :
    ∃ c, (channels.foldlM (collect schema t) ⟨blank t months, []⟩).outcome = .ok c ∧
      f = ⟨(compute t months c.lines).1, c.contributors, months, .monthly, t⟩ := by
  unfold build at h
  rw [Logged.outcome_bind, bind_eq_ok] at h
  obtain ⟨c, collected, h⟩ := h
  dsimp only at h
  rw [Logged.outcome_bind, Logged.outcome_forM_note, ok_bind] at h
  cases h
  exact ⟨c, collected, rfl⟩

/-- Statements that are built are computed from the sums of what the line items have received. -/
theorem build_ok {f : Financials α} (distinct : (t.items.map (·.code)).Nodup)
    (h : (build channels months schema t).outcome = .ok f) :
    ∃ c, Sums (t.items.map (·.code)) months (received schema channels) c ∧
      f.lines = (compute t months c.lines).1 := by
  obtain ⟨c, collected, rfl⟩ := exists_collected h
  exact ⟨c, ((sums_blank distinct).foldlM_collect collected).congr (by simp), rfl⟩

end Forecast.Financials
