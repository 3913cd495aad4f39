import Forecast.Proofs.Statement.Evaluation
import Mathlib.Data.List.Nodup

/-!
# Collecting channels

Channels whose series fit the horizon are collected without a fault. A line
item of the template then holds the sum of all channels that name it as a
destination, from left to right, each as often as it names the item, and has
them on record as its contributors. A destination that the template does not
have makes a notice instead.
-/

namespace Forecast.Financials

variable {α : Type} [Amount α] {schema : Schema} {t : Template} {months : Nat} {s : ChannelSeries α}
  {channels : List (ChannelSeries α)} {c : Collected α}

/-- The line items that a channel is added to. -/
def destinations (schema : Schema) (s : ChannelSeries α) : List String :=
  ((channelOf schema s).map (·.destinations)).getD []

def received (schema : Schema) (channels : List (ChannelSeries α)) (code : String) :
    List (Series α) :=
  channels.flatMap fun s => List.replicate ((destinations schema s).count code) s.amounts

/-- The line items while channels are added: each code holds the sum of what it has got. -/
structure Holds (codes : List String) (months : Nat) (got : String → List (Series α))
    (c : Collected α) : Prop where
  keys : c.lines.keys = codes
  sums : ∀ code ∈ codes,
    c.lines.lookup code = some ((got code).foldl Lines.plus (Series.zeros months))
  sized : ∀ code xs, c.lines.lookup code = some xs → xs.length = months

namespace Holds

variable {codes : List String} {got : String → List (Series α)}

theorem congr {got' : String → List (Series α)} (h : Holds codes months got c)
    (same : ∀ code ∈ codes, got code = got' code) : Holds codes months got' c where
  keys := h.keys
  sums code known := by rw [← same code known, h.sums code known]
  sized := h.sized

theorem sized_lines (h : Holds codes months got c) : c.lines.Sized months := by
  intro code
  unfold Lines.read
  cases found : c.lines.lookup code with
  | none => simp
  | some xs => exact h.sized code xs found

theorem put {destination : String} {total : Series α} (h : Holds codes months got c)
    (found : c.lines.lookup destination = some total) (fits : s.amounts.length = months)
    (contributors : Entries (List (Contributor α))) :
    Holds codes months (fun code => got code ++ List.replicate ([destination].count code) s.amounts)
      ⟨c.lines.put destination (Lines.plus total s.amounts), contributors⟩ where
  keys := by
    rw [Entries.keys_put, if_pos (Entries.mem_keys_of_lookup found), h.keys]
  sums code known := by
    rw [Entries.lookup_put]
    split
    · rename_i own
      subst own
      have before := h.sums code known
      rw [found, Option.some.injEq] at before
      simp [before]
    · rename_i other
      have other' : destination ≠ code := Ne.symm other
      simp [h.sums code known, other']
  sized code xs hxs := by
    rw [Entries.lookup_put] at hxs
    split at hxs
    · cases hxs
      rw [Lines.plus, List.length_zipWith, h.sized destination total found, fits, Nat.min_self]
    · exact h.sized code xs hxs

end Holds

section

omit [Amount α]

/-- What a channel contributes to a line item, once for each time it names the item. -/
def contributions (schema : Schema) (code : String) (s : ChannelSeries α) : List (Contributor α) :=
  match channelOf schema s with
  | none => []
  | some channel =>
    List.replicate (channel.destinations.count code)
      ⟨s.kind, s.output, s.channel, labelOf channel s, s.amounts⟩

/-- What channels contribute to a line item, in order. -/
def contributorsOf (schema : Schema) (channels : List (ChannelSeries α)) (code : String) :
    List (Contributor α) :=
  channels.flatMap (contributions schema code)

/-- A notice for each time that a channel names an item which the template does not have. -/
def strays (schema : Schema) (t : Template) (s : ChannelSeries α) : List Notice :=
  ((destinations schema s).filter fun d => d ∉ t.items.map (·.code)).map fun d =>
    .unknownDestination d s.output s.channel s.kind t.name

theorem amounts_contributorsOf (schema : Schema) (channels : List (ChannelSeries α))
    (code : String) :
    (contributorsOf schema channels code).map (·.amounts) = received schema channels code := by
  rw [contributorsOf, received, List.map_flatMap]
  congr 1
  funext s
  unfold contributions destinations
  cases channelOf schema s <;> simp

end

/-- The line items of a template while channels are added: each code holds the sum of what it has
been given, and has it on record. -/
structure Credited (t : Template) (months : Nat) (given : String → List (Contributor α))
    (c : Collected α) : Prop
    extends Holds (t.items.map (·.code)) months (fun code => (given code).map (·.amounts)) c where
  distinct : c.contributors.keys.Nodup
  recorded : ∀ code, c.contributors.lookup code =
    if code ∈ t.items.map (·.code) ∧ given code ≠ [] then some (given code) else none

namespace Credited

variable {given : String → List (Contributor α)}

theorem congr {given' : String → List (Contributor α)} (h : Credited t months given c)
    (same : ∀ code ∈ t.items.map (·.code), given code = given' code) :
    Credited t months given' c where
  toHolds := h.toHolds.congr fun code known => by rw [same code known]
  distinct := h.distinct
  recorded code := by
    rw [h.recorded]
    by_cases known : code ∈ t.items.map (·.code)
    · rw [same code known]
    · simp [known]

theorem mem_keys (h : Credited t months given c) {code : String} :
    code ∈ c.lines.keys ↔ code ∈ t.items.map (·.code) := by
  rw [h.keys]

theorem addTo (h : Credited t months given c) (label : String) (fits : s.amounts.length = months)
    (destination : String) :
    ∃ c', Financials.addTo t label s c destination =
        ⟨if destination ∈ t.items.map (·.code) then []
          else [.unknownDestination destination s.output s.channel s.kind t.name], .ok c'⟩ ∧
      Credited t months (fun code => given code ++
        List.replicate ([destination].count code) ⟨s.kind, s.output, s.channel, label,
          s.amounts⟩) c' := by
  unfold Financials.addTo
  cases found : c.lines.lookup destination with
  | none =>
    have unknown : destination ∉ t.items.map (·.code) :=
      h.mem_keys.not.1 (Entries.lookup_eq_none.1 found)
    rw [if_neg unknown]
    refine ⟨c, rfl, h.congr ?_⟩
    intro code known
    have other : destination ≠ code := by
      rintro rfl
      exact unknown known
    simp [other]
  | some total =>
    have known : destination ∈ t.items.map (·.code) :=
      h.mem_keys.1 (Entries.mem_keys_of_lookup found)
    have same : total.length = s.amounts.length := by rw [fits, h.sized destination total found]
    rw [if_pos known]
    dsimp only
    rw [Series.add_of_length_eq same]
    refine ⟨_, rfl, ?_, ?_, ?_⟩
    · apply (h.toHolds.put found fits _).congr
      intro code _
      rw [List.map_append, List.map_replicate]
    · exact Entries.nodup_keys_put _ _ h.distinct
    · intro code
      rw [Entries.lookup_put]
      by_cases own : code = destination
      · subst own
        have earlier : (c.contributors.lookup code).getD [] = given code := by
          rw [h.recorded]
          by_cases none : given code = [] <;> simp [none, known]
        simp [earlier, known]
      · have other : destination ≠ code := Ne.symm own
        simp [own, other, h.recorded code]

theorem foldlM_addTo (h : Credited t months given c) (label : String)
    (fits : s.amounts.length = months) (destinations : List String) :
    ∃ c', destinations.foldlM (Financials.addTo t label s) c =
        ⟨(destinations.filter fun d => d ∉ t.items.map (·.code)).map fun d =>
          .unknownDestination d s.output s.channel s.kind t.name, .ok c'⟩ ∧
      Credited t months (fun code => given code ++ List.replicate (destinations.count code)
        ⟨s.kind, s.output, s.channel, label, s.amounts⟩) c' := by
  rw [← flatMap_notices]
  refine Logged.exists_foldlM (P := fun made c => Credited t months (fun code => given code ++
    List.replicate (made.count code) ⟨s.kind, s.output, s.channel, label, s.amounts⟩) c)
    ?_ [] (h.congr (by simp))
  intro made d _ c kept
  obtain ⟨next, added, kept⟩ := kept.addTo label fits d
  refine ⟨next, added, kept.congr ?_⟩
  intro code _
  rw [List.append_assoc, List.replicate_append_replicate, ← List.count_append]

theorem collect (schema : Schema) (h : Credited t months given c)
    (fits : s.amounts.length = months) :
    ∃ c', Financials.collect schema t c s = ⟨strays schema t s, .ok c'⟩ ∧
      Credited t months (fun code => given code ++ contributions schema code s) c' := by
  unfold Financials.collect contributions strays destinations
  cases known : channelOf schema s with
  | none => exact ⟨c, rfl, h.congr (by simp)⟩
  | some channel => exact h.foldlM_addTo (labelOf channel s) fits channel.destinations

end Credited

omit [Amount α] in
theorem length_of_mem_received {code : String} {xs : Series α}
    (fits : ∀ s ∈ channels, s.amounts.length = months) (mem : xs ∈ received schema channels code) :
    xs.length = months := by
  obtain ⟨s, hs, mem⟩ := List.mem_flatMap.1 mem
  rw [List.eq_of_mem_replicate mem]
  exact fits s hs

theorem blank_holds (distinct : (t.items.map (·.code)).Nodup) :
    Holds (t.items.map (·.code)) months (fun _ => []) (⟨blank t months, []⟩ : Collected α) := by
  have zeros : (blank t months : Lines α) = t.items.map fun i => (i.code, Series.zeros months) := by
    apply Entries.ofList_of_nodup
    simpa [Entries.keys, Function.comp_def] using distinct
  refine ⟨?_, ?_, ?_⟩
  · simp [zeros, Entries.keys, Function.comp_def]
  · intro code known
    obtain ⟨i, hi, rfl⟩ := List.mem_map.1 known
    have entry : (i.code, Series.zeros months) ∈ (blank t months : Lines α) := by
      rw [zeros]
      exact List.mem_map.2 ⟨i, hi, rfl⟩
    exact Entries.lookup_of_mem (Entries.nodup_keys_ofList _) entry
  · intro code xs found
    obtain ⟨i, -, same⟩ := List.mem_map.1 (zeros ▸ Entries.mem_of_lookup found)
    cases same
    simp

theorem blank_credited (distinct : (t.items.map (·.code)).Nodup) :
    Credited t months (contributorsOf schema []) (⟨blank t months, []⟩ : Collected α) where
  toHolds := blank_holds distinct
  distinct := List.nodup_nil
  recorded code := by simp [contributorsOf]

/-- Channels are collected one after another, with a notice for each stray destination. -/
theorem exists_credited (schema : Schema) (distinct : (t.items.map (·.code)).Nodup)
    (fits : ∀ s ∈ channels, s.amounts.length = months) :
    ∃ c, channels.foldlM (collect schema t) ⟨blank t months, []⟩ =
        ⟨channels.flatMap (strays schema t), .ok c⟩ ∧
      Credited t months (contributorsOf schema channels) c := by
  refine Logged.exists_foldlM (P := fun made c => Credited t months (contributorsOf schema made) c)
    ?_ [] (blank_credited distinct)
  intro made s hs c kept
  obtain ⟨next, added, kept⟩ := kept.collect schema (fits s hs)
  refine ⟨next, added, kept.congr ?_⟩
  intro code _
  simp [contributorsOf]

theorem build_of_collect
    (collected : (channels.foldlM (collect schema t) ⟨blank t months, []⟩).outcome = .ok c) :
    (build channels months schema t).outcome =
      .ok ⟨(compute t months c.lines).1, c.contributors, months, .monthly, t⟩ := by
  unfold build
  rw [Logged.outcome_bind, collected]
  exact (Logged.outcome_bind _ _).trans (by rw [Logged.outcome_forM_note]; rfl)

theorem exists_build (schema : Schema) (distinct : (t.items.map (·.code)).Nodup)
    (fits : ∀ s ∈ channels, s.amounts.length = months) :
    ∃ c, Holds (t.items.map (·.code)) months (received schema channels) c ∧
      (build channels months schema t).outcome = .ok
        ⟨(compute t months c.lines).1, c.contributors, months, .monthly, t⟩ := by
  obtain ⟨c, collected, credited⟩ := exists_credited schema distinct fits
  refine ⟨c, credited.toHolds.congr ?_, build_of_collect (congrArg Logged.outcome collected)⟩
  exact fun code _ => amounts_contributorsOf schema channels code

end Forecast.Financials
