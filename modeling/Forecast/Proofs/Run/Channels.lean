import Forecast.Proofs.Outcome
import Forecast.Run.Channels
import Mathlib.Algebra.BigOperators.Group.List.Basic

/-!
# Channels that are stored

An array has as many numbers as the product of its lengths. So every channel
that is taken from an answer has an amount for each month of the horizon, and
no channel is taken twice.
-/

namespace Forecast

open Outcome

theorem eq_of_sharedShape {as bs shared : List Nat} (h : sharedShape as bs = (shared, true)) :
    as = shared ∧ bs = shared := by
  induction as generalizing bs shared with
  | nil =>
    cases bs with
    | nil =>
      cases h
      exact ⟨rfl, rfl⟩
    | cons b bs => simp [sharedShape] at h
  | cons a as ih =>
    cases bs with
    | nil => simp [sharedShape] at h
    | cons b bs =>
      unfold sharedShape at h
      split at h
      · rename_i same
        cases same
        obtain ⟨rfl, equal⟩ := Prod.mk.inj h
        obtain ⟨ha, hb⟩ := ih (Prod.ext rfl equal)
        exact ⟨congrArg (a :: ·) ha, congrArg (a :: ·) hb⟩
      · simp at h

mutual

theorem Value.length_cells {axes : Nat} {v : Value} {shape : List Nat} {cells : List Float}
    (regular : v.shape axes = (shape, true)) (h : v.cells = .ok cells) :
    cells.length = shape.prod := by
  cases v with
  | list vs =>
    cases axes with
    | zero => simp [Value.shape] at regular
    | succ axes =>
      simp only [Value.shape, Prod.mk.injEq] at regular
      obtain ⟨rfl, regular⟩ := regular
      rw [List.prod_cons]
      exact length_itemsCells (Prod.ext rfl regular) h
  | null =>
    cases regular
    cases h
    rfl
  | _ =>
    cases regular
    simp only [Value.cells, bind_eq_ok, pure_eq_ok] at h
    obtain ⟨x, -, rfl⟩ := h
    rfl

theorem length_itemsCells {axes : Nat} {vs : List Value} {inner : List Nat} {cells : List Float}
    (regular : itemsShape axes vs = (inner, true)) (h : itemsCells vs = .ok cells) :
    cells.length = vs.length * inner.prod := by
  cases vs with
  | nil =>
    cases h
    simp
  | cons v vs =>
    simp only [itemsCells, bind_eq_ok, pure_eq_ok] at h
    obtain ⟨xs, hxs, ys, hys, rfl⟩ := h
    cases vs with
    | nil =>
      have first := Value.length_cells regular hxs
      cases hys
      simpa using first
    | cons w vs =>
      simp only [itemsShape, Prod.mk.injEq, Bool.and_eq_true] at regular
      obtain ⟨shared, ⟨firstRegular, othersRegular⟩, equal⟩ := regular
      obtain ⟨hfirst, hothers⟩ := eq_of_sharedShape (Prod.ext shared equal)
      have first := Value.length_cells (Prod.ext hfirst firstRegular) hxs
      have others := length_itemsCells (Prod.ext hothers othersRegular) hys
      rw [List.length_append, first, others, List.length_cons (a := v), Nat.add_one_mul,
        Nat.add_comm]

end

theorem Grid.length_cells {v : Value} {g : Grid} (h : Grid.ofValue v = .ok g) :
    g.cells.length = g.shape.prod := by
  simp only [Grid.ofValue] at h
  split at h
  · rename_i regular
    simp only [bind_eq_ok, pure_eq_ok] at h
    obtain ⟨cells, hcells, rfl⟩ := h
    exact Value.length_cells (Prod.ext rfl regular) (mapError_eq_ok.1 hcells)
  · split at h <;> cases h

theorem Cell.length_toSeries {c : Cell} {months : Nat} {output place : String}
    {channel : Option String} {xs : Series Float}
    (h : c.toSeries months output place channel = .ok xs) : xs.length = months := by
  simp only [Cell.toSeries, bind_eq_ok] at h
  obtain ⟨g, hg, h⟩ := h
  have cells : g.cells.length = g.shape.prod := by
    cases c with
    | series xs =>
      cases hg
      simp
    | value v => exact Grid.length_cells hg
  split at h
  · rename_i shape
    cases h
    simpa [shape] using cells
  · cases h

variable {cells : Entries Cell} {declared : List String} {output object kind place : String}
  {months : Nat} {channels : Entries (Series Float)}

theorem declaredChannels_ok
    (h : declaredChannels cells declared output place months = .ok channels) :
    channels.keys = cells.keys.filter (fun name => declared.contains name) ∧
      ∀ e ∈ channels, e.2.length = months := by
  have each : ∀ (e : String × Cell) (e' : String × Series Float),
      (do let xs ← e.2.toSeries months output place (some e.1); return (e.1, xs)) = .ok e' →
        e'.1 = e.1 ∧ e'.2.length = months := by
    intro e e' he
    simp only [bind_eq_ok, pure_eq_ok] at he
    obtain ⟨xs, hxs, rfl⟩ := he
    exact ⟨rfl, Cell.length_toSeries hxs⟩
  constructor
  · rw [Entries.keys, map_of_mapM (·.1) (·.1) (fun e e' he => (each e e' he).1) h, Entries.keys,
      List.filter_map]
    rfl
  · intro e' he'
    obtain ⟨e, -, he⟩ := exists_of_mem_mapM h he'
    exact (each e e' he).2

theorem selectChannels_ok (distinct : cells.keys.Nodup)
    (h : selectChannels cells declared output object kind months = .ok channels) :
    channels.keys.Nodup ∧ ∀ e ∈ channels, e.2.length = months := by
  unfold selectChannels at h
  split at h
  · obtain ⟨keys, lengths⟩ := declaredChannels_ok h
    rw [keys]
    exact ⟨distinct.filter _, lengths⟩
  · split at h
    · cases h
    · simp only [bind_eq_ok, pure_eq_ok] at h
      obtain ⟨xs, hxs, rfl⟩ := h
      refine ⟨by simp [Entries.keys], ?_⟩
      intro e he
      cases List.mem_singleton.1 he
      exact Cell.length_toSeries hxs
    · cases h

end Forecast
