import Forecast.Proofs.Run.Agreement

/-!
# Changes stay downstream

What the user says about an output, its overrides and its own assumptions, is
read by this output alone. Others see a change of it only through the store. So
two runs that differ in what is said about one output agree on every output
that does not depend on it, directly or through others, and on the totals of
the objects that have no such output.
-/

namespace Forecast

open Outcome Relation

/-- An output is downstream of another if it is reached from there along dependents. -/
def Plan.Downstream (p : Plan) : String → String → Prop :=
  ReflTransGen fun producer consumer => consumer ∈ (p.order.dependents.lookup producer).getD []

/-- Names that no dependent leads out of hold all that is downstream of them. -/
theorem Plan.Downstream.mem_of_closed {p : Plan} {names : List String}
    (closed : ∀ a ∈ names, ∀ b ∈ (p.order.dependents.lookup a).getD [], b ∈ names) {a b : String}
    (h : p.Downstream a b) (start : a ∈ names) : b ∈ names := by
  induction h with
  | refl => exact start
  | tail _ last ih => exact closed _ ih _ last

/-- Assumptions that differ at most in those of one output. -/
structure Assumptions.EqualBut (output : String) (a a' : Assumptions) : Prop where
  object : ∀ object, (a'.lookup object).map (·.object) = (a.lookup object).map (·.object)
  outputs : ∀ object other, other ≠ output →
    (a'.lookup object).bind (·.outputs.lookup other) =
      (a.lookup object).bind (·.outputs.lookup other)

/-- Conditions that differ at most in what is said about one output. -/
structure Conditions.EqualBut (output : String) (c c' : Conditions) : Prop where
  schema : c'.schema = c.schema
  months : c'.months = c.months
  registry : c'.registry = c.registry
  overrides : ∀ other, other ≠ output → c'.overrides.lookup other = c.overrides.lookup other
  assumptions : c.assumptions.EqualBut output c'.assumptions

theorem Assumptions.EqualBut.settings_eq {output other : String} {a a' : Assumptions}
    (equal : a.EqualBut output a') (ne : other ≠ output) (object : String) :
    a'.settings object other = a.settings object other := by
  have here := equal.object object
  have fields := equal.outputs object other ne
  simp only [Assumptions.settings]
  cases found : a.lookup object with
  | none =>
    rw [found, Option.map_none, Option.map_eq_none_iff] at here
    rw [here]
  | some o =>
    rw [found, Option.map_some, Option.map_eq_some_iff] at here
    obtain ⟨o', found', same⟩ := here
    rw [found, found', Option.bind_some, Option.bind_some] at fields
    simp only [found', same, fields]

namespace Run

variable {p : Plan} {c c' : Conditions} {r r' : Results} {output changed : String}

theorem answer_eq (equal : c.EqualBut changed c') (ne : output ≠ changed) (d : Definition)
    (inputs : List (Series Float)) : answer c' d output inputs = answer c d output inputs := by
  simp only [answer, equal.schema, equal.registry, equal.months, equal.assumptions.settings_eq ne]

theorem overridden_eq (equal : c.EqualBut changed c') (ne : output ≠ changed)
    (channels : Entries (Series Float)) :
    overridden c' output channels = overridden c output channels := by
  simp only [overridden, Overrides.apply, Overrides.months, equal.overrides output ne]

theorem stores_eq_of_equalBut (sound : p.Sound) (equal : c.EqualBut changed c')
    (ne : output ≠ changed) (known : output ∈ p.order.order) (store : Store) :
    stores p.model p.symbols c' store output = stores p.model p.symbols c store output := by
  obtain ⟨d, hd, feed, hfeed⟩ := sound.exists_feed known
  simp only [stores_eq sound hd hfeed, equal.months, answer_eq equal ne, overridden_eq equal ne]

/-- Runs that differ in what is said about one output agree on what is not downstream of it. -/
theorem Reached.agreeOn_of_not_downstream (sound : p.Sound) (equal : c.EqualBut changed c')
    (reached : Reached p c p.order.order r) (reached' : Reached p c' p.order.order r') :
    ∀ output ∈ p.order.order, ¬p.Downstream changed output → r.AgreeOn r' output := by
  refine sound.induction ?_
  intro output known ih beside
  have ne : output ≠ changed := by
    rintro rfl
    exact beside .refl
  refine reached.agreeOn sound reached' known known (stores_eq_of_equalBut sound equal ne known) ?_
  intro producer depends
  apply ih producer depends
  intro behind
  exact beside (behind.tail ((sound.sorts.dependents output producer).2 depends))

/-- A change of what is said about one output reaches, besides it, nothing but outputs downstream of
it and totals of objects with such an output. -/
theorem unchanged_beside_downstream {m : Model} (named : m.Named) (plan : Plan.ofModel m = .ok p)
    (equal : c.EqualBut changed c') (run : (execute p c).outcome = .ok r)
    (run' : (execute p c').outcome = .ok r') :
    (∀ output ∈ p.order.order, ¬p.Downstream changed output → r.AgreeOn r' output) ∧
      ∀ object ∈ p.symbols.outputsByObject, (∀ o ∈ object.2, ¬p.Downstream changed o) →
        ∀ channel, r'.store.lookup (storeKey object.1 channel) =
          r.store.lookup (storeKey object.1 channel) := by
  have sound := Plan.sound_of_ofModel named plan
  obtain ⟨r₀, -, reached, rolled, same⟩ := execute_ok sound run
  obtain ⟨r₀', -, reached', rolled', same'⟩ := execute_ok sound run'
  have agree := reached.agreeOn_of_not_downstream sound equal reached'
  constructor
  · intro output known beside
    rw [same, same']
    refine (agree output known beside).extend ?_ rolled.extends rolled'.extends
    exact fun channel stored => reached.mem_keys.2 ⟨output, known, channel, stored, rfl⟩
  · intro object mem beside
    refine rolled.lookup_object_eq sound sound reached reached' rolled' mem mem equal.months ?_
    exact fun o ho => agree o (sound.mem_order_of_object mem ho) (beside o ho)

def chainBeside : String :=
  "S:\nA = Sum(7) => a\nB = Sum(a.val) => b\nC = Sum(5) => c"

def plainSums : Conditions :=
  { sums with overrides := [] }

def firstOverridden : Conditions :=
  { plainSums with overrides := [("a", some [("val", some [(.int 1, .float 3)])])] }

theorem plainSums_equalBut : plainSums.EqualBut "a" firstOverridden where
  schema := rfl
  months := rfl
  registry := rfl
  overrides other ne := by
    have ne : (other == "a") = false := by simpa using ne
    simp [firstOverridden, plainSums, List.lookup_cons, ne]
  assumptions := ⟨fun _ => rfl, fun _ _ _ => rfl⟩

theorem unchanged_chainBeside : ∃ p r r', Plan.ofSource chainBeside = .ok p ∧
    (execute p plainSums).outcome = .ok r ∧ (execute p firstOverridden).outcome = .ok r' ∧
    p.Downstream "a" "b" ∧ ¬p.Downstream "a" "c" ∧ r.AgreeOn r' "c" ∧
      ∀ channel, r'.store.lookup (storeKey "C" channel) =
        r.store.lookup (storeKey "C" channel) := by
  have planned : (Plan.ofSource chainBeside).toOption.map (fun p =>
      (p.order.dependents, p.order.order, p.symbols.outputsByObject)) =
      some ([("a", ["b"]), ("b", []), ("c", [])], ["a", "c", "b"],
        [("A", ["a"]), ("B", ["b"]), ("C", ["c"])]) := by decide +kernel
  have runs : (Plan.ofSource chainBeside).toOption.map (fun p =>
      ((execute p plainSums).outcome.toOption.isSome,
        (execute p firstOverridden).outcome.toOption.isSome)) = some (true, true) := by
    decide +kernel
  obtain ⟨p, plan, same⟩ := exists_of_toOption_map planned
  simp only [Prod.mk.injEq] at same
  obtain ⟨dependents, order, objects⟩ := same
  rw [plan] at runs
  obtain ⟨first, second⟩ := Prod.mk.inj (Option.some.inj runs)
  obtain ⟨r, run⟩ := exists_of_isSome_toOption first
  obtain ⟨r', run'⟩ := exists_of_isSome_toOption second
  have beside : ¬p.Downstream "a" "c" := by
    intro behind
    have closed : ∀ a ∈ ["a", "b"], ∀ b ∈ (p.order.dependents.lookup a).getD [],
        b ∈ ["a", "b"] := by
      rw [dependents]
      decide
    have mem := behind.mem_of_closed closed (by simp)
    simp at mem
  obtain ⟨m, named, ofModel⟩ := Plan.exists_model plan
  obtain ⟨outputs, totals⟩ := unchanged_beside_downstream named ofModel plainSums_equalBut run run'
  refine ⟨p, r, r', plan, run, run', .single (by simp [dependents]), beside, ?_, ?_⟩
  · exact outputs "c" (by simp [order]) beside
  · exact totals ("C", ["c"]) (by simp [objects]) (by simpa using beside)

end Run
end Forecast
