import Forecast.Proofs.Statement.Exact
import Forecast.Proofs.Statement.Ordered
import Forecast.Proofs.Statement.Received
import Forecast.Proofs.Statement.Standard

/-!
# Equations of line items

A line item has an equation: it is what it has received, the sum of its children
by their signs, or what its formula asks for, and the running total of that
where it accumulates. The equations are about the final amounts of all codes,
month by month. The lines of an ordered template satisfy all of them at once.
-/

namespace Forecast

variable {α : Type} [Amount α] {t : Template} {lines : Lines α} {months m : Nat} {i : LineItem}

namespace Lines

/-- The amount of a code in a month; an unknown code counts as zero. -/
def amount (lines : Lines α) (code : String) (m : Nat) : α :=
  ((lines.lookup code).bind fun xs => xs[m]?).getD 0

/-- The signed sum of codes in a month, from left to right. -/
def signedAmount (lines : Lines α) (terms : List (Sign × String)) (m : Nat) : α :=
  terms.foldl (fun sum t => sum + factor t.1 * lines.amount t.2 m) 0

end Lines

def Template.leavesBelow (t : Template) (above : String) : List LineItem :=
  t.leaves.filter fun i => isBelow above i.code

/-- What a formula asks for in each month. -/
def Formula.amount (t : Template) (lines : Lines α) : Formula → Nat → α
  | .leaves above, m =>
    (t.leavesBelow above).foldl (fun sum i => sum + lines.amount i.code m) 0
  | .copy code, m => lines.amount code m
  | .runningTotal code, m => Series.cumulated (lines.amount code) m
  | .signedSum terms, m => lines.signedAmount terms m

namespace LineItem

/-- The children of an item with their signs. -/
def signedChildren (t : Template) (i : LineItem) : List (Sign × String) :=
  i.childCodes.map fun code => (((t.find? code).map (·.sign)).getD .plus, code)

/-- What an item adds up in each month: its formula, else its children, else what it has
received. -/
def base (t : Template) (lines : Lines α) (received : Series α) (i : LineItem) (m : Nat) : α :=
  match i.formula? with
  | some text => (Formula.ofText text).amount t lines m
  | none =>
    if i.hasChildren then lines.signedAmount (i.signedChildren t) m else received[m]?.getD 0

/-- Whether an item reports the running total of what it adds up: a cumulative leaf, or a cumulative
item whose formula is no running total already. -/
def accumulates (i : LineItem) : Bool :=
  i.cumulative &&
    match i.formula? with
    | some text => !(Formula.ofText text).isRunningTotal
    | none => !i.hasChildren

/-- A cumulative item whose formula starts like a running total, but is none. -/
def isHalfRunning (i : LineItem) : Bool :=
  i.cumulative &&
    match i.formula? with
    | some text => Formula.startsRunningTotal text && !(Formula.ofText text).isRunningTotal
    | none => false

/-- The equation of an item: its amount in every month, from the amounts of all codes. -/
def Satisfied (t : Template) (months : Nat) (received : Series α) (i : LineItem)
    (lines : Lines α) : Prop :=
  ∃ xs, lines.lookup i.code = some xs ∧ xs.length = months ∧ ∀ m < months,
    xs[m]? = some (if i.accumulates then Series.cumulated (i.base t lines received) m
      else i.base t lines received m)

end LineItem

theorem LineItem.Satisfied.amount {received : Series α} (h : i.Satisfied t months received lines)
    (inside : m < months) :
    lines.amount i.code m =
      if i.accumulates then Series.cumulated (i.base t lines received) m
        else i.base t lines received m := by
  obtain ⟨xs, found, -, each⟩ := h
  rw [Lines.amount, found, Option.bind_some, each m inside, Option.getD_some]

/-- A code is one level below another if it continues it by a point and one part without points. -/
theorem isBelow_iff {above code : String} :
    isBelow above code = true ↔
      ∃ part : String, code = above ++ "." ++ part ∧ '.' ∉ part.toList := by
  simp only [isBelow, Bool.and_eq_true, List.isPrefixOf_iff_prefix, beq_iff_eq]
  constructor
  · rintro ⟨⟨part, continues⟩, level⟩
    refine ⟨String.ofList part, ?_, ?_⟩
    · rw [← String.toList_inj, ← continues]
      simp
    · rw [← continues] at level
      rw [String.toList_ofList, ← List.count_eq_zero]
      simp only [String.toList_append, List.count_append] at level
      have point : List.count '.' (".".toList) = 1 := by decide
      omega
  · rintro ⟨part, rfl, plain⟩
    refine ⟨⟨part.toList, by simp⟩, ?_⟩
    have none := List.count_eq_zero.2 plain
    have point : List.count '.' (".".toList) = 1 := by decide
    simp only [String.toList_append, List.count_append]
    omega

namespace Template

theorem lookup_byCode (distinct : (t.items.map (·.code)).Nodup) (code : String) :
    t.byCode.lookup code = t.find? code := by
  rw [byCode_of_distinct distinct, find?]
  induction t.items with
  | nil => rfl
  | cons i items ih =>
    rw [List.map_cons, List.lookup_cons, List.find?_cons, ih, Bool.beq_comm]

theorem childTerms_byCode (distinct : (t.items.map (·.code)).Nodup) (i : LineItem) :
    Lines.childTerms t.byCode i = i.signedChildren t := by
  simp only [Lines.childTerms, LineItem.signedChildren, lookup_byCode distinct]

theorem leafCodes_byCode (distinct : (t.items.map (·.code)).Nodup) (above : String) :
    Lines.leafCodes t.byCode above = (t.leavesBelow above).map (·.code) := by
  rw [byCode_of_distinct distinct, Lines.leafCodes, leavesBelow, leaves, List.filter_filter,
    Entries.keys, List.filter_map, List.map_map]
  rfl

end Template

/-- The months of a sum of series are the sums of their months. -/
theorem Lines.getElem?_foldl_plus {β : Type} {f : β → Series α} {g : β → α} {terms : List β}
    {total : Series α} {start : α} (each : ∀ t ∈ terms, (f t)[m]? = some (g t))
    (first : total[m]? = some start) :
    (terms.foldl (fun total t => plus total (f t)) total)[m]? =
      some (terms.foldl (fun sum t => sum + g t) start) := by
  induction terms generalizing total start with
  | nil => exact first
  | cons t terms ih =>
    apply ih fun u hu => each u (List.mem_cons_of_mem _ hu)
    simp [plus, List.getElem?_zipWith, first, each t (by simp)]

namespace Lines.Sized

variable (sized : lines.Sized months)
include sized

theorem getElem?_read (inside : m < months) (code : String) :
    (lines.read months code)[m]? = some (lines.amount code m) := by
  have length := sized code
  unfold read amount at *
  cases found : lines.lookup code with
  | none => simpa using Series.getElem?_zeros inside
  | some xs =>
    rw [found, Option.getD_some] at length
    have within : m < xs.length := by omega
    simp [within]

theorem getElem?_signedSum (inside : m < months) (terms : List (Sign × String)) :
    (signedSum lines months terms)[m]? = some (lines.signedAmount terms m) := by
  apply getElem?_foldl_plus
  · intro t _
    rw [List.getElem?_map, sized.getElem?_read inside]
    rfl
  · exact Series.getElem?_zeros inside

theorem getElem?_formula (distinct : (t.items.map (·.code)).Nodup) (inside : m < months)
    (f : Formula) :
    (lines.formula t.byCode months f)[m]? = some (f.amount t lines m) := by
  cases f with
  | leaves above =>
    rw [formula, Template.leafCodes_byCode distinct, List.foldl_map]
    exact getElem?_foldl_plus (fun i _ => sized.getElem?_read inside i.code)
      (Series.getElem?_zeros inside)
  | copy code => exact sized.getElem?_read inside code
  | runningTotal code =>
    apply Series.getElem?_runningTotal
    intro k hk
    exact sized.getElem?_read (by omega) code
  | signedSum terms => exact sized.getElem?_signedSum inside terms

end Lines.Sized

theorem Series.getElem?_running (running : Bool) {xs : Series α} {amount : Nat → α}
    (inside : m < months) (each : ∀ k < months, xs[k]? = some (amount k)) :
    (if running then runningTotal xs else xs)[m]? =
      some (if running then cumulated amount m else amount m) := by
  cases running with
  | false => exact each m inside
  | true => exact getElem?_runningTotal fun k hk => each k (by omega)

/-- Whether a formula's running total is taken once more is told by how it starts, unless that
misleads. -/
theorem LineItem.accumulates_of_formula {text : String} (clear : i.isHalfRunning = false)
    (formula : i.formula? = some text) :
    i.accumulates = (i.cumulative && !Formula.startsRunningTotal text) := by
  unfold accumulates
  unfold isHalfRunning at clear
  simp only [formula] at clear ⊢
  cases kind : (Formula.ofText text).isRunningTotal with
  | false =>
    rw [kind, Bool.not_false, Bool.and_true] at clear
    cases cumulative : i.cumulative with
    | false => rfl
    | true =>
      rw [cumulative, Bool.true_and] at clear
      rw [clear]
  | true =>
    obtain ⟨code, total⟩ := Formula.exists_code_of_isRunningTotal kind
    rw [Formula.startsRunningTotal_of_ofText total]

theorem Lines.Sized.getElem?_evaluate (sized : lines.Sized months)
    (distinct : (t.items.map (·.code)).Nodup) (clear : i.isHalfRunning = false)
    (inner : i.isLeaf = false) (received : Series α) (inside : m < months) :
    (lines.evaluate t.byCode months i).1[m]? =
      some (if i.accumulates then Series.cumulated (i.base t lines received) m
        else i.base t lines received m) := by
  unfold Lines.evaluate LineItem.base
  cases formula : i.formula? with
  | some text =>
    rw [LineItem.accumulates_of_formula clear formula]
    exact Series.getElem?_running _ inside fun k hk => sized.getElem?_formula distinct hk _
  | none =>
    have children : i.hasChildren = true := by
      simpa [LineItem.isLeaf, formula] using inner
    have once : i.accumulates = false := by
      simp [LineItem.accumulates, formula, children]
    rw [once, Template.childTerms_byCode distinct]
    simp only [children, if_true]
    exact sized.getElem?_signedSum inside _

theorem Lines.getElem?_evaluate_of_leaf {before : Lines α} {received : Series α}
    (leaf : i.isLeaf = true) (found : before.lookup i.code = some received)
    (length : received.length = months) (inside : m < months) :
    (before.evaluate t.byCode months i).1[m]? =
      some (if i.accumulates then Series.cumulated (i.base t lines received) m
        else i.base t lines received m) := by
  obtain ⟨noFormula, childless⟩ := LineItem.isLeaf_iff.1 leaf
  have accumulates : i.accumulates = i.cumulative := by
    simp [LineItem.accumulates, noFormula, childless]
  have base : i.base t lines received = fun m => received[m]?.getD 0 := by
    funext m
    simp [LineItem.base, noFormula, childless]
  have each : ∀ k < months, received[k]? = some (received[k]?.getD 0) := by
    intro k hk
    have within : k < received.length := by omega
    simp [within]
  rw [accumulates, base, Lines.evaluate_of_leaf leaf, Lines.read, found]
  exact Series.getElem?_running _ inside each

namespace Lines

theorem keys_run {items : Entries LineItem} {order : List LineItem}
    (known : ∀ i ∈ order, i.code ∈ lines.keys) :
    (run items months order lines).keys = lines.keys := by
  induction order generalizing lines with
  | nil => rfl
  | cons i order ih =>
    have here : (lines.put i.code (lines.evaluate items months i).1).keys = lines.keys := by
      rw [Entries.keys_put, if_pos (known i (by simp))]
    rw [run, List.foldl_cons, ← run, ih, here]
    intro j hj
    rw [here]
    exact known j (List.mem_cons_of_mem _ hj)

end Lines

namespace Financials

variable {schema : Schema} {channels : List (ChannelSeries α)} {f : Financials α}

theorem satisfied_of_build (distinct : (t.items.map (·.code)).Nodup) (ordered : t.Ordered)
    (built : (build channels months schema t).outcome = .ok f) (known : i ∈ t.items)
    (clear : i.isHalfRunning = false) :
    ∃ total, Series.sum months (received schema channels i.code) = .ok total ∧
      i.Satisfied t months total f.lines := by
  obtain ⟨c, sums, lines⟩ := build_ok distinct built
  have code := List.mem_map_of_mem (f := LineItem.code) known
  obtain ⟨total, found, sum⟩ := sums.sums i.code code
  have sized := sized_compute t sums.sized_lines
  refine ⟨total, sum, f.lines.read months i.code, ?_, ?_, ?_⟩
  · rw [lines]
    exact lookup_compute code
  · rw [lines]
    exact sized i.code
  · intro m inside
    rw [lines]
    cases kind : i.isLeaf with
    | true =>
      rw [read_compute_of_leaf distinct known kind]
      exact Lines.getElem?_evaluate_of_leaf kind found (Series.length_sum sum) inside
    | false =>
      rw [read_compute_of_ordered ordered distinct known kind]
      exact sized.getElem?_evaluate distinct clear kind total inside

theorem keys_build (distinct : (t.items.map (·.code)).Nodup)
    (built : (build channels months schema t).outcome = .ok f) :
    f.lines.keys = t.items.map (·.code) := by
  obtain ⟨c, sums, lines⟩ := build_ok distinct built
  rw [lines, fst_compute, Lines.keys_run, sums.keys]
  intro i hi
  rw [sums.keys]
  exact List.mem_map_of_mem (t.evaluated_perm.mem_iff.1 hi)

/-- The lines of an ordered template have its codes and satisfy the equations of all its items, also
where channels do not fit the horizon but are added all the same; channels that fit are never
refused. The standard template is ordered. -/
theorem satisfied :
    ((Template.standard.items.map (·.code)).Nodup ∧ Template.standard.Ordered ∧
      ∀ i ∈ Template.standard.items, i.isHalfRunning = false) ∧
    ∀ t : Template, (t.items.map (·.code)).Nodup → t.Ordered →
      ∀ (schema : Schema) (channels : List (ChannelSeries α)) (months : Nat),
        ((∀ s ∈ channels, s.amounts.length = months) →
          ∃ f, (build channels months schema t).outcome = .ok f) ∧
        ∀ f, (build channels months schema t).outcome = .ok f →
          f.lines.keys = t.items.map (·.code) ∧
          ∀ i ∈ t.items, i.isHalfRunning = false →
            ∃ total, Series.sum months (received schema channels i.code) = .ok total ∧
              i.Satisfied t months total f.lines := by
  refine ⟨⟨Template.standard_distinct, Template.standard_ordered, by decide⟩, ?_⟩
  intro t distinct ordered schema channels months
  refine ⟨?_, ?_⟩
  · intro fits
    obtain ⟨c, -, built⟩ := exists_build schema distinct fits
    exact ⟨_, built⟩
  · intro f built
    refine ⟨keys_build distinct built, ?_⟩
    intro i known clear
    exact satisfied_of_build distinct ordered built known clear

def tank : Template where
  name := "Tank"
  statements :=
    [("flow", ⟨"flow", "Flow", "",
      [⟨"flow", none, 0, .plus, none, false, false, some ["flow.in", "flow.out"]⟩,
        ⟨"flow.in", none, 1, .plus, none, false, false, none⟩,
        ⟨"flow.out", none, 1, .minus, none, false, false, none⟩]⟩),
      ("stock", ⟨"stock", "Stock", "",
        [⟨"level", none, 0, .plus, some "cumsum(flow)", false, false, none⟩,
          ⟨"moved", none, 0, .plus, some "sum(flow.*)", true, false, none⟩]⟩)]

def tankSchema : Schema :=
  [("Tap", ⟨none, [("val", ⟨none, none, ["flow.in"], false⟩)], [], []⟩),
    ("Drain", ⟨none, [("val", ⟨none, none, ["flow.out"], false⟩)], [], []⟩)]

def tapped : List (ChannelSeries Float) :=
  [⟨"Tap", "tap", "val", [3, 4]⟩, ⟨"Drain", "drain", "val", [1, 2]⟩]

theorem satisfied_tank :
    (tank.items.map (·.code)).Nodup ∧ tank.Ordered ∧ (∀ s ∈ tapped, s.amounts.length = 2) ∧
      ∃ f, (build tapped 2 tankSchema tank).outcome = .ok f ∧
        f.lines.amount "level" 1 = 4 ∧ f.lines.amount "moved" 1 = 10 := by
  have distinct : (tank.items.map (·.code)).Nodup := by decide
  have ordered : tank.Ordered := by
    unfold Template.Ordered
    decide
  have fits : ∀ s ∈ tapped, s.amounts.length = 2 := by decide
  obtain ⟨builds, equations⟩ := satisfied.2 tank distinct ordered tankSchema tapped 2
  obtain ⟨f, built⟩ := builds fits
  obtain ⟨-, each⟩ := equations f built
  refine ⟨distinct, ordered, fits, f, built, ?_⟩
  obtain ⟨_, -, parent⟩ := each tank.items[0] (by simp) (by rfl)
  obtain ⟨tap, tapSum, inflow⟩ := each tank.items[1] (by simp) (by rfl)
  obtain ⟨drain, drainSum, outflow⟩ := each tank.items[2] (by simp) (by rfl)
  obtain ⟨_, -, level⟩ := each tank.items[3] (by simp) (by decide)
  obtain ⟨_, -, moved⟩ := each tank.items[4] (by simp) (by decide)
  cases tapSum
  cases drainSum
  have in₀ : f.lines.amount "flow.in" 0 = 0 + 3 := inflow.amount (by decide)
  have in₁ : f.lines.amount "flow.in" 1 = 0 + 4 := inflow.amount (by decide)
  have out₀ : f.lines.amount "flow.out" 0 = 0 + 1 := outflow.amount (by decide)
  have out₁ : f.lines.amount "flow.out" 1 = 0 + 2 := outflow.amount (by decide)
  have net (m : Nat) (inside : m < 2) : f.lines.amount "flow" m =
      0 + 1 * f.lines.amount "flow.in" m + -1 * f.lines.amount "flow.out" m := parent.amount inside
  have running : f.lines.amount "level" 1 = f.lines.amount "flow" 0 + f.lines.amount "flow" 1 :=
    level.amount (by decide)
  have turnover : f.lines.amount "moved" 1 =
      0 + f.lines.amount "flow.in" 0 + f.lines.amount "flow.out" 0 +
        (0 + f.lines.amount "flow.in" 1 + f.lines.amount "flow.out" 1) := moved.amount (by decide)
  rw [running, turnover, net 0 (by decide), net 1 (by decide), in₀, in₁, out₀, out₁]
  decide +kernel

def heaped : Template where
  name := "Heap"
  statements :=
    [("heap", ⟨"heap", "Heap", "",
      [⟨"top", none, 0, .plus, none, true, false, some ["top.a"]⟩,
        ⟨"top.a", none, 1, .plus, none, false, false, none⟩]⟩)]

def heapedSchema : Schema :=
  [("A", ⟨none, [("val", ⟨none, none, ["top.a"], false⟩)], [], []⟩)]

theorem heaped_distinct : (heaped.items.map (·.code)).Nodup := by decide

theorem heaped_ordered : heaped.Ordered := by
  unfold Template.Ordered
  decide

/-- Children are added up, but no running total is taken of them. -/
theorem parent_not_accumulated :
    (heaped.items.map (·.code)).Nodup ∧ heaped.Ordered ∧
      ∃ f, (build [⟨"A", "q", "val", [(1 : Float), 1]⟩] 2 heapedSchema heaped).outcome = .ok f ∧
        ∃ i ∈ heaped.items, i.code = "top" ∧ i.cumulative = true ∧
          f.lines.amount i.code 1 = 1 ∧
          Series.cumulated (f.lines.signedAmount (i.signedChildren heaped)) 1 = 2 := by
  have fits : ∀ s ∈ [(⟨"A", "q", "val", [1, 1]⟩ : ChannelSeries Float)], s.amounts.length = 2 := by
    decide
  obtain ⟨f, built⟩ :
      ∃ f, (build [⟨"A", "q", "val", [(1 : Float), 1]⟩] 2 heapedSchema heaped).outcome = .ok f := by
    obtain ⟨c, -, built⟩ := exists_build heapedSchema heaped_distinct fits
    exact ⟨_, built⟩
  obtain ⟨_, -, parent⟩ := satisfied_of_build heaped_distinct heaped_ordered built
    (i := heaped.items[0]) (by simp) rfl
  obtain ⟨total, sum, child⟩ := satisfied_of_build heaped_distinct heaped_ordered built
    (i := heaped.items[1]) (by simp) rfl
  cases sum
  have first : f.lines.amount "top.a" 0 = 0 + 1 := child.amount (by decide)
  have second : f.lines.amount "top.a" 1 = 0 + 1 := child.amount (by decide)
  refine ⟨heaped_distinct, heaped_ordered, f, built, heaped.items[0], by simp, rfl, rfl, ?_, ?_⟩
  · have sum : f.lines.amount "top" 1 = 0 + 1 * f.lines.amount "top.a" 1 :=
      parent.amount (by decide)
    change f.lines.amount "top" 1 = 1
    rw [sum, second]
    decide
  · have total : Series.cumulated (f.lines.signedAmount (heaped.items[0].signedChildren heaped)) 1 =
        0 + 1 * f.lines.amount "top.a" 0 + (0 + 1 * f.lines.amount "top.a" 1) := rfl
    rw [total, first, second]
    decide

end Financials

end Forecast
