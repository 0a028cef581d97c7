import TaintFlow.Proofs.Chain.Depth

/-!
# Chains with one more step

A step that takes no active value and adds none can stand anywhere between the first
step of an accepted chain and the last: the chain is still accepted.
-/

namespace TaintFlow.Chain

variable {network : Network} {c c' : Chain} {k i : Nat} {x : Step}

/-- The second chain has one step more than the first, which stands after the first step and before
the last. -/
structure Inserted (c c' : Chain) (k : Nat) (x : Step) : Prop where
  steps : c'.steps = c.steps.insertIdx k x
  expected : c'.expected = c.expected
  afterFirst : 0 < k
  beforeLast : k < c.steps.length

/-- Where a step stands that stood at an index before. -/
def shifted (k i : Nat) : Nat := if i < k then i else i + 1

theorem shifted_of_lt (before : i < k) : shifted k i = i := if_pos before

theorem shifted_of_le (behind : k ≤ i) : shifted k i = i + 1 := if_neg (Nat.not_lt.mpr behind)

theorem shifted_succ (other : i + 1 ≠ k) : shifted k (i + 1) = shifted k i + 1 := by
  unfold shifted
  split <;> split <;> omega

theorem shifted_ne (k i : Nat) : shifted k i ≠ k := by
  unfold shifted
  split <;> omega

namespace Inserted

variable (inserted : Inserted c c' k x)
include inserted

theorem getElem?_self : c'.steps[k]? = some x := by
  rw [inserted.steps, List.getElem?_insertIdx_self, if_pos (Nat.le_of_lt inserted.beforeLast)]

theorem getElem?_shifted (i : Nat) : c'.steps[shifted k i]? = c.steps[i]? := by
  rw [inserted.steps]
  by_cases before : i < k
  · rw [shifted_of_lt before, List.getElem?_insertIdx_of_lt before]
  · have behind := Nat.le_of_not_lt before
    rw [shifted_of_le behind, List.getElem?_insertIdx_of_gt (Nat.lt_succ_of_le behind)]
    rfl

theorem length_eq : c'.steps.length = c.steps.length + 1 := by
  rw [inserted.steps, List.length_insertIdx_of_le_length (Nat.le_of_lt inserted.beforeLast)]

theorem shifted_lastIndex : shifted k c.lastIndex = c'.lastIndex := by
  have length := inserted.length_eq
  have before := inserted.beforeLast
  have last := c.length_eq
  have last' := c'.length_eq
  rw [shifted_of_le (by omega)]
  omega

theorem last_eq : c'.last = c.last := by
  have last := c'.steps_lastIndex
  rw [← inserted.shifted_lastIndex, inserted.getElem?_shifted, c.steps_lastIndex] at last
  exact (Option.some.inj last).symm

theorem shifted_eq_lastIndex : shifted k i = c'.lastIndex ↔ i = c.lastIndex := by
  have before := inserted.beforeLast
  have last := c.length_eq
  rw [← inserted.shifted_lastIndex, shifted_of_le (i := c.lastIndex) (by omega)]
  unfold shifted
  split <;> omega

theorem length_le_shifted : c'.steps.length ≤ shifted k i ↔ c.steps.length ≤ i := by
  have before := inserted.beforeLast
  rw [inserted.length_eq]
  unfold shifted
  split <;> omega

end Inserted

/-! ## Validation -/

/-- After a step there is an active value. -/
theorem Allows.pos {isLast : Bool} {depth after : Nat} {step : Step}
    (allows : Allows network isLast depth after step) : 1 ≤ after := by
  cases step with
  | source id => exact allows.2 ▸ Nat.succ_pos depth
  | load origin => exact allows ▸ Nat.succ_pos depth
  | merge sources loads id params => exact allows.2.2 ▸ Nat.succ_pos depth
  | relay id params =>
      obtain ⟨operator, _, _, rfl⟩ := allows
      exact Nat.succ_pos _
  | store target => exact allows.2 ▸ allows.1
  | fanout sinks => exact allows.2.2 ▸ allows.1
  | sink id => exact allows.2.2.2 ▸ allows.1

theorem pos_of_depthBefore {depth : Nat} (begun : 0 < i)
    (reached : depthBefore network c i = some depth) : 1 ≤ depth := by
  obtain ⟨i, rfl⟩ := Nat.exists_eq_add_of_lt begun
  rw [Nat.zero_add] at reached
  obtain ⟨_, _, _, _, done⟩ := depthIn_succ.mp reached
  exact (depthAfter_eq_ok.mp done).pos

/-- A step that takes no active value and adds none, wherever there is one. -/
def Keeps (network : Network) (x : Step) : Prop :=
  ∀ depth, 1 ≤ depth → Allows network false depth depth x

namespace Inserted

variable (inserted : Inserted c c' k x)
include inserted

theorem depthBefore_of_le {depth : Nat} (before : i ≤ k)
    (reached : depthBefore network c i = some depth) :
    depthBefore network c' i = some depth := by
  induction i generalizing depth with
  | zero => exact reached
  | succ i ih =>
      obtain ⟨earlier, step, there, here, done⟩ := depthIn_succ.mp reached
      have less := inserted.beforeLast
      have length := inserted.length_eq
      refine depthIn_succ.mpr ⟨earlier, step, ih (Nat.le_of_succ_le before) there, ?_, ?_⟩
      · rw [← here, ← inserted.getElem?_shifted, shifted_of_lt before]
      · rw [decide_eq_false (by omega)] at done ⊢
        exact done

/-- The number of active values before the steps behind the one that was inserted. -/
theorem depthBefore_of_ge (keeps : Keeps network x) {depth : Nat} (behind : k ≤ i)
    (reached : depthBefore network c i = some depth) :
    depthBefore network c' (i + 1) = some depth := by
  have length := inserted.length_eq
  have less := inserted.beforeLast
  induction behind generalizing depth with
  | refl =>
      have some_ := pos_of_depthBefore inserted.afterFirst reached
      refine depthIn_succ.mpr ⟨depth, x, inserted.depthBefore_of_le (Nat.le_refl k) reached,
        inserted.getElem?_self, ?_⟩
      rw [depthAfter_eq_ok, decide_eq_false (by omega)]
      exact keeps depth some_
  | @step i behind ih =>
      obtain ⟨earlier, step, there, here, done⟩ := depthIn_succ.mp reached
      refine depthIn_succ.mpr ⟨earlier, step, ih there, ?_, ?_⟩
      · rw [← here, ← inserted.getElem?_shifted, shifted_of_le behind]
      · have same : decide (i + 1 + 1 = c'.steps.length) = decide (i + 1 = c.steps.length) :=
          decide_eq_decide.mpr (by omega)
        rw [same]
        exact done

/-- A chain is still accepted with a step more that takes no active value and adds none. -/
theorem validate (keeps : Keeps network x) (valid : c.validate network = .ok ()) :
    c'.validate network = .ok () := by
  obtain ⟨_, concludes, final, reached⟩ := validate_eq_ok.mp valid
  have past : depthBefore network c' c'.steps.length = some final := by
    rw [inserted.length_eq]
    exact inserted.depthBefore_of_ge keeps (Nat.le_of_lt inserted.beforeLast) reached
  exact validate_eq_ok.mpr ⟨first_produces past, inserted.last_eq ▸ concludes, final, past⟩

end Inserted

end TaintFlow.Chain
