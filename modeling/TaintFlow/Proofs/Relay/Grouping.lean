import TaintFlow.Proofs.Payload.Entries
import TaintFlow.Proofs.Relay.RoundTrip

/-!
# Inputs in groups

Two operators put all their inputs together, one as text and one as a mapping.  It
makes no difference if the first inputs are put together on their own, and what
comes of them is an input before the others: `fanIn_groups`.
-/

namespace TaintFlow

open Payload (Entries)

namespace Builtin

/-- It makes no difference to a function of several payloads if the first of them go through it on
their own, and what comes of them goes through it with the others. -/
def Groups (act : List Payload → Except Mishap Payload) : Prop :=
  ∀ group rest, group ≠ [] → act (group ++ rest) = act group >>= fun part => act (part :: rest)

/-! ## As text -/

theorem intercalate_group {separator : String} {texts more : List String} (some_ : texts ≠ []) :
    separator.intercalate (separator.intercalate texts :: more) =
      separator.intercalate (texts ++ more) := by
  cases more with
  | nil => rw [String.intercalate_singleton, List.append_nil]
  | cons text more =>
      have others : text :: more ≠ [] := List.cons_ne_nil text more
      rw [String.intercalate_cons_of_ne_nil others,
        String.intercalate_append_of_ne_nil some_ others]

theorem joinTexts_groups (separator : String) : Groups (joinTexts separator) := by
  intro group rest some_
  have all (payloads : List Payload) : joinTexts separator payloads =
      payloads.mapM writtenText >>= fun texts => .ok (.text (separator.intercalate texts)) := rfl
  rw [all, all, List.mapM_append]
  cases first : group.mapM writtenText with
  | error mishap => rfl
  | ok texts =>
      have some' : texts ≠ [] := by
        rintro rfl
        exact some_ (List.forall₂_nil_right_iff.mp (Except.mapM_eq_ok.mp first))
      -- a text that has been joined can be written, and is its own text
      have joined : writtenText (.text (separator.intercalate texts)) =
          .ok (separator.intercalate texts) := rfl
      show _ = joinTexts separator (.text (separator.intercalate texts) :: rest)
      rw [all, List.mapM_cons, joined]
      cases rest.mapM writtenText with
      | error mishap => rfl
      | ok more =>
          exact congrArg (fun s => Except.ok (Payload.text s)) (intercalate_group some').symm

theorem concatMerge_groups (separator : Payload) :
    Groups fun payloads => concatMerge payloads separator := by
  cases separator with
  | text separator => exact joinTexts_groups separator
  | _ => exact fun _ _ _ => rfl

/-! ## As a mapping -/

/-- The entries so far with those of one more input written over them. -/
def mergeNext (merged : Entries) (payload : Payload) : Except Mishap Entries :=
  match payload with
  | .map entries => .ok (Entries.merge merged entries)
  | other => .error (.badType s!"object_merge expects mappings, got {other.typeName}")

theorem objectMerge_eq_foldlM (merged : Entries) (payloads : List Payload) :
    objectMerge merged payloads =
      payloads.foldlM mergeNext merged >>= fun all => .ok (.map all) := by
  induction payloads generalizing merged with
  | nil => rfl
  | cons payload rest ih =>
      cases payload with
      | map entries => exact ih (Entries.merge merged entries)
      | _ => rfl

/-- The entries so far have keys that are apart, whatever the inputs are. -/
theorem apart_of_foldlM {merged all : Entries} {payloads : List Payload}
    (apart : Entries.Apart merged) (came : payloads.foldlM mergeNext merged = .ok all) :
    Entries.Apart all := by
  refine Except.foldlM_induction apart (fun before payload after apart next => ?_) came
  cases payload with
  | map entries =>
      obtain rfl := Except.ok.inj next
      exact apart.merge entries
  | _ => cases next

theorem objectMerge_groups : Groups (objectMerge []) := by
  intro group rest some_
  rw [objectMerge_eq_foldlM, objectMerge_eq_foldlM, List.foldlM_append]
  cases first : group.foldlM mergeNext [] with
  | error mishap => rfl
  | ok merged =>
      have apart := apart_of_foldlM Entries.apart_nil first
      have again : Entries.merge [] merged = merged := Entries.merge_of_apart (m := []) apart
      show _ = objectMerge [] (.map merged :: rest)
      rw [objectMerge, again, objectMerge_eq_foldlM]
      rfl

/-! ## Through the engine -/

/-- Checks that do not look at the payloads may come first. -/
theorem Groups.check {act : List Payload → Except Mishap Payload} (groups : Groups act)
    (check : Except Mishap Unit) : Groups fun payloads => check >>= fun _ => act payloads := by
  intro group rest some_
  cases check with
  | error mishap => rfl
  | ok _ => exact groups group rest some_

end Builtin

namespace Engine

variable {engine : Engine} {operator : Operator} {id : String}
  {act : List Payload → Params → Except Mishap Payload}

/-- An operator that answers at once and keeps labels: what its function returns gets the labels of
all inputs, one hop past the furthest, and what it raises is reported. -/
theorem outcome_of_ofResult (found : engine.operators.find? operator.id = some operator)
    (action : operator.action = .onPayloads fun payloads params _ => .ofResult (act payloads params))
    (preserving : operator.preserving = true) (resumes : operator.suspends = false)
    {inputs : List Value} (some_ : inputs ≠ []) (accepted : operator.accepts inputs.length = true)
    (params : Params) (step : Option Int) (store : Store) :
    (engine.apply operator.id inputs params step store).outcome =
      some (match act (inputs.map Value.payload) params with
        | .ok back => .ok (.combine inputs back)
        | .error mishap => .error ⟨.operatorRaised operator.id mishap.outOfTurn, step⟩) := by
  have got : engine.get operator.id = .ok operator := get_eq_ok.mpr found
  have counted : (inputs.isEmpty || !operator.accepts inputs.length) = false := by
    rw [List.isEmpty_eq_false_iff.mpr some_, accepted]
    rfl
  have bounded : engine.bound operator params = .ok (none, params) := by
    unfold bound
    rw [resumes]
    cases engine.boundary <;> rfl
  have called : operator.call inputs params store =
      .ofResult (act (inputs.map Value.payload) params) := by
    unfold Operator.call
    rw [action]
  have lifted : operator.lifted = true := by
    unfold Operator.lifted
    rw [action]
  unfold apply
  rw [got]
  dsimp only
  rw [counted, if_neg Bool.false_ne_true, bounded]
  dsimp only
  rw [called]
  cases act (inputs.map Value.payload) params with
  | error mishap => rfl
  | ok back =>
      refine congrArg some (conclude_eq_ok.mpr ⟨.combine inputs back, ?_, rfl, fun _ => ?_⟩)
      · unfold label
        rw [lifted, preserving]
        rfl
      · exact SortedSet.subset_def.mpr fun _ inside => inside

/-- An operator is applied to a group of inputs, and then to what comes of them and the other
inputs. -/
def applyGrouped (engine : Engine) (id : String) (group rest : List Value) (params : Params)
    (step : Option Int) (store : Store) : Option (Except Fault Value) :=
  match (engine.apply id group params step store).outcome with
  | some (.ok part) => (engine.apply id (part :: rest) params step store).outcome
  | other => other

/-- What comes of inputs in groups against what comes of them at once: a value of the same payload
with the same labels, or the same fault. -/
def Agrees (grouped whole : Option (Except Fault Value)) : Prop :=
  match whole with
  | some (.ok output) => ∃ other, grouped = some (.ok other) ∧ other.payload = output.payload ∧
      other.labels = output.labels
  | some (.error fault) => grouped = some (.error fault)
  | none => False

/-- Inputs of an operator that takes any number of them may be grouped if they may be for its
function. -/
theorem agrees_of_groups (found : engine.operators.find? operator.id = some operator)
    (action : operator.action = .onPayloads fun payloads params _ => .ofResult (act payloads params))
    (variadic : operator.arity = none) (preserving : operator.preserving = true)
    (resumes : operator.suspends = false) {params : Params}
    (groups : Builtin.Groups fun payloads => act payloads params) (step : Option Int) (store : Store)
    {group rest : List Value} (some_ : group ≠ []) :
    Agrees (engine.applyGrouped operator.id group rest params step store)
      (engine.apply operator.id (group ++ rest) params step store).outcome := by
  have outcome {inputs : List Value} (some_ : inputs ≠ []) := by
    have accepted : operator.accepts inputs.length = true := by
      unfold Operator.accepts
      rw [variadic]
      exact decide_eq_true (List.length_pos_iff.mpr some_)
    exact outcome_of_ofResult found action preserving resumes some_ accepted params step store
  have together : act (group.map Value.payload ++ rest.map Value.payload) params =
      act (group.map Value.payload) params >>= fun part =>
        act (part :: rest.map Value.payload) params :=
    groups _ _ (mt List.map_eq_nil_iff.mp some_)
  unfold applyGrouped
  rw [outcome some_, outcome (List.append_ne_nil_of_left_ne_nil some_ rest), List.map_append,
    together]
  cases act (group.map Value.payload) params with
  | error mishap => rfl
  | ok part =>
      have next : (Value.combine group part :: rest).map Value.payload =
          part :: rest.map Value.payload := rfl
      show Agrees (engine.apply operator.id (.combine group part :: rest) params step store).outcome
        (some (match act (part :: rest.map Value.payload) params with | .ok _ => _ | .error _ => _))
      rw [outcome (List.cons_ne_nil _ rest), next]
      cases act (part :: rest.map Value.payload) params with
      | error mishap => rfl
      | ok whole =>
          refine ⟨_, rfl, rfl, ?_⟩
          show Value.unionLabels (.combine group part :: rest) = Value.unionLabels (group ++ rest)
          rw [Value.unionLabels_cons, Value.unionLabels_append]
          rfl

/-- **Fan-in may be grouped.** If some inputs are put together first, as text with any separator
or as mappings, and what comes of them is put together with the inputs behind them, then the payload
and the labels are those of all inputs put together at once, entry by entry and key by key; and where
that fails, it fails with the same fault. -/
theorem fanIn_groups (builtins : engine.HasBuiltins)
    (merges : id = "concat_merge" ∨ id = "object_merge") (params : Params) (step : Option Int)
    (store : Store) {group rest : List Value} (some_ : group ≠ []) :
    Agrees (engine.applyGrouped id group rest params step store)
      (engine.apply id (group ++ rest) params step store).outcome := by
  obtain rfl | rfl := merges
  · have concat := builtins _ (List.mem_of_getElem? (i := 13) rfl)
    exact agrees_of_groups concat rfl rfl rfl rfl ((Builtin.concatMerge_groups _).check _) step store
      some_
  · have object := builtins _ (List.mem_of_getElem? (i := 14) rfl)
    exact agrees_of_groups object rfl rfl rfl rfl (Builtin.objectMerge_groups.check _) step store some_

/-- Mappings that write one key in three ways; the second and the third have a label each. -/
def spellings : List Value :=
  [.constant (.map [(.int 1, .text "a"), (.text "k", .text "x")]),
   ⟨.map [(.float (.ofInt 1), .text "b")], .singleton ⟨"form", .httpBody, .untrusted⟩, 2⟩,
   ⟨.map [(.bool true, .text "c")], .singleton ⟨"sid", .cookie, .untrusted⟩, 0⟩]

/-- The first two are put together before the third comes: the key has its first spelling and its
first place, and the last value. -/
theorem fanIn_groups_spellings : spellings.take 2 ≠ [] ∧
    ∃ output, (plain true).applyGrouped "object_merge" (spellings.take 2) (spellings.drop 2) [] none
        {} = some (.ok output) ∧
      output.payload = .map [(.int 1, .text "c"), (.text "k", .text "x")] ∧
      output.labels = .ofList [⟨"form", .httpBody, .untrusted⟩, ⟨"sid", .cookie, .untrusted⟩] := by
  have some_ : spellings.take 2 ≠ [] := List.cons_ne_nil _ _
  refine ⟨some_, ?_⟩
  have whole : ((plain true).apply "object_merge" (spellings.take 2 ++ spellings.drop 2) [] none
      {}).outcome = some (.ok ⟨.map [(.int 1, .text "c"), (.text "k", .text "x")],
        .ofList [⟨"form", .httpBody, .untrusted⟩, ⟨"sid", .cookie, .untrusted⟩], 3⟩) := by
    decide +kernel
  have groups : Agrees ((plain true).applyGrouped "object_merge" (spellings.take 2)
      (spellings.drop 2) [] none {}) _ := fanIn_groups hasBuiltins_plain (.inr rfl) [] none {} some_
  rw [whole] at groups
  exact groups

end Engine

end TaintFlow
