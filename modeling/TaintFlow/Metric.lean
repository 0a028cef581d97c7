import TaintFlow.Chain.Result

/-!
# Counters

What is counted while chains run.
-/

namespace TaintFlow

/-- How a call of a source or a sink ended. -/
inductive CallOutcome where
  | fine | error | timeout
  deriving DecidableEq

/-- A thing that is counted. -/
inductive Metric where
  | chainRuns (category : SinkCategory) (state : RunState)
  | steps (kind : StepKind)
  | taintLoss (operator : String)
  | sinkCalls (sink : String) (outcome : CallOutcome)
  | sourceCalls (source : String) (outcome : CallOutcome)
  deriving DecidableEq

namespace Metric

/-- The name under which a thing is counted. -/
def name : Metric → String
  | chainRuns .. => "taintchain_chain_runs_total"
  | steps _ => "taintchain_step_duration_seconds_count"
  | taintLoss _ => "taintchain_taint_loss_total"
  | sinkCalls .. => "taintchain_sink_invocations_total"
  | sourceCalls .. => "taintchain_source_invocations_total"

/-- The name of an outcome, which depends on what counts as fine. -/
def outcomeText (fine : String) : CallOutcome → String
  | .fine => fine
  | .error => "error"
  | .timeout => "timeout"

/-- What tells the things of one name apart. -/
def labels : Metric → List String
  | chainRuns category state => [category.text, state.text]
  | steps kind => [kind.text]
  | taintLoss operator => [operator]
  | sinkCalls sink outcome => [sink, outcomeText "accepted" outcome]
  | sourceCalls source outcome => [source, outcomeText "ok" outcome]

/-- The names of what tells the things of one name apart. -/
def labelNames : Metric → List String
  | chainRuns .. => ["expected_category", "state"]
  | steps _ => ["kind"]
  | taintLoss _ => ["operator"]
  | sinkCalls .. => ["sink_id", "outcome"]
  | sourceCalls .. => ["source_id", "outcome"]

/-- A label's value inside quotes. -/
def labelValue (text : String) : String :=
  String.ofList (text.toList.flatMap fun c =>
    if c = '\\' then ['\\', '\\']
    else if c = '"' then ['\\', '"']
    else if c = '\n' then ['\\', 'n']
    else [c])

/-- The line of a count in a text of counts. -/
def line (metric : Metric) (count : Nat) : String :=
  let pairs := (metric.labelNames.zip metric.labels).map fun (name, value) =>
    name ++ "=\"" ++ labelValue value ++ "\""
  metric.name ++ "\x7b" ++ ",".intercalate pairs ++ "\x7d " ++ toString count ++ ".0\n"

end Metric

/-- How often each thing was counted. -/
abbrev Metrics := Assoc Metric Nat

namespace Metrics

/-- The count of a thing. -/
def count (m : Metrics) (metric : Metric) : Nat := (m.find? metric).getD 0

/-- Count a thing once more. -/
def bump (m : Metrics) (metric : Metric) : Metrics := m.put metric (m.count metric + 1)

/-- Counting a thing adds one to it and nothing to anything else. -/
theorem count_bump (m : Metrics) (metric other : Metric) :
    (m.bump metric).count other = m.count other + if other = metric then 1 else 0 := by
  by_cases h : other = metric
  · subst h
    simp [count, bump]
  · simp [count, bump, Assoc.find?_put_of_ne h, h]

/-- All counts, by name and then by what tells things apart. -/
def listing (m : Metrics) : List (String × List String × Nat) :=
  let rows := m.map fun (metric, n) => (metric.name, metric.labels, n)
  rows.mergeSort fun a b => !decide ((b.1 :: b.2.1) < (a.1 :: a.2.1))

/-- All counts as text, one to a line. -/
def exposition (m : Metrics) : String :=
  let rows := m.mergeSort fun a b =>
    !decide ((b.1.name :: b.1.labels) < (a.1.name :: a.1.labels))
  String.join (rows.map fun (metric, n) => metric.line n)

end Metrics

end TaintFlow
