import TaintFlow.Proofs.Ledger.Record

/-!
# Both kinds of ledger

A ledger in memory and one in a file that are told of the same runs list the same
records, up to the order of the members of objects, and count the same states:
the main statement is `ledgers_agree`.
-/

namespace TaintFlow

/-! ## Texts in sorted values -/

namespace Json

/-- The text of a member, if it is one. -/
def textOf? (key : String) (value : Json) : Option String := (value.member? key).bind text?

theorem text?_sortMembers (value : Json) : value.sortMembers.text? = value.text? := by
  cases value <;> rfl

/-- Sorting keeps the texts of members. -/
theorem textOf?_sortMembers {value : Json} (plain : value.Plain) (key : String) :
    value.sortMembers.textOf? key = value.textOf? key := by
  cases plain with
  | @object members names each =>
      have order := List.mergeSort_perm (sortValues members) fun a b => !decide (b.1 < a.1)
      have names' : (Assoc.keys (sortValues members)).Nodup := (keys_sortValues members).symm ▸ names
      show (Assoc.find? key (List.mergeSort _ _)).bind text? = (Assoc.find? key members).bind text?
      rw [← Assoc.find?_of_perm names' order.symm, sortValues_eq_map, Assoc.find?_map,
        Option.bind_map]
      exact congrArg _ (funext text?_sortMembers)
  | _ => rfl

end Json

namespace RunResult

variable {r : RunResult} {record : Json}

/-- The record names the state and the chain that its row has. -/
theorem textOf?_toRecord (made : r.toRecord = .ok record) :
    record.textOf? "state" = some r.state.text ∧ record.textOf? "chain_id" = some r.chain := by
  obtain ⟨entries, _, rfl⟩ := Except.bind_pure_eq_ok.mp made
  exact ⟨rfl, rfl⟩

end RunResult

/-- The runs that have a record, each with its own. -/
def recordedRuns : List RunResult → List (RunResult × Json)
  | [] => []
  | r :: rest =>
    match r.toRecord with
    | .ok record => (r, record) :: recordedRuns rest
    | .error _ => recordedRuns rest

section

variable {r : RunResult} {rest : List RunResult}

theorem recordedRuns_of_ok {record : Json} (made : r.toRecord = .ok record) :
    recordedRuns (r :: rest) = (r, record) :: recordedRuns rest := by
  rw [recordedRuns, made]

theorem recordedRuns_of_error {mishap : Mishap} (failed : r.toRecord = .error mishap) :
    recordedRuns (r :: rest) = recordedRuns rest := by
  rw [recordedRuns, failed]

end

theorem of_mem_recordedRuns {results : List RunResult} {run : RunResult × Json}
    (inside : run ∈ recordedRuns results) : run.1 ∈ results ∧ run.1.toRecord = .ok run.2 := by
  fun_induction recordedRuns results with
  | case1 => cases inside
  | case2 r rest record made ih =>
      rcases List.mem_cons.mp inside with rfl | later
      · exact ⟨List.mem_cons_self, made⟩
      · exact (ih later).imp_left (List.mem_cons_of_mem _)
  | case3 r rest mishap failed ih => exact (ih inside).imp_left (List.mem_cons_of_mem _)

namespace Ledger

/-- A ledger after a call to record a run; a call that fails changes nothing. -/
def told (l : Ledger) (r : RunResult) : Ledger :=
  match l.record r with
  | .ok after => after
  | .error _ => l

/-- A ledger after calls to record runs. -/
def toldAll (l : Ledger) (results : List RunResult) : Ledger := results.foldl told l

/-- The rows of the runs that have a record. -/
def rowsOf (filed : Bool) (results : List RunResult) : List LedgerRow :=
  (recordedRuns results).map fun run => .of filed run.1 run.2

variable {l : Ledger} {results : List RunResult}

theorem told_of_ok {r : RunResult} {record : Json} (made : r.toRecord = .ok record)
    (admits : l.Admits r record) :
    l.told r = { l with rows := l.rows ++ [.of l.filed r record] } := by
  rw [told, record_eq_ok.mpr ⟨record, made, admits, rfl⟩]

/-- A run without a record that a ledger admits leaves the ledger as it is. -/
theorem told_of_refused {r : RunResult}
    (refused : ∀ record, r.toRecord = .ok record → ¬ l.Admits r record) : l.told r = l := by
  unfold told
  split
  · rename_i kept
    obtain ⟨record, made, admits, _⟩ := record_eq_ok.mp kept
    exact absurd admits (refused record made)
  · rfl

/-- Runs that a ledger admits are recorded in order. -/
theorem toldAll_eq (distinct : (results.map RunResult.runId).Nodup)
    (fits : ∀ r ∈ results, ∀ record, r.toRecord = .ok record → l.Admits r record) :
    l.toldAll results = { l with rows := l.rows ++ rowsOf l.filed results } := by
  unfold rowsOf
  induction results generalizing l with
  | nil => exact congrArg (Ledger.mk l.filed) (List.append_nil _).symm
  | cons r rest ih =>
      obtain ⟨apart, distinct⟩ := List.nodup_cons.mp distinct
      show (l.told r).toldAll rest = _
      cases made : r.toRecord with
      | error mishap =>
          have none : ∀ record, r.toRecord = .ok record → ¬ l.Admits r record :=
            fun _ other => nomatch made.symm.trans other
          rw [told_of_refused none, recordedRuns_of_error made]
          exact ih distinct fun other inside => fits other (List.mem_cons_of_mem _ inside)
      | ok record =>
          rw [told_of_ok made (fits r List.mem_cons_self record made), recordedRuns_of_ok made,
            ih distinct, List.append_assoc]
          · rfl
          -- The rest is admitted after the first, whose id is another.
          · intro other inside record' made' filed
            obtain ⟨writable, encodable, new⟩ :=
              fits other (List.mem_cons_of_mem _ inside) record' made' filed
            refine ⟨writable, encodable, fun row there same => ?_⟩
            rcases List.mem_append.mp there with before | now
            · exact new row before same
            · rw [List.mem_singleton.mp now] at same
              exact apart (List.mem_map.mpr ⟨other, inside, same.symm⟩)

/-! ## What is listed -/

/-- The record that is read back from an entry. -/
def readBack (filed : Bool) (record : Json) : Json := if filed then record.sortMembers else record

theorem record_keeping {filed : Bool} {record : Json} (plain : record.Plain)
    (writable : record.isWritable = true) (joined : record.isJoined = true) :
    (LedgerEntry.keeping filed record).record = .ok (readBack filed record) := by
  cases filed with
  | false => rfl
  | true =>
      have back : Json.ofString? record.sortMembers.print = some record.sortMembers := by
        rw [Json.print, Json.ofString?, String.toList_ofList,
          Json.read_write_sortMembers plain writable joined]
      rw [LedgerEntry.keeping, if_pos rfl, LedgerEntry.record, back]
      rfl

theorem textOf?_readBack {filed : Bool} {record : Json} (plain : record.Plain) (key : String) :
    (readBack filed record).textOf? key = record.textOf? key := by
  cases filed with
  | false => rfl
  | true => exact Json.textOf?_sortMembers plain key

/-- Is a record one of a chain, if one is asked for? -/
def isOf (chain : Option String) (record : Json) : Bool :=
  match chain with
  | none => true
  | some id => record.textOf? "chain_id" == some id

/-- The rows of a chain, if one is asked for. -/
def ofChain (chain : Option String) (rows : List LedgerRow) : List LedgerRow :=
  match chain with
  | none => rows
  | some id => rows.filter fun row => row.chain == id

/-- The rows of a chain are those whose records name it. -/
theorem ofChain_rowsOf (chain : Option String) (filed : Bool) :
    ofChain chain (rowsOf filed results) =
      ((recordedRuns results).filter fun run => isOf chain run.2).map fun run =>
        .of filed run.1 run.2 := by
  unfold rowsOf
  cases chain with
  | none =>
      have all : ((recordedRuns results).filter fun run => isOf none run.2) =
        recordedRuns results := List.filter_eq_self.mpr fun _ _ => rfl
      rw [all]
      rfl
  | some id =>
      rw [ofChain, List.filter_map]
      refine congrArg _ (List.filter_congr fun run inside => ?_)
      have named := (RunResult.textOf?_toRecord (of_mem_recordedRuns inside).2).2
      rw [isOf, named]
      rfl

/-- The records that are listed are those of the chain that is asked for, in order. -/
theorem list_rowsOf {filed : Bool} {chain : Option String}
    (encodable : ∀ id ∈ chain, Text.hasHalf id.toList = false)
    (exact_ : ∀ r ∈ results, ∀ record, r.toRecord = .ok record →
      record.isWritable = true ∧ record.isJoined = true) :
    Ledger.list ⟨filed, rowsOf filed results⟩ chain =
      .ok ((((recordedRuns results).map Prod.snd).filter (isOf chain)).map (readBack filed)) := by
  have passes : (⟨filed, rowsOf filed results⟩ : Ledger).checkEncodable chain.toList = .ok () :=
    checkEncodable_eq_ok.mpr fun _ id inside => encodable id (Option.mem_toList.mp inside)
  have read (run : RunResult × Json) (inside : run ∈ recordedRuns results) :
      (LedgerRow.of filed run.1 run.2).entry.record = .ok (readBack filed run.2) := by
    obtain ⟨known, made⟩ := of_mem_recordedRuns inside
    obtain ⟨writable, joined⟩ := exact_ _ known _ made
    exact record_keeping (RunResult.plain_toRecord made) writable joined
  refine Except.check_eq_ok.mpr ⟨passes, ?_⟩
  show (ofChain chain (rowsOf filed results)).mapM (fun row => row.entry.record) = _
  rw [ofChain_rowsOf, List.filter_map, List.map_map]
  exact Except.mapM_map_of_forall fun run inside => read run (List.mem_of_mem_filter inside)

/-! ## What is counted -/

/-- Counts of states with one more row. -/
def countRow (counts : Assoc String Nat) (row : LedgerRow) : Assoc String Nat :=
  Assoc.put row.state ((Assoc.find? row.state counts).getD 0 + 1) counts

theorem nodup_keys_counts (rows : List LedgerRow) {counts : Assoc String Nat}
    (once : (Assoc.keys counts).Nodup) : (Assoc.keys (rows.foldl countRow counts)).Nodup := by
  induction rows generalizing counts with
  | nil => exact once
  | cons row rest ih => exact ih (Assoc.nodup_keys_put once)

/-- A state that comes up has its count raised by as often as it does. -/
theorem find?_counts (state : String) (rows : List LedgerRow) (counts : Assoc String Nat) :
    Assoc.find? state (rows.foldl countRow counts) =
      if rows.countP (fun row => row.state == state) = 0 then Assoc.find? state counts
      else some ((Assoc.find? state counts).getD 0 +
        rows.countP fun row => row.state == state) := by
  induction rows generalizing counts with
  | nil => rfl
  | cons row rest ih =>
      rw [List.foldl_cons, ih, countRow, Assoc.find?_put, List.countP_cons]
      by_cases same : row.state = state
      · subst same
        simp only [beq_self_eq_true, if_true, Option.getD_some, Nat.add_one_ne_zero, if_false]
        split
        · rename_i none
          rw [none]
        · rw [Nat.add_right_comm, Nat.add_assoc]
      · simp only [beq_eq_false_iff_ne.mpr same, if_neg (Ne.symm same), Bool.false_eq_true, if_false,
          Nat.add_zero]

/-- A summary says for every state that comes up how often it does. -/
theorem find?_summary (l : Ledger) (state : String) :
    Assoc.find? state l.summary =
      if l.rows.countP (fun row => row.state == state) = 0 then none
      else some (l.rows.countP fun row => row.state == state) := by
  have once : (Assoc.keys (l.rows.foldl countRow [])).Nodup := nodup_keys_counts l.rows List.nodup_nil
  have counted := find?_counts state l.rows []
  rw [Assoc.find?_of_perm once (List.mergeSort_perm _ fun a b => !decide (b.1 < a.1)).symm] at counted
  rw [show Assoc.find? state l.summary = _ from counted, Assoc.find?, Option.getD_none, Nat.zero_add]

/-- A summary depends on the states alone. -/
theorem summary_eq_of_states {l l' : Ledger}
    (same : l.rows.map LedgerRow.state = l'.rows.map LedgerRow.state) : l.summary = l'.summary := by
  have counts (rows : List LedgerRow) : (rows.map LedgerRow.state).foldl
      (fun m state => Assoc.put state ((Assoc.find? state m).getD 0 + 1) m) [] =
        rows.foldl countRow [] := List.foldl_map
  show (l.rows.foldl countRow []).mergeSort _ = (l'.rows.foldl countRow []).mergeSort _
  rw [← counts, ← counts, same]

/-! ## Agreement -/

/-- An empty ledger in memory. -/
def inMemory : Ledger := ⟨false, []⟩

/-- An empty ledger in a file. -/
def inFile : Ledger := ⟨true, []⟩

/-- What both ledgers take of runs in the same way: ids that can be encoded, and in each record that
there is only whole numbers that are not too long and no halves of characters side by side. -/
def Exact (results : List RunResult) : Prop :=
  ∀ r ∈ results, r.scopes.Encodable ∧ ∀ record, r.toRecord = .ok record →
    record.isWritable = true ∧ record.isJoined = true

theorem Exact.readable (exact_ : Exact results) : ∀ r ∈ results, ∀ record,
    r.toRecord = .ok record → record.isWritable = true ∧ record.isJoined = true :=
  fun r inside => (exact_ r inside).2

/-- An empty ledger takes all runs that have a record. -/
theorem toldAll_empty (filed : Bool) (distinct : (results.map RunResult.runId).Nodup)
    (exact_ : Exact results) :
    (⟨filed, []⟩ : Ledger).toldAll results = ⟨filed, rowsOf filed results⟩ :=
  toldAll_eq distinct fun r inside record made _ =>
    ⟨(exact_.readable r inside record made).1, (exact_ r inside).1,
      fun _ there => absurd there List.not_mem_nil⟩

/-- A call to record a run among others comes to its end exactly if the run has a record. -/
theorem exists_record {filed : Bool} {earlier later : List RunResult} {r : RunResult}
    (distinct : ((earlier ++ r :: later).map RunResult.runId).Nodup)
    (exact_ : Exact (earlier ++ r :: later)) :
    (∃ after, ((⟨filed, []⟩ : Ledger).toldAll earlier).record r = .ok after) ↔
      ∃ record, r.toRecord = .ok record := by
  rw [List.map_append, List.map_cons] at distinct
  have before : Exact earlier := fun other inside => exact_ other (List.mem_append_left _ inside)
  obtain ⟨encodable, readable⟩ := exact_ r (List.mem_append_right _ List.mem_cons_self)
  rw [toldAll_empty filed (List.nodup_append.mp distinct).1 before]
  constructor
  · rintro ⟨_, kept⟩
    obtain ⟨record, made, _⟩ := record_eq_ok.mp kept
    exact ⟨record, made⟩
  · rintro ⟨record, made⟩
    refine ⟨_, record_eq_ok.mpr ⟨record, made, fun _ => ⟨(readable record made).1, encodable,
      fun row inside => ?_⟩, rfl⟩⟩
    obtain ⟨run, there, rfl⟩ := List.mem_map.mp inside
    have known := List.mem_map_of_mem (f := RunResult.runId) (of_mem_recordedRuns there).1
    exact (List.nodup_append.mp distinct).2.2 _ known _ List.mem_cons_self

/-- The summary of a ledger counts for each state the records that are listed in it. -/
def Summarizes (l : Ledger) : Prop :=
  ∃ listed, l.list = .ok listed ∧ ∀ state n, Assoc.find? state l.summary = some n ↔
    0 < n ∧ n = listed.countP fun record => record.textOf? "state" == some state

theorem summarizes_rowsOf (filed : Bool) (exact_ : Exact results) :
    (⟨filed, rowsOf filed results⟩ : Ledger).Summarizes := by
  refine ⟨_, list_rowsOf (fun _ inside => nomatch inside) exact_.readable, fun state n => ?_⟩
  have counted : (rowsOf filed results).countP (fun row => row.state == state) =
      ((((recordedRuns results).map Prod.snd).filter (isOf none)).map (readBack filed)).countP
        fun record => record.textOf? "state" == some state := by
    unfold rowsOf
    rw [show isOf none = fun _ => true from rfl, List.filter_true, List.map_map, List.countP_map,
      List.countP_map]
    refine List.countP_congr fun run inside => ?_
    have made := (of_mem_recordedRuns inside).2
    have named : (readBack filed run.2).textOf? "state" = some run.1.state.text := by
      rw [textOf?_readBack (RunResult.plain_toRecord made)]
      exact (RunResult.textOf?_toRecord made).1
    simp [named, LedgerRow.of]
  rw [find?_summary, ← counted]
  split
  · rename_i none
    rw [none]
    exact ⟨nofun, fun ⟨some_, same⟩ => absurd same (Nat.ne_of_gt some_)⟩
  · rename_i some_
    rw [Option.some.injEq, eq_comm]
    exact ⟨fun same => ⟨same ▸ Nat.pos_of_ne_zero some_, same⟩, fun ⟨_, same⟩ => same⟩

/-- **The two kinds of ledger agree.**  Told of the same runs, no two of one id, they take the same
ones of them and list the same records for every chain, in the order of the calls and up to the order
of members, and their summaries are equal and count what is listed. -/
theorem ledgers_agree (distinct : (results.map RunResult.runId).Nodup) (exact_ : Exact results) :
    (∀ earlier r later, results = earlier ++ r :: later →
      ((∃ after, (inMemory.toldAll earlier).record r = .ok after) ↔
        ∃ after, (inFile.toldAll earlier).record r = .ok after)) ∧
    (∀ chain : Option String, (∀ id ∈ chain, Text.hasHalf id.toList = false) →
      ∃ listed, (inMemory.toldAll results).list chain = .ok listed ∧
        (inFile.toldAll results).list chain = .ok (listed.map Json.sortMembers) ∧
        List.Forall₂ Json.Alike listed (listed.map Json.sortMembers) ∧
        listed = ((recordedRuns results).map Prod.snd).filter (isOf chain)) ∧
    (inMemory.toldAll results).summary = (inFile.toldAll results).summary ∧
    (inMemory.toldAll results).Summarizes ∧ (inFile.toldAll results).Summarizes := by
  have memory : inMemory.toldAll results = ⟨false, rowsOf false results⟩ :=
    toldAll_empty false distinct exact_
  have file : inFile.toldAll results = ⟨true, rowsOf true results⟩ :=
    toldAll_empty true distinct exact_
  refine ⟨?_, ?_, ?_, ?_, ?_⟩
  · rintro earlier r later rfl
    exact (exists_record distinct exact_).trans (exists_record distinct exact_).symm
  · intro chain encodable
    rw [memory, file, list_rowsOf encodable exact_.readable, list_rowsOf encodable exact_.readable]
    have whole : ∀ records : List Json, records.map (readBack false) = records := List.map_id
    refine ⟨_, congrArg _ (whole _), rfl, ?_, rfl⟩
    exact List.forall₂_map_right_iff.mpr (List.forall₂_same.mpr fun record _ =>
      Json.alike_sortMembers record)
  · rw [memory, file]
    refine summary_eq_of_states ?_
    show (rowsOf false results).map _ = (rowsOf true results).map _
    unfold rowsOf
    rw [List.map_map, List.map_map]
    rfl
  · rw [memory]
    exact summarizes_rowsOf false exact_
  · rw [file]
    exact summarizes_rowsOf true exact_

/-- A run with a record that passes a check is taken by both ledgers. -/
theorem exact_of_passes (e : Run.End) (id : String)
    (passes : e.passes (fun r record => decide (r.result.runId = id ∧ r.result.scopes = ⟨"1", none⟩) &&
      record.isWritable && record.isJoined) = true) :
    ∃ w r, e = .returned w r ∧ r.result.runId = id ∧ Exact [r.result] := by
  obtain ⟨w, r, record, same, made, all⟩ := Run.End.exists_of_passes passes
  simp only [Bool.and_eq_true, decide_eq_true_eq] at all
  obtain ⟨⟨⟨named, scopes⟩, writable⟩, joined⟩ := all
  refine ⟨w, r, same, named, List.forall_mem_singleton.mpr ⟨?_, fun other made' => ?_⟩⟩
  · rw [scopes]
    exact List.forall_mem_singleton.mpr rfl
  · obtain rfl := Except.ok.inj (made.symm.trans made')
    exact ⟨writable, joined⟩

/-- Two runs are listed and counted alike by both ledgers. -/
theorem ledgers_agree_annotated : ∃ w w' r r' listed,
    Run.run Run.keeping {} (.fresh (Run.annotated (.text "a")) ⟨"1", none⟩ "1") = .returned w r ∧
      Run.run Run.keeping {} (.fresh (Run.annotated (.int 2)) ⟨"1", none⟩ "2") = .returned w' r' ∧
      (inMemory.toldAll [r.result, r'.result]).list = .ok listed ∧
      (inFile.toldAll [r.result, r'.result]).list = .ok (listed.map Json.sortMembers) ∧
      (inFile.toldAll [r.result, r'.result]).Summarizes := by
  obtain ⟨w, r, ran, one, first⟩ := exact_of_passes
    (Run.run Run.keeping {} (.fresh (Run.annotated (.text "a")) ⟨"1", none⟩ "1")) "1"
    (by decide +kernel)
  obtain ⟨w', r', ran', two, second⟩ := exact_of_passes
    (Run.run Run.keeping {} (.fresh (Run.annotated (.int 2)) ⟨"1", none⟩ "2")) "2"
    (by decide +kernel)
  have distinct : ([r.result, r'.result].map RunResult.runId).Nodup := by
    rw [List.map_cons, List.map_cons, one, two]
    decide
  obtain ⟨_, lists, _, _, counts⟩ := ledgers_agree distinct
    (List.forall_mem_cons.mpr ⟨first r.result List.mem_cons_self, second⟩)
  obtain ⟨listed, memory, file, _⟩ := lists none (fun _ inside => nomatch inside)
  exact ⟨w, w', r, r', listed, ran, ran', memory, file, counts⟩

/-- The half of a character. -/
def half : String := String.ofList [Text.charOf 0xD800]

/-- A run without parameters whose session id is half of a character is listed and counted in memory,
and missing in a file. -/
theorem ledgers_differ : ∃ w r record,
    Run.run Run.shortcut {} (.fresh Run.direct ⟨"1", some half⟩ "1") = .returned w r ∧
      (∀ step ∈ Run.direct.steps, step.params = []) ∧
      (inMemory.toldAll [r.result]).list = .ok [record] ∧
      (inMemory.toldAll [r.result]).summary = [("completed", 1)] ∧
      (inFile.toldAll [r.result]).list = .ok [] ∧ (inFile.toldAll [r.result]).summary = [] := by
  have plain : ∀ step ∈ Run.direct.steps, step.params = [] := by decide
  obtain ⟨w, r, ran, steps, state, scopes⟩ : ∃ w r,
      Run.run Run.shortcut {} (.fresh Run.direct ⟨"1", some half⟩ "1") = .returned w r ∧
        r.result.trace.map StepTrace.step = Run.direct.steps ∧ r.result.state = .completed ∧
        r.result.scopes = ⟨"1", some half⟩ := ⟨_, _, rfl, rfl, rfl, rfl⟩
  obtain ⟨record, made⟩ : ∃ record, r.result.toRecord = .ok record := by
    refine RunResult.exists_toRecord.mpr fun shown inside entry given => ?_
    rw [plain _ (steps ▸ List.mem_map_of_mem inside)] at given
    cases given
  have memory : inMemory.toldAll [r.result] = ⟨false, [.of false r.result record]⟩ :=
    told_of_ok made nofun
  have file : inFile.toldAll [r.result] = inFile := by
    refine told_of_refused fun _ _ admits => ?_
    have encodable := (admits rfl).2.1
    rw [scopes] at encodable
    cases encodable half (List.mem_cons_of_mem _ List.mem_cons_self)
  have counted : (⟨false, [.of false r.result record]⟩ : Ledger).summary = [("completed", 1)] := by
    unfold summary
    rw [List.foldl_cons, show (LedgerRow.of false r.result record).state = "completed" from
      congrArg RunState.text state]
    exact List.mergeSort_singleton _
  refine ⟨w, r, record, ran, plain, ?_, ?_, ?_, ?_⟩
  · rw [memory]
    rfl
  · rw [memory, counted]
  · rw [file]
    rfl
  · rw [file]
    exact List.mergeSort_nil

end Ledger

end TaintFlow
