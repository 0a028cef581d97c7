import TaintFlow.Proofs.Relay.Engine
import TaintFlow.Proofs.Relay.Exact
import TaintFlow.Proofs.Text.Encoding

/-!
# Round trips

Two operators write a payload and read it again, one of them as JSON and the other
in base64.  They refuse what they cannot write, and hand back what they have
written: bytes and texts in base64 as they are, and any other payload up to halves
of characters that stand side by side in its texts.  The main statement is
`roundTrips_exact`.
-/

namespace TaintFlow

open Number Text

/-! ## Payloads -/

namespace Payload

/-- JSON has no place for something in the payload, or a number in it is too long. -/
def HasNoJson (p : Payload) : Prop := p.Has Foreign ∨ p.isWritable = false

/-- What cannot be written in base64: a text with half a character, and what has no JSON if it is
neither a text nor bytes. -/
def HasNoBase64 : Payload → Prop
  | .bytes _ => False
  | .text s => hasHalf s.toList = true
  | other => other.HasNoJson

/-- Are there halves of a character side by side in what is written in base64 as JSON? -/
def SplitsInBase64 : Payload → Prop
  | .bytes _ | .text _ => False
  | other => other.Has Split

end Payload

namespace Builtin

open Payload

theorem writeExact_refuses (operator : String) {p : Payload} (none_ : p.HasNoJson) :
    ∃ mishap, writeExact operator p = .error mishap := by
  unfold writeExact
  cases refused : inexact? operator p with
  | some mishap => exact ⟨mishap, rfl⟩
  | none =>
      have long := none_.resolve_left ((inexact?_eq_none_iff operator).mp refused)
      dsimp only
      rw [long]
      exact ⟨_, rfl⟩

/-- What can be written as JSON is read in the text that is written. -/
theorem writeExact_reads (operator : String) {p : Payload} (fine : ¬ p.HasNoJson)
    (once : ¬ p.Has RepeatsKey) : ∃ text back, writeExact operator p = .ok text ∧
      readBack text = .ok back ∧ (back = p.unmarked ↔ ¬ p.Has Split) := by
  obtain ⟨noForeign, short⟩ := not_or.mp fine
  have writable : p.isWritable = true := Bool.of_not_eq_false short
  have accepted := (inexact?_eq_none_iff operator).mpr noForeign
  obtain ⟨json, back, written, read, same⟩ :=
    exists_rereads (exact_of_fine operator p accepted) writable once
  refine ⟨json.write, .ofJson back, ?_, ?_, same⟩
  · unfold writeExact
    rw [accepted, written]
    dsimp only
    rw [if_pos writable]
    rfl
  · unfold readBack
    rw [Json.read_write, read]

/-- A text is read back from its bytes in base64. -/
theorem textFromBase64_encode (text : List Char) :
    textFromBase64 (Base64.encode (Utf8.encode text)) = .ok text := by
  unfold textFromBase64
  rw [Base64.decode_encode]
  dsimp only
  rw [Utf8.decode_encode]
  exact congrArg Except.ok String.toList_ofList

/-! ## What is refused and what comes back -/

/-- A way of writing and reading payloads refuses some, and hands any other back, up to marks,
unless halves stand side by side in it. -/
structure Returns (act : Except Mishap Payload) (p : Payload) (refused apart : Prop) : Prop where
  refuses : refused → ∃ mishap, act = .error mishap
  returns : ¬ refused → ∃ back, act = .ok back ∧ (back = p.unmarked ↔ ¬ apart)

variable {p : Payload}

/-- Whatever is written as JSON is read in its text. -/
theorem returns_writeExact (operator : String) (once : ¬ p.Has RepeatsKey) :
    Returns (writeExact operator p >>= readBack) p p.HasNoJson (p.Has Split) where
  refuses none_ := by
    obtain ⟨mishap, refused⟩ := writeExact_refuses operator none_
    exact ⟨mishap, congrArg (· >>= readBack) refused⟩
  returns fine := by
    obtain ⟨text, back, written, read, same⟩ := writeExact_reads operator fine once
    exact ⟨back, (congrArg (· >>= readBack) written).trans read, same⟩

/-- A text comes back from JSON with the halves in it joined. -/
theorem jsonRoundTrip_text (s : String) :
    jsonRoundTrip (.text s) = .ok (.text (String.ofList (rejoin s.toList))) := by
  show readBack (Json.write (.text s)) = _
  unfold readBack
  rw [Json.read_write]
  rfl

theorem base64RoundTrip_bytes (b : List UInt8) : base64RoundTrip (.bytes b) = .ok (.bytes b) := by
  unfold base64RoundTrip
  dsimp only
  rw [Base64.decode_encode]

theorem base64RoundTrip_text (s : String) :
    base64RoundTrip (.text s) =
      if hasHalf s.toList then .error (Utf8.unencoded s.toList) else .ok (.text s) := by
  unfold base64RoundTrip Utf8.encodeWhole
  dsimp only
  split
  · rfl
  · show (textFromBase64 (Base64.encode (Utf8.encode s.toList))).bind _ = _
    rw [textFromBase64_encode]
    exact congrArg (fun s => Except.ok (Payload.text s)) String.ofList_toList

/-- What is neither bytes nor a text goes into base64 as JSON. -/
theorem base64RoundTrip_json (bytes : ∀ b, p ≠ .bytes b) (text : ∀ s, p ≠ .text s) :
    base64RoundTrip p = writeExact "base64_round_trip" p >>= readBack := by
  have through (json : List Char) :
      (textFromBase64 (Base64.encode (Utf8.encode json)) >>= readBack) = readBack json :=
    congrArg (· >>= readBack) (textFromBase64_encode json)
  have whole : base64RoundTrip p = writeExact "base64_round_trip" p >>= fun json =>
      textFromBase64 (Base64.encode (Utf8.encode json)) >>= readBack := by
    cases p with
    | bytes b => exact absurd rfl (bytes b)
    | text s => exact absurd rfl (text s)
    | _ => rfl
  rw [whole]
  exact congrArg _ (funext through)

theorem base64RoundTrip_returns (once : ¬ p.Has RepeatsKey) :
    Returns (base64RoundTrip p) p p.HasNoBase64 p.SplitsInBase64 := by
  have asJson (bytes : ∀ b, p ≠ .bytes b) (text : ∀ s, p ≠ .text s) :
      Returns (base64RoundTrip p) p p.HasNoJson (p.Has Split) := by
    rw [base64RoundTrip_json bytes text]
    exact returns_writeExact "base64_round_trip" once
  cases p with
  | bytes b =>
      exact ⟨False.elim, fun _ => ⟨_, base64RoundTrip_bytes b, fun _ => id, fun _ => rfl⟩⟩
  | text s =>
      constructor
      · intro half
        exact ⟨_, (base64RoundTrip_text s).trans (if_pos half)⟩
      · intro whole
        exact ⟨_, (base64RoundTrip_text s).trans (if_neg whole), fun _ => id, fun _ => rfl⟩
  | _ => exact asJson nofun nofun

end Builtin

/-! ## Through the engine -/

namespace Engine

/-- The built-in operators are there under their ids, whatever else is. -/
def HasBuiltins (engine : Engine) : Prop :=
  ∀ operator ∈ Builtin.operators, engine.operators.find? operator.id = some operator

theorem find?_tableOf (operators : List Operator) {operator : Operator}
    (once : (operators.map Operator.id).Nodup) (inside : operator ∈ operators) :
    (tableOf operators).find? operator.id = some operator := by
  have keys : (Assoc.keys (operators.map fun operator => (operator.id, operator))).Nodup := by
    unfold Assoc.keys
    rwa [List.map_map]
  unfold tableOf
  rw [Assoc.ofList_self keys, ← Assoc.mem_iff_find? keys]
  exact List.mem_map_of_mem inside

theorem hasBuiltins_plain : (plain true).HasBuiltins :=
  fun _ inside => find?_tableOf Builtin.operators (by decide) inside

theorem hasBuiltins_crossing (boundary : Binary64) : (crossing true boundary).HasBuiltins :=
  fun _ inside => find?_tableOf (Builtin.operators ++ Boundary.operators) (by decide)
    (List.mem_append_left _ inside)

/-- No operator that is added takes the place of a built-in one. -/
theorem HasBuiltins.add {engine after : Engine} {operator : Operator}
    (builtins : engine.HasBuiltins) (added : engine.add operator = .ok after) :
    after.HasBuiltins := by
  unfold Engine.add at added
  split at added
  · cases added
  · rename_i free
    obtain rfl := Except.ok.inj added
    intro builtin inside
    have there := builtins builtin inside
    have other : builtin.id ≠ operator.id := by
      intro same
      rw [same] at there
      exact free (Assoc.has_of_find? there)
    exact (Assoc.find?_put_of_ne other _ _).trans there

variable {engine : Engine} {id description : String} {options : List String}
  {act : Payload → (String → Payload → Payload) → Except Mishap Payload}

/-- An operator of one payload that is called without parameters: what its function returns gets the
labels of the value, one hop further on, and what it raises is reported. -/
theorem outcome_single
    (found : engine.operators.find? id = some (Builtin.single id description options act))
    (v : Value) (step : Option Int) (store : Store) :
    (engine.apply id [v] [] step store).outcome =
      some (match act v.payload (Builtin.option []) with
        | .ok back => .ok ⟨back, v.labels, v.hops + 1⟩
        | .error mishap => .error ⟨.operatorRaised id mishap.outOfTurn, step⟩) := by
  have got : engine.get id = .ok (Builtin.single id description options act) := get_eq_ok.mpr found
  have counted : ([v].isEmpty || !(Builtin.single id description options act).accepts [v].length) =
      false := rfl
  have bounded : engine.bound (Builtin.single id description options act) [] = .ok (none, []) := by
    unfold bound
    cases engine.boundary <;> rfl
  unfold apply
  rw [got]
  dsimp only
  rw [counted, if_neg Bool.false_ne_true, bounded]
  show settle (Builtin.single id description options act) [v] step none
    (.ofResult (act v.payload (Builtin.option []))) = _
  cases act v.payload (Builtin.option []) with
  | error mishap => rfl
  | ok back =>
      have kept : Value.unionLabels [v] = v.labels := SortedSet.union_empty v.labels
      have far : Value.furthest [v] = v.hops := Nat.max_zero v.hops
      refine congrArg some (conclude_eq_ok.mpr ⟨.combine [v] back, rfl, ?_, fun _ => ?_⟩)
      · rw [Value.combine, kept, far]
      · rw [kept]
        exact SortedSet.subset_def.mpr fun _ inside => inside

/-- What comes of a round trip through the engine: the payload is refused, which is reported, or
another one comes back with the same labels, one hop further on.  That is the same payload, up to
marks, unless halves of characters stand side by side. -/
structure RoundTrips (engine : Engine) (id : String) (v : Value) (refused apart : Prop) : Prop where
  refuses : refused → ∀ step store, ∃ mishap,
    (engine.apply id [v] [] step store).outcome = some (.error ⟨.operatorRaised id mishap, step⟩)
  returns : ¬ refused → ∃ back, (back = v.payload.unmarked ↔ ¬ apart) ∧ ∀ step store,
    (engine.apply id [v] [] step store).outcome = some (.ok ⟨back, v.labels, v.hops + 1⟩)

theorem roundTrips_of_returns
    (found : engine.operators.find? id = some (Builtin.single id description options act))
    {v : Value} {refused apart : Prop}
    (returns : Builtin.Returns (act v.payload (Builtin.option [])) v.payload refused apart) :
    engine.RoundTrips id v refused apart where
  refuses none_ step store := by
    obtain ⟨mishap, raised⟩ := returns.refuses none_
    rw [outcome_single found, raised]
    exact ⟨_, rfl⟩
  returns fine := by
    obtain ⟨back, returned, same⟩ := returns.returns fine
    refine ⟨back, same, fun step store => ?_⟩
    rw [outcome_single found, returned]

/-- **Round trips are exact but for split characters.**  A payload is refused on its way through JSON
exactly if JSON has no place for something in it or a number in it is too long, and on its way through
base64 likewise, except that bytes are never refused, and a text is if it has half a character.
Any other payload comes back as it was exactly if no text and no key in it, but for a text that is
put into base64 itself, has the halves of a character side by side. -/
theorem roundTrips_exact (builtins : engine.HasBuiltins) {v : Value}
    (once : ¬ v.payload.Has Payload.RepeatsKey) :
    engine.RoundTrips "json_round_trip" v v.payload.HasNoJson (v.payload.Has Payload.Split) ∧
      engine.RoundTrips "base64_round_trip" v v.payload.HasNoBase64 v.payload.SplitsInBase64 := by
  have json : Builtin.operators[7]? = some (Builtin.single "json_round_trip" "JSON encode then decode" []
    fun payload _ => Builtin.jsonRoundTrip payload) := rfl
  have base64 : Builtin.operators[8]? = some (Builtin.single "base64_round_trip"
    "base64 encode then decode" [] fun payload _ => Builtin.base64RoundTrip payload) := rfl
  exact ⟨roundTrips_of_returns (builtins _ (List.mem_of_getElem? json))
      (Builtin.returns_writeExact "json_round_trip" once),
    roundTrips_of_returns (builtins _ (List.mem_of_getElem? base64))
      (Builtin.base64RoundTrip_returns once)⟩

/-- A value from a form: its payload nests, and holds a truth value beside a number, a letter beyond
ASCII and a character of two halves in one piece. -/
def filledForm : Value where
  payload := .map [(.text "user", .text "h\u00e9llo --"),
    (.text "ids", .list [.int 1, .bool true, .float .nan, .null]),
    (.text "nested", .map [(.text "k", .text "😀")])]
  labels := .ofList [⟨"form", .httpBody, .untrusted⟩]
  hops := 2

/-- Both operators hand it on as it is, its labels kept, one hop further. -/
theorem roundTrips_exact_nested : ¬ filledForm.payload.Has Payload.RepeatsKey ∧
    ∀ id ∈ ["json_round_trip", "base64_round_trip"],
      ((plain true).apply id [filledForm] [] none {}).outcome =
        some (.ok ⟨filledForm.payload, filledForm.labels, 3⟩) := by
  have once : ¬ filledForm.payload.Has Payload.RepeatsKey := by
    simp [filledForm, Payload.has_map, Payload.has_list, Payload.has_leaf, Payload.RepeatsKey,
      Assoc.keys]
  have fine : ¬ filledForm.payload.HasNoJson :=
    not_or.mpr ⟨(Payload.inexact?_eq_none_iff "json_round_trip").mp rfl, by decide +kernel⟩
  have whole : ¬ filledForm.payload.Has Payload.Split := by
    simp [filledForm, Payload.not_has_split_map, Payload.not_has_split_list, Payload.has_leaf,
      Payload.Split, isJoined]
    decide
  obtain ⟨json, base64⟩ := roundTrips_exact hasBuiltins_plain once
  obtain ⟨back, same, outcome⟩ := json.returns fine
  obtain ⟨back', same', outcome'⟩ := base64.returns fine
  rw [same.mpr whole] at outcome
  rw [same'.mpr whole] at outcome'
  refine ⟨once, fun id either => ?_⟩
  rcases List.mem_pair.mp either with rfl | rfl
  · exact outcome none {}
  · exact outcome' none {}

/-- The two halves of a character, one after the other. -/
def splitText : String := .ofList [charOf 0xD83D, charOf 0xDE00]

/-- The text comes back from JSON as one character. -/
theorem roundTrip_joins_halves :
    ((plain true).apply "json_round_trip" [.constant (.text splitText)] [] none {}).outcome =
        some (.ok ⟨.text "😀", ∅, 1⟩) ∧
      Payload.text splitText ≠ .text "😀" := by
  have json : (plain true).operators.find? "json_round_trip" = some (Builtin.single "json_round_trip"
    "JSON encode then decode" [] fun payload _ => Builtin.jsonRoundTrip payload) := rfl
  refine ⟨?_, by decide⟩
  rw [outcome_single json]
  dsimp only [Value.constant]
  rw [Builtin.jsonRoundTrip_text]
  rfl

end Engine

end TaintFlow
