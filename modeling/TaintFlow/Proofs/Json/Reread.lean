import TaintFlow.Proofs.Json.Number
import TaintFlow.Proofs.Json.Text

/-!
# JSON that is written and read again

A value that is written in one line is read again part by part: what becomes of a
part does not depend on what stands around it.  `reread` says what becomes of a
value, and `read_write` that this is what the reader finds in its text.
-/

namespace TaintFlow.Json

open Number Text

mutual

/-- What a value is after it has been written and read again, if it can be read. -/
def reread : Json → Option Json
  | .null => some .null
  | .bool b => some (.bool b)
  | .int n => ofNumberText? (toString n).toList
  | .float (.finite x) => ofNumberText? (floatStyle.write (.finite x))
  | .float (.infinite negative) => some (.float (.infinite negative))
  | .float (.nan _) => some (.float .nan)
  | .text s => some (.text (String.ofList (rejoin s.toList)))
  | .array items => (rereadItems items).map .array
  | .object members => (rereadMembers members).map fun members => .object (Assoc.ofList members)

/-- What the items of an array are. -/
def rereadItems : List Json → Option (List Json)
  | [] => some []
  | item :: rest => do return (← reread item) :: (← rereadItems rest)

/-- What the members of an object are. -/
def rereadMembers : List (String × Json) → Option (List (String × Json))
  | [] => some []
  | (key, value) :: rest => do
    return (String.ofList (rejoin key.toList), ← reread value) :: (← rereadMembers rest)

end

/-! ## Where values begin and end -/

/-- A character that begins a value. -/
def Begins (c : Char) : Prop :=
  ¬ (c = ' ' ∨ c = '\t' ∨ c = '\n' ∨ c = '\r') ∧ c ≠ ']' ∧ c ≠ '\x7d'

theorem begins_of_isNumberChar {c : Char} (number : isNumberChar c = true) : Begins c := by
  refine ⟨?_, ?_, ?_⟩
  · rintro (rfl | rfl | rfl | rfl) <;> cases number
  · rintro rfl
    cases number
  · rintro rfl
    cases number

theorem IsNumberRow.begins {row : List Char} (number : IsNumberRow row) :
    ∃ c rest, row = c :: rest ∧ Begins c := by
  obtain ⟨some_, all⟩ := number
  cases row with
  | nil => exact absurd rfl some_
  | cons c rest => exact ⟨c, rest, rfl, begins_of_isNumberChar (all c List.mem_cons_self)⟩

/-- A written value is not empty and begins as values do. -/
theorem writeAt_begins (depth : Nat) (value : Json) :
    ∃ c rest, writeAt .line depth value = c :: rest ∧ Begins c := by
  cases value with
  | null => exact ⟨'n', _, rfl, by unfold Begins; decide⟩
  | bool b =>
      cases b with
      | false => exact ⟨'f', _, rfl, by unfold Begins; decide⟩
      | true => exact ⟨'t', _, rfl, by unfold Begins; decide⟩
  | int n => exact (isNumberRow_int n).begins
  | float x =>
      cases x with
      | finite x => exact (isNumberRow_finite x).begins
      | infinite negative =>
          cases negative with
          | false => exact ⟨'I', _, rfl, by unfold Begins; decide⟩
          | true => exact ⟨'-', _, rfl, by unfold Begins; decide⟩
      | nan mark => exact ⟨'N', _, rfl, by unfold Begins; decide⟩
  | text s => exact ⟨'"', _, rfl, by unfold Begins; decide⟩
  | array items =>
      cases items with
      | nil => exact ⟨'[', _, rfl, by unfold Begins; decide⟩
      | cons item rest => exact ⟨'[', _, rfl, by unfold Begins; decide⟩
  | object members =>
      cases members with
      | nil => exact ⟨'\x7b', _, rfl, by unfold Begins; decide⟩
      | cons entry rest => exact ⟨'\x7b', _, rfl, by unfold Begins; decide⟩

theorem skipBlanks_of_begins {c : Char} (begins : Begins c) (rest : List Char) :
    skipBlanks (c :: rest) = c :: rest := by
  unfold skipBlanks
  rw [List.dropWhile_cons, decide_eq_false begins.1]
  rfl

theorem skipBlanks_writeAt (depth : Nat) (value : Json) (rest : List Char) :
    skipBlanks (writeAt .line depth value ++ rest) = writeAt .line depth value ++ rest := by
  obtain ⟨c, more, same, begins⟩ := writeAt_begins depth value
  rw [same]
  exact skipBlanks_of_begins begins _

theorem delimits_of_head {c : Char} (rest : List Char) (head : c = ',' ∨ c = ']' ∨ c = '\x7d') :
    Delimits (c :: rest) := by
  intro d inside
  obtain rfl := Option.some.inj inside
  exact head

/-! ## Values that are written as a word or a number -/

/-- What begins with no quote and no bracket is a word or a number. -/
theorem readValue_scalar {c : Char} {rest : List Char} {fuel : Nat} (quote : c ≠ '"')
    (array : c ≠ '[') (object : c ≠ '\x7b') :
    readValue (fuel + 1) (c :: rest) = readScalar (c :: rest) := by
  rw [readValue.eq_def]
  dsimp only
  split
  · rename_i same
    exact absurd (List.cons.inj same).1 quote
  · rename_i same
    exact absurd (List.cons.inj same).1 array
  · rename_i same
    exact absurd (List.cons.inj same).1 object
  · rfl

theorem readValue_row {row rest : List Char} {fuel : Nat} (number : IsNumberRow row)
    (delimits : Delimits rest) :
    readValue (fuel + 1) (row ++ rest) = (ofNumberText? row).map (·, rest) := by
  rw [← readScalar_row number delimits]
  obtain ⟨some_, all⟩ := number
  cases row with
  | nil => exact absurd rfl some_
  | cons c row =>
      have isNumber := all c List.mem_cons_self
      refine readValue_scalar ?_ ?_ ?_
      · rintro rfl
        cases isNumber
      · rintro rfl
        cases isNumber
      · rintro rfl
        cases isNumber

theorem readValue_word {word : List Char} {value : Json} (known : (word, value) ∈ words)
    (rest : List Char) {fuel : Nat} : readValue (fuel + 1) (word ++ rest) = some (value, rest) := by
  unfold words at known
  simp only [List.mem_cons, Prod.mk.injEq, List.not_mem_nil, or_false] at known
  rcases known with ⟨rfl, rfl⟩ | ⟨rfl, rfl⟩ | ⟨rfl, rfl⟩ | ⟨rfl, rfl⟩ | ⟨rfl, rfl⟩ | ⟨rfl, rfl⟩
  · exact (readValue_scalar (c := 'n') (by decide) (by decide) (by decide)).trans rfl
  · exact (readValue_scalar (c := 't') (by decide) (by decide) (by decide)).trans rfl
  · exact (readValue_scalar (c := 'f') (by decide) (by decide) (by decide)).trans rfl
  · exact (readValue_scalar (c := 'N') (by decide) (by decide) (by decide)).trans rfl
  · exact (readValue_scalar (c := 'I') (by decide) (by decide) (by decide)).trans rfl
  · exact (readValue_scalar (c := '-') (by decide) (by decide) (by decide)).trans rfl

theorem length_le_flatMap (text : List Char) :
    text.length ≤ (text.flatMap fun c => escapeCode (codeOf c)).length := by
  induction text with
  | nil => exact Nat.le_refl _
  | cons c rest ih =>
      have some_ : 0 < (escapeCode (codeOf c)).length := by
        rcases escapeCode_cases (codeOf c) with ⟨_, same, _⟩ | ⟨same, _⟩ | ⟨same, _⟩ | ⟨same, _⟩
        · rw [same]
          exact Nat.succ_pos _
        · rw [same]
          exact Nat.succ_pos _
        · rw [same]
          exact Nat.succ_pos _
        · rw [same]
          exact Nat.succ_pos _
      rw [List.flatMap_cons, List.length_append, List.length_cons]
      omega

/-- A quoted text at the front of a text. -/
theorem readQuoted_writeText (s : String) (rest : List Char) :
    ∃ text, writeText s ++ rest = '"' :: text ∧
      readQuoted (text.length + 1) text = some (rejoin s.toList, rest) := by
  refine ⟨s.toList.flatMap (fun c => escapeCode (codeOf c)) ++ '"' :: rest, ?_, ?_⟩
  · unfold writeText
    rw [List.cons_append, List.append_assoc]
    rfl
  · refine readQuoted_written s.toList rest ?_
    have := length_le_flatMap s.toList
    rw [List.length_append]
    omega

/-- A quoted text is read up to its closing quote. -/
theorem readValue_text (s : String) (rest : List Char) {fuel : Nat} :
    readValue (fuel + 1) (writeText s ++ rest) =
      some (.text (String.ofList (rejoin s.toList)), rest) := by
  obtain ⟨text, quoted, read⟩ := readQuoted_writeText s rest
  rw [quoted, readValue.eq_def]
  simp only [read]
  rfl

/-- What follows an opening bracket and begins a value is an item. -/
theorem readValue_array {c : Char} {text : List Char} {fuel : Nat} (begins : Begins c) :
    readValue (fuel + 1) ('[' :: c :: text) =
      (readItems fuel (c :: text)).map fun (items, r) => (.array items, r) := by
  rw [readValue.eq_def]
  simp only [skipBlanks_of_begins begins]
  split
  · rename_i same
    exact absurd (List.cons.inj same).1 begins.2.1
  · rfl

/-- What follows an opening brace and begins a text is a member. -/
theorem readValue_object {c : Char} {text : List Char} {fuel : Nat} (begins : Begins c) :
    readValue (fuel + 1) ('\x7b' :: c :: text) =
      (readMembers fuel (c :: text)).map fun (members, r) =>
        (.object (Assoc.ofList members), r) := by
  rw [readValue.eq_def]
  simp only [skipBlanks_of_begins begins]
  split
  · rename_i same
    exact absurd (List.cons.inj same).1 begins.2.2
  · rfl

/-! ## Values that have parts -/

/-- With so much fuel every written value is read. -/
def ReadsValues (fuel : Nat) : Prop :=
  ∀ depth value rest, Delimits rest → (writeAt .line depth value).length ≤ fuel →
    readValue fuel (writeAt .line depth value ++ rest) = (reread value).map (·, rest)

/-- With so much fuel the written items of every array are read. -/
def ReadsItems (fuel : Nat) : Prop :=
  ∀ depth item items rest,
    (writeAt .line depth item).length + (writeItems .line depth items).length < fuel →
      readItems fuel (writeAt .line depth item ++ (writeItems .line depth items ++ ']' :: rest)) =
        (rereadItems (item :: items)).map (·, rest)

/-- With so much fuel the written members of every object are read. -/
def ReadsMembers (fuel : Nat) : Prop :=
  ∀ depth key value members rest,
    (writeAt .line depth value).length + (writeMembers .line depth members).length < fuel →
      readMembers fuel (writeText key ++ (':' :: ' ' :: (writeAt .line depth value ++
        (writeMembers .line depth members ++ '\x7d' :: rest)))) =
          (rereadMembers ((key, value) :: members)).map (·, rest)

variable {fuel : Nat}

theorem readItems_blank (text : List Char) : readItems fuel (' ' :: text) = readItems fuel text := by
  cases fuel with
  | zero => rfl
  | succ fuel => rw [readItems, readItems, show skipBlanks (' ' :: text) = skipBlanks text from rfl]

theorem readMembers_blank (text : List Char) :
    readMembers fuel (' ' :: text) = readMembers fuel text := by
  cases fuel with
  | zero => rfl
  | succ fuel =>
      rw [readMembers, readMembers, show skipBlanks (' ' :: text) = skipBlanks text from rfl]

theorem readsItems_succ (values : ReadsValues fuel) (items : ReadsItems fuel) :
    ReadsItems (fuel + 1) := by
  intro depth item more rest enough
  rw [readItems, skipBlanks_writeAt]
  cases more with
  | nil =>
      have last : writeItems .line depth [] ++ ']' :: rest = ']' :: rest := rfl
      rw [last, values depth item _ (delimits_of_head rest (.inr (.inl rfl))) (by omega)]
      cases found : reread item with
      | none => simp [rereadItems, found]
      | some read => simp [rereadItems, found, skipBlanks]
  | cons next more =>
      have first : writeItems .line depth (next :: more) ++ ']' :: rest =
          ',' :: ' ' :: (writeAt .line depth next ++ (writeItems .line depth more ++ ']' :: rest)) := by
        simp [writeItems, Layout.between]
      have length : (writeItems .line depth (next :: more)).length =
          2 + (writeAt .line depth next).length + (writeItems .line depth more).length := by
        simp [writeItems, Layout.between]
        omega
      have others := items depth next more rest (by omega)
      rw [first, values depth item _ (delimits_of_head _ (.inl rfl)) (by omega)]
      cases found : reread item with
      | none => simp [rereadItems, found]
      | some read =>
          rw [show rereadItems (item :: next :: more) = (rereadItems (next :: more)).map (read :: ·) by
            rw [rereadItems, found]
            cases rereadItems (next :: more) <;> rfl]
          show (readItems fuel (' ' :: _)).map _ = _
          rw [readItems_blank, others, Option.map_map, Option.map_map]
          rfl

/-- After its key a member is a value, which is followed by another member or the end. -/
theorem readMembers_key {key text after : List Char}
    (readKey : readQuoted (text.length + 1) text = some (key, ':' :: after)) :
    readMembers (fuel + 1) ('"' :: text) =
      match readValue fuel (skipBlanks after) with
      | none => none
      | some (value, rest) =>
        match skipBlanks rest with
        | ',' :: rest => (readMembers fuel rest).map fun (members, r) =>
          ((String.ofList key, value) :: members, r)
        | '\x7d' :: rest => some ([(String.ofList key, value)], rest)
        | _ => none := by
  have start : skipBlanks ('"' :: text) = '"' :: text :=
    skipBlanks_of_begins (by unfold Begins; decide) text
  rw [readMembers, start]
  simp only [readKey]
  rfl

theorem readsMembers_succ (values : ReadsValues fuel) (members : ReadsMembers fuel) :
    ReadsMembers (fuel + 1) := by
  intro depth key value more rest enough
  obtain ⟨text, quoted, readKey⟩ := readQuoted_writeText key (':' :: ' ' :: (writeAt .line depth value ++
    (writeMembers .line depth more ++ '\x7d' :: rest)))
  have blank : skipBlanks (' ' :: (writeAt .line depth value ++
      (writeMembers .line depth more ++ '\x7d' :: rest))) = writeAt .line depth value ++
        (writeMembers .line depth more ++ '\x7d' :: rest) := skipBlanks_writeAt depth value _
  rw [quoted, readMembers_key readKey, blank]
  cases more with
  | nil =>
      have last : writeMembers .line depth [] ++ '\x7d' :: rest = '\x7d' :: rest := rfl
      rw [last, values depth value _ (delimits_of_head rest (.inr (.inr rfl))) (by omega)]
      cases found : reread value with
      | none => simp [rereadMembers, found]
      | some read => simp [rereadMembers, found, skipBlanks]
  | cons next more =>
      obtain ⟨name, item⟩ := next
      have first : writeMembers .line depth ((name, item) :: more) ++ '\x7d' :: rest =
          ',' :: ' ' :: (writeText name ++ (':' :: ' ' :: (writeAt .line depth item ++
            (writeMembers .line depth more ++ '\x7d' :: rest)))) := by
        simp [writeMembers, Layout.between]
      have length : (writeAt .line depth item).length + (writeMembers .line depth more).length <
          (writeMembers .line depth ((name, item) :: more)).length := by
        simp [writeMembers, Layout.between]
        omega
      have others := members depth name item more rest (by omega)
      rw [first, values depth value _ (delimits_of_head _ (.inl rfl)) (by omega)]
      cases found : reread value with
      | none => simp [rereadMembers, found]
      | some read =>
          rw [show rereadMembers ((key, value) :: (name, item) :: more) =
              (rereadMembers ((name, item) :: more)).map
                ((String.ofList (rejoin key.toList), read) :: ·) by
            rw [rereadMembers, found]
            cases rereadMembers ((name, item) :: more) <;> rfl]
          show (readMembers fuel (' ' :: _)).map _ = _
          rw [readMembers_blank, others, Option.map_map, Option.map_map]
          rfl

theorem readsValues_succ (items : ReadsItems fuel) (members : ReadsMembers fuel) :
    ReadsValues (fuel + 1) := by
  intro depth value rest delimits enough
  cases value with
  | null => exact readValue_word (.head _) rest
  | bool b =>
      cases b with
      | false => exact readValue_word (.tail _ (.tail _ (.head _))) rest
      | true => exact readValue_word (.tail _ (.head _)) rest
  | int n => exact readValue_row (isNumberRow_int n) delimits
  | float x =>
      cases x with
      | finite x => exact readValue_row (isNumberRow_finite x) delimits
      | infinite negative =>
          cases negative with
          | false => exact readValue_word (.tail _ (.tail _ (.tail _ (.tail _ (.head _))))) rest
          | true => exact readValue_word (.tail _ (.tail _ (.tail _ (.tail _ (.tail _ (.head _)))))) rest
      | nan mark => exact readValue_word (.tail _ (.tail _ (.tail _ (.head _)))) rest
  | text s => exact readValue_text s rest
  | array list =>
      cases list with
      | nil => rfl
      | cons item more =>
          obtain ⟨c, text, same, begins⟩ := writeAt_begins (depth + 1) item
          have inside : writeAt .line depth (.array (item :: more)) ++ rest =
              '[' :: (writeAt .line (depth + 1) item ++
                (writeItems .line (depth + 1) more ++ ']' :: rest)) := by
            simp [writeAt, Layout.breakAt]
          have length : (writeAt .line depth (.array (item :: more))).length =
              (writeAt .line (depth + 1) item).length +
                (writeItems .line (depth + 1) more).length + 2 := by
            simp [writeAt, Layout.breakAt]
            omega
          have read := items (depth + 1) item more rest (by omega)
          rw [inside]
          rw [same, List.cons_append] at read ⊢
          rw [readValue_array begins, read, reread, Option.map_map, Option.map_map]
          rfl
  | object list =>
      cases list with
      | nil => rfl
      | cons entry more =>
          obtain ⟨key, item⟩ := entry
          have inside : writeAt .line depth (.object ((key, item) :: more)) ++ rest =
              '\x7b' :: (writeText key ++ (':' :: ' ' :: (writeAt .line (depth + 1) item ++
                (writeMembers .line (depth + 1) more ++ '\x7d' :: rest)))) := by
            simp [writeAt, Layout.breakAt]
          have length : (writeAt .line (depth + 1) item).length +
              (writeMembers .line (depth + 1) more).length + 2 ≤
                (writeAt .line depth (.object ((key, item) :: more))).length := by
            simp [writeAt, Layout.breakAt]
            omega
          have read := members (depth + 1) key item more rest (by omega)
          rw [inside]
          show readValue (fuel + 1) ('\x7b' :: '"' :: _) = _
          rw [readValue_object (by unfold Begins; decide)]
          refine (congrArg _ read).trans ?_
          rw [reread, Option.map_map, Option.map_map]
          rfl

/-- Every written value is read with as much fuel as its text is long. -/
theorem reads_all (fuel : Nat) : ReadsValues fuel ∧ ReadsItems fuel ∧ ReadsMembers fuel := by
  -- What stands in brackets is read with less fuel than the brackets, so all three go together.
  induction fuel with
  | zero =>
      refine ⟨?_, ?_, ?_⟩
      · intro depth value rest _ enough
        obtain ⟨c, text, same, _⟩ := writeAt_begins depth value
        rw [same] at enough
        exact absurd enough (Nat.not_succ_le_zero _)
      · intro depth item items rest enough
        exact absurd enough (Nat.not_lt_zero _)
      · intro depth key value members rest enough
        exact absurd enough (Nat.not_lt_zero _)
  | succ fuel ih =>
      obtain ⟨values, items, members⟩ := ih
      exact ⟨readsValues_succ items members, readsItems_succ values items,
        readsMembers_succ values members⟩

/-- The reader finds in the text of a value what becomes of the value. -/
theorem read_write (value : Json) : read value.write = reread value := by
  have written : value.write = writeAt .line 0 value ++ [] := (List.append_nil _).symm
  have none : Delimits [] := fun _ inside => nomatch inside
  unfold read
  rw [written, skipBlanks_writeAt, (reads_all _).1 0 value [] none]
  · cases reread value with
    | none => rfl
    | some value => rfl
  · rw [List.append_nil]
    omega

end TaintFlow.Json
