import TaintFlow.Text.Case

/-!
# Small letters

A text that is the lower case of some other one, and whose own lower case consists
of plain characters, is its own lower case: `lower_eq_self`.  For of the
characters that lower case consists of, none but a plain one has plain characters
as its lower case.
-/

namespace TaintFlow.Text

/-- A plain character. -/
def IsPlain (c : Char) : Prop := c.toNat < 128

/-- The code points whose lower case has a plain character that they are not: those of the plain
capital letters, of a capital letter with a dot, and of the sign of a unit. -/
def Turns (n : Nat) : Prop := 0x41 ≤ n ∧ n ≤ 0x5A ∨ n = 0x130 ∨ n = 0x212A

/-- A run leads to no code point that turns, only to those of characters, and to a plain one only
from one that turns. -/
def CaseRun.Settles (run : CaseRun) : Prop :=
  (run.last + run.shift < 0x41 ∨ 0x5A < run.first + run.shift) ∧
    (run.last + run.shift < 0x130 ∨ 0x130 < run.first + run.shift) ∧
    (run.last + run.shift < 0x212A ∨ 0x212A < run.first + run.shift) ∧
    0 ≤ run.first + run.shift ∧
    (run.last + run.shift < 0xD800 ∨
      0xDFFF < run.first + run.shift ∧ run.last + run.shift < 0x110000) ∧
    (128 ≤ run.first + run.shift ∨ 0x41 ≤ run.first ∧ run.last ≤ 0x5A ∨
      run.first = 0x212A ∧ run.last = 0x212A)

instance (run : CaseRun) : Decidable run.Settles := by
  unfold CaseRun.Settles
  infer_instance

theorem settles_of_mem {run : CaseRun} (inside : run ∈ lowerRuns) : run.Settles := by
  have all : ∀ run ∈ lowerRuns, run.Settles := by decide +kernel
  exact all run inside

variable {c d : Char} {run : CaseRun} {n m : Nat}

theorem CaseRun.bounds_of_shift? (sent : run.shift? n = some m) :
    run.first ≤ n ∧ n ≤ run.last ∧ m = ((n : Int) + run.shift).toNat := by
  unfold CaseRun.shift? at sent
  split at sent
  · rename_i inside
    exact ⟨inside.1, inside.2.1, (Option.some.inj sent).symm⟩
  · cases sent

theorem toNat_ofNat_of_settles (settles : run.Settles) (sent : run.shift? n = some m) :
    (Char.ofNat m).toNat = m := by
  obtain ⟨low, high, rfl⟩ := CaseRun.bounds_of_shift? sent
  obtain ⟨-, -, -, positive, valid, -⟩ := settles
  have character : (((n : Int) + run.shift).toNat).isValidChar := by
    unfold Nat.isValidChar
    omega
  unfold Char.ofNat
  rw [dif_pos character]
  rfl

/-- One character under the lower-case map: several, another one, or the same. -/
theorem mapCase_cases (c : Char) :
    c.toNat = 0x130 ∧ mapCase lowerRuns lowerExpansions c = ['i', Char.ofNat 0x307] ∨
      (∃ run ∈ lowerRuns, ∃ m, run.shift? c.toNat = some m ∧
        mapCase lowerRuns lowerExpansions c = [Char.ofNat m]) ∨
      ¬ Turns c.toNat ∧ mapCase lowerRuns lowerExpansions c = [c] := by
  have expands : lowerExpansions.lookup c.toNat =
      if c.toNat = 0x130 then some [0x69, 0x307] else none := by
    unfold lowerExpansions
    rw [List.lookup_cons, List.lookup_nil]
    split
    · rename_i here
      rw [if_pos (beq_iff_eq.mp here)]
    · rename_i other
      rw [if_neg (beq_eq_false_iff_ne.mp other)]
  unfold mapCase
  rw [expands]
  by_cases dotted : c.toNat = 0x130
  · exact .inl ⟨dotted, by rw [if_pos dotted]; rfl⟩
  rw [if_neg dotted]
  cases sent : lowerRuns.findSome? (·.shift? c.toNat) with
  | some m =>
      obtain ⟨run, inside, sent⟩ := List.exists_of_findSome?_eq_some sent
      exact .inr (.inl ⟨run, inside, m, sent, rfl⟩)
  | none =>
      refine .inr (.inr ⟨?_, rfl⟩)
      have stays := List.findSome?_eq_none_iff.mp sent
      rintro (letter | dot | unit)
      · have capital := stays ⟨0x41, 0x5A, 1, 32⟩ List.mem_cons_self
        rw [CaseRun.shift?, if_pos ⟨letter.1, letter.2, Nat.mod_one _⟩] at capital
        cases capital
      · exact dotted dot
      · have turns : ¬ ∀ run ∈ lowerRuns, run.shift? 0x212A = none := by decide +kernel
        exact turns (unit ▸ stays)

/-- No character of a lower case turns. -/
theorem not_turns_of_mem_mapCase (inside : d ∈ mapCase lowerRuns lowerExpansions c) :
    ¬ Turns d.toNat := by
  obtain ⟨-, made⟩ | ⟨run, listed, m, sent, made⟩ | ⟨stays, made⟩ := mapCase_cases c
  · rw [made] at inside
    have both : ∀ d ∈ ['i', Char.ofNat 0x307], ¬ Turns d.toNat := by simp [Turns]
    exact both d inside
  · rw [made, List.mem_singleton] at inside
    subst inside
    have settles := settles_of_mem listed
    rw [toNat_ofNat_of_settles settles sent]
    obtain ⟨low, high, rfl⟩ := CaseRun.bounds_of_shift? sent
    obtain ⟨capitals, dotted, unit, positive, -, -⟩ := settles
    unfold Turns
    omega
  · rw [made, List.mem_singleton] at inside
    exact inside ▸ stays

/-- A character that does not turn is its own lower case, if this is plain. -/
theorem mapCase_eq_self (stays : ¬ Turns c.toNat)
    (plain : ∀ d ∈ mapCase lowerRuns lowerExpansions c, IsPlain d) :
    mapCase lowerRuns lowerExpansions c = [c] := by
  obtain ⟨dotted, -⟩ | ⟨run, listed, m, sent, made⟩ | ⟨-, made⟩ := mapCase_cases c
  · exact absurd (.inr (.inl dotted)) stays
  · have settles := settles_of_mem listed
    have small := plain (Char.ofNat m) (made ▸ List.mem_singleton_self _)
    rw [IsPlain, toNat_ofNat_of_settles settles sent] at small
    obtain ⟨low, high, rfl⟩ := CaseRun.bounds_of_shift? sent
    obtain ⟨-, -, -, positive, -, source⟩ := settles
    unfold Turns at stays
    omega
  · exact made

/-! ## Texts -/

theorem not_turns_of_mem_lowerFrom {before row : List Char} (inside : d ∈ lowerFrom before row) :
    ¬ Turns d.toNat := by
  induction row generalizing before with
  | nil => cases inside
  | cons c rest ih =>
      rw [lowerFrom] at inside
      obtain here | later := List.mem_append.mp inside
      · split at here
        · have both : ∀ d ∈ ['ς', 'σ'], ¬ Turns d.toNat := by simp [Turns]
          rw [List.mem_singleton] at here
          split at here
          · exact both d (here ▸ List.mem_cons_self)
          · exact both d (here ▸ List.mem_cons_of_mem _ List.mem_cons_self)
        · exact not_turns_of_mem_mapCase here
      · exact ih later

theorem lowerFrom_eq_self {before row : List Char} (stays : ∀ c ∈ row, ¬ Turns c.toNat)
    (plain : ∀ d ∈ lowerFrom before row, IsPlain d) : lowerFrom before row = row := by
  induction row generalizing before with
  | nil => rfl
  | cons c rest ih =>
      obtain ⟨first, others⟩ := List.forall_mem_cons.mp stays
      rw [lowerFrom] at plain ⊢
      obtain ⟨here, later⟩ := List.forall_mem_append.mp plain
      rw [ih others later]
      split at here
      · have neither : ¬ IsPlain 'ς' ∧ ¬ IsPlain 'σ' := by
          unfold IsPlain
          decide
        have letter := here _ (List.mem_singleton_self _)
        split at letter
        · exact absurd letter neither.1
        · exact absurd letter neither.2
      · rename_i other
        rw [if_neg other, mapCase_eq_self first here]
        rfl

/-- A text of characters that do not turn is its own lower case, if this is plain. -/
theorem lower_eq_self {text : String} (stays : ∀ c ∈ text.toList, ¬ Turns c.toNat)
    (plain : ∀ d ∈ (lower text).toList, IsPlain d) : lower text = text := by
  unfold lower at plain ⊢
  rw [String.toList_ofList] at plain
  rw [lowerFrom_eq_self stays plain, String.ofList_toList]

theorem not_turns_of_mem_lower {text : String} (inside : d ∈ (lower text).toList) :
    ¬ Turns d.toNat := by
  unfold lower at inside
  rw [String.toList_ofList] at inside
  exact not_turns_of_mem_lowerFrom inside

end TaintFlow.Text
