import Mathlib.Data.List.Perm.Basic
import TaintFlow.Agenda

/-!
# Who waits in an agenda

An agenda makes nobody up and forgets nobody: whoever is added waits from then
on, and whoever goes on next has waited and is the only one that is left out.
-/

namespace TaintFlow.Agenda

variable {α : Type} {a a' : Agenda α} {who other : α}

/-- All who wait, with what they wait for. -/
def entries (a : Agenda α) : List (α × Wait) :=
  a.round ++ a.coming ++ a.threads ++ a.timers.map Prod.snd

/-- Somebody waits, for whatever it may be. -/
def Waits (a : Agenda α) (who : α) : Prop := ∃ wait, (who, wait) ∈ a.entries

/-- All who wait. -/
def parties (a : Agenda α) : List α := a.entries.map Prod.fst

theorem waits_iff : a.Waits who ↔ who ∈ a.parties := by
  unfold Waits parties
  simp

theorem perm_insertTimer (moment : Number.Binary64) (entry : α × Wait)
    (timers : List (Number.Binary64 × α × Wait)) :
    (insertTimer moment entry timers).Perm ((moment, entry) :: timers) := by
  induction timers with
  | nil => exact .refl _
  | cons first rest ih =>
      unfold insertTimer
      split
      · exact .refl _
      · exact (ih.cons _).trans (.swap _ _ _)

/-- Who is added waits with those who have waited before. -/
theorem perm_entries_add (a : Agenda α) (who : α) (wait : Wait) :
    (a.add who wait).entries.Perm ((who, wait.tail) :: a.entries) := by
  unfold entries
  cases wait with
  | nil => exact .refl _
  | cons hop rest =>
      cases hop with
      | turn =>
          simp only [add, List.append_assoc, List.tail_cons]
          exact (List.perm_middle.append_left _).trans List.perm_middle
      | thread =>
          simp only [add, List.append_assoc, List.tail_cons]
          exact ((List.perm_middle.append_left _).append_left _).trans
            ((List.perm_middle.append_left _).trans List.perm_middle)
      | timer delay =>
          simp only [add, List.tail_cons]
          have set := (perm_insertTimer (a.momentAfter delay) (who, rest) a.timers).map Prod.snd
          exact (set.append_left _).trans List.perm_middle

theorem perm_add (a : Agenda α) (who : α) (wait : Wait) :
    (a.add who wait).parties.Perm (who :: a.parties) :=
  (perm_entries_add a who wait).map Prod.fst

theorem waits_add {wait : Wait} (waits : (a.add who wait).Waits other) :
    other = who ∨ a.Waits other := by
  rw [waits_iff] at waits ⊢
  exact List.mem_cons.mp ((perm_add a who wait).mem_iff.mp waits)

/-- Several who are added for the same wait with those who have waited before. -/
theorem perm_foldl_add {β : Type} (party : β → α) (wait : Wait) (bs : List β) (a : Agenda α) :
    (bs.foldl (fun a b => a.add (party b) wait) a).parties.Perm (bs.map party ++ a.parties) := by
  induction bs generalizing a with
  | nil => exact .refl _
  | cons b rest ih =>
      refine (ih (a.add (party b) wait)).trans ?_
      exact ((perm_add a (party b) wait).append_left _).trans List.perm_middle

/-! ## Rounds -/

theorem perm_ready (spent : a.round = []) : a.ready.entries.Perm a.entries := by
  have timers := List.takeWhile_append_dropWhile (p := a.isDue) (l := a.timers)
  have all : a.entries = a.coming ++ (a.threads ++ (a.timers.takeWhile a.isDue).map Prod.snd ++
      (a.timers.dropWhile a.isDue).map Prod.snd) := by
    unfold entries
    rw [spent, List.append_assoc a.threads, ← List.map_append, timers, List.nil_append,
      List.append_assoc]
  rw [all]
  unfold entries ready
  simp only [List.append_nil, List.append_assoc]
  exact List.perm_append_comm_assoc .. |>.append_left _

theorem perm_endThreads (spent : a.round = []) : a.endThreads.entries.Perm a.entries := by
  unfold entries endThreads
  rw [spent]
  simp only [List.append_nil, List.append_assoc, List.nil_append]
  exact List.perm_append_comm_assoc ..

theorem entries_sleep (a : Agenda α) : a.sleep.entries = a.entries := by
  unfold sleep
  split
  · split
    · rfl
    · rfl
  · rfl

theorem round_sleep (a : Agenda α) : a.sleep.round = a.round := by
  unfold sleep
  split
  · split
    · rfl
    · rfl
  · rfl

/-- A new round, when the last one is over, is for those who have waited. -/
theorem perm_nextRound (spent : a.round = []) : a.nextRound.entries.Perm a.entries := by
  unfold nextRound
  dsimp only
  split
  · exact perm_ready spent
  · rename_i nobody
    have spent' : a.ready.round = [] := by simpa using nobody
    split
    · exact (perm_endThreads spent').trans (perm_ready spent)
    · have slept := perm_ready ((round_sleep a.ready).trans spent')
      rw [entries_sleep] at slept
      exact slept.trans (perm_ready spent)

/-! ## Who goes on -/

theorem perm_of_nextWithin {steps : Nat} (next : nextWithin steps a = some (who, a')) :
    a.parties.Perm (who :: a'.parties) := by
  induction steps generalizing a with
  | zero => cases next
  | succ steps ih =>
      unfold nextWithin at next
      split at next
      · rename_i first rest round
        obtain ⟨rfl, rfl⟩ := Prod.mk.inj (Option.some.inj next)
        refine .of_eq ?_
        unfold parties entries
        rw [round]
        rfl
      · rename_i first wait rest _ round
        refine .trans (.of_eq ?_) ((perm_add { a with round := rest } first wait).symm.trans (ih next))
        unfold parties entries
        rw [round]
        rfl
      · rename_i spent
        dsimp only at next
        split at next
        · cases next
        · exact ((perm_nextRound spent).map Prod.fst).symm.trans (ih next)

/-- Whoever goes on next has waited, and all others wait on. -/
theorem perm_of_next? (next : a.next? = some (who, a')) : a.parties.Perm (who :: a'.parties) :=
  perm_of_nextWithin next

theorem waits_of_next? (next : a.next? = some (who, a')) :
    a.Waits who ∧ ∀ {other}, a'.Waits other → a.Waits other := by
  have perm := perm_of_next? next
  refine ⟨waits_iff.mpr (perm.mem_iff.mpr List.mem_cons_self), fun waits => ?_⟩
  exact waits_iff.mpr (perm.mem_iff.mpr (List.mem_cons_of_mem _ (waits_iff.mp waits)))

end TaintFlow.Agenda
