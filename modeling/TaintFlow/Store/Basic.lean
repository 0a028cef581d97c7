import TaintFlow.Data.Enumeration
import TaintFlow.Value
import TaintFlow.Mishap
import TaintFlow.Data.Assoc

/-!
# The scoped store

Stored values are kept in partitions: one for each run, one for each session,
and a single one for the process.  Clearing a value leaves a mark in its place,
so that a later read can tell a cleared value from one that was never there;
only releasing the whole partition forgets it.

Everything that changes a store is an `Edit`.  Reads change nothing.
-/

namespace TaintFlow

/-!
## Store scopes

How long a stored value lives: for one run, for one session, or for as long as
the store itself.
-/

/-- The lifetime of a stored value. -/
inductive Scope where
  | request | session | process
  deriving DecidableEq

namespace Scope

/-- The name of a scope. -/
def text : Scope → String
  | .request => "request"
  | .session => "session"
  | .process => "process"

instance : Enumeration Scope where
  all := [.request, .session, .process]
  name := text
  mem_all a := by cases a <;> decide
  name_injective a b := by cases a <;> cases b <;> simp [text]

end Scope

/-! ## Partitions -/

/-- A partition of a store. -/
structure Partition where
  scope : Scope
  id : String
  deriving DecidableEq

/-- What stands at a key: a value and the distance at which it was written, or the mark of a
value that was cleared. -/
inductive Slot where
  | live (value : Value) (writtenAt : Int)
  | cleared
  deriving DecidableEq

/-- Is there a value in the slot? -/
def Slot.isLive : Slot → Bool
  | live .. => true
  | cleared => false

/-- Values in partitions. -/
structure Store where
  partitions : Assoc Partition (Assoc String Slot) := []
  deriving DecidableEq

/-- The name of the process partition. -/
def processPartition : String := "process"

/-- The partition of a scope under an id.  The process has one partition, whatever the id; the
other scopes need an id that is not empty. -/
def Scope.partition (scope : Scope) (id : Option String) : Except Mishap Partition :=
  match scope, id with
  | .process, _ => .ok ⟨.process, processPartition⟩
  | scope, none => .error (.badValue s!"{scope.text} scope requires a scope_id")
  | scope, some id =>
    if id = "" then .error (.badValue s!"{scope.text} scope requires a scope_id")
    else .ok ⟨scope, id⟩

namespace Store

instance : Inhabited Store := ⟨{}⟩

/-- The slots of a partition. -/
def slots (s : Store) (p : Partition) : Assoc String Slot := (s.partitions.find? p).getD []

/-- The slot at a key. -/
def slot? (s : Store) (p : Partition) (key : String) : Option Slot := (s.slots p).find? key

/-- The number of live values in a partition. -/
def liveCount (s : Store) (p : Partition) : Nat := (s.slots p).countP fun (_, slot) => slot.isLive

/-- Write a value. -/
def write (s : Store) (p : Partition) (key : String) (value : Value) (writtenAt : Int) : Store :=
  ⟨s.partitions.put p ((s.slots p).put key (.live value writtenAt))⟩

/-- Is there a live value at the key? -/
def isLive (s : Store) (p : Partition) (key : String) : Bool :=
  (s.slot? p key).any Slot.isLive

/-- Clear a live value; anything else stays as it is. -/
def clear (s : Store) (p : Partition) (key : String) : Store :=
  if s.isLive p key then ⟨s.partitions.put p ((s.slots p).put key .cleared)⟩ else s

/-- Clear every value of a partition. -/
def clearAll (s : Store) (p : Partition) : Store :=
  if (s.slots p).isEmpty then s
  else ⟨s.partitions.put p ((s.slots p).map fun (key, _) => (key, .cleared))⟩

/-- Forget a partition. -/
def release (s : Store) (p : Partition) : Store := ⟨s.partitions.erase p⟩

/-- The texts of a list in sorted order. -/
def sortTexts (texts : List String) : List String :=
  texts.mergeSort fun a b => !decide (b < a)

/-- The keys of the live values in a partition, sorted. -/
def keys (s : Store) (p : Partition) : List String :=
  sortTexts ((s.slots p).filterMap fun (key, slot) => if slot.isLive then some key else none)

/-- The ids of the partitions of a scope, sorted. -/
def partitionIds (s : Store) (scope : Scope) : List String :=
  sortTexts (s.partitions.filterMap fun (p, _) => if p.scope = scope then some p.id else none)

/-- A change of a store. -/
inductive Edit where
  | put (p : Partition) (key : String) (value : Value) (writtenAt : Int)
  | clear (p : Partition) (key : String)
  | clearAll (p : Partition)
  | release (p : Partition)
  deriving DecidableEq

/-- Carry out a change. -/
def apply (s : Store) : Edit → Store
  | .put p key value writtenAt => s.write p key value writtenAt
  | .clear p key => s.clear p key
  | .clearAll p => s.clearAll p
  | .release p => s.release p

/-- Carry out several changes, one after the other. -/
def applyAll (s : Store) (edits : List Edit) : Store := edits.foldl apply s

theorem slots_write_self (s : Store) (p : Partition) (key : String) (value : Value) (at_ : Int) :
    (s.write p key value at_).slots p = (s.slots p).put key (.live value at_) := by
  simp [write, slots]

/-- A write is seen at its key. -/
@[simp] theorem slot?_write_self (s : Store) (p : Partition) (key : String) (value : Value)
    (at_ : Int) : (s.write p key value at_).slot? p key = some (.live value at_) := by
  simp [slot?, slots_write_self]

/-- A write is seen nowhere else. -/
theorem slot?_write_of_ne (s : Store) {p q : Partition} {key other : String}
    (h : q ≠ p ∨ other ≠ key) (value : Value) (at_ : Int) :
    (s.write p key value at_).slot? q other = s.slot? q other := by
  by_cases hq : q = p
  · subst hq
    have hk : other ≠ key := h.resolve_left (fun n => n rfl)
    simp [slot?, slots_write_self, Assoc.find?_put_of_ne hk]
  · simp [slot?, slots, write, Assoc.find?_put_of_ne hq]

/-- After a release nothing is found in the partition. -/
@[simp] theorem slot?_release_self (s : Store) (p : Partition) (key : String) :
    (s.release p).slot? p key = none := by
  simp [slot?, slots, release]

/-- A release leaves other partitions alone. -/
theorem slot?_release_of_ne (s : Store) {p q : Partition} (h : q ≠ p) (key : String) :
    (s.release p).slot? q key = s.slot? q key := by
  simp [slot?, slots, release, Assoc.find?_erase_of_ne h]

end Store

end TaintFlow
