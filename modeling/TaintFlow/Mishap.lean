/-!
# Mishaps

What goes wrong inside an operator, a source or a sink is not one of the
library's own errors: it has the name of some kind of error and a text, and the
library only passes both on.
-/

namespace TaintFlow

/-- An error of any kind: the name of its kind and its text. -/
structure Mishap where
  kind : String
  text : String
  deriving DecidableEq

namespace Mishap

/-- A value that is out of place. -/
def badValue (text : String) : Mishap := ⟨"ValueError", text⟩

/-- A value of the wrong type. -/
def badType (text : String) : Mishap := ⟨"TypeError", text⟩

/-- A key that is not there; the text shows the key. -/
def noKey (shown : String) : Mishap := ⟨"KeyError", shown⟩

/-- A position past the end. -/
def noIndex (text : String) : Mishap := ⟨"IndexError", text⟩

/-- A field that is not there. -/
def noAttribute (text : String) : Mishap := ⟨"AttributeError", text⟩

/-- A number that does not fit. -/
def tooLarge (text : String) : Mishap := ⟨"OverflowError", text⟩

/-- Room that ran out. -/
def noMemory : Mishap := ⟨"MemoryError", ""⟩

/-- Something that is nested deeper than anybody can follow. -/
def overDeep (doing : String) : Mishap :=
  ⟨"RecursionError", "maximum recursion depth exceeded" ++ doing⟩

/-- Is this the mishap of something that is nested too deep? -/
def isOverDeep (m : Mishap) : Bool := m.kind == "RecursionError"

/-- Time that ran out. -/
def timedOut (text : String) : Mishap := ⟨"TimeoutError", text⟩

/-- Is this the mishap of time that ran out? -/
def isTimeout (m : Mishap) : Bool := m.kind == "TimeoutError"

/-- Is this the sign that a row of values has come to its end?  It means something to those who
go through the row only, and reaches others as a mishap of running on. -/
def isExhaustion (m : Mishap) : Bool := m.kind == "StopIteration"

/-- A mishap as it comes out of a turn of the event loop. -/
def outOfTurn (m : Mishap) : Mishap :=
  if m.isExhaustion then ⟨"RuntimeError", "coroutine raised StopIteration"⟩ else m

/-- A mishap as it comes out of a thread. -/
def outOfThread (m : Mishap) : Mishap :=
  if m.isExhaustion then
    ⟨"RuntimeError", "StopIteration interacts badly with generators and cannot be raised " ++
      "into a Future"⟩
  else m

end Mishap

end TaintFlow
