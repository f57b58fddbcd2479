/-!
# Interrupts

A long job looks at its interrupt between stages and stops when it finds it set.  The moment at
which somebody sets it is part of the value: `quietFor` counts the looks that still find it quiet.
So a statement about all interrupts is a statement about every moment of cancellation.
-/
namespace PolicyForge

structure Interrupt where
  /-- How many more looks find the interrupt quiet; none means all of them. -/
  quietFor : Option Nat
  deriving DecidableEq, Repr

namespace Interrupt

def quiet : Interrupt := ⟨none⟩

def set : Interrupt := ⟨some 0⟩

def isSet (i : Interrupt) : Bool := i.quietFor == some 0

/-- The interrupt after one more look at it. -/
def afterLook (i : Interrupt) : Interrupt := ⟨i.quietFor.map (· - 1)⟩

/-- The interrupt after waiting for something that never comes: it is set, if it ever will be. -/
def afterWait (i : Interrupt) : Interrupt := ⟨i.quietFor.map fun _ => 0⟩

theorem isSet_afterLook {i : Interrupt} (h : i.isSet = true) : i.afterLook = i := by
  rcases i with ⟨_ | n⟩
  · rfl
  · have : n = 0 := by simpa [isSet] using h
    subst this
    rfl

end Interrupt

def cancelledMessage : String := "Operation cancelled"

/-! ## Signals -/

/-- A value that one side gives and others wait for, and how often it has been given. -/
structure Signal where
  value : Bool
  given : Nat
  deriving DecidableEq, Repr

namespace Signal

def start : Signal := ⟨false, 0⟩

def give (s : Signal) (value : Bool) : Signal := ⟨value, s.given + 1⟩

/-- What a turn of waiting for a signal comes to. -/
inductive Turn where
  | over
  /-- There was none when a value had been given that often. -/
  | waiting (seen : Nat)
  deriving DecidableEq, Repr

/-- The first turn looks at the value at once. -/
def wait (s : Signal) : Turn := if s.value then .over else .waiting s.given

/-- A later turn looks at it only if one has been given meanwhile. -/
def resume (s : Signal) (seen : Nat) : Turn := if s.given == seen then .waiting seen else s.wait

end Signal

/-! ## Shared interrupts

Handles may be copied, and all copies of a handle share one signal.  `owners` says for every handle
which signal is its own; only a handle that is no copy comes with a new one. -/

structure Handles where
  owners : List Nat
  signals : List Signal
  owned : ∀ o ∈ owners, o < signals.length
  deriving Repr

namespace Handles

def empty : Handles := ⟨[], [], nofun⟩

/-- One more handle, with a signal of its own. -/
def create (h : Handles) : Handles where
  owners := h.owners ++ [h.signals.length]
  signals := h.signals ++ [.start]
  owned := by
    intro o ho
    rw [List.length_append, List.length_singleton]
    rcases List.mem_append.1 ho with ho | ho
    · exact Nat.lt_succ_of_lt (h.owned o ho)
    · rw [List.mem_singleton.1 ho]
      exact Nat.lt_succ_self _

/-- One more handle that shares the signal of handle `i`, if there is one. -/
def copy (h : Handles) (i : Nat) : Option Handles :=
  if hi : i < h.owners.length then
    some { h with
      owners := h.owners ++ [h.owners[i]]
      owned := by
        intro o ho
        rcases List.mem_append.1 ho with ho | ho
        · exact h.owned o ho
        · rw [List.mem_singleton.1 ho]
          exact h.owned _ (List.getElem_mem hi) }
  else none

def cancel (h : Handles) (i : Nat) : Option Handles :=
  if hi : i < h.owners.length then
    some { h with
      signals := h.signals.modify h.owners[i] (·.give true)
      owned := by
        intro o ho
        rw [List.length_modify]
        exact h.owned o ho }
  else none

def signal? (h : Handles) (i : Nat) : Option Signal := h.owners[i]?.bind fun o => h.signals[o]?

def isCancelled (h : Handles) (i : Nat) : Bool := (h.signal? i).any (·.value)

/-- A look that fails once the signal has been given. -/
def check (h : Handles) (i : Nat) : Except String Unit :=
  if h.isCancelled i then .error cancelledMessage else .ok ()

def wait (h : Handles) (i : Nat) : Option Signal.Turn := (h.signal? i).map Signal.wait

def resume (h : Handles) (i seen : Nat) : Option Signal.Turn := (h.signal? i).map (·.resume seen)

inductive Step where
  | create
  | copy (i : Nat)
  | cancel (i : Nat)
  deriving DecidableEq, Repr

def after (h : Handles) : Step → Option Handles
  | .create => some h.create
  | .copy i => h.copy i
  | .cancel i => h.cancel i

end Handles

end PolicyForge
