import AssemblyAtlas.Failure

/-!
# Cancellation

Signals by which running work is told to stop. Several handles may share a signal; once it is
raised, all of them see it, and it stays raised.
-/

namespace AssemblyAtlas

/-- A handle of a signal, by the number of the signal. -/
structure Handle where
  signal : Nat
deriving DecidableEq

/-- The signals that were made so far, each raised or not. -/
structure Signals where
  raised : List Bool
deriving DecidableEq

namespace Signals

/-- No signal. -/
def empty : Signals :=
  ⟨[]⟩

/-- Makes a further signal, which is not raised, and gives its first handle. -/
def create (signals : Signals) : Signals × Handle :=
  (⟨signals.raised ++ [false]⟩, ⟨signals.raised.length⟩)

/-- Raises the signal of a handle. -/
def cancel (signals : Signals) (handle : Handle) : Signals :=
  ⟨signals.raised.set handle.signal true⟩

/-- The signal of a handle is raised. -/
def isCancelled (signals : Signals) (handle : Handle) : Bool :=
  signals.raised.getD handle.signal false

/-- Stops work whose signal is raised. -/
def check (signals : Signals) (handle : Handle) : Except Failure Unit :=
  if signals.isCancelled handle then
    .error .cancelled
  else
    .ok ()

end Signals

end AssemblyAtlas
