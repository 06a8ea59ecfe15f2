/-
Locks that switch local interrupts off: `lock_irqsave(lock, flags)` stores whether
interrupts are on in `flags` and switches them off, `unlock_irqrestore(lock, flags)`
sets them to what `flags` has.

A section under a lock with flags of its own leaves the processor as it was
(`Cpu.unlockIrqrestore_lockIrqsave`). Two nested sections that share one variable
do not: the inner one stores that interrupts are off over what the outer one had
stored (`Cpu.shared_flags`).
-/

import Mathlib.Data.List.Basic

namespace XpNet

/-- A processor: whether local interrupts are enabled, and the locks it holds, the
last taken first. -/
structure Cpu (κ : Type) where
  irqsEnabled : Bool
  held : List κ
  deriving DecidableEq

namespace Cpu

variable {κ : Type} [DecidableEq κ]

/-- Taking a lock that leaves interrupts alone. -/
def lock (cpu : Cpu κ) (l : κ) : Cpu κ := { cpu with held := l :: cpu.held }

/-- Releasing such a lock. -/
def unlock (cpu : Cpu κ) (l : κ) : Cpu κ := { cpu with held := cpu.held.erase l }

/-- `lock_irqsave(l, flags)`, with what it stores in `flags`. -/
def lockIrqsave (cpu : Cpu κ) (l : κ) : Cpu κ × Bool :=
  (⟨false, l :: cpu.held⟩, cpu.irqsEnabled)

/-- `unlock_irqrestore(l, flags)`. -/
def unlockIrqrestore (cpu : Cpu κ) (l : κ) (flags : Bool) : Cpu κ :=
  ⟨flags, cpu.held.erase l⟩

@[simp] theorem unlock_lock (cpu : Cpu κ) (l : κ) : (cpu.lock l).unlock l = cpu := by
  simp [lock, unlock]

@[simp] theorem unlockIrqrestore_lockIrqsave (cpu : Cpu κ) (l : κ) :
    (cpu.lockIrqsave l).1.unlockIrqrestore l (cpu.lockIrqsave l).2 = cpu := by
  simp [lockIrqsave, unlockIrqrestore]

/-- After two nested sections that store into one variable interrupts are off. -/
theorem shared_flags (cpu : Cpu κ) (l l' : κ) :
    (((cpu.lockIrqsave l).1.lockIrqsave l').1.unlockIrqrestore l'
      ((cpu.lockIrqsave l).1.lockIrqsave l').2).unlockIrqrestore l
        ((cpu.lockIrqsave l).1.lockIrqsave l').2 = { cpu with irqsEnabled := false } := by
  simp [lockIrqsave, unlockIrqrestore]

end Cpu

end XpNet
