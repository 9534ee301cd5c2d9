import FlexGate.Limit.Breach

/-!
The limits that a running script is watched under. A sample breaches a limit when it is above it;
memory is judged before the processor.
-/

set_option autoImplicit false
set_option relaxedAutoImplicit false

namespace FlexGate

structure ResourceSample where
  memoryMb : Binary
  cpuPercent : Binary
  deriving DecidableEq, Repr

structure LimitPolicy where
  maxMemoryMb : Nat
  maxCpuPercent : Option Binary
  deriving DecidableEq, Repr

namespace LimitPolicy

def breachesMemory (p : LimitPolicy) (s : ResourceSample) : Bool :=
  (Binary.ofNat .double p.maxMemoryMb).lt s.memoryMb

def cpuBreach? (p : LimitPolicy) (s : ResourceSample) : Option Breach := do
  let limit ← p.maxCpuPercent
  if limit.lt s.cpuPercent then some (.cpu s.cpuPercent limit) else none

def check (p : LimitPolicy) (s : ResourceSample) : Option Breach :=
  if p.breachesMemory s then some (.memory s.memoryMb p.maxMemoryMb) else p.cpuBreach? s

theorem check_of_breachesMemory {p : LimitPolicy} {s : ResourceSample}
    (h : p.breachesMemory s = true) : p.check s = some (.memory s.memoryMb p.maxMemoryMb) := by
  simp [check, h]

theorem check_of_not_breachesMemory {p : LimitPolicy} {s : ResourceSample}
    (h : p.breachesMemory s = false) : p.check s = p.cpuBreach? s := by
  simp [check, h]

end LimitPolicy

end FlexGate
