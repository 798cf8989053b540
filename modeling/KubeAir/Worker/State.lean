import KubeAir.Core.Lifecycle
import Mathlib.Data.Finset.Basic

/-! # Per-pod runtime state

What the worker remembers about a pod between two sync passes. The maps are keyed
by container name, except that the pull back-off is keyed by image.
-/
namespace KubeAir.Worker
open Core

/-- Result of a single pod sync attempt. -/
inductive PodSyncResult
  | synced
  | needsRetry (reason : String)
  | failed (reason : String)
  | terminated
deriving DecidableEq, Repr

structure PodRuntimeState where
  sandboxId : Option String := none
  sandboxIp : Option String := none
  containerIds : HashMap String String := ∅
  restartCounts : HashMap String ℕ := ∅
  probeRegistered : HashMap String String := ∅
  startupProbeRegistered : HashMap String String := ∅
  readinessProbeRegistered : HashMap String String := ∅
  containerConfigErrors : HashMap String String := ∅
  recentlyStarted : HashMap String Instant := ∅
  crashLoopBackoff : Finset String := ∅
  lastTerminatedStates : HashMap String ContainerState := ∅
  imagePullBackoff : HashMap String ℕ := ∅
  startFailureBackoff : HashMap String ℕ := ∅
  appliedResources : HashMap String (ℤ × ℤ × ℤ) := ∅

end KubeAir.Worker
