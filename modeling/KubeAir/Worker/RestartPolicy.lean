import KubeAir.Core.Lifecycle

/-! # Restart decisions of the sync loop

The sync loop decides by the policy of the container, which overrides that of the pod.
-/
namespace KubeAir.Worker
open Core

def containerRestartPolicy (container : ContainerSpec) (pod : RestartPolicy) : RestartPolicy :=
  container.restartPolicy.getD pod

def isSidecarInitContainer (container : ContainerSpec) : Bool :=
  container.restartPolicy = some .always

/-- The branch the app container loop takes for a container that exited. -/
def restartsAfter (container : ContainerSpec) (pod : RestartPolicy) (exitCode : ℤ) : Bool :=
  match containerRestartPolicy container pod with
  | .never => false
  | .onFailure => exitCode != 0
  | .always => true

/-- The sync loop is done with a container in this state. -/
def finished (container : ContainerSpec) (pod : RestartPolicy) : ContainerState → Bool
  | .terminated code .. => !restartsAfter container pod code
  | _ => false

end KubeAir.Worker
