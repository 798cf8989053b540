import KubeAir.Core.Pod

/-! # Quality of service

The class of a pod follows from the requests and limits of its containers.
-/
namespace KubeAir.Core

inductive QosClass
  | guaranteed
  | burstable
  | bestEffort
deriving DecidableEq, Repr

/-- Requests and limits are both given for CPU and memory, and they agree. -/
def ResourceRequirements.guaranteed (r : ResourceRequirements) : Bool :=
  match r.requests.lookup "cpu",r.limits.lookup "cpu",r.requests.lookup "memory",r.limits.lookup "memory" with
  | some cr,some cl,some mr,some ml => cr == cl && mr == ml
  | _,_,_,_ => false

def computeQosClass (pod : PodSpec) : QosClass :=
  let allContainers := pod.containers ++ pod.initContainers
  if allContainers.isEmpty then .bestEffort
  else if !allContainers.any
      (fun c => !c.resources.requests.entries.isEmpty || !c.resources.limits.entries.isEmpty) then .bestEffort
  else if allContainers.all (·.resources.guaranteed) then .guaranteed
  else .burstable

end KubeAir.Core
