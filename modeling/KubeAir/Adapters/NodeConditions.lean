import KubeAir.Adapters.Pressure

/-! # Conditions of the node

The conditions in the status of the node, and how the pressure on the node is written into them.
-/
namespace KubeAir.Adapters
open Core

inductive NodeConditionType
  | ready
  | memoryPressure
  | diskPressure
  | pidPressure
  | networkUnavailable
deriving DecidableEq

inductive NodeConditionStatus
  | true
  | false
  | unknown
deriving DecidableEq

structure NodeCondition where
  conditionType : NodeConditionType
  status : NodeConditionStatus
  lastHeartbeatTime : DateTime
  lastTransitionTime : DateTime
  reason : String
  message : String
deriving DecidableEq

structure NodeStatus where
  conditions : List NodeCondition := []

namespace NodeStatus

def replaceCondition (condition : NodeCondition) : List NodeCondition → List NodeCondition
  | [] => [condition]
  | c :: rest =>
    if c.conditionType = condition.conditionType then condition :: rest
    else c :: replaceCondition condition rest

/-- Updating the first condition of a type, or adding one. -/
def setCondition (status : NodeStatus) (condition : NodeCondition) : NodeStatus where
  conditions := replaceCondition condition status.conditions

end NodeStatus

def memoryCondition (pressure : Bool) (now : DateTime) : NodeCondition where
  conditionType := .memoryPressure
  status := if pressure then .true else .false
  lastHeartbeatTime := now
  lastTransitionTime := now
  reason := if pressure then "KubeletHasInsufficientMemory" else "KubeletHasSufficientMemory"
  message :=
    if pressure then "kubelet has insufficient memory available" else "kubelet has sufficient memory available"

def diskCondition (pressure : Bool) (now : DateTime) : NodeCondition where
  conditionType := .diskPressure
  status := if pressure then .true else .false
  lastHeartbeatTime := now
  lastTransitionTime := now
  reason := if pressure then "KubeletHasDiskPressure" else "KubeletHasNoDiskPressure"
  message := if pressure then "kubelet has disk pressure" else "kubelet has no disk pressure"

def pidCondition (pressure : Bool) (now : DateTime) : NodeCondition where
  conditionType := .pidPressure
  status := if pressure then .true else .false
  lastHeartbeatTime := now
  lastTransitionTime := now
  reason := if pressure then "KubeletHasInsufficientPID" else "KubeletHasSufficientPID"
  message := if pressure then "kubelet has insufficient PID available" else "kubelet has sufficient PID available"

/-- `apply_pressure_conditions`. -/
def applyPressureConditions (status : NodeStatus) (pressure : Pressure.PressureConditions) (now : DateTime) :
    NodeStatus :=
  ((status.setCondition (memoryCondition pressure.memoryPressure now)).setCondition
    (diskCondition pressure.diskPressure now)).setCondition (pidCondition pressure.pidPressure now)

/-! ## What is found afterwards -/

namespace NodeStatus

def condition (status : NodeStatus) (t : NodeConditionType) : Option NodeCondition :=
  status.conditions.find? (fun c => c.conditionType = t)

theorem condition_setCondition_self (status : NodeStatus) (c : NodeCondition) :
    (status.setCondition c).condition c.conditionType = some c := by
  unfold condition setCondition
  dsimp only
  induction status.conditions with
  | nil => exact List.find?_cons_of_pos (decide_eq_true rfl)
  | cons d conditions ih =>
    unfold replaceCondition
    by_cases hd : d.conditionType = c.conditionType
    · rw [if_pos hd]
      exact List.find?_cons_of_pos (decide_eq_true rfl)
    · rw [if_neg hd,List.find?_cons_of_neg (by simpa using hd)]
      exact ih

theorem condition_setCondition_ne (status : NodeStatus) {c : NodeCondition} {t : NodeConditionType}
    (h : t ≠ c.conditionType) : (status.setCondition c).condition t = status.condition t := by
  unfold condition setCondition
  dsimp only
  induction status.conditions with
  | nil => exact List.find?_cons_of_neg (by simpa using h.symm)
  | cons d conditions ih =>
    unfold replaceCondition
    by_cases hd : d.conditionType = c.conditionType
    · rw [if_pos hd,List.find?_cons_of_neg (by simpa using h.symm),
        List.find?_cons_of_neg (by rw [hd]; simpa using h.symm)]
    · rw [if_neg hd,List.find?_cons,List.find?_cons,ih]

end NodeStatus

variable {status : NodeStatus} {pressure : Pressure.PressureConditions} {now : DateTime}

theorem condition_applyPressure (t : NodeConditionType) :
    (applyPressureConditions status pressure now).condition t =
      match t with
      | .memoryPressure => some (memoryCondition pressure.memoryPressure now)
      | .diskPressure => some (diskCondition pressure.diskPressure now)
      | .pidPressure => some (pidCondition pressure.pidPressure now)
      | t => status.condition t := by
  unfold applyPressureConditions
  cases t with
  | pidPressure => exact NodeStatus.condition_setCondition_self _ _
  | diskPressure =>
    rw [NodeStatus.condition_setCondition_ne _ NodeConditionType.noConfusion]
    exact NodeStatus.condition_setCondition_self _ _
  | memoryPressure =>
    rw [NodeStatus.condition_setCondition_ne _ NodeConditionType.noConfusion,NodeStatus.condition_setCondition_ne _ NodeConditionType.noConfusion]
    exact NodeStatus.condition_setCondition_self _ _
  | ready =>
    rw [NodeStatus.condition_setCondition_ne _ NodeConditionType.noConfusion,NodeStatus.condition_setCondition_ne _ NodeConditionType.noConfusion,
      NodeStatus.condition_setCondition_ne _ NodeConditionType.noConfusion]
  | networkUnavailable =>
    rw [NodeStatus.condition_setCondition_ne _ NodeConditionType.noConfusion,NodeStatus.condition_setCondition_ne _ NodeConditionType.noConfusion,
      NodeStatus.condition_setCondition_ne _ NodeConditionType.noConfusion]

end KubeAir.Adapters
