/-! # Volumes of a pod

The volumes that a pod declares and the mounts that its containers ask for, as the API
server, a file or a URL gives them: nothing is checked.
-/
namespace KubeAir.Core

structure KeyToPath where
  key : String
  path : String
  mode : Option Int := none
deriving DecidableEq, Repr

/-- A container resource quantity exposed through the downward API. -/
structure ResourceFieldRef where
  containerName : Option String := none
  resource : String
  divisor : Option String := none
deriving DecidableEq, Repr

structure DownwardAPIVolumeFile where
  path : String
  fieldRef : Option String := none
  resourceFieldRef : Option ResourceFieldRef := none
  mode : Option Int := none
deriving DecidableEq, Repr

inductive ProjectedVolumeSource
  | serviceAccountToken (audience : Option String) (expirationSeconds : Option Nat) (path : String)
  | configMap (name : String) (items : List KeyToPath) (optional : Bool)
  | secret (name : String) (items : List KeyToPath) (optional : Bool)
  | downwardAPI (items : List DownwardAPIVolumeFile)

inductive VolumeSource
  | emptyDir (medium : Option String)
  | hostPath (path : String) (pathType : Option String)
  | configMap (name : String) (items : List KeyToPath) (optional : Bool) (defaultMode : Option Int)
  | secret (secretName : String) (items : List KeyToPath) (optional : Bool) (defaultMode : Option Int)
  | persistentVolumeClaim (claimName : String) (readOnly : Bool)
  | projected (sources : List ProjectedVolumeSource) (defaultMode : Option Int)
  | downwardAPI (items : List DownwardAPIVolumeFile) (defaultMode : Option Int)
  | nfs (server path : String) (readOnly : Bool)

structure VolumeSpec where
  name : String
  source : VolumeSource

structure VolumeMount where
  name : String
  mountPath : String
  subPath : Option String := none
  subPathExpr : Option String := none
  readOnly : Bool := false
deriving DecidableEq, Repr

end KubeAir.Core
