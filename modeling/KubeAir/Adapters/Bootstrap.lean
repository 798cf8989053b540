import KubeAir.Adapters.Checkpoint
import KubeAir.Streaming.HeaderBlock
import KubeAir.Transition.Crash

/-! # TLS bootstrap

A kubelet without a kubeconfig asks the API server to sign a certificate for the node. The certificate
and its key, and then the kubeconfig that names them, are written beside their files and moved there.
-/
namespace KubeAir.Adapters.Bootstrap
open Transition
open Streaming.HeaderBlock (asBytes fromUtf8 fromUtf8_eq_some)

structure FilePath where
  dir : String
  name : String
deriving DecidableEq, Repr

def FilePath.withExtension (path : FilePath) (ext : String) : FilePath := ⟨path.dir,Checkpoint.withExtension path.name ext⟩

def FilePath.display (path : FilePath) : String := path.dir ++ "/" ++ path.name

structure File where
  content : String
  mode : ℕ
deriving DecidableEq, Repr

inductive BootstrapError
  | auth (msg : String)
  | tls (msg : String)
  | timeout (msg : String)
  | io (msg : String)
deriving DecidableEq, Repr

structure NamedCluster (Cluster : Type) where
  name : String
  cluster : Cluster

structure NamedAuthInfo where
  name : String
  clientCertificate : Option String
  clientKey : Option String

structure NamedContext where
  name : String
  cluster : String
  user : String

structure Kubeconfig (Cluster : Type) where
  clusters : List (NamedCluster Cluster) := []
  authInfos : List NamedAuthInfo := []
  contexts : List NamedContext := []
  currentContext : Option String := none

/-- The libraries for keys, requests and YAML, and what is said of a text that is not UTF-8. -/
structure BootstrapTools where
  Cluster : Type
  Key : Type
  Request : Type
  serializePem : Key → String
  serializeRequest : (commonName organizationName : String) → Key → Except String Request
  requestPem : Request → Except String String
  toYaml : Kubeconfig Cluster → Except String String
  utf8Error : List UInt8 → String

structure CertificateSigningRequest where
  name : String
  request : List UInt8
  signerName : String
  usages : List String
deriving DecidableEq

structure CsrCondition where
  type : String
  status : String
  message : Option String := none

structure CsrStatus where
  certificate : Option (List UInt8) := none
  conditions : Option (List CsrCondition) := none

/-- What the kubelet is started with. The kubeconfig is a file, and none of those of the certificate. -/
structure BootstrapConfig where
  tools : BootstrapTools
  kubeconfigPath : FilePath
  bootstrapPath : Option FilePath
  nodeName : String
  certDir : String
  plain : '/' ∉ kubeconfigPath.name.toList ∧ kubeconfigPath.name ≠ ".."
  apart : kubeconfigPath ≠ ⟨certDir,"kubelet-client-current.pem"⟩ ∧ kubeconfigPath ≠ ⟨certDir,"kubelet-client-current.pem.tmp"⟩

/-! ## The calls -/

inductive BootOp (tools : BootstrapTools)
  | pathExists (path : FilePath)
  | readBootstrap
  | buildConfig
  | createClient
  | generateKey
  | newUuid
  | createCsr (csr : CertificateSigningRequest)
  | getCsr (name : String)
  /-- the time since the last look at the clock, without the sleep -/
  | elapsed
  | sleep
  | createDirAll (dir : String)
  | writeFile (path : FilePath) (content : String)
  | setPermissions (path : FilePath) (mode : ℕ)
  | rename (source target : FilePath)

def BootAnswer {tools : BootstrapTools} : BootOp tools → Type
  | .pathExists _ => Bool
  | .readBootstrap => Except String (Kubeconfig tools.Cluster)
  | .buildConfig => Except String Unit
  | .createClient => Except String Unit
  | .generateKey => Except String tools.Key
  | .newUuid => String
  | .createCsr _ => Except String Unit
  | .getCsr _ => Except String (Option CsrStatus)
  | .elapsed => ℕ
  | .sleep => Unit
  | .createDirAll _ => Except String Unit
  | .writeFile _ _ => Except String Unit
  | .setPermissions _ _ => Except String Unit
  | .rename _ _ => Except String Unit

abbrev BootM (tools : BootstrapTools) := Program (BootOp tools) BootAnswer

/-- Calls up to the first one that fails. -/
abbrev Boot (tools : BootstrapTools) := Routine (BootOp tools) BootAnswer Unit BootstrapError

section Calls
variable {tools : BootstrapTools} {α ε : Type}

def ask (op : BootOp tools) : BootM tools (BootAnswer op) := Program.request op

def call (p : BootM tools α) : Boot tools α := fun _ => do
  let a ← p
  return (.ok a,())

def fromExcept (wrap : ε → BootstrapError) : Except ε α → Boot tools α
  | .ok a => pure a
  | .error e => Routine.exit (wrap e)

def callOrFail (wrap : ε → BootstrapError) (p : BootM tools (Except ε α)) : Boot tools α := do
  let r ← call p
  fromExcept wrap r

def pathExists (path : FilePath) : BootM tools Bool := ask (.pathExists path)

def readBootstrap : BootM tools (Except String (Kubeconfig tools.Cluster)) := ask .readBootstrap

def buildConfig : BootM tools (Except String Unit) := ask .buildConfig

def createClient : BootM tools (Except String Unit) := ask .createClient

def generateKey : BootM tools (Except String tools.Key) := ask .generateKey

def newUuid : BootM tools String := ask .newUuid

def createCsr (csr : CertificateSigningRequest) : BootM tools (Except String Unit) := ask (.createCsr csr)

def getCsr (name : String) : BootM tools (Except String (Option CsrStatus)) := ask (.getCsr name)

def elapsed : BootM tools ℕ := ask .elapsed

def sleep : BootM tools Unit := ask .sleep

def createDirAll (dir : String) : BootM tools (Except String Unit) := ask (.createDirAll dir)

def writeFile (path : FilePath) (content : String) : BootM tools (Except String Unit) := ask (.writeFile path content)

def setPermissions (path : FilePath) (mode : ℕ) : BootM tools (Except String Unit) := ask (.setPermissions path mode)

def rename (source target : FilePath) : BootM tools (Except String Unit) := ask (.rename source target)

end Calls

/-! ## The exchange -/

def signerName : String := "kubernetes.io/kube-apiserver-client-kubelet"

/-- `CSR_APPROVAL_TIMEOUT` and `CSR_POLL_INTERVAL`, in milliseconds. -/
def csrApprovalTimeout : ℕ := 60000

def csrPollInterval : ℕ := 2000

def sanitizeForName (nodeName : String) : String :=
  String.ofList (nodeName.toList.map fun c => (if c.isAlphanum ∨ c = '-' ∨ c = '.' then c else '-').toLower)

def refusal (csrName : String) (cond : CsrCondition) : Option BootstrapError :=
  if cond.type = "Denied" ∧ cond.status = "True" then
    some (.auth ("CertificateSigningRequest " ++ csrName ++ " was denied: " ++ cond.message.getD ""))
  else if cond.type = "Failed" ∧ cond.status = "True" then
    some (.auth ("CertificateSigningRequest " ++ csrName ++ " signing failed: " ++ cond.message.getD ""))
  else none

def timedOut (csrName : String) : BootstrapError :=
  .timeout ("timed out after " ++ toString (csrApprovalTimeout / 1000) ++ "s waiting for CertificateSigningRequest " ++ csrName ++
    " to be approved")

/-- What the status of a request comes to, if it is final. -/
def verdict (tools : BootstrapTools) (csrName : String) (status : CsrStatus) : Option (Except BootstrapError String) :=
  match status.certificate with
  | some cert =>
    match fromUtf8 cert with
    | some pem => some (.ok pem)
    | none => some (.error (.tls ("issued certificate is not valid UTF-8: " ++ tools.utf8Error cert)))
  | none => ((status.conditions.getD []).findSome? (refusal csrName)).map .error

/-- What an answer comes to; errors and requests without a status are waited for. -/
def answerVerdict (tools : BootstrapTools) (csrName : String) : Except String (Option CsrStatus) → Option (Except BootstrapError String)
  | .ok (some status) => verdict tools csrName status
  | _ => none

/-- The loop, with the time that is left until the deadline. -/
def pollForIssuedCertificate {tools : BootstrapTools} (csrName : String) (remaining : ℕ) :
    BootM tools (Except BootstrapError String) := do
  let answer ← getCsr csrName
  match answerVerdict tools csrName answer with
  | some result => pure result
  | none =>
    let passed ← elapsed
    if _hleft : remaining ≤ passed then pure (.error (timedOut csrName))
    else
      sleep
      pollForIssuedCertificate csrName (remaining - passed - csrPollInterval)
termination_by remaining
decreasing_by
  have hinterval : 0 < csrPollInterval := by decide
  omega

namespace BootstrapConfig
variable (b : BootstrapConfig)

def clientCertPath : FilePath := ⟨b.certDir,"kubelet-client-current.pem"⟩

def clientCertTmp : FilePath := b.clientCertPath.withExtension "pem.tmp"

def kubeconfigTmp : FilePath := b.kubeconfigPath.withExtension "conf.tmp"

def userName : String := "system:node:" ++ b.nodeName

def csrName (uuid : String) : String := "kube-air-" ++ sanitizeForName b.nodeName ++ "-" ++ uuid

def csrObject (uuid csrPem : String) : CertificateSigningRequest where
  name := b.csrName uuid
  request := asBytes csrPem
  signerName := signerName
  usages := ["digital signature","key encipherment","client auth"]

def buildKubeconfig (bootstrap : Kubeconfig b.tools.Cluster) : Except BootstrapError (Kubeconfig b.tools.Cluster) :=
  match bootstrap.clusters with
  | [] => .error (.auth "bootstrap kubeconfig has no clusters")
  | cluster :: _ => .ok {
      clusters := [cluster]
      authInfos := [⟨b.userName,some b.clientCertPath.display,some b.clientCertPath.display⟩]
      contexts := [⟨"default-context",cluster.name,b.userName⟩]
      currentContext := some "default-context" }

/-- A file is written beside its place, closed to others and moved there. -/
def install (tmp path : FilePath) (content : String) : Boot b.tools Unit := do
  callOrFail .io (writeFile tmp content)
  callOrFail .io (setPermissions tmp 0o600)
  callOrFail .io (rename tmp path)

def writeKubeconfig (kubeconfig : Kubeconfig b.tools.Cluster) : Boot b.tools Unit := do
  callOrFail .io (createDirAll b.kubeconfigPath.dir)
  let yaml ← fromExcept (fun e => .auth ("serialize kubeconfig: " ++ e)) (b.tools.toYaml kubeconfig)
  b.install b.kubeconfigTmp b.kubeconfigPath yaml

def runBootstrap : Boot b.tools Unit := do
  let bootstrapKubeconfig ← callOrFail (fun e => .auth ("read bootstrap kubeconfig: " ++ e)) readBootstrap
  callOrFail (fun e => .auth ("build bootstrap client config: " ++ e)) buildConfig
  callOrFail (fun e => .auth ("create bootstrap client: " ++ e)) createClient
  let key ← callOrFail (fun e => .tls ("generate bootstrap key pair: " ++ e)) generateKey
  let csr ← fromExcept (fun e => .tls ("serialize CSR: " ++ e)) (b.tools.serializeRequest b.userName "system:nodes" key)
  let csrPem ← fromExcept (fun e => .tls ("encode CSR as PEM: " ++ e)) (b.tools.requestPem csr)
  let uuid ← call newUuid
  callOrFail (fun e => .auth ("submit CertificateSigningRequest: " ++ e)) (createCsr (b.csrObject uuid csrPem))
  let issuedCertPem ← callOrFail id (pollForIssuedCertificate (b.csrName uuid) csrApprovalTimeout)
  callOrFail .io (createDirAll b.certDir)
  b.install b.clientCertTmp b.clientCertPath (issuedCertPem ++ "\n" ++ b.tools.serializePem key)
  let kubeconfig ← fromExcept id (b.buildKubeconfig bootstrapKubeconfig)
  b.writeKubeconfig kubeconfig

/-- `ensure_kubeconfig`; errors are only logged. -/
def ensureKubeconfig : BootM b.tools Unit := do
  if ← pathExists b.kubeconfigPath then pure ()
  else match b.bootstrapPath with
    | none => pure ()
    | some bootstrapPath =>
      if ← pathExists bootstrapPath then do
        let _ ← b.runBootstrap ()
      else pure ()

end BootstrapConfig

/-! ## What is on the disk -/

/-- The disk, and what the API server has been asked and has answered. -/
structure BootWorld (tools : BootstrapTools) where
  files : FilePath → Option File
  read : List (Kubeconfig tools.Cluster) := []
  submitted : List CertificateSigningRequest := []
  /-- certificates, with the request that was submitted last when they came -/
  issued : List (CertificateSigningRequest × List UInt8) := []
  /-- files that are there and were said not to be -/
  denied : List FilePath := []

namespace BootWorld
variable {tools : BootstrapTools} (w : BootWorld tools)

def put (path : FilePath) (f : Option File) : BootWorld tools := { w with files := Function.update w.files path f }

def issuedBy : Except String (Option CsrStatus) → List (CertificateSigningRequest × List UInt8)
  | .ok (some status) => (do
      let csr ← w.submitted.getLast?
      let cert ← status.certificate
      return (csr,cert)).toList
  | _ => []

/-- The files that an answer of `exists` denies, as it does when their metadata cannot be read. -/
def deniedBy (path : FilePath) (found : Bool) : List FilePath :=
  if found = false ∧ w.files path ≠ none then [path] else []

/-- What a call does. A write that fails, or is cut off, leaves anything at all in its own file. -/
def Answers (op : BootOp tools) (answer : BootAnswer op) (w' : BootWorld tools) : Prop :=
  match op, answer with
  | .pathExists path, (found : Bool) => w' = { w with denied := w.denied ++ w.deniedBy path found }
  | .readBootstrap, (r : Except String (Kubeconfig tools.Cluster)) => w' = { w with read := w.read ++ r.toOption.toList }
  | .createCsr csr, (r : Except String Unit) => w' = { w with submitted := w.submitted ++ (r.toOption.map fun _ => csr).toList }
  | .getCsr _, (r : Except String (Option CsrStatus)) => w' = { w with issued := w.issued ++ w.issuedBy r }
  | .writeFile path content, (r : Except String Unit) =>
    match r with
    | .ok _ => ∃ mode, w' = w.put path (some ⟨content,mode⟩)
    | .error _ => ∃ f, w' = w.put path f
  | .setPermissions path mode, (r : Except String Unit) =>
    match r with
    | .ok _ => ∃ f, w.files path = some f ∧ w' = w.put path (some ⟨f.content,mode⟩)
    | .error _ => w' = w
  | .rename source target, (r : Except String Unit) =>
    match r with
    | .ok _ => ∃ f, w.files source = some f ∧ w' = (w.put source none).put target (some f)
    | .error _ => w' = w
  | _, _ => w' = w

end BootWorld

namespace BootstrapConfig
section Law
variable (b : BootstrapConfig) (w₀ w : BootWorld b.tools)

/-- The request is for this node, with this key. -/
def Requests (key : b.tools.Key) (csr : CertificateSigningRequest) : Prop :=
  ∃ uuid r pem, b.tools.serializeRequest b.userName "system:nodes" key = .ok r ∧ b.tools.requestPem r = .ok pem ∧
    csr = b.csrObject uuid pem

/-- A certificate that was issued for the node, with the key that it was requested with. -/
def Certified (content : String) : Prop :=
  ∃ key csr cert, b.Requests key csr ∧ (csr,asBytes cert) ∈ w.issued ∧ content = cert ++ "\n" ++ b.tools.serializePem key

/-- The kubeconfig of the node for the cluster of a bootstrap kubeconfig. -/
def Configured (content : String) : Prop :=
  ∃ bootstrap ∈ w.read, ∃ kubeconfig, b.buildKubeconfig bootstrap = .ok kubeconfig ∧ b.tools.toYaml kubeconfig = .ok content

/-- The file is there, closed to others. -/
def Holds (path : FilePath) (P : String → Prop) : Prop := ∃ content, w.files path = some ⟨content,0o600⟩ ∧ P content

/-- No other file has changed. -/
def KeepsOthers : Prop := ∀ path, path ∉ [b.kubeconfigPath,b.kubeconfigTmp,b.clientCertPath,b.clientCertTmp] →
  w.files path = w₀.files path

/-- A complete kubeconfig beside a complete certificate. -/
structure Complete : Prop where
  kubeconfig : b.Holds w b.kubeconfigPath (b.Configured w)
  cert : b.Holds w b.clientCertPath (b.Certified w)

/-- How the world may differ from the one before the first start. The kubeconfig is the old one, or
both files are complete; the certificate is the old one or complete; and nothing has been done if there
was a kubeconfig that has not been denied. -/
structure Sound : Prop where
  kubeconfig : w.files b.kubeconfigPath = w₀.files b.kubeconfigPath ∨ b.Complete w
  cert : w.files b.clientCertPath = w₀.files b.clientCertPath ∨ b.Holds w b.clientCertPath (b.Certified w)
  others : b.KeepsOthers w₀ w
  untouched : w₀.files b.kubeconfigPath ≠ none → b.kubeconfigPath ∉ w.denied → w = { w₀ with denied := w.denied }

/-- There is no kubeconfig, or it has been denied. -/
def Missing : Prop := w.files b.kubeconfigPath = none ∨ b.kubeconfigPath ∈ w.denied

/-- The world during an attempt. -/
structure Working : Prop extends b.Sound w₀ w where
  begun : w₀.files b.kubeconfigPath = none ∨ b.kubeconfigPath ∈ w.denied
  missing : b.Missing w

/-- When a call may be made. -/
def Permitted : BootOp b.tools → Prop
  | .createCsr csr => b.Missing w ∧ ∃ key, b.Requests key csr
  | .getCsr name => ∃ csr, w.submitted.getLast? = some csr ∧ csr.name = name
  | .writeFile path _ => path = b.kubeconfigTmp ∨ path = b.clientCertTmp
  | .setPermissions path _ => path = b.kubeconfigTmp ∨ path = b.clientCertTmp
  | .rename source target => source = b.clientCertTmp ∧ target = b.clientCertPath ∨
      source = b.kubeconfigTmp ∧ target = b.kubeconfigPath
  | _ => True

def booting : Contract (BootOp b.tools) BootAnswer (BootWorld b.tools) where
  drift w w' := w' = w
  allowed w op := b.Sound w₀ w ∧ b.Permitted w op
  answers := BootWorld.Answers

/-- What is left behind: `R` after a success, and else at least a sound disk. -/
def Leaves {α : Type} (R : α → BootWorld b.tools → Prop) (r : Except BootstrapError α) (_ : Unit) (w : BootWorld b.tools) : Prop :=
  match r with
  | .ok a => R a w
  | .error _ => b.Sound w₀ w

end Law

/-! ## The places -/

section Places
variable {b : BootstrapConfig}

theorem clientCertTmp_eq : b.clientCertTmp = ⟨b.certDir,"kubelet-client-current.pem.tmp"⟩ := by
  have hname : Checkpoint.withExtension "kubelet-client-current.pem" "pem.tmp" = "kubelet-client-current.pem.tmp" := by
    decide +kernel
  rw [clientCertTmp,FilePath.withExtension,clientCertPath,hname]

theorem clientCertTmp_ne_clientCertPath : b.clientCertTmp ≠ b.clientCertPath := by
  have hname : "kubelet-client-current.pem.tmp" ≠ "kubelet-client-current.pem" := by decide
  rw [clientCertTmp_eq]
  exact fun heq => hname (congrArg FilePath.name heq)

theorem clientCertTmp_ne_kubeconfigPath : b.clientCertTmp ≠ b.kubeconfigPath := by
  rw [clientCertTmp_eq]
  exact b.apart.2.symm

theorem clientCertPath_ne_kubeconfigPath : b.clientCertPath ≠ b.kubeconfigPath := b.apart.1.symm

theorem kubeconfigTmp_ne_clientCertPath : b.kubeconfigTmp ≠ b.clientCertPath := by
  intro heq
  have hname : Checkpoint.withExtension b.kubeconfigPath.name "conf.tmp" = "kubelet-client-current.pem" :=
    congrArg FilePath.name heq
  have hlast := congrArg (fun name => name.toList.getLast?) hname
  rcases Checkpoint.withExtension_form b.kubeconfigPath.name (show "conf.tmp" ≠ "" by decide) with hup | ⟨stem,hstem⟩
  · rw [hup] at hname
    exact absurd hname (by decide)
  · simp [hstem] at hlast

/-- The temporary file of the file with its own name would have a longer one. -/
theorem kubeconfigTmp_ne_kubeconfigPath : b.kubeconfigTmp ≠ b.kubeconfigPath := by
  intro heq
  have hname : Checkpoint.withExtension b.kubeconfigPath.name "conf.tmp" = b.kubeconfigPath.name := congrArg FilePath.name heq
  rcases Checkpoint.withExtension_form b.kubeconfigPath.name (show "conf.tmp" ≠ "" by decide) with hup | ⟨stem,hstem⟩
  · exact b.plain.2 (hname.symm.trans hup)
  · have hsplit : b.kubeconfigPath.name = (stem ++ ".conf") ++ "." ++ "tmp" := by
      rw [← hname,hstem]
      simp only [String.append_assoc]
      rfl
    have hslash := b.plain.1
    have hagain := hname
    rw [hsplit] at hslash hagain
    rw [Checkpoint.withExtension_append (by simpa using hslash) (by decide) (by decide) (by simp) (by decide)] at hagain
    have hlength := congrArg (fun name => name.toList.length) hagain
    split_ifs at hlength
    · simp at hlength
    · simp at hlength

end Places

/-! ## Steps -/

section Steps
variable {b : BootstrapConfig} {w₀ w w' : BootWorld b.tools} {path tmp : FilePath} {f : Option File}

theorem put_same : (w.put path f).files path = f := by simp [BootWorld.put]

theorem put_other {q : FilePath} (h : q ≠ path) : (w.put path f).files q = w.files q := by
  simp [BootWorld.put,h]

theorem put_put {g : Option File} : (w.put path f).put path g = w.put path g := by simp [BootWorld.put]

theorem Certified.mono {content : String} (h : b.Certified w content) (hissued : w.issued ⊆ w'.issued) : b.Certified w' content := by
  obtain ⟨key,csr,cert,hrequest,hmem,rfl⟩ := h
  exact ⟨key,csr,cert,hrequest,hissued hmem,rfl⟩

theorem Complete.grow (h : b.Complete w) (hfiles : w'.files = w.files) (hissued : w.issued ⊆ w'.issued)
    (hread : w.read ⊆ w'.read) : b.Complete w' := by
  obtain ⟨⟨yaml,hyaml,bootstrap,hmem,hconfigured⟩,⟨pem,hpem,hcertified⟩⟩ := h
  exact ⟨⟨yaml,by rw [hfiles,hyaml],bootstrap,hread hmem,hconfigured⟩,⟨pem,by rw [hfiles,hpem],hcertified.mono hissued⟩⟩

/-- After a denial nothing is said of a world that is as it was. -/
theorem untouched_of_begun (h : w₀.files b.kubeconfigPath = none ∨ b.kubeconfigPath ∈ w.denied)
    (hpresent : w₀.files b.kubeconfigPath ≠ none) (hnot : b.kubeconfigPath ∉ w.denied) : w = { w₀ with denied := w.denied } :=
  absurd (h.resolve_left hpresent) hnot

theorem Working.grow (h : b.Working w₀ w) (hfiles : w'.files = w.files) (hissued : w.issued ⊆ w'.issued)
    (hread : w.read ⊆ w'.read) (hdenied : w'.denied = w.denied) : b.Working w₀ w' := by
  have hbegun : w₀.files b.kubeconfigPath = none ∨ b.kubeconfigPath ∈ w'.denied := by rw [hdenied]; exact h.begun
  refine ⟨⟨?_,?_,fun path hpath => by rw [hfiles,h.others path hpath],untouched_of_begun hbegun⟩,hbegun,?_⟩
  · exact h.kubeconfig.imp (by rw [hfiles]; exact id) (fun hc => hc.grow hfiles hissued hread)
  · rcases h.cert with hold | ⟨content,hfile,hcertified⟩
    · exact .inl (by rw [hfiles,hold])
    · exact .inr ⟨content,by rw [hfiles,hfile],hcertified.mono hissued⟩
  · unfold Missing
    rw [hfiles,hdenied]
    exact h.missing

theorem tmp_apart (h : tmp = b.kubeconfigTmp ∨ tmp = b.clientCertTmp) : tmp ≠ b.kubeconfigPath ∧ tmp ≠ b.clientCertPath ∧
    tmp ∈ [b.kubeconfigPath,b.kubeconfigTmp,b.clientCertPath,b.clientCertTmp] := by
  rcases h with rfl | rfl
  · exact ⟨kubeconfigTmp_ne_kubeconfigPath,kubeconfigTmp_ne_clientCertPath,by simp⟩
  · exact ⟨clientCertTmp_ne_kubeconfigPath,clientCertTmp_ne_clientCertPath,by simp⟩

theorem KeepsOthers.put (h : b.KeepsOthers w₀ w) (hpath : path ∈ [b.kubeconfigPath,b.kubeconfigTmp,b.clientCertPath,b.clientCertTmp]) :
    b.KeepsOthers w₀ (w.put path f) := by
  intro q hq
  have hne : q ≠ path := by
    rintro rfl
    exact hq hpath
  rw [put_other hne,h q hq]

theorem Complete.put (h : b.Complete w) (hconf : path ≠ b.kubeconfigPath) (hcert : path ≠ b.clientCertPath) :
    b.Complete (w.put path f) := by
  obtain ⟨⟨yaml,hyaml,hconfigured⟩,⟨pem,hpem,hcertified⟩⟩ := h
  exact ⟨⟨yaml,by rw [put_other hconf.symm,hyaml],hconfigured⟩,⟨pem,by rw [put_other hcert.symm,hpem],hcertified⟩⟩

/-- Whatever is written beside the two files. -/
theorem Working.beside (h : b.Working w₀ w) (htmp : tmp = b.kubeconfigTmp ∨ tmp = b.clientCertTmp) : b.Working w₀ (w.put tmp f) := by
  obtain ⟨hconf,hcert,hmem⟩ := tmp_apart htmp
  refine ⟨⟨?_,?_,h.others.put hmem,untouched_of_begun h.begun⟩,h.begun,?_⟩
  · exact h.kubeconfig.imp (by rw [put_other hconf.symm]; exact id) (fun hc => hc.put hconf hcert)
  · rcases h.cert with hold | ⟨content,hfile,hcertified⟩
    · exact .inl (by rw [put_other hcert.symm,hold])
    · exact .inr ⟨content,by rw [put_other hcert.symm,hfile],hcertified⟩
  · exact h.missing.imp_left (by rw [put_other hconf.symm]; exact id)

/-- The certificate is moved to its place. -/
theorem Working.installed {content : String} (h : b.Working w₀ w) (hcertified : b.Certified w content)
    (hw : w' = (w.put b.clientCertTmp none).put b.clientCertPath (some ⟨content,0o600⟩)) :
    b.Working w₀ w' ∧ b.Holds w' b.clientCertPath (b.Certified w') := by
  have hbeside : b.Working w₀ (w.put b.clientCertTmp none) := h.beside (.inr rfl)
  have hholds : b.Holds w' b.clientCertPath (b.Certified w') := ⟨content,by rw [hw,put_same],by rw [hw]; exact hcertified⟩
  have hkept : w'.files b.kubeconfigPath = (w.put b.clientCertTmp none).files b.kubeconfigPath := by
    rw [hw,put_other clientCertPath_ne_kubeconfigPath.symm]
  have hdenied : w'.denied = w.denied := by rw [hw]; rfl
  have hbegun : w₀.files b.kubeconfigPath = none ∨ b.kubeconfigPath ∈ w'.denied := by rw [hdenied]; exact h.begun
  refine ⟨⟨⟨?_,.inr hholds,?_,untouched_of_begun hbegun⟩,hbegun,?_⟩,hholds⟩
  · refine hbeside.kubeconfig.imp (by rw [hkept]; exact id) fun hc => ⟨?_,hholds⟩
    obtain ⟨yaml,hyaml,hconfigured⟩ := hc.kubeconfig
    exact ⟨yaml,by rw [hkept,hyaml],by rw [hw]; exact hconfigured⟩
  · rw [hw]
    exact hbeside.others.put (by simp)
  · unfold Missing
    rw [hkept,hdenied]
    exact hbeside.missing

/-- The kubeconfig is moved to its place, beside a certificate. -/
theorem Working.completed {content : String} (h : b.Working w₀ w) (hcert : b.Holds w b.clientCertPath (b.Certified w))
    (hconfigured : b.Configured w content) (hw : w' = (w.put b.kubeconfigTmp none).put b.kubeconfigPath (some ⟨content,0o600⟩)) :
    b.Sound w₀ w' := by
  have hbeside : b.Working w₀ (w.put b.kubeconfigTmp none) := h.beside (.inl rfl)
  have hholds : b.Holds w' b.clientCertPath (b.Certified w') := by
    obtain ⟨pem,hfile,hcertified⟩ := hcert
    refine ⟨pem,?_,by rw [hw]; exact hcertified⟩
    rw [hw,put_other clientCertPath_ne_kubeconfigPath,put_other kubeconfigTmp_ne_clientCertPath.symm,hfile]
  refine ⟨.inr ⟨⟨content,by rw [hw,put_same],by rw [hw]; exact hconfigured⟩,hholds⟩,.inr hholds,?_,?_⟩
  · rw [hw]
    exact hbeside.others.put (by simp)
  · refine untouched_of_begun ?_
    rw [hw]
    exact h.begun

end Steps

/-! ## Attempts -/

section Attempts
variable {b : BootstrapConfig} {w₀ w : BootWorld b.tools} {α β ε : Type} {bootstrap : Kubeconfig b.tools.Cluster}
  {key : b.tools.Key} {csr : CertificateSigningRequest}

theorem meets_ask {op : BootOp b.tools} {Q : BootAnswer op → BootWorld b.tools → Prop} :
    (ask op).Meets (b.booting w₀) Q w ↔ (b.Sound w₀ w ∧ b.Permitted w op) ∧ ∀ answer w', w.Answers op answer w' → Q answer w' := by
  constructor
  · exact fun h => h w rfl
  · rintro h w' rfl
    exact h

/-- A call that changes nothing. -/
theorem meets_quiet {op : BootOp b.tools} {Q : BootAnswer op → BootWorld b.tools → Prop} (hw : b.Sound w₀ w)
    (hpermitted : b.Permitted w op) (hquiet : ∀ answer w', w.Answers op answer w' → w' = w) (hQ : ∀ answer, Q answer w) :
    (ask op).Meets (b.booting w₀) Q w :=
  meets_ask.mpr ⟨⟨hw,hpermitted⟩,fun answer w' h => hquiet answer w' h ▸ hQ answer⟩

theorem meets_call {p : BootM b.tools α} {R : α → BootWorld b.tools → Prop} (h : p.Meets (b.booting w₀) R w) :
    (call p).Meets (b.booting w₀) (b.Leaves w₀ R) () w := by
  change (p >>= fun a => pure (Except.ok a,())).Meets (b.booting w₀) _ w
  rw [Program.meets_bind]
  exact h

theorem meets_andThen {m : Boot b.tools α} {f : α → Boot b.tools β} {R : α → BootWorld b.tools → Prop}
    {R' : β → BootWorld b.tools → Prop} (hm : m.Meets (b.booting w₀) (b.Leaves w₀ R) () w)
    (hf : ∀ a w, R a w → (f a).Meets (b.booting w₀) (b.Leaves w₀ R') () w) :
    (m >>= f).Meets (b.booting w₀) (b.Leaves w₀ R') () w := by
  rw [Routine.meets_bind]
  refine hm.mono ?_
  rintro r ⟨⟩ w hr
  cases r with
  | ok a => exact hf a w hr
  | error e => exact hr

theorem meets_fromExcept {wrap : ε → BootstrapError} {r : Except ε α} {R : α → BootWorld b.tools → Prop}
    (hok : ∀ a, r = .ok a → R a w) (herror : b.Sound w₀ w) :
    (fromExcept wrap r : Boot b.tools α).Meets (b.booting w₀) (b.Leaves w₀ R) () w := by
  cases r with
  | ok a => exact hok a rfl
  | error e => exact herror

theorem meets_callOrFail {wrap : ε → BootstrapError} {p : BootM b.tools (Except ε α)} {R : α → BootWorld b.tools → Prop}
    (h : p.Meets (b.booting w₀) (fun r w => b.Sound w₀ w ∧ ∀ a, r = .ok a → R a w) w) :
    (callOrFail wrap p).Meets (b.booting w₀) (b.Leaves w₀ R) () w :=
  meets_andThen (meets_call h) fun _ _ hr => meets_fromExcept hr.2 hr.1

/-- A file is written, closed and moved while there is no kubeconfig. -/
theorem meets_install {tmp path : FilePath} {content : String} (hw : b.Working w₀ w)
    (hplace : tmp = b.clientCertTmp ∧ path = b.clientCertPath ∨ tmp = b.kubeconfigTmp ∧ path = b.kubeconfigPath)
    (hsound : b.Sound w₀ ((w.put tmp none).put path (some ⟨content,0o600⟩))) : (b.install tmp path content).Meets (b.booting w₀)
      (b.Leaves w₀ fun _ w' => w' = (w.put tmp none).put path (some ⟨content,0o600⟩)) () w := by
  have htmp : tmp = b.kubeconfigTmp ∨ tmp = b.clientCertTmp := by
    rcases hplace with ⟨rfl,-⟩ | ⟨rfl,-⟩
    · exact .inr rfl
    · exact .inl rfl
  have hbeside : ∀ f, b.Sound w₀ (w.put tmp f) := fun f => (hw.beside htmp).toSound
  refine meets_andThen (R := fun _ w' => ∃ mode, w' = w.put tmp (some ⟨content,mode⟩)) (meets_callOrFail ?_) ?_
  · refine meets_ask.mpr ⟨⟨hw.toSound,htmp⟩,fun answer w' hanswer => ?_⟩
    cases answer with
    | ok _ =>
      obtain ⟨mode,rfl⟩ := hanswer
      exact ⟨hbeside _,fun _ _ => ⟨mode,rfl⟩⟩
    | error e =>
      obtain ⟨f,rfl⟩ := hanswer
      exact ⟨hbeside _,fun _ h => by cases h⟩
  · rintro - w₁ ⟨mode,rfl⟩
    refine meets_andThen (R := fun _ w' => w' = w.put tmp (some ⟨content,0o600⟩)) (meets_callOrFail ?_) ?_
    · refine meets_ask.mpr ⟨⟨hbeside _,htmp⟩,fun answer w' hanswer => ?_⟩
      cases answer with
      | ok _ =>
        obtain ⟨f,hf,rfl⟩ := hanswer
        obtain rfl := Option.some.inj (put_same.symm.trans hf)
        rw [put_put]
        exact ⟨hbeside _,fun _ _ => rfl⟩
      | error e =>
        obtain rfl := hanswer
        exact ⟨hbeside _,fun _ h => by cases h⟩
    · rintro - w₂ rfl
      refine meets_callOrFail (meets_ask.mpr ⟨⟨hbeside _,hplace⟩,fun answer w' hanswer => ?_⟩)
      cases answer with
      | ok _ =>
        obtain ⟨f,hf,rfl⟩ := hanswer
        obtain rfl := Option.some.inj (put_same.symm.trans hf)
        rw [put_put]
        exact ⟨hsound,fun _ _ => rfl⟩
      | error e =>
        obtain rfl := hanswer
        exact ⟨hbeside _,fun _ h => by cases h⟩

theorem certificate_of_verdict {csrName pem : String} {status : CsrStatus} (h : verdict b.tools csrName status = some (.ok pem)) :
    status.certificate = some (asBytes pem) := by
  simp only [verdict] at h
  split at h
  · next cert hcert =>
    split at h
    · next pem' hpem =>
      obtain rfl := Except.ok.inj (Option.some.inj h)
      rw [hcert,fromUtf8_eq_some.mp hpem]
    · cases Option.some.inj h
  · obtain ⟨e,-,he⟩ := Option.map_eq_some_iff.mp h
    cases he

/-- Waiting for the certificate, with the request that was submitted last. -/
structure Waiting (bootstrap : Kubeconfig b.tools.Cluster) (csr : CertificateSigningRequest) (w₀ w : BootWorld b.tools) : Prop where
  working : b.Working w₀ w
  read : bootstrap ∈ w.read
  submitted : w.submitted.getLast? = some csr

/-- The certificate that comes is the one that was issued for the request. -/
theorem meets_pollForIssuedCertificate (remaining : ℕ) (hw : Waiting bootstrap csr w₀ w) :
    (pollForIssuedCertificate csr.name remaining).Meets (b.booting w₀)
      (fun r w' => Waiting bootstrap csr w₀ w' ∧ ∀ pem, r = .ok pem → (csr,asBytes pem) ∈ w'.issued) w := by
  induction remaining using Nat.strong_induction_on generalizing w with
  | _ remaining ih =>
    rw [pollForIssuedCertificate,Program.meets_bind]
    refine meets_ask.mpr ⟨⟨hw.working.toSound,csr,hw.submitted,rfl⟩,?_⟩
    rintro answer w' rfl
    have hwaiting : Waiting bootstrap csr w₀ { w with issued := w.issued ++ w.issuedBy answer } :=
      ⟨hw.working.grow rfl (List.subset_append_left _ _) (List.Subset.refl _) rfl,hw.read,hw.submitted⟩
    split
    · next result hresult =>
      refine ⟨hwaiting,fun pem hpem => List.mem_append_right _ ?_⟩
      subst hpem
      match answer, hresult with
      | .ok (some status), hresult =>
        have hcert := certificate_of_verdict hresult
        simp [BootWorld.issuedBy,hw.submitted,hcert]
    · rw [Program.meets_bind]
      refine meets_quiet hwaiting.working.toSound trivial (fun _ _ h => h) fun passed => ?_
      split
      · exact ⟨hwaiting,fun _ h => by cases h⟩
      · next hleft =>
        rw [Program.meets_bind]
        refine meets_quiet hwaiting.working.toSound trivial (fun _ _ h => h) fun _ => ?_
        have hinterval : 0 < csrPollInterval := by decide
        exact ih _ (by omega) hwaiting

theorem meets_writeKubeconfig {kubeconfig : Kubeconfig b.tools.Cluster} (hw : b.Working w₀ w)
    (hcert : b.Holds w b.clientCertPath (b.Certified w)) (hread : bootstrap ∈ w.read)
    (hbuild : b.buildKubeconfig bootstrap = .ok kubeconfig) :
    (b.writeKubeconfig kubeconfig).Meets (b.booting w₀) (b.Leaves w₀ fun _ w' => b.Sound w₀ w') () w := by
  refine meets_andThen (R := fun _ w' => w' = w) (meets_callOrFail ?_) ?_
  · exact meets_quiet hw.toSound trivial (fun _ _ h => h) fun _ => ⟨hw.toSound,fun _ _ => rfl⟩
  · rintro - w₁ rfl
    refine meets_andThen (R := fun yaml w' => w' = w₁ ∧ b.tools.toYaml kubeconfig = .ok yaml)
      (meets_fromExcept (fun yaml hyaml => ⟨rfl,hyaml⟩) hw.toSound) ?_
    rintro yaml w₂ ⟨rfl,hyaml⟩
    have hdone : b.Sound w₀ ((w₂.put b.kubeconfigTmp none).put b.kubeconfigPath (some ⟨yaml,0o600⟩)) :=
      hw.completed hcert ⟨bootstrap,hread,kubeconfig,hbuild,hyaml⟩ rfl
    refine (meets_install hw (.inr ⟨rfl,rfl⟩) hdone).mono ?_
    rintro r ⟨⟩ w' hr
    cases r with
    | ok _ =>
      obtain rfl := hr
      exact hdone
    | error e => exact hr

theorem meets_step {wrap : ε → BootstrapError} {p : BootM b.tools (Except ε α)} (hw : b.Sound w₀ w)
    (h : p.Meets (b.booting w₀) (fun _ w' => w' = w) w) :
    (callOrFail wrap p).Meets (b.booting w₀) (b.Leaves w₀ fun _ w' => w' = w) () w := by
  refine meets_callOrFail (h.mono ?_)
  rintro r w' rfl
  exact ⟨hw,fun _ _ => rfl⟩

theorem meets_runBootstrap (hw : b.Working w₀ w) :
    b.runBootstrap.Meets (b.booting w₀) (b.Leaves w₀ fun _ w' => b.Sound w₀ w') () w := by
  rw [runBootstrap]
  refine meets_andThen (R := fun bootstrap w' => b.Working w₀ w' ∧ bootstrap ∈ w'.read) (meets_callOrFail ?_) ?_
  · refine meets_ask.mpr ⟨⟨hw.toSound,trivial⟩,?_⟩
    rintro answer w' rfl
    have hgrown : b.Working w₀ { w with read := w.read ++ answer.toOption.toList } :=
      hw.grow rfl (List.Subset.refl _) (List.subset_append_left _ _) rfl
    refine ⟨hgrown.toSound,?_⟩
    rintro bootstrap rfl
    exact ⟨hgrown,by simp [Except.toOption]⟩
  rintro bootstrap w ⟨hw,hread⟩
  have hsound : b.Sound w₀ w := hw.toSound
  refine meets_andThen (meets_step hsound (meets_quiet hsound trivial (fun _ _ h => h) fun _ => rfl)) ?_
  rintro - w₁ rfl
  refine meets_andThen (meets_step hsound (meets_quiet hsound trivial (fun _ _ h => h) fun _ => rfl)) ?_
  rintro - w₂ rfl
  refine meets_andThen (meets_step hsound (meets_quiet hsound trivial (fun _ _ h => h) fun _ => rfl)) ?_
  rintro key w₃ rfl
  refine meets_andThen (R := fun r w' => w' = w₃ ∧ b.tools.serializeRequest b.userName "system:nodes" key = .ok r)
    (meets_fromExcept (fun _ hr => ⟨rfl,hr⟩) hsound) ?_
  rintro r w₄ ⟨rfl,hr⟩
  refine meets_andThen (R := fun pem w' => w' = w₄ ∧ b.tools.requestPem r = .ok pem)
    (meets_fromExcept (fun _ hpem => ⟨rfl,hpem⟩) hsound) ?_
  rintro pem w₅ ⟨rfl,hpem⟩
  refine meets_andThen (R := fun _ w' => w' = w₅)
    (meets_call (meets_quiet hsound trivial (fun _ _ h => h) fun _ => rfl)) ?_
  rintro uuid w₆ rfl
  have hrequest : b.Requests key (b.csrObject uuid pem) := ⟨uuid,r,pem,hr,hpem,rfl⟩
  refine meets_andThen (R := fun _ w' => Waiting bootstrap (b.csrObject uuid pem) w₀ w') (meets_callOrFail ?_) ?_
  · refine meets_ask.mpr ⟨⟨hsound,hw.missing,key,hrequest⟩,?_⟩
    rintro answer w' rfl
    have hgrown : b.Working w₀ { w₆ with submitted := w₆.submitted ++ (answer.toOption.map fun _ => b.csrObject uuid pem).toList } :=
      hw.grow rfl (List.Subset.refl _) (List.Subset.refl _) rfl
    refine ⟨hgrown.toSound,?_⟩
    rintro _ rfl
    exact ⟨hgrown,hread,by simp [Except.toOption]⟩
  rintro - w₇ hwaiting
  refine meets_andThen (R := fun cert w' => Waiting bootstrap (b.csrObject uuid pem) w₀ w' ∧
    (b.csrObject uuid pem,asBytes cert) ∈ w'.issued) (meets_callOrFail ?_) ?_
  · refine (meets_pollForIssuedCertificate csrApprovalTimeout hwaiting).mono ?_
    exact fun r w' h => ⟨h.1.working.toSound,fun cert hcert => ⟨h.1,h.2 cert hcert⟩⟩
  rintro cert w₈ ⟨hwaiting,hissued⟩
  have hsound : b.Sound w₀ w₈ := hwaiting.working.toSound
  refine meets_andThen (meets_step hsound (meets_quiet hsound trivial (fun _ _ h => h) fun _ => rfl)) ?_
  rintro - w₉ rfl
  have hinstalled := hwaiting.working.installed ⟨key,_,cert,hrequest,hissued,rfl⟩ rfl
  refine meets_andThen (meets_install hwaiting.working (.inl ⟨rfl,rfl⟩) hinstalled.1.toSound) ?_
  rintro - w' rfl
  refine meets_andThen (R := fun kubeconfig w'' => w'' = _ ∧ b.buildKubeconfig bootstrap = .ok kubeconfig)
    (meets_fromExcept (fun _ hbuild => ⟨rfl,hbuild⟩) hinstalled.1.toSound) ?_
  rintro kubeconfig w'' ⟨rfl,hbuild⟩
  exact meets_writeKubeconfig hinstalled.1 hinstalled.2 hwaiting.read hbuild

/-- An answer about a file that does not change anything else. -/
theorem Sound.deny (h : b.Sound w₀ w) (denied : List FilePath) : b.Sound w₀ { w with denied := w.denied ++ denied } := by
  refine ⟨h.kubeconfig.imp_right fun hc => hc.grow rfl (List.Subset.refl _) (List.Subset.refl _),h.cert,h.others,?_⟩
  intro hpresent hnot
  have hsame := h.untouched hpresent fun hmem => hnot (List.mem_append_left _ hmem)
  exact congrArg (fun w => { w with denied := w.denied ++ denied }) hsame

/-- An attempt begins when the kubeconfig is not found. -/
theorem Sound.begin (h : b.Sound w₀ w) :
    b.Working w₀ { w with denied := w.denied ++ w.deniedBy b.kubeconfigPath false } := by
  have hmissing : b.Missing { w with denied := w.denied ++ w.deniedBy b.kubeconfigPath false } := by
    by_cases hnone : w.files b.kubeconfigPath = none
    · exact .inl hnone
    · refine .inr (List.mem_append_right _ ?_)
      rw [BootWorld.deniedBy,if_pos ⟨rfl,hnone⟩]
      exact List.mem_singleton_self _
  refine ⟨h.deny _,?_,hmissing⟩
  by_contra hnot
  obtain ⟨hpresent,hnot⟩ := not_or.mp hnot
  have hsame := (h.deny _).untouched hpresent hnot
  exact hpresent ((congrArg (fun w => w.files b.kubeconfigPath) hsame).symm.trans (hmissing.resolve_right hnot))

theorem meets_ensureKubeconfig (hw : b.Sound w₀ w) :
    b.ensureKubeconfig.Meets (b.booting w₀) (fun _ w' => b.Sound w₀ w') w := by
  rw [ensureKubeconfig,Program.meets_bind]
  refine meets_ask.mpr ⟨⟨hw,trivial⟩,?_⟩
  rintro found w' rfl
  cases found with
  | true => exact hw.deny _
  | false =>
    have hworking : b.Working w₀ { w with denied := w.denied ++ w.deniedBy b.kubeconfigPath false } := hw.begin
    cases b.bootstrapPath with
    | none => exact hworking.toSound
    | some bootstrapPath =>
      change (pathExists bootstrapPath >>= _).Meets (b.booting w₀) _ _
      rw [Program.meets_bind]
      refine meets_ask.mpr ⟨⟨hworking.toSound,trivial⟩,?_⟩
      rintro present w' rfl
      cases present with
      | false => exact hworking.toSound.deny _
      | true =>
        change (b.runBootstrap () >>= fun _ => pure ()).Meets (b.booting w₀) _ _
        rw [Program.meets_bind]
        refine Program.Meets.mono (meets_runBootstrap (hworking.grow rfl (List.Subset.refl _) (List.Subset.refl _) ?_)) ?_
        · exact List.append_nil _
        · rintro ⟨r,_⟩ w'' hr
          cases r with
          | ok _ => exact hr
          | error e => exact hr

/-- However often the kubelet is started, wherever each start is cut off and whatever is answered: the
kubeconfig is the one of before, or a complete one beside a certificate that is complete, issued for this
node and the key beside it; no other file has changed but the temporary ones; and if there was a
kubeconfig, nothing has changed and nothing was requested unless it was denied. And this goes for every
start that may still come. -/
theorem bootstrap_atomic (b : BootstrapConfig) {w₀ w : BootWorld b.tools}
    (h : Program.Restarts (b.booting w₀) b.ensureKubeconfig w₀ w) :
    b.Sound w₀ w ∧ b.ensureKubeconfig.Meets (b.booting w₀) (fun _ w' => b.Sound w₀ w') w := by
  have hstart : b.Sound w₀ w₀ := ⟨.inl rfl,.inl rfl,fun _ _ => rfl,fun _ _ => rfl⟩
  have hsound : b.Sound w₀ w :=
    h.keep hstart (fun _ hw => meets_ensureKubeconfig hw) (fun _ => rfl) fun _ _ hallowed => hallowed.1
  exact ⟨hsound,meets_ensureKubeconfig hsound⟩

end Attempts
end BootstrapConfig

/-! ## A first start -/

def webTools : BootstrapTools where
  Cluster := Unit
  Key := Unit
  Request := Unit
  serializePem _ := "key"
  serializeRequest _ _ _ := .ok ()
  requestPem _ := .ok "request"
  toYaml _ := .ok "kubeconfig"
  utf8Error _ := ""

def webBootstrap : BootstrapConfig where
  tools := webTools
  kubeconfigPath := ⟨"/etc/kubernetes","kubelet.conf"⟩
  bootstrapPath := some ⟨"/etc/kubernetes","bootstrap-kubelet.conf"⟩
  nodeName := "web-1"
  certDir := "/var/lib/kubelet/pki"
  plain := by decide
  apart := by decide

/-- Every call succeeds. -/
def webAnswer (w : BootWorld webTools) (op : BootOp webTools) : BootAnswer op × BootWorld webTools :=
  match op with
  | .pathExists path => ((w.files path).isSome,{ w with denied := w.denied ++ w.deniedBy path (w.files path).isSome })
  | .readBootstrap => (.ok { clusters := [⟨"cluster",()⟩] },{ w with read := w.read ++ [{ clusters := [⟨"cluster",()⟩] }] })
  | .buildConfig => (.ok (),w)
  | .createClient => (.ok (),w)
  | .generateKey => (.ok (),w)
  | .newUuid => ("1",w)
  | .createCsr csr => (.ok (),{ w with submitted := w.submitted ++ [csr] })
  | .getCsr _ =>
    let r := .ok (some { certificate := some (asBytes "certificate") })
    (r,{ w with issued := w.issued ++ w.issuedBy r })
  | .elapsed => ((0 : ℕ),w)
  | .sleep => ((),w)
  | .createDirAll _ => (.ok (),w)
  | .writeFile path content => (.ok (),w.put path (some ⟨content,0o644⟩))
  | .setPermissions path mode =>
    match w.files path with
    | some f => (.ok (),w.put path (some ⟨f.content,mode⟩))
    | none => (.error "not found",w)
  | .rename source target =>
    match w.files source with
    | some f => (.ok (),(w.put source none).put target (some f))
    | none => (.error "not found",w)

theorem answers_webAnswer (w : BootWorld webTools) (op : BootOp webTools) : w.Answers op (webAnswer w op).1 (webAnswer w op).2 := by
  cases op with
  | writeFile path content => exact ⟨0o644,rfl⟩
  | setPermissions path mode =>
    cases hfile : w.files path with
    | none => simp [BootWorld.Answers,webAnswer,hfile]
    | some f => simp [BootWorld.Answers,webAnswer,hfile]
  | rename source target =>
    cases hfile : w.files source with
    | none => simp [BootWorld.Answers,webAnswer,hfile]
    | some f => simp [BootWorld.Answers,webAnswer,hfile]
  | _ => rfl

def freshDisk : BootWorld webTools where
  files path := if path = ⟨"/etc/kubernetes","bootstrap-kubelet.conf"⟩ then some ⟨"bootstrap",0o600⟩ else none

def started : BootWorld webTools := (webBootstrap.ensureKubeconfig.run webAnswer freshDisk).2

theorem bootstrap_atomic_web : webBootstrap.Sound freshDisk started ∧
    webBootstrap.ensureKubeconfig.Meets (webBootstrap.booting freshDisk) (fun _ w' => webBootstrap.Sound freshDisk w') started :=
  webBootstrap.bootstrap_atomic (.single (Program.Cut.run webAnswer (fun _ => rfl) answers_webAnswer _ _))

end KubeAir.Adapters.Bootstrap
