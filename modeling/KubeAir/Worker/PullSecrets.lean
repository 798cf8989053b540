import KubeAir.Streaming.HeaderBlock
import KubeAir.Streaming.SpdySession
import KubeAir.Transition.Program
import KubeAir.Wire.Base64
import KubeAir.Worker.RegistryHost
import KubeAir.Worker.Request

/-! # The credentials of an image pull

The secrets that a pod or its service account names hold entries for registries. The first of those
for the registry of the image goes to the runtime, which is asked again while it cannot be reached.
-/
namespace KubeAir.Streaming

def Json.asStr : Json → Option String
  | .string s => some s
  | _ => none

def Json.asObject : Json → Option (List (String × Json))
  | .object fields => some fields
  | _ => none

end KubeAir.Streaming

namespace KubeAir.Worker.PullSecrets
open Core Registry Streaming Transition Wire
open Adapters (splitOnce splitOnce_append)
open Streaming.HeaderBlock (asBytes asBytes_append fromUtf8 fromUtf8_eq_some)

structure ImagePullSecret where
  server : String
  username : String
  password : String
deriving DecidableEq, Repr

/-- A user and a password in one text. -/
def combined (user password : String) : String := String.ofList (Base64.standard.encode (asBytes (user ++ ":" ++ password)))

/-- What the runtime is given. -/
structure AuthConfig where
  username : String
  password : String
  auth : String
  serverAddress : String := ""
  identityToken : String := ""
  registryToken : String := ""
deriving DecidableEq, Repr

def authConfig (s : ImagePullSecret) : AuthConfig where
  username := s.username
  password := s.password
  auth := combined s.username s.password

/-- The bare digest of a reference that has one. -/
def normalizeImageId (imageRef : String) : String :=
  match afterMarker "sha256:".toList imageRef.toList with
  | some digest => "sha256:" ++ String.ofList digest
  | none => imageRef

abbrev SecretData := HashMap String (List UInt8)

/-- What the pull reads of a pod. -/
structure PullingPod where
  podRef : PodRef
  imagePullSecrets : List String := []
  serviceAccountName : String := ""

/-- `str::to_lowercase` and `serde_json::from_slice`. -/
structure TextCodec where
  cm : CaseMap
  fromSlice : List UInt8 → Option Json

section Entries
variable (tc : TextCodec)

/-- A text field of an entry; empty if it is not there. -/
def textField (entry : Json) (key : String) : String := ((entry.get key).bind Json.asStr).getD ""

/-- The user and the password in an encoded text. -/
def decodeAuth (auth : String) : Option (String × String) := do
  let bytes ← Base64.standard.decode auth.toList
  let decoded ← fromUtf8 bytes
  let userAndPassword ← splitOnce ':' decoded.toList
  return (String.ofList userAndPassword.1,String.ofList userAndPassword.2)

def parseRegistryAuthEntry (host : String) (entry : Json) : Option ImagePullSecret :=
  let username := textField entry "username"
  let password := textField entry "password"
  if username ≠ "" ∨ password ≠ "" then some ⟨normalizeRegistryHost tc.cm host,username,password⟩
  else do
    let auth ← (entry.get "auth").bind Json.asStr
    let userAndPassword ← decodeAuth auth
    return ⟨normalizeRegistryHost tc.cm host,userAndPassword.1,userAndPassword.2⟩

def parseEntries (auths : List (String × Json)) : List ImagePullSecret :=
  auths.filterMap fun auth => parseRegistryAuthEntry tc auth.1 auth.2

def parseDockerconfigjsonBytes (raw : List UInt8) : List ImagePullSecret :=
  match (tc.fromSlice raw).bind fun json => (json.get "auths").bind Json.asObject with
  | some auths => parseEntries tc auths
  | none => []

def parseDockercfgBytes (raw : List UInt8) : List ImagePullSecret :=
  match (tc.fromSlice raw).bind Json.asObject with
  | some auths => parseEntries tc auths
  | none => []

def dockerAuthsFromSecret (data : SecretData) : List ImagePullSecret :=
  ((data.lookup ".dockerconfigjson").map (parseDockerconfigjsonBytes tc)).getD [] ++
    ((data.lookup ".dockercfg").map (parseDockercfgBytes tc)).getD []

end Entries

/-! ## Reading an entry -/

section Reading
variable {user password auth : String}

theorem splitOnce_eq_some {sep : Char} {cs a b : List Char} : splitOnce sep cs = some (a,b) ↔ sep ∉ a ∧ cs = a ++ sep :: b := by
  constructor
  · intro h
    induction cs generalizing a with
    | nil => cases h
    | cons c cs ih =>
      simp only [splitOnce] at h
      split at h
      · next hc =>
        obtain ⟨rfl,rfl⟩ := Prod.mk.inj (Option.some.inj h)
        simp [hc]
      · next hc =>
        obtain ⟨p,hp,heq⟩ := Option.map_eq_some_iff.mp h
        obtain ⟨rfl,rfl⟩ := Prod.mk.inj heq
        obtain ⟨hnot,rfl⟩ := ih hp
        simp [hnot,Ne.symm hc]
  · rintro ⟨hnot,rfl⟩
    exact splitOnce_append hnot b

/-- An encoded text is read exactly if it is the canonical encoding of the two; the user ends at the
first colon. -/
theorem decodeAuth_eq_some : decodeAuth auth = some (user,password) ↔
    ':' ∉ user.toList ∧ auth = combined user password := by
  simp only [decodeAuth,Option.bind_eq_bind,Option.bind_eq_some_iff,Option.pure_def,Option.some.injEq,Prod.mk.injEq]
  constructor
  · rintro ⟨bytes,hbytes,decoded,hdecoded,p,hp,rfl,rfl⟩
    obtain ⟨hnot,hcut⟩ := splitOnce_eq_some.mp hp
    have htext : decoded = String.ofList p.1 ++ ":" ++ String.ofList p.2 := by
      rw [← String.toList_inj,hcut]
      simp
    refine ⟨by simpa using hnot,?_⟩
    rw [combined,← htext,← fromUtf8_eq_some.mp hdecoded,Base64.Engine.encode_of_decode hbytes]
    exact (String.ofList_toList).symm
  · rintro ⟨hnot,hauth⟩
    refine ⟨_,by rw [hauth,combined,String.toList_ofList,Base64.Engine.decode_encode],_,fromUtf8_eq_some.mpr rfl,
      (user.toList,password.toList),?_,by simp,by simp⟩
    exact splitOnce_eq_some.mpr ⟨hnot,by simp⟩

/-- An entry counts by its fields, if one of them is not empty, and else by its encoded text, which has
to be the one that the runtime is then given for the user and the password. -/
theorem entry_read_iff (tc : TextCodec) (host : String) (entry : Json) (s : ImagePullSecret) :
    parseRegistryAuthEntry tc host entry = some s ↔ s.server = normalizeRegistryHost tc.cm host ∧
      if textField entry "username" ≠ "" ∨ textField entry "password" ≠ "" then
        s.username = textField entry "username" ∧ s.password = textField entry "password"
      else ':' ∉ s.username.toList ∧ (entry.get "auth").bind Json.asStr = some (authConfig s).auth := by
  obtain ⟨server,username,password⟩ := s
  simp only [parseRegistryAuthEntry]
  split
  · simp only [Option.some.injEq,ImagePullSecret.mk.injEq]
    exact ⟨fun ⟨h₁,h₂,h₃⟩ => ⟨h₁.symm,h₂.symm,h₃.symm⟩,fun ⟨h₁,h₂,h₃⟩ => ⟨h₁.symm,h₂.symm,h₃.symm⟩⟩
  · simp only [Option.bind_eq_bind,Option.bind_eq_some_iff,Option.pure_def,Option.some.injEq,ImagePullSecret.mk.injEq]
    constructor
    · rintro ⟨auth,hauth,p,hp,rfl,rfl,rfl⟩
      obtain ⟨hnot,rfl⟩ := decodeAuth_eq_some.mp hp
      exact ⟨rfl,hnot,hauth⟩
    · rintro ⟨rfl,hnot,hauth⟩
      exact ⟨_,hauth,(username,password),decodeAuth_eq_some.mpr ⟨hnot,rfl⟩,rfl,rfl,rfl⟩

end Reading

/-! ## The calls -/

inductive PullOp
  | kubeClient
  | serviceAccount (ns name : String)
  | secret (ns name : String)
  /-- `gcp_sa_json_to_oauth2_token` -/
  | exchange (password : String)
  | imageStatus (image : String)
  | pullImage (image : String) (auth : Option AuthConfig)

/-- A fetch that fails gives `none`; the references of a service account may have no name. -/
def PullAnswer : PullOp → Type
  | .kubeClient => Bool
  | .serviceAccount _ _ => Option (List (Option String))
  | .secret _ _ => Option SecretData
  | .exchange _ => Option String
  | .imageStatus _ => Except String (Option String)
  | .pullImage _ _ => Except String String

abbrev PullM := Program PullOp PullAnswer

def ask (op : PullOp) : PullM (PullAnswer op) := Program.request op

def kubeClient : PullM Bool := ask .kubeClient

def serviceAccount (ns name : String) : PullM (Option (List (Option String))) := ask (.serviceAccount ns name)

def getSecret (ns name : String) : PullM (Option SecretData) := ask (.secret ns name)

def gcpSaJsonToOauth2Token (password : String) : PullM (Option String) := ask (.exchange password)

def criImageStatus (image : String) : PullM (Except String (Option String)) := ask (.imageStatus image)

def criPullImage (image : String) (auth : Option AuthConfig) : PullM (Except String String) := ask (.pullImage image auth)

def statusResult (resp : Except String (Option String)) : Except KubeletError (Option String) :=
  resp.mapError fun e => .runtime ("ImageStatus: " ++ e)

def pullResult (resp : Except String String) : Except KubeletError String :=
  (resp.map normalizeImageId).mapError fun e => .runtime ("PullImage: " ++ e)

def imageStatus (image : String) : PullM (Except KubeletError (Option String)) := do
  let resp ← criImageStatus image
  return statusResult resp

def pullImage (image : String) (pullSecrets : List ImagePullSecret) : PullM (Except KubeletError String) := do
  let resp ← criPullImage image (pullSecrets.head?.map authConfig)
  return pullResult resp

def addName (names : List String) : Option String → List String
  | some name => if name ∈ names then names else names ++ [name]
  | none => names

/-- The account whose secrets a pod uses besides its own. -/
def PullingPod.account (pod : PullingPod) : String := if pod.serviceAccountName = "" then "default" else pod.serviceAccountName

def isTransientRuntimeConnectionError (cm : CaseMap) : KubeletError → Bool
  | .runtime msg =>
    let lower := cm.toLowercase msg
    decide ("status: unavailable".toList <:+: lower.toList) || decide ("connection refused".toList <:+: lower.toList) ||
      decide ("transport error".toList <:+: lower.toList)
  | _ => false

def budgetExhausted : KubeletError := .runtime "image pull failed after transient-retry budget exhausted"

def jsonKeyUser : String := "_json_key_base64"

section Routines
variable (tc : TextCodec) (pod : PullingPod) (image : String)

/-- The entry is for the registry of the image. -/
def Matches (entry : ImagePullSecret) : Bool := hostMatchesRegistry tc.cm entry.server (imageRegistryHost tc.cm image)

/-- The loop over the names, with what has been resolved so far. -/
def fetchSecrets : List String → List ImagePullSecret → PullM (List ImagePullSecret)
  | [], resolved => pure resolved
  | name :: names, resolved => do
    match ← getSecret pod.podRef.ns name with
    | none => fetchSecrets names resolved
    | some data => fetchSecrets names (resolved ++ (dockerAuthsFromSecret tc data).filter (Matches tc image))

/-- The names of the pod, and those of its service account. -/
def secretNames (client : Bool) : PullM (List String) := do
  if client then
    match ← serviceAccount pod.podRef.ns pod.account with
    | some refs => pure (refs.foldl addName pod.imagePullSecrets)
    | none => pure pod.imagePullSecrets
  else pure pod.imagePullSecrets

def resolveImagePullSecrets : PullM (List ImagePullSecret) := do
  let client ← (if !pod.imagePullSecrets.isEmpty || pod.serviceAccountName ≠ "" then kubeClient else pure false)
  let names ← secretNames pod client
  if client then fetchSecrets tc pod image names [] else pure []

/-- The loop over the credentials, with what has come out so far. -/
def exchangeGcpCredentials : List ImagePullSecret → List ImagePullSecret → PullM (List ImagePullSecret)
  | [], out => pure out
  | s :: secrets, out =>
    if s.username ≠ jsonKeyUser then exchangeGcpCredentials secrets (out ++ [s])
    else do
      match ← gcpSaJsonToOauth2Token s.password with
      | some token => exchangeGcpCredentials secrets (out ++ [⟨s.server,"oauth2accesstoken",token⟩])
      | none => exchangeGcpCredentials secrets (out ++ [s])

/-- The image is looked for, with so many attempts left. -/
def statusAttempts : ℕ → PullM (Except KubeletError (Option String))
  | 0 => pure (.ok none)
  | left + 1 => do
    match ← imageStatus image with
    | .ok found => pure (.ok found)
    | .error e => if isTransientRuntimeConnectionError tc.cm e && left ≠ 0 then statusAttempts left else pure (.error e)

def pullAttempts (pullSecrets : List ImagePullSecret) : ℕ → PullM (Except KubeletError String)
  | 0 => pure (.error budgetExhausted)
  | left + 1 => do
    match ← pullImage image pullSecrets with
    | .ok id => pure (.ok id)
    | .error e =>
      if isTransientRuntimeConnectionError tc.cm e && left ≠ 0 then pullAttempts pullSecrets left else pure (.error e)

def ensureImage : PullM (Except KubeletError String) := do
  let rawSecrets ← resolveImagePullSecrets tc pod image
  let pullSecrets ← exchangeGcpCredentials rawSecrets []
  match ← statusAttempts tc image 3 with
  | .ok (some id) => pure (.ok id)
  | .ok none => pullAttempts tc image pullSecrets 3
  | .error e => pure (.error e)

end Routines

/-! ## Which credentials go where -/

/-- What has been asked and answered so far. -/
structure PullWorld where
  client : Bool := false
  /-- the names that the service account has -/
  accountNames : List String := []
  /-- the secrets that were asked for -/
  asked : List String := []
  /-- the entries of those that were there -/
  entries : List ImagePullSecret := []
  /-- keys with the tokens they were exchanged for, or nothing where the exchange failed -/
  exchanges : List (String × Option String) := []
  /-- what the runtime has said about the image -/
  statuses : List (Except KubeletError (Option String)) := []
  pulls : List (Except KubeletError String) := []

section Law
variable (tc : TextCodec) (pod : PullingPod) (image : String)

def PullWorld.record (w : PullWorld) (op : PullOp) (answer : PullAnswer op) : PullWorld :=
  match op, answer with
  | .kubeClient, (client : Bool) => { w with client := client }
  | .serviceAccount _ _, (refs : Option (List (Option String))) => { w with accountNames := (refs.getD []).filterMap id }
  | .secret _ name, (data : Option SecretData) => { w with
      asked := w.asked ++ [name]
      entries := w.entries ++ (data.map (dockerAuthsFromSecret tc)).getD [] }
  | .exchange password, (token : Option String) => { w with exchanges := w.exchanges ++ [(password,token)] }
  | .imageStatus _, (resp : Except String (Option String)) => { w with statuses := w.statuses ++ [statusResult resp] }
  | .pullImage _ _, (resp : Except String String) => { w with pulls := w.pulls ++ [pullResult resp] }

/-- What is used for an entry: itself, or for a key the token that it was exchanged for, as far as
the exchange succeeded. -/
def Stands (w : PullWorld) (entry s : ImagePullSecret) : Prop :=
  if entry.username = jsonKeyUser then
    (∃ token, (entry.password,some token) ∈ w.exchanges ∧ s = ⟨entry.server,"oauth2accesstoken",token⟩) ∨
      (entry.password,none) ∈ w.exchanges ∧ s = entry
  else s = entry

/-- The entries for the registry of the image, one after the other. -/
def Prepared (w : PullWorld) (pullSecrets : List ImagePullSecret) : Prop :=
  List.Forall₂ (Stands w) (w.entries.filter (Matches tc image)) pullSecrets

/-- What the first entry for the registry of the image comes to; nothing, if there is none. -/
def Offered (w : PullWorld) (auth : Option AuthConfig) : Prop :=
  Option.Rel (fun entry a => ∃ s, Stands w entry s ∧ a = authConfig s) (w.entries.filter (Matches tc image)).head? auth

/-- The runtime has not been reached yet, and may be asked again. -/
def Unreached {α : Type} (answers : List (Except KubeletError α)) : Prop :=
  answers.length < 3 ∧ ∀ a ∈ answers, ∃ e, a = .error e ∧ isTransientRuntimeConnectionError tc.cm e = true

/-- The name of a secret of the pod. -/
def Named (w : PullWorld) (name : String) : Prop := name ∈ pod.imagePullSecrets ∨ name ∈ w.accountNames

/-- When a call may be made. -/
def Allowed (w : PullWorld) : PullOp → Prop
  | .kubeClient => True
  | .serviceAccount ns name => ns = pod.podRef.ns ∧ name = pod.account
  | .secret ns name => ns = pod.podRef.ns ∧ Named pod w name
  | .exchange password => ∃ entry ∈ w.entries, Matches tc image entry = true ∧ entry.username = jsonKeyUser ∧
      entry.password = password
  | .imageStatus image' => image' = image ∧ Unreached tc w.statuses ∧ w.pulls = []
  | .pullImage image' auth => image' = image ∧ w.statuses.getLast? = some (.ok none) ∧ Unreached tc w.pulls ∧
      Offered tc image w auth ∧ (w.client = true → ∀ name, Named pod w name → name ∈ w.asked)

/-- The answers are any at all. -/
def pulling : Contract PullOp PullAnswer PullWorld where
  drift w w' := w' = w
  allowed := Allowed tc pod image
  answers w op answer w' := w' = w.record tc op answer

/-- The image is the one that is there or the one that was pulled; an error is that of the runtime. -/
def Outcome (r : Except KubeletError String) (w : PullWorld) : Prop :=
  w.pulls.getLast? = some r ∨ w.pulls = [] ∧ w.statuses.getLast? = some (r.map some)

end Law

section Runs
variable {tc : TextCodec} {pod : PullingPod} {image : String} {w : PullWorld}

theorem meets_ask {op : PullOp} {Q : PullAnswer op → PullWorld → Prop} : (ask op).Meets (pulling tc pod image) Q w ↔
    Allowed tc pod image w op ∧ ∀ answer, Q answer (w.record tc op answer) := by
  constructor
  · intro h
    obtain ⟨hallowed,hanswer⟩ := h w rfl
    exact ⟨hallowed,fun answer => hanswer answer _ rfl⟩
  · rintro ⟨hallowed,hanswer⟩ w' rfl
    exact ⟨hallowed,fun answer w'' hw => hw ▸ hanswer answer⟩

theorem meets_kubeClient {Q : Bool → PullWorld → Prop} : kubeClient.Meets (pulling tc pod image) Q w ↔
    ∀ client, Q client { w with client := client } :=
  meets_ask.trans (and_iff_right trivial)

theorem meets_serviceAccount {ns name : String} {Q : Option (List (Option String)) → PullWorld → Prop} :
    (serviceAccount ns name).Meets (pulling tc pod image) Q w ↔ (ns = pod.podRef.ns ∧ name = pod.account) ∧
      ∀ refs, Q refs { w with accountNames := (refs.getD []).filterMap id } :=
  meets_ask

theorem meets_getSecret {ns name : String} {Q : Option SecretData → PullWorld → Prop} :
    (getSecret ns name).Meets (pulling tc pod image) Q w ↔ (ns = pod.podRef.ns ∧ Named pod w name) ∧
      ∀ data, Q data { w with
        asked := w.asked ++ [name]
        entries := w.entries ++ (data.map (dockerAuthsFromSecret tc)).getD [] } :=
  meets_ask

theorem meets_gcpSaJsonToOauth2Token {password : String} {Q : Option String → PullWorld → Prop} :
    (gcpSaJsonToOauth2Token password).Meets (pulling tc pod image) Q w ↔
      (∃ entry ∈ w.entries, Matches tc image entry = true ∧ entry.username = jsonKeyUser ∧ entry.password = password) ∧
        ∀ token, Q token { w with exchanges := w.exchanges ++ [(password,token)] } :=
  meets_ask

theorem meets_imageStatus {image' : String} {Q : Except KubeletError (Option String) → PullWorld → Prop} :
    (imageStatus image').Meets (pulling tc pod image) Q w ↔ (image' = image ∧ Unreached tc w.statuses ∧ w.pulls = []) ∧
      ∀ resp, Q (statusResult resp) { w with statuses := w.statuses ++ [statusResult resp] } :=
  Program.meets_bind.trans meets_ask

theorem meets_pullImage {image' : String} {pullSecrets : List ImagePullSecret}
    {Q : Except KubeletError String → PullWorld → Prop} : (pullImage image' pullSecrets).Meets (pulling tc pod image) Q w ↔
      Allowed tc pod image w (.pullImage image' (pullSecrets.head?.map authConfig)) ∧
        ∀ resp, Q (pullResult resp) { w with pulls := w.pulls ++ [pullResult resp] } :=
  Program.meets_bind.trans meets_ask

theorem Prepared.offered {pullSecrets : List ImagePullSecret} (h : Prepared tc image w pullSecrets) :
    Offered tc image w (pullSecrets.head?.map authConfig) := by
  simp only [Prepared] at h
  simp only [Offered]
  generalize w.entries.filter (Matches tc image) = entries at h
  cases h with
  | nil => exact .none
  | cons hstands hrest => exact .some ⟨_,hstands,rfl⟩

theorem meets_fetchSecrets (names : List String) {resolved : List ImagePullSecret} (hnames : ∀ name ∈ names, Named pod w name)
    (hresolved : resolved = w.entries.filter (Matches tc image)) :
    (fetchSecrets tc pod image names resolved).Meets (pulling tc pod image) (fun secrets w' =>
      secrets = w'.entries.filter (Matches tc image) ∧
        w' = { w with asked := w.asked ++ names, entries := w'.entries }) w := by
  induction names generalizing w resolved with
  | nil => exact ⟨hresolved,by simp⟩
  | cons name names ih =>
    obtain ⟨hname,hrest⟩ := List.forall_mem_cons.mp hnames
    rw [fetchSecrets,Program.meets_bind,meets_getSecret]
    refine ⟨⟨rfl,hname⟩,fun data => ?_⟩
    cases data with
    | none =>
      refine (ih (w := { w with asked := w.asked ++ [name], entries := w.entries ++ [] }) hrest (by simpa using hresolved)).mono ?_
      rintro secrets w' ⟨hsecrets,hw⟩
      exact ⟨hsecrets,by rw [hw]; simp⟩
    | some data =>
      refine (ih (w := { w with asked := w.asked ++ [name], entries := w.entries ++ dockerAuthsFromSecret tc data }) hrest
        (by simp [hresolved])).mono ?_
      rintro secrets w' ⟨hsecrets,hw⟩
      exact ⟨hsecrets,by rw [hw]; simp⟩

theorem mem_foldl_addName {refs : List (Option String)} {names : List String} {name : String} :
    name ∈ refs.foldl addName names ↔ name ∈ names ∨ name ∈ refs.filterMap id := by
  induction refs generalizing names with
  | nil => simp
  | cons ref refs ih =>
    rw [List.foldl_cons,ih]
    cases ref with
    | none => simp [addName]
    | some new =>
      by_cases hold : new ∈ names
      · have hsame : name = new → name ∈ names := fun h => h ▸ hold
        simp only [addName,hold,if_true,List.filterMap_cons,id,List.mem_cons]
        tauto
      · simp only [addName,hold,if_false,List.filterMap_cons,id,List.mem_cons,List.mem_append,List.not_mem_nil,
          or_false]
        tauto

theorem meets_resolveImagePullSecrets : (resolveImagePullSecrets tc pod image).Meets (pulling tc pod image) (fun secrets w =>
    secrets = w.entries.filter (Matches tc image) ∧ (w.client = true → ∀ name, Named pod w name → name ∈ w.asked) ∧
      w.statuses = [] ∧ w.pulls = []) {} := by
  have hclient : (if !pod.imagePullSecrets.isEmpty || pod.serviceAccountName ≠ "" then kubeClient else pure false).Meets
      (pulling tc pod image) (fun client w => w = { client := client }) {} := by
    split
    · exact meets_kubeClient.mpr fun client => rfl
    · rfl
  rw [resolveImagePullSecrets,Program.meets_bind]
  refine hclient.mono ?_
  rintro client w rfl
  rw [Program.meets_bind]
  cases client with
  | false => exact ⟨rfl,by simp,rfl,rfl⟩
  | true =>
    have hnames : (secretNames pod true).Meets (pulling tc pod image) (fun names w => w = { client := true, accountNames :=
        w.accountNames } ∧ ∀ name, name ∈ names ↔ Named pod w name) { client := true } := by
      rw [secretNames,if_pos rfl,Program.meets_bind,meets_serviceAccount]
      refine ⟨⟨rfl,rfl⟩,fun refs => ?_⟩
      cases refs with
      | none => exact ⟨rfl,by simp [Named]⟩
      | some refs => exact ⟨rfl,fun name => mem_foldl_addName⟩
    refine hnames.mono ?_
    rintro names w ⟨hw,hnames⟩
    rw [if_pos rfl]
    refine (meets_fetchSecrets names (fun name hname => (hnames name).mp hname) (by rw [hw]; rfl)).mono ?_
    rintro secrets w' ⟨hsecrets,hw'⟩
    refine ⟨hsecrets,fun _ name hname => ?_,by rw [hw',hw],by rw [hw',hw]⟩
    rw [hw'] at hname ⊢
    exact List.mem_append_right _ ((hnames name).mpr hname)

theorem Stands.mono {w' : PullWorld} {entry s : ImagePullSecret} (h : Stands w entry s) (hw : w.exchanges ⊆ w'.exchanges) :
    Stands w' entry s := by
  unfold Stands at h ⊢
  split
  · next huser =>
    rw [if_pos huser] at h
    rcases h with ⟨token,htoken,rfl⟩ | ⟨hfailed,rfl⟩
    · exact .inl ⟨token,hw htoken,rfl⟩
    · exact .inr ⟨hw hfailed,rfl⟩
  · next huser => rwa [if_neg huser] at h

/-- Each of the credentials is passed on in its turn: a key as its token if the exchange succeeds, and
whatever else as it is. -/
theorem meets_exchangeGcpCredentials (secrets : List ImagePullSecret) {before out : List ImagePullSecret}
    (hbefore : w.entries.filter (Matches tc image) = before ++ secrets) (hout : List.Forall₂ (Stands w) before out) :
    (exchangeGcpCredentials secrets out).Meets (pulling tc pod image) (fun pullSecrets w' =>
      Prepared tc image w' pullSecrets ∧ w' = { w with exchanges := w'.exchanges }) w := by
  induction secrets generalizing w before out with
  | nil =>
    rw [List.append_nil] at hbefore
    refine ⟨?_,rfl⟩
    rw [Prepared,hbefore]
    exact hout
  | cons s secrets ih =>
    have hsplit : w.entries.filter (Matches tc image) = (before ++ [s]) ++ secrets := by simp [hbefore]
    rw [exchangeGcpCredentials]
    split
    · next huser =>
      have hstands : Stands w s s := by rw [Stands,if_neg huser]
      exact ih hsplit (List.rel_append hout (.cons hstands .nil))
    · next huser =>
      have huser : s.username = jsonKeyUser := not_not.mp huser
      have hmem : s ∈ w.entries.filter (Matches tc image) := by simp [hbefore]
      obtain ⟨hentry,hmatch⟩ := List.mem_filter.mp hmem
      rw [Program.meets_bind,meets_gcpSaJsonToOauth2Token]
      refine ⟨⟨s,hentry,hmatch,huser,rfl⟩,fun token => ?_⟩
      set w₁ : PullWorld := { w with exchanges := w.exchanges ++ [(s.password,token)] } with hw₁
      have hmore : w.exchanges ⊆ w₁.exchanges := List.subset_append_left _ _
      have hthere : (s.password,token) ∈ w₁.exchanges := List.mem_append_right _ List.mem_cons_self
      have hgrown : List.Forall₂ (Stands w₁) before out := hout.imp fun _ _ h => h.mono hmore
      cases token with
      | none =>
        have hstands : Stands w₁ s s := by
          rw [Stands,if_pos huser]
          exact .inr ⟨hthere,rfl⟩
        exact ih (w := w₁) hsplit (List.rel_append hgrown (.cons hstands .nil))
      | some token =>
        have hstands : Stands w₁ s ⟨s.server,"oauth2accesstoken",token⟩ := by
          rw [Stands,if_pos huser]
          exact .inl ⟨token,hthere,rfl⟩
        exact ih (w := w₁) hsplit (List.rel_append hgrown (.cons hstands .nil))

/-- After an answer that says the runtime was not reached there is another attempt, if it is not the third. -/
theorem Unreached.concat {α : Type} {answers : List (Except KubeletError α)} {e : KubeletError} {left : ℕ}
    (h : Unreached tc answers) (he : isTransientRuntimeConnectionError tc.cm e = true) (hleft : left ≠ 0)
    (hlength : answers.length + (left + 1) = 3) :
    Unreached tc (answers ++ [.error e]) ∧ (answers ++ [Except.error (α := α) e]).length + left = 3 := by
  simp only [Unreached,List.length_append,List.length_singleton,List.mem_append,List.mem_singleton]
  refine ⟨⟨by omega,?_⟩,by omega⟩
  rintro a (ha | rfl)
  · exact h.2 a ha
  · exact ⟨e,rfl,he⟩

theorem meets_statusAttempts (left : ℕ) (hleft : left ≠ 0) (hlength : w.statuses.length + left = 3)
    (hstatuses : Unreached tc w.statuses) (hpulls : w.pulls = []) :
    (statusAttempts tc image left).Meets (pulling tc pod image) (fun r w' =>
      w'.statuses.getLast? = some r ∧ w' = { w with statuses := w'.statuses }) w := by
  induction left generalizing w with
  | zero => exact absurd rfl hleft
  | succ left ih =>
    rw [statusAttempts,Program.meets_bind,meets_imageStatus]
    refine ⟨⟨rfl,hstatuses,hpulls⟩,fun resp => ?_⟩
    generalize statusResult resp = status
    cases status with
    | ok found => exact ⟨List.getLast?_concat,rfl⟩
    | error e =>
      dsimp only
      split
      · next hagain =>
        simp only [Bool.and_eq_true,decide_eq_true_eq] at hagain
        obtain ⟨hmore,hlength'⟩ := hstatuses.concat hagain.1 hagain.2 hlength
        exact ih (w := { w with statuses := w.statuses ++ [.error e] }) hagain.2 hlength' hmore hpulls
      · exact ⟨List.getLast?_concat,rfl⟩

theorem meets_pullAttempts {pullSecrets : List ImagePullSecret} (left : ℕ) (hleft : left ≠ 0)
    (hlength : w.pulls.length + left = 3)
    (hallowed : Allowed tc pod image w (.pullImage image (pullSecrets.head?.map authConfig))) :
    (pullAttempts tc image pullSecrets left).Meets (pulling tc pod image) (fun r w' => w'.pulls.getLast? = some r) w := by
  induction left generalizing w with
  | zero => exact absurd rfl hleft
  | succ left ih =>
    rw [pullAttempts,Program.meets_bind,meets_pullImage]
    refine ⟨hallowed,fun resp => ?_⟩
    generalize pullResult resp = pulled
    cases pulled with
    | ok id => exact List.getLast?_concat
    | error e =>
      dsimp only
      split
      · next hagain =>
        obtain ⟨himage,hstatus,hpulls,hoffered,hasked⟩ := hallowed
        simp only [Bool.and_eq_true,decide_eq_true_eq] at hagain
        obtain ⟨hmore,hlength'⟩ := hpulls.concat hagain.1 hagain.2 hlength
        exact ih (w := { w with pulls := w.pulls ++ [.error e] }) hagain.2 hlength' ⟨himage,hstatus,hmore,hoffered,hasked⟩
      · exact List.getLast?_concat

/-- Whatever the API server, the token endpoint and the runtime answer: only secrets of the pod and its
service account are read, and each of those if there is a client; with a pull goes the first entry for the
registry of the image and no other, a key as the token that it was exchanged for unless the exchange failed;
an image is only pulled if it is not there; the runtime is asked again only while it cannot be reached,
three times at most; and the outcome is what it answered last. -/
theorem credentials_confined (tc : TextCodec) (pod : PullingPod) (image : String) :
    (ensureImage tc pod image).Meets (pulling tc pod image) Outcome {} := by
  rw [ensureImage,Program.meets_bind]
  refine meets_resolveImagePullSecrets.mono ?_
  rintro secrets w ⟨hsecrets,hasked,hstatuses,hpulls⟩
  rw [Program.meets_bind]
  refine (meets_exchangeGcpCredentials secrets (by rw [List.nil_append]; exact hsecrets.symm) .nil).mono ?_
  rintro pullSecrets w₁ ⟨hprepared,hw₁⟩
  have hstatuses₁ : w₁.statuses = [] := by rw [hw₁,hstatuses]
  have hpulls₁ : w₁.pulls = [] := by rw [hw₁,hpulls]
  rw [Program.meets_bind]
  refine (meets_statusAttempts 3 (by omega) (by simp [hstatuses₁]) (by simp [Unreached,hstatuses₁]) hpulls₁).mono ?_
  rintro status w₂ ⟨hlast,hw₂⟩
  have hpulls₂ : w₂.pulls = [] := by rw [hw₂,hpulls₁]
  cases status with
  | error e => exact .inr ⟨hpulls₂,hlast⟩
  | ok found =>
    cases found with
    | some id => exact .inr ⟨hpulls₂,hlast⟩
    | none =>
      have hoffered₂ : Offered tc image w₂ (pullSecrets.head?.map authConfig) := by
        rw [hw₂]
        exact hprepared.offered
      have hasked₂ : w₂.client = true → ∀ name, Named pod w₂ name → name ∈ w₂.asked := by
        rw [hw₂,hw₁]
        exact hasked
      refine (meets_pullAttempts 3 (by omega) (by simp [hpulls₂])
        ⟨rfl,hlast,by simp [Unreached,hpulls₂],hoffered₂,hasked₂⟩).mono ?_
      exact fun r w' h => .inl h

end Runs
end KubeAir.Worker.PullSecrets
