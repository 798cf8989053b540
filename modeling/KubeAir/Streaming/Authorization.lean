import KubeAir.Transition.Program

/-! # Authorization of streaming requests

Who may open a stream into a pod. The API server, the environment and the rate limiter,
which all requests share, answer calls; every answer is possible.
-/
namespace KubeAir.Streaming.Authorization
open Transition

/-- Header names in lower case with the bytes of their values. -/
abbrev HeaderMap := List (String × List UInt8)

structure AuthIdentity where
  username : String
  uid : Option String
  groups : List String
deriving DecidableEq, Repr

structure StreamAuthConfig (Client : Type) where
  anonymousAuth : Bool
  alwaysAllow : Bool
  kubeClient : Option Client

/-- The user of a `TokenReviewStatus`. -/
structure UserInfo where
  username : Option String
  uid : Option String
  groups : Option (List String)

structure TokenReviewStatus where
  authenticated : Option Bool
  error : Option String
  user : Option UserInfo

structure ResourceAttributes where
  ns : String
  verb : String
  group : String
  version : String
  resource : String
  subresource : String
  name : String
deriving DecidableEq, Repr

structure SubjectAccessReviewSpec where
  resourceAttributes : ResourceAttributes
  user : String
  uid : Option String
  groups : List String
deriving DecidableEq, Repr

structure SubjectAccessReviewStatus where
  allowed : Bool
  reason : Option String

/-- The body of a response to a request that was turned down. -/
structure K8sErrorResponse where
  kind : String
  apiVersion : String
  status : String
  reason : String
  message : String
  code : ℕ
deriving DecidableEq, Repr

def k8sErrorResponse (statusCode : ℕ) (reason message : String) : K8sErrorResponse :=
  ⟨"Status","v1","Failure",reason,message,statusCode⟩

/-- A record of the audit log. -/
structure StreamAudit where
  kind : String
  user : String
  ns : String
  pod : String
  container : String
  outcome : String

/-- What a request asks its surroundings. -/
inductive AuthOp (Client : Type)
  | defaultClient
  | insecureFallbackVar
  | allow (key : String)
  | tokenReview (client : Client) (token : String)
  | subjectAccessReview (client : Client) (spec : SubjectAccessReviewSpec)
  | audit (event : StreamAudit)
  | recordError (subresource reason : String)

/-- The answers: an environment variable, the verdict of the limiter, the error text or the
status of a review. -/
abbrev AuthAnswer (Client : Type) : AuthOp Client → Type
  | .defaultClient => Option Client
  | .insecureFallbackVar => Option String
  | .allow _ => Bool
  | .tokenReview _ _ => Except String (Option TokenReviewStatus)
  | .subjectAccessReview _ _ => Except String (Option SubjectAccessReviewStatus)
  | .audit _ => Unit
  | .recordError _ _ => Unit

/-- `HeaderValue::to_str`. -/
def toStr (value : List UInt8) : Option String :=
  if value.all (fun b => (32 ≤ b && b < 127) || b = 9) then
    some (String.ofList (value.map (fun b => Char.ofNat b.toNat)))
  else none

/-- `s.strip_prefix`. -/
def stripPrefix (s start : String) : Option String :=
  (start.toList.isPrefixOf? s.toList).map String.ofList

def extractBearerToken (headers : HeaderMap) : Option String := do
  let raw ← toStr (← headers.lookup "authorization")
  let token ← stripPrefix raw "Bearer "
  if token = "" then none else some token

section Routines
variable {Client : Type}

abbrev AuthProgram (Client α : Type) : Type := Program (AuthOp Client) (AuthAnswer Client) α

def ask (op : AuthOp Client) : AuthProgram Client (AuthAnswer Client op) := Program.request op

def kubeClient (provided : Option Client) : AuthProgram Client (Option Client) :=
  match provided with
  | some c => pure (some c)
  | none => ask .defaultClient

def tokenReview (client : Client) (token : String) : AuthProgram Client (Except String AuthIdentity) := do
  let answer : Except String (Option TokenReviewStatus) ← ask (.tokenReview client token)
  match answer with
  | .error e => pure (.error ("token review failed: " ++ e))
  | .ok none => pure (.error "token review missing status")
  | .ok (some status) =>
    if status.authenticated ≠ some true then pure (.error (status.error.getD "token not authenticated"))
    else
      match status.user with
      | none => pure (.error "token review missing user info")
      | some user =>
        match user.username with
        | none => pure (.error "token review missing username")
        | some username => pure (.ok ⟨username,user.uid,user.groups.getD []⟩)

/-- What the API server is asked about an identity. -/
def reviewSpec (identity : AuthIdentity) (ns podName subresource verb : String) : SubjectAccessReviewSpec where
  resourceAttributes := ⟨ns,verb,"","v1","pods",subresource,podName⟩
  user := identity.username
  uid := identity.uid
  groups := identity.groups

def subjectAccessReview (client : Client) (identity : AuthIdentity)
    (ns podName subresource verb : String) : AuthProgram Client (Except String Unit) := do
  let answer : Except String (Option SubjectAccessReviewStatus) ←
    ask (.subjectAccessReview client (reviewSpec identity ns podName subresource verb))
  match answer with
  | .error e => pure (.error ("subject access review failed: " ++ e))
  | .ok none => pure (.error "subject access review missing status")
  | .ok (some status) =>
    if status.allowed then pure (.ok ()) else pure (.error (status.reason.getD "RBAC denied request"))

def auditStreamEvent (kind identity ns podName : String) (container : Option String) (outcome : String) :
    AuthProgram Client Unit :=
  ask (.audit ⟨kind,identity,ns,podName,container.getD "",outcome⟩)

def streamingRecordError (subresource reason : String) : AuthProgram Client Unit := ask (.recordError subresource reason)

def anonymous : AuthIdentity := ⟨"system:anonymous",none,["system:unauthenticated"]⟩

def rateLimited : K8sErrorResponse := k8sErrorResponse 429 "TooManyRequests" "stream rate limit exceeded"

def insecureFallback (var : Option String) : Bool := (var.map (["1","true","TRUE","yes","YES"].contains ·)).getD false

def authorizeStreamRequest (headers : HeaderMap) (ns podName : String) (container : Option String)
    (subresource verb : String) (authCfg : StreamAuthConfig Client) (certCn : Option String) :
    AuthProgram Client (Except K8sErrorResponse AuthIdentity) :=
  match certCn with
  | some cn => do
    let identity : AuthIdentity := ⟨cn,none,[]⟩
    auditStreamEvent subresource identity.username ns podName container "allowed_cert"
    pure (.ok identity)
  | none =>
    match extractBearerToken headers with
    | none =>
      if authCfg.anonymousAuth then
        if authCfg.alwaysAllow then pure (.ok anonymous)
        else do
          -- the comment of the source says that the access check follows here
          let allowed : Bool ← ask (.allow anonymous.username)
          if allowed then pure (.ok anonymous)
          else do
            streamingRecordError subresource "rate_limited"
            pure (.error rateLimited)
      else do
        streamingRecordError subresource "unauthorized"
        pure (.error (k8sErrorResponse 401 "Unauthorized" "missing bearer token"))
    | some token => do
      match ← kubeClient authCfg.kubeClient with
      | none =>
        if authCfg.alwaysAllow then pure (.ok ⟨"system:serviceaccount",none,[]⟩)
        else do
          let var : Option String ← ask .insecureFallbackVar
          if insecureFallback var then pure (.ok anonymous)
          else do
            streamingRecordError subresource "auth_backend_unavailable"
            pure (.error (k8sErrorResponse 503 "ServiceUnavailable" "streaming auth backend unavailable"))
      | some client =>
        match ← tokenReview client token with
        | .error e => do
          streamingRecordError subresource "token_review"
          pure (.error (k8sErrorResponse 401 "Unauthorized" e))
        | .ok identity => do
          let allowed : Bool ← ask (.allow identity.username)
          if allowed then
            if authCfg.alwaysAllow then pure (.ok identity)
            else
              match ← subjectAccessReview client identity ns podName subresource verb with
              | .error e => do
                streamingRecordError subresource "rbac_denied"
                auditStreamEvent subresource identity.username ns podName container "denied"
                pure (.error (k8sErrorResponse 403 "Forbidden" e))
              | .ok () => pure (.ok identity)
          else do
            streamingRecordError subresource "rate_limited"
            auditStreamEvent subresource identity.username ns podName container "rate_limited"
            pure (.error rateLimited)

end Routines

/-! ## Reviews that were answered -/

/-- The reviews that were answered allowed so far. -/
abbrev Granted := List SubjectAccessReviewSpec

section Review
variable {Client : Type}

/-- The reviews that one answer adds. -/
def grant (granted : Granted) : (op : AuthOp Client) → AuthAnswer Client op → Granted
  | .subjectAccessReview _ spec, .ok (some status) => if status.allowed then spec :: granted else granted
  | _, _ => granted

/-- Any answers, from surroundings where the variable of the fallback is not set. -/
def reviews (Client : Type) : Contract (AuthOp Client) (AuthAnswer Client) Granted where
  drift granted granted' := granted = granted'
  allowed _ _ := True
  answers granted op answer granted' :=
    granted' = grant granted op answer ∧ match op, answer with
      | .insecureFallbackVar, var => var = none
      | _, _ => True

/-- A call, whatever it is answered. -/
theorem ask_meets {op : AuthOp Client} {Q : AuthAnswer Client op → Granted → Prop} {granted : Granted}
    (h : ∀ answer granted', (reviews Client).answers granted op answer granted' → Q answer granted') :
    (ask op).Meets (reviews Client) Q granted := by
  rintro _ rfl
  exact ⟨trivial,h⟩

theorem audit_meets {subresource user ns podName : String} {container : Option String} {outcome : String}
    {Q : Unit → Granted → Prop} {granted : Granted} (h : Q () granted) :
    (auditStreamEvent subresource user ns podName container outcome).Meets (reviews Client) Q granted := by
  refine ask_meets ?_
  rintro _ _ ⟨rfl,-⟩
  exact h

theorem recordError_meets {subresource reason : String} {Q : Unit → Granted → Prop} {granted : Granted}
    (h : Q () granted) : (streamingRecordError subresource reason).Meets (reviews Client) Q granted := by
  refine ask_meets ?_
  rintro _ _ ⟨rfl,-⟩
  exact h

theorem allow_meets {key : String} {Q : Bool → Granted → Prop} {granted : Granted}
    (h : ∀ allowed, Q allowed granted) : (ask (.allow key)).Meets (reviews Client) Q granted := by
  refine ask_meets ?_
  rintro allowed _ ⟨rfl,-⟩
  exact h allowed

theorem kubeClient_meets {provided : Option Client} {Q : Option Client → Granted → Prop} {granted : Granted}
    (h : ∀ client, Q client granted) : (kubeClient provided).Meets (reviews Client) Q granted := by
  cases provided with
  | some c => exact h (some c)
  | none =>
    refine ask_meets ?_
    rintro client _ ⟨rfl,-⟩
    exact h client

theorem tokenReview_meets {client : Client} {token : String} {Q : Except String AuthIdentity → Granted → Prop}
    {granted : Granted} (h : ∀ r, Q r granted) : (tokenReview client token).Meets (reviews Client) Q granted := by
  unfold tokenReview
  rw [Program.meets_bind]
  refine ask_meets ?_
  rintro answer _ ⟨rfl,-⟩
  match answer with
  | .error e => exact h _
  | .ok none => exact h _
  | .ok (some status) =>
    dsimp only
    split
    · exact h _
    split
    · exact h _
    split
    · exact h _
    · exact h _

/-- An access review succeeds only with an answer that grants it. -/
theorem subjectAccessReview_meets (client : Client) (identity : AuthIdentity)
    (ns podName subresource verb : String) (granted : Granted) :
    (subjectAccessReview client identity ns podName subresource verb).Meets (reviews Client)
      (fun r granted => r = .ok () → reviewSpec identity ns podName subresource verb ∈ granted) granted := by
  unfold subjectAccessReview
  rw [Program.meets_bind]
  refine ask_meets ?_
  rintro answer _ ⟨rfl,-⟩
  match answer with
  | .error e => exact fun h => nomatch h
  | .ok none => exact fun h => nomatch h
  | .ok (some status) =>
    cases hs : status.allowed with
    | false =>
      simp only [hs,Bool.false_eq_true,↓reduceIte]
      exact nofun
    | true =>
      simp only [hs,↓reduceIte,grant]
      intro _
      exact List.mem_cons_self

/-- An identity is returned only when a review of it was answered allowed, whatever the other
answers are, provided that the fallback is not turned on. -/
def ReviewedOnly (headers : HeaderMap) (ns podName : String) (container : Option String) (subresource verb : String)
    (authCfg : StreamAuthConfig Client) (certCn : Option String) : Prop :=
  (authorizeStreamRequest headers ns podName container subresource verb authCfg certCn).Meets (reviews Client)
    (fun r granted => ∀ identity, r = .ok identity → reviewSpec identity ns podName subresource verb ∈ granted) []

variable {headers : HeaderMap} {ns podName : String} {container : Option String} {subresource verb : String}
  {authCfg : StreamAuthConfig Client}

theorem bearer_reviewedOnly {token : String} (hallow : authCfg.alwaysAllow = false)
    (htoken : extractBearerToken headers = some token) :
    ReviewedOnly headers ns podName container subresource verb authCfg none := by
  unfold ReviewedOnly authorizeStreamRequest
  simp only [htoken,hallow,Bool.false_eq_true,↓reduceIte]
  rw [Program.meets_bind]
  apply kubeClient_meets
  intro client
  cases client with
  | none =>
    dsimp only
    rw [Program.meets_bind]
    refine ask_meets ?_
    rintro var _ ⟨rfl,rfl⟩
    have hunset : insecureFallback none = false := rfl
    simp only [hunset,Bool.false_eq_true,↓reduceIte]
    rw [Program.meets_bind]
    exact recordError_meets (fun _ h => nomatch h)
  | some client =>
    dsimp only
    rw [Program.meets_bind]
    apply tokenReview_meets
    intro r
    cases r with
    | error e =>
      dsimp only
      rw [Program.meets_bind]
      exact recordError_meets (fun _ h => nomatch h)
    | ok identity =>
      dsimp only
      rw [Program.meets_bind]
      apply allow_meets
      intro allowed
      cases allowed with
      | false =>
        simp only [Bool.false_eq_true,↓reduceIte]
        rw [Program.meets_bind]
        apply recordError_meets
        rw [Program.meets_bind]
        exact audit_meets (fun _ h => nomatch h)
      | true =>
        simp only [↓reduceIte]
        rw [Program.meets_bind]
        refine (subjectAccessReview_meets client identity ns podName subresource verb []).mono ?_
        intro r granted hr
        cases r with
        | error e =>
          dsimp only
          rw [Program.meets_bind]
          apply recordError_meets
          rw [Program.meets_bind]
          exact audit_meets (fun _ h => nomatch h)
        | ok u =>
          intro identity' he
          cases he
          exact hr rfl

/-- The only way past the access review is to be anonymous where that is allowed. -/
theorem reviewedOnly_iff (hallow : authCfg.alwaysAllow = false) :
    ReviewedOnly headers ns podName container subresource verb authCfg none ↔
      ¬ (authCfg.anonymousAuth = true ∧ extractBearerToken headers = none) := by
  constructor
  · rintro h ⟨hanon,htoken⟩
    unfold ReviewedOnly authorizeStreamRequest at h
    simp only [htoken,hanon,hallow,Bool.false_eq_true,↓reduceIte] at h
    have hans := (h [] rfl).2 true [] ⟨rfl,trivial⟩
    have := hans anonymous rfl
    cases this
  · intro h
    cases htoken : extractBearerToken headers with
    | some token => exact bearer_reviewedOnly hallow htoken
    | none =>
      have hanon : authCfg.anonymousAuth = false := by
        cases ha : authCfg.anonymousAuth with
        | false => rfl
        | true => exact absurd ⟨ha,htoken⟩ h
      unfold ReviewedOnly authorizeStreamRequest
      simp only [htoken,hanon,Bool.false_eq_true,↓reduceIte]
      rw [Program.meets_bind]
      exact recordError_meets (fun _ h => nomatch h)

end Review

/-- Anonymous requests are let in, and access is reviewed. -/
def anonymousConfig : StreamAuthConfig Unit := ⟨true,false,some ()⟩

theorem reviewedOnly_iff_anonymous :
    ReviewedOnly [] "default" "web" none "exec" "create" anonymousConfig none ↔
      ¬ (anonymousConfig.anonymousAuth = true ∧ extractBearerToken [] = none) :=
  reviewedOnly_iff rfl

/-- Anybody who shows no token may run commands in a pod. -/
theorem anonymous_not_reviewed :
    ¬ ∀ (headers : HeaderMap) (ns podName : String) (container : Option String) (subresource verb : String)
      (authCfg : StreamAuthConfig Unit), authCfg.alwaysAllow = false →
        ReviewedOnly headers ns podName container subresource verb authCfg none := by
  intro h
  have hm := h [] "default" "web" none "exec" "create" anonymousConfig rfl
  have hans := (hm [] rfl).2 true [] ⟨rfl,trivial⟩
  have := hans anonymous rfl
  cases this

end KubeAir.Streaming.Authorization
