import KubeAir.Worker.PullSecrets

/-! # Tokens for service accounts

A key of a service account is exchanged for a token: an assertion is signed with it and posted to
the endpoint that the account names, again if it could not be sent.
-/
namespace KubeAir.Worker.GcpToken
open Adapters Registry Streaming Transition Wire
open Adapters.Admission (isWhitespace trim)
open PullSecrets (splitOnce_eq_some)
open Streaming.HeaderBlock (asBytes)

/-- The libraries for JSON and RSA, and what is said of a text that is not base64. -/
structure TokenTools where
  decodeError : String → String
  fromSlice : List UInt8 → Except String Json
  toText : Json → Except String String
  Key : Type
  fromPkcs8 : List UInt8 → Except String Key
  fromDer : List UInt8 → Except String Key
  sign : Key → List UInt8 → Except String (List UInt8)

structure ServiceAccount where
  clientEmail : String
  privateKeyPem : String
  tokenUri : String
deriving DecidableEq, Repr

/-- `str::trim_end_matches`. -/
def trimEndMatches (pat s : List Char) : List Char := (trimStartMatches pat.reverse s.reverse).reverse

def beginLine (label : String) : List Char := ("-----BEGIN " ++ label ++ "-----").toList

def endLine (label : String) : List Char := ("-----END " ++ label ++ "-----").toList

def pemBody (privateKeyPem : String) : List Char :=
  let text := trimStartMatches (beginLine "RSA PRIVATE KEY") (trim privateKeyPem).toList
  let text := trimStartMatches (beginLine "PRIVATE KEY") text
  let text := trimEndMatches (endLine "RSA PRIVATE KEY") text
  let text := trimEndMatches (endLine "PRIVATE KEY") text
  text.filter fun c => c ≠ '\n' ∧ c ≠ '\r'

def keyDer (privateKeyPem : String) : Option (List UInt8) :=
  Base64.standard.decode (trim (String.ofList (pemBody privateKeyPem))).toList

def segment (bytes : List UInt8) : String := String.ofList (Base64.urlSafeNoPad.encode bytes)

def header : String := "\x7b\"alg\":\"RS256\",\"typ\":\"JWT\"\x7d"

def claims (account : ServiceAccount) (now : ℕ) : Json :=
  .object [("iss",.string account.clientEmail),("scope",.string "https://www.googleapis.com/auth/cloud-platform"),
    ("aud",.string account.tokenUri),("iat",.number (some now)),("exp",.number (some (now + 3600)))]

section Reading
variable (tools : TokenTools)

def requiredText (json : Json) (key : String) : Except String String :=
  match (json.get key).bind Json.asStr with
  | some text => .ok text
  | none => .error ("missing " ++ key ++ " in service account")

def readAccount (b64Key : String) : Except String ServiceAccount := do
  let bytes ← match Base64.standard.decode (trim b64Key).toList with
    | some bytes => .ok bytes
    | none => .error ("base64 decode service account: " ++ tools.decodeError (trim b64Key))
  let sa ← (tools.fromSlice bytes).mapError fun e => "parse service account JSON: " ++ e
  let clientEmail ← requiredText sa "client_email"
  let privateKeyPem ← requiredText sa "private_key"
  let tokenUri := ((sa.get "token_uri").bind Json.asStr).getD "https://oauth2.googleapis.com/token"
  return ⟨clientEmail,privateKeyPem,tokenUri⟩

def readKey (privateKeyPem : String) : Except String tools.Key := do
  let der ← match keyDer privateKeyPem with
    | some der => .ok der
    | none => .error ("decode private key DER: " ++ tools.decodeError (trim (String.ofList (pemBody privateKeyPem))))
  match tools.fromPkcs8 der with
  | .ok key => .ok key
  | .error _ => (tools.fromDer der).mapError fun e => "parse RSA key: " ++ e

/-- The JWT for an account at a time. -/
def signedAssertion (account : ServiceAccount) (now : ℕ) : Except String String := do
  let claimsText ← tools.toText (claims account now)
  let signingInput := segment (asBytes header) ++ "." ++ segment (asBytes claimsText)
  let key ← readKey tools account.privateKeyPem
  let sig ← (tools.sign key (asBytes signingInput)).mapError fun e => "RSA sign: " ++ e
  return signingInput ++ "." ++ segment sig

end Reading

/-! ## The calls -/

structure TokenResponse where
  status : ℕ
  statusText : String
  text : Except String String
  json : Except String Json

inductive TokenOp
  | now
  | httpClient
  | sleep (millis : ℕ)
  | post (uri assertion : String)

def TokenAnswer : TokenOp → Type
  | .now => ℕ
  | .httpClient => Except String Unit
  | .sleep _ => Unit
  | .post _ _ => Except String TokenResponse

abbrev TokenM := Program TokenOp TokenAnswer

def ask (op : TokenOp) : TokenM (TokenAnswer op) := Program.request op

def unixTime : TokenM ℕ := ask .now

def gcpHttpClient : TokenM (Except String Unit) := ask .httpClient

def sleep (millis : ℕ) : TokenM Unit := ask (.sleep millis)

def post (uri assertion : String) : TokenM (Except String TokenResponse) := ask (.post uri assertion)

def accessToken (resp : TokenResponse) : Except String String :=
  if ¬(200 ≤ resp.status ∧ resp.status < 300) then
    .error ("token exchange failed (" ++ resp.statusText ++ "): " ++ resp.text.toOption.getD "")
  else match resp.json with
    | .error e => .error ("parse token response: " ++ e)
    | .ok json =>
      match (json.get "access_token").bind Json.asStr with
      | some token => .ok token
      | none => .error "no access_token in response"

def sendError (attempt : ℕ) (e : String) : String := "POST to token_uri (attempt " ++ toString (attempt + 1) ++ "): " ++ e

def pause (attempt : ℕ) : TokenM Unit := if 0 < attempt then sleep (500 * attempt) else pure ()

/-- The attempts that are left of three, with the error of the last one. -/
def postAttempts (tokenUri jwt : String) : ℕ → String → TokenM (Except String String)
  | 0, lastErr => pure (.error lastErr)
  | left + 1, _ => do
    let attempt := 2 - left
    pause attempt
    match ← post tokenUri jwt with
    | .error e => postAttempts tokenUri jwt left (sendError attempt e)
    | .ok resp => pure (accessToken resp)

def gcpSaJsonToOauth2Token (tools : TokenTools) (b64Key : String) : TokenM (Except String String) := do
  match readAccount tools b64Key with
  | .error e => pure (.error e)
  | .ok account =>
    let now ← unixTime
    match signedAssertion tools account now with
    | .error e => pure (.error e)
    | .ok jwt =>
      match ← gcpHttpClient with
      | .error e => pure (.error ("build reqwest client: " ++ e))
      | .ok _ => postAttempts account.tokenUri jwt 3 "no attempts made"

/-! ## What the endpoint receives -/

/-- What the endpoint makes of an assertion: its parts, and the text that was signed. -/
structure ReadAssertion where
  header : List UInt8
  claims : List UInt8
  signature : List UInt8
  signed : List Char

def readAssertion (text : List Char) : Option ReadAssertion := do
  let (header,rest) ← splitOnce '.' text
  let (claims,signature) ← splitOnce '.' rest
  let headerBytes ← Base64.urlSafeNoPad.decode header
  let claimsBytes ← Base64.urlSafeNoPad.decode claims
  let signatureBytes ← Base64.urlSafeNoPad.decode signature
  return { header := headerBytes, claims := claimsBytes, signature := signatureBytes, signed := header ++ '.' :: claims }

/-- The claims of the account at that time, under the signature of its key. -/
def Vouches (tools : TokenTools) (account : ServiceAccount) (now : ℕ) (assertion : String) : Prop :=
  ∃ s claimsText key, readAssertion assertion.toList = some s ∧ s.header = asBytes header ∧
    tools.toText (claims account now) = .ok claimsText ∧ s.claims = asBytes claimsText ∧
    readKey tools account.privateKeyPem = .ok key ∧ tools.sign key (asBytes (String.ofList s.signed)) = .ok s.signature

structure TokenWorld where
  now : Option ℕ := none
  sleeps : List ℕ := []
  posts : List (Except String TokenResponse) := []

section Law
variable (tools : TokenTools) (b64Key : String)

def TokenWorld.record (w : TokenWorld) (op : TokenOp) (answer : TokenAnswer op) : TokenWorld :=
  match op, answer with
  | .now, (now : ℕ) => { w with now := some now }
  | .httpClient, _ => w
  | .sleep millis, _ => { w with sleeps := w.sleeps ++ [millis] }
  | .post _ _, (answer : Except String TokenResponse) => { w with posts := w.posts ++ [answer] }

/-- Nothing has been sent so far, and there is an attempt left. -/
def Unsent (w : TokenWorld) : Prop := w.posts.length < 3 ∧ ∀ answer ∈ w.posts, ∃ e, answer = .error e

/-- The pauses before the attempts after the first. -/
def pauses (n : ℕ) : List ℕ := (List.range n).map fun i => 500 * (i + 1)

def Allowed (w : TokenWorld) : TokenOp → Prop
  | .now => True
  | .httpClient => True
  | .sleep millis => Unsent w ∧ w.posts ≠ [] ∧ millis = 500 * w.posts.length
  | .post uri assertion => Unsent w ∧ w.sleeps = pauses w.posts.length ∧ ∃ account now, readAccount tools b64Key = .ok account ∧
      w.now = some now ∧ uri = account.tokenUri ∧ Vouches tools account now assertion

def exchanging : Contract TokenOp TokenAnswer TokenWorld where
  drift w w' := w' = w
  allowed := Allowed tools b64Key
  answers w op answer w' := w' = w.record op answer

/-- The token is that of the response; without a response the last of three attempts is reported. -/
def Outcome (r : Except String String) (w : TokenWorld) : Prop :=
  match w.posts.getLast? with
  | none => ∃ e, r = .error e
  | some (.ok resp) => r = accessToken resp
  | some (.error e) => w.posts.length = 3 ∧ r = .error (sendError 2 e)

end Law

section Assertions
variable {tools : TokenTools} {b64Key : String} {account : ServiceAccount} {now : ℕ} {jwt : String}

theorem dot_notMem_segment (bytes : List UInt8) : '.' ∉ Base64.urlSafeNoPad.encode bytes := by
  intro hmem
  rcases Base64.Engine.mem_encode hmem with hdigit | hpad
  · exact absurd hdigit (by decide +kernel)
  · exact absurd hpad.1 (by decide)

theorem readAssertion_segments (h c s : List UInt8) : readAssertion (segment h ++ "." ++ segment c ++ "." ++ segment s).toList =
    some { header := h, claims := c, signature := s, signed := (segment h ++ "." ++ segment c).toList } := by
  have htext : (segment h ++ "." ++ segment c ++ "." ++ segment s).toList = Base64.urlSafeNoPad.encode h ++
      '.' :: (Base64.urlSafeNoPad.encode c ++ '.' :: Base64.urlSafeNoPad.encode s) := by simp [segment]
  rw [readAssertion,htext,splitOnce_append (dot_notMem_segment h)]
  simp [splitOnce_append (dot_notMem_segment c),Base64.Engine.decode_encode,segment]

theorem vouches_signedAssertion (h : signedAssertion tools account now = .ok jwt) : Vouches tools account now jwt := by
  simp only [signedAssertion,bind,Except.bind] at h
  split at h
  · cases h
  · next claimsText hclaims =>
    split at h
    · cases h
    · next key hkey =>
      split at h
      · cases h
      · next sig hsig =>
        obtain rfl := Except.ok.inj h
        refine ⟨_,claimsText,key,readAssertion_segments _ _ _,rfl,hclaims,rfl,hkey,?_⟩
        rw [String.ofList_toList]
        cases hsign : tools.sign key _ with
        | error e => simp [hsign,Except.mapError] at hsig
        | ok sig' =>
          rw [hsign] at hsig
          exact hsig

end Assertions

section Runs
variable {tools : TokenTools} {b64Key : String} {w : TokenWorld}

theorem meets_ask {op : TokenOp} {Q : TokenAnswer op → TokenWorld → Prop} : (ask op).Meets (exchanging tools b64Key) Q w ↔
    Allowed tools b64Key w op ∧ ∀ answer, Q answer (w.record op answer) := by
  constructor
  · intro h
    obtain ⟨hallowed,hanswer⟩ := h w rfl
    exact ⟨hallowed,fun answer => hanswer answer _ rfl⟩
  · rintro ⟨hallowed,hanswer⟩ w' rfl
    exact ⟨hallowed,fun answer w'' hw => hw ▸ hanswer answer⟩

theorem meets_unixTime {Q : ℕ → TokenWorld → Prop} : unixTime.Meets (exchanging tools b64Key) Q w ↔
    ∀ now, Q now { w with now := some now } :=
  meets_ask.trans (and_iff_right trivial)

theorem meets_gcpHttpClient {Q : Except String Unit → TokenWorld → Prop} :
    gcpHttpClient.Meets (exchanging tools b64Key) Q w ↔ ∀ client, Q client w :=
  meets_ask.trans (and_iff_right trivial)

theorem meets_sleep {millis : ℕ} {Q : Unit → TokenWorld → Prop} : (sleep millis).Meets (exchanging tools b64Key) Q w ↔
    Allowed tools b64Key w (.sleep millis) ∧ ∀ answer, Q answer { w with sleeps := w.sleeps ++ [millis] } :=
  meets_ask

theorem meets_post {uri assertion : String} {Q : Except String TokenResponse → TokenWorld → Prop} :
    (post uri assertion).Meets (exchanging tools b64Key) Q w ↔ Allowed tools b64Key w (.post uri assertion) ∧
      ∀ answer, Q answer { w with posts := w.posts ++ [answer] } :=
  meets_ask

theorem pauses_succ (n : ℕ) : pauses (n + 1) = pauses n ++ [500 * (n + 1)] := by simp [pauses,List.range_succ]

/-- An attempt is only made after all before it have failed, and after its pause. -/
theorem meets_postAttempts {uri jwt : String} (left : ℕ) {lastErr : String} (hleft : w.posts.length + left = 3)
    (hfailed : ∀ answer ∈ w.posts, ∃ e, answer = .error e) (hsleeps : w.sleeps = pauses (w.posts.length - 1))
    (hlast : ∀ e, w.posts.getLast? = some (.error e) → lastErr = sendError (w.posts.length - 1) e)
    (hvouched : ∃ account now, readAccount tools b64Key = .ok account ∧ w.now = some now ∧ uri = account.tokenUri ∧
      Vouches tools account now jwt) : (postAttempts uri jwt left lastErr).Meets (exchanging tools b64Key) Outcome w := by
  induction left generalizing w lastErr with
  | zero =>
    have hne : w.posts ≠ [] := fun hnil => by simp [hnil] at hleft
    obtain ⟨e,he⟩ := hfailed _ (List.getLast_mem hne)
    have hget : w.posts.getLast? = some (.error e) := by rw [List.getLast?_eq_some_getLast hne,he]
    have hthree : w.posts.length = 3 := hleft
    have herr := hlast e hget
    rw [hthree] at herr
    change Outcome (.error lastErr) w
    rw [Outcome,hget]
    exact ⟨hthree,congrArg _ herr⟩
  | succ left ih =>
    have hunsent : Unsent w := ⟨by omega,hfailed⟩
    have hattempt : 2 - left = w.posts.length := by omega
    have hpause : (pause w.posts.length).Meets (exchanging tools b64Key)
        (fun _ w' => w' = { w with sleeps := pauses w.posts.length }) w := by
      rw [pause]
      split
      · next hpos =>
        refine meets_sleep.mpr ⟨⟨hunsent,List.ne_nil_of_length_pos hpos,rfl⟩,fun _ => ?_⟩
        have hnext := pauses_succ (w.posts.length - 1)
        rw [Nat.sub_add_cancel hpos,← hsleeps] at hnext
        rw [hnext]
      · next hnone =>
        have hzero : w.posts.length = 0 := by omega
        rw [hzero] at hsleeps ⊢
        change w = _
        rw [← hsleeps]
    rw [postAttempts,hattempt,Program.meets_bind]
    refine hpause.mono ?_
    rintro - w' rfl
    rw [Program.meets_bind,meets_post]
    refine ⟨⟨hunsent,rfl,hvouched⟩,fun answer => ?_⟩
    cases answer with
    | ok resp =>
      change Outcome (accessToken resp) _
      rw [Outcome,List.getLast?_concat]
    | error e =>
      have hlength : (w.posts ++ [Except.error (α := TokenResponse) e]).length = w.posts.length + 1 := by simp
      refine ih (w := { w with sleeps := pauses w.posts.length, posts := w.posts ++ [.error e] }) (by simp; omega) ?_ ?_ ?_ hvouched
      · intro answer hanswer
        rcases List.mem_append.mp hanswer with hold | hnew
        · exact hfailed answer hold
        · exact ⟨e,List.mem_singleton.mp hnew⟩
      · simp
      · intro e' he'
        obtain rfl : e = e' := by simpa using he'
        simp

/-- Whatever the endpoint answers: it is the one that the account names, and it is sent the claims of
the account for this endpoint under a signature of the account's key, again only if no response came,
after a longer pause each time and three times at most; the token is that of its response. -/
theorem token_exchanged (tools : TokenTools) (b64Key : String) :
    (gcpSaJsonToOauth2Token tools b64Key).Meets (exchanging tools b64Key) Outcome {} := by
  rw [gcpSaJsonToOauth2Token]
  split
  · exact ⟨_,rfl⟩
  · next account haccount =>
    rw [Program.meets_bind,meets_unixTime]
    intro now
    split
    · exact ⟨_,rfl⟩
    · next jwt hjwt =>
      rw [Program.meets_bind,meets_gcpHttpClient]
      intro client
      cases client with
      | error e => exact ⟨_,rfl⟩
      | ok _ =>
        exact meets_postAttempts 3 rfl (by simp) rfl (by simp) ⟨account,now,haccount,rfl,rfl,vouches_signedAssertion hjwt⟩

end Runs

/-! ## Keys in files -/

/-- How the file of a key is laid out: the lines of its text, and what stands around it. -/
structure PemFile where
  rsa : Bool
  der : List UInt8
  /-- whether the first line ends with a carriage return, too -/
  cr : Bool
  /-- lines that may end with a carriage return, too -/
  lines : List (List Char × Bool)
  whole : (lines.map Prod.fst).flatten = Base64.standard.encode der
  before : List Char
  after : List Char
  blank : ∀ c ∈ before ++ after, isWhitespace c = true

namespace PemFile
variable (f : PemFile)

def label : String := if f.rsa then "RSA PRIVATE KEY" else "PRIVATE KEY"

def lineEnd (cr : Bool) : List Char := if cr then ['\r','\n'] else ['\n']

/-- The lines between the first and the last one. -/
def inner : List Char := lineEnd f.cr ++ f.lines.flatMap fun line => line.1 ++ lineEnd line.2

def text : String := String.ofList (f.before ++ (beginLine f.label ++ f.inner ++ endLine f.label) ++ f.after)

variable {f}

theorem trimStartMatches_append {pat s : List Char} (hpat : pat ≠ []) (hs : ¬pat <+: s) : trimStartMatches pat (pat ++ s) = s := by
  rw [trimStartMatches,dif_pos ⟨hpat,List.prefix_append pat s⟩,List.drop_left]
  exact trimStartMatches_of_not hs

theorem trimEndMatches_append {pat s : List Char} (hpat : pat ≠ []) (hs : ¬pat <:+ s) : trimEndMatches pat (s ++ pat) = s := by
  rw [trimEndMatches,List.reverse_append,trimStartMatches_append (by simpa using hpat) (by simpa using hs),List.reverse_reverse]

theorem trimEndMatches_of_not {pat s : List Char} (hs : ¬pat <:+ s) : trimEndMatches pat s = s := by
  rw [trimEndMatches,trimStartMatches_of_not (by simpa using hs),List.reverse_reverse]

theorem not_isWhitespace_of_encoded {bytes : List UInt8} {c : Char} (h : c ∈ Base64.standard.encode bytes) :
    isWhitespace c = false := by
  have hall : Base64.standard.alphabet.all (fun c => !isWhitespace c) = true := by decide +kernel
  rcases Base64.Engine.mem_encode h with hdigit | ⟨-,rfl⟩
  · simpa using List.all_eq_true.mp hall c hdigit
  · decide

/-- A text loses the blanks around it, if it begins and ends with something else. -/
theorem trim_between {before after inside first last : List Char} {c d : Char}
    (hblank : ∀ c ∈ before ++ after, isWhitespace c = true) (hfirst : inside = c :: first) (hlast : inside.reverse = d :: last)
    (hc : isWhitespace c = false) (hd : isWhitespace d = false) : (trim (String.ofList (before ++ inside ++ after))).toList = inside := by
  have hbefore : ∀ c ∈ before, isWhitespace c = true := fun c hc => hblank c (List.mem_append_left _ hc)
  have hafter : ∀ c ∈ after.reverse, isWhitespace c = true :=
    fun c hc => hblank c (List.mem_append_right _ (List.mem_reverse.mp hc))
  have hdropFirst : (before ++ inside ++ after).dropWhile isWhitespace = inside ++ after := by
    rw [List.append_assoc,List.dropWhile_append_of_pos hbefore,hfirst,List.cons_append,
      List.dropWhile_cons_of_neg (by simp [hc])]
  have hdropLast : (inside ++ after).reverse.dropWhile isWhitespace = inside.reverse := by
    rw [List.reverse_append,List.dropWhile_append_of_pos hafter,hlast,List.dropWhile_cons_of_neg (by simp [hd])]
  rw [trim,String.toList_ofList,String.toList_ofList,hdropFirst,hdropLast,List.reverse_reverse]

theorem trim_text : (trim f.text).toList = beginLine f.label ++ f.inner ++ endLine f.label := by
  have hbegin : ∃ rest, beginLine f.label = '-' :: rest := by cases hrsa : f.rsa <;> simp [beginLine,label,hrsa]
  have hend : ∃ rest, (endLine f.label).reverse = '-' :: rest := by cases hrsa : f.rsa <;> simp [endLine,label,hrsa]
  obtain ⟨first,hfirst⟩ := hbegin
  obtain ⟨last,hlast⟩ := hend
  have hfirst' : beginLine f.label ++ f.inner ++ endLine f.label = '-' :: (first ++ f.inner ++ endLine f.label) := by
    simp [hfirst]
  have hlast' : (beginLine f.label ++ f.inner ++ endLine f.label).reverse =
      '-' :: (last ++ (beginLine f.label ++ f.inner).reverse) := by simp [hlast]
  exact trim_between f.blank hfirst' hlast' (by decide) (by decide)

theorem inner_begin {pat : List Char} (h : pat.head? = some '-') (s : List Char) : ¬pat <+: f.inner ++ s := by
  rintro ⟨t,ht⟩
  cases pat with
  | nil => cases h
  | cons c pat =>
    obtain rfl := Option.some.inj h
    cases hcr : f.cr with
    | true =>
      rw [inner,hcr] at ht
      exact absurd (List.cons.inj ht).1 (by decide)
    | false =>
      rw [inner,hcr] at ht
      exact absurd (List.cons.inj ht).1 (by decide)

theorem inner_end {pat : List Char} (h : pat.getLast? = some '-') : ¬pat <:+ f.inner := by
  rintro ⟨t,ht⟩
  have hlast : f.inner.getLast? = some '\n' := by
    rw [inner]
    induction f.lines using List.reverseRecOn with
    | nil => cases f.cr <;> rfl
    | append_singleton lines line ih =>
      have hend : (lineEnd line.2).getLast? = some '\n' := by cases line.2 <;> rfl
      simp [List.getLast?_append,hend]
  rw [← ht,List.getLast?_append,h] at hlast
  exact absurd (Option.some.inj hlast) (by decide)

theorem filter_inner : f.inner.filter (fun c => c ≠ '\n' ∧ c ≠ '\r') = Base64.standard.encode f.der := by
  have hend : ∀ cr, (lineEnd cr).filter (fun c => c ≠ '\n' ∧ c ≠ '\r') = [] := by decide
  have hlines : ∀ lines : List (List Char × Bool), (lines.flatMap fun line => line.1 ++ lineEnd line.2).filter
      (fun c => c ≠ '\n' ∧ c ≠ '\r') = (lines.map Prod.fst).flatten.filter (fun c => c ≠ '\n' ∧ c ≠ '\r') := by
    intro lines
    induction lines with
    | nil => rfl
    | cons line lines ih =>
      rw [List.flatMap_cons,List.filter_append,List.filter_append,hend,ih,List.map_cons,List.flatten_cons,List.filter_append,
        List.append_nil]
  have hkept : ∀ c ∈ Base64.standard.encode f.der, decide (c ≠ '\n' ∧ c ≠ '\r') = true := by
    intro c hc
    have hblank := not_isWhitespace_of_encoded hc
    refine decide_eq_true ⟨?_,?_⟩
    · rintro rfl
      exact absurd hblank (by decide)
    · rintro rfl
      exact absurd hblank (by decide)
  rw [inner,List.filter_append,hend,List.nil_append,hlines,f.whole]
  exact List.filter_eq_self.mpr hkept

theorem not_rsa_begin (s : List Char) : ¬beginLine "RSA PRIVATE KEY" <+: beginLine "PRIVATE KEY" ++ s := by
  intro h
  have hrsa : "-----BEGIN R".toList <+: beginLine "RSA PRIVATE KEY" := by decide +kernel
  have hplain : "-----BEGIN P".toList <+: beginLine "PRIVATE KEY" ++ s :=
    List.IsPrefix.trans (by decide +kernel) (List.prefix_append (beginLine "PRIVATE KEY") s)
  exact absurd (List.prefix_of_prefix_length_le (hrsa.trans h) hplain (by decide)) (by decide)

theorem not_rsa_end (s : List Char) : ¬endLine "RSA PRIVATE KEY" <:+ s ++ endLine "PRIVATE KEY" := by
  intro h
  have hplain : endLine "PRIVATE KEY" <:+ s ++ endLine "PRIVATE KEY" := List.suffix_append s _
  exact absurd (List.suffix_of_suffix_length_le hplain h (by decide +kernel)) (by decide +kernel)

theorem pemBody_text : pemBody f.text = Base64.standard.encode f.der := by
  have hbegin : ∀ label s, ¬beginLine label <+: f.inner ++ s := by
    intro label s
    refine inner_begin ?_ s
    simp [beginLine]
  have hend : ∀ label, ¬endLine label <:+ f.inner := by
    intro label
    refine inner_end ?_
    simp [endLine,List.getLast?_cons,List.getLast?_append]
  have hbeginNe : ∀ label, beginLine label ≠ [] := fun label => by simp [beginLine]
  have hendNe : ∀ label, endLine label ≠ [] := fun label => by simp [endLine]
  rw [pemBody,trim_text,List.append_assoc]
  cases hrsa : f.rsa with
  | true =>
    have hlabel : f.label = "RSA PRIVATE KEY" := by simp [label,hrsa]
    rw [hlabel,trimStartMatches_append (hbeginNe _) (hbegin _ _),trimStartMatches_of_not (hbegin _ _),
      trimEndMatches_append (hendNe _) (hend _),trimEndMatches_of_not (hend _)]
    exact filter_inner
  | false =>
    have hlabel : f.label = "PRIVATE KEY" := by simp [label,hrsa]
    rw [hlabel,trimStartMatches_of_not (not_rsa_begin _),trimStartMatches_append (hbeginNe _) (hbegin _ _),
      trimEndMatches_of_not (not_rsa_end _),trimEndMatches_append (hendNe _) (hend _)]
    exact filter_inner

/-- A key is found in a file however its text is broken into lines and whatever blanks stand around it. -/
theorem key_found (f : PemFile) : keyDer f.text = some f.der := by
  have hblank : ∀ c ∈ (String.ofList (Base64.standard.encode f.der)).toList, isWhitespace c = false := by
    intro c hc
    rw [String.toList_ofList] at hc
    exact not_isWhitespace_of_encoded hc
  rw [keyDer,pemBody_text,Adapters.Admission.trim_of_none_blank hblank,String.toList_ofList,Base64.Engine.decode_encode]

end PemFile
end KubeAir.Worker.GcpToken
