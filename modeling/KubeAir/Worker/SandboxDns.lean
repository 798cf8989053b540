import KubeAir.Adapters.Admission
import KubeAir.Worker.TerminationMessage

/-! # The DNS of a sandbox

What the policy of a pod stands for, what the pod puts in its place, and how much of it reaches the
sandbox. The lists of the node come from its resolv.conf, which is read line by line.
-/
namespace KubeAir.Worker.SandboxDns
open Core Adapters Admission Wire
open Termination (lines)

inductive DnsPolicy
  | clusterFirstWithHostNet
  | clusterFirst
  | default
  | none
deriving DecidableEq, Repr

structure DnsOption where
  name : String
  value : Option String := Option.none
deriving DecidableEq, Repr

/-- An option as resolv.conf has it. -/
def DnsOption.text (opt : DnsOption) : String :=
  match opt.value with
  | some v => opt.name ++ ":" ++ v
  | Option.none => opt.name

structure DnsConfig where
  nameservers : List String := []
  searches : List String := []
  options : List DnsOption := []
  policy : DnsPolicy := .clusterFirst
deriving Repr

/-- A pod with what it says about DNS. -/
structure DnsPod extends PodSpec where
  dnsConfig : Option DnsConfig := Option.none

/-- Node-level DNS settings. -/
structure NodeDnsConfig where
  clusterDns : List String := ["10.96.0.10"]
  clusterDomain : String := "cluster.local"
  resolvConfPath : String := "/etc/resolv.conf"

/-- What a sandbox is created with. -/
structure DnsConfigSpec where
  servers : List String
  searches : List String
  options : List String
deriving DecidableEq, Repr

/-- The three lists while they are put together. -/
structure DnsLists where
  nameservers : List String := []
  searches : List String := []
  options : List String := []
deriving DecidableEq, Repr

/-- The text of the file at each path, if there is one. -/
abbrev TextFiles := String → Option String

/-! ## Reading resolv.conf -/

/-- `str::split_whitespace`. -/
def splitWhitespace (line : List Char) : List String := (words isWhitespace line).map String.ofList

def trimmed (line : List Char) : List Char := (trim (String.ofList line)).toList

/-- One round of the loop over the lines. -/
def readLine (lists : DnsLists) (line : List Char) : DnsLists :=
  let line := trimmed line
  if "nameserver ".toList <+: line then
    match (splitWhitespace line)[1]? with
    | some ns => { lists with nameservers := lists.nameservers ++ [ns] }
    | none => lists
  else if "search ".toList <+: line then
    { lists with searches := lists.searches ++ (splitWhitespace line).drop 1 }
  else if "options ".toList <+: line then
    { lists with options := lists.options ++ (splitWhitespace line).drop 1 }
  else lists

def parseResolvConfRaw (files : TextFiles) (path : String) : DnsLists := (lines ((files path).getD "")).foldl readLine {}

/-- Only the local listener of systemd-resolved. -/
def StubOnly (nameservers : List String) : Prop := nameservers ≠ [] ∧ ∀ s ∈ nameservers, "127.".toList <+: s.toList

instance (nameservers : List String) : Decidable (StubOnly nameservers) := inferInstanceAs (Decidable (_ ∧ _))

def upstream : String := "/run/systemd/resolve/resolv.conf"

def parseResolvConf (files : TextFiles) (path : String) : DnsLists :=
  let lists := parseResolvConfRaw files path
  if StubOnly lists.nameservers then
    let lists2 := parseResolvConfRaw files upstream
    if lists2.nameservers ≠ [] then lists2 else lists
  else lists

/-! ## Building -/

def clusterSearches (nodeDns : NodeDnsConfig) (ns : String) : List String :=
  [ns ++ ".svc." ++ nodeDns.clusterDomain,"svc." ++ nodeDns.clusterDomain,nodeDns.clusterDomain]

/-- The lists of a policy. -/
def policyLists (files : TextFiles) (nodeDns : NodeDnsConfig) (ns : String) : DnsPolicy → DnsLists
  | .clusterFirst => ⟨nodeDns.clusterDns,clusterSearches nodeDns ns,["ndots:5"]⟩
  | .clusterFirstWithHostNet => ⟨nodeDns.clusterDns,clusterSearches nodeDns ns,["ndots:5"]⟩
  | .default => parseResolvConf files nodeDns.resolvConfPath
  | .none => {}

/-- The overrides of the pod. -/
def override (lists : DnsLists) (podDns : DnsConfig) : DnsLists where
  nameservers := if podDns.nameservers ≠ [] then podDns.nameservers else lists.nameservers
  searches := if podDns.searches ≠ [] then podDns.searches else lists.searches
  options := podDns.options.foldl (fun options opt => options ++ [opt.text]) lists.options

/-- Resolve the DNS of a pod based on its policy. -/
def buildDnsConfig (files : TextFiles) (pod : DnsPod) (nodeDns : NodeDnsConfig) : DnsConfigSpec :=
  let effectivePolicy := (pod.dnsConfig.map (·.policy)).getD .clusterFirst
  let lists := policyLists files nodeDns pod.podRef.ns effectivePolicy
  let lists :=
    match pod.dnsConfig with
    | some podDns => override lists podDns
    | none => lists
  ⟨lists.nameservers.take 3,lists.searches.take 6,lists.options⟩

/-! ## What resolv.conf says -/

/-- The words behind a keyword, if the line begins with it. -/
def entry (keyword : String) (line : List Char) : Option (List String) :=
  ((keyword.toList ++ [' ']).isPrefixOf? (trimmed line)).map splitWhitespace

/-- The lines with a keyword. -/
def entries (keyword content : String) : List (List String) := (lines content).filterMap (entry keyword)

/-- The first word behind each `nameserver`, and all of those behind `search` and `options`. -/
def resolvConf (files : TextFiles) (path : String) : DnsLists :=
  let content := (files path).getD ""
  ⟨(entries "nameserver" content).filterMap List.head?,(entries "search" content).flatten,(entries "options" content).flatten⟩

/-- What a policy stands for on the node. -/
inductive Gives (files : TextFiles) (nodeDns : NodeDnsConfig) (ns : String) (policy : DnsPolicy) : DnsLists → Prop
  | cluster (h : policy = .clusterFirst ∨ policy = .clusterFirstWithHostNet) :
    Gives files nodeDns ns policy ⟨nodeDns.clusterDns,clusterSearches nodeDns ns,["ndots:5"]⟩
  | node (h : policy = .default)
    (hupstream : StubOnly (resolvConf files nodeDns.resolvConfPath).nameservers → (resolvConf files upstream).nameservers = []) :
    Gives files nodeDns ns policy (resolvConf files nodeDns.resolvConfPath)
  | upstream (h : policy = .default) (hstub : StubOnly (resolvConf files nodeDns.resolvConfPath).nameservers)
    (hne : (resolvConf files upstream).nameservers ≠ []) : Gives files nodeDns ns policy (resolvConf files upstream)
  | nothing (h : policy = .none) : Gives files nodeDns ns policy {}

/-! ## What reaches the sandbox -/

/-- What the pod says; ClusterFirst and no more if it says nothing. -/
def DnsPod.dns (pod : DnsPod) : DnsConfig := pod.dnsConfig.getD {}

/-- The name of an option, without its value. -/
def optionName (s : String) : String := String.ofList (s.toList.takeWhile (· ≠ ':'))

/-- The last option of a name, which is the one that counts. -/
def lastNamed (name : String) (options : List String) : Option String :=
  (options.filter (fun s => optionName s = name)).getLast?

/-- The list of the pod, or that of the policy if the pod has none. -/
def chosen (own given : List String) : List String := if own = [] then given else own

/-- The lists of the policy and those of the pod, put together. -/
structure Overridden (own : DnsConfig) (given : DnsLists) (result : DnsConfigSpec) : Prop where
  servers : result.servers <+: chosen own.nameservers given.nameservers
  servers_length : result.servers.length = min 3 (chosen own.nameservers given.nameservers).length
  searches : result.searches <+: chosen own.searches given.searches
  searches_length : result.searches.length = min 6 (chosen own.searches given.searches).length
  options : result.options = given.options ++ own.options.map DnsOption.text
  last : ∀ name, lastNamed name result.options =
    (lastNamed name (own.options.map DnsOption.text)).or (lastNamed name given.options)
  wins : (∀ opt ∈ own.options, ':' ∉ opt.name.toList) → ∀ name opt,
    (own.options.filter (fun opt => opt.name = name)).getLast? = some opt → lastNamed name result.options = some opt.text

/-- The lists of both without duplicates, and one option of each name. -/
structure Merged (own : DnsConfig) (given : DnsLists) (result : DnsConfigSpec) : Prop where
  servers : result.servers = (given.nameservers ++ own.nameservers).eraseDups.take 3
  searches : result.searches = (given.searches ++ own.searches).eraseDups.take 6
  nodup : (result.options.map optionName).Nodup
  last : ∀ name, lastNamed name result.options =
    (lastNamed name (own.options.map DnsOption.text)).or (lastNamed name given.options)

/-- On the host network, ClusterFirst is Default. -/
def DnsPod.hostPolicy (pod : DnsPod) : DnsPolicy :=
  if pod.hostNetwork = true ∧ pod.dns.policy = .clusterFirst then .default else pod.dns.policy

/-! ## The scanner -/

section Scanner
variable {keyword : String} {line : List Char} {ws : List String}

theorem isWhitespace_space : isWhitespace ' ' = true := by decide

theorem entry_eq_some : entry keyword line = some ws ↔
    ∃ rest, trimmed line = keyword.toList ++ ' ' :: rest ∧ splitWhitespace rest = ws := by
  unfold entry
  rw [Option.map_eq_some_iff]
  refine exists_congr fun rest => and_congr_left fun _ => ?_
  rw [List.isPrefixOf?_eq_some_iff_append_eq,List.append_assoc,List.singleton_append]
  exact eq_comm

/-- The first word of such a line is the keyword itself. -/
theorem splitWhitespace_keyword (hne : keyword.toList ≠ []) (hplain : keyword.toList.all (fun c => !isWhitespace c) = true)
    (rest : List Char) : splitWhitespace (keyword.toList ++ ' ' :: rest) = keyword :: splitWhitespace rest := by
  have hword : ∀ c ∈ keyword.toList, isWhitespace c = false := by simpa using hplain
  unfold splitWhitespace
  rw [words_append_cons hne hword isWhitespace_space,List.map_cons,String.ofList_toList]

/-- A line has one keyword. -/
theorem entry_other (other : String) (h : entry keyword line = some ws) (hne : keyword.toList ≠ []) (hother : other.toList ≠ [])
    (hfirst : keyword.toList.head? ≠ other.toList.head?) : entry other line = none := by
  cases hentry : entry other line with
  | none => rfl
  | some ws' =>
    obtain ⟨rest,hline,-⟩ := entry_eq_some.mp h
    obtain ⟨rest',hline',-⟩ := entry_eq_some.mp hentry
    have hhead := congrArg List.head? (hline.symm.trans hline')
    rw [List.head?_append_of_ne_nil _ hne,List.head?_append_of_ne_nil _ hother] at hhead
    exact absurd hhead hfirst

theorem startsWith_iff : keyword.toList ++ [' '] <+: trimmed line ↔ ∃ ws, entry keyword line = some ws := by
  constructor
  · rintro ⟨rest,hrest⟩
    exact ⟨splitWhitespace rest,entry_eq_some.mpr ⟨rest,by rw [← hrest,List.append_assoc,List.singleton_append],rfl⟩⟩
  · rintro ⟨ws,hws⟩
    obtain ⟨rest,hline,-⟩ := entry_eq_some.mp hws
    exact ⟨rest,by rw [hline,List.append_assoc,List.singleton_append]⟩

theorem splitWhitespace_line (h : entry keyword line = some ws) (hne : keyword.toList ≠ [])
    (hplain : keyword.toList.all (fun c => !isWhitespace c) = true) : splitWhitespace (trimmed line) = keyword :: ws := by
  obtain ⟨rest,hline,rfl⟩ := entry_eq_some.mp h
  rw [hline,splitWhitespace_keyword hne hplain]

theorem entry_eq_none (h : ¬ keyword.toList ++ [' '] <+: trimmed line) : entry keyword line = none :=
  Option.eq_none_iff_forall_ne_some.mpr fun ws hws => h (startsWith_iff.mpr ⟨ws,hws⟩)

/-- What a line adds to each list. -/
theorem readLine_eq (lists : DnsLists) (line : List Char) : readLine lists line =
    ⟨lists.nameservers ++ ((entry "nameserver" line).bind List.head?).toList,
      lists.searches ++ (entry "search" line).getD [],lists.options ++ (entry "options" line).getD []⟩ := by
  have hkeys : "nameserver ".toList = "nameserver".toList ++ [' '] ∧ "search ".toList = "search".toList ++ [' '] ∧
      "options ".toList = "options".toList ++ [' '] := by decide
  unfold readLine
  rw [hkeys.1,hkeys.2.1,hkeys.2.2]
  dsimp only
  split
  · next hname =>
    obtain ⟨ws,hws⟩ := startsWith_iff.mp hname
    rw [splitWhitespace_line hws (by decide) (by decide),hws,
      entry_other "search" hws (by decide) (by decide) (by decide),
      entry_other "options" hws (by decide) (by decide) (by decide)]
    cases ws with
    | nil => simp
    | cons w ws => simp
  · next hname =>
    rw [entry_eq_none hname]
    split
    · next hsearch =>
      obtain ⟨ws,hws⟩ := startsWith_iff.mp hsearch
      rw [splitWhitespace_line hws (by decide) (by decide),hws,
        entry_other "options" hws (by decide) (by decide) (by decide)]
      simp
    · next hsearch =>
      rw [entry_eq_none hsearch]
      split
      · next hoptions =>
        obtain ⟨ws,hws⟩ := startsWith_iff.mp hoptions
        rw [splitWhitespace_line hws (by decide) (by decide),hws]
        simp
      · next hoptions =>
        rw [entry_eq_none hoptions]
        simp

theorem foldl_readLine (lists : DnsLists) (ls : List (List Char)) : ls.foldl readLine lists =
    ⟨lists.nameservers ++ (ls.filterMap (entry "nameserver")).filterMap List.head?,
      lists.searches ++ (ls.filterMap (entry "search")).flatten,lists.options ++ (ls.filterMap (entry "options")).flatten⟩ := by
  induction ls generalizing lists with
  | nil => simp
  | cons line ls ih =>
    have hall : ∀ f : List Char → Option (List String),
        ((line :: ls).filterMap f).flatten = (f line).getD [] ++ (ls.filterMap f).flatten := by
      intro f
      cases h : f line <;> simp [h]
    have hfirst : ((line :: ls).filterMap (entry "nameserver")).filterMap List.head? =
        ((entry "nameserver" line).bind List.head?).toList ++ (ls.filterMap (entry "nameserver")).filterMap List.head? := by
      rw [List.filterMap_filterMap,List.filterMap_filterMap]
      cases h : (entry "nameserver" line).bind List.head? <;> simp [h]
    rw [List.foldl_cons,ih,readLine_eq,hall,hall,hfirst,List.append_assoc,List.append_assoc,List.append_assoc]

theorem parseResolvConfRaw_eq (files : TextFiles) (path : String) : parseResolvConfRaw files path = resolvConf files path := by
  unfold parseResolvConfRaw
  rw [foldl_readLine]
  rfl

end Scanner

/-! ## The policies -/

section Building
variable (files : TextFiles) (nodeDns : NodeDnsConfig)

theorem gives_policyLists (ns : String) (policy : DnsPolicy) :
    Gives files nodeDns ns policy (policyLists files nodeDns ns policy) := by
  cases policy with
  | clusterFirstWithHostNet => exact .cluster (.inr rfl)
  | clusterFirst => exact .cluster (.inl rfl)
  | none => exact .nothing rfl
  | default =>
    show Gives files nodeDns ns .default (parseResolvConf files nodeDns.resolvConfPath)
    unfold parseResolvConf
    dsimp only
    rw [parseResolvConfRaw_eq,parseResolvConfRaw_eq]
    split
    · next hstub =>
      split
      · next hne => exact .upstream rfl hstub hne
      · next hnil => exact .node rfl fun _ => not_not.mp hnil
    · next hstub => exact .node rfl fun h => absurd h hstub

/-! ## The pod and its policy -/

/-- The name of an option is the one the pod has it under. -/
theorem optionName_text {opt : DnsOption} (h : ':' ∉ opt.name.toList) : optionName opt.text = opt.name := by
  have hname : ∀ c ∈ opt.name.toList, decide (c ≠ ':') = true := by
    intro c hc
    exact decide_eq_true (ne_of_mem_of_not_mem hc h)
  unfold optionName DnsOption.text
  split
  · rw [String.toList_append,String.toList_append,List.append_assoc,List.takeWhile_append_of_pos hname]
    simp
  · rw [List.takeWhile_eq_self_iff.mpr hname,String.ofList_toList]

/-- Of the pod's options with a name, the last one counts. -/
theorem lastNamed_text {own : List DnsOption} (h : ∀ opt ∈ own, ':' ∉ opt.name.toList) (name : String) :
    lastNamed name (own.map DnsOption.text) = (own.filter (fun opt => opt.name = name)).getLast?.map DnsOption.text := by
  have hnames : own.filter (fun opt => optionName opt.text = name) = own.filter (fun opt => opt.name = name) :=
    List.filter_congr fun opt hopt => by rw [optionName_text (h opt hopt)]
  unfold lastNamed
  rw [List.filter_map,List.getLast?_map]
  exact congrArg (fun l => (List.getLast? l).map DnsOption.text) hnames

theorem lastNamed_append (name : String) (l l' : List String) :
    lastNamed name (l ++ l') = (lastNamed name l').or (lastNamed name l) := by
  unfold lastNamed
  rw [List.filter_append,List.getLast?_append]

theorem foldl_push (options : List String) (own : List DnsOption) :
    own.foldl (fun options opt => options ++ [opt.text]) options = options ++ own.map DnsOption.text := by
  induction own generalizing options with
  | nil => simp
  | cons opt own ih =>
    rw [List.foldl_cons,ih,List.map_cons,List.append_assoc,List.singleton_append]

theorem override_eq (lists : DnsLists) (own : DnsConfig) : override lists own =
    ⟨chosen own.nameservers lists.nameservers,chosen own.searches lists.searches,lists.options ++ own.options.map DnsOption.text⟩ := by
  unfold override chosen
  rw [foldl_push]
  simp only [ne_eq,ite_not]

/-- Building is choosing the lists of the policy, overriding them and cutting them. -/
theorem buildDnsConfig_eq (pod : DnsPod) : buildDnsConfig files pod nodeDns =
    let lists := override (policyLists files nodeDns pod.podRef.ns pod.dns.policy) pod.dns
    ⟨lists.nameservers.take 3,lists.searches.take 6,lists.options⟩ := by
  unfold buildDnsConfig DnsPod.dns
  cases pod.dnsConfig with
  | none => rfl
  | some podDns => rfl

theorem overridden_override (given : DnsLists) (own : DnsConfig) :
    Overridden own given ⟨(override given own).nameservers.take 3,(override given own).searches.take 6,(override given own).options⟩ := by
  rw [override_eq]
  exact {
    servers := List.take_prefix 3 _
    servers_length := List.length_take
    searches := List.take_prefix 6 _
    searches_length := List.length_take
    options := rfl
    last := fun name => lastNamed_append name _ _
    wins := fun hplain name opt hopt => by rw [lastNamed_append,lastNamed_text hplain,hopt,Option.map_some,Option.some_or] }

/-- The lists of the policy, with those that the pod has in their place and its options after them. -/
theorem buildDnsConfig_overridden (pod : DnsPod) : ∃ given,
    Gives files nodeDns pod.podRef.ns pod.dns.policy given ∧ Overridden pod.dns given (buildDnsConfig files pod nodeDns) := by
  refine ⟨policyLists files nodeDns pod.podRef.ns pod.dns.policy,gives_policyLists _ _ _ _,?_⟩
  rw [buildDnsConfig_eq]
  exact overridden_override _ _

end Building

/-! ## Lists that are not merged -/

/-- The policy's lists with the pod's appended, where the host network makes ClusterFirst Default. -/
def ReturnsMerged (files : TextFiles) (nodeDns : NodeDnsConfig) (pod : DnsPod) : Prop :=
  ∃ given, Gives files nodeDns pod.podRef.ns pod.hostPolicy given ∧ Merged pod.dns given (buildDnsConfig files pod nodeDns)

theorem Gives.eq_cluster {files : TextFiles} {nodeDns : NodeDnsConfig} {ns : String} {given : DnsLists}
    (h : Gives files nodeDns ns .clusterFirst given) : given = ⟨nodeDns.clusterDns,clusterSearches nodeDns ns,["ndots:5"]⟩ := by
  cases h with
  | cluster h => rfl
  | node h => cases h
  | upstream h => cases h
  | nothing h => cases h

/-- A node without any of the files. -/
def noFiles : TextFiles := fun _ => none

theorem Gives.eq_nil {nodeDns : NodeDnsConfig} {ns : String} {given : DnsLists}
    (h : Gives noFiles nodeDns ns .default given) : given = {} := by
  cases h with
  | cluster h => exact absurd h (by decide)
  | node h => rfl
  | upstream h => rfl
  | nothing h => cases h

def webPod (dns : DnsConfig) : DnsPod := { uid := ⟨"u"⟩, podRef := ⟨"default","web"⟩, dnsConfig := some dns }

/-- A nameserver of the pod takes the place of the policy's, a pod on the host network keeps the
cluster's, and an option that the pod sets is there twice. -/
theorem overridden_not_merged : ¬ ReturnsMerged noFiles {} (webPod { nameservers := ["8.8.8.8"] }) ∧
    ¬ ReturnsMerged noFiles {} { webPod {} with hostNetwork := true } ∧
    ¬ ReturnsMerged noFiles {} (webPod { options := [⟨"ndots",some "2"⟩] }) := by
  refine ⟨?_,?_,?_⟩
  · rintro ⟨given,hgives,hmerged⟩
    have hservers := hmerged.servers
    rw [Gives.eq_cluster hgives] at hservers
    exact absurd hservers (by decide)
  · rintro ⟨given,hgives,hmerged⟩
    have hservers := hmerged.servers
    rw [Gives.eq_nil hgives] at hservers
    exact absurd hservers (by decide)
  · rintro ⟨given,-,hmerged⟩
    exact absurd hmerged.nodup (by decide)

end KubeAir.Worker.SandboxDns
