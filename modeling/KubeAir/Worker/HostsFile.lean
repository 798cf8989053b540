import KubeAir.Core.Pod
import KubeAir.Wire.HostTable
import Mathlib.Logic.Function.Basic

/-! # The hosts file of a pod

It is written for every container that does not bring its own, and mounted there. A reader finds the
names of the node or of the loopback first, then the pod and then its aliases.
-/
namespace KubeAir.Worker.HostsFile
open Core Wire
open HostEntry (table lookup table_line table_lines lookup_append read_back_iff)

/-- A pod with `spec.subdomain`. -/
structure HostsPod extends PodSpec where
  subdomain : Option String := none

/-- What the file system answers; a write that fails may have left a part of the file. -/
structure HostsIo where
  createDirAll : String → Except String Unit
  readToString : String → Except String String
  write : String → Except String Unit
  torn : Option String

abbrev HostFiles := String → Option String

/-! ## The text -/

/-- The line for the address of the pod. -/
def podLine (pod : HostsPod) (podIp : Option String) : String :=
  match podIp.filter (· ≠ "") with
  | none => ""
  | some ip =>
    let hostname := pod.effectiveHostname
    match pod.subdomain.filter (· ≠ "") with
    | some subdomain =>
      let domain := subdomain ++ "." ++ pod.podRef.ns ++ ".svc.cluster.local"
      ip ++ "\t" ++ hostname ++ "." ++ domain ++ "\t" ++ hostname ++ "\n"
    | none => ip ++ "\t" ++ hostname ++ "\n"

def managedHeader : String :=
  "# Kubernetes-managed hosts file.\n" ++
  "127.0.0.1\tlocalhost\n" ++
  "::1\tlocalhost ip6-localhost ip6-loopback\n" ++
  "fe00::0\tip6-localnet\n" ++
  "fe00::0\tip6-mcastprefix\n" ++
  "fe00::1\tip6-allnodes\n" ++
  "fe00::2\tip6-allrouters\n"

/-- The file before the aliases. -/
def baseHosts (io : HostsIo) (pod : HostsPod) (podIp : Option String) : String :=
  if pod.hostNetwork then
    "# Kubernetes-managed hosts file (host network).\n" ++ (io.readToString "/etc/hosts").toOption.getD ""
  else managedHeader ++ podLine pod podIp

def addAlias (content : String) (ha : HostAlias) : String :=
  if ha.ip ≠ "" ∧ ha.hostnames ≠ [] then content ++ (ha.ip ++ "\t" ++ "\t".intercalate ha.hostnames ++ "\n") else content

def hostsContent (io : HostsIo) (pod : HostsPod) (podIp : Option String) : String :=
  if pod.hostAliases ≠ [] then
    pod.hostAliases.foldl addAlias (baseHosts io pod podIp ++ "\n" ++ "# Entries added by HostAliases.\n")
  else baseHosts io pod podIp

/-! ## The file -/

/-- `write_etc_hosts_file` -/
def writeEtcHostsFile (rootDir : String) (io : HostsIo) (files : HostFiles) (pod : HostsPod) (podIp : Option String) :
    Except String String × HostFiles :=
  let podDir := rootDir ++ "/pods/" ++ pod.uid.val
  match io.createDirAll podDir with
  | .error e => (.error e,files)
  | .ok _ =>
    let hostsPath := podDir ++ "/etc-hosts"
    match io.write hostsPath with
    | .error e => (.error e,Function.update files hostsPath io.torn)
    | .ok _ => (.ok hostsPath,Function.update files hostsPath (some (hostsContent io pod podIp)))

/-- The mounts of a container, with that of the file unless there is one or the pod has the network of the
node; a file that cannot be written is only logged. -/
def mountHosts (rootDir : String) (io : HostsIo) (files : HostFiles) (pod : HostsPod) (podIp : Option String)
    (mounts : List VolumeMount) : List VolumeMount × HostFiles :=
  let hasCustomHostsMount := mounts.any (·.mountPath = "/etc/hosts")
  if ¬ hasCustomHostsMount ∧ ¬ pod.hostNetwork then
    match writeEtcHostsFile rootDir io files pod podIp with
    | (.ok hostsPath,files') =>
      (mounts ++ [{ name := "k8s-managed-etc-hosts", mountPath := "/etc/hosts", subPath := some hostsPath, readOnly := false }],files')
    | (.error _,files') => (mounts,files')
  else (mounts,files)

/-! ## What a reader finds -/

def localHosts : List HostEntry := [⟨"127.0.0.1",["localhost"]⟩,⟨"::1",["localhost","ip6-localhost","ip6-loopback"]⟩,
  ⟨"fe00::0",["ip6-localnet"]⟩,⟨"fe00::0",["ip6-mcastprefix"]⟩,⟨"fe00::1",["ip6-allnodes"]⟩,⟨"fe00::2",["ip6-allrouters"]⟩]

/-- The names of a pod: the full one if it has a subdomain, and its hostname. -/
def podNames (pod : HostsPod) : List String :=
  ((pod.subdomain.filter (· ≠ "")).map fun subdomain =>
    pod.effectiveHostname ++ "." ++ (subdomain ++ "." ++ pod.podRef.ns ++ ".svc.cluster.local")).toList ++ [pod.effectiveHostname]

def podHosts (pod : HostsPod) (podIp : Option String) : List HostEntry :=
  ((podIp.filter (· ≠ "")).map fun ip => ⟨ip,podNames pod⟩).toList

def aliasHosts (pod : HostsPod) : List HostEntry :=
  (pod.hostAliases.filter fun ha => ha.ip ≠ "" ∧ ha.hostnames ≠ []).map fun ha => ⟨ha.ip,ha.hostnames⟩

/-- What comes first, whatever the pod says. -/
def firstHosts (io : HostsIo) (pod : HostsPod) : List HostEntry :=
  if pod.hostNetwork then table ((io.readToString "/etc/hosts").toOption.getD "").toList else localHosts

/-- What the pod adds to it. -/
def ownHosts (pod : HostsPod) (podIp : Option String) : List HostEntry :=
  (if pod.hostNetwork then [] else podHosts pod podIp) ++ aliasHosts pod

section Reading
variable {io : HostsIo} {pod : HostsPod} {podIp : Option String}

theorem podLine_eq : (podLine pod podIp).toList = (podHosts pod podIp).flatMap fun e => e.line ++ ['\n'] := by
  unfold podLine podHosts podNames
  cases podIp.filter (· ≠ "") with
  | none => rfl
  | some ip =>
    cases pod.subdomain.filter (· ≠ "") with
    | none => simp [HostEntry.line]
    | some subdomain => simp [HostEntry.line]

theorem foldl_addAlias (aliases : List HostAlias) (content : String) : (aliases.foldl addAlias content).toList =
    content.toList ++ ((aliases.filter fun ha => ha.ip ≠ "" ∧ ha.hostnames ≠ []).map
      fun ha => (⟨ha.ip,ha.hostnames⟩ : HostEntry)).flatMap fun e => e.line ++ ['\n'] := by
  induction aliases generalizing content with
  | nil => simp
  | cons ha aliases ih =>
    rw [List.foldl_cons,ih,addAlias,List.filter_cons]
    by_cases h : ha.ip ≠ "" ∧ ha.hostnames ≠ []
    · obtain ⟨name,names,hnames⟩ := List.exists_cons_of_ne_nil h.2
      simp only [if_pos h,decide_eq_true h,if_true]
      simp [HostEntry.line,String.toList_intercalate,hnames]
    · simp only [if_neg h,decide_eq_false h]
      simp

theorem table_lines_of (es : List HostEntry) : table (es.flatMap fun e => e.line ++ ['\n']) = es.flatMap fun e => table e.line := by
  have hlines := table_lines (es.map HostEntry.line)
  rwa [List.flatMap_map,List.flatMap_map] at hlines

/-- The header ends with a whole line. -/
theorem table_managedHeader (rest : List Char) : table (managedHeader.toList ++ rest) = localHosts ++ table rest := by
  obtain ⟨s,hs,hlocal⟩ : ∃ s, managedHeader.toList = s ++ ['\n'] ∧ table s = localHosts :=
    ⟨managedHeader.toList.dropLast,by decide +kernel,by decide +kernel⟩
  rw [hs,List.append_assoc,List.singleton_append,table_line,hlocal]

theorem table_baseHosts : table (baseHosts io pod podIp).toList =
    firstHosts io pod ++ (if pod.hostNetwork then [] else podHosts pod podIp).flatMap fun e => table e.line := by
  unfold baseHosts firstHosts
  cases pod.hostNetwork with
  | true =>
    have hheader : "# Kubernetes-managed hosts file (host network).\n".toList =
        "# Kubernetes-managed hosts file (host network).".toList ++ ['\n'] := by decide +kernel
    have hcomment : table "# Kubernetes-managed hosts file (host network).".toList = [] := by decide +kernel
    simp only [if_true,String.toList_append]
    rw [hheader,List.append_assoc,List.singleton_append,table_line,hcomment]
    simp
  | false =>
    simp only [Bool.false_eq_true,if_false,String.toList_append]
    rw [table_managedHeader,podLine_eq,table_lines_of]

/-- The entries of the file are those of the node or of the loopback, and then those that the lines of the
pod have. -/
theorem table_hostsContent : table (hostsContent io pod podIp).toList =
    firstHosts io pod ++ (ownHosts pod podIp).flatMap fun e => table e.line := by
  have hheader : "# Entries added by HostAliases.\n".toList = "# Entries added by HostAliases.".toList ++ ['\n'] := by decide +kernel
  have hcomment : table "# Entries added by HostAliases.".toList = [] := by decide +kernel
  have hnewline : "\n".toList = ['\n'] := by decide +kernel
  rw [ownHosts,List.flatMap_append,← List.append_assoc,← table_baseHosts]
  unfold hostsContent
  by_cases h : pod.hostAliases = []
  · simp [h,aliasHosts]
  · rw [if_pos h,foldl_addAlias,String.toList_append,String.toList_append,hnewline,hheader]
    simp only [List.append_assoc,List.cons_append,List.nil_append]
    rw [table_line,table_line,hcomment,List.nil_append,table_lines_of,aliasHosts]

/-- Aliases take no name away from the entries before them. -/
theorem lookup_hostsContent (name : String) : lookup (table (hostsContent io pod podIp).toList) name =
    (lookup (table (hostsContent io { pod with hostAliases := [] } podIp).toList) name).or
      (lookup ((aliasHosts pod).flatMap fun e => table e.line) name) := by
  have hfirst : firstHosts io { pod with hostAliases := [] } = firstHosts io pod := rfl
  have hown : ownHosts pod podIp = ownHosts { pod with hostAliases := [] } podIp ++ aliasHosts pod := by
    unfold ownHosts
    simp only [aliasHosts,List.filter_nil,List.map_nil,List.append_nil]
    rfl
  rw [table_hostsContent,table_hostsContent,hown,hfirst,List.flatMap_append,← List.append_assoc,lookup_append]

end Reading

/-! ## What a container gets -/

section Mounting
variable (rootDir : String) (io : HostsIo) (files : HostFiles) (pod : HostsPod) (podIp : Option String) (mounts : List VolumeMount)

/-- The place of the file. -/
def hostsPath : String := rootDir ++ "/pods/" ++ pod.uid.val ++ "/etc-hosts"

def hostsMount : VolumeMount :=
  { name := "k8s-managed-etc-hosts", mountPath := "/etc/hosts", subPath := some (hostsPath rootDir pod), readOnly := false }

theorem writeEtcHostsFile_cases : (∃ e left, writeEtcHostsFile rootDir io files pod podIp = (.error e,left) ∧
      ∀ path ≠ hostsPath rootDir pod, left path = files path) ∨
    writeEtcHostsFile rootDir io files pod podIp =
      (.ok (hostsPath rootDir pod),Function.update files (hostsPath rootDir pod) (some (hostsContent io pod podIp))) := by
  cases hdir : io.createDirAll (rootDir ++ "/pods/" ++ pod.uid.val) with
  | error e => exact .inl ⟨e,files,by simp [writeEtcHostsFile,hdir],fun _ _ => rfl⟩
  | ok _ =>
    cases hwrite : io.write (hostsPath rootDir pod) with
    | error e =>
      refine .inl ⟨e,Function.update files (hostsPath rootDir pod) io.torn,?_,fun path hpath => Function.update_of_ne hpath _ _⟩
      unfold hostsPath at hwrite ⊢
      simp [writeEtcHostsFile,hdir,hwrite]
    | ok _ =>
      refine .inr ?_
      unfold hostsPath at hwrite ⊢
      simp [writeEtcHostsFile,hdir,hwrite]

/-- A container gets the file just where it has none of its own and the pod a network of its own. -/
theorem mountHosts_cases : ((mountHosts rootDir io files pod podIp mounts).1 = mounts ∨
      pod.hostNetwork = false ∧ (∀ m ∈ mounts, m.mountPath ≠ "/etc/hosts") ∧
      (mountHosts rootDir io files pod podIp mounts).1 = mounts ++ [hostsMount rootDir pod] ∧
      (mountHosts rootDir io files pod podIp mounts).2 (hostsPath rootDir pod) = some (hostsContent io pod podIp)) ∧
    ∀ path ≠ hostsPath rootDir pod, (mountHosts rootDir io files pod podIp mounts).2 path = files path := by
  unfold mountHosts
  dsimp only
  split
  · next hmount =>
    obtain ⟨hcustom,hnetwork⟩ := hmount
    rcases writeEtcHostsFile_cases rootDir io files pod podIp with ⟨e,left,heq,hleft⟩ | heq
    · rw [heq]
      exact ⟨.inl rfl,hleft⟩
    · rw [heq]
      refine ⟨.inr ⟨by simpa using hnetwork,?_,rfl,Function.update_self _ _ _⟩,fun path hpath => Function.update_of_ne hpath _ _⟩
      intro m hm hpath
      exact hcustom (List.any_eq_true.mpr ⟨m,hm,decide_eq_true hpath⟩)
  · exact ⟨.inl rfl,fun _ _ => rfl⟩

/-- A container gets one mount at most, and of a file with the entries of its pod: they are read back just
when they are made of words, and whatever the aliases are, they take no name away from the entries before
them. No other file is touched. -/
theorem hosts_read_back :
    (table (hostsContent io pod podIp).toList = firstHosts io pod ++ ownHosts pod podIp ↔ ∀ e ∈ ownHosts pod podIp, e.WellFormed) ∧
    (∀ name address, lookup (table (hostsContent io { pod with hostAliases := [] } podIp).toList) name = some address →
      lookup (table (hostsContent io pod podIp).toList) name = some address) ∧
    ((mountHosts rootDir io files pod podIp mounts).1 = mounts ∨
      pod.hostNetwork = false ∧ (∀ m ∈ mounts, m.mountPath ≠ "/etc/hosts") ∧
      (mountHosts rootDir io files pod podIp mounts).1 = mounts ++ [hostsMount rootDir pod] ∧
      (mountHosts rootDir io files pod podIp mounts).2 (hostsPath rootDir pod) = some (hostsContent io pod podIp)) ∧
    ∀ path ≠ hostsPath rootDir pod, (mountHosts rootDir io files pod podIp mounts).2 path = files path := by
  refine ⟨?_,?_,mountHosts_cases rootDir io files pod podIp mounts⟩
  · rw [table_hostsContent,List.append_cancel_left_eq]
    exact read_back_iff _
  · intro name address h
    rw [lookup_hostsContent,h]
    rfl

end Mounting
end KubeAir.Worker.HostsFile
