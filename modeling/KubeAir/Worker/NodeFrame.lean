import KubeAir.Worker.Node
import Mathlib.Logic.Relation

/-! # What a call can change

Only four calls touch the containers of the runtime; between the calls containers exit.
-/
namespace KubeAir.Worker
open Core Transition

/-- Calls that create, start or remove no container. -/
def Request.Passive : Request → Prop
  | .createContainer _ => False
  | .startContainer _ => False
  | .removeContainer _ => False
  | .removePodSandbox _ => False
  | _ => True

/-- Calls that start no container. -/
def Request.StartsNothing : Request → Prop
  | .startContainer _ => False
  | _ => True

theorem Request.Passive.startsNothing {op : Request} (h : op.Passive) : op.StartsNothing := by
  cases op with
  | startContainer id => exact h
  | _ => trivial

namespace Node
variable {w w' : Node} {c : Choice}

theorem commit_cases {may : Bool} {next : Node} {a : Except KubeletError Unit}
    (h : w.commit may next c = some (a,w')) :
    (may = true ∧ a = .ok () ∧ w' = next) ∨ (∃ e, c = .fault e ∧ a = .error e) ∧ w' = w := by
  cases c with
  | accept =>
    obtain ⟨hmay,hnext⟩ := Option.ite_none_right_eq_some.mp h
    obtain ⟨rfl,rfl⟩ := Prod.mk.inj (Option.some.inj hnext)
    exact .inl ⟨hmay,rfl,rfl⟩
  | fault e =>
    obtain ⟨rfl,rfl⟩ := Prod.mk.inj (Option.some.inj h)
    exact .inr ⟨⟨e,rfl,rfl⟩,rfl⟩
  | _ => cases h

theorem commit_keep {may : Bool} {a : Except KubeletError Unit} (h : w.commit may w c = some (a,w')) : w' = w := by
  rcases commit_cases h with ⟨-,-,rfl⟩ | ⟨-,rfl⟩ <;> rfl

theorem read_cases {α : Type} {v : α} {a : Except KubeletError α} (h : w.read v c = some (a,w')) :
    w' = w ∧ (a = .ok v ∨ ∃ e, c = .fault e ∧ a = .error e) := by
  cases c with
  | accept =>
    obtain ⟨rfl,rfl⟩ := Prod.mk.inj (Option.some.inj h)
    exact ⟨rfl,.inl rfl⟩
  | fault e =>
    obtain ⟨rfl,rfl⟩ := Prod.mk.inj (Option.some.inj h)
    exact ⟨rfl,.inr ⟨e,rfl,rfl⟩⟩
  | _ => cases h

/-- The containers and the log are as before. -/
def SameContainers (w w' : Node) : Prop := w'.containers = w.containers ∧ w'.log = w.log

theorem respond_passive {op : Request} (hop : op.Passive) {a : op.Answer}
    (h : w.respond op c = some (a,w')) : SameContainers w w' := by
  have hself : SameContainers w w := ⟨rfl,rfl⟩
  have hcommit {may : Bool} {a : Except KubeletError Unit} (h : w.commit may w c = some (a,w')) :
      SameContainers w w' := by
    rw [commit_keep h]
    exact hself
  unfold respond at h
  cases op with
  | createContainer | startContainer | removeContainer | removePodSandbox => exact hop.elim
  | ensurePodVolumes | unmountPodVolumes | stopContainer | updateContainerResources | runPostStart
  | reportPodStatus => exact hcommit h
  | podSandboxStatus | containerStatus =>
    rw [(read_cases h).1]
    exact hself
  | stopPodSandbox id =>
    rcases commit_cases h with ⟨-,-,rfl⟩ | ⟨-,rfl⟩
    · exact hself
    · exact hself
  | sleep | pause | runPreStop | getStatus | setStatus | forgetProbes | spawnProbe =>
    obtain ⟨-,rfl⟩ := Prod.mk.inj (Option.some.inj h)
    exact hself
  | now | instant | runPodSandbox | listPodSandboxes | listContainers | ensureImage | prepareContainer
  | containerStartupDone | containerReadiness | readTerminationMessage =>
    cases c <;> grind [SameContainers]

theorem respond_createContainer {config : CreateContainerConfig} {a : Except KubeletError String}
    (h : w.respond (.createContainer config) c = some (a,w')) :
    (∃ id, a = .ok id ∧ w.containers.lookup id = none ∧ w' = w.put id (newRecord config)) ∨
      ∃ e, a = .error e ∧ w' = w ∧ w.reservedHonestly config e = true := by
  unfold respond at h
  cases c with
  | named id =>
    obtain ⟨hfresh,hw⟩ := Option.ite_none_right_eq_some.mp h
    obtain ⟨rfl,rfl⟩ := Prod.mk.inj (Option.some.inj hw)
    exact .inl ⟨id,rfl,hfresh,rfl⟩
  | fault e =>
    obtain ⟨hhonest,hw⟩ := Option.ite_none_right_eq_some.mp h
    obtain ⟨rfl,rfl⟩ := Prod.mk.inj (Option.some.inj hw)
    exact .inr ⟨e,rfl,rfl,hhonest⟩
  | _ => cases h

theorem respond_startContainer {id : String} {a : Except KubeletError Unit}
    (h : w.respond (.startContainer id) c = some (a,w')) :
    (∃ r, w.containers.lookup id = some r ∧ r.state = .created ∧ a = .ok () ∧ w' = w.start id r) ∨
      ∃ e, a = .error e ∧ w' = w := by
  unfold respond at h
  dsimp only at h
  split at h
  · next r hr =>
    rcases commit_cases h with ⟨hmay,rfl,rfl⟩ | ⟨⟨e,-,rfl⟩,rfl⟩
    · exact .inl ⟨r,hr,by simpa using hmay,rfl,rfl⟩
    · exact .inr ⟨e,rfl,rfl⟩
  · rcases commit_cases h with ⟨hmay,-,-⟩ | ⟨⟨e,-,rfl⟩,rfl⟩
    · cases hmay
    · exact .inr ⟨e,rfl,rfl⟩

theorem respond_removeContainer {id : String} {a : Except KubeletError Unit}
    (h : w.respond (.removeContainer id) c = some (a,w')) : w' = w.drop id ∨ w' = w := by
  rcases commit_cases h with ⟨-,-,rfl⟩ | ⟨-,rfl⟩
  · exact .inl rfl
  · exact .inr rfl

theorem respond_containerStatus {site : StatusSite} {id : String}
    {a : Except KubeletError (Option RuntimeContainer)}
    (h : w.respond (.containerStatus site id) c = some (a,w')) :
    w' = w ∧ (a = .ok ((w.containers.lookup id).map (ContainerRecord.observed id)) ∨
      ∃ e, c = .fault e ∧ a = .error e) :=
  read_cases h

theorem respond_listContainers {site : ListSite} {a : Except KubeletError (List RuntimeContainer)}
    (h : w.respond (.listContainers site) c = some (a,w')) : w' = w ∧
    ((∃ ids : List String, c = .listed ids ∧ ids.Perm w.containers.keys ∧ a = .ok (ids.filterMap
        (fun id => (w.containers.lookup id).map (ContainerRecord.listed id)))) ∨
      ∃ e, c = .fault e ∧ a = .error e) := by
  unfold respond at h
  cases c with
  | listed ids =>
    obtain ⟨hperm,hw⟩ := Option.ite_none_right_eq_some.mp h
    obtain ⟨rfl,rfl⟩ := Prod.mk.inj (Option.some.inj hw)
    exact ⟨rfl,.inl ⟨ids,rfl,hperm,rfl⟩⟩
  | fault e =>
    obtain ⟨rfl,rfl⟩ := Prod.mk.inj (Option.some.inj h)
    exact ⟨rfl,.inr ⟨e,rfl,rfl⟩⟩
  | _ => cases h

/-- Only a start and nothing else a call does is logged. -/
theorem respond_log {op : Request} {a : op.Answer} (h : w.respond op c = some (a,w')) :
    w'.log = w.log ∨ ∃ id r, op = .startContainer id ∧ w.containers.lookup id = some r ∧
      w'.log = .started r.podUid r.sandboxId r.name :: w.log := by
  by_cases hop : op.Passive
  · exact .inl (respond_passive hop h).2
  · cases op with
    | createContainer config =>
      rcases respond_createContainer h with ⟨id,-,-,rfl⟩ | ⟨e,-,rfl,-⟩
      · exact .inl rfl
      · exact .inl rfl
    | startContainer id =>
      rcases respond_startContainer h with ⟨r,hr,-,-,rfl⟩ | ⟨e,-,rfl⟩
      · exact .inr ⟨id,r,rfl,hr,rfl⟩
      · exact .inl rfl
    | removeContainer id =>
      rcases respond_removeContainer h with rfl | rfl
      · exact .inl rfl
      · exact .inl rfl
    | removePodSandbox id =>
      rcases commit_cases h with ⟨-,-,rfl⟩ | ⟨-,rfl⟩
      · exact .inl rfl
      · exact .inl rfl
    | _ => exact (hop trivial).elim

/-! ## Lost answers -/

/-- Lost or not, the answer is given to a call that the runtime has answered. -/
theorem settle_cases {op : Request} {o : Outcome} {a : op.Answer} (h : w.settle op o = some (a,w')) :
    (∃ c, o = .reply c ∧ w.respond op c = some (a,w')) ∨
      ∃ c e a', o = .lost c e ∧ w.respond op c = some (a',w') ∧ op.failure e = some a := by
  cases o with
  | reply c => exact .inl ⟨c,rfl,h⟩
  | lost c e =>
    obtain ⟨⟨a',w₁⟩,hrespond,hlost⟩ := Option.bind_eq_some_iff.mp h
    obtain ⟨b,hfailure,hpair⟩ := Option.map_eq_some_iff.mp hlost
    obtain ⟨rfl,rfl⟩ := Prod.mk.inj hpair
    exact .inr ⟨c,e,a',rfl,hrespond,hfailure⟩

/-- What a call leaves does not depend on whether its answer is lost. -/
theorem respond_of_settle {op : Request} {o : Outcome} {a : op.Answer} (h : w.settle op o = some (a,w')) :
    ∃ c a', w.respond op c = some (a',w') := by
  rcases settle_cases h with ⟨c,-,hrespond⟩ | ⟨c,e,a',-,hrespond,-⟩
  · exact ⟨c,a,hrespond⟩
  · exact ⟨c,a',hrespond⟩

theorem settle_createContainer {config : CreateContainerConfig} {o : Outcome} {id : String}
    (h : w.settle (.createContainer config) o = some (.ok id,w')) :
    w.containers.lookup id = none ∧ w' = w.put id (newRecord config) := by
  rcases settle_cases h with ⟨c,-,hrespond⟩ | ⟨c,e,a',-,-,hfailure⟩
  · rcases respond_createContainer hrespond with ⟨id',heq,hfresh,hw⟩ | ⟨e,heq,-⟩
    · obtain rfl := Except.ok.inj heq
      exact ⟨hfresh,hw⟩
    · cases heq
  · cases Option.some.inj hfailure

/-- A start takes effect, whether or not the worker is told, or it does not. -/
theorem settle_startContainer {id : String} {o : Outcome} {a : Except KubeletError Unit}
    (h : w.settle (.startContainer id) o = some (a,w')) :
    (∃ r, w.containers.lookup id = some r ∧ w' = w.start id r ∧
      (a = .ok () ∨ ∃ e c e', a = .error e ∧ o = .lost c e')) ∨ ∃ e, a = .error e ∧ w' = w := by
  rcases settle_cases h with ⟨c,rfl,hrespond⟩ | ⟨c,e,a',rfl,hrespond,hfailure⟩
  · rcases respond_startContainer hrespond with ⟨r,hr,-,ha,hw⟩ | ⟨e,ha,hw⟩
    · exact .inl ⟨r,hr,hw,.inl ha⟩
    · exact .inr ⟨e,ha,hw⟩
  · obtain rfl := Option.some.inj hfailure
    rcases respond_startContainer hrespond with ⟨r,hr,-,-,hw⟩ | ⟨e',-,hw⟩
    · exact .inl ⟨r,hr,hw,.inr ⟨e,c,e,rfl,rfl⟩⟩
    · exact .inr ⟨e,rfl,hw⟩

/-- A removal takes effect, or the call fails. -/
theorem settle_removeContainer {id : String} {o : Outcome} {a : Except KubeletError Unit}
    (h : w.settle (.removeContainer id) o = some (a,w')) : w' = w.drop id ∨ w' = w ∧ o.fails = true := by
  rcases settle_cases h with ⟨c,rfl,hrespond⟩ | ⟨c,e,a',rfl,hrespond,-⟩
  · rcases commit_cases hrespond with ⟨-,-,hw⟩ | ⟨⟨e,rfl,-⟩,hw⟩
    · exact .inl hw
    · exact .inr ⟨hw,rfl⟩
  · rcases commit_cases hrespond with ⟨-,-,hw⟩ | ⟨⟨e',rfl,-⟩,hw⟩
    · exact .inl hw
    · exact .inr ⟨hw,rfl⟩

/-- A running container is not stopped unless the call fails. -/
theorem settle_stopContainer {id : String} {timeout : ℕ} {o : Outcome} {a : Except KubeletError Unit}
    (h : w.settle (.stopContainer id timeout) o = some (a,w')) : w.isRunning id = false ∨ o.fails = true := by
  rcases settle_cases h with ⟨c,rfl,hrespond⟩ | ⟨c,e,a',rfl,hrespond,-⟩
  · rcases commit_cases hrespond with ⟨hmay,-,-⟩ | ⟨⟨e,rfl,-⟩,-⟩
    · exact .inl (by simpa using hmay)
    · exact .inr rfl
  · rcases commit_cases hrespond with ⟨hmay,-,-⟩ | ⟨⟨e',rfl,-⟩,-⟩
    · exact .inl (by simpa using hmay)
    · exact .inr rfl

theorem settle_runPostStart {handler : LifecycleHandler} {id name : String} {o : Outcome} {e : KubeletError}
    (h : w.settle (.runPostStart handler id name) o = some (.error e,w')) : o.errs = true := by
  rcases settle_cases h with ⟨c,rfl,hrespond⟩ | ⟨c,e,a',rfl,-,-⟩
  · rcases commit_cases hrespond with ⟨-,heq,-⟩ | ⟨⟨e,rfl,-⟩,-⟩
    · cases heq
    · rfl
  · rfl

theorem settle_containerStatus {site : StatusSite} {id : String} {o : Outcome}
    {a : Except KubeletError (Option RuntimeContainer)}
    (h : w.settle (.containerStatus site id) o = some (a,w')) :
    w' = w ∧ (a = .ok ((w.containers.lookup id).map (ContainerRecord.observed id)) ∨
      (∃ e, a = .error e) ∧ o.errs = true) := by
  rcases settle_cases h with ⟨c,rfl,hrespond⟩ | ⟨c,e,a',rfl,hrespond,hfailure⟩
  · obtain ⟨hw,ha | ⟨e,rfl,ha⟩⟩ := respond_containerStatus hrespond
    · exact ⟨hw,.inl ha⟩
    · exact ⟨hw,.inr ⟨⟨e,ha⟩,rfl⟩⟩
  · obtain rfl := Option.some.inj hfailure
    exact ⟨(respond_containerStatus hrespond).1,.inr ⟨⟨e,rfl⟩,rfl⟩⟩

theorem settle_listContainers {site : ListSite} {o : Outcome} {a : Except KubeletError (List RuntimeContainer)}
    (h : w.settle (.listContainers site) o = some (a,w')) : w' = w ∧
    ((∃ ids : List String, o = .reply (.listed ids) ∧ a = .ok (ids.filterMap
        (fun id => (w.containers.lookup id).map (ContainerRecord.listed id)))) ∨
      (∃ e, a = .error e) ∧ o.errs = true) := by
  rcases settle_cases h with ⟨c,rfl,hrespond⟩ | ⟨c,e,a',rfl,hrespond,hfailure⟩
  · obtain ⟨hw,⟨ids,rfl,-,ha⟩ | ⟨e,rfl,ha⟩⟩ := respond_listContainers hrespond
    · exact ⟨hw,.inl ⟨ids,rfl,ha⟩⟩
    · exact ⟨hw,.inr ⟨⟨e,ha⟩,rfl⟩⟩
  · obtain rfl := Option.some.inj hfailure
    exact ⟨(respond_listContainers hrespond).1,.inr ⟨⟨e,rfl⟩,rfl⟩⟩

theorem exit_cases {id : String} {code : ℤ} (h : w.exit id code = some w') :
    ∃ r, w.containers.lookup id = some r ∧ r.state = .running ∧
      w' = { w.put id { r with state := .exited, exitCode := some code, finishedAt := some w.clock } with
        log := .exited r.podUid r.name code :: w.log } := by
  unfold exit at h
  split at h
  · next r hr =>
    obtain ⟨hrun,hw⟩ := Option.ite_none_right_eq_some.mp h
    exact ⟨r,hr,hrun,(Option.some.inj hw).symm⟩
  · cases h

theorem lookup_put {id id' : String} {r : ContainerRecord} :
    (w.put id r).containers.lookup id' = if id' = id then some r else w.containers.lookup id' := by
  split
  · next h =>
    subst h
    exact AList.lookup_insert _
  · next h => exact AList.lookup_insert_ne h

theorem lookup_drop {id id' : String} :
    (w.drop id).containers.lookup id' = if id' = id then none else w.containers.lookup id' := by
  split
  · next h =>
    subst h
    exact AList.lookup_erase _ _
  · next h => exact AList.lookup_erase_ne h

theorem lookup_dropSandbox {sandboxId id : String} {r : ContainerRecord} :
    (w.dropSandbox sandboxId).containers.lookup id = some r ↔
      w.containers.lookup id = some r ∧ r.sandboxId ≠ sandboxId := by
  unfold dropSandbox
  dsimp only
  rw [AList.lookup_to_alist]
  have hnodup : (w.containers.entries.filter fun e => e.2.sandboxId ≠ sandboxId).NodupKeys :=
    List.NodupKeys.sublist List.filter_sublist w.containers.nodupKeys
  have hfilter := List.mem_dlookup_iff (a := id) (b := r) hnodup
  rw [Option.mem_def,List.mem_filter,decide_eq_true_eq] at hfilter
  rw [hfilter]
  exact and_congr_left fun _ => AList.mem_lookup_iff.symm

/-- Between two calls of the worker containers exit, and nothing else happens. -/
def Drift : Node → Node → Prop := Relation.ReflTransGen fun w w' => ∃ id code, w.exit id code = some w'

/-- An assertion about the containers and the log that exits keep. -/
structure Steady (P : Node → Prop) : Prop where
  frame : ∀ w w', P w → SameContainers w w' → P w'
  exit : ∀ w id code w', P w → w.exit id code = some w' → P w'

theorem Steady.drift {P : Node → Prop} (hP : Steady P) (w w' : Node) (h : P w) (hd : Drift w w') : P w' := by
  induction hd with
  | refl => exact h
  | tail _ hstep ih =>
    obtain ⟨id,code,hexit⟩ := hstep
    exact hP.exit _ id code _ ih hexit

theorem Steady.const (q : Prop) : Steady (fun _ => q) := ⟨fun _ _ h _ => h,fun _ _ _ _ h _ => h⟩

theorem Steady.and {P Q : Node → Prop} (hP : Steady P) (hQ : Steady Q) : Steady (fun w => P w ∧ Q w) :=
  ⟨fun w w' h hs => ⟨hP.frame w w' h.1 hs,hQ.frame w w' h.2 hs⟩,
    fun w id code w' h he => ⟨hP.exit w id code w' h.1 he,hQ.exit w id code w' h.2 he⟩⟩

theorem Steady.imp {q : Prop} {P : Node → Prop} (hP : Steady P) : Steady (fun w => q → P w) :=
  ⟨fun w w' h hs hq => hP.frame w w' (h hq) hs,fun w id code w' h he hq => hP.exit w id code w' (h hq) he⟩

end Node
end KubeAir.Worker
