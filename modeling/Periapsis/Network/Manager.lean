import Periapsis.Network.IPPool

/-!
# The bridge network manager

`setup` joins a network namespace for a pod to the bridge, with an address from the pool; `teardown`
takes them away.
-/

namespace Periapsis.Network

open List Option Function

/-- The interface of a pod, with its address if it has got one. -/
structure Eth0 where
  addr : Option Nat := none
  deriving DecidableEq

structure Netns where
  eth0 : Option Eth0 := none
  deriving DecidableEq

/-- The host: the network namespaces by name, and the host ends of virtual pairs with the namespaces
of their peers. -/
structure Host where
  netns : String → Option Netns := fun _ => none
  veths : String → Option String := fun _ => none

inductive Command where
  | netnsAdd (netns : String)
  | loUp (netns : String)
  | linkAdd (veth netns : String)
  | linkSetMaster (veth bridge : String)
  | linkSetUp (veth : String)
  | addrAdd (netns : String) (ip : Nat)
  | eth0Up (netns : String)
  | routeAddDefault (netns : String) (gateway : Nat)
  | linkDelete (veth : String)
  | netnsDelete (netns : String)
  deriving DecidableEq

/-- The host after a command, if it can be carried out. Deleting an end of a pair deletes the pair,
and deleting a namespace the pairs that end in it. -/
def Host.exec (host : Host) : Command → Option Host
  | .netnsAdd n =>
    if (host.netns n).isSome then none
    else some { host with netns := update host.netns n (some {}) }
  | .loUp n => if (host.netns n).isSome then some host else none
  | .linkAdd v n =>
    match host.netns n with
    | some ⟨none⟩ =>
      if (host.veths v).isSome then none
      else
        some
          { netns := update host.netns n (some ⟨some {}⟩)
            veths := update host.veths v (some n) }
    | _ => none
  | .linkSetMaster v _ => if (host.veths v).isSome then some host else none
  | .linkSetUp v => if (host.veths v).isSome then some host else none
  | .addrAdd n ip =>
    match host.netns n with
    | some ⟨some ⟨none⟩⟩ =>
      some { host with netns := update host.netns n (some ⟨some ⟨some ip⟩⟩) }
    | _ => none
  | .eth0Up n => if ((host.netns n).bind Netns.eth0).isSome then some host else none
  | .routeAddDefault n _ => if ((host.netns n).bind Netns.eth0).isSome then some host else none
  | .linkDelete v =>
    match host.veths v with
    | none => none
    | some n =>
      some
        { netns := update host.netns n ((host.netns n).map fun _ => {})
          veths := update host.veths v none }
  | .netnsDelete n =>
    if (host.netns n).isSome then
      some
        { netns := update host.netns n none
          veths := fun v => if host.veths v = some n then none else host.veths v }
    else none

def Host.run (host : Host) (ok : Bool) (cmd : Command) : Option Host :=
  if ok then host.exec cmd else none

def Host.run2 (host : Host) (ok : Bool) (cmd : Command) : Host :=
  (host.run ok cmd).getD host

def Host.runAll (ok : Nat → Bool) : Nat → Host → List Command → Host × Option Command
  | _, host, [] => (host, none)
  | i, host, cmd :: cmds =>
    match host.run (ok i) cmd with
    | none => (host, some cmd)
    | some host => runAll ok (i + 1) host cmds

/-- The bridge of the host. -/
def bridgeName : String := "perigeos0"

def netnsName (podUID : String) : String :=
  "peri-" ++ podUID

def vethName (podUID : String) : String :=
  let clean := podUID.toList.filter (· ≠ '-')
  "veth" ++ String.ofList (clean.drop (clean.length - 8))

def netnsPath (name : String) : String :=
  "/var/run/netns/" ++ name

structure LinuxNetworkManager where
  host : Host
  pool : IPPool

def podPool : IPPool :=
  .newIPPool 173539328 16 (by decide)

def newLinuxNetworkManager (host : Host) : LinuxNetworkManager :=
  ⟨host, podPool⟩

inductive SetupError where
  | command (cmd : Command)
  | exhausted
  deriving DecidableEq

structure SetupEnv where
  addrShow : Bool := true
  netnsAdd : Bool := true
  loUp : Bool := true
  steps : Nat → Bool := fun _ => true
  linkDelete : Bool := true
  netnsDelete : Bool := true
  walk : Nat := 0

def createNetns (netnsAdd loUp : Bool) (host : Host) (name : String) : Host × Option SetupError :=
  match host.run netnsAdd (.netnsAdd name) with
  | none => (host, some (.command (.netnsAdd name)))
  | some host =>
    match host.run loUp (.loUp name) with
    | none => (host, some (.command (.loUp name)))
    | some host => (host, none)

def Host.podAddr (host : Host) (podUID : String) : Option Nat :=
  ((host.netns (netnsName podUID)).bind Netns.eth0).bind Eth0.addr

def recoverPodIP (addrShow : Bool) (host : Host) (podUID : String) : Option Nat :=
  if addrShow then host.podAddr podUID else none

def setupCommands (podUID : String) (podIP gateway : Nat) : List Command :=
  let vethHost := vethName podUID
  let nnsName := netnsName podUID
  [.linkAdd vethHost nnsName, .linkSetMaster vethHost bridgeName, .linkSetUp vethHost,
    .addrAdd nnsName podIP, .eth0Up nnsName, .routeAddDefault nnsName gateway]

def setup (n : LinuxNetworkManager) (podUID : String) (env : SetupEnv) :
    LinuxNetworkManager × Except SetupError (String × Nat) :=
  let path := netnsPath (netnsName podUID)
  if (n.host.netns (netnsName podUID)).isSome then
    match recoverPodIP env.addrShow n.host podUID with
    | some ip => (n, .ok (path, ip))
    | none =>
      match n.pool.allocate podUID with
      | none => (n, .error .exhausted)
      | some (pool, ip) => ({ n with pool := pool }, .ok (path, ip))
  else
    match createNetns env.netnsAdd env.loUp n.host (netnsName podUID) with
    | (host, some err) => ({ n with host := host }, .error err)
    | (host, none) =>
      match n.pool.allocate podUID with
      | none =>
        -- the namespace is deleted under the UID, without the first part of its name
        ({ n with host := host.run2 env.netnsDelete (.netnsDelete podUID) }, .error .exhausted)
      | some (pool, podIP) =>
        match Host.runAll env.steps 0 host (setupCommands podUID podIP pool.gateway) with
        | (host, none) => (⟨host, pool⟩, .ok (path, podIP))
        | (host, some cmd) =>
          let host := host.run2 env.linkDelete (.linkDelete (vethName podUID))
          let host := host.run2 env.netnsDelete (.netnsDelete (netnsName podUID))
          (⟨host, pool.release podUID env.walk⟩, .error (.command cmd))

structure TeardownEnv where
  linkDelete : Bool := true
  netnsDelete : Bool := true
  linkDeleteAgain : Bool := true
  walk : Nat := 0

def teardown (n : LinuxNetworkManager) (podUID : String) (env : TeardownEnv) :
    LinuxNetworkManager × Option SetupError :=
  if (n.host.netns (netnsName podUID)).isNone then
    ({ n with pool := n.pool.release podUID env.walk }, none)
  else
    let host := n.host.run2 env.linkDelete (.linkDelete (vethName podUID))
    match host.run env.netnsDelete (.netnsDelete (netnsName podUID)) with
    | none =>
      (⟨host, n.pool.release podUID env.walk⟩, some (.command (.netnsDelete (netnsName podUID))))
    | some host =>
      (⟨host.run2 env.linkDeleteAgain (.linkDelete (vethName podUID)),
        n.pool.release podUID env.walk⟩, none)

theorem netnsName_injective :
  Function.Injective netnsName
  := by
  intro u v h
  have ht := congrArg String.toList h
  simp only [netnsName, String.toList_append] at ht
  apply String.toList_injective
  exact append_cancel_left ht

theorem netnsName_ne (podUID : String) :
  netnsName podUID ≠ podUID
  := by
  intro h
  have hl := congrArg String.length h
  simp [netnsName] at hl

section Commands

variable {host host' : Host} {ok : Nat → Bool} {veth nns podUID : String} {podIP gateway : Nat}
  {i : Nat}

theorem Host.runAll_induction {P : Host → Prop}
    (h : ∀ cmd ∈ cmds, ∀ host host' : Host, P host → host.exec cmd = some host' → P host')
    (start : P host) :
  P (Host.runAll ok i host cmds).1
  := by
  induction cmds generalizing host i with
  | nil => exact start
  | cons cmd cmds ih =>
    rw [Host.runAll]
    cases hru : host.run (ok i) cmd with
    | none => exact start
    | some next =>
      have hex : host.exec cmd = some next := by
        unfold Host.run at hru
        split_ifs at hru
        exact hru
      apply ih
      · intro c hc
        apply h c (mem_cons_of_mem cmd hc)
      · apply h cmd mem_cons_self host next start hex

/-- A pair with the host end `veth` joins the namespace `nns` to the bridge: there is no `eth0` yet,
or it is the other end, with no address but the pod's. -/
structure Joining (veth nns : String) (podIP : Nat) (before host : Host) : Prop where
  netns_eq : ∀ name ≠ nns, host.netns name = before.netns name
  stage :
    (host.netns nns = some {} ∧ host.veths = before.veths)
    ∨ (before.veths veth = none ∧ host.veths = update before.veths veth (some nns)
      ∧ ∃ eth0, host.netns nns = some ⟨some eth0⟩ ∧ (eth0.addr = none ∨ eth0.addr = some podIP))

variable {before : Host}

theorem Joining.netns_ne_none (h : Joining veth nns podIP before host) :
  host.netns nns ≠ none
  := by
  obtain ⟨hem, -⟩ | ⟨-, -, eth0, het, -⟩ := h.stage
  · simp [hem]
  · simp [het]

variable {cmd : Command}

theorem joining_exec (hcm : cmd ∈ setupCommands podUID podIP gateway)
    (h : Joining (vethName podUID) (netnsName podUID) podIP before host)
    (hex : host.exec cmd = some host') :
  Joining (vethName podUID) (netnsName podUID) podIP before host'
  := by
  simp only [setupCommands, mem_cons, not_mem_nil, or_false] at hcm
  rcases hcm with rfl | rfl | rfl | rfl | rfl | rfl
  · simp only [Host.exec] at hex
    split at hex
    next hns =>
      split_ifs at hex with hf
      cases hex
      obtain ⟨-, hve⟩ | ⟨-, -, eth0, het, -⟩ := h.stage
      · refine ⟨?_, .inr ⟨?_, ?_, {}, ?_, .inl rfl⟩⟩
        · intro name hn
          exact (update_of_ne hn _ _).trans (h.netns_eq name hn)
        · simpa [hve] using hf
        · rw [hve]
        · exact update_self _ _ _
      · rw [hns] at het
        cases het
    · cases hex
  · simp only [Host.exec, ite_none_right_eq_some] at hex
    obtain ⟨-, heq⟩ := hex
    rwa [← some.inj heq]
  · simp only [Host.exec, ite_none_right_eq_some] at hex
    obtain ⟨-, heq⟩ := hex
    rwa [← some.inj heq]
  · simp only [Host.exec] at hex
    split at hex
    next hns =>
      cases hex
      obtain ⟨hem, -⟩ | ⟨hf, hve, -⟩ := h.stage
      · rw [hns] at hem
        cases hem
      · refine ⟨?_, .inr ⟨hf, hve, ⟨some podIP⟩, ?_, .inr rfl⟩⟩
        · intro name hn
          exact (update_of_ne hn _ _).trans (h.netns_eq name hn)
        · exact update_self _ _ _
    · cases hex
  all_goals
    simp only [Host.exec, ite_none_right_eq_some] at hex
    obtain ⟨-, heq⟩ := hex
    rwa [← some.inj heq]

theorem joining_runAll (h : host.netns (netnsName podUID) = some {}) (ok : Nat → Bool)
    (podIP gateway : Nat) :
  Joining (vethName podUID) (netnsName podUID) podIP host
    (Host.runAll ok 0 host (setupCommands podUID podIP gateway)).1
  := by
  apply Host.runAll_induction
  · intro cmd hcm u v hu hex
    apply joining_exec hcm hu hex
  · exact ⟨fun _ _ => rfl, .inl ⟨h, rfl⟩⟩

@[simp]
theorem Host.runAll_nil :
  Host.runAll ok i host [] = (host, none)
  := rfl

theorem Host.runAll_cons_eq_none :
  (Host.runAll ok i host (cmd :: cmds)).2 = none
    ↔ ok i ∧ ∃ next, host.exec cmd = some next
      ∧ (Host.runAll ok (i + 1) next cmds).2 = none
  := by
  rw [Host.runAll, Host.run]
  cases ok i with
  | false => simp
  | true =>
    cases host.exec cmd with
    | _ => simp

theorem runAll_eq_none (h : host.netns (netnsName podUID) = some {}) (ok : Nat → Bool)
    (podIP gateway : Nat) :
  (Host.runAll ok 0 host (setupCommands podUID podIP gateway)).2 = none
    ↔ (∀ i < 6, ok i) ∧ host.veths (vethName podUID) = none
  := by
  have hsi : (∀ i < 6, ok i)
      ↔ ok 0 ∧ ok 1 ∧ ok 2 ∧ ok 3 ∧ ok 4 ∧ ok 5 := by
    simp only [Nat.forall_lt_succ_right, Nat.not_lt_zero, IsEmpty.forall_iff, implies_true,
      true_and, and_assoc]
  rw [hsi, setupCommands]
  cases hv : host.veths (vethName podUID) with
  | _ => simp [Host.runAll_cons_eq_none, Host.exec, h, hv]

end Commands

section CleanUp

variable {host : Host} {ok : Bool} {veth name : String}

theorem Host.run2_linkDelete_self :
  (host.run2 true (.linkDelete veth)).veths veth = none
  := by
  cases hv : host.veths veth with
  | _ => simp [Host.run2, Host.run, Host.exec, hv]

theorem Host.run2_linkDelete_netns (host : Host) (ok : Bool) (veth name : String) :
  (host.run2 ok (.linkDelete veth)).netns name = host.netns name
    ∨ (host.netns name ≠ none ∧ (host.run2 ok (.linkDelete veth)).netns name = some {})
  := by
  cases ok with
  | false =>
    left
    rfl
  | true =>
    cases hv : host.veths veth with
    | none => simp [Host.run2, Host.run, Host.exec, hv]
    | some peer =>
      by_cases hn : name = peer
      · subst hn
        cases hns : host.netns name with
        | _ => simp [Host.run2, Host.run, Host.exec, hv, hns]
      · simp [Host.run2, Host.run, Host.exec, hv, hn]

theorem Host.run2_linkDelete_eq_none :
  (host.run2 ok (.linkDelete veth)).netns name = none ↔ host.netns name = none
  := by
  rcases host.run2_linkDelete_netns ok veth name with h | ⟨hne, h⟩
  · rw [h]
  · simp [h, hne]

theorem Host.run2_netnsDelete_self (host : Host) (name : String) :
  (host.run2 true (.netnsDelete name)).netns name = none
  := by
  cases hns : host.netns name with
  | _ => simp [Host.run2, Host.run, Host.exec, hns]

theorem Host.run2_netnsDelete_of_ne {other : String} (h : other ≠ name) :
  (host.run2 ok (.netnsDelete name)).netns other = host.netns other
  := by
  cases ok with
  | false => rfl
  | true =>
    cases hns : host.netns name with
    | none => simp [Host.run2, Host.run, Host.exec, hns]
    | some ns => simp [Host.run2, Host.run, Host.exec, hns, h]

theorem Host.run2_netnsDelete_veths (h : host.veths veth = none) :
  (host.run2 ok (.netnsDelete name)).veths veth = none
  := by
  cases ok with
  | false => exact h
  | true =>
    cases hns : host.netns name with
    | _ => simp [Host.run2, Host.run, Host.exec, hns, h]

end CleanUp

section Failure

variable {n : LinuxNetworkManager} {podUID : String} {env : SetupEnv}

def Host.withNetns (host : Host) (name : String) : Host :=
  { host with netns := update host.netns name (some {}) }

variable {host : Host} {name : String}

@[simp]
theorem Host.withNetns_veths :
  (host.withNetns name).veths = host.veths
  := rfl

theorem Host.withNetns_self (host : Host) (name : String) :
  (host.withNetns name).netns name = some {}
  := update_self _ _ _

theorem Host.withNetns_of_ne {other : String} (h : other ≠ name) :
  (host.withNetns name).netns other = host.netns other
  := update_of_ne h _ _

theorem createNetns_eq (h : host.netns name = none) :
  createNetns netnsAdd loUp host name
    = if netnsAdd then
        (host.withNetns name, if loUp then none else some (.command (.loUp name)))
      else (host, some (.command (.netnsAdd name)))
  := by
  cases netnsAdd with
  | false => rfl
  | true =>
    cases loUp with
    | _ => simp [createNetns, Host.run, Host.exec, h, Host.withNetns]

inductive SetupStep (n : LinuxNetworkManager) (podUID : String) (env : SetupEnv) :
    LinuxNetworkManager × Except SetupError (String × Nat) → Prop
  | recovered {ip : Nat} (hns : n.host.netns (netnsName podUID) ≠ none)
      (h : recoverPodIP env.addrShow n.host podUID = some ip) :
      SetupStep n podUID env (n, .ok (netnsPath (netnsName podUID), ip))
  | reallocated {pool : IPPool} {ip : Nat} (hns : n.host.netns (netnsName podUID) ≠ none)
      (h : n.pool.allocate podUID = some (pool, ip)) :
      SetupStep n podUID env ({ n with pool := pool }, .ok (netnsPath (netnsName podUID), ip))
  | notReallocated (hns : n.host.netns (netnsName podUID) ≠ none) :
      SetupStep n podUID env (n, .error .exhausted)
  | notAdded (hns : n.host.netns (netnsName podUID) = none) (h : env.netnsAdd = false) :
      SetupStep n podUID env (n, .error (.command (.netnsAdd (netnsName podUID))))
  | notUp (hns : n.host.netns (netnsName podUID) = none) (hadd : env.netnsAdd = true)
      (h : env.loUp = false) :
      SetupStep n podUID env
        ({ n with host := n.host.withNetns (netnsName podUID) },
          .error (.command (.loUp (netnsName podUID))))
  | notAllocated (hns : n.host.netns (netnsName podUID) = none) (hadd : env.netnsAdd = true)
      (h : n.pool.Exhausted) :
      SetupStep n podUID env
        ({ n with
            host := (n.host.withNetns (netnsName podUID)).run2 env.netnsDelete
              (.netnsDelete podUID) },
          .error .exhausted)
  | joined {pool : IPPool} {podIP : Nat} {host : Host}
      (hns : n.host.netns (netnsName podUID) = none) (hadd : env.netnsAdd = true)
      (hup : env.loUp = true) (halloc : n.pool.allocate podUID = some (pool, podIP))
      (h : Host.runAll env.steps 0 (n.host.withNetns (netnsName podUID))
        (setupCommands podUID podIP pool.gateway) = (host, none)) :
      SetupStep n podUID env (⟨host, pool⟩, .ok (netnsPath (netnsName podUID), podIP))
  | failed {pool : IPPool} {podIP : Nat} {host : Host} {cmd : Command}
      (hns : n.host.netns (netnsName podUID) = none) (hadd : env.netnsAdd = true)
      (hup : env.loUp = true) (halloc : n.pool.allocate podUID = some (pool, podIP))
      (h : Host.runAll env.steps 0 (n.host.withNetns (netnsName podUID))
        (setupCommands podUID podIP pool.gateway) = (host, some cmd)) :
      SetupStep n podUID env
        (⟨(host.run2 env.linkDelete (.linkDelete (vethName podUID))).run2 env.netnsDelete
            (.netnsDelete (netnsName podUID)),
          pool.release podUID env.walk⟩, .error (.command cmd))

variable (n)

theorem setup_step (podUID : String) (env : SetupEnv) :
  SetupStep n podUID env (setup n podUID env)
  := by
  unfold setup
  cases hns : n.host.netns (netnsName podUID) with
  | some ns =>
    have hup : n.host.netns (netnsName podUID) ≠ none := by simp [hns]
    cases hre : recoverPodIP env.addrShow n.host podUID with
    | some ip => exact .recovered hup hre
    | none =>
      cases ha : n.pool.allocate podUID with
      | none => exact .notReallocated hup
      | some allocated => exact .reallocated hup ha
  | none =>
    simp only [isSome_none, Bool.false_eq_true, if_false, createNetns_eq hns]
    cases had : env.netnsAdd with
    | false => exact .notAdded hns had
    | true =>
      cases hup : env.loUp with
      | false => exact .notUp hns had hup
      | true =>
        simp only [if_true]
        cases ha : n.pool.allocate podUID with
        | none => exact .notAllocated hns had (IPPool.allocate_eq_none.1 ha)
        | some allocated =>
          obtain ⟨pool, podIP⟩ := allocated
          cases hr : Host.runAll env.steps 0 (n.host.withNetns (netnsName podUID))
              (setupCommands podUID podIP pool.gateway) with
          | mk host failed =>
            simp only [hr]
            cases failed with
            | none => exact .joined hns had hup ha hr
            | some cmd => exact .failed hns had hup ha hr

def CleanedUp (podUID : String) : Prop :=
  n.host.netns (netnsName podUID) = none ∧ n.host.veths (vethName podUID) = none
    ∧ n.pool.HoldsNone podUID

def FailsClean (podUID : String) (env : SetupEnv) : Prop :=
  if env.netnsAdd then
    env.loUp = true ∧ ¬ n.pool.Exhausted
      ∧ (¬ ((∀ i < 6, env.steps i = true) ∧ n.host.veths (vethName podUID) = none) →
          n.pool.HoldsNone podUID)
  else n.host.veths (vethName podUID) = none ∧ n.pool.HoldsNone podUID

theorem cleanUp_host (host : Host) (podUID : String) :
  let host' := (host.run2 true (.linkDelete (vethName podUID))).run2 true
    (.netnsDelete (netnsName podUID))
  host'.netns (netnsName podUID) = none ∧ host'.veths (vethName podUID) = none
  := by
  constructor
  · apply Host.run2_netnsDelete_self
  · apply Host.run2_netnsDelete_veths
    apply Host.run2_linkDelete_self

theorem holdsNone_allocate_release {pool : IPPool} {walk : Nat}
    (h : pool.allocate podUID = some (pool', podIP)) :
  (pool'.release podUID walk).HoldsNone podUID ↔ pool.HoldsNone podUID
  := by
  rw [IPPool.holdsNone_release, IPPool.held_allocate h, IPPool.holdsNone_iff,
    ← length_eq_zero_iff]
  omega

/-- The setup of a pod without a network namespace, with clean-up commands that succeed,
leaves nothing behind if it fails, exactly if it fails where it cleans up. -/
theorem setup_failure_iff (podUID : String) (env : SetupEnv)
    (hns : n.host.netns (netnsName podUID) = none)
    (hclean : env.linkDelete = true ∧ env.netnsDelete = true) :
  ((∃ err, (setup n podUID env).2 = .error err) → CleanedUp (setup n podUID env).1 podUID)
    ↔ FailsClean n podUID env
  := by
  have hfr := n.host.withNetns_self (netnsName podUID)
  have hs := setup_step n podUID env
  generalize setup n podUID env = result at hs ⊢
  cases hs with
  | notAdded _ had => simp [CleanedUp, FailsClean, hns, had]
  | notUp _ had hlo => simp [CleanedUp, FailsClean, hfr, had, hlo]
  | notAllocated _ had heh =>
    have hk : ((n.host.withNetns (netnsName podUID)).run2 env.netnsDelete
        (.netnsDelete podUID)).netns (netnsName podUID) = some {} :=
      (Host.run2_netnsDelete_of_ne (netnsName_ne podUID)).trans hfr
    simp [CleanedUp, FailsClean, hk, had, heh]
  | @joined pool podIP host _ had hlo ha hr =>
    have hru := runAll_eq_none hfr env.steps podIP pool.gateway
    rw [hr] at hru
    have hal := hru.mp rfl
    have hf := IPPool.not_exhausted ha
    rw [FailsClean, if_pos had]
    constructor
    · intro _
      exact ⟨hlo, hf, fun hno => absurd hal hno⟩
    · rintro - ⟨err, her⟩
      cases her
  | @failed pool podIP host cmd _ had hlo ha hr =>
    have hru := runAll_eq_none hfr env.steps podIP pool.gateway
    rw [hr, Host.withNetns_veths] at hru
    have hfa := hru.not.mp (by simp)
    have hf := IPPool.not_exhausted ha
    obtain ⟨hnt, hv⟩ := cleanUp_host host podUID
    rw [FailsClean, if_pos had, hclean.1, hclean.2]
    simp only [CleanedUp, hnt, hv, holdsNone_allocate_release ha]
    simp [hlo, hf, hfa]
  | _ => contradiction

variable {n}

theorem setup_failure_iff_refused :
  let n := newLinuxNetworkManager {}
  let env : SetupEnv := { steps := fun i => i ≠ 3 }
  (setup n "u" env).2 = .error (.command (.addrAdd "peri-u" 173539330))
    ∧ CleanedUp (setup n "u" env).1 "u"
  := by
  intro n env
  have her : (setup n "u" env).2 = .error (.command (.addrAdd "peri-u" 173539330)) := by
    decide
  refine ⟨her, (setup_failure_iff n "u" env rfl ⟨rfl, rfl⟩).mpr ⟨rfl, ?_, ?_⟩ ⟨_, her⟩⟩
  · intro heh
    exact absurd (heh 2 (by decide) (by decide)) (by decide)
  · intro _ offset hm
    cases hm

theorem not_cleanedUp_loopback :
  let n := newLinuxNetworkManager {}
  let env : SetupEnv := { loUp := false }
  (setup n "u" env).2 = .error (.command (.loUp "peri-u"))
    ∧ ¬ CleanedUp (setup n "u" env).1 "u"
  := by
  intro n env
  refine ⟨by decide, ?_⟩
  rintro ⟨hnt, -⟩
  exact absurd hnt (by decide)

end Failure

end Periapsis.Network
