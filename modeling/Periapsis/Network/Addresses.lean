import Periapsis.Network.Manager
import Periapsis.Transition.System

/-!
# The addresses of the pods that are up

Pods are set up and torn down, and a restart of the daemon makes a new pool and leaves the
namespaces.
-/

namespace Periapsis.Network

open Option Function Host IPPool

structure Fleet where
  manager : LinuxNetworkManager
  live : String → Option Nat

inductive FleetAction where
  | setup (podUID : String) (env : SetupEnv)
  | teardown (podUID : String) (env : TeardownEnv)
  | restart

def recordSetup (live : String → Option Nat) (podUID : String) :
    Except SetupError (String × Nat) → String → Option Nat
  | .ok (_, ip) => update live podUID (some ip)
  | .error _ => live

def recordTeardown (live : String → Option Nat) (podUID : String) :
    Option SetupError → String → Option Nat
  | none => update live podUID none
  | some _ => live

def fleet : Transition.System Fleet FleetAction where
  step
    | t, .setup podUID env =>
      let result := setup t.manager podUID env
      some ⟨result.1, recordSetup t.live podUID result.2⟩
    | t, .teardown podUID env =>
      let result := teardown t.manager podUID env
      some ⟨result.1, recordTeardown t.live podUID result.2⟩
    | t, .restart => some ⟨newLinuxNetworkManager t.manager.host, t.live⟩

def newFleet : Fleet :=
  ⟨newLinuxNetworkManager {}, fun _ => none⟩

/-- An action that forgets no address in use: a failing setup cleans up an end of the pair and finds
no namespace under the UID alone, a teardown succeeds, and the daemon restarts only while no pod is
up and no namespace has an address. -/
def KeepsAddresses (t : Fleet) : FleetAction → Prop
  | .setup podUID env =>
    t.manager.host.netns (netnsName podUID) = none →
      (env.linkDelete = true ∨ env.netnsDelete = true)
      ∧ (t.manager.pool.Exhausted → t.manager.host.netns podUID = none)
  | .teardown podUID env =>
    t.manager.host.netns (netnsName podUID) ≠ none → env.netnsDelete = true
  | .restart => ∀ podUID, t.live podUID = none ∧ t.manager.host.podAddr podUID = none

structure Reserved (host : Host) (pool : IPPool) (live : String → Option Nat) : Prop where
  given : ∀ podUID ip, live podUID = some ip → pool.Holds podUID ip
  addr : ∀ podUID ip, host.podAddr podUID = some ip → pool.Holds podUID ip
  up : ∀ podUID ip, live podUID = some ip → host.netns (netnsName podUID) ≠ none

variable {host host' : Host} {pool pool' : IPPool} {live : String → Option Nat}
  {podUID : String} {ip : Nat}

theorem Host.podAddr_congr (h : host'.netns (netnsName podUID) = host.netns (netnsName podUID)) :
  host'.podAddr podUID = host.podAddr podUID
  := by
  rw [podAddr, h, podAddr]

theorem Host.podAddr_empty (h : host.netns (netnsName podUID) = some {}) :
  host.podAddr podUID = none
  := by
  simp [podAddr, h]

variable {ok : Bool}

theorem Host.podAddr_linkDelete (h : (host.run2 ok (.linkDelete veth)).podAddr podUID = some ip) :
  host.podAddr podUID = some ip
  := by
  rcases host.run2_linkDelete_netns ok veth (netnsName podUID) with heq | ⟨-, heq⟩
  · rwa [← podAddr_congr heq]
  · rw [podAddr_empty heq] at h
    cases h

variable {name : String}

theorem Host.podAddr_netnsDelete (h : (host.run2 ok (.netnsDelete name)).podAddr podUID = some ip) :
  host.podAddr podUID = some ip
  := by
  by_cases hn : netnsName podUID = name
  · cases ok with
    | false => exact h
    | true =>
      subst hn
      simp [podAddr, run2_netnsDelete_self] at h
  · rwa [← podAddr_congr (run2_netnsDelete_of_ne hn)]

theorem Host.podAddr_linkDelete_peer (h : host.veths veth = some (netnsName podUID)) :
  (host.run2 true (.linkDelete veth)).podAddr podUID = none
  := by
  cases hns : host.netns (netnsName podUID) with
  | _ => simp [podAddr, run2, Host.run, exec, h, hns]

theorem Host.run_netnsDelete (h : host.netns name ≠ none) :
  host.run true (.netnsDelete name) = some (host.run2 true (.netnsDelete name))
  := by
  cases hns : host.netns name with
  | none => contradiction
  | some ns => simp [run2, Host.run, exec, hns]

theorem Host.run2_netnsDelete_none (h : host.netns name = none) :
  host.run2 ok (.netnsDelete name) = host
  := by
  cases ok with
  | false => rfl
  | true => simp [run2, Host.run, exec, h]

namespace Reserved

section

variable (h : Reserved host pool live)
include h

theorem live_eq_none (hns : host.netns (netnsName podUID) = none) :
  live podUID = none
  := by
  cases hl : live podUID with
  | none => rfl
  | some ip => exact absurd hns (h.up podUID ip hl)

theorem pool_mono (hp : ∀ u a, pool.Holds u a → pool'.Holds u a) :
  Reserved host pool' live
  := ⟨fun u a hu => hp u a (h.given u a hu), fun u a hu => hp u a (h.addr u a hu), h.up⟩

theorem give (hip : pool.Holds podUID ip) (hns : host.netns (netnsName podUID) ≠ none) :
  Reserved host pool (update live podUID (some ip))
  := by
  refine ⟨?_, h.addr, ?_⟩
  · intro u a hu
    by_cases heq : u = podUID
    · subst heq
      rw [update_self] at hu
      rwa [← some.inj hu]
    · rw [update_of_ne heq] at hu
      apply h.given u a hu
  · intro u a hu
    by_cases heq : u = podUID
    · rwa [heq]
    · rw [update_of_ne heq] at hu
      apply h.up u a hu

theorem host_mono (had : ∀ u a, host'.podAddr u = some a → host.podAddr u = some a)
    (hns : ∀ u, live u ≠ none → host.netns (netnsName u) ≠ none → host'.netns (netnsName u) ≠ none)
    :
  Reserved host' pool live
  := by
  refine ⟨h.given, fun u a hu => h.addr u a (had u a hu), ?_⟩
  intro u a hu
  apply hns u (by simp [hu]) (h.up u a hu)

theorem release (hl : live podUID = none) (had : host.podAddr podUID = none) (walk : Nat) :
  Reserved host (pool.release podUID walk) live
  := by
  refine ⟨?_, ?_, h.up⟩
  · intro u a hu
    apply holds_release _ (h.given u a hu)
    rintro rfl
    rw [hl] at hu
    cases hu
  · intro u a hu
    apply holds_release _ (h.addr u a hu)
    rintro rfl
    rw [had] at hu
    cases hu

theorem drop (podUID : String) :
  Reserved host pool (update live podUID none)
  := by
  have hm : ∀ u a, update live podUID none u = some a → live u = some a := by
    intro u a hu
    by_cases heq : u = podUID
    · subst heq
      rw [update_self] at hu
      cases hu
    · rwa [update_of_ne heq] at hu
  exact ⟨fun u a hu => h.given u a (hm u a hu), h.addr, fun u a hu => h.up u a (hm u a hu)⟩

theorem withNetns (podUID : String) :
  Reserved (host.withNetns (netnsName podUID)) pool live
  := by
  apply h.host_mono
  · intro u a hu
    by_cases heq : u = podUID
    · subst heq
      rw [podAddr_empty (host.withNetns_self _)] at hu
      cases hu
    · rwa [← podAddr_congr (withNetns_of_ne (netnsName_injective.ne heq))]
  · intro u _ hns
    by_cases heq : u = podUID
    · subst heq
      simp [withNetns_self]
    · rwa [withNetns_of_ne (netnsName_injective.ne heq)]

end

theorem joining {before : Host} (h : Reserved before pool live)
    (hj : Joining (vethName podUID) (netnsName podUID) ip before host)
    (hip : pool.Holds podUID ip) :
  Reserved host pool live
  := by
  refine ⟨h.given, ?_, ?_⟩
  · intro u a hu
    by_cases heq : u = podUID
    · subst heq
      obtain ⟨hem, -⟩ | ⟨-, -, eth0, het, had | had⟩ := hj.stage
      · rw [podAddr_empty hem] at hu
        cases hu
      · simp [podAddr, het, had] at hu
      · obtain rfl : ip = a := by simpa [podAddr, het, had] using hu
        exact hip
    · apply h.addr u a
      rwa [← podAddr_congr (hj.netns_eq _ (netnsName_injective.ne heq))]
  · intro u a hu
    by_cases heq : u = podUID
    · subst heq
      exact hj.netns_ne_none
    · rw [hj.netns_eq _ (netnsName_injective.ne heq)]
      apply h.up u a hu

end Reserved

theorem podAddr_cleanUp {before : Host} {linkDelete netnsDelete : Bool}
    (hj : Joining (vethName podUID) (netnsName podUID) ip before host)
    (hc : linkDelete ∨ netnsDelete) :
  ((host.run2 linkDelete (.linkDelete (vethName podUID))).run2 netnsDelete
    (.netnsDelete (netnsName podUID))).podAddr podUID = none
  := by
  rw [eq_none_iff_forall_ne_some]
  intro a ha
  rcases hc with rfl | rfl
  · have had := podAddr_netnsDelete ha
    obtain ⟨hem, -⟩ | ⟨-, hve, -⟩ := hj.stage
    · have har := podAddr_linkDelete had
      rw [podAddr_empty hem] at har
      cases har
    · rw [podAddr_linkDelete_peer (by rw [hve, update_self])] at had
      cases had
  · simp [podAddr, run2_netnsDelete_self] at ha

variable {n : LinuxNetworkManager}

theorem reserved_setup {env : SetupEnv} (h : Reserved n.host n.pool live)
    (hk : n.host.netns (netnsName podUID) = none → (env.linkDelete ∨ env.netnsDelete =
      true) ∧ (n.pool.Exhausted → n.host.netns podUID = none)) :
  Reserved (setup n podUID env).1.host (setup n podUID env).1.pool
    (recordSetup live podUID (setup n podUID env).2)
  := by
  have hae := h.withNetns podUID
  have hs := setup_step n podUID env
  generalize setup n podUID env = result at hs ⊢
  cases hs with
  | @recovered ip hns hr =>
    unfold recoverPodIP at hr
    split_ifs at hr
    apply h.give (h.addr podUID ip hr) hns
  | reallocated hns hal =>
    obtain ⟨hh, hm⟩ := holds_allocate hal
    apply (h.pool_mono hm).give hh hns
  | notUp => exact hae
  | notAllocated hns _ hex =>
    have hno : (n.host.withNetns (netnsName podUID)).netns podUID = none := by
      rw [withNetns_of_ne (netnsName_ne podUID).symm]
      apply (hk hns).2 hex
    rw [run2_netnsDelete_none hno]
    exact hae
  | @joined pool podIP host hns _ _ hal hrs =>
    obtain ⟨hh, hm⟩ := holds_allocate hal
    have hj := joining_runAll (n.host.withNetns_self (netnsName podUID)) env.steps podIP
      pool.gateway
    rw [hrs] at hj
    exact ((hae.pool_mono hm).joining hj hh).give hh hj.netns_ne_none
  | @failed pool podIP host cmd hns _ _ hal hrs =>
    obtain ⟨hh, hm⟩ := holds_allocate hal
    have hj := joining_runAll (n.host.withNetns_self (netnsName podUID)) env.steps podIP
      pool.gateway
    rw [hrs] at hj
    have hl := h.live_eq_none hns
    refine Reserved.release ?_ hl (podAddr_cleanUp hj (hk hns).1) _
    apply ((hae.pool_mono hm).joining hj hh).host_mono
    · intro u a hu
      apply podAddr_linkDelete (podAddr_netnsDelete hu)
    · intro u hu hup
      have hne : u ≠ podUID := by
        rintro rfl
        contradiction
      rwa [run2_netnsDelete_of_ne (netnsName_injective.ne hne), ne_eq,
        run2_linkDelete_eq_none]
  | _ => exact h

theorem reserved_teardown {env : TeardownEnv} (h : Reserved n.host n.pool live)
    (hk : n.host.netns (netnsName podUID) ≠ none → env.netnsDelete) :
  Reserved (teardown n podUID env).1.host (teardown n podUID env).1.pool
    (recordTeardown live podUID (teardown n podUID env).2)
  := by
  unfold teardown
  cases hns : n.host.netns (netnsName podUID) with
  | none =>
    refine Reserved.drop (h.release (h.live_eq_none hns) ?_ _) podUID
    simp [podAddr, hns]
  | some ns =>
    have hup : n.host.netns (netnsName podUID) ≠ none := by simp [hns]
    have hli : (n.host.run2 env.linkDelete (.linkDelete (vethName podUID))).netns
        (netnsName podUID) ≠ none := run2_linkDelete_eq_none.not.2 hup
    simp only [isNone_some, Bool.false_eq_true, if_false, hk hup, run_netnsDelete hli]
    refine Reserved.release ?_ (update_self _ _ _) ?_ _
    · apply (h.drop podUID).host_mono
      · intro u a hu
        apply podAddr_linkDelete (podAddr_netnsDelete (podAddr_linkDelete hu))
      · intro u hu hup
        have hne : u ≠ podUID := by
          rintro rfl
          simp at hu
        rwa [ne_eq, run2_linkDelete_eq_none,
          run2_netnsDelete_of_ne (netnsName_injective.ne hne),
          run2_linkDelete_eq_none]
    · rw [eq_none_iff_forall_ne_some]
      intro a ha
      have had := podAddr_linkDelete ha
      simp [podAddr, run2_netnsDelete_self] at had

theorem reserved_step {t : Fleet} (h : Reserved t.manager.host t.manager.pool t.live)
    (hk : KeepsAddresses t action) (hs : fleet.step t action = some u) :
  Reserved u.manager.host u.manager.pool u.live
  := by
  cases action with
  | setup podUID env =>
    cases hs
    exact reserved_setup h hk
  | teardown podUID env =>
    cases hs
    exact reserved_teardown h hk
  | restart =>
    cases hs
    refine ⟨?_, ?_, ?_⟩
    · intro u a hu
      rw [(hk u).1] at hu
      cases hu
    · intro u a hu
      rw [newLinuxNetworkManager, (hk u).2] at hu
      cases hu
    · intro u a hu
      rw [(hk u).1] at hu
      cases hu

/-- In every run in which no action forgets an address that is in use, no two pods that were
set up and not torn down have the same address. -/
theorem no_shared_address
    (actions : List FleetAction) (t : Fleet) (hrun : fleet.run newFleet actions = some t)
    (hkeeps : fleet.Meets KeepsAddresses newFleet actions) :
  ∀ u v ip, t.live u = some ip → t.live v = some ip → u = v
  := by
  have hre : Reserved t.manager.host t.manager.pool t.live := by
    apply fleet.run_induction (P := fun t => Reserved t.manager.host t.manager.pool t.live) _ _
      hkeeps hrun
    · refine ⟨?_, ?_, ?_⟩
      all_goals
        intro u a hu
        cases hu
    · intro u a v hu ha hv
      exact reserved_step hu ha hv
  intro u v ip hu hv
  exact holds_unique (hre.given u ip hu) (hre.given v ip hv)

theorem no_shared_address_reuse :
  let actions : List FleetAction :=
    [.setup "a" {}, .setup "b" {}, .teardown "a" {}, .setup "c" {}]
  ∃ t, fleet.run newFleet actions = some t ∧ t.live "b" = some 173539331
    ∧ t.live "c" ≠ t.live "b"
  := by
  intro actions
  have hk : fleet.Meets KeepsAddresses newFleet actions := by
    refine ⟨fun _ => ⟨.inl rfl, fun _ => rfl⟩, ?_⟩
    intro t ht
    cases ht
    refine ⟨fun _ => ⟨.inl rfl, fun _ => rfl⟩, ?_⟩
    intro t ht
    cases ht
    refine ⟨fun _ => rfl, ?_⟩
    intro t ht
    cases ht
    exact ⟨fun _ => ⟨.inl rfl, fun _ => rfl⟩, fun _ _ => trivial⟩
  refine ⟨_, rfl, rfl, ?_⟩
  intro heq
  exact absurd (no_shared_address actions _ rfl hk "c" "b" 173539331 heq rfl) (by decide)

theorem shared_address_restart :
  ∃ t, fleet.run newFleet [.setup "a" {}, .restart, .setup "b" {}] = some t
    ∧ t.live "a" = some 173539330 ∧ t.live "b" = some 173539330
  := ⟨_, rfl, rfl, rfl⟩

end Periapsis.Network
