/-
  Aegis.Gateway.Policy

  Where the data of a request may go.

  `TenantPolicy` is read once, before the reservation.  `execute` keeps what it
  needs of it in the selection, and every turn of the retry loop selects with
  that, while the router changes under it.  `calls_cleared` says what this comes
  to over whole runs: each provider that is called for a request is one that the
  tenant's rows in the database and the replica's configuration clear for the
  model and for the tenant's data.
-/

import Aegis.Gateway.Idempotency
import Aegis.Gateway.Leases
import Aegis.Routing.Prices

namespace Aegis.Routing.Router

/-! ## The configuration of a router is fixed -/

theorem configs_acquire (now : Time) (router : Router) (entries : List Nat) :
    (acquire now router entries).2.configs = router.configs := by
  induction entries generalizing router with
  | nil => rfl
  | cons index rest ih =>
      unfold acquire
      split
      · exact ih router
      · dsimp only
        split
        · exact ih _
        · split
          · rfl
          · exact ih _

theorem configs_selectFrom (seen router : Router) (selection : Selection) :
    (selectFrom seen router selection).2.configs = router.configs := by
  unfold selectFrom
  dsimp only
  split
  · rfl
  split
  · exact router.takeTicket_configs _
  · rw [configs_acquire]
    exact router.takeTicket_configs _

theorem configs_report (router : Router) (lease : Lease) (report : Report) :
    (router.report lease report).2.configs = router.configs := by
  have hrelease : (router.release lease).2.2.configs = router.configs := by
    unfold release
    split <;> rfl
  cases report with
  | success | failure =>
      simp only [Router.report, Router.success, Router.failure]
      split <;> next heq =>
        rw [heq] at hrelease
        exact hrelease

end Aegis.Routing.Router

namespace Aegis.Gateway

open Aegis.Lib (run run_invariant')
open Aegis.Persistence (Catalog Db Store TenantPolicy)
open Aegis.Request (ChatInput Record)
open Aegis.Routing (Lease ProviderConfig Router Selection highestPrices staticallyEligible)

theorem Process.step_configs {σ : Type} (store : Store σ)
    (hashChat : ChatInput → Except GoError (List UInt8)) (service : Service) (p : Process)
    (env : Env) (s : σ) (router : Router) :
    (p.step store hashChat service env s router).2.2.configs = router.configs := by
  cases hselecting : p.phase.isSelecting with
  | false =>
      rw [p.step_router s router hselecting]
      split
      · rfl
      · exact Router.configs_report ..
  | true =>
      obtain ⟨record, loop, hphase⟩ := Execution.isSelecting_iff hselecting
      simp only [Process.step, hphase, Process.advance]
      by_cases hmax : (loop.attemptNumber : Int) ≤ service.config.maxAttempts
      · rw [Process.select_eq _ _ _ _ _ _ hmax]
        exact Router.configs_selectFrom ..
      · rw [Process.select, if_neg hmax]

theorem System.step_configs {σ : Type} (platform : Platform σ) (x : System σ) (action : Action)
    (replica : Nat) :
    ((x.step platform action).routers replica).configs = (x.routers replica).configs := by
  cases action with
  | submit pid job =>
      simp only [System.step]
      split <;> rfl
  | advance pid env =>
      simp only [System.step]
      split
      · rfl
      · next p hp =>
          dsimp only
          by_cases hreplica : replica = p.job.replica
          · subst hreplica
            rw [Function.update_self, Process.step_configs]
          · rw [Function.update_of_ne hreplica]
  | cancel => rfl
  | interfere replica' state =>
      simp only [System.step]
      by_cases hreplica : replica = replica'
      · subst hreplica
        rw [Function.update_self]
      · rw [Function.update_of_ne hreplica]

/-! ## By stage -/

/-- The tenant's policy for the model of a job, as the catalog has it. -/
def Permits (catalog : Catalog) (job : Job) (policy : TenantPolicy) : Prop :=
  Persistence.Postgres.tenantPolicy job.principal.tenantID job.input.model (Db.init catalog)
    = .ok (policy, Db.init catalog)

/-- `TenantPolicy` reads the catalog only. -/
theorem permits_of_tenantPolicy {db db' : Db} {job : Job} {policy : TenantPolicy}
    (h : Persistence.Postgres.tenantPolicy job.principal.tenantID job.input.model db
      = .ok (policy, db')) : Permits db.catalog job policy := by
  unfold Persistence.Postgres.tenantPolicy at h
  unfold Permits Persistence.Postgres.tenantPolicy
  dsimp only [Db.init]
  split at h
  · cases h
    rfl
  · cases h

section Stages

variable (configs : List ProviderConfig) (service : Service) (catalog : Catalog) (job : Job)

/-- The completion tokens that a job may use. -/
def maxCompletion : Int :=
  if job.input.maxTokens = 0 then service.config.defaultMaxTokens else job.input.maxTokens

/-- The selection is made by the tenant's policy. -/
def Selects (selection : Selection) : Prop :=
  ∃ policy, Permits catalog job policy ∧ selection.model = job.input.model
    ∧ selection.dataClassification = policy.dataClassification
    ∧ selection.allowedProviders = policy.allowedProviders

/-- The amount is the cost of the estimate at the highest prices. -/
def Quotes (selection : Selection) (amount : Int) : Prop :=
  ∃ input output, highestPrices configs selection = .ok (input, output)
    ∧ Budget.costMicroUSD (estimatePromptTokens job.input.messages) (maxCompletion service job)
      input output = .ok amount

/-- The lease is on a provider that the selection allows. -/
def Leases (selection : Selection) (lease : Lease) : Prop :=
  ∃ config ∈ configs, lease = Lease.of lease.entry config
    ∧ staticallyEligible selection config = true

/-- What a stage carries from the policy and the router. -/
def Stage.Governed : Stage → Prop
  | .received | .validated | .abandoning _ | .rejecting _ _ | .settling _ _ | .closing _
  | .releasing _ => True
  | .admitting policy => Permits catalog job policy
  | .reserving selection reservation =>
      Selects catalog job selection ∧ Quotes configs service job selection reservation
  | .reserved selection | .routed selection => Selects catalog job selection
  | .selecting loop | .failing loop _ _ _ _ | .backingOff loop _ =>
      Selects catalog job loop.selection
  | .leased loop lease | .attempted loop lease | .calling loop lease _
  | .completing loop lease _ _ _ _ =>
      Selects catalog job loop.selection ∧ Leases configs loop.selection lease

/-- A process asks nobody but the providers that the policy allows. -/
structure Governed (p : Process) : Prop where
  calls : ∀ c ∈ p.calls, ∃ selection config, Selects catalog job selection
    ∧ config ∈ configs ∧ config.provider.name = c.2
    ∧ staticallyEligible selection config = true
  running : ∀ record stage, p.phase = .running record stage →
    stage.Governed configs service catalog job

end Stages

section Steps

variable {configs : List ProviderConfig} {service : Service} {catalog : Catalog}
  {p p' : Process} {record : Record} {env : Env} {db db' : Db} {stage : Stage}

/-- The stages that ask the router. -/
def Stage.routes : Stage → Bool
  | .admitting _ | .selecting _ => true
  | _ => false

/-- A step that does not ask the router passes on what it has. -/
theorem Branch.governed
    (h : Branch Persistence.Postgres.store service p record env db stage p' db')
    (hroutes : stage.routes = false) (hcatalog : db.catalog = catalog)
    (hstage : stage.Governed configs service catalog p.job) {record' : Record} {stage' : Stage}
    (hphase' : p'.phase = .running record' stage') :
    stage'.Governed configs service catalog p.job := by
  cases h with
  | policy h =>
      obtain ⟨-, rfl⟩ := Phase.running.inj hphase'
      have hpolicy := Persistence.transact_ok (perform_ok h)
      rw [← hcatalog]
      exact permits_of_tenantPolicy hpolicy
  | quote | lease | exhausted | refuse | unquoted => cases hroutes
  | validate | forbidden | exceeded | complete | fail | interrupted | close =>
      obtain ⟨-, rfl⟩ := Phase.running.inj hphase'
      exact trivial
  | reserve =>
      obtain ⟨-, rfl⟩ := Phase.running.inj hphase'
      exact hstage.1
  | fault =>
      obtain ⟨-, rfl⟩ := Phase.running.inj hphase'
      exact hstage.1
  | route | progress | start | begin | answer | retry | again =>
      obtain ⟨-, rfl⟩ := Phase.running.inj hphase'
      exact hstage
  | unvalidated | abandon | unreserved | reject | unrouted | stalled | unstarted
  | unpriced | uncompleted | settle | unfailed | release | panic => cases hphase'

/-- The selection and the reservation are made of the policy. -/
theorem Process.quote_governed {policy : TenantPolicy} {router : Router}
    (hconfigs : router.configs = configs) (hpolicy : Permits catalog p.job policy)
    {record' : Record} {stage' : Stage}
    (hphase' : (p.quote service record policy env router).phase = .running record' stage') :
    stage'.Governed configs service catalog p.job := by
  unfold Process.quote at hphase'
  dsimp only at hphase'
  split at hphase'
  · obtain ⟨-, rfl⟩ := Phase.running.inj hphase'
    exact trivial
  · split at hphase'
    · obtain ⟨-, rfl⟩ := Phase.running.inj hphase'
      exact trivial
    · next prices hprices =>
        split at hphase'
        · cases hphase'
        · next hcost =>
            obtain ⟨-, rfl⟩ := Phase.running.inj hphase'
            rw [hconfigs] at hprices
            exact ⟨⟨policy, hpolicy, rfl, rfl, rfl⟩, _, _, hprices, hcost⟩

/-- `Select` leases what the selection allows. -/
theorem Process.select_governed {loop : Loop} {router : Router}
    (hconfigs : router.configs = configs) (hselects : Selects catalog p.job loop.selection)
    {record' : Record} {stage' : Stage}
    (hphase' : (p.select service record loop env router).1.phase = .running record' stage') :
    stage'.Governed configs service catalog p.job := by
  unfold Process.select at hphase'
  split at hphase'
  · dsimp only at hphase'
    split at hphase'
    · split at hphase'
      · cases hphase'
      · obtain ⟨-, rfl⟩ := Phase.running.inj hphase'
        exact trivial
    · next lease router' hselect =>
        obtain ⟨-, rfl⟩ := Phase.running.inj hphase'
        refine ⟨hselects, ?_⟩
        have hseen : router.configs
            = ({ router with state := env.seen.getD router.state } : Router).configs := rfl
        obtain ⟨config, hconfig, hlease, heligible, -⟩ := Router.selectFrom_ok hseen hselect
        refine ⟨config, hconfigs ▸ hconfig, hlease, ?_⟩
        rw [← heligible]
        exact congrFun (Routing.staticallyEligible_congr rfl rfl rfl) config
  · obtain ⟨-, rfl⟩ := Phase.running.inj hphase'
    exact trivial

/-- A provider call is begun at a lease. -/
theorem Branch.calls_governed {σ : Type} {store : Store σ} {s s' : σ}
    (h : Branch store service p record env s stage p' s')
    (hstage : stage.Governed configs service catalog p.job) {c : Nat × String}
    (hc : c ∈ p'.calls) :
    c ∈ p.calls ∨ ∃ selection config, Selects catalog p.job selection ∧ config ∈ configs
      ∧ config.provider.name = c.2 ∧ staticallyEligible selection config = true := by
  by_cases hattempted : ∃ loop lease, stage = .attempted loop lease
  · obtain ⟨loop, lease, rfl⟩ := hattempted
    cases h with
    | begin =>
        rcases List.mem_append.mp hc with hold | hnew
        · exact Or.inl hold
        · obtain ⟨hselects, config, hconfig, hlease, heligible⟩ := hstage
          rw [List.mem_singleton.mp hnew]
          refine Or.inr ⟨loop.selection, config, hselects, hconfig, ?_, heligible⟩
          rw [hlease]
          rfl
  · rw [h.calls fun loop lease heq => hattempted ⟨loop, lease, heq⟩] at hc
    exact Or.inl hc

theorem Process.step_governed (hashChat : ChatInput → Except GoError (List UInt8))
    {router : Router} (hconfigs : router.configs = configs) (hcatalog : db.catalog = catalog)
    (h : Governed configs service catalog p.job p) :
    Governed configs service catalog p.job
      (p.step Persistence.Postgres.store hashChat service env db router).1 := by
  rcases p.step_cases Persistence.Postgres.store hashChat service env db router with
    ⟨hphase, hopen, -⟩ | ⟨record, stage, hphase, hbranch⟩ | ⟨-, hsame, -⟩
  · obtain ⟨phase, opened, hresult, -, hreceived⟩ :=
      p.open_result Persistence.Postgres.store hashChat env db
    rw [hopen, hresult]
    refine ⟨h.calls, ?_⟩
    intro record stage hphase'
    rw [(hreceived record stage hphase').2]
    exact trivial
  · have hstage := h.running record stage hphase
    constructor
    · intro c hc
      rcases hbranch.calls_governed hstage hc with hold | hnew
      · exact h.calls c hold
      · exact hnew
    · intro record' stage' hphase'
      cases hroutes : stage.routes with
      | false => exact hbranch.governed hroutes hcatalog hstage hphase'
      | true =>
          -- the two stages that ask the router
          simp only [Process.step, hphase] at hphase'
          cases stage with
          | admitting policy => exact p.quote_governed hconfigs hstage hphase'
          | selecting loop => exact p.select_governed hconfigs hstage hphase'
          | _ => cases hroutes
  · rw [hsame]
    exact h

end Steps

/-! ## Over whole runs -/

section Runs

variable {platform : Platform Db} {configs : Nat → List ProviderConfig} {catalog : Catalog}

/-- The configurations are fixed and every process is governed by its own. -/
structure Governs (platform : Platform Db) (configs : Nat → List ProviderConfig)
    (catalog : Catalog) (x : System Db) : Prop where
  routers : ∀ replica, (x.routers replica).configs = configs replica
  store : x.store.catalog = catalog
  procs : ∀ pid p, x.procs pid = some p →
    Governed (configs p.job.replica) (platform.services p.job.replica) catalog p.job p

theorem Governs.step (hstore : platform.store = Persistence.Postgres.store) {x : System Db}
    (h : Governs platform configs catalog x) (action : Action) :
    Governs platform configs catalog (x.step platform action) := by
  refine ⟨?_, ?_, ?_⟩
  · intro replica
    rw [System.step_configs]
    exact h.routers replica
  · rcases System.step_store_call platform x action with hsame | ⟨call, info, -, hcalled, -⟩
    · rw [hsame]
      exact h.store
    · rw [hcalled, hstore, (Persistence.Postgres.store_leaves call info x.store).1.catalog]
      exact h.store
  · intro pid q hq
    cases action with
    | submit pid' job =>
        rcases procs_submit hq with rfl | hold
        · exact ⟨fun c hc => absurd hc List.not_mem_nil, fun _ _ hphase => by cases hphase⟩
        · exact h.procs pid q hold
    | advance pid' env =>
        cases hp : x.procs pid' with
        | none =>
            rw [step_advance_none hp] at hq
            exact h.procs pid q hq
        | some p =>
            rcases procs_advance hp hq with ⟨-, rfl⟩ | ⟨-, hold⟩
            · rw [p.step_job, hstore]
              exact Process.step_governed platform.hashChat (h.routers _) h.store
                (h.procs pid' p hp)
            · exact h.procs pid q hold
    | cancel => exact h.procs pid q hq
    | interfere => exact h.procs pid q hq

theorem governs_init (platform : Platform Db) (catalog : Catalog) (routers : Nat → Router) :
    Governs platform (fun replica => (routers replica).configs) catalog
      (System.init (Db.init catalog) routers) where
  routers _ := rfl
  store := rfl
  procs _ _ hp := by cases hp

end Runs

/-- What clears a provider for a tenant's use of a model: its row and the
    tenant's, and the configuration of the replica that calls it. -/
structure Cleared (catalog : Catalog) (configs : List ProviderConfig)
    (tenantID model name : String) : Prop where
  tenant : ∃ t ∈ catalog.tenants.rows, t.id = tenantID ∧ t.status = .active
    ∧ ∃ config ∈ configs, config.provider.name = name ∧ config.enabled = true
      ∧ model ∈ config.provider.models
      ∧ t.dataClassification ∈ config.provider.dataClassifications
  provider : ∃ row ∈ catalog.providers.rows, row.name = name ∧ row.enabled = true
    ∧ ∃ tp ∈ catalog.providerPolicies.rows, tp.providerID = row.id ∧ tp.tenantID = tenantID
      ∧ tp.enabled = true
  model : ∃ m ∈ catalog.models.rows, m.publicName = model ∧ m.enabled = true
    ∧ ∃ mp ∈ catalog.modelPolicies.rows, mp.modelID = m.id ∧ mp.tenantID = tenantID
      ∧ mp.enabled = true

/-- A provider that passes the filter with the tenant's policy is cleared. -/
theorem cleared_of_selects {catalog : Catalog} {configs : List ProviderConfig} {job : Job}
    {selection : Selection} {config : ProviderConfig} (hselects : Selects catalog job selection)
    (hconfig : config ∈ configs) (heligible : staticallyEligible selection config = true) :
    Cleared catalog configs job.principal.tenantID job.input.model config.provider.name := by
  obtain ⟨policy, hpermits, hmodel, hclass, hallowed⟩ := hselects
  unfold Permits Persistence.Postgres.tenantPolicy at hpermits
  split at hpermits
  · next tenant limits model htenant hlimits hauthorized =>
      obtain ⟨rfl, -⟩ := Prod.mk.inj (Except.ok.inj hpermits)
      simp only [staticallyEligible, hallowed, hmodel, hclass, Bool.and_eq_true,
        List.contains_iff_mem] at heligible
      obtain ⟨⟨⟨henabled, hname⟩, hmodels⟩, hclasses⟩ := heligible
      obtain ⟨row, hrow, hrowName⟩ := List.mem_map.mp hname
      obtain ⟨hmem, hrow⟩ := List.mem_filter.mp hrow
      simp only [Bool.and_eq_true, List.any_eq_true, beq_iff_eq] at hrow
      obtain ⟨hrowEnabled, tp, htp, ⟨hprovider, hownTenant⟩, htpEnabled⟩ := hrow
      have hactive := List.find?_some htenant
      simp only [Bool.and_eq_true, beq_iff_eq] at hactive
      have hserved := List.find?_some hauthorized
      simp only [Bool.and_eq_true, List.any_eq_true, beq_iff_eq] at hserved
      obtain ⟨⟨hpublic, hmodelEnabled⟩, mp, hmp, ⟨hmodelID, hmodelTenant⟩, hmpEnabled⟩ := hserved
      exact {
        tenant := ⟨tenant, List.mem_of_find?_eq_some htenant, hactive.1, hactive.2, config,
          hconfig, rfl, henabled, hmodels, hclasses⟩
        provider := ⟨row, hmem, hrowName, hrowEnabled, tp, htp, hprovider, hownTenant, htpEnabled⟩
        model := ⟨model, List.mem_of_find?_eq_some hauthorized, hpublic, hmodelEnabled, mp, hmp,
          hmodelID, hmodelTenant, hmpEnabled⟩ }
  · cases hpermits

/-- **Requests go to cleared providers only.**  In every reachable state of any
    number of replicas, whatever other users do to the routers and however often a
    request fails over, every provider that was called for it is enabled in the
    database and in the replica's configuration, allowed for its tenant, serves
    the model, which the tenant may use, and is fit for the tenant's data.  No
    provider is called twice and none after the last attempt. -/
theorem calls_cleared (hashChat : ChatInput → Except GoError (List UInt8))
    (services : Nat → Service) (catalog : Catalog) (routers : Nat → Router)
    (actions : List Action) (pid : Nat) (p : Process)
    (hp : (run (System.step ⟨Persistence.Postgres.store, hashChat, services⟩)
      (System.init (Db.init catalog) routers) actions).procs pid = some p) :
    (∀ c ∈ p.calls,
        Cleared catalog (routers p.job.replica).configs p.tenantID p.job.input.model c.2)
      ∧ (p.calls.map Prod.snd).Nodup
      ∧ (p.calls.length : Int) ≤ (services p.job.replica).config.maxAttempts := by
  let platform : Platform Db := ⟨Persistence.Postgres.store, hashChat, services⟩
  have hgoverns := run_invariant'
    (I := Governs platform (fun replica => (routers replica).configs) catalog)
    (fun x action h => h.step rfl action) actions (governs_init platform catalog routers)
  have hattempts : Attempts (services p.job.replica) p :=
    System.run_forall_service platform attempts_new
      (fun _ _ env s router h => h.step env s router) (Db.init catalog) routers actions pid p hp
  refine ⟨?_, hattempts.distinct, hattempts.bounded⟩
  intro c hc
  obtain ⟨selection, config, hselects, hconfig, hname, heligible⟩ :=
    (hgoverns.procs pid p hp).calls c hc
  rw [← hname]
  exact cleared_of_selects hselects hconfig heligible

/-- Tenant `t` asks the model `m` and the provider `p` is called. -/
theorem calls_cleared_called :
    ∃ p, (run (System.step (samplePlatform Persistence.Postgres.store)) sampleStart
        upToCall).procs 0 = some p
      ∧ p.calls = [(1, "p")]
      ∧ Cleared (Catalog.sample 100 Catalog.hundred_fits) sampleRouter.configs "t" "m" "p" := by
  have hcalled : ((run (System.step (samplePlatform Persistence.Postgres.store)) sampleStart
      upToCall).procs 0).map (fun p => (p.calls, p.tenantID, p.job.input.model))
        = some ([(1, "p")], "t", "m") := by
    decide +kernel
  obtain ⟨p, hp, hfacts⟩ := Option.map_eq_some_iff.mp hcalled
  obtain ⟨hcalls, htenant, hmodel⟩ : p.calls = [(1, "p")] ∧ p.tenantID = "t"
      ∧ p.job.input.model = "m" := by
    simpa using hfacts
  refine ⟨p, hp, hcalls, ?_⟩
  have hcleared := (calls_cleared (fun _ => .ok [1]) (fun _ => newService false {})
    (Catalog.sample 100 Catalog.hundred_fits) (fun _ => sampleRouter) upToCall 0 p hp).1
    (1, "p") (by simp [hcalls])
  rw [htenant, hmodel] at hcleared
  exact hcleared

end Aegis.Gateway
