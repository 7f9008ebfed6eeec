/-
  Aegis.Gateway.Leases

  The executions of one replica and the capacity of its router.

  `Process.step` calls `Select`, `Success` and `Failure` as one operation each.
  Here an execution goes through them operation by operation, while other
  executions and other users of the router do the same.  A `Loan` is one
  `Select` of an execution with every report it made on the lease; a lease that
  an execution forgot would stay in its loans, unreported.
-/

import Aegis.Gateway.System
import Aegis.Routing.Capacity

namespace Aegis.Gateway

open Aegis.Persistence (Catalog Db Postgres.store Store)
open Aegis.Request (ChatInput Record)
open Aegis.Routing (Balanced Lease Managed Moves ProviderConfig Report Router Selection Usage
  staticallyEligible)

/-! ## The reports of a process -/

/-- The report that a step makes on the lease of its process, by the phases
    before and after it. -/
def Phase.reported (now : Time) : Phase → Phase → Option (Lease × Report)
  | .running _ (.leased _ lease), .returned _ => some (lease, .failure false now)
  | .running _ (.calling _ lease _), .returned _ => some (lease, .failure false now)
  | .running _ (.calling _ lease _), .running _ (.failing _ _ _ _ retryable) =>
      some (lease, .failure retryable now)
  | .running _ (.completing _ lease _ _ _ _), .returned _ => some (lease, .failure false now)
  | .running _ (.completing _ lease started _ _ _), .running _ (.settling _ _) =>
      some (lease, .success (Time.sinceMillis started now))
  | _, _ => none

/-- The lease that a process holds. -/
def Phase.lease? : Phase → Option Lease
  | .running _ (.leased _ lease) | .running _ (.attempted _ lease)
  | .running _ (.calling _ lease _) | .running _ (.completing _ lease _ _ _ _) => some lease
  | _ => none

/-- At the head of the loop. -/
def Phase.isSelecting : Phase → Bool
  | .running _ (.selecting _) => true
  | _ => false

/-- After `Select`. -/
def Process.selected (p : Process) (record : Record) (loop : Loop) :
    Except GoError Lease → Process
  | .error err =>
      if err = Router.divideByZero then { p with phase := .panicked }
      else p.goto record (.closing err)
  | .ok lease => p.goto record (.leased
      { loop with excluded := lease.provider.name :: loop.excluded } lease)

/-- What `Select` is asked. -/
def Loop.request (loop : Loop) (now : Time) : Selection :=
  { loop.selection with excludedProviders := loop.excluded, now := now }

theorem Process.select_eq (service : Service) (p : Process) (record : Record) (loop : Loop)
    (env : Env) (router : Router)
    (h : (loop.attemptNumber : Int) ≤ service.config.maxAttempts) :
    p.select service record loop env router
      = let result := Router.selectFrom { router with state := env.seen.getD router.state } router
          (loop.request env.info.now)
        (p.selected record loop result.1, result.2) := by
  unfold Process.select
  rw [if_pos h]
  dsimp only [Loop.request]
  split
  · next hselect =>
      rw [hselect, Process.selected]
      split <;> rfl
  · next hselect => rw [hselect]; rfl

section Reports

variable {σ : Type} {store : Store σ} {hashChat : ChatInput → Except GoError (List UInt8)}
  {service : Service} {env : Env}

/-- **The reports of a step** are what it does to the router, outside `Select`. -/
theorem Process.step_router (p : Process) (s : σ) (router : Router)
    (hphase : p.phase.isSelecting = false) :
    (p.step store hashChat service env s router).2.2
      = match Phase.reported env.info.now p.phase
            (p.step store hashChat service env s router).1.phase with
        | none => router
        | some (lease, report) => (router.report lease report).2 := by
  unfold Process.step
  split
  · next h =>
      rw [h]
      rfl
  · next record stage h =>
      rw [h] at hphase ⊢
      cases stage with
      | selecting => cases hphase
      | received | validated | reserved | routed | leased | completing | backingOff =>
          simp only [Process.advance]
          split <;> rfl
      | abandoning | admitting | rejecting | settling | closing | releasing | attempted => rfl
      | reserving =>
          simp only [Process.advance]
          split
          · split <;> rfl
          · rfl
      | calling =>
          simp only [Process.advance, Process.answered]
          split
          · split <;> rfl
          · rfl
      | failing =>
          simp only [Process.advance]
          split
          · rfl
          · split <;> rfl
  · next result h =>
      rw [h]
      rfl
  · next h =>
      rw [h]
      rfl

/-- A step of a running process keeps its lease, or reports on it and then
    holds none. -/
theorem Branch.keepsLease {p p' : Process} {record : Record} {s s' : σ} {stage : Stage}
    (h : Branch store service p record env s stage p' s')
    (hstage : (Phase.running record stage).isSelecting = false) (now : Time) :
    (p'.phase.lease? = (Phase.running record stage).lease?
        ∧ Phase.reported now (.running record stage) p'.phase = none)
      ∨ ∃ lease report, (Phase.running record stage).lease? = some lease
          ∧ Phase.reported now (.running record stage) p'.phase = some (lease, report)
          ∧ p'.phase.lease? = none ∧ p'.phase.isSelecting = false := by
  cases h with
  | lease | exhausted | panic => cases hstage
  | unstarted | unpriced | fault | complete | uncompleted =>
      exact Or.inr ⟨_, _, rfl, rfl, rfl, rfl⟩
  | _ => exact Or.inl ⟨rfl, rfl⟩

theorem Process.step_lease (store : Store σ)
    (hashChat : ChatInput → Except GoError (List UInt8)) (service : Service) (p : Process)
    (env : Env) (s : σ) (router : Router) (hphase : p.phase.isSelecting = false) :
    ((p.step store hashChat service env s router).1.phase.lease? = p.phase.lease?
        ∧ Phase.reported env.info.now p.phase
          (p.step store hashChat service env s router).1.phase = none)
      ∨ ∃ lease report, p.phase.lease? = some lease
          ∧ Phase.reported env.info.now p.phase
            (p.step store hashChat service env s router).1.phase = some (lease, report)
          ∧ (p.step store hashChat service env s router).1.phase.lease? = none
          ∧ (p.step store hashChat service env s router).1.phase.isSelecting = false := by
  rcases p.step_cases store hashChat service env s router with
    ⟨hsubmitted, hp', -⟩ | ⟨record, stage, hrunning, hbranch⟩ | ⟨hover, hp', -⟩
  · obtain ⟨phase, opened, hopen, -, hreceived⟩ := p.open_result store hashChat env s
    rw [hp', hopen, hsubmitted]
    refine Or.inl ⟨?_, rfl⟩
    cases phase with
    | submitted | returned | panicked => rfl
    | running record stage =>
        obtain ⟨-, rfl⟩ := hreceived record stage rfl
        rfl
  · rw [hrunning] at hphase ⊢
    exact hbranch.keepsLease hphase env.info.now
  · rcases hover with ⟨result, hover⟩ | hover
    all_goals
      rw [hp', hover]
      exact Or.inl ⟨rfl, rfl⟩

end Reports

/-! ## Executions -/

/-- A `Select` of an execution and the reports made on the lease it returned. -/
structure Loan where
  usage : Usage
  granted : Bool := false
  reports : List Report := []

structure Execution where
  process : Process
  /-- the latest first -/
  loans : List Loan := []

namespace Execution

section Step

variable {σ : Type} (store : Store σ) (hashChat : ChatInput → Except GoError (List UInt8))
  (service : Service)

/-- The next operation of the call in progress; when `Select` returns, the
    process goes on. -/
def resume (e : Execution) (loan : Loan) (earlier : List Loan) (router : Router) :
    Execution × Router :=
  let (usage, router) := loan.usage.step router
  match e.process.phase, usage with
  | .running record (.selecting loop), .leased index =>
      match router.configs[index]? with
      | none => ({ e with loans := { loan with usage } :: earlier }, router)
      | some config =>
          ({ process := e.process.selected record loop (.ok (Lease.of index config))
             loans := { loan with usage, granted := true } :: earlier }, router)
  | .running record (.selecting loop), .idle =>
      ({ process := e.process.selected record loop (.error (.ofSentinel .errNoEligibleProvider))
         loans := { loan with usage } :: earlier }, router)
  | _, _ => ({ e with loans := { loan with usage } :: earlier }, router)

/-- A report on the latest lease. -/
def report (report : Report) : List Loan → List Loan
  | [] => []
  | loan :: earlier =>
      { loan with
        usage := loan.usage.report report, reports := loan.reports ++ [report] } :: earlier

/-- The step of the process, its report only begun. -/
def proceed (e : Execution) (env : Env) (s : σ) (router : Router) : Execution × σ × Router :=
  let (process, s, _) := e.process.step store hashChat service env s router
  match Phase.reported env.info.now e.process.phase process.phase with
  | none => ({ e with process }, s, router)
  | some (_, report) => ({ process, loans := Execution.report report e.loans }, s, router)

/-- The call in progress, and the earlier loans. -/
def current (e : Execution) : Option (Loan × List Loan) :=
  match e.loans with
  | [] => none
  | loan :: earlier => if loan.usage.inProgress then some (loan, earlier) else none

/-- It has returned, and its last report is done. -/
def Finished (e : Execution) : Prop :=
  (∃ result, e.process.phase = .returned result) ∧ e.current = none

/-- The process is about to call `Select`. -/
def wants (e : Execution) : Option Loop :=
  match e.process.phase with
  | .running _ (.selecting loop) =>
      if (loop.attemptNumber : Int) ≤ service.config.maxAttempts then some loop else none
  | _ => none

/-- One operation of an execution. -/
def step (e : Execution) (env : Env) (s : σ) (router : Router) : Execution × σ × Router :=
  match e.current with
  | some (loan, earlier) =>
      let (e, router) := e.resume loan earlier router
      (e, s, router)
  | none =>
      match e.wants service with
      | some loop =>
          let (usage, router) :=
            Usage.begin (env.seen.getD router.state) (loop.request env.info.now) router
          if usage = .idle then
            ({ e with process := { e.process with phase := .panicked } }, s, router)
          else ({ e with loans := { usage } :: e.loans }, s, router)
      | none => e.proceed store hashChat service env s router

end Step

end Execution

namespace Execution

section Moves

variable {σ : Type}

theorem current_some {e : Execution} {loan : Loan} {earlier : List Loan}
    (h : e.current = some (loan, earlier)) : e.loans = loan :: earlier := by
  unfold current at h
  split at h
  · cases h
  · next hloans =>
      split at h
      · cases h
        exact hloans
      · cases h

/-- Whatever follows it, the operation is the usage's own. -/
theorem resume_eq (e : Execution) (loan : Loan) (earlier : List Loan) (router : Router) :
    (e.resume loan earlier router).2 = (loan.usage.step router).2
      ∧ ∃ granted, (e.resume loan earlier router).1.loans
        = { loan with usage := (loan.usage.step router).1, granted } :: earlier := by
  unfold resume
  dsimp only
  split
  · split
    · exact ⟨rfl, _, rfl⟩
    · exact ⟨rfl, _, rfl⟩
  · exact ⟨rfl, _, rfl⟩
  · exact ⟨rfl, _, rfl⟩

/-- **One operation** moves one of the execution's usages. -/
theorem step_moves (store : Store σ) (hashChat : ChatInput → Except GoError (List UInt8))
    (service : Service) (e : Execution) (env : Env) (s : σ) (router : Router) :
    ∃ u u', Moves (e.loans.map Loan.usage)
      ((e.step store hashChat service env s router).1.loans.map Loan.usage) router
      (e.step store hashChat service env s router).2.2 u u' := by
  have hstays : Moves (e.loans.map Loan.usage) (e.loans.map Loan.usage) router router .idle
      .idle := ⟨fun _ _ => rfl, rfl, fun _ => .same rfl rfl rfl⟩
  have hhead : ∀ (u u' : Usage) (rest : List Usage) (p : Usage → Bool), p .idle = false →
      (u' :: rest).countP p + (p u).toNat = (u :: rest).countP p + (p u').toNat := by
    intro u u' rest p _
    rw [List.countP_cons, List.countP_cons]
    cases p u <;> cases p u' <;> simp
  unfold step
  split
  · next loan earlier hcurrent =>
      obtain ⟨hrouter, granted, hloans⟩ := e.resume_eq loan earlier router
      refine ⟨loan.usage, (loan.usage.step router).1, ?_, ?_, ?_⟩
      · dsimp only
        rw [hloans, current_some hcurrent]
        exact hhead _ _ _
      · dsimp only
        rw [hrouter]
        exact Usage.step_configs ..
      · intro index
        dsimp only
        rw [hrouter]
        exact Usage.step_accounts ..
  · split
    · next loop hwants =>
        have haccounts := Usage.begin_accounts (env.seen.getD router.state)
          (loop.request env.info.now) router
        have hconfigs := Usage.begin_configs (env.seen.getD router.state)
          (loop.request env.info.now) router
        generalize Usage.begin (env.seen.getD router.state) (loop.request env.info.now) router
          = begun at haccounts hconfigs
        obtain ⟨usage, router'⟩ := begun
        refine ⟨.idle, usage, ?_⟩
        dsimp only
        split
        · next hidle =>
            subst hidle
            exact ⟨fun _ _ => rfl, hconfigs, haccounts⟩
        · refine ⟨?_, hconfigs, haccounts⟩
          intro p hp
          rw [hp, List.map_cons, List.countP_cons]
          cases p usage <;> simp
    · unfold proceed
      dsimp only
      split
      · exact ⟨_, _, hstays⟩
      · next report hreported =>
          cases hloans : e.loans with
          | nil =>
              rw [hloans] at hstays
              exact ⟨_, _, hstays⟩
          | cons loan earlier =>
              exact ⟨loan.usage, loan.usage.report report, hhead _ _ _, rfl,
                fun index => Usage.report_accounts ..⟩

end Moves

end Execution

/-! ## Each lease is reported once -/

/-- Done with; a lease it was, if granted, has its report. -/
def Loan.Settled (loan : Loan) : Prop :=
  loan.usage = .idle ∧ loan.reports.length = loan.granted.toNat

theorem Loan.Settled.inProgress {loan : Loan} (h : loan.Settled) :
    loan.usage.inProgress = false := by
  rw [h.1]
  rfl

/-- In `Select`. -/
def Loan.Selecting (configs : List ProviderConfig) (loan : Loan) : Prop :=
  loan.usage.isSelecting = true ∧ loan.usage.Registered configs ∧ loan.granted = false
    ∧ loan.reports = []

/-- The lease on entry `index`, not reported. -/
def Loan.Held (index : Nat) (loan : Loan) : Prop :=
  loan.usage = .leased index ∧ loan.granted = true ∧ loan.reports = []

/-- In the only report on the lease. -/
def Loan.Reporting (loan : Loan) : Prop :=
  loan.usage.isReporting = true ∧ loan.granted = true ∧ loan.reports.length = 1

/-- The loans of an execution in a phase of its process: every earlier one is
    settled, and the latest is where the process is. -/
inductive Orderly (configs : List ProviderConfig) : Phase → List Loan → Prop
  | free {phase loans} (hphase : phase.lease? = none) (hloans : ∀ loan ∈ loans, loan.Settled) :
      Orderly configs phase loans
  | selecting {phase loan earlier} (hphase : phase.isSelecting = true)
      (hloan : loan.Selecting configs) (hearlier : ∀ loan ∈ earlier, loan.Settled) :
      Orderly configs phase (loan :: earlier)
  | holding {phase lease loan earlier} (hphase : phase.lease? = some lease)
      (hloan : loan.Held lease.entry) (hearlier : ∀ loan ∈ earlier, loan.Settled) :
      Orderly configs phase (loan :: earlier)
  | reporting {phase loan earlier} (hphase : phase.lease? = none)
      (hnot : phase.isSelecting = false) (hloan : loan.Reporting)
      (hearlier : ∀ loan ∈ earlier, loan.Settled) : Orderly configs phase (loan :: earlier)

namespace Execution

section Orderly

variable {σ : Type} {store : Store σ} {hashChat : ChatInput → Except GoError (List UInt8)}
  {service : Service} {env : Env} {e : Execution} {router : Router}

theorem current_cons {process : Process} {loan : Loan} {earlier : List Loan}
    (h : loan.usage.inProgress = true) :
    current ⟨process, loan :: earlier⟩ = some (loan, earlier) :=
  if_pos h

theorem current_of_settled (h : ∀ loan ∈ e.loans, loan.Settled) : e.current = none := by
  unfold current
  split
  · rfl
  · next loan earlier hloans =>
      have hloan := (h loan (by rw [hloans]; exact List.mem_cons_self ..)).inProgress
      rw [if_neg (by simp [hloan])]

/-- The loop of a process that is at its head. -/
theorem isSelecting_iff {phase : Phase} (h : phase.isSelecting = true) :
    ∃ record loop, phase = .running record (.selecting loop) := by
  unfold Phase.isSelecting at h
  split at h
  · exact ⟨_, _, rfl⟩
  · cases h

/-- A process at the head of its loop that does not call `Select` leaves it. -/
theorem step_unwanted (s : σ) (hphase : e.process.phase.isSelecting = true)
    (hwants : e.wants service = none) :
    ∃ record err, (e.process.step store hashChat service env s router).1.phase
      = .running record (.closing err) := by
  obtain ⟨record, loop, hrunning⟩ := isSelecting_iff hphase
  simp only [wants, hrunning] at hwants
  split at hwants
  · cases hwants
  · next hmax =>
      simp only [Process.step, hrunning, Process.advance, Process.select, if_neg hmax]
      exact ⟨_, _, rfl⟩

/-- An operation of `Select`. -/
theorem resume_selecting {loan : Loan} {earlier : List Loan}
    (hphase : e.process.phase.isSelecting = true) (hloan : loan.Selecting router.configs)
    (hearlier : ∀ loan ∈ earlier, loan.Settled) :
    Orderly router.configs (e.resume loan earlier router).1.process.phase
      (e.resume loan earlier router).1.loans := by
  obtain ⟨record, loop, hrunning⟩ := isSelecting_iff hphase
  obtain ⟨hselecting, hregistered, hgranted, hreports⟩ := hloan
  have hregistered' := hregistered.step
  have hconfigs := Usage.step_configs router loan.usage
  rcases Usage.step_selecting router hselecting with hgoes | hidle | ⟨index, hentry, hleased⟩
  · -- still in the loop
    have hnext : (e.resume loan earlier router).1
        = { e with loans := { loan with usage := (loan.usage.step router).1 } :: earlier } := by
      unfold resume
      dsimp only
      rw [hrunning]
      cases husage : (loan.usage.step router).1 with
      | idle | leased =>
          rw [husage] at hgoes
          cases hgoes
      | _ => rfl
    rw [hnext]
    exact .selecting hphase ⟨hgoes, hregistered', hgranted, hreports⟩ hearlier
  · have hnext : (e.resume loan earlier router).1
        = { process := e.process.selected record loop
              (.error (.ofSentinel .errNoEligibleProvider))
            loans := { loan with usage := .idle } :: earlier } := by
      unfold resume
      dsimp only
      rw [hrunning, hidle]
    rw [hnext]
    refine .free rfl fun l hl => ?_
    rcases List.mem_cons.mp hl with rfl | hl
    · refine ⟨rfl, ?_⟩
      rw [hreports, hgranted]
      rfl
    · exact hearlier l hl
  · obtain ⟨config, hconfig⟩ := hregistered index hentry
    rw [← hconfigs] at hconfig
    have hnext : (e.resume loan earlier router).1
        = { process := e.process.selected record loop (.ok (Lease.of index config))
            loans := { loan with usage := .leased index, granted := true } :: earlier } := by
      unfold resume
      dsimp only
      rw [hrunning, hleased]
      dsimp only
      rw [hconfig]
    rw [hnext]
    exact .holding rfl ⟨rfl, rfl, hreports⟩ hearlier

/-- An operation of a report. -/
theorem resume_reporting {loan : Loan} {earlier : List Loan}
    (hphase : e.process.phase.lease? = none) (hnot : e.process.phase.isSelecting = false)
    (hloan : loan.Reporting) (hearlier : ∀ loan ∈ earlier, loan.Settled) :
    Orderly router.configs (e.resume loan earlier router).1.process.phase
      (e.resume loan earlier router).1.loans := by
  obtain ⟨hreporting, hgranted, hreports⟩ := hloan
  have hnext : (e.resume loan earlier router).1
      = { e with loans := { loan with usage := (loan.usage.step router).1 } :: earlier } := by
    unfold resume
    dsimp only
    split
    · next hrunning _ =>
        rw [hrunning] at hnot
        cases hnot
    · next hrunning _ =>
        rw [hrunning] at hnot
        cases hnot
    · rfl
  rw [hnext]
  rcases Usage.step_reporting router hreporting with hgoes | hdone
  · exact .reporting hphase hnot ⟨hgoes, hgranted, hreports⟩ hearlier
  · refine .free hphase fun l hl => ?_
    rcases List.mem_cons.mp hl with rfl | hl
    · refine ⟨hdone, ?_⟩
      rw [hreports, hgranted]
      rfl
    · exact hearlier l hl

/-- A step of the process that keeps its lease, or has none. -/
theorem proceed_keeps {s : σ}
    (h : Phase.reported env.info.now e.process.phase
      (e.process.step store hashChat service env s router).1.phase = none) :
    (e.proceed store hashChat service env s router).1
      = { e with process := (e.process.step store hashChat service env s router).1 } := by
  unfold proceed
  dsimp only
  rw [h]

/-- **One operation.** -/
theorem step_orderly (h : Orderly router.configs e.process.phase e.loans) (s : σ) :
    Orderly router.configs (e.step store hashChat service env s router).1.process.phase
      (e.step store hashChat service env s router).1.loans := by
  obtain ⟨process, loans⟩ := e
  dsimp only at h
  cases h with
  | free hphase hloans =>
      unfold step
      rw [current_of_settled hloans]
      dsimp only
      split
      · next loop hwants =>
          -- `Select` begins
          have hselecting : process.phase.isSelecting = true := by
            unfold wants at hwants
            split at hwants
            · next hrunning =>
                dsimp only at hrunning
                rw [hrunning]
                rfl
            · cases hwants
          split
          · exact .free rfl hloans
          · next hbegun =>
              obtain ⟨hbegin, hentry⟩ := Usage.begin_selecting hbegun
              refine .selecting hselecting ⟨hbegin, ?_, rfl, rfl⟩ hloans
              intro index hindex
              cases hentry.symm.trans hindex
      · next hwants =>
          cases hselecting : process.phase.isSelecting with
          | true =>
              obtain ⟨record, err, hclosing⟩ : ∃ record err,
                  (process.step store hashChat service env s router).1.phase
                    = .running record (.closing err) :=
                step_unwanted (e := ⟨process, loans⟩) s hselecting hwants
              obtain ⟨_, _, hrunning⟩ := isSelecting_iff hselecting
              rw [proceed_keeps (by rw [hclosing, hrunning]; rfl)]
              dsimp only
              rw [hclosing]
              exact .free rfl hloans
          | false =>
              rcases process.step_lease store hashChat service env s router hselecting with
                ⟨hlease, hreported⟩ | ⟨lease, -, hlease, -⟩
              · rw [proceed_keeps hreported]
                exact .free (hlease.trans hphase) hloans
              · cases hlease.symm.trans hphase
  | selecting hphase hloan hearlier =>
      unfold step
      rw [current_cons (by rw [Usage.inProgress, hloan.1, Bool.true_or])]
      exact resume_selecting hphase hloan hearlier
  | @holding lease loan earlier hphase hloan hearlier =>
      obtain ⟨husage, hgranted, hreports⟩ := hloan
      have hselecting : process.phase.isSelecting = false := by
        cases h : process.phase.isSelecting with
        | false => rfl
        | true =>
            obtain ⟨_, _, hrunning⟩ := isSelecting_iff h
            rw [hrunning] at hphase
            cases hphase
      have hcurrent : current ⟨process, loan :: earlier⟩ = none :=
        if_neg (by rw [husage]; exact Bool.false_ne_true)
      have hwants : wants service ⟨process, loan :: earlier⟩ = none := by
        unfold wants
        split
        · next hrunning =>
            dsimp only at hrunning
            rw [hrunning] at hselecting
            cases hselecting
        · rfl
      unfold step
      rw [hcurrent, hwants]
      dsimp only
      rcases process.step_lease store hashChat service env s router hselecting with
        ⟨hlease, hreported⟩ | ⟨lease', report, hlease, hreported, hnone, hnot⟩
      · rw [proceed_keeps hreported]
        exact .holding (hlease.trans hphase) ⟨husage, hgranted, hreports⟩ hearlier
      · have hproceed : (proceed store hashChat service ⟨process, loan :: earlier⟩ env s router).1
            = { process := (process.step store hashChat service env s router).1
                loans := Execution.report report (loan :: earlier) } := by
          unfold proceed
          dsimp only
          rw [hreported]
        rw [hproceed]
        refine .reporting hnone hnot ⟨?_, hgranted, ?_⟩ hearlier
        · dsimp only
          rw [husage]
          rfl
        · dsimp only
          rw [hreports]
          rfl
  | reporting hphase hnot hloan hearlier =>
      unfold step
      rw [current_cons (by rw [Usage.inProgress, hloan.1, Bool.or_true])]
      exact resume_reporting hphase hnot hloan hearlier

end Orderly

end Execution

/-! ## A replica -/

structure Replica (σ : Type) where
  store : σ
  router : Router
  executions : List Execution := []
  /-- the `Select` calls of other users of the router -/
  callers : List Usage := []

namespace Replica

variable {σ : Type} (store : Store σ) (hashChat : ChatInput → Except GoError (List UInt8))
  (service : Service)

inductive Action (σ : Type) where
  /-- a client calls `Submit` or `Stream` -/
  | submit (job : Job)
  | advance (j : Nat) (env : Env)
  /-- somebody else calls `Select` -/
  | select (seen : Nat → Managed) (selection : Selection)
  /-- and reports on the lease, once or more -/
  | report (k : Nat) (report : Report)
  | resume (k : Nat)
  /-- other replicas and cancellations change the store -/
  | interfere (s : σ)

def step (x : Replica σ) : Action σ → Replica σ
  | .submit job => { x with executions := x.executions ++ [{ process := { job } }] }
  | .advance j env =>
      match x.executions[j]? with
      | none => x
      | some e =>
          let (e, s, router) := e.step store hashChat service env x.store x.router
          { x with store := s, router, executions := x.executions.set j e }
  | .select seen selection =>
      let (usage, router) := Usage.begin seen selection x.router
      { x with router, callers := x.callers ++ [usage] }
  | .report k report =>
      match x.callers[k]? with
      | none => x
      | some u => { x with callers := x.callers.set k (u.report report) }
  | .resume k =>
      match x.callers[k]? with
      | none => x
      | some u =>
          let (u, router) := u.step x.router
          { x with router, callers := x.callers.set k u }
  | .interfere s => { x with store := s }

/-- Everybody's use of the router. -/
def usages (x : Replica σ) : List Usage :=
  x.callers ++ x.executions.flatMap fun e => e.loans.map Loan.usage

section Steps

variable {store hashChat service} {x : Replica σ}

/-- **A step moves one usage.** -/
theorem step_moves (store : Store σ) (hashChat : ChatInput → Except GoError (List UInt8))
    (service : Service) (x : Replica σ) (action : Action σ) :
    ∃ u u', Moves x.usages (x.step store hashChat service action).usages x.router
      (x.step store hashChat service action).router u u' := by
  have hstays : ∀ y : Replica σ, y.usages = x.usages → y.router = x.router →
      ∃ u u', Moves x.usages y.usages x.router y.router u u' := by
    intro y husages hrouter
    rw [husages, hrouter]
    exact ⟨.idle, .idle, fun _ _ => rfl, rfl, fun _ => .same rfl rfl rfl⟩
  cases action with
  | submit job => exact hstays _ (by simp [usages, step]) rfl
  | interfere s => exact hstays _ rfl rfl
  | advance j env =>
      simp only [step]
      split
      · exact hstays _ rfl rfl
      · next e he =>
          obtain ⟨u, u', hcount, hconfigs, haccounts⟩ :=
            e.step_moves store hashChat service env x.store x.router
          refine ⟨u, u', ?_, hconfigs, haccounts⟩
          intro p hp
          have hown := hcount p hp
          have hset := Lib.countP_flatMap_set_add he (fun e => e.loans.map Loan.usage) p
            (e.step store hashChat service env x.store x.router).1
          simp only [usages, List.countP_append]
          omega
  | select seen selection =>
      refine ⟨.idle, (Usage.begin seen selection x.router).1, ?_, Usage.begin_configs ..,
        fun index => Usage.begin_accounts ..⟩
      intro p hp
      simp only [usages, step, List.countP_append, List.countP_singleton, hp]
      cases p (Usage.begin seen selection x.router).1 with
      | true =>
          simp only [Bool.toNat_false, Bool.toNat_true, if_true]
          omega
      | false => simp
  | report k report =>
      simp only [step]
      split
      · exact hstays _ rfl rfl
      · next u hu =>
          refine ⟨u, u.report report, ?_, rfl, fun index => Usage.report_accounts ..⟩
          intro p hp
          have hset := Lib.countP_set_add hu p (u.report report)
          simp only [usages, List.countP_append]
          omega
  | resume k =>
      simp only [step]
      split
      · exact hstays _ rfl rfl
      · next u hu =>
          refine ⟨u, (u.step x.router).1, ?_, Usage.step_configs ..,
            fun index => Usage.step_accounts ..⟩
          intro p hp
          have hset := Lib.countP_set_add hu p (u.step x.router).1
          simp only [usages, List.countP_append]
          omega

/-- What holds in every reachable state. -/
structure Accounted (configs : List ProviderConfig) (x : Replica σ) : Prop where
  configs_eq : x.router.configs = configs
  balanced : ∀ index, Balanced x.router x.usages index
  orderly : ∀ e ∈ x.executions, Orderly configs e.process.phase e.loans

theorem Accounted.step {configs : List ProviderConfig} (h : x.Accounted configs)
    (action : Action σ) : (x.step store hashChat service action).Accounted configs := by
  obtain ⟨u, u', hmoves⟩ := x.step_moves store hashChat service action
  refine ⟨hmoves.configs.trans h.configs_eq, fun index => (h.balanced index).moves hmoves, ?_⟩
  intro e he
  cases action with
  | submit job =>
      rcases List.mem_append.mp he with he | he
      · exact h.orderly e he
      · rw [List.mem_singleton.mp he]
        exact .free rfl fun _ hloan => absurd hloan List.not_mem_nil
  | advance j env =>
      simp only [Replica.step] at he
      split at he
      · exact h.orderly e he
      · next old hold =>
          rcases List.mem_or_eq_of_mem_set he with he | rfl
          · exact h.orderly e he
          · have horderly := h.orderly old (List.mem_of_getElem? hold)
            rw [← h.configs_eq] at horderly ⊢
            exact Execution.step_orderly horderly x.store
  | select | interfere => exact h.orderly e he
  | report k report | resume k =>
      simp only [Replica.step] at he
      split at he <;> exact h.orderly e he

end Steps

/-- An execution that has returned and finished its last report has settled
    every loan. -/
theorem settled_of_finished {configs : List ProviderConfig} {e : Execution}
    (horderly : Orderly configs e.process.phase e.loans) (hfinished : e.Finished) :
    ∀ loan ∈ e.loans, loan.Settled := by
  obtain ⟨⟨result, hreturned⟩, hcurrent⟩ := hfinished
  obtain ⟨process, loans⟩ := e
  dsimp only at horderly hreturned
  rw [hreturned] at horderly
  cases horderly with
  | free _ hloans => exact hloans
  | selecting hphase => cases hphase
  | holding hphase => cases hphase
  | reporting _ _ hloan =>
      rw [Execution.current_cons (by rw [Usage.inProgress, hloan.1, Bool.or_true])] at hcurrent
      cases hcurrent

/-- So has one that has returned, up to the operations of its last report. -/
theorem reported_of_returned {configs : List ProviderConfig} {e : Execution}
    (horderly : Orderly configs e.process.phase e.loans) {result : Except GoError Outcome}
    (hreturned : e.process.phase = .returned result) {loan : Loan} (hloan : loan ∈ e.loans)
    (hgranted : loan.granted = true) : loan.reports.length = 1 := by
  have hsettled : ∀ {l : Loan}, l.granted = true → l.Settled → l.reports.length = 1 := by
    intro l hl h
    rw [h.2, hl]
    rfl
  rw [hreturned] at horderly
  generalize e.loans = loans at horderly hloan
  cases horderly with
  | free _ hloans => exact hsettled hgranted (hloans loan hloan)
  | selecting hphase => cases hphase
  | holding hphase => cases hphase
  | reporting _ _ hlatest hearlier =>
      rcases List.mem_cons.mp hloan with rfl | hold
      · exact hlatest.2.2
      · exact hsettled hgranted (hearlier loan hold)

/-! ## Runs -/

/-- **Capacity is conserved.**  In every reachable state the semaphore and the
    counter of each provider hold its unreported leases and calls in progress,
    within the capacity, and its breaker counts no more probes than were
    admitted and not told of.  An execution that has returned has reported each
    lease once.  When nobody uses the router, nothing is held, and a provider is
    refused for policy, health or an open circuit only. -/
theorem capacity_conserved {configs : List ProviderConfig}
    {breakerConfig : CircuitBreaker.Config} {router : Router}
    (hrouter : Router.new configs breakerConfig = .ok router) (s : σ)
    (actions : List (Action σ)) :
    let x := Lib.run (step store hashChat service) { store := s, router } actions
    (∀ index config, x.router.configs[index]? = some config →
      let entry := x.router.state index
      let unreported := x.usages.countP (Usage.holdsLease index)
      entry.occupancy
          = unreported + x.usages.countP (fun u => u.holdsSlot index && u.inProgress)
        ∧ entry.outstanding
          = unreported + x.usages.countP (fun u => u.isCounted index && u.inProgress)
        ∧ 0 ≤ entry.occupancy ∧ entry.occupancy ≤ config.maxConcurrency
        ∧ 0 ≤ entry.breaker.halfOpenActive
        ∧ entry.breaker.halfOpenActive ≤ x.usages.countP (Usage.mayProbe index)
        ∧ (entry.breaker.state ≠ .halfOpen → entry.breaker.halfOpenActive = 0))
    ∧ (∀ e ∈ x.executions, ∀ result, e.process.phase = .returned result →
        ∀ loan ∈ e.loans, loan.granted = true → loan.reports.length = 1)
    ∧ ((∀ e ∈ x.executions, e.Finished) → (∀ u ∈ x.callers, u = .idle) →
        ∀ index config, x.router.configs[index]? = some config →
          let entry := x.router.state index
          (entry.occupancy = 0 ∧ entry.outstanding = 0 ∧ entry.breaker.halfOpenActive = 0)
          ∧ ∀ selection, staticallyEligible selection config = true → entry.healthy = true →
              config.provider.name ∉ selection.excludedProviders →
              entry.breaker.stateAt selection.now ≠ .open →
              x.router.eligible selection config index = true
                ∧ (entry.breaker.allow selection.now).1 = true) := by
  have haccounted : Accounted router.configs
      (Lib.run (step store hashChat service) { store := s, router } actions) := by
    refine Lib.run_invariant' (fun x action hx => hx.step action) actions ⟨rfl, ?_, ?_⟩
    · exact fun index => Routing.balanced_new hrouter index
    · exact fun e he => absurd he List.not_mem_nil
  intro x
  refine ⟨?_, ?_, ?_⟩
  · intro index config hconfig
    have hbalanced := haccounted.balanced index
    obtain ⟨hoccupancy, houtstanding⟩ := hbalanced.leases
    have hbounded := hbalanced.bounded
    rw [Router.capacity, hconfig] at hbounded
    refine ⟨hoccupancy, houtstanding, ?_, hbounded, hbalanced.sound.nonneg, hbalanced.probes,
      hbalanced.sound.idle⟩
    rw [hbalanced.occupancy]
    exact Int.natCast_nonneg _
  · intro e he result hreturned loan hloan hgranted
    exact reported_of_returned (haccounted.orderly e he) hreturned hloan hgranted
  · intro hfinished hcallers index config hconfig
    have hidle : ∀ u ∈ x.usages, u = .idle := by
      intro u hu
      rcases List.mem_append.mp hu with hu | hu
      · exact hcallers u hu
      · obtain ⟨e, he, hu⟩ := List.mem_flatMap.mp hu
        obtain ⟨loan, hloan, rfl⟩ := List.mem_map.mp hu
        exact (settled_of_finished (haccounted.orderly e he) (hfinished e he) loan hloan).1
    have hmax : 0 < config.maxConcurrency := by
      refine Routing.Router.new_maxConcurrency hrouter ?_
      rw [← haccounted.configs_eq]
      exact List.mem_of_getElem? hconfig
    have hbalanced := haccounted.balanced index
    refine ⟨hbalanced.of_idle hidle, ?_⟩
    intro selection hstatic hhealthy hexcluded hclosed
    exact hbalanced.available hidle hmax hstatic hhealthy hexcluded hclosed

/-- One execution holds a lease on `p` during its provider call while somebody
    else selects `q`; then the provider answers and the execution returns. -/
def callAndAnswer : List (Action Db) :=
  .submit (sampleJob "a" .submit)
    :: List.replicate 11 (.advance 0 (sampleEnv "r" "e" 1))
    ++ [.advance 0 (sampleEnv "a" "f" 2), .advance 0 (sampleEnv "" "" 3),
      .select sampleRouter.state ⟨"m", "public", none, ["p"], .priorityFallback, 3⟩,
      .resume 0, .resume 0, .resume 0,
      .advance 0 { sampleEnv "" "" 4 with complete := .ok {
        model := "m", content := "hi", finishReason := "stop", usage := ⟨2, 1, 3⟩ } },
      .advance 0 (sampleEnv "g" "h" 5)]
    ++ List.replicate 5 (.advance 0 (sampleEnv "" "" 6))

theorem capacity_conserved_callAndAnswer :
    let x := Lib.run (step Postgres.store (fun _ => .ok [1]) (newService false {}))
      { store := Db.init (Catalog.sample 100 (by decide)), router := sampleRouter }
      callAndAnswer
    x.executions.map (fun e => e.loans.map Loan.reports) = [[[.success 0]]]
      ∧ x.callers = [.leased 1]
      ∧ ∀ config, x.router.configs[1]? = some config →
          (x.router.state 1).occupancy ≤ config.maxConcurrency := by
  refine ⟨by decide +kernel, by decide +kernel, ?_⟩
  intro config hconfig
  have hrouter : Router.new sampleRouter.configs {} = .ok sampleRouter := rfl
  exact ((capacity_conserved _ _ _ hrouter _ callAndAnswer).1 1 config hconfig).2.2.2.1

end Replica

end Aegis.Gateway
