/-
  Aegis.TenantOrder

  The order in which a tenant's facts first reach the topic, in the open
  system of `Aegis.Projection`.

  The record key gives the messages of a tenant one partition, and so their
  order in the topic; it does not make the relays publish in the order of
  creation.  A batch is worked through past a failed publication, the failed
  row comes back a second later, `RETURNING` promises no order, and two relays
  may hold rows of one tenant at once.  What is needed:

    * a claim returns a tenant's rows in the order of their creation, and none
      while an earlier one is not in the topic;
    * a publication that leaves its row out of the topic has no row of the same
      tenant after it in the batch.

  Creation order is the order of the rows in the outbox.
-/

import Aegis.Lib.Precedes
import Aegis.Projection

namespace Aegis.Pipeline

open Aegis.Events (Envelope)
open Aegis.Lib (Precedes)
open Aegis.Outbox
open Aegis.Persistence

/-! ## The order and its conditions -/

/-- The identifiers in the topic, in append order. -/
def topicIDs (s : State) : List String := s.log.map Envelope.eventID

/-- Two facts of one tenant that are both in the topic were first appended in
    the order of their creation. -/
def TenantOrder (x : State × Db) : Prop :=
  x.2.facts.Pairwise fun f g => f.tenantID = g.tenantID →
    f.id ∈ topicIDs x.1 → g.id ∈ topicIDs x.1 →
      (topicIDs x.1).idxOf f.id < (topicIDs x.1).idxOf g.id

instance (x : State × Db) : Decidable (TenantOrder x) := List.instDecidablePairwise _

/-- The rows that a claim returns. -/
def OpenAction.picks : OpenAction → Option (List String)
  | .pipeline (.claim _ result) => some result.picked
  | _ => none

/-- How many copies of its message a publication appends. -/
def appended (fact : OutboxFact) (outcome : Outcome) : Nat :=
  match (envelope fact).validate with
  | .error _ => 0
  | .ok () =>
      match outcome with
      | .acked extra => extra + 1
      | .failed copies => copies

/-- The fact that a publication leaves out of the topic, and the rest of its
    batch. -/
def leftOut (s : State) : OpenAction → Option (OutboxFact × List OutboxFact)
  | .pipeline (.publish i outcome) =>
      match (s.relays i).phase with
      | .publishing (fact :: rest) =>
          if appended fact outcome = 0 then some (fact, rest) else none
      | _ => none
  | _ => none

/-- A claim returns the rows of a tenant in the order of their creation and
    leaves no earlier one out that is not in the topic. -/
def ClaimsInOrder (x : State × Db) (action : OpenAction) : Prop :=
  ∀ picked ∈ action.picks, x.2.facts.Pairwise fun f g => f.tenantID = g.tenantID →
    f.id ∈ topicIDs x.1 ∨ Precedes picked f.id g.id

/-- A fact that a publication leaves out of the topic is the last of its tenant
    in the batch. -/
def FailsLast (x : State × Db) (action : OpenAction) : Prop :=
  ∀ out ∈ leftOut x.1 action, out.1.id ∈ topicIDs x.1
    ∨ ∀ g ∈ out.2, g.tenantID ≠ out.1.tenantID

instance (x : State × Db) (action : OpenAction) : Decidable (ClaimsInOrder x action) :=
  Option.decidableForallMem ..

instance (x : State × Db) (action : OpenAction) : Decidable (FailsLast x action) :=
  Option.decidableForallMem ..

/-! ## Invariant -/

/-- The facts a relay has still to publish. -/
def pending : Phase → List String
  | .publishing batch => batch.map OutboxFact.id
  | .marking _ rest => rest.map OutboxFact.id
  | .failing _ rest => rest.map OutboxFact.id

/-- The topic is in order, and each batch continues it in order. -/
structure Ordered (x : State × Db) : Prop where
  topic : x.2.facts.Pairwise fun f g => f.tenantID = g.tenantID →
    Precedes (topicIDs x.1) f.id g.id
  batch : ∀ i, x.2.facts.Pairwise fun f g => f.tenantID = g.tenantID →
    f.id ∈ topicIDs x.1 ∨ Precedes (pending (x.1.relays i).phase) f.id g.id

theorem mem_facts_of_pending {phase : Phase} {id : String} (h : id ∈ pending phase) :
    ∃ f ∈ phase.facts, f.id = id := by
  cases phase with
  | publishing batch =>
      obtain ⟨f, hf, hid⟩ := List.mem_map.mp h
      exact ⟨f, hf, hid⟩
  | marking fact rest =>
      obtain ⟨f, hf, hid⟩ := List.mem_map.mp h
      exact ⟨f, List.mem_cons_of_mem _ hf, hid⟩
  | failing fact rest =>
      obtain ⟨f, hf, hid⟩ := List.mem_map.mp h
      exact ⟨f, List.mem_cons_of_mem _ hf, hid⟩

namespace Ordered

variable {x : State × Db} {db : Db}

/-- The steps of consumers do not show. -/
theorem congr {s : State} (h : Ordered x) (hlog : s.log = x.1.log)
    (hrelays : s.relays = x.1.relays) (hfacts : db.facts = x.2.facts) : Ordered (s, db) := by
  have hids : topicIDs s = topicIDs x.1 := by rw [topicIDs, hlog, topicIDs]
  refine ⟨?_, ?_⟩
  · rw [hids, hfacts]
    exact h.topic
  · intro i
    rw [hids, hfacts, hrelays]
    exact h.batch i

/-- A relay moves on without a new message. -/
theorem setPhase (h : Ordered x) {i : Nat} {phase : Phase} (hfacts : db.facts = x.2.facts)
    (hphase : x.2.facts.Pairwise fun f g => f.tenantID = g.tenantID →
      f.id ∈ topicIDs x.1 ∨ Precedes (pending phase) f.id g.id) :
    Ordered (x.1.setPhase i phase, db) := by
  refine ⟨by rw [hfacts]; exact h.topic, ?_⟩
  intro k
  rw [hfacts]
  by_cases hk : k = i
  · subst hk
    simpa [State.setPhase, topicIDs] using hphase
  · simpa [State.setPhase, topicIDs, Function.update_of_ne hk] using h.batch k

/-- New facts are not in the topic and in no batch. -/
theorem of_frame (h : Ordered x) (hpub : Published x) (hframe : Postgres.Frame x.2 db) :
    Ordered (x.1, db) := by
  obtain ⟨new, hrows, -⟩ := hframe.outbox
  have hfacts : db.facts = x.2.facts ++ new.map OutboxRow.fact := by
    simp only [Db.facts, hrows, List.map_append]
  have hfresh : ∀ g ∈ new.map OutboxRow.fact, ∀ f ∈ x.2.facts, f.id ≠ g.id := by
    intro g hg f hf
    obtain ⟨r, hr, rfl⟩ := List.mem_map.mp hg
    obtain ⟨t, ht, rfl⟩ := List.mem_map.mp hf
    have hunique := db.outbox.unique
    rw [show db.outbox.rows = _ from hrows, List.pairwise_append] at hunique
    exact hunique.2.2 t ht r hr
  have htopic : ∀ g ∈ new.map OutboxRow.fact, g.id ∉ topicIDs x.1 := by
    intro g hg hmem
    obtain ⟨e, he, hid⟩ := List.mem_map.mp hmem
    obtain ⟨f, hf, rfl⟩ := hpub.genuine e he
    exact hfresh g hg f hf hid
  have hbatch : ∀ i, ∀ g ∈ new.map OutboxRow.fact, g.id ∉ pending (x.1.relays i).phase := by
    intro i g hg hmem
    obtain ⟨f, hf, hid⟩ := mem_facts_of_pending hmem
    exact hfresh g hg f (hpub.inHand i f hf) hid
  -- a pair with a new second fact is in order because that fact is nowhere yet
  refine ⟨?_, ?_⟩
  · rw [hfacts, List.pairwise_append]
    refine ⟨h.topic, ?_, ?_⟩
    · exact List.pairwise_of_forall_mem_list fun f _ g hg _ hmem => absurd hmem (htopic g hg)
    · intro f _ g hg _ hmem
      exact absurd hmem (htopic g hg)
  · intro i
    rw [hfacts, List.pairwise_append]
    refine ⟨h.batch i, ?_, ?_⟩
    · exact List.pairwise_of_forall_mem_list fun f _ g hg _ =>
        Or.inr fun hmem => absurd hmem (hbatch i g hg)
    · intro f _ g hg _
      exact Or.inr fun hmem => absurd hmem (hbatch i g hg)

end Ordered

/-! ## Publication -/

section Publish

variable {x : State × Db} {i : Nat} {fact : OutboxFact} {rest : List OutboxFact}

/-- What `publish` does: the copies are appended and the relay goes on with the
    rest. -/
theorem publish_eq (s : State) (i : Nat) (fact : OutboxFact) (rest : List OutboxFact)
    (outcome : Outcome) :
    ∃ phase, pending phase = rest.map OutboxFact.id
      ∧ (publish s i fact rest outcome).relays
          = Function.update s.relays i { s.relays i with phase }
      ∧ (publish s i fact rest outcome).log
          = s.log ++ List.replicate (appended fact outcome) (envelope fact) := by
  cases hvalid : (envelope fact).validate with
  | error err =>
      simp only [publish, appended, hvalid]
      exact ⟨.failing fact rest, rfl, rfl, by simp [State.setPhase]⟩
  | ok u =>
      simp only [publish, appended, hvalid]
      cases outcome with
      | acked extra => exact ⟨.marking fact rest, rfl, rfl, rfl⟩
      | failed copies => exact ⟨.failing fact rest, rfl, rfl, rfl⟩

/-- Publishing the first row of a batch keeps the order, if a row that is left
    out is the last of its tenant. -/
theorem ordered_publish (h : Ordered x) (hpub : Published x)
    (hphase : (x.1.relays i).phase = .publishing (fact :: rest)) (outcome : Outcome)
    (hlast : appended fact outcome = 0 → fact.id ∈ topicIDs x.1
      ∨ ∀ g ∈ rest, g.tenantID ≠ fact.tenantID) :
    Ordered (publish x.1 i fact rest outcome, x.2) := by
  obtain ⟨phase, hpending, hrelays, hlog⟩ := publish_eq x.1 i fact rest outcome
  have hids : topicIDs (publish x.1 i fact rest outcome)
      = topicIDs x.1 ++ List.replicate (appended fact outcome) fact.id := by
    simp [topicIDs, hlog, envelope]
  have hmine := h.batch i
  rw [hphase] at hmine
  refine ⟨?_, ?_⟩
  · -- whatever is older than the published row is in the topic
    rw [hids]
    refine (h.topic.and hmine).imp ?_
    rintro f g ⟨htopic, hbatch⟩ htenant
    refine (htopic htenant).append ?_
    intro hnew
    have hg : g.id = fact.id := List.eq_of_mem_replicate hnew
    rcases hbatch htenant with hmem | hprec
    · exact hmem
    · rw [hg] at hprec
      exact absurd hprec Precedes.not_head
  · intro k
    rw [hids]
    by_cases hk : k = i
    · subst hk
      rw [hrelays, Function.update_self, hpending]
      refine hmine.imp_of_mem ?_
      intro f g hf hg hbatch htenant
      rcases hbatch htenant with hmem | hprec
      · exact Or.inl (List.mem_append_left _ hmem)
      · by_cases hfirst : f.id = fact.id
        · -- the published row itself: appended, or the last of its tenant
          have hfact : fact ∈ x.2.facts :=
            hpub.inHand k fact (by rw [hphase]; exact List.mem_cons_self ..)
          by_cases hzero : appended fact outcome = 0
          · rcases hlast hzero with hmem | hnone
            · exact Or.inl (List.mem_append_left _ (by rw [hfirst]; exact hmem))
            · refine Or.inr fun hmem => ?_
              obtain ⟨r, hr, hrid⟩ := List.mem_map.mp hmem
              have hr' : r ∈ x.2.facts :=
                hpub.inHand k r (by rw [hphase]; exact List.mem_cons_of_mem _ hr)
              rw [fact_eq_of_id hr' hg hrid] at hr
              rw [fact_eq_of_id hf hfact hfirst] at htenant
              exact absurd htenant.symm (hnone g hr)
          · refine Or.inl (List.mem_append_right _ ?_)
            rw [hfirst]
            exact List.mem_replicate.mpr ⟨hzero, rfl⟩
        · exact Or.inr (hprec.tail hfirst)
    · rw [hrelays, Function.update_of_ne hk]
      refine (h.batch k).imp ?_
      intro f g hbatch htenant
      exact (hbatch htenant).imp_left (List.mem_append_left _)

end Publish

/-- A valid claim puts exactly the rows it names in hand. -/
theorem map_id_factsNamed {db : Db} {ids : List String}
    (h : ∀ id ∈ ids, ∃ f ∈ db.facts, f.id = id) :
    (factsNamed db ids).map OutboxFact.id = ids := by
  induction ids with
  | nil => rfl
  | cons id ids ih =>
      have hrest := ih fun id' hid => h id' (List.mem_cons_of_mem _ hid)
      obtain ⟨f, hf, hid⟩ := h id (List.mem_cons_self ..)
      have hsome : (db.facts.find? fun fact => fact.id == id).isSome = true := by
        rw [List.find?_isSome]
        exact ⟨f, hf, by simpa using hid⟩
      obtain ⟨g, hg⟩ := Option.isSome_iff_exists.mp hsome
      have hgid : g.id = id := by simpa using List.find?_some hg
      simp only [factsNamed, List.filterMap_cons, hg, List.map_cons, hgid]
      exact congrArg _ hrest

theorem picked_of_validClaim {db : Db} {limit : Nat} {claim : ClaimResult}
    (h : validClaim db limit claim = true) : ∀ id ∈ claim.picked, ∃ f ∈ db.facts, f.id = id := by
  simp only [validClaim, Bool.and_eq_true, List.all_eq_true, List.any_eq_true, beq_iff_eq] at h
  intro id hid
  obtain ⟨-, row, hrow, hkey, -⟩ := h.1.2 id hid
  exact ⟨row.fact, List.mem_map_of_mem hrow, hkey⟩

/-! ## Whole runs -/

/-- A step of the pipeline keeps the order under the two conditions. -/
theorem ordered_step (config : Config) {x : State × Db} (h : Ordered x) (hpub : Published x)
    (action : Action) (hclaim : ClaimsInOrder x (.pipeline action))
    (hlast : FailsLast x (.pipeline action)) : Ordered (step config x action) := by
  have hfacts := (step_frame config x action).facts
  cases action with
  | claim i result =>
      simp only [step]
      split
      · split
        · next hvalid =>
            refine h.setPhase (facts_claimRows ..) ?_
            rw [pending, map_id_factsNamed (picked_of_validClaim hvalid)]
            exact hclaim result.picked rfl
        · exact h
      · exact h
  | publish i outcome =>
      simp only [step]
      split
      · next fact rest hphase =>
          refine ordered_publish h hpub hphase outcome ?_
          intro hzero
          exact hlast (fact, rest) (by simp [leftOut, hphase, hzero])
      · exact h
  | markPublished i now =>
      simp only [step]
      split
      · next fact rest hphase =>
          refine h.setPhase (facts_markPublished ..) ?_
          have hbatch := h.batch i
          rw [hphase] at hbatch
          exact hbatch
      · exact h
  | markFailed i now ok =>
      simp only [step] at hfacts ⊢
      split
      · next fact rest hphase =>
          have hbatch := h.batch i
          rw [hphase] at hbatch
          rw [hphase] at hfacts
          exact h.setPhase hfacts hbatch
      · exact h
  | stopRelay i =>
      refine h.setPhase rfl ?_
      exact List.pairwise_of_forall_mem_list fun f _ g _ _ =>
        Or.inr fun hmem => absurd hmem List.not_mem_nil
  | assign j part start =>
      simp only [step]
      split
      · split
        · exact h.congr rfl rfl rfl
        · exact h
      · exact h
  | fetch j part =>
      simp only [step]
      split
      · split
        · exact h
        · split
          · exact h
          · exact h.congr rfl rfl rfl
      · exact h
  | process j info =>
      simp only [step] at hfacts ⊢
      split
      · next hsession =>
          rw [hsession] at hfacts
          dsimp only at hfacts ⊢
          split
          · next hrun => rw [hrun] at hfacts; exact h.congr rfl rfl hfacts
          · next hrun => rw [hrun] at hfacts; exact h.congr rfl rfl hfacts
      · exact h
  | commit j =>
      simp only [step]
      split
      · exact h.congr rfl rfl rfl
      · exact h
  | stopConsumer j => exact h.congr rfl rfl rfl

/-- Every step of the open system keeps the order under the two conditions. -/
theorem ordered_openStep (config : Config) (x : State × Db) (action : OpenAction)
    (h : Published x ∧ Ordered x) (hcond : ClaimsInOrder x action ∧ FailsLast x action) :
    Published (openStep config x action) ∧ Ordered (openStep config x action) := by
  cases action with
  | call call info =>
      have hframe := Postgres.store_frame call info x.2
      exact ⟨h.1.of_frame hframe, h.2.of_frame h.1 hframe⟩
  | evaluation failed jobID tenantID correlationID payload info =>
      have hframe := recordEvaluation_frame failed jobID tenantID correlationID payload info x.2
      exact ⟨h.1.of_frame hframe, h.2.of_frame h.1 hframe⟩
  | pipeline action =>
      exact ⟨published_step config h.1 action,
        ordered_step config h.2 h.1 action hcond.1 hcond.2⟩

theorem ordered_init (relays : Nat → Relay) (catalog : Catalog) :
    Ordered (State.init relays, Db.init catalog) :=
  ⟨List.Pairwise.nil, fun _ => List.Pairwise.nil⟩

/-- **Tenant order.** In every run in which claims return a tenant's rows in
    order with no earlier one missing from the topic, and in which a publication
    that leaves its row out is the last of its tenant in the batch, the facts of
    a tenant first appear in the topic in the order of their creation. -/
theorem tenantOrder_of_orderly (config : Config) (relays : Nat → Relay) (catalog : Catalog)
    (as : List OpenAction)
    (hclaims : ∀ x ∈ Lib.trace (openStep config) (State.init relays, Db.init catalog) as,
      ClaimsInOrder x.1 x.2.1)
    (hfails : ∀ x ∈ Lib.trace (openStep config) (State.init relays, Db.init catalog) as,
      FailsLast x.1 x.2.1) :
    TenantOrder (Lib.run (openStep config) (State.init relays, Db.init catalog) as) := by
  have hrun := Lib.run_invariant (I := fun x => Published x ∧ Ordered x)
    (C := fun x a => ClaimsInOrder x a ∧ FailsLast x a) (ordered_openStep config) as
    ⟨(inv_init config relays catalog).1, ordered_init relays catalog⟩
    (fun x hx => ⟨hclaims x hx, hfails x hx⟩)
  refine hrun.2.topic.imp ?_
  intro f g hprec htenant _ hg
  exact hprec htenant hg

/-- Two requests are accepted and their facts claimed together. -/
def twoClaimed : List OpenAction :=
  [accepts "a" "r1" "e1" 1, accepts "b" "r2" "e2" 2, .pipeline (.claim 0 ⟨["e1", "e2"], [], 3⟩)]

/-- The second publication fails, and its fact is published later. -/
def secondRetried : List OpenAction :=
  [.pipeline (.publish 0 (.acked 0)), .pipeline (.markPublished 0 4),
   .pipeline (.publish 0 (.failed 0)), .pipeline (.markFailed 0 5 true),
   .pipeline (.claim 0 ⟨["e2"], [], Time.seconds 2⟩),
   .pipeline (.publish 0 (.acked 0)), .pipeline (.markPublished 0 (Time.seconds 2))]

/-- The first publication fails, and its fact is published later. -/
def firstRetried : List OpenAction :=
  [.pipeline (.publish 0 (.failed 0)), .pipeline (.markFailed 0 4 true),
   .pipeline (.publish 0 (.acked 0)), .pipeline (.markPublished 0 5),
   .pipeline (.claim 0 ⟨["e1"], [], Time.seconds 2⟩),
   .pipeline (.publish 0 (.acked 0)), .pipeline (.markPublished 0 (Time.seconds 2))]

/-- A retry of the last row of a batch keeps the order. -/
theorem tenantOrder_secondRetried :
    TenantOrder (Lib.run sampleStep sampleInit (twoClaimed ++ secondRetried))
      ∧ topicIDs (Lib.run sampleStep sampleInit (twoClaimed ++ secondRetried)).1
          = ["e1", "e2"] := by
  refine ⟨tenantOrder_of_orderly _ _ _ (twoClaimed ++ secondRetried) ?_ ?_, ?_⟩
  · decide +kernel
  · decide +kernel
  · decide +kernel

/-- A retry of an earlier one inverts it: one relay, one broker error. -/
theorem tenantOrder_inverted :
    ((Lib.run sampleStep sampleInit (twoClaimed ++ firstRetried)).2.facts.map
        fun f => (f.id, f.tenantID, f.createdAt)) = [("e1", "t", 1), ("e2", "t", 2)]
      ∧ topicIDs (Lib.run sampleStep sampleInit (twoClaimed ++ firstRetried)).1 = ["e2", "e1"]
      ∧ ¬ TenantOrder (Lib.run sampleStep sampleInit (twoClaimed ++ firstRetried)) := by
  refine ⟨?_, ?_, ?_⟩
  · decide +kernel
  · decide +kernel
  · decide +kernel

end Aegis.Pipeline
