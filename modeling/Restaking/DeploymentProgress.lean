import Mathlib.Order.Filter.AtTopBot.Basic
import Mathlib.Order.Filter.Finite
import Restaking.HeightOutcomes
import Restaking.Progress
import Restaking.ProposalProgress

/-! A deployment gets its heights done. Where a quorum of the nodes serves its calls of
`propose` for a height, hears of the height from the router and signs one digest there,
the acks of the quorum are certified, the certificate makes its way through the router,
and the height is released under that digest. -/
namespace Restaking.Cluster
open Lib Filter

variable {n : Nat} {T D G S : Type*} [DecidableEq T] [DecidableEq D]
variable {cfg : Config n T D G S} {b : Behaviour (step cfg)} {faulty : Finset (Fin n)}
variable {h : Nat} {digest : D}

/-- A run of the first life of a deployment with a living router whose actors are not
passed over for ever and whose RPC reads and handler return. Its engine collects the acks
that a quorum has sent for a height in drive and certifies the height. -/
structure Deployed (faulty : Finset (Fin n)) (b : Behaviour (step cfg)) : Prop where
  begins : InFirstLife cfg faulty (b.state 0)
  lawful : ∀ k, Lawful faulty (b.state k) (b.label k) ∧ Supplies cfg faulty (b.label k)
  few : faulty.card ≤ maxFaults n
  up : ∀ k, (b.state k).router.reporter.up = true ∧ (b.state k).router.submitter.up = true
  heights : ∀ k, ∀ cert ∈ (b.state k).router.reporter.reported, (succHeight cert.height).isSome = true
  reporter : b.WeaklyFair ((routerPart cfg).seen (· = .report))
  submitter : b.WeaklyFair ((routerPart cfg).seen Router.submits)
  sequencer : b.WeaklyFair ((routerPart cfg).seen (· = .sequence))
  select : b.StronglyFair ((routerPart cfg).seen (· = .resolution))
  clock : ∀ t, ∃ k, t ≤ (b.state k).router.now
  certifies : ∀ h digest, LeadsTo
    (fun k => (b.state k).router.sequencer.phase.driven = some h ∧ (b.state k).Acked h digest)
    fun k => (b.state k).router.sequencer.phase.driven ≠ some h ∨
      ∃ cert ∈ (b.state k).router.reporter.reported, cert.height = h ∧
        cfg.router.verify cert = true

/-- The node is asked for the height, serves the call and is told of the height. -/
def Engaged (b : Behaviour (step cfg)) (i : Fin n) (h : Nat) : Prop :=
  ∃ id state start m directive, Served b i id ∧
    ((b.state start).nodes i).proposals.get? id = some ⟨h, state⟩ ∧
      b.label m = .deliver i directive ∧ directive.isTipReport = false ∧
        (h < directive.height ∨ h = directive.height ∧ start ≤ m)

/-- An engaged node signs what it has to sign. -/
theorem Engaged.acks {i : Fin n} (engaged : Engaged b i h)
    (agrees : ∀ k signed, (b.state k).signatures h i = some signed → signed = digest) :
    ∀ᶠ k in atTop, ⟨i, h, digest⟩ ∈ (b.state k).acks := by
  obtain ⟨id, state, start, m, directive, served, proposed, delivered, real, reaches⟩ := engaged
  obtain ⟨last, -, _, signed, stays⟩ := proposal_resolves served proposed delivered real reaches
  refine eventually_atTop.mpr ⟨last, fun k later => ?_⟩
  obtain ⟨-, -, signs, sent⟩ := stays k later
  obtain rfl := agrees k signed signs
  exact sent

/-- A quorum of engaged nodes that agree acks their digest. -/
theorem acked_of_engaged {nodes : Finset (Fin n)} (enough : quorum n ≤ nodes.card)
    (engaged : ∀ i ∈ nodes, Engaged b i h)
    (agree : ∀ i ∈ nodes, ∀ k signed, (b.state k).signatures h i = some signed → signed = digest) :
    ∀ᶠ k in atTop, (b.state k).Acked h digest := by
  have each : ∀ᶠ k in atTop, ∀ i ∈ nodes, ⟨i, h, digest⟩ ∈ (b.state k).acks :=
    (eventually_all_finset nodes).mpr fun i member => (engaged i member).acks (agree i member)
  refine each.mono fun k sent => enough.trans (Finset.card_le_card fun i member => ?_)
  simpa [ackers] using sent i member

namespace Deployed

theorem life (deployed : Deployed faulty b) (k : Nat) : InFirstLife cfg faulty (b.state k) :=
  b.reachableWhere deployed.begins deployed.lawful k

/-- The router of the deployment is as fair as the deployment. -/
theorem fair (deployed : Deployed faulty b) : Router.Fair ((routerPart cfg).behaviour b) where
  begins := InLife.router (deployed.life 0).inLife
  up := deployed.up
  heights := deployed.heights
  reporter := Component.weaklyFair_iff.mp deployed.reporter
  submitter := Component.weaklyFair_iff.mp deployed.submitter
  sequencer := Component.weaklyFair_iff.mp deployed.sequencer
  select := Component.stronglyFair_iff.mp deployed.select
  clock := deployed.clock

/-- A height that has been assigned and is not driven stays so. -/
theorem stays_released (deployed : Deployed faulty b) {k m : Nat} {call : Call T D}
    (assigned : (h, call) ∈ (b.state k).router.sequencer.assigned)
    (free : (b.state k).router.sequencer.phase.driven ≠ some h) (later : k ≤ m) :
    (b.state m).router.sequencer.phase.driven ≠ some h :=
  Router.run_retired deployed.fair ⟨call, assigned⟩ free later

theorem stays_assigned {k m : Nat} {call : Call T D}
    (assigned : (h, call) ∈ (b.state k).router.sequencer.assigned) (later : k ≤ m) :
    (h, call) ∈ (b.state m).router.sequencer.assigned :=
  Router.run_assigned (b := (routerPart cfg).behaviour b) later assigned

/-- An assigned height that a quorum has acked is released for good. -/
theorem releases (deployed : Deployed faulty b) {start : Nat} {call : Call T D}
    (assigned : (h, call) ∈ (b.state start).router.sequencer.assigned)
    (acked : (b.state start).Acked h digest) :
    ∃ last ≥ start, ∀ k ≥ last, (b.state k).router.sequencer.phase.driven ≠ some h := by
  by_cases driven : (b.state start).router.sequencer.phase.driven = some h
  · obtain ⟨m, later, free | ⟨cert, reported, rfl, verified⟩⟩ :=
      deployed.certifies h digest start ⟨driven, acked⟩
    · exact ⟨m, later, fun k => deployed.stays_released (stays_assigned assigned later) free⟩
    · obtain ⟨last, latest, free⟩ :=
        Router.certified_height_released deployed.fair (n := m) reported verified
      exact ⟨last, le_trans later latest, free⟩
  · exact ⟨start, le_rfl, fun k => deployed.stays_released assigned driven⟩

end Deployed

/-- **Agreed heights get done.** On every fair run of a deployment, a height that is
assigned is released for good if the nodes of a quorum are asked for it, serve their
calls, are told of it and sign no two digests there; and it ends resolved under the
digest of the quorum, as skipped under the skip digest or executed under its task's,
unless the router gave it up to a higher safe tip. -/
theorem agreed_height_concluded (deployed : Deployed faulty b) {start : Nat} {call : Call T D}
    (assigned : (h, call) ∈ (b.state start).router.sequencer.assigned) {nodes : Finset (Fin n)}
    (enough : quorum n ≤ nodes.card) (engaged : ∀ i ∈ nodes, Engaged b i h)
    (agree : ∀ i ∈ nodes, ∀ k signed, (b.state k).signatures h i = some signed → signed = digest) :
    ∃ last ≥ start, ∀ k ≥ last, (b.state k).router.sequencer.phase.driven ≠ some h ∧
      ((b.state k).router.GivenUp h ∨
        Router.ResolvedUnder cfg.router (b.state k).router h call digest) := by
  obtain ⟨acks, acked⟩ := eventually_atTop.mp (acked_of_engaged enough engaged agree)
  obtain ⟨last, later, free⟩ := deployed.releases
    (Deployed.stays_assigned assigned (le_max_left start acks)) (acked _ (le_max_right start acks))
  refine ⟨last, le_trans (le_max_left _ _) later, fun k beyond => ⟨free k beyond, ?_⟩⟩
  have within : acks ≤ k := (le_max_right start acks).trans (later.trans beyond)
  have after : start ≤ k := (le_max_left start acks).trans (later.trans beyond)
  rcases released_height_concluded (deployed.life k) deployed.few
    (Deployed.stays_assigned assigned after) (free k beyond) (deployed.up k).2 with
    givenUp | ⟨other, acked', under⟩
  · exact .inl givenUp
  · have home := InFirstLife.home (deployed.life k) deployed.few
    obtain rfl := acked_unique home.truthful cfg.inhabited deployed.few acked' (acked k within)
    exact .inr under

section Examples

/-- The only operator's ack is certified, and its task is executed. -/
def concludesTen : List (Label 1 Nat Nat Unit) :=
  signsTen ++ ([.activity (.certified ⟨0, 1, ⟨[true], ()⟩⟩), .report, .receive, .look,
    .attempt true, .outcome (some (some true)), .resolution, .sequence, .sequence] :
      List (Router.Label Nat Nat (Fin 1) Unit)).map .router

/-- Then time passes. -/
def concludesTenLabel (k : Nat) : Label 1 Nat Nat Unit :=
  concludesTen[k]?.getD (.router (.elapse 1))

def concludesTenState : Nat → Cluster 1 Nat Nat Unit :=
  Behaviour.along (step (operators 0)) (init (operators 0)) concludesTenLabel

theorem concludesTenLabel_later {k : Nat} (later : 24 ≤ k) :
    concludesTenLabel k = .router (.elapse 1) := by
  rw [concludesTenLabel, List.getElem?_eq_none later]
  rfl

/-- Only the clock moves in the end. -/
theorem concludesTen_tail (k : Nat) :
    concludesTenState (24 + k) = (concludesTenState 24).elapse k := by
  induction k with
  | zero =>
    show concludesTenState 24 = _
    generalize concludesTenState 24 = c
    rfl
  | succ k ih =>
    show ((step (operators 0) (concludesTenState (24 + k)) (concludesTenLabel (24 + k))).getD _) = _
    rw [concludesTenLabel_later (Nat.le_add_right _ _), ih]
    generalize concludesTenState 24 = c
    rfl

/-- What the first steps keep and the passing of time does not touch holds throughout. -/
theorem concludesTen_always {p : Cluster 1 Nat Nat Unit → Prop}
    (early : ∀ k ≤ 24, p (concludesTenState k)) (elapses : ∀ c k, p c → p (c.elapse k)) (k : Nat) :
    p (concludesTenState k) := by
  rcases Nat.le_total k 24 with before | later
  · exact early k before
  · obtain ⟨k, rfl⟩ := Nat.exists_eq_add_of_le later
    rw [concludesTen_tail]
    exact elapses _ k (early 24 le_rfl)

def concludesTenBehaviour : Behaviour (step (operators 0)) :=
  .ofLabels (init (operators 0)) concludesTenLabel fun k => by
    rcases Nat.lt_or_ge k 24 with early | later
    · exact (by decide +kernel : ∀ k < 24,
        (step (operators 0) (concludesTenState k) (concludesTenLabel k)).isSome = true) k early
    · rw [concludesTenLabel_later later]
      rfl

/-- The actors of the router have done their work. -/
theorem concludesTen_still {k : Nat} (later : 24 ≤ k) :
    Router.Still (concludesTenState k).router := by
  obtain ⟨k, rfl⟩ := Nat.exists_eq_add_of_le later
  rw [concludesTen_tail]
  exact ⟨rfl, rfl, rfl, rfl⟩

theorem concludesTen_deployed : Deployed ∅ concludesTenBehaviour where
  begins := .start rfl
  lawful := fun k => by
    show Lawful ∅ (concludesTenState k) (concludesTenLabel k) ∧
      Supplies (operators 0) ∅ (concludesTenLabel k)
    rcases Nat.lt_or_ge k 24 with early | later
    · obtain ⟨lawful, tenths⟩ := (by decide +kernel : ∀ k < 24,
        Lawful ∅ (concludesTenState k) (concludesTenLabel k) ∧ Tenths (concludesTenLabel k)) k early
      exact ⟨lawful, tenths.supplies⟩
    · rw [concludesTenLabel_later later]
      exact ⟨trivial, trivial⟩
  few := by decide
  up := by
    let up (c : Cluster 1 Nat Nat Unit) : Prop :=
      c.router.reporter.up = true ∧ c.router.submitter.up = true
    have early : ∀ k ≤ 24, up (concludesTenState k) := by decide +kernel
    exact concludesTen_always early fun _ _ alive => alive
  heights := by
    let low (c : Cluster 1 Nat Nat Unit) : Prop :=
      ∀ cert ∈ c.router.reporter.reported, (succHeight cert.height).isSome = true
    have early : ∀ k ≤ 24, low (concludesTenState k) := by decide +kernel
    exact concludesTen_always early fun _ _ below => below
  reporter := Behaviour.weaklyFair_of_idle fun k later enabled =>
    (concludesTen_still later).not_enabled.2.1 (Component.enabled_iff.mp enabled)
  submitter := Behaviour.weaklyFair_of_idle fun k later enabled =>
    (concludesTen_still later).not_enabled.1 (Component.enabled_iff.mp enabled)
  sequencer := Behaviour.weaklyFair_of_idle fun k later enabled =>
    (concludesTen_still later).not_enabled.2.2.1 (Component.enabled_iff.mp enabled)
  select := Behaviour.stronglyFair_of_idle fun k later enabled =>
    (concludesTen_still later).not_enabled.2.2.2.1 (Component.enabled_iff.mp enabled)
  clock := fun t => ⟨24 + t, by
    show t ≤ (concludesTenState (24 + t)).router.now
    rw [concludesTen_tail]
    exact Nat.le_add_left _ _⟩
  certifies := fun h digest n _ => by
    refine ⟨max n 24, le_max_left _ _, .inl ?_⟩
    show (concludesTenState (max n 24)).router.sequencer.phase.driven ≠ some h
    rw [(concludesTen_still (le_max_right n 24)).sequencer]
    exact nofun

theorem concludesTen_engaged : Engaged concludesTenBehaviour 0 0 := by
  have resolved : ∀ k ≥ 24, Resolved (concludesTenState k) 0 0 0 := by
    intro k later
    obtain ⟨k, rfl⟩ := Nat.exists_eq_add_of_le later
    rw [concludesTen_tail]
    exact ⟨1, rfl⟩
  have served : Served concludesTenBehaviour 0 0 :=
    .of_resolved (.start rfl) resolved concludesTen_deployed.clock
  exact ⟨0, .subscribed, 12, 12, .announce 0 10, served, rfl, rfl, rfl, .inr ⟨rfl, le_rfl⟩⟩

/-- The task of the only operator is executed at height 0, which is never given up. -/
theorem ten_executed_at_zero : ∃ last ≥ 15, ∀ k ≥ last,
    (concludesTenState k).router.sequencer.phase.driven ≠ some 0 ∧
      Router.ResolvedUnder (operators 0).router (concludesTenState k).router 0 ⟨0, 10, 10, 1⟩ 1 := by
  let steady (c : Cluster 1 Nat Nat Unit) : Prop :=
    c.router.sequencer.superseded = [] ∧ ∀ signed ∈ c.signatures 0 0, signed = 1
  have early : ∀ k ≤ 24, steady (concludesTenState k) := by decide +kernel
  have throughout (k : Nat) : steady (concludesTenState k) :=
    concludesTen_always early (fun _ _ same => same) k
  have assigned : (0, ⟨0, 10, 10, 1⟩) ∈ (concludesTenState 15).router.sequencer.assigned :=
    List.mem_singleton_self _
  have enough : quorum 1 ≤ Finset.card {(0 : Fin 1)} := by decide
  obtain ⟨last, later, done⟩ : ∃ last ≥ 15, ∀ k ≥ last,
      (concludesTenState k).router.sequencer.phase.driven ≠ some 0 ∧
        ((concludesTenState k).router.GivenUp 0 ∨ Router.ResolvedUnder (operators 0).router
          (concludesTenState k).router 0 ⟨0, 10, 10, 1⟩ 1) := by
    refine agreed_height_concluded concludesTen_deployed assigned enough ?_ ?_
    · intro i member
      rw [Finset.mem_singleton.mp member]
      exact concludesTen_engaged
    · intro i member k
      rw [Finset.mem_singleton.mp member]
      exact (throughout k).2
  refine ⟨last, later, fun k beyond => ⟨(done k beyond).1, (done k beyond).2.resolve_left ?_⟩⟩
  rintro ⟨tip, givenUp, -⟩
  have never := (throughout k).1
  generalize concludesTenState k = c at givenUp never
  rw [never] at givenUp
  cases givenUp

end Examples

end Restaking.Cluster
