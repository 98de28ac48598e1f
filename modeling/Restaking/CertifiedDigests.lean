import Restaking.Deliveries
import Restaking.Supersede

/-! What the quorums of a deployment can certify. A height gets one digest: two
quorums share an honest node, and an honest node signs a height once. Among nodes
without a past the digest is the skip digest or one that an honest validator
returned for the task assigned to the height, so where the validators compute what
the task source expects, no certificate of this life is foreign to the height it
arrives for. -/
namespace Restaking.Cluster
open Lib

variable {n : Nat} {T D G S : Type*}
variable {cfg : Config n T D G S} {c c' : Cluster n T D S} {label : Label n T D S}
variable {faulty : Finset (Fin n)} {height : Nat} {digest digest' : D}

theorem Config.inhabited (cfg : Config n T D G S) : 0 < n := by
  rw [← List.length_finRange (n := n), ← cfg.sized, List.length_pos_iff]
  exact cfg.router.scheme.nonempty

theorem activities_resolve {i j : Fin n} {id : Nat} :
    ((c.resolve i id height digest).nodes j).activities = (c.nodes j).activities := by
  unfold resolve
  split <;>
  · simp only [setProposal, setNode_nodes]
    split
    · rename_i here
      rw [here]
    · rfl

theorem node_kept {i j : Fin n} {node : Node T D} (same : node.activities = (c.nodes i).activities) :
    ((c.setNode i node).nodes j).activities ⊆ (c.nodes j).activities := by
  rw [setNode_nodes]
  split
  · rename_i here
    rw [here, same]
    exact List.Subset.refl _
  · exact List.Subset.refl _

variable [DecidableEq D]

/-- The acks of a quorum stand behind every certificate in the deployment. -/
structure Certified (c : Cluster n T D S) : Prop where
  reported : ∀ cert ∈ c.router.reporter.reported, c.Acked cert.height cert.digest
  observed : ∀ i cert, .certified cert ∈ (c.nodes i).activities → c.Acked cert.height cert.digest

/-- Two quorums that acked a height acked the same digest. -/
theorem acked_unique (truthful : Truthful faulty c) (inhabited : 0 < n)
    (few : faulty.card ≤ maxFaults n) (acked : c.Acked height digest)
    (acked' : c.Acked height digest') : digest = digest' := by
  by_contra differs
  exact (rejected_of_acked truthful inhabited few acked differs).not_acked truthful acked'

/-- A quorum has an honest member. -/
theorem Acked.honest (acked : c.Acked height digest) (truthful : Truthful faulty c)
    (inhabited : 0 < n) (few : faulty.card ≤ maxFaults n) :
    ∃ i ∉ faulty, c.signatures height i = some digest := by
  have remaining : 0 < (c.ackers height digest \ faulty).card := by
    have least := Finset.le_card_sdiff faulty (c.ackers height digest)
    unfold Acked quorum at acked
    unfold maxFaults at acked few
    omega
  obtain ⟨i, member⟩ := Finset.card_pos.mp remaining
  obtain ⟨acks, honest⟩ := Finset.mem_sdiff.mp member
  exact ⟨i, honest, truthful i honest height digest (by simpa [ackers] using acks)⟩

/-- A step that reports and observes no certificate. -/
theorem Certified.kept (certified : Certified c) (grown : Grown c c')
    (reported : c'.router.reporter.reported = c.router.reporter.reported)
    (observed : ∀ i, (c'.nodes i).activities ⊆ (c.nodes i).activities) : Certified c' where
  reported := by
    intro cert member
    exact (certified.reported cert (reported ▸ member)).grown grown
  observed := by
    intro i cert member
    exact (certified.observed i cert (observed i member)).grown grown

/-- The mailbox of one node changes. -/
theorem Certified.setNode (certified : Certified c) {i : Fin n} {node : Node T D}
    (observed : ∀ cert, .certified cert ∈ node.activities → c.Acked cert.height cert.digest) :
    Certified (c.setNode i node) where
  reported := certified.reported
  observed := by
    intro j cert member
    rw [setNode_nodes] at member
    split at member
    · exact observed cert member
    · exact certified.observed j cert member

variable [DecidableEq T]

theorem certified_step (certified : Certified c) (lawful : Lawful faulty c label)
    (taken : step cfg c label = some c') : Certified c' := by
  have grown := step_grown taken
  cases step_stepped taken with
  | @routed label router routed =>
    refine ⟨?_, certified.observed⟩
    intro cert member
    rcases Router.step_reported routed with same | ⟨new, rfl, longer⟩
    · rw [same] at member
      exact certified.reported cert member
    · rw [longer] at member
      rcases List.mem_append.mp member with earlier | last
      · exact certified.reported cert earlier
      · cases List.mem_singleton.mp last
        exact lawful
  | @certified i height digest _ =>
    apply certified.setNode
    intro cert member
    rcases List.mem_append.mp member with earlier | last
    · exact certified.observed i cert earlier
    · cases List.mem_singleton.mp last
      exact lawful
  | @raised i tip _ =>
    apply certified.setNode
    intro cert member
    rcases List.mem_append.mp member with earlier | last
    · exact certified.observed i cert earlier
    · cases List.mem_singleton.mp last
  | @observed i activity activities waiting =>
    apply certified.setNode
    intro cert member
    exact certified.observed i cert (by rw [waiting]; exact List.mem_cons_of_mem _ member)
  | skipped _ _ | accepted _ _ | exhausted _ _ =>
    exact certified.kept grown (by rw [resolve_router]) fun i => by
      rw [activities_resolve]
      exact List.Subset.refl _
  | @ingested i directive _ => exact certified.kept grown rfl fun j => node_kept rfl
  | forged => exact certified.kept grown rfl fun i => List.Subset.refl _
  | _ => exact certified.setNode (certified.observed _)

/-- The router starts afresh among nodes with a past, in which every certificate had
its quorum. -/
def Continues (cfg : Config n T D G S) (faulty : Finset (Fin n)) (c : Cluster n T D S) : Prop :=
  Resumes cfg faulty c ∧ Certified c

/-- A state of one router life in which the engines and the network keep their
word. -/
abbrev InLawfulLife (cfg : Config n T D G S) (faulty : Finset (Fin n)) (c : Cluster n T D S) :
    Prop :=
  ReachableWhere (Continues cfg faulty) (step cfg) (Lawful faulty) c

theorem InLawfulLife.router (life : InLawfulLife cfg faulty c) :
    Router.InLife cfg.router c.router :=
  router_inLife (fun _ continues => continues.1.1) life.reachable

theorem InLawfulLife.certified (life : InLawfulLife cfg faulty c) :
    Truthful faulty c ∧ Certified c := by
  let inv : Cluster n T D S → Prop := fun c => Truthful faulty c ∧ Certified c
  suffices held : inv c from held
  refine ReachableWhere.preserves life ?_ ?_
  · rintro start ⟨⟨-, truthful⟩, certified⟩
    exact ⟨truthful, certified⟩
  · rintro c label c' - ⟨truthful, certified⟩ lawful taken
    exact ⟨truthful_step truthful lawful taken, certified_step certified lawful taken⟩

/-- A resolution that skips its height was given for a certificate of the skip
digest, one that was executed for a certificate of another. -/
theorem skipped_digest (life : InLawfulLife cfg faulty c) {notice : Router.Notice D S}
    (sent : notice ∈ c.router.submitter.notified) :
    c.Acked notice.resolution.height notice.cause.digest ∧
      (notice.resolution.kind = .skipped ↔
        notice.cause.digest = cfg.router.skip notice.resolution.height) := by
  have routerLife := InLawfulLife.router life
  have justified := routerLife.origins.notified notice sent
  have handed : notice.cause ∈ c.router.reporter.forwarded := by
    rw [routerLife.deliveries.conserved]
    exact List.mem_append_left _ (List.mem_map_of_mem sent)
  have acked := (InLawfulLife.certified life).2.reported _ (routerLife.deliveries.vouched _ handed).1
  obtain ⟨height, reason⟩ := justified
  refine ⟨height ▸ acked, ?_⟩
  rw [height]
  cases kind : notice.resolution.kind with
  | skipped =>
    rw [kind] at reason
    simpa using reason
  | foreign =>
    rw [kind] at reason
    simpa using reason
  | executed success =>
    rw [kind] at reason
    obtain ⟨task, picked, -⟩ := reason
    simpa using (routerLife.origins.picked _ picked).2.1

/-- **One digest for each height.** In every run of one router life, with at most the
tolerated number of faulty nodes, any two certificates for a height that reach the
router or wait in the mailbox of a node carry the same digest; so a height that is
resolved as skipped is never resolved in another way, nor was it handed to the
handler. -/
theorem one_digest_certified (life : InLawfulLife cfg faulty c) (few : faulty.card ≤ maxFaults n) :
    (∀ cert ∈ c.router.reporter.reported, ∀ other ∈ c.router.reporter.reported,
        cert.height = other.height → cert.digest = other.digest) ∧
      (∀ cert ∈ c.router.reporter.reported, ∀ i other, .certified other ∈ (c.nodes i).activities →
        cert.height = other.height → cert.digest = other.digest) ∧
      ∀ notice ∈ c.router.submitter.notified, notice.resolution.kind = .skipped →
        (∀ other ∈ c.router.submitter.notified,
          other.resolution.height = notice.resolution.height → other.resolution.kind = .skipped) ∧
        ∀ execution ∈ c.router.submitter.executions,
          execution.height ≠ notice.resolution.height := by
  obtain ⟨truthful, certified⟩ := InLawfulLife.certified life
  have unique {height : Nat} {digest digest' : D} (acked : c.Acked height digest)
      (acked' : c.Acked height digest') : digest = digest' :=
    acked_unique truthful cfg.inhabited few acked acked'
  refine ⟨?_, ?_, ?_⟩
  · intro cert member other member' same
    exact unique (same ▸ certified.reported cert member) (certified.reported other member')
  · intro cert member i other member' same
    exact unique (same ▸ certified.reported cert member) (certified.observed i other member')
  · intro notice sent skipped
    obtain ⟨acked, kind⟩ := skipped_digest life sent
    rw [kind.mp skipped] at acked
    refine ⟨?_, ?_⟩
    · intro other sent' same
      obtain ⟨acked', kind'⟩ := skipped_digest life sent'
      rw [same] at acked' kind'
      exact kind'.mpr (unique acked' acked)
    · intro execution called same
      have origins := (InLawfulLife.router life).origins
      obtain ⟨pick, picked, rfl⟩ := origins.executions execution called
      obtain ⟨vouched, real, -⟩ := origins.picked pick picked
      have acked' := certified.reported _ vouched.1
      rw [show pick.1.height = notice.resolution.height from same] at acked' real
      exact real (unique acked' acked)

omit [DecidableEq T] in
theorem continues_init : Continues cfg faulty (init cfg) := by
  refine ⟨⟨rfl, ?_⟩, fun _ member => (nomatch member), fun _ _ member => (nomatch member)⟩
  intro i _ height digest acked
  cases acked

/-- Three of four nodes sign the digest of the task and the router's engine assembles
two certificates, while the fourth node claims to have signed the skip digest. -/
theorem forged_ack_certifies_nothing : ∃ c : Cluster 4 Nat Nat Unit,
    ⟨3, 0, 16⟩ ∈ c.acks ∧ c.router.reporter.reported.length = 2 ∧
      ∀ cert ∈ c.router.reporter.reported, ∀ other ∈ c.router.reporter.reported,
        cert.height = other.height → cert.digest = other.digest := by
  let assembles : Label 4 Nat Nat Unit :=
    .router (.activity (.certified ⟨0, 1, ⟨[true, true, true, false], ()⟩⟩))
  let labels : List (Label 4 Nat Nat Unit) := operatorsAssign 10 1 ++
    signsTask 0 ++ signsTask 1 ++ signsTask 2 ++ [.forge 3 0 16, assembles, assembles]
  let passed (c : Cluster 4 Nat Nat Unit) : Bool :=
    ⟨3, 0, 16⟩ ∈ c.acks ∧ c.router.reporter.reported.length = 2
  have ran : (exec (guarded (step (operators 3)) (Lawful {3})) (init (operators 3)) labels).any
      passed = true := by
    decide +kernel
  obtain ⟨c, life, reached⟩ := ReachableWhere.of_exec_any continues_init ran
  obtain ⟨forged, two⟩ := of_decide_eq_true reached
  exact ⟨c, forged, two, (one_digest_certified life (by decide)).1⟩

end Restaking.Cluster
