import Restaking.SplitVote
import Restaking.Submissions

/-! When giving a height up is sound. `drive_height` gives up a height that it
finds no certificate for once more than the tolerated faults report a tip above
it, on the ground that the height was resolved in an earlier life of the router.
Tip reports travel on their own channel, so a height of this life can be past the
nodes while its certificate is still on its way to the router. What decides is
who has signed: a digest that more honest nodes than the tolerated faults have
signed against never gets a quorum of acks. -/
namespace Restaking.Cluster
open Lib

variable {n : Nat} {T D G S : Type*} [DecidableEq D]
variable {cfg : Config n T D G S} {c c' : Cluster n T D S} {label : Label n T D S}
variable {faulty : Finset (Fin n)} {height : Nat} {digest other : D}

/-- The nodes that sent an ack of the digest. -/
def ackers (c : Cluster n T D S) (height : Nat) (digest : D) : Finset (Fin n) :=
  {i | ⟨i, height, digest⟩ ∈ c.acks}

/-- The acks of a quorum were sent. -/
def Acked (c : Cluster n T D S) (height : Nat) (digest : D) : Prop :=
  quorum n ≤ (c.ackers height digest).card

instance : Decidable (c.Acked height digest) := inferInstanceAs (Decidable (_ ≤ _))

/-- More honest nodes than the tolerated faults have signed another digest. -/
def Rejected (faulty : Finset (Fin n)) (c : Cluster n T D S) (height : Nat) (digest : D) : Prop :=
  maxFaults n < ((c.signatures height).opposed digest \ faulty).card

instance : Decidable (Rejected faulty c height digest) := inferInstanceAs (Decidable (_ < _))

/-- What the engines and the network are relied on for: a certificate needs the
acks of a quorum, a tip passes heights that are certified there or that more
peers than the tolerated faults are past, tip reports arrive as they were sent,
and only faulty nodes lie. -/
def Lawful (faulty : Finset (Fin n)) (c : Cluster n T D S) : Label n T D S → Prop
  | .router (.activity (.certified cert)) => c.Acked cert.height cert.digest
  | .router (.message i (some (.tipReport tip))) => i ∈ faulty ∨ (i, tip) ∈ c.reports
  | .certify _ height digest => c.Acked height digest
  | .raise i tip => i ∈ faulty ∨ ∀ height < tip, (c.nodes i).engine.tip ≤ height →
      height ∈ (c.nodes i).engine.certified ∨
        maxFaults n < (Finset.univ.filter fun j => height < (c.nodes j).engine.tip).card
  | .forge i _ _ => i ∈ faulty
  | _ => True

instance : Decidable (Lawful faulty c label) := by
  unfold Lawful
  split <;> infer_instance

/-- The sequencer gives a height up only when more honest nodes than the tolerated
faults have signed another digest there than the one it assigned. -/
def Settled (faulty : Finset (Fin n)) (c : Cluster n T D S) : Label n T D S → Prop
  | .router .sequence => match c.router.sequencer.phase, c.router.getAnswer with
    | .polling call drive, some none => drive.height < c.router.safeTip →
        Rejected faulty c drive.height call.sequenced.digest
    | _, _ => True
  | _ => True

instance : Decidable (Settled faulty c label) := by
  unfold Settled
  split
  · split <;> infer_instance
  · infer_instance

/-- An honest node acks what it signs. -/
def Truthful (faulty : Finset (Fin n)) (c : Cluster n T D S) : Prop :=
  ∀ i ∉ faulty, ∀ height digest, ⟨i, height, digest⟩ ∈ c.acks →
    c.signatures height i = some digest

/-- The router starts afresh among nodes with a past. -/
def Resumes (cfg : Config n T D G S) (faulty : Finset (Fin n)) (c : Cluster n T D S) : Prop :=
  c.router = .init cfg.router ∧ Truthful faulty c

/-- A digest that is rejected never gets a quorum of acks. -/
theorem Rejected.not_acked (rejected : Rejected faulty c height digest)
    (truthful : Truthful faulty c) : ¬ c.Acked height digest := by
  intro acked
  have most : quorum (Fintype.card (Fin n)) ≤ (c.ackers height digest).card := by
    rw [Fintype.card_fin]
    exact acked
  have enough : maxFaults (Fintype.card (Fin n)) <
      ((c.signatures height).opposed digest \ faulty).card := by
    rw [Fintype.card_fin]
    exact rejected
  obtain ⟨i, acks, signs⟩ := quorum_intersects most enough
  obtain ⟨opposes, honest⟩ := Finset.mem_sdiff.mp signs
  have signed := truthful i honest height digest (by simpa [ackers] using acks)
  exact (Ballot.mem_opposed.mp opposes).2 signed

/-- The ground that the source gives: whatever digest a height was certified with
before, every other is rejected. -/
theorem rejected_of_acked (truthful : Truthful faulty c) (inhabited : 0 < n)
    (few : faulty.card ≤ maxFaults n) (acked : c.Acked height other) (differs : other ≠ digest) :
    Rejected faulty c height digest := by
  have signers : c.ackers height other \ faulty ⊆
      (c.signatures height).opposed digest \ faulty := by
    intro i acks
    obtain ⟨acks, honest⟩ := Finset.mem_sdiff.mp acks
    have signed := truthful i honest height other (by simpa [ackers] using acks)
    exact Finset.mem_sdiff.mpr ⟨by simp [signed, differs], honest⟩
  have remaining := Finset.le_card_sdiff faulty (c.ackers height other)
  have more := Finset.card_le_card signers
  unfold Acked quorum at acked
  unfold Rejected
  unfold maxFaults at *
  omega

/-- What a node has signed and sent stays signed and sent. -/
structure Grown (c c' : Cluster n T D S) : Prop where
  acks : c.acks ⊆ c'.acks
  signatures : ∀ height i digest, c.signatures height i = some digest →
    c'.signatures height i = some digest

omit [DecidableEq D] in
theorem grown_of_same (acks : c'.acks = c.acks) (signatures : c'.signatures = c.signatures) :
    Grown c c' where
  acks := acks ▸ List.Subset.refl _
  signatures := fun height i digest signed => by rwa [signatures]

theorem Acked.grown (acked : c.Acked height digest) (grown : Grown c c') :
    c'.Acked height digest := by
  apply le_trans acked
  apply Finset.card_le_card
  intro i acks
  simp only [ackers, Finset.mem_filter, Finset.mem_univ, true_and] at acks ⊢
  exact grown.acks acks

theorem Rejected.grown (rejected : Rejected faulty c height digest) (grown : Grown c c') :
    Rejected faulty c' height digest := by
  apply lt_of_lt_of_le rejected
  apply Finset.card_le_card
  apply Finset.sdiff_subset_sdiff _ (Finset.Subset.refl _)
  intro i opposes
  obtain ⟨voted, differs⟩ := Ballot.mem_opposed.mp opposes
  obtain ⟨vote, votes⟩ := Option.ne_none_iff_exists'.mp voted
  have still := grown.signatures height i vote votes
  rw [Ballot.mem_opposed, still]
  rw [votes] at differs
  exact ⟨Option.some_ne_none _, differs⟩

omit [DecidableEq D] in
private theorem grown_resolve {i : Fin n} {id : Nat} :
    Grown c (c.resolve i id height digest) := by
  by_cases fresh : c.signatures height i = none
  · constructor
    · unfold resolve
      split
      · exact List.Subset.refl _
      · exact List.subset_append_left _ _
    · intro height' j vote signed
      rw [signatures_resolve_fresh fresh]
      split
      · rename_i here
        subst here
        have elsewhere : j ≠ i := by
          rintro rfl
          rw [fresh] at signed
          cases signed
        simpa [Ballot.cast, elsewhere] using signed
      · exact signed
  · refine grown_of_same ?_ (signatures_resolve_again fresh)
    have again : ((c.nodes i).signed.get? height).isSome := Option.isSome_iff_ne_none.mpr fresh
    simp [resolve, again, setProposal, setNode]

variable [DecidableEq T]

theorem step_grown (taken : step cfg c label = some c') : Grown c c' := by
  cases step_stepped taken with
  | skipped _ _ => exact grown_resolve
  | accepted _ _ => exact grown_resolve
  | exhausted _ _ => exact grown_resolve
  | routed _ => exact grown_of_same rfl rfl
  | forged => exact ⟨List.subset_append_left _ _, fun _ _ _ signed => signed⟩
  | _ => exact grown_of_same rfl (signatures_setNode rfl)

omit [DecidableEq D] [DecidableEq T] in
private theorem truthful_resolve {i : Fin n} {id : Nat} (truthful : Truthful faulty c) :
    Truthful faulty (c.resolve i id height digest) := by
  intro j honest height' digest' acked
  by_cases fresh : c.signatures height i = none
  · have unsigned : ((c.nodes i).signed.get? height).isSome = false := by
      rw [show (c.nodes i).signed.get? height = none from fresh]
      rfl
    simp only [resolve, unsigned, Bool.false_eq_true, if_false, List.mem_append,
      List.mem_singleton] at acked
    rcases acked with earlier | new
    · exact grown_resolve.signatures height' j digest' (truthful j honest height' digest' earlier)
    · cases new
      rw [signatures_resolve_fresh fresh, if_pos rfl]
      simp [Ballot.cast]
  · have again : ((c.nodes i).signed.get? height).isSome := Option.isSome_iff_ne_none.mpr fresh
    rw [signatures_resolve_again fresh]
    simp only [resolve, again, if_true] at acked
    exact truthful j honest height' digest' acked

/-- Honest nodes stay truthful: an ack is sent with its signature, or is forged by a
faulty node. -/
theorem truthful_step (truthful : Truthful faulty c) (lawful : Lawful faulty c label)
    (taken : step cfg c label = some c') : Truthful faulty c' := by
  have kept : c'.acks = c.acks → Truthful faulty c' := by
    intro same i honest height digest acked
    rw [same] at acked
    exact (step_grown taken).signatures height i digest (truthful i honest height digest acked)
  cases step_stepped taken with
  | skipped _ _ => exact truthful_resolve truthful
  | accepted _ _ => exact truthful_resolve truthful
  | exhausted _ _ => exact truthful_resolve truthful
  | @forged i height digest =>
    intro j honest height' digest' acked
    rcases List.mem_append.mp acked with earlier | new
    · exact truthful j honest height' digest' earlier
    · cases List.mem_singleton.mp new
      exact absurd lawful honest
  | _ => exact kept rfl

/-- The acks behind the certificates and the signatures behind the heights given
up. -/
structure Backed (faulty : Finset (Fin n)) (c : Cluster n T D S) : Prop where
  truthful : Truthful faulty c
  reported : ∀ cert ∈ c.router.reporter.reported, c.Acked cert.height cert.digest
  superseded : ∀ entry ∈ c.router.sequencer.superseded, ∃ call,
    (entry.1, call) ∈ c.router.sequencer.assigned ∧
      Rejected faulty c entry.1 call.sequenced.digest

theorem backed_step (life : Router.InLife cfg.router c.router) (backed : Backed faulty c)
    (lawful : Lawful faulty c label) (settled : Settled faulty c label)
    (taken : step cfg c label = some c') : Backed faulty c' := by
  have grown := step_grown taken
  have truthful := truthful_step backed.truthful lawful taken
  have kept : c'.router = c.router → Backed faulty c' := by
    intro same
    refine ⟨truthful, ?_, ?_⟩
    · intro cert member
      rw [same] at member
      exact (backed.reported cert member).grown grown
    · intro entry member
      rw [same] at member
      obtain ⟨call, assigned, rejected⟩ := backed.superseded entry member
      exact ⟨call, same ▸ assigned, rejected.grown grown⟩
  cases step_stepped taken with
  | @routed label router routed =>
    refine ⟨truthful, ?_, ?_⟩
    · intro cert member
      rcases Router.step_reported routed with same | ⟨new, rfl, longer⟩
      · rw [same] at member
        exact backed.reported cert member
      · rw [longer] at member
        rcases List.mem_append.mp member with earlier | last
        · exact backed.reported cert earlier
        · cases List.mem_singleton.mp last
          exact lawful
    · have more := (Router.step_extended routed).assigned
      intro entry member
      rcases Router.step_superseded routed with same | ⟨call, drive, rfl, polling, none, below, longer⟩
      · rw [same] at member
        obtain ⟨call, assigned, rejected⟩ := backed.superseded entry member
        exact ⟨call, more assigned, rejected⟩
      · rw [longer] at member
        rcases List.mem_append.mp member with earlier | last
        · obtain ⟨call, assigned, rejected⟩ := backed.superseded entry earlier
          exact ⟨call, more assigned, rejected⟩
        · cases List.mem_singleton.mp last
          have drives : c.router.sequencer.phase.driven = some drive.height := by rw [polling]; rfl
          obtain ⟨earlier, held, holds, assigned, -⟩ := life.ledger.2.driven drive.height drives
          obtain rfl : call = held := by
            rw [polling] at holds
            exact Option.some.inj holds
          refine ⟨call, more (by rw [assigned]; simp), ?_⟩
          simp only [Settled, polling, none] at settled
          exact settled below
  | skipped _ _ => exact kept resolve_router
  | accepted _ _ => exact kept resolve_router
  | exhausted _ _ => exact kept resolve_router
  | _ => exact kept rfl

/-- A state of a run in which the engines and the network keep their word and every
height given up was settled for another digest. -/
abbrev InSettledLife (cfg : Config n T D G S) (faulty : Finset (Fin n)) (c : Cluster n T D S) :
    Prop :=
  ReachableWhere (Resumes cfg faulty) (step cfg)
    (fun c label => Lawful faulty c label ∧ Settled faulty c label) c

theorem InSettledLife.router (life : InSettledLife cfg faulty c) :
    Router.InLife cfg.router c.router :=
  router_inLife (fun _ resumes => resumes.1) life.reachable

theorem InSettledLife.backed (life : InSettledLife cfg faulty c) : Backed faulty c := by
  let inv : Cluster n T D S → Prop := fun c => Backed faulty c
  suffices held : inv c from held
  refine ReachableWhere.preserves life ?_ ?_
  · rintro start ⟨fresh, truthful⟩
    refine ⟨truthful, ?_, ?_⟩
    · intro cert member
      rw [fresh] at member
      cases member
    · intro entry member
      rw [fresh] at member
      cases member
  · intro c label c' reached backed allowed taken
    have life := router_inLife (fun _ resumes => resumes.1) reached
    exact backed_step life backed allowed.1 allowed.2 taken

section Examples

/-- One node that got past height 0 in an earlier life of the router, with a
certificate for digest 7. -/
def pastZero : Cluster 1 Nat Nat Unit where
  router := .init (operators 0).router
  nodes := fun _ => {
    signed := OrderedMap.empty.insert 0 7
    engine := { tip := 1, certified := [0] }
    reporter := { tipHandle := 1, certified := OrderedMap.empty.insert 0 () } }
  acks := [⟨0, 0, 7⟩]

/-- The announcement reaches the node's intake, its tip report reaches the router,
and the router polls the height. -/
def givesUp : List (Label 1 Nat Nat Unit) :=
  [.ingest 0 (.announce 0 10), .router (.message 0 (some (.tipReport 1))),
    .router (.elapse 1), .router .tick, .router .report, .router .sequence]

/-- The router's engine assembles a certificate from the node's ack. -/
def assembles (digest : Nat) : Label 1 Nat Nat Unit :=
  .router (.activity (.certified ⟨0, digest, ⟨[true], ()⟩⟩))

/-- Height 0 was given up, and the reporter is about to forward a certificate for
it. -/
def aboutToForward (digest : Nat) (c : Cluster 1 Nat Nat Unit) : Bool :=
  (0, 1) ∈ c.router.sequencer.superseded ∧
    (0, 1) ∈ c.router.sequencer.assigned.map (fun entry => (entry.1, entry.2.sequenced.digest)) ∧
    (step (operators 0) c (.router .report)).any fun c' =>
      c'.router.reporter.forwarded = c.router.reporter.forwarded ++ [⟨0, digest, ⟨[true], ()⟩⟩]

theorem forwards_next {c : Cluster 1 Nat Nat Unit} {digest : Nat}
    (ready : aboutToForward digest c = true) : (0, 1) ∈ c.router.sequencer.superseded ∧
      ∃ call c', (0, call) ∈ c.router.sequencer.assigned ∧ call.sequenced.digest = 1 ∧
        step (operators 0) c (.router .report) = some c' ∧
          c'.router.reporter.forwarded =
            c.router.reporter.forwarded ++ [⟨0, digest, ⟨[true], ()⟩⟩] := by
  obtain ⟨superseded, assigned, forwards⟩ := of_decide_eq_true ready
  obtain ⟨⟨height, call⟩, member, same⟩ := List.mem_map.mp assigned
  obtain ⟨rfl, same⟩ := Prod.mk.inj same
  obtain ⟨c', taken, forwarded⟩ := (Option.any_eq_true _ _).mp forwards
  exact ⟨superseded, call, c', member, same, taken, of_decide_eq_true forwarded⟩

theorem resumes_pastZero : Resumes (operators 0) ∅ pastZero := by
  refine ⟨rfl, ?_⟩
  intro i _ height digest acked
  cases List.mem_singleton.mp acked
  rfl

end Examples

/-- **Supersede is sound where the height is settled.** In every run of one router
life among nodes with a past, in which the engines and the network keep their word
and each height was given up only after more honest nodes than the tolerated faults
had signed another digest there, no certificate that the reporter forwards for a
height given up carries the digest assigned to it. -/
theorem superseded_digest_never_forwarded (life : InSettledLife cfg faulty c)
    {tip : Nat} {call : Call T D} {cert : Cert D S}
    (superseded : (height, tip) ∈ c.router.sequencer.superseded)
    (assigned : (height, call) ∈ c.router.sequencer.assigned)
    (taken : step cfg c label = some c') (here : cert.height = height)
    (forwards : c'.router.reporter.forwarded = c.router.reporter.forwarded ++ [cert]) :
    cert.digest ≠ call.sequenced.digest := by
  have backed := InSettledLife.backed life
  have routerLife := InSettledLife.router life
  obtain ⟨call', assigned', rejected⟩ := backed.superseded _ superseded
  have one := routerLife.ledger.2.assigned_unique assigned assigned' rfl
  obtain rfl : call = call' := congrArg Prod.snd one
  have waiting : .certified cert ∈ c.router.reporter.inbox := by
    have unchanged : c'.router ≠ c.router := by
      intro same
      rw [same] at forwards
      simp at forwards
    cases step_stepped taken with
    | routed routed => exact Router.step_forwarded routed forwards
    | skipped _ _ => exact absurd resolve_router unchanged
    | accepted _ _ => exact absurd resolve_router unchanged
    | exhausted _ _ => exact absurd resolve_router unchanged
    | _ => exact absurd rfl unchanged
  have acked := backed.reported cert (routerLife.origins.inbox cert waiting)
  intro same
  rw [here, same] at acked
  exact rejected.not_acked backed.truthful acked

/-- A height of an earlier life is given up before its old certificate arrives. -/
theorem settled_height_given_up : ∃ c c' : Cluster 1 Nat Nat Unit, ∃ call cert,
    InSettledLife (operators 0) ∅ c ∧ (0, 1) ∈ c.router.sequencer.superseded ∧
      (0, call) ∈ c.router.sequencer.assigned ∧
      step (operators 0) c (.router .report) = some c' ∧ cert.height = 0 ∧
      c'.router.reporter.forwarded = c.router.reporter.forwarded ++ [cert] ∧
      cert.digest ≠ call.sequenced.digest := by
  let labels : List (Label 1 Nat Nat Unit) := operatorsAssign 10 1 ++ givesUp ++ [assembles 7]
  have ran : (exec (guarded (step (operators 0)) fun c label => Lawful ∅ c label ∧ Settled ∅ c label)
      pastZero labels).any (aboutToForward 7) = true := by
    decide +kernel
  obtain ⟨c, life, ready⟩ := ReachableWhere.of_exec_any resumes_pastZero ran
  obtain ⟨superseded, call, c', assigned, -, taken, forwards⟩ := forwards_next ready
  exact ⟨c, c', call, _, life, superseded, assigned, taken, rfl, forwards,
    superseded_digest_never_forwarded life superseded assigned taken rfl forwards⟩

/-- A height is given up after its only node certified it and before the node's ack
reached the router's engine: the certificate then forwarded carries the digest that
was assigned to the height. -/
theorem certified_height_given_up : ∃ c c' : Cluster 1 Nat Nat Unit, ∃ call cert,
    ReachableWhere (· = init (operators 0)) (step (operators 0)) (Lawful ∅) c ∧
      (0, 1) ∈ c.router.sequencer.superseded ∧ (0, call) ∈ c.router.sequencer.assigned ∧
      step (operators 0) c (.router .report) = some c' ∧ cert.height = 0 ∧
      c'.router.reporter.forwarded = c.router.reporter.forwarded ++ [cert] ∧
      cert.digest = call.sequenced.digest := by
  let certifies : List (Label 1 Nat Nat Unit) :=
    [.ingest 0 (.announce 0 10), .deliver 0 (.announce 0 10), .propose 0 0, .resume 0 0,
      .validated 0 0 (some 1), .certify 0 0 1, .raise 0 1, .observe 0, .observe 0]
  let announcesAgain : List (Label 1 Nat Nat Unit) :=
    [.router (.elapse 1), .router .tick, .router .report, .router .sequence]
  let labels : List (Label 1 Nat Nat Unit) :=
    operatorsAssign 10 1 ++ certifies ++ announcesAgain ++ givesUp ++ [assembles 1]
  have ran : (exec (guarded (step (operators 0)) (Lawful ∅)) (init (operators 0)) labels).any
      (aboutToForward 1) = true := by
    decide +kernel
  obtain ⟨c, life, ready⟩ : ∃ c, ReachableWhere (· = init (operators 0)) (step (operators 0))
      (Lawful ∅) c ∧ aboutToForward 1 c = true :=
    ReachableWhere.of_exec_any rfl ran
  obtain ⟨superseded, call, c', assigned, digest, taken, forwards⟩ := forwards_next ready
  exact ⟨c, c', call, _, life, superseded, assigned, taken, rfl, forwards, digest.symm⟩

end Restaking.Cluster
