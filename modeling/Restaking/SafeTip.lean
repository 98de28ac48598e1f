import Mathlib.Data.List.Induction
import Restaking.Sequencer

/-! The safe tip as a statement about the whole history of the directive
channel. Peers report in any order, repeat themselves, go down, send other
directives or bytes that do not decode; some are not participants. What counts
in the end is how many participants ever reported at least so much. -/
namespace Restaking
open Lib

namespace TipReports

variable {T P : Type*} [LinearOrder P]

/-- A message of the directive channel; the payload is `none` where the bytes do
not decode. -/
abbrev Received (T P : Type*) := P × Option (TaskDirective T)

/-- `ingest_tip_reports` up to here. -/
def consume (participants : List P) (tips : TipReports P) (messages : List (Received T P)) :
    TipReports P :=
  messages.foldl (fun tips message => tips.ingest participants message.1 message.2) tips

/-- The participants that have sent a tip report of at least this height. -/
def supporters (participants : List P) (messages : List (Received T P)) (height : Nat) : Set P :=
  {peer | peer ∈ participants ∧
    ∃ reported, height ≤ reported ∧ (peer, some (.tipReport reported)) ∈ messages}

section Ingest

variable {participants : List P} {tips : TipReports P} {messages later : List (Received T P)}
variable {payload : Option (TaskDirective T)} {peer : P} {height n : Nat}

/-- A message that is not a participant's tip report changes nothing. -/
theorem ingest_ignored (ignored : peer ∉ participants ∨ ∀ height, payload ≠ some (.tipReport height)) :
    tips.ingest participants peer payload = tips := by
  unfold ingest
  rcases ignored with outsider | other
  · rw [if_pos outsider]
  · split
    · rfl
    · split
      · rename_i height
        exact absurd rfl (other height)
      · rfl

@[simp] theorem ingest_maxFaults :
    (tips.ingest participants peer payload).maxFaults = tips.maxFaults := by
  unfold ingest
  split
  · rfl
  · split <;> rfl

@[simp] theorem consume_maxFaults :
    (tips.consume participants messages).maxFaults = tips.maxFaults := by
  induction messages generalizing tips with
  | nil => rfl
  | cons message messages ih => exact ih.trans ingest_maxFaults

theorem consume_append : tips.consume participants (messages ++ later) =
    (tips.consume participants messages).consume participants later := List.foldl_append

theorem safeTip_le_consume :
    tips.safeTip ≤ (tips.consume participants messages).safeTip := by
  induction messages generalizing tips with
  | nil => exact le_rfl
  | cons message messages ih => exact (safeTip_le_ingest tips participants _ _).trans ih

/-- The entry of a peer is at least this height. -/
def Reached (tips : TipReports P) (peer : P) (height : Nat) : Prop :=
  ∃ tip, tips.reports.get? peer = some tip ∧ height ≤ tip

theorem reached_record {sender : P} {reported : Nat} :
    (tips.record sender reported).Reached peer height ↔
      tips.Reached peer height ∨ peer = sender ∧ height ≤ reported := by
  unfold Reached record
  by_cases same : peer = sender
  · subst same
    cases found : tips.reports.get? peer with
    | none => simp [OrderedMap.getD, found]
    | some tip => simp [OrderedMap.getD, found]
  · simp [same]

/-- One message raises the entry of its sender only, and only where that is a
participant's tip report. -/
theorem reached_ingest {sender : P} :
    (tips.ingest participants sender payload).Reached peer height ↔
      tips.Reached peer height ∨ (peer = sender ∧ peer ∈ participants ∧
        ∃ reported, height ≤ reported ∧ payload = some (.tipReport reported)) := by
  by_cases member : sender ∈ participants
  · unfold ingest
    rw [if_neg (not_not.mpr member)]
    split
    · rename_i reported
      rw [reached_record]
      apply or_congr_right
      constructor
      · rintro ⟨rfl, enough⟩
        exact ⟨rfl, member, reported, enough, rfl⟩
      · rintro ⟨rfl, -, other, enough, same⟩
        cases same
        exact ⟨rfl, enough⟩
    · rename_i other
      refine ⟨.inl, fun reached => reached.resolve_right ?_⟩
      rintro ⟨-, -, reported, -, same⟩
      exact other reported same
  · rw [ingest_ignored (.inl member)]
    refine ⟨.inl, fun reached => reached.resolve_right ?_⟩
    rintro ⟨rfl, within, -⟩
    exact member within

/-- The entries of the table are what the history supports. -/
theorem reached_consume :
    ((new n : TipReports P).consume participants messages).Reached peer height ↔
      peer ∈ supporters participants messages height := by
  induction messages using List.reverseRecOn with
  | nil => simp [Reached, consume, new, supporters]
  | append_singleton messages message ih =>
    obtain ⟨sender, payload⟩ := message
    have last : (new n : TipReports P).consume participants (messages ++ [(sender, payload)]) =
        ((new n : TipReports P).consume participants messages).ingest participants sender payload :=
      consume_append
    rw [last, reached_ingest, ih]
    simp only [supporters, Set.mem_ofPred_eq, List.mem_append, List.mem_singleton, Prod.mk.injEq]
    constructor
    · rintro (⟨member, reported, enough, earlier⟩ | ⟨rfl, member, reported, enough, rfl⟩)
      · exact ⟨member, reported, enough, .inl earlier⟩
      · exact ⟨member, reported, enough, .inr ⟨rfl, rfl⟩⟩
    · rintro ⟨member, reported, enough, earlier | ⟨rfl, rfl⟩⟩
      · exact .inl ⟨member, reported, enough, earlier⟩
      · exact .inr ⟨rfl, member, reported, enough, rfl⟩

/-- A positive height is safe exactly when enough participants support it. -/
theorem le_safeTip_iff (positive : 0 < height) :
    height ≤ ((new n : TipReports P).consume participants messages).safeTip ↔
      Lib.maxFaults n < (supporters participants messages height).ncard := by
  let tips := (new n : TipReports P).consume participants messages
  have keys : supporters participants messages height =
      ↑(tips.reports.keysWhere (height ≤ ·)).toFinset := by
    ext peer
    simp only [List.coe_toFinset, Set.mem_ofPred_eq, OrderedMap.mem_keysWhere_iff, decide_eq_true_eq]
    exact reached_consume.symm
  rw [keys, Set.ncard_coe_finset, List.toFinset_card_of_nodup (OrderedMap.nodup_keysWhere _),
    ← OrderedMap.countP_values, ← le_kthHighest_iff positive]
  have faults : tips.maxFaults = Lib.maxFaults n := consume_maxFaults
  rw [safeTip, faults]

/-- Unless more participants than tolerated are faulty, another one has reported
the safe tip or more. -/
theorem exists_honest_report {faulty : Set P}
    (few : {peer | peer ∈ participants ∧ peer ∈ faulty}.ncard ≤ Lib.maxFaults n)
    (positive : 0 < ((new n : TipReports P).consume participants messages).safeTip) :
    ∃ peer ∈ participants, peer ∉ faulty ∧ ∃ reported,
      ((new n : TipReports P).consume participants messages).safeTip ≤ reported ∧
        (peer, some (.tipReport reported)) ∈ messages := by
  have supported := (le_safeTip_iff positive).mp le_rfl
  have finite : {peer | peer ∈ participants ∧ peer ∈ faulty}.Finite :=
    (List.finite_toSet participants).subset fun peer member => member.1
  obtain ⟨peer, support, honest⟩ := Set.exists_mem_notMem_of_ncard_lt_ncard (few.trans_lt supported) finite
  exact ⟨peer, support.1, fun member => honest ⟨support.1, member⟩, support.2⟩

end Ingest

/-- **The safe tip is the threshold of support.** A positive height is at or
below the safe tip exactly when more participants than may be faulty have
reported it or more. The safe tip never falls, messages other than participants'
tip reports do not move it, and if at most the tolerated number of participants
are faulty, some other participant has reported as much. -/
theorem safe_tip_is_support_threshold (n : Nat) (participants : List P)
    (messages : List (Received T P)) :
    (∀ height, 0 < height →
      (height ≤ ((new n : TipReports P).consume participants messages).safeTip ↔
        Lib.maxFaults n + 1 ≤ (supporters participants messages height).ncard)) ∧
    (∀ later, ((new n : TipReports P).consume participants messages).safeTip ≤
      ((new n : TipReports P).consume participants (messages ++ later)).safeTip) ∧
    (∀ before peer payload after, messages = before ++ (peer, payload) :: after →
      (peer ∉ participants ∨ ∀ height, payload ≠ some (.tipReport height)) →
      (new n : TipReports P).consume participants messages =
        (new n : TipReports P).consume participants (before ++ after)) ∧
    (∀ faulty : Set P, {peer | peer ∈ participants ∧ peer ∈ faulty}.ncard ≤ Lib.maxFaults n →
      0 < ((new n : TipReports P).consume participants messages).safeTip →
      ∃ peer ∈ participants, peer ∉ faulty ∧ ∃ reported,
        ((new n : TipReports P).consume participants messages).safeTip ≤ reported ∧
          (peer, some (.tipReport reported)) ∈ messages) := by
  refine ⟨fun height positive => le_safeTip_iff positive, fun later => ?_, ?_,
    fun faulty => exists_honest_report⟩
  · rw [consume_append]
    exact safeTip_le_consume
  · rintro before peer payload after rfl ignored
    have skipped : ((new n : TipReports P).consume participants before).ingest participants peer payload =
        (new n : TipReports P).consume participants before := ingest_ignored ignored
    rw [consume_append, consume_append]
    exact congrArg (consume participants · after) skipped

end TipReports
end Restaking
