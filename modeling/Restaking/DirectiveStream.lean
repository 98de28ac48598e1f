import Restaking.SerialAssignment

/-! The directives of a router life fall into blocks, one for each height in the
order of assignment: announcements of one payload, then skips. A block is begun
by the drive of its height and closed for good by the first answer that the
height is certified. -/
namespace Restaking.Router
open Lib

variable {T D P G S : Type*} [LinearOrder P]
variable {cfg : Config D P G S} {s s' : Router T D P S} {label : Label T D P S}
variable {q q' : SequencerActor T D S} {timeout now now' : Nat}

/-- The broadcasts of one drive. -/
structure Block (T : Type*) (timeout : Nat) where
  height : Nat
  /-- When the drive began. -/
  start : Nat
  payload : T
  /-- The times of the announcements. -/
  announced : List Nat
  /-- The times of the skips. -/
  skipped : List Nat
  begun : announced ≠ []
  patient : ∀ time ∈ skipped, start + timeout ≤ time

namespace Block

/-- What the block puts on the channel, each directive with its time. -/
def directives (block : Block T timeout) : List (Nat × TaskDirective T) :=
  block.announced.map (·, .announce block.height block.payload) ++
    block.skipped.map (·, .skip block.height)

/-- The first broadcast of a drive. -/
def first (timeout height start : Nat) (payload : T) : Block T timeout where
  height := height
  start := start
  payload := payload
  announced := [start]
  skipped := []
  begun := List.cons_ne_nil _ _
  patient := fun _ member => by cases member

/-- One more announcement. -/
def announce (block : Block T timeout) (time : Nat) : Block T timeout :=
  { block with
    announced := block.announced ++ [time]
    begun := List.append_ne_nil_of_left_ne_nil block.begun _ }

/-- One more skip. -/
def skip (block : Block T timeout) (time : Nat) (late : block.start + timeout ≤ time) :
    Block T timeout :=
  { block with
    skipped := block.skipped ++ [time]
    patient := by
      intro other member
      rcases List.mem_append.mp member with earlier | last
      · exact block.patient other earlier
      · cases List.mem_singleton.mp last
        exact late }

theorem directives_announce (block : Block T timeout) (time : Nat) (fresh : block.skipped = []) :
    (block.announce time).directives =
      block.directives ++ [(time, .announce block.height block.payload)] := by
  simp [directives, announce, fresh]

theorem directives_skip (block : Block T timeout) (time : Nat)
    (late : block.start + timeout ≤ time) :
    (block.skip time late).directives = block.directives ++ [(time, .skip block.height)] := by
  simp [directives, skip]

theorem not_tipReport {block : Block T timeout} {entry : Nat × TaskDirective T}
    (member : entry ∈ block.directives) : entry.2.isTipReport = false := by
  rcases List.mem_append.mp member with announced | skipped
  · obtain ⟨time, -, rfl⟩ := List.mem_map.mp announced
    rfl
  · obtain ⟨time, -, rfl⟩ := List.mem_map.mp skipped
    rfl

end Block

/-- The assignment whose drive has not begun. -/
def SequencerActor.pending (q : SequencerActor T D S) : List (Nat × T) :=
  match q.phase with
  | .starting call height => [(height, call.sequenced.announce)]
  | _ => []

/-- The blocks account for everything sent, and the last one is the drive's. -/
structure Stream (timeout now : Nat) (q : SequencerActor T D S) (blocks : List (Block T timeout)) :
    Prop where
  sent : q.sent = blocks.flatMap Block.directives
  drives : q.drives = blocks.map fun block => (block.height, block.start)
  assigned : (q.assigned.map fun entry => (entry.1, entry.2.sequenced.announce)) =
    (blocks.map fun block => (block.height, block.payload)) ++ q.pending
  current : ∀ drive, q.phase.drive? = some drive → ∃ earlier block call,
    blocks = earlier ++ [block] ∧ q.phase.held = some call ∧
      block.height = drive.height ∧ block.payload = call.sequenced.announce ∧
      drive.deadline = block.start + timeout ∧ (drive.skipping = false → block.skipped = []) ∧
      (drive.skipping = true → drive.deadline ≤ now)

variable {blocks : List (Block T timeout)}

theorem Stream.later (stream : Stream timeout now q blocks) (later : now ≤ now') :
    Stream timeout now' q blocks := by
  refine { stream with current := ?_ }
  intro drive driving
  obtain ⟨earlier, block, call, last, holds, height, payload, deadline, fresh, turned⟩ :=
    stream.current drive driving
  exact ⟨earlier, block, call, last, holds, height, payload, deadline, fresh,
    fun skipping => (turned skipping).trans later⟩

/-- A step without a broadcast, outside a drive or within one. -/
theorem Stream.quiet (stream : Stream timeout now q blocks) (sent : q'.sent = q.sent)
    (drives : q'.drives = q.drives) (assigned : q'.assigned = q.assigned)
    (pending : q'.pending = q.pending)
    (current : ∀ drive', q'.phase.drive? = some drive' → q'.phase.held = q.phase.held ∧
      ∃ drive, q.phase.drive? = some drive ∧ drive'.height = drive.height ∧
        drive'.deadline = drive.deadline ∧ drive'.skipping = drive.skipping) :
    Stream timeout now q' blocks where
  sent := sent.trans stream.sent
  drives := drives.trans stream.drives
  assigned := by rw [assigned, pending, stream.assigned]
  current := by
    intro drive' driving'
    obtain ⟨held, drive, driving, height, deadline, skipping⟩ := current drive' driving'
    rw [held, height, deadline, skipping]
    exact stream.current drive driving

variable {call : Call T D} {drive : Drive}

private theorem stream_begun {height : Nat} (stream : Stream timeout now q blocks)
    (phase : q.phase = .starting call height) (sent : q'.sent =
      q.sent ++ [(now, .announce height call.sequenced.announce)])
    (drives : q'.drives = q.drives ++ [(height, now)]) (assigned : q'.assigned = q.assigned)
    {wake : Nat} (phase' : q'.phase = .selecting call { height, deadline := now + timeout } wake) :
    Stream timeout now q' (blocks ++ [.first timeout height now call.sequenced.announce]) where
  sent := by rw [sent, stream.sent, List.flatMap_append]; rfl
  drives := by rw [drives, stream.drives, List.map_append]; rfl
  assigned := by
    have before : q.pending = [(height, call.sequenced.announce)] := by
      simp [SequencerActor.pending, phase]
    have after : q'.pending = [] := by simp [SequencerActor.pending, phase']
    rw [assigned, stream.assigned, before, after, List.map_append, List.append_nil]
    rfl
  current := by
    intro drive driving
    rw [phase'] at driving
    cases driving
    exact ⟨blocks, _, call, rfl, by rw [phase']; rfl, rfl, rfl, rfl, fun _ => rfl, fun turned => by
      cases turned⟩

/-- A rebroadcast goes to the last block. -/
private theorem stream_extended {earlier : List (Block T timeout)} {block block' : Block T timeout}
    {drive' : Drive} {wake : Nat} {directive : TaskDirective T}
    (stream : Stream timeout now q (earlier ++ [block])) (phase : q.phase = .polling call drive)
    (sent : q'.sent = q.sent ++ [(now, directive)]) (drives : q'.drives = q.drives)
    (assigned : q'.assigned = q.assigned) (phase' : q'.phase = .selecting call drive' wake)
    (extended : block'.directives = block.directives ++ [(now, directive)])
    (same : block'.height = block.height ∧ block'.start = block.start ∧
      block'.payload = block.payload)
    (height : block'.height = drive'.height) (payload : block'.payload = call.sequenced.announce)
    (deadline : drive'.deadline = block'.start + timeout)
    (fresh : drive'.skipping = false → block'.skipped = [])
    (turned : drive'.skipping = true → drive'.deadline ≤ now) :
    Stream timeout now q' (earlier ++ [block']) where
  sent := by
    rw [sent, stream.sent, List.flatMap_append, List.flatMap_append, List.append_assoc]
    simp [extended]
  drives := by rw [drives, stream.drives]; simp [same]
  assigned := by
    have before : q.pending = [] := by simp [SequencerActor.pending, phase]
    have after : q'.pending = [] := by simp [SequencerActor.pending, phase']
    rw [assigned, stream.assigned, before, after]
    simp [same]
  current := by
    intro drive'' driving
    rw [phase'] at driving
    cases driving
    exact ⟨earlier, block', call, rfl, by rw [phase']; rfl, height, payload, deadline, fresh, turned⟩

/-- Every step of the sequencer keeps its broadcasts in blocks. -/
theorem Stream.sequenced {blocks : List (Block T cfg.roundTimeout)}
    (stream : Stream cfg.roundTimeout s.now s.sequencer blocks)
    (taken : Sequenced cfg s label s') :
    ∃ blocks', Stream cfg.roundTimeout s'.now s'.sequencer blocks' := by
  have elsewhere {q : SequencerActor T D S} (none : q.phase.drive? = none) :
      ∀ drive', q.phase.drive? = some drive' → q.phase.held = s.sequencer.phase.held ∧
        ∃ drive, s.sequencer.phase.drive? = some drive ∧ drive'.height = drive.height ∧
          drive'.deadline = drive.deadline ∧ drive'.skipping = drive.skipping := by
    intro drive' driving
    rw [none] at driving
    cases driving
  cases taken with
  | settled phase | started phase | drained phase | asked phase | chosen phase | dropped phase
  | gaveUp phase | exhausted phase | taken phase | resolved phase | closed phase =>
    exact ⟨blocks, stream.quiet rfl rfl rfl (by simp [SequencerActor.pending, phase])
      (elsewhere rfl)⟩
  | passedOver _ origin =>
    rcases origin with ⟨phase, rfl, -⟩ | ⟨call, phase, rfl, -⟩ | ⟨call, drive, wake, phase, -, rfl, -⟩
    · exact ⟨blocks, stream.quiet rfl rfl rfl (by simp [SequencerActor.pending, phase])
        (elsewhere rfl)⟩
    · exact ⟨blocks, stream.quiet rfl rfl rfl (by simp [SequencerActor.pending, phase])
        (elsewhere rfl)⟩
    · refine ⟨blocks, stream.quiet rfl rfl rfl (by simp [SequencerActor.pending, phase]) ?_⟩
      rintro drive' ⟨⟩
      exact ⟨by rw [phase]; rfl, drive, by rw [phase]; rfl, rfl, rfl, rfl⟩
  | @inserted call height phase _ =>
    refine ⟨blocks, ⟨stream.sent, stream.drives, ?_, ?_⟩⟩
    · have before : s.sequencer.pending = [] := by simp [SequencerActor.pending, phase]
      rw [List.map_append, stream.assigned, before, List.append_nil]
      rfl
    · rintro drive ⟨⟩
  | begun phase => exact ⟨_, stream_begun stream phase rfl rfl rfl rfl⟩
  | @latched call drive _ phase | @idled call drive _ phase | @polled call drive _ phase =>
    refine ⟨blocks, stream.quiet rfl rfl rfl (by simp [SequencerActor.pending, phase]) ?_⟩
    rintro drive' ⟨⟩
    exact ⟨by rw [phase]; rfl, drive, by rw [phase]; rfl, rfl, rfl, rfl⟩
  | @announced call drive phase _ _ patient _ =>
    obtain ⟨earlier, block, call', rfl, holds, height, payload, deadline, fresh, -⟩ :=
      stream.current drive (by rw [phase]; rfl)
    rw [phase] at holds
    cases holds
    refine ⟨earlier ++ [block.announce s.now], ?_⟩
    refine stream_extended stream phase rfl rfl rfl rfl ?_ ⟨rfl, rfl, rfl⟩ height payload deadline
      fresh ?_
    · rw [block.directives_announce s.now (fresh patient), height, payload]
    · intro turned
      rw [patient] at turned
      cases turned
  | @abandoned call drive phase _ _ due =>
    obtain ⟨earlier, block, call', rfl, holds, height, payload, deadline, -, turned⟩ :=
      stream.current drive (by rw [phase]; rfl)
    rw [phase] at holds
    cases holds
    have passed : drive.deadline ≤ s.now := due.elim turned id
    have late : block.start + cfg.roundTimeout ≤ s.now := deadline ▸ passed
    refine ⟨earlier ++ [block.skip s.now late], ?_⟩
    refine stream_extended stream phase rfl rfl rfl rfl ?_ ⟨rfl, rfl, rfl⟩ height payload deadline
      ?_ fun _ => passed
    · rw [block.directives_skip s.now late, height]
    · rintro ⟨⟩
  | released phase =>
    refine ⟨blocks, stream.quiet rfl rfl rfl ?_ (elsewhere (Phase.drive?_after _ _))⟩
    rw [SequencerActor.pending, SequencerActor.pending, phase]
    rename_i outcome
    rcases outcome with (_ | _ | _) | _ | _ <;> rfl

theorem InLife.stream [DecidableEq D] (life : InLife cfg s) :
    ∃ blocks : List (Block T cfg.roundTimeout),
      Stream cfg.roundTimeout s.now s.sequencer blocks := by
  let streams : Router T D P S → Prop := fun s =>
    ∃ blocks, Stream cfg.roundTimeout s.now s.sequencer blocks
  suffices held : streams s from held
  refine Reachable.preserves life ?_ fun s label s' _ held taken => ?_
  · rintro start rfl
    refine ⟨[], rfl, rfl, rfl, ?_⟩
    rintro drive ⟨⟩
  · obtain ⟨blocks, stream⟩ := held
    rcases step_sequenced taken with kept | sequenced
    · refine ⟨blocks, ?_⟩
      rw [kept.sequencer]
      exact stream.later kept.now
    · exact stream.sequenced sequenced

/-- The directives sent for a height. -/
def SequencerActor.sentFor (q : SequencerActor T D S) (h : Nat) : List (Nat × TaskDirective T) :=
  q.sent.filter (·.2.height = h)

/-- Nothing more will be sent for a height: it is behind, and if it is in drive,
the drive knows that it certified. -/
structure Silent (h : Nat) (q : SequencerActor T D S) : Prop where
  behind : h < q.nextHeight
  ahead : ∀ k, q.phase.ahead = some k → k ≠ h
  latched : ∀ drive, q.phase.drive? = some drive → drive.height = h → drive.certified = true
  polling : ∀ call drive, q.phase = .polling call drive → drive.height ≠ h

/-- A step outside the drives keeps a height silent. -/
private theorem silent_outside {h : Nat} (silent : Silent h q) (grows : q.nextHeight ≤ q'.nextHeight)
    (ahead : ∀ k, q'.phase.ahead = some k → q.phase.ahead = some k ∨ h < k)
    (drive : q'.phase.drive? = none) : Silent h q' where
  behind := silent.behind.trans_le grows
  ahead := by
    intro k next
    rcases ahead k next with earlier | above
    · exact silent.ahead k earlier
    · exact above.ne'
  latched := by
    intro d driving
    rw [drive] at driving
    cases driving
  polling := by
    intro call d polling
    rw [polling] at drive
    cases drive

/-- A step within a drive keeps a height silent. -/
private theorem silent_within {h : Nat} {drive' : Drive} {wake : Nat} (silent : Silent h q)
    (grows : q.nextHeight ≤ q'.nextHeight) (phase' : q'.phase = .selecting call drive' wake)
    (latched : drive'.height = h → drive'.certified = true) : Silent h q' where
  behind := silent.behind.trans_le grows
  ahead := by
    intro k next
    rw [phase'] at next
    cases next
  latched := by
    intro d driving named
    rw [phase'] at driving
    cases driving
    exact latched named
  polling := by
    intro call d polling
    rw [phase'] at polling
    cases polling

private theorem sentFor_append {h : Nat} {entry : Nat × TaskDirective T}
    (sent : q'.sent = q.sent ++ [entry]) (other : entry.2.height ≠ h) :
    q'.sentFor h = q.sentFor h := by
  simp [SequencerActor.sentFor, sent, other]

/-- Every step of the sequencer keeps a silent height silent. -/
theorem Silent.sequenced {h : Nat} (silent : Silent h s.sequencer)
    (ledger : Ledger s.sequencer s.assignments) (taken : Sequenced cfg s label s') :
    Silent h s'.sequencer ∧ s'.sequencer.sentFor h = s.sequencer.sentFor h := by
  cases taken with
  | settled phase _ => exact ⟨silent_outside silent le_rfl (by simp [Phase.ahead]) rfl, rfl⟩
  | @started answer phase _ =>
    have next : s.sequencer.nextHeight = 0 := ledger.early (.inr phase)
    exact ⟨silent_outside silent (by simp [next]) (by simp [Phase.ahead]) rfl, rfl⟩
  | passedOver _ origin =>
    rcases origin with ⟨phase, rfl, -⟩ | ⟨call, phase, rfl, -⟩ | ⟨call, drive, wake, phase, -, rfl, -⟩
    · exact ⟨silent_outside silent (le_max_left _ _) (by simp [Phase.ahead]) rfl, rfl⟩
    · exact ⟨silent_outside silent (le_max_left _ _) (by simp [Phase.ahead]) rfl, rfl⟩
    · refine ⟨silent_within silent (le_max_left _ _) rfl ?_, rfl⟩
      exact silent.latched drive (by rw [phase]; rfl)
  | drained phase _ => exact ⟨silent_outside silent le_rfl (by simp [Phase.ahead]) rfl, rfl⟩
  | asked phase _ => exact ⟨silent_outside silent le_rfl (by simp [Phase.ahead]) rfl, rfl⟩
  | @chosen call answer height phase _ choice =>
    have least : s.sequencer.nextHeight ≤ height := by omega
    refine ⟨silent_outside silent (least.trans (Nat.le_succ _)) ?_ rfl, rfl⟩
    rintro k ⟨⟩
    exact .inr (silent.behind.trans_le least)
  | dropped phase _ => exact ⟨silent_outside silent le_rfl (by simp [Phase.ahead]) rfl, rfl⟩
  | inserted phase _ =>
    refine ⟨silent_outside silent le_rfl ?_ rfl, rfl⟩
    rintro k ⟨⟩
    exact .inl (by rw [phase]; rfl)
  | @begun call height phase =>
    have other : height ≠ h := silent.ahead height (by rw [phase]; rfl)
    exact ⟨silent_within silent le_rfl rfl fun named => absurd named other,
      sentFor_append rfl other⟩
  | latched phase _ => exact ⟨silent_within silent le_rfl rfl fun _ => rfl, rfl⟩
  | gaveUp phase _ _ => exact ⟨silent_outside silent le_rfl (by simp [Phase.ahead]) rfl, rfl⟩
  | @announced call drive phase | @abandoned call drive phase =>
    have other := silent.polling call drive phase
    exact ⟨silent_within silent le_rfl rfl fun named => absurd named other,
      sentFor_append rfl other⟩
  | released phase =>
    exact ⟨silent_outside silent le_rfl (by simp) (Phase.drive?_after _ _), rfl⟩
  | exhausted phase => exact ⟨silent_outside silent le_rfl (by simp [Phase.ahead]) rfl, rfl⟩
  | taken phase => exact ⟨silent_outside silent le_rfl (by simp [Phase.ahead]) rfl, rfl⟩
  | resolved phase _ _ => exact ⟨silent_outside silent le_rfl (by simp [Phase.ahead]) rfl, rfl⟩
  | closed phase _ _ => exact ⟨silent_outside silent le_rfl (by simp [Phase.ahead]) rfl, rfl⟩
  | @idled call drive wake phase _ =>
    refine ⟨silent_within silent le_rfl rfl ?_, rfl⟩
    exact silent.latched drive (by rw [phase]; rfl)
  | @polled call drive wake phase uncertified _ =>
    have other : drive.height ≠ h := by
      intro named
      have certified := silent.latched drive (by rw [phase]; rfl) named
      rw [uncertified] at certified
      cases certified
    refine ⟨⟨silent.behind, by simp [Phase.ahead], ?_, ?_⟩, rfl⟩
    · rintro d ⟨⟩ named
      exact absurd named other
    · rintro call' d ⟨⟩
      exact other

/-- A silent height stays silent in every continuation of a life. -/
theorem Silent.run [DecidableEq D] {h : Nat} {labels : List (Label T D P S)}
    (silent : Silent h s.sequencer) (life : InLife cfg s) (run : Run (step cfg) s labels s') :
    s'.sequencer.sentFor h = s.sequencer.sentFor h := by
  let quiet : Router T D P S → Prop := fun s'' =>
    Silent h s''.sequencer ∧ s''.sequencer.sentFor h = s.sequencer.sentFor h
  have kept : quiet s' := by
    apply Reachable.run_preserves life run ⟨silent, rfl⟩
    rintro before label after alive ⟨still, same⟩ taken
    rcases step_sequenced taken with kept | sequenced
    · show Silent h after.sequencer ∧ after.sequencer.sentFor h = s.sequencer.sentFor h
      rw [kept.sequencer]
      exact ⟨still, same⟩
    · obtain ⟨still', same'⟩ := still.sequenced (InLife.ledger alive).2 sequenced
      exact ⟨still', same'.trans same⟩
  exact kept.2

/-- The answer that a driven height is certified silences it. -/
theorem silent_of_certified {h : Nat} {digest : D} (ledger : Ledger s.sequencer s.assignments)
    (phase : s.sequencer.phase = .polling call drive) (named : drive.height = h)
    (answered : s.getAnswer = some (some digest)) (taken : s.sequence cfg = some s') :
    Silent h s'.sequencer ∧ s'.sequencer.sentFor h = s.sequencer.sentFor h := by
  obtain ⟨earlier, call', -, last, -⟩ := ledger.driven drive.height (by rw [phase]; rfl)
  have low : drive.height < s.sequencer.nextHeight :=
    ledger.assigned (drive.height, call') (by rw [last]; simp)
  simp only [sequence, phase, answered, Option.map_some, rebroadcast, Option.isSome_some, if_true]
    at taken
  cases taken
  refine ⟨⟨named ▸ low, by simp [Phase.ahead], ?_, ?_⟩, rfl⟩
  · rintro d ⟨⟩ -
    rfl
  · rintro call' d ⟨⟩

/-- An announcement carries the payload of its height's assignment. -/
theorem InLife.assigned_of_sent [DecidableEq D] {entry : Nat × TaskDirective T} {h : Nat} {task : T}
    (life : InLife cfg s) (sent : entry ∈ s.sequencer.sent) (announces : entry.2 = .announce h task) :
    ∃ call, (h, call) ∈ s.sequencer.assigned ∧ call.sequenced.announce = task := by
  obtain ⟨blocks, stream⟩ := life.stream
  rw [stream.sent] at sent
  obtain ⟨block, listed, within⟩ := List.mem_flatMap.mp sent
  have payload : (h, task) ∈ blocks.map fun block => (block.height, block.payload) := by
    rcases List.mem_append.mp within with announced | skipped
    · obtain ⟨time, -, rfl⟩ := List.mem_map.mp announced
      cases announces
      exact List.mem_map_of_mem listed
    · obtain ⟨time, -, rfl⟩ := List.mem_map.mp skipped
      cases announces
  have assigned : (h, task) ∈
      s.sequencer.assigned.map fun entry => (entry.1, entry.2.sequenced.announce) := by
    rw [stream.assigned]
    exact List.mem_append_left _ payload
  obtain ⟨⟨height, call⟩, member, same⟩ := List.mem_map.mp assigned
  obtain ⟨rfl, view⟩ := Prod.mk.inj same
  exact ⟨call, member, view⟩

/-- **Directive stream.** What a router life has broadcast is a concatenation of
blocks with strictly increasing heights, one for each assignment whose drive has
begun, each made of one or more announcements of the assignment's payload and
then skips sent no earlier than the round timeout after the drive began. No tip
report is among them, and once the sequencer is told that a driven height is
certified, nothing more is sent for it. -/
theorem directives_sent_in_blocks [DecidableEq D] (life : InLife cfg s) :
    (∃ blocks : List (Block T cfg.roundTimeout),
      s.sequencer.sent = blocks.flatMap Block.directives ∧
      (blocks.map Block.height).Pairwise (· < ·) ∧
      (blocks.map fun block => (block.height, block.start)) = s.sequencer.drives ∧
      (blocks.map fun block => (block.height, block.payload)) ++ s.sequencer.pending =
        s.sequencer.assigned.map fun entry => (entry.1, entry.2.sequenced.announce)) ∧
      (∀ entry ∈ s.sequencer.sent, entry.2.isTipReport = false) ∧
      ∀ call drive digest s' labels s'', s.sequencer.phase = .polling call drive →
        s.getAnswer = some (some digest) → step cfg s .sequence = some s' →
        Run (step cfg) s' labels s'' →
        s''.sequencer.sentFor drive.height = s.sequencer.sentFor drive.height := by
  obtain ⟨blocks, stream⟩ := life.stream
  have ledger := life.ledger.2
  refine ⟨⟨blocks, stream.sent, ?_, stream.drives.symm, stream.assigned.symm⟩, ?_, ?_⟩
  · have heights : blocks.map Block.height ++ s.sequencer.pending.map Prod.fst =
        s.sequencer.assigned.map Prod.fst := by
      have firsts := congrArg (List.map Prod.fst) stream.assigned
      simpa [Function.comp_def] using firsts.symm
    have ordered := ledger.increasing
    rw [← heights] at ordered
    exact (List.pairwise_append.mp ordered).1
  · intro entry member
    rw [stream.sent] at member
    obtain ⟨block, -, within⟩ := List.mem_flatMap.mp member
    exact Block.not_tipReport within
  · intro call drive digest s' labels s'' phase answered taken run
    obtain ⟨silent, same⟩ := silent_of_certified ledger phase rfl answered taken
    exact (silent.run (life.next taken) run).trans same

/-- A task that does not certify within its round is announced, then skipped. -/
theorem timed_out_task_skipped : ∃ s : Router Nat Nat Nat Unit,
    s.sequencer.sent = [(2000, .announce 0 10), (2011, .skip 0)] ∧
      (∀ entry ∈ s.sequencer.sent, entry.2.isTipReport = false) ∧
      ∃ blocks : List (Block Nat solo.roundTimeout),
        s.sequencer.sent = blocks.flatMap Block.directives ∧
          (blocks.map Block.height).Pairwise (· < ·) := by
  obtain ⟨s, life, reached⟩ := InLife.of_exec_any solo
    (soloStart ++ soloAssign 10 1 ++ [.elapse 11, .tick, .report, .sequence])
    (fun s => s.sequencer.sent = [(2000, .announce 0 10), (2011, .skip 0)]) (by decide +kernel)
  obtain ⟨⟨blocks, sent, ordered, -⟩, clean, -⟩ := directives_sent_in_blocks life
  exact ⟨s, of_decide_eq_true reached, clean, blocks, sent, ordered⟩

end Restaking.Router
