import DuinoBus.HostArrival
import DuinoBus.Verified.Guarded

/-!
# Commands and their responses

The host calls `send_command_get_response` again and again, and a device
answers every command once, in order, under the command's code.  Responses
take as long as they take, so a call may time out before its response is
there.  What a call returns is the object that the queue has for it, as it
is at that moment.

`agrees_of_guarded` says when a call returns the response to its own command:
as long as no call finds a packet in the queue before its own response has
arrived.  `guarded_of_patient` is a way to stay there: make no more calls
once one has timed out.
-/

namespace DuinoBus.HostRequest

open DuinoBus.Wire
open DuinoBus.Verified
open DuinoBus.Py
open DuinoBus.HostArrival

/-- Host, device and what is on its way between them.  Calls are numbered
from `0`; `waiting` is the number of the call that waits for the queue. -/
structure State where
  bus : Bus
  alive : Bool
  /-- The codes of the commands that the device has still to answer. -/
  commands : List UInt8
  /-- The responses on the way to the host. -/
  wire : List (List UInt8)
  sent : Nat
  waiting : Option Nat
  /-- What the device has answered: a code and data for every command. -/
  answers : List (UInt8 × List UInt8)
  /-- What the calls have returned with `NONE`. -/
  returned : List (Nat × Packet)

inductive Action where
  /-- A call writes its command. -/
  | call (cmdPkt : Packet)
  /-- The device answers the oldest command, with some data. -/
  | answer (data : List UInt8)
  /-- The receive thread polls the next byte. -/
  | deliver
  /-- The call that waits returns: with a packet if there is one, else
  because its time is up. -/
  | finish
  deriving DecidableEq

/-- One step. -/
def step (crc8 : UInt8 → UInt8 → UInt8) (s : State) :
    Action → Option State
  | .call cmdPkt =>
      match s.waiting, s.bus.sendCommand crc8 cmdPkt [] with
      | none, .ok (.none, _, bus) => some { s with
          bus
          commands := s.commands ++ [cmdPkt.cmd]
          sent := s.sent + 1
          waiting := some s.sent }
      | _, _ => none
  | .answer data =>
      match s.commands with
      | [] => none
      | cmd :: commands => some { s with
          commands
          wire := s.wire ++ [frame crc8 cmd data]
          answers := s.answers ++ [(cmd, data)] }
  | .deliver =>
      match s.alive, s.wire with
      | true, (byte :: bytes) :: frames =>
          let (result, bus) := s.bus.receive crc8 (some byte)
          some { s with
            bus
            alive := result.isOk
            wire := restAfter bytes frames }
      | _, _ => none
  | .finish =>
      match s.waiting, s.bus.getResponse with
      | some k, ((_, some pkt), bus) => some { s with
          bus
          waiting := none
          returned := s.returned ++ [(k, s.bus.store pkt)] }
      | some _, ((_, none), bus) => some { s with bus, waiting := none }
      | none, _ => none

def start : State :=
  ⟨.new, true, [], [], 0, none, [], []⟩

/-- Every call that returned a packet returned the answer to its command. -/
def Agrees (s : State) : Prop :=
  ∀ r ∈ s.returned, s.answers[r.1]? = some (r.2.cmd, r.2.data)

/-- The answers fit, and no call finds a packet before the answers to all
commands, its own among them, have arrived. -/
def Guard (s : State) : Action → Prop
  | .answer data => ∀ cmd ∈ s.commands.head?, Fits (cmd, data)
  | .finish => s.bus.recvQueue ≠ [] → s.commands = [] ∧ s.wire = []
  | _ => True

instance (s : State) : DecidablePred (Guard s)
  | .call _ => .isTrue trivial
  | .answer data =>
      inferInstanceAs (Decidable (∀ cmd ∈ s.commands.head?, Fits (cmd, data)))
  | .deliver => .isTrue trivial
  | .finish => inferInstanceAs (Decidable (_ → _))

/-! ## What a step does -/

section Inversion

variable {crc8 : UInt8 → UInt8 → UInt8} {s s' : State}

theorem step_call {cmdPkt : Packet}
    (h : step crc8 s (.call cmdPkt) = some s') :
    s.waiting = none ∧ ∃ encoder, s' = { s with
      bus := { s.bus with encoder }
      commands := s.commands ++ [cmdPkt.cmd]
      sent := s.sent + 1
      waiting := some s.sent } := by
  obtain ⟨encoder, hsend⟩ := s.bus.sendCommand_eq crc8 cmdPkt
  cases hwaiting : s.waiting with
  | some k =>
      simp only [step, hsend, hwaiting] at h
      cases h
  | none =>
      simp only [step, hsend, hwaiting] at h
      exact ⟨rfl, encoder, (Option.some.inj h).symm⟩

theorem step_answer {data : List UInt8}
    (h : step crc8 s (.answer data) = some s') :
    ∃ cmd commands, s.commands = cmd :: commands ∧ s' = { s with
      commands
      wire := s.wire ++ [frame crc8 cmd data]
      answers := s.answers ++ [(cmd, data)] } := by
  cases hcommands : s.commands with
  | nil =>
      simp only [step, hcommands] at h
      cases h
  | cons cmd commands =>
      simp only [step, hcommands] at h
      exact ⟨cmd, commands, rfl, (Option.some.inj h).symm⟩

theorem step_deliver (h : step crc8 s .deliver = some s') :
    ∃ byte bytes frames alive, s.wire = (byte :: bytes) :: frames ∧
      s' = { s with
        bus := (s.bus.receive crc8 (some byte)).2
        alive
        wire := restAfter bytes frames } := by
  simp only [step] at h
  split at h
  · next byte bytes frames _ hwire =>
      exact ⟨byte, bytes, frames, _, hwire, (Option.some.inj h).symm⟩
  · cases h

theorem step_finish (h : step crc8 s .finish = some s') :
    ∃ k, s.waiting = some k ∧
      ((s.bus.recvQueue = [] ∧ s' = { s with waiting := none }) ∨
        ∃ pkt queue, s.bus.recvQueue = pkt :: queue ∧ s' = { s with
          bus := { s.bus with recvQueue := queue }
          waiting := none
          returned := s.returned ++ [(k, s.bus.store pkt)] }) := by
  cases hwaiting : s.waiting with
  | none =>
      simp only [step, hwaiting] at h
      cases h
  | some k =>
      refine ⟨k, rfl, ?_⟩
      cases hqueue : s.bus.recvQueue with
      | nil =>
          simp only [step, hwaiting, Bus.getResponse, hqueue] at h
          exact .inl ⟨rfl, (Option.some.inj h).symm⟩
      | cons pkt queue =>
          simp only [step, hwaiting, Bus.getResponse, hqueue] at h
          exact .inr ⟨pkt, queue, rfl, (Option.some.inj h).symm⟩

end Inversion

/-! ## The invariant -/

/-- `done` are the answers that have arrived.  When they are all there are,
the packet of the bus is the last of them. -/
structure Inv (crc8 : UInt8 → UInt8 → UInt8)
    (done todo : List (UInt8 × List UInt8)) (ph : Phase UInt8) (s : State) :
    Prop where
  arriving : Arriving crc8 todo s.wire ph
  tracks : s.bus.Tracks ph
  answered : done ++ todo = s.answers
  fits : ∀ f ∈ todo, Fits f
  sent : s.answers.length + s.commands.length = s.sent
  waiting : ∀ k, s.waiting = some k → s.sent = k + 1
  queued : ∀ pkt ∈ s.bus.recvQueue, pkt = s.bus.decoder.packet
  counted : s.returned.length + s.bus.recvQueue.length ≤ done.length
  latest : todo = [] → ∀ f, done.getLast? = some f →
    (s.bus.packet.cmd, s.bus.packet.data) = f
  agrees : Agrees s

theorem inv_start (crc8 : UInt8 → UInt8 → UInt8) :
    Inv crc8 [] [] .idle start where
  arriving := .inl ⟨rfl, rfl, .inl rfl⟩
  tracks := Bus.tracks_new
  answered := rfl
  fits := by
    intro f hf
    cases hf
  sent := rfl
  waiting := by
    intro k hk
    cases hk
  queued := by
    intro pkt hpkt
    cases hpkt
  counted := Nat.le_refl 0
  latest := by
    intro _ f hf
    cases hf
  agrees := by
    intro r hr
    cases hr

section Steps

variable {crc8 : UInt8 → UInt8 → UInt8}
  {done todo : List (UInt8 × List UInt8)} {ph : Phase UInt8} {s : State}

/-- Answers that come later change none of those that were returned. -/
private theorem Agrees.answer (h : Agrees s) (f : UInt8 × List UInt8) :
    ∀ r ∈ s.returned, (s.answers ++ [f])[r.1]? = some (r.2.cmd, r.2.data) := by
  intro r hr
  have hold := h r hr
  have hlt := (List.getElem?_eq_some_iff.mp hold).1
  rw [List.getElem?_append_left hlt]
  exact hold

/-- A call writes its command. -/
private theorem Inv.call (h : Inv crc8 done todo ph s) (cmd : UInt8)
    (encoder : PacketEncoder) :
    Inv crc8 done todo ph
      { s with
        bus := { s.bus with encoder }
        commands := s.commands ++ [cmd]
        sent := s.sent + 1
        waiting := some s.sent } where
  arriving := h.arriving
  tracks := h.tracks
  answered := h.answered
  fits := h.fits
  sent := by
    have hsent := h.sent
    simp only [List.length_append, List.length_singleton]
    omega
  waiting := by
    intro k hk
    rw [Option.some.inj hk]
  queued := h.queued
  counted := h.counted
  latest := h.latest
  agrees := h.agrees

/-- The device answers a command. -/
private theorem Inv.answer (h : Inv crc8 done todo ph s) {cmd : UInt8}
    {commands : List UInt8} (hcommands : s.commands = cmd :: commands)
    {data : List UInt8} (hfits : Fits (cmd, data)) :
    Inv crc8 done (todo ++ [(cmd, data)]) ph
      { s with
        commands
        wire := s.wire ++ [frame crc8 cmd data]
        answers := s.answers ++ [(cmd, data)] } where
  arriving := h.arriving.append (cmd, data)
  tracks := h.tracks
  answered := by rw [← h.answered, List.append_assoc]
  fits := by
    intro f hf
    rcases List.mem_append.mp hf with hf | hf
    · exact h.fits f hf
    · rw [List.mem_singleton.mp hf]
      exact hfits
  sent := by
    have hsent := h.sent
    rw [hcommands, List.length_cons] at hsent
    simp only [List.length_append, List.length_singleton]
    omega
  waiting := h.waiting
  queued := h.queued
  counted := h.counted
  latest := fun hnil => absurd hnil (List.concat_ne_nil _ todo)
  agrees := h.agrees.answer (cmd, data)

/-- A queue of one packet stays one of that packet when it is added. -/
private theorem queued_of_added {ref : Ref} {queue queue' : List Ref}
    (h : ∀ pkt ∈ queue, pkt = ref)
    (hadded : queue' = queue ∨ queue' = queue ++ [ref]) :
    (∀ pkt ∈ queue', pkt = ref) ∧ queue'.length ≤ queue.length + 1 := by
  rcases hadded with rfl | rfl
  · exact ⟨h, Nat.le_succ _⟩
  · refine ⟨?_, Nat.le_of_eq (by rw [List.length_append]; rfl)⟩
    intro pkt hpkt
    rcases List.mem_append.mp hpkt with hpkt | hpkt
    · exact h pkt hpkt
    · exact List.mem_singleton.mp hpkt

/-- A poll of the receive thread. -/
private theorem Inv.deliver (h : Inv crc8 done todo ph s) {byte : UInt8}
    {bytes : List UInt8} {frames : List (List UInt8)}
    (hwire : s.wire = (byte :: bytes) :: frames) :
    ∃ done' todo' ph', ∀ alive, Inv crc8 done' todo' ph' { s with
      bus := (s.bus.receive crc8 (some byte)).2
      alive
      wire := restAfter bytes frames } := by
  have harriving := h.arriving
  rw [hwire] at harriving
  rcases harriving.receive h.fits h.tracks with
    ⟨bus, ph', hreceive, hnext, hne, htracks, hqueue, howner, _⟩ |
    ⟨bus, f, todo', hreceive, rfl, hnext, htracks, hqueue, howner, hf, _⟩
  · refine ⟨done, todo, ph', fun alive => ?_⟩
    rw [hreceive]
    exact
      { h with
        arriving := hnext
        tracks := htracks
        queued := by
          simp only [hqueue, howner.1]
          exact h.queued
        counted := by
          simp only [hqueue]
          exact h.counted
        latest := fun hnil => absurd hnil hne }
  · obtain ⟨result, queue, hprocess, hadded⟩ := bus.processDecoded_queue
    have hqueued := h.queued
    rw [← howner.1] at hqueued
    rw [hqueue] at hadded
    obtain ⟨hmem, hlength⟩ := queued_of_added hqueued hadded
    refine ⟨done ++ [f], todo', .idle, fun alive => ?_⟩
    rw [hreceive, hprocess]
    exact
      { h with
        arriving := hnext
        tracks := htracks
        answered := by
          rw [List.append_assoc, List.singleton_append]
          exact h.answered
        fits := fun g hg => h.fits g (List.mem_cons_of_mem f hg)
        queued := hmem
        counted := by
          have hcounted := h.counted
          simp only [List.length_append, List.length_singleton]
          omega
        latest := by
          intro _ g hg
          rw [List.getLast?_concat] at hg
          rw [← Option.some.inj hg]
          exact hf }

/-- When everything has arrived, the packet of the bus is the answer to the
command of the call that waits. -/
private theorem Inv.answer_eq (h : Inv crc8 done todo ph s) {k : Nat}
    (hwaiting : s.waiting = some k) (hcommands : s.commands = [])
    (hwire : s.wire = []) :
    s.answers[k]? = some (s.bus.packet.cmd, s.bus.packet.data) := by
  have htodo : todo = [] := by
    have hlength := h.arriving.length_eq
    rw [hwire] at hlength
    exact List.eq_nil_of_length_eq_zero hlength.symm
  have hdone : done = s.answers := by
    rw [← h.answered, htodo, List.append_nil]
  have hlength : s.answers.length = k + 1 := by
    rw [← h.waiting k hwaiting, ← h.sent, hcommands]
    rfl
  have hlast : done.getLast? = s.answers[k]? := by
    rw [hdone, List.getLast?_eq_getElem?, hlength]
    rfl
  rw [List.getElem?_eq_getElem (by omega)] at hlast ⊢
  rw [h.latest htodo _ hlast]

/-- A call returns a packet. -/
private theorem Inv.finish (h : Inv crc8 done todo ph s)
    (hguard : Guard s .finish) {k : Nat} (hwaiting : s.waiting = some k)
    {pkt : Ref} {queue : List Ref} (hqueue : s.bus.recvQueue = pkt :: queue) :
    Inv crc8 done todo ph
      { s with
        bus := { s.bus with recvQueue := queue }
        waiting := none
        returned := s.returned ++ [(k, s.bus.store pkt)] } where
  arriving := h.arriving
  tracks := h.tracks
  answered := h.answered
  fits := h.fits
  sent := h.sent
  waiting := by
    intro k hk
    cases hk
  queued := by
    intro p hp
    apply h.queued p
    rw [hqueue]
    exact List.mem_cons_of_mem pkt hp
  counted := by
    have hcounted := h.counted
    rw [hqueue, List.length_cons] at hcounted
    simp only [List.length_append, List.length_singleton]
    omega
  latest := h.latest
  agrees := by
    have harrived := hguard (by rw [hqueue]; exact List.cons_ne_nil pkt queue)
    have hpkt : pkt = s.bus.decoder.packet := by
      apply h.queued pkt
      rw [hqueue]
      exact List.mem_cons_self
    intro r hr
    rcases List.mem_append.mp hr with hr | hr
    · exact h.agrees r hr
    · rw [List.mem_singleton.mp hr, hpkt]
      exact h.answer_eq hwaiting harrived.1 harrived.2

/-- A call times out. -/
private theorem Inv.timeout (h : Inv crc8 done todo ph s) :
    Inv crc8 done todo ph { s with waiting := none } :=
  { h with
    waiting := by
      intro k hk
      cases hk }

end Steps

/-- The answers are split into those that have arrived and those on the
way. -/
def Splits (crc8 : UInt8 → UInt8 → UInt8) (s : State) : Prop :=
  ∃ done todo ph, Inv crc8 done todo ph s

/-- **Every guarded step** keeps the invariant. -/
theorem splits_step (crc8 : UInt8 → UInt8 → UInt8) (s : State) (a : Action)
    (s' : State) (h : Splits crc8 s) (hguard : Guard s a)
    (hstep : step crc8 s a = some s') : Splits crc8 s' := by
  obtain ⟨done, todo, ph, hinv⟩ := h
  cases a with
  | call cmdPkt =>
      obtain ⟨_, encoder, rfl⟩ := step_call hstep
      exact ⟨done, todo, ph, hinv.call cmdPkt.cmd encoder⟩
  | answer data =>
      obtain ⟨cmd, commands, hcommands, rfl⟩ := step_answer hstep
      have hfits : Fits (cmd, data) := hguard cmd (by rw [hcommands]; rfl)
      exact ⟨done, _, ph, hinv.answer hcommands hfits⟩
  | deliver =>
      obtain ⟨byte, bytes, frames, alive, hwire, rfl⟩ := step_deliver hstep
      obtain ⟨done', todo', ph', hinv'⟩ := hinv.deliver hwire
      exact ⟨done', todo', ph', hinv' alive⟩
  | finish =>
      obtain ⟨k, hwaiting, ⟨_, rfl⟩ | ⟨pkt, queue, hqueue, rfl⟩⟩ :=
        step_finish hstep
      · exact ⟨done, todo, ph, hinv.timeout⟩
      · exact ⟨done, todo, ph, hinv.finish hguard hwaiting hqueue⟩

/-- **When a call returns the response to its own command.**  In every run in
which the answers fit and no call finds a packet in the queue before its own
answer has arrived, every packet that a call returned is the answer to the
command of that call. -/
theorem agrees_of_guarded (crc8 : UInt8 → UInt8 → UInt8) (as : List Action)
    (s : State) (hrun : Run (step crc8) Guard start as s) : Agrees s := by
  obtain ⟨done, todo, ph, hinv⟩ := hrun.invariant (Splits crc8)
    (splits_step crc8) ⟨[], [], .idle, inv_start crc8⟩
  exact hinv.agrees

/-- The first command is answered at once; the second call times out, and the
third finds its own answer, which overwrote the late one. -/
def lateAnswer : List Action :=
  [.call (.new 0x01 [7]), .answer [7]] ++ List.replicate 5 .deliver ++
    [.finish, .call (.new 0x10 []), .finish, .call (.new 0x11 [END]),
      .answer [], .answer [8]] ++ List.replicate 9 .deliver ++ [.finish]

theorem agrees_of_guarded_lateAnswer :
    ∃ s, perform (step crc8Poly07) start lateAnswer = some s ∧
      s.returned.map (fun r => (r.1, r.2.cmd)) = [(0, 0x01), (2, 0x11)] ∧
      Agrees s := by
  have hreturned : (perform (guarded (step crc8Poly07) Guard) start
      lateAnswer).map (fun s => s.returned.map fun r => (r.1, r.2.cmd)) =
      some [(0, 0x01), (2, 0x11)] := by
    decide +kernel
  obtain ⟨s, hs, hs'⟩ := Option.map_eq_some_iff.mp hreturned
  have hrun := Run.of_perform_guarded hs
  exact ⟨s, hrun.perform_eq, hs', agrees_of_guarded crc8Poly07 _ s hrun⟩

/-- The response to a call that timed out is there before that to the next. -/
def staleAnswer : List Action :=
  [.call (.new 0x01 [7]), .finish, .answer [7]] ++
    List.replicate 5 .deliver ++ [.call (.new 0x10 []), .finish]

/-- It is what the next call returns. -/
theorem agrees_fails :
    ¬ ∀ (as : List Action) (s : State),
      perform (step crc8Poly07) start as = some s → Agrees s := by
  intro h
  have hreturned : (perform (step crc8Poly07) start staleAnswer).map
      (fun s => (s.returned.map Prod.fst, s.answers.length)) =
      some ([1], 1) := by
    decide +kernel
  obtain ⟨s, hs, hs'⟩ := Option.map_eq_some_iff.mp hreturned
  rw [Prod.mk.injEq] at hs'
  obtain ⟨r, hr, hcall⟩ := List.mem_map.mp
    (show 1 ∈ s.returned.map Prod.fst from
      hs'.1 ▸ List.mem_singleton_self 1)
  have hanswer := h _ s hs r hr
  rw [hcall, List.getElem?_eq_none (by omega)] at hanswer
  cases hanswer

/-! ## Patience -/

/-- The host makes no call once one has timed out.  The answers fit. -/
def Patient (s : State) : Action → Prop
  | .call _ => s.returned.length = s.sent
  | .answer data => ∀ cmd ∈ s.commands.head?, Fits (cmd, data)
  | _ => True

/-- All calls before the one that waits have returned a packet. -/
def Paired (s : State) : Prop :=
  ∀ k, s.waiting = some k → s.returned.length = k

theorem paired_step {crc8 : UInt8 → UInt8 → UInt8} {s s' : State} {a : Action}
    (h : Paired s) (hpatient : Patient s a)
    (hstep : step crc8 s a = some s') : Paired s' := by
  cases a with
  | call cmdPkt =>
      obtain ⟨_, encoder, rfl⟩ := step_call hstep
      intro k hk
      rw [← Option.some.inj hk]
      exact hpatient
  | answer data =>
      obtain ⟨cmd, commands, _, rfl⟩ := step_answer hstep
      exact h
  | deliver =>
      obtain ⟨byte, bytes, frames, alive, _, rfl⟩ := step_deliver hstep
      exact h
  | finish =>
      obtain ⟨k, _, ⟨_, rfl⟩ | ⟨pkt, queue, _, rfl⟩⟩ := step_finish hstep
      · intro k hk
        cases hk
      · intro k hk
        cases hk

/-- While no call has timed out, a queued packet is the last answer. -/
private theorem guard_of_patient {crc8 : UInt8 → UInt8 → UInt8}
    {s s' : State} {a : Action} (h : Splits crc8 s) (hpaired : Paired s)
    (hpatient : Patient s a) (hstep : step crc8 s a = some s') :
    Guard s a := by
  cases a with
  | call cmdPkt => trivial
  | answer data => exact hpatient
  | deliver => trivial
  | finish =>
      intro hqueue
      obtain ⟨k, hwaiting, _⟩ := step_finish hstep
      obtain ⟨done, todo, ph, hinv⟩ := h
      have hlength := congrArg List.length hinv.answered
      rw [List.length_append] at hlength
      have hwire := hinv.arriving.length_eq
      have hcounted := hinv.counted
      have hreturned := hpaired k hwaiting
      have hsent := hinv.sent
      have hlast := hinv.waiting k hwaiting
      have hpos := List.length_pos_of_ne_nil hqueue
      constructor
      · apply List.eq_nil_of_length_eq_zero
        omega
      · apply List.eq_nil_of_length_eq_zero
        omega

/-- **Patience is enough.**  A host that makes no more calls once one has
timed out meets the condition in every run. -/
theorem guarded_of_patient (crc8 : UInt8 → UInt8 → UInt8)
    {as : List Action} {s : State}
    (hrun : Run (step crc8) Patient start as s) :
    Run (step crc8) Guard start as s := by
  apply hrun.mono fun s => Splits crc8 s ∧ Paired s
  · rintro s a s' ⟨hsplits, hpaired⟩ hpatient hstep
    have hguard := guard_of_patient hsplits hpaired hpatient hstep
    exact ⟨hguard, splits_step crc8 s a s' hsplits hguard hstep,
      paired_step hpaired hpatient hstep⟩
  · refine ⟨⟨[], [], .idle, inv_start crc8⟩, ?_⟩
    intro k hk
    cases hk

end DuinoBus.HostRequest
