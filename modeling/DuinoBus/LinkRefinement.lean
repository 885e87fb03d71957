import DuinoBus.HostRequest
import DuinoBus.WholeLink

/-!
# The link refines the machine of calls and answers

`HostRequest` looks at the host's calls and has a device that answers every
command at some time with some data, one frame a step.  The link has the
device itself, which reads and writes bytes.  `link_refines` follows every run
of the link there, as long as no call is made after a command that the device
does not know, since the machine would go on waiting for the answer to that.

What holds of the machine then holds of the link, with the answers that the
device really gives: `link_agrees` says when a call returns the response of
the device to its own command.
-/

namespace DuinoBus.LinkRefinement

open DuinoBus.Wire
open DuinoBus.Verified
open DuinoBus.WholeLink
open DuinoBus.HostArrival (restAfter)
open DuinoBus.Cpp.CorePacketHandler (PING DEBUG HEAP_INFO)

/-- The device knows all commands that were sent. -/
def AllKnown (s : State) : Prop := ∀ f ∈ s.sent, Known f.1

instance (s : State) : Decidable (AllKnown s) :=
  inferInstanceAs (Decidable (∀ f ∈ s.sent, Known f.1))

/-- Calls send commands that fit, and none after one that is not known. -/
def Orderly (capacity : Nat) (s : State) : Action → Prop
  | .call cmdPkt => Fits capacity (cmdPkt.cmd, cmdPkt.data) ∧ AllKnown s
  | _ => True

instance (capacity : Nat) (s : State) : DecidablePred (Orderly capacity s)
  | .call cmdPkt => inferInstanceAs
      (Decidable (Fits capacity (cmdPkt.cmd, cmdPkt.data) ∧ AllKnown s))
  | .serve _ _ => .isTrue trivial
  | .deliver => .isTrue trivial
  | .finish => .isTrue trivial

/-- A state of the link and one of the machine of calls and answers, in which
the answers are the responses of the device. -/
structure Matches (t : Progress) (s : State) (a : HostRequest.State) :
    Prop where
  bus : a.bus = s.host
  alive : a.alive = s.alive
  wire : a.wire.flatten = s.down
  whole : [] ∉ a.wire
  sent : a.sent = s.sent.length
  waiting : a.waiting = s.waiting
  answers : a.answers = t.arrived ++ t.todo
  returned : a.returned = s.returned
  commands : a.commands = t.unserved.map Prod.fst ∨
    t.unserved = [] ∧ ¬ AllKnown s
  earlier : ∀ f ∈ s.sent.dropLast, Known f.1

/-- The link with what is known of it, and a matching state. -/
def Follows (crc8 : UInt8 → UInt8 → UInt8) (capacity rspCapacity : Nat)
    (s : State) (a : HostRequest.State) : Prop :=
  ∃ t, Inv crc8 capacity rspCapacity t s ∧ Matches t s a

theorem follows_start (crc8 : UInt8 → UInt8 → UInt8)
    (cmdPacket rspPacket : Cpp.Packet) (escapeChar : UInt8) :
    Follows crc8 cmdPacket.maxDataLen rspPacket.maxDataLen
      (start cmdPacket rspPacket escapeChar) HostRequest.start := by
  refine ⟨_, inv_start crc8 cmdPacket rspPacket escapeChar, ?_⟩
  exact
    { bus := rfl
      alive := rfl
      wire := rfl
      whole := List.not_mem_nil
      sent := rfl
      waiting := rfl
      answers := rfl
      returned := rfl
      commands := .inl rfl
      earlier := by
        intro f hf
        cases hf }

/-! ## One step -/

/-- Frames on the way, with the first byte taken. -/
private theorem exists_first {wire : List (List UInt8)} {byte : UInt8}
    {bytes : List UInt8} (hwhole : [] ∉ wire)
    (hflatten : wire.flatten = byte :: bytes) :
    ∃ rest frames, wire = (byte :: rest) :: frames ∧
      (restAfter rest frames).flatten = bytes ∧
      [] ∉ restAfter rest frames := by
  cases wire with
  | nil => cases hflatten
  | cons first frames =>
      cases first with
      | nil => exact absurd List.mem_cons_self hwhole
      | cons b rest =>
          rw [List.flatten_cons, List.cons_append] at hflatten
          obtain ⟨rfl, rfl⟩ := List.cons.inj hflatten
          have hframes : [] ∉ frames := fun h =>
            hwhole (List.mem_cons_of_mem _ h)
          refine ⟨rest, frames, rfl, ?_⟩
          unfold restAfter
          split
          · next hnil =>
              subst hnil
              exact ⟨rfl, hframes⟩
          · next hne =>
              refine ⟨rfl, fun h => ?_⟩
              rcases List.mem_cons.mp h with h | h
              · exact hne h.symm
              · exact hframes h

section Steps

variable {crc8 : UInt8 → UInt8 → UInt8} {t : Progress} {s : State}
  {a : HostRequest.State}

private theorem Matches.call (h : Matches t s a) (hknown : AllKnown s)
    (cmdPkt : Py.Packet) (encoder : Py.PacketEncoder) :
    Matches { t with unserved := t.unserved ++ [(cmdPkt.cmd, cmdPkt.data)] }
      { s with
        host := { s.host with encoder }
        up := s.up ++ frame crc8 cmdPkt.cmd cmdPkt.data
        sent := s.sent ++ [(cmdPkt.cmd, cmdPkt.data)]
        waiting := some s.sent.length }
      { a with
        bus := { s.host with encoder }
        commands := a.commands ++ [cmdPkt.cmd]
        sent := a.sent + 1
        waiting := some a.sent } :=
  { h with
    bus := rfl
    sent := by rw [h.sent, List.length_append, List.length_singleton]
    waiting := by rw [h.sent]
    commands := by
      rcases h.commands with hcommands | ⟨_, hunknown⟩
      · refine .inl ?_
        rw [hcommands, List.map_append]
        rfl
      · exact absurd hknown hunknown
    earlier := by
      rw [List.dropLast_concat]
      exact hknown }

/-- A command that the device knows, and its answer. -/
private theorem Matches.answer (h : Matches t s a) {f r : UInt8 × List UInt8}
    {unserved : List (UInt8 × List UInt8)} {env : Cpp.Surroundings}
    (hunserved : t.unserved = f :: unserved) (hresponse : response env f = some r)
    (ph : Phase UInt8) (device : Except Fault (Cpp.Bus Cpp.Surroundings))
    (up : List UInt8) (surroundings : List Cpp.Surroundings) :
    ∃ a', HostRequest.step crc8 a (.answer r.2) = some a' ∧
      a.commands.head? = some f.1 ∧
      Matches (t.serve f unserved env ph)
        { s with
          device
          up
          down := s.down ++ frame crc8 r.1 r.2
          surroundings
          written := s.written ++ frame crc8 r.1 r.2 } a' := by
  have hcommands : a.commands = f.1 :: unserved.map Prod.fst := by
    rcases h.commands with hcommands | ⟨hnil, _⟩
    · rw [hcommands, hunserved]
      rfl
    · cases hunserved.symm.trans hnil
  have hfst := response_fst hresponse
  have hstep : HostRequest.step crc8 a (.answer r.2) = some { a with
      commands := unserved.map Prod.fst
      wire := a.wire ++ [frame crc8 f.1 r.2]
      answers := a.answers ++ [(f.1, r.2)] } := by
    simp only [HostRequest.step, hcommands]
  refine ⟨_, hstep, by rw [hcommands]; rfl, ?_⟩
  exact
    { h with
      wire := by
        rw [List.flatten_append, h.wire, ← hfst, List.flatten_singleton]
      whole := by
        intro hmem
        rcases List.mem_append.mp hmem with hmem | hmem
        · exact h.whole hmem
        · have hpos := (framing crc8).length_frame_pos f.1 r.2
          rw [show (framing crc8).frame f.1 r.2 = [] from
            (List.mem_singleton.mp hmem).symm] at hpos
          exact Nat.lt_irrefl 0 hpos
      answers := by
        rw [h.answers, List.append_assoc]
        simp only [Progress.serve, hresponse, Option.toList_some, ← hfst]
      commands := .inl rfl }

/-- A command that the device does not know is the last one. -/
private theorem Matches.ignore (h : Matches t s a) {f : UInt8 × List UInt8}
    {unserved : List (UInt8 × List UInt8)} {env : Cpp.Surroundings}
    (hsent : s.sent = t.served.map Prod.fst ++ t.unserved)
    (hunserved : t.unserved = f :: unserved) (hresponse : response env f = none)
    (ph : Phase UInt8) (device : Except Fault (Cpp.Bus Cpp.Surroundings))
    (up : List UInt8) (surroundings : List Cpp.Surroundings) :
    Matches (t.serve f unserved env ph) { s with device, up, surroundings }
      a := by
  have hunknown : ¬ Known f.1 := by
    rw [← response_isSome env f, hresponse]
    exact Bool.false_ne_true
  rw [hunserved] at hsent
  have hlast : unserved = [] := by
    by_contra hne
    apply hunknown
    apply h.earlier f
    rw [hsent, List.dropLast_append_cons, List.dropLast_cons_of_ne_nil hne]
    exact List.mem_append_right _ List.mem_cons_self
  refine { h with answers := ?_, commands := .inr ⟨hlast, fun hall => ?_⟩ }
  · rw [h.answers]
    simp only [Progress.serve, hresponse, Option.toList_none, List.append_nil]
  · apply hunknown
    apply hall f
    show f ∈ s.sent
    rw [hsent]
    exact List.mem_append_right _ List.mem_cons_self

/-- The receive thread polls the same byte on both sides. -/
private theorem Matches.deliver (h : Matches t s a) {byte : UInt8}
    {bytes : List UInt8} (halive : s.alive = true)
    (hdown : s.down = byte :: bytes) {t' : Progress}
    (hanswers : t'.arrived ++ t'.todo = t.arrived ++ t.todo)
    (hunserved : t'.unserved = t.unserved) :
    ∃ a', HostRequest.step crc8 a .deliver = some a' ∧
      Matches t'
        { s with
          host := (s.host.receive crc8 (some byte)).2
          alive := (s.host.receive crc8 (some byte)).1.isOk
          down := bytes } a' := by
  obtain ⟨rest, frames, hwire, hflatten, hwhole⟩ :=
    exists_first h.whole (h.wire.trans hdown)
  have hstep : HostRequest.step crc8 a .deliver = some { a with
      bus := (s.host.receive crc8 (some byte)).2
      alive := (s.host.receive crc8 (some byte)).1.isOk
      wire := restAfter rest frames } := by
    simp only [HostRequest.step, h.alive, halive, hwire, h.bus]
  refine ⟨_, hstep, ?_⟩
  exact
    { h with
      bus := rfl
      alive := rfl
      wire := hflatten
      whole := hwhole
      answers := h.answers.trans hanswers.symm
      commands := by
        rw [hunserved]
        exact h.commands }

/-- The call that waits returns on both sides. -/
private theorem Matches.finish (h : Matches t s a) {s' : State}
    (hstep : step crc8 s .finish = some s') :
    ∃ a', HostRequest.step crc8 a .finish = some a' ∧ Matches t s' a' := by
  obtain ⟨k, hwaiting, ⟨hqueue, rfl⟩ | ⟨pkt, queue, hqueue, rfl⟩⟩ :=
    step_finish hstep
  · have hfinish : HostRequest.step crc8 a .finish =
        some { a with bus := s.host, waiting := none } := by
      simp only [HostRequest.step, h.waiting, hwaiting, h.bus,
        Py.Bus.getResponse, hqueue]
    exact ⟨_, hfinish, { h with bus := rfl, waiting := rfl }⟩
  · have hfinish : HostRequest.step crc8 a .finish = some { a with
        bus := { s.host with recvQueue := queue }
        waiting := none
        returned := a.returned ++ [(k, s.host.store pkt)] } := by
      simp only [HostRequest.step, h.waiting, hwaiting, h.bus,
        Py.Bus.getResponse, hqueue]
    refine ⟨_, hfinish, { h with bus := rfl, waiting := rfl, returned := ?_ }⟩
    rw [h.returned]

end Steps

/-- The answers fit. -/
def AnswersFit (a : HostRequest.State) : HostRequest.Action → Prop
  | .answer data => ∀ cmd ∈ a.commands.head?, HostArrival.Fits (cmd, data)
  | _ => True

section Refinement

variable {crc8 : UInt8 → UInt8 → UInt8} {capacity rspCapacity : Nat}
  {s s' : State} {a : HostRequest.State}

/-- **One step of the link** is no step of the machine, or one: a byte that
the device reads is none unless it completes a known command. -/
theorem follows_step (hroom : max 20 (capacity - 1) ≤ rspCapacity)
    {act : Action} (h : Follows crc8 capacity rspCapacity s a)
    (hguard : Orderly capacity s act) (hstep : step crc8 s act = some s') :
    Follows crc8 capacity rspCapacity s' a ∨
    ∃ b a', HostRequest.step crc8 a b = some a' ∧ AnswersFit a b ∧
      (b = .finish → act = .finish) ∧
      Follows crc8 capacity rspCapacity s' a' := by
  obtain ⟨t, hinv, hmatches⟩ := h
  cases act with
  | call cmdPkt =>
      obtain ⟨hwaiting, encoder, rfl⟩ := step_call hstep
      obtain ⟨encoder', hsend⟩ := s.host.sendCommand_eq crc8 cmdPkt
      have hcall : HostRequest.step crc8 a (.call cmdPkt) = some { a with
          bus := { s.host with encoder := encoder' }
          commands := a.commands ++ [cmdPkt.cmd]
          sent := a.sent + 1
          waiting := some a.sent } := by
        simp only [HostRequest.step, hmatches.waiting, hwaiting, hmatches.bus,
          hsend]
      have hstep' := hstep
      simp only [step, hwaiting, hsend] at hstep'
      rw [← Option.some.inj hstep']
      exact .inr ⟨_, _, hcall, trivial, (fun h => by cases h), _,
        hinv.call hguard.1 encoder' _, hmatches.call hguard.2 cmdPkt encoder'⟩
  | serve env uninit =>
      obtain ⟨device, byte, bytes, hdevice, hup, hserves⟩ := step_serve hstep
      obtain ⟨written, device', t', hserve, hinv', hcases⟩ :=
        hinv.serve hroom hdevice hup env uninit
      rcases hserves with ⟨written', device'', hserve', rfl⟩ | ⟨f, hfails⟩
      · cases hserve.symm.trans hserve'
        rcases hcases with
          ⟨ph, rfl, rfl⟩ | ⟨f, unserved, ph, hunserved, rfl, rfl⟩
        · refine .inl ⟨_, hinv', ?_⟩
          rw [List.append_nil, List.append_nil]
          exact { hmatches with }
        · cases hresponse : response env f with
          | none =>
              rw [hresponse] at hinv'
              refine .inl ⟨_, hinv', ?_⟩
              rw [Option.toList_none, List.flatMap_nil, List.append_nil,
                List.append_nil]
              exact hmatches.ignore hinv.sent hunserved hresponse ph _ bytes _
          | some r =>
              rw [hresponse, Option.toList_some, List.flatMap_singleton]
                at hinv'
              obtain ⟨a', hanswer, hhead, hmatches'⟩ :=
                hmatches.answer hunserved hresponse ph
                  (.ok device') bytes (s.surroundings ++ [env])
              rw [Option.toList_some, List.flatMap_singleton]
              have hfits := fits_of_response
                (hinv.room f (by rw [hunserved]; exact List.mem_cons_self))
                hresponse
              exact .inr ⟨_, a', hanswer, fun _ _ => hfits,
                (fun h => by cases h), _, hinv', hmatches'⟩
      · cases hserve.symm.trans hfails
  | deliver =>
      obtain ⟨byte, bytes, hdown, rfl⟩ := step_deliver hstep
      obtain ⟨t', host, rfl, hinv', _, hcases⟩ := hinv.deliver hdown
      have hsame : t'.arrived ++ t'.todo = t.arrived ++ t.todo ∧
          t'.unserved = t.unserved := by
        rcases hcases with ⟨ph, rfl, _⟩ | ⟨r, todo, ph, htodo, rfl, _⟩
        · exact ⟨rfl, rfl⟩
        · refine ⟨?_, rfl⟩
          rw [htodo]
          exact List.append_assoc _ _ _
      obtain ⟨a', hdeliver, hmatches'⟩ :=
        hmatches.deliver hinv.alive hdown hsame.1 hsame.2
      exact .inr ⟨_, a', hdeliver, trivial, (fun h => by cases h), t',
        hinv', hmatches'⟩
  | finish =>
      obtain ⟨a', hfinish, hmatches'⟩ := hmatches.finish hstep
      have hkept : Inv crc8 capacity rspCapacity t s' := by
        obtain ⟨k, _, ⟨_, rfl⟩ | ⟨pkt, queue, hqueue, rfl⟩⟩ := step_finish hstep
        · exact { hinv with }
        · exact hinv.finish hqueue k
      exact .inr ⟨_, a', hfinish, trivial, fun _ => rfl, t, hkept, hmatches'⟩

end Refinement

/-! ## Whole runs -/

/-- Calls send commands that fit, none after one that is not known, and no
call finds a packet before the responses to all commands, its own among them,
have arrived. -/
def Timely (capacity : Nat) (s : State) : Action → Prop
  | .finish => s.host.recvQueue ≠ [] → s.up = [] ∧ s.down = [] ∧ AllKnown s
  | act => Orderly capacity s act

instance (capacity : Nat) (s : State) : DecidablePred (Timely capacity s)
  | .call cmdPkt =>
      inferInstanceAs (Decidable (Orderly capacity s (.call cmdPkt)))
  | .serve _ _ => .isTrue trivial
  | .deliver => .isTrue trivial
  | .finish => inferInstanceAs (Decidable (_ → _))

theorem Timely.orderly {capacity : Nat} {s : State} {act : Action}
    (h : Timely capacity s act) : Orderly capacity s act := by
  cases act with
  | finish => trivial
  | _ => exact h

/-- Once everything has arrived, nothing is on the way in the machine. -/
private theorem Follows.arrived {crc8 : UInt8 → UInt8 → UInt8}
    {capacity rspCapacity : Nat} {s : State} {a : HostRequest.State}
    (h : Follows crc8 capacity rspCapacity s a) (hup : s.up = [])
    (hdown : s.down = []) (hknown : AllKnown s) :
    a.commands = [] ∧ a.wire = [] := by
  obtain ⟨t, hinv, hmatches⟩ := h
  constructor
  · rcases hmatches.commands with hcommands | ⟨_, hunknown⟩
    · rw [hcommands, hinv.up.eq_nil_iff.mp hup]
      rfl
    · exact absurd hknown hunknown
  · have hflatten := hmatches.wire.trans hdown
    rw [List.flatten_eq_nil_iff] at hflatten
    apply List.eq_nil_iff_forall_not_mem.mpr
    intro bytes hbytes
    apply hmatches.whole
    rw [← hflatten bytes hbytes]
    exact hbytes

/-- A timely run is one in which no call of the machine finds a packet too
early. -/
private theorem guarded_of_timely {crc8 : UInt8 → UInt8 → UInt8}
    {cmdPacket rspPacket : Cpp.Packet} {escapeChar : UInt8}
    (hroom : max 20 (cmdPacket.maxDataLen - 1) ≤ rspPacket.maxDataLen)
    {as : List Action} {s : State}
    (hrun : Run (step crc8) (Timely cmdPacket.maxDataLen)
      (start cmdPacket rspPacket escapeChar) as s) :
    ∃ bs a, Run (HostRequest.step crc8) HostRequest.Guard HostRequest.start
        bs a ∧
      Follows crc8 cmdPacket.maxDataLen rspPacket.maxDataLen s a := by
  refine hrun.refine (Follows crc8 _ _) ?_
    (follows_start crc8 cmdPacket rspPacket escapeChar)
  intro s a act s' h hguard hstep
  rcases follows_step hroom h hguard.orderly hstep with
    h' | ⟨b, a', hb, hfits, hfinish, h'⟩
  · exact ⟨[], a, .nil a, h'⟩
  · refine ⟨[b], a', .single ?_ hb, h'⟩
    cases b with
    | call cmdPkt => trivial
    | answer data => exact hfits
    | deliver => trivial
    | finish =>
        intro hqueue
        cases hfinish rfl
        obtain ⟨t, hinv, hmatches⟩ := h
        rw [hmatches.bus] at hqueue
        obtain ⟨hup, hdown, hknown⟩ := hguard hqueue
        exact Follows.arrived ⟨t, hinv, hmatches⟩ hup hdown hknown

/-- Where only the last command may be one that is not known, responses stand
at the places of their commands. -/
theorem getElem?_of_responses
    {done : List ((UInt8 × List UInt8) × Cpp.Surroundings)}
    (hknown : ∀ x ∈ done.dropLast, Known x.1.1) {k : Nat}
    {r : UInt8 × List UInt8} (hr : (responses done)[k]? = some r) :
    ∃ f env, done[k]? = some (f, env) ∧ response env f = some r := by
  induction done generalizing k with
  | nil => cases hr
  | cons x done ih =>
      rw [responses_cons] at hr
      cases hresponse : response x.2 x.1 with
      | some q =>
          rw [hresponse, Option.toList_some, List.singleton_append] at hr
          cases k with
          | zero =>
              cases hr
              exact ⟨x.1, x.2, rfl, hresponse⟩
          | succ k =>
              refine ih (fun y hy => hknown y ?_) hr
              rw [List.dropLast_cons_of_ne_nil (by rintro rfl; cases hy)]
              exact List.mem_cons_of_mem x hy
      | none =>
          -- only the last command has no response, so there are no more
          have hlast : done = [] := by
            by_contra hne
            have hx := hknown x (by
              rw [List.dropLast_cons_of_ne_nil hne]
              exact List.mem_cons_self)
            rw [← response_isSome x.2 x.1, hresponse] at hx
            cases hx
          subst hlast
          rw [hresponse] at hr
          cases hr

/-- The command of a response is one that was sent. -/
theorem getElem?_sent {crc8 : UInt8 → UInt8 → UInt8}
    {capacity rspCapacity : Nat} {t : Progress} {s : State}
    (hinv : Inv crc8 capacity rspCapacity t s) {k : Nat}
    {f : UInt8 × List UInt8} {env : Cpp.Surroundings}
    (hserved : t.served[k]? = some (f, env)) : s.sent[k]? = some f := by
  have hfst : (t.served.map Prod.fst)[k]? = some f := by
    rw [List.getElem?_map, hserved]
    rfl
  rw [hinv.sent, List.getElem?_append_left
    (List.getElem?_eq_some_iff.mp hfst).1]
  exact hfst

/-- **When a call returns the response of the device to its own command.**  In
every timely run, every packet that a call returned is what the device
answered to the command of that call when it had read it. -/
theorem link_agrees (crc8 : UInt8 → UInt8 → UInt8)
    (cmdPacket rspPacket : Cpp.Packet) (escapeChar : UInt8)
    (hroom : max 20 (cmdPacket.maxDataLen - 1) ≤ rspPacket.maxDataLen)
    (as : List Action) (s : State)
    (hrun : Run (step crc8) (Timely cmdPacket.maxDataLen)
      (start cmdPacket rspPacket escapeChar) as s) :
    ∀ r ∈ s.returned, ∃ f env, s.sent[r.1]? = some f ∧
      (s.served crc8)[r.1]? = some (f, env) ∧
      response env f = some (r.2.cmd, r.2.data) := by
  obtain ⟨bs, a, hbs, t, hinv, hmatches⟩ := guarded_of_timely hroom hrun
  obtain ⟨done, todo, ph, habstract⟩ := hbs.invariant (HostRequest.Splits crc8)
    (HostRequest.splits_step crc8) ⟨[], [], .idle, HostRequest.inv_start crc8⟩
  intro r hr
  rw [← hmatches.returned] at hr
  have hanswer := habstract.agrees r hr
  rw [hmatches.answers, ← hinv.responses] at hanswer
  have hknown : ∀ x ∈ t.served.dropLast, Known x.1.1 := by
    intro x hx
    apply hmatches.earlier x.1
    have hmem : x.1 ∈ (t.served.map Prod.fst).dropLast := by
      rw [← List.map_dropLast]
      exact List.mem_map_of_mem hx
    rw [hinv.sent]
    cases t.unserved with
    | nil =>
        rw [List.append_nil]
        exact hmem
    | cons g unserved =>
        rw [List.dropLast_append_cons]
        exact List.mem_append_left _ ((List.dropLast_sublist _).subset hmem)
  obtain ⟨f, env, hserved, hresponse⟩ := getElem?_of_responses hknown hanswer
  refine ⟨f, env, getElem?_sent hinv hserved, ?_, hresponse⟩
  rw [hinv.served_eq]
  exact hserved

/-- A `PING` whose response is returned, a `DEBUG` whose response comes after
its call has timed out, and a `HEAP_INFO` that finds its own. -/
def lateResponse : List Action :=
  [.call (.new PING [END])] ++ List.replicate 6 (.serve bare 0) ++
    List.replicate 6 .deliver ++ [.finish, .call (.new DEBUG []), .finish,
      .call (.new HEAP_INFO [])] ++ List.replicate 8 (.serve bare 0) ++
    List.replicate 32 .deliver ++ [.finish]

theorem link_agrees_lateResponse :
    ∃ s, perform (step crc8Poly07) smallStart lateResponse = some s ∧
      s.returned.map (fun r => (r.1, r.2.cmd)) = [(0, PING), (2, HEAP_INFO)] ∧
      ∀ r ∈ s.returned, ∃ f env, s.sent[r.1]? = some f ∧
        (s.served crc8Poly07)[r.1]? = some (f, env) ∧
        response env f = some (r.2.cmd, r.2.data) := by
  have hreturned : (perform (guarded (step crc8Poly07) (Timely 16)) smallStart
      lateResponse).map (fun s => s.returned.map fun r => (r.1, r.2.cmd)) =
      some [(0, PING), (2, HEAP_INFO)] := by
    decide +kernel
  obtain ⟨s, hs, hs'⟩ := Option.map_eq_some_iff.mp hreturned
  have hrun := Run.of_perform_guarded hs
  exact ⟨s, hrun.perform_eq, hs', link_agrees crc8Poly07
    (.new (List.replicate 16 0) 0) (.new (List.replicate 20 0) 0) 0 (by decide)
    lateResponse s hrun⟩

/-! ## Patience -/

/-- The host makes no call once one has timed out. -/
def Patient (capacity : Nat) (s : State) : Action → Prop
  | .call cmdPkt => Fits capacity (cmdPkt.cmd, cmdPkt.data) ∧
      s.returned.length = s.sent.length
  | _ => True

theorem Patient.guard {capacity : Nat} {s : State} {act : Action}
    (h : Patient capacity s act) : Guard capacity s act := by
  cases act with
  | call cmdPkt => exact h.1
  | _ => trivial

/-- All calls before the one that waits have returned a packet. -/
def Paired (s : State) : Prop :=
  ∀ k, s.waiting = some k → s.returned.length = k ∧ s.sent.length = k + 1

theorem paired_step {crc8 : UInt8 → UInt8 → UInt8} {capacity : Nat}
    {s s' : State} {act : Action} (h : Paired s)
    (hpatient : Patient capacity s act) (hstep : step crc8 s act = some s') :
    Paired s' := by
  cases act with
  | call cmdPkt =>
      obtain ⟨_, encoder, rfl⟩ := step_call hstep
      intro k hk
      cases hk
      exact ⟨hpatient.2, List.length_append⟩
  | serve env uninit =>
      obtain ⟨device, byte, bytes, hdevice, hup, hserves⟩ := step_serve hstep
      rcases hserves with ⟨written, device', _, rfl⟩ | ⟨f, hfails⟩
      · exact h
      · simp only [step, hdevice, hup, hfails] at hstep
        rw [← Option.some.inj hstep]
        exact h
  | deliver =>
      obtain ⟨byte, bytes, _, rfl⟩ := step_deliver hstep
      exact h
  | finish =>
      obtain ⟨k, _, ⟨_, rfl⟩ | ⟨pkt, queue, _, rfl⟩⟩ := step_finish hstep
      · intro k hk
        cases hk
      · intro k hk
        cases hk

/-- As many responses as commands have arrived only when the device knew them
all and nothing is on the way. -/
private theorem all_arrived {crc8 : UInt8 → UInt8 → UInt8}
    {capacity rspCapacity : Nat} {s : State}
    (h : Kept crc8 capacity rspCapacity s)
    (hle : s.sent.length ≤ s.returned.length + s.host.recvQueue.length) :
    s.up = [] ∧ s.down = [] ∧ AllKnown s := by
  obtain ⟨t, hinv⟩ := h
  have hcommands := congrArg List.length (responses_commands t.served)
  rw [hinv.responses] at hcommands
  have hfilter := List.length_filter_le Known
    ((t.served.map Prod.fst).map Prod.fst)
  have hcounted := hinv.counted
  have hsent := congrArg List.length hinv.sent
  simp only [List.length_map, List.length_append] at hcommands hfilter hsent
  have hunserved : t.unserved = [] :=
    List.eq_nil_of_length_eq_zero (by omega)
  have htodo : t.todo = [] := List.eq_nil_of_length_eq_zero (by omega)
  refine ⟨hinv.up.eq_nil_iff.mpr hunserved, hinv.down.eq_nil_iff.mpr htodo, ?_⟩
  have hall := List.length_filter_eq_length_iff.mp
    (show (((t.served.map Prod.fst).map Prod.fst).filter Known).length =
      ((t.served.map Prod.fst).map Prod.fst).length by
        rw [List.length_map, List.length_map]
        omega)
  intro f hf
  rw [hinv.sent, hunserved, List.append_nil] at hf
  exact hall f.1 (List.mem_map_of_mem hf)

/-- **Patience is enough.**  A host that makes no call once one has timed out
meets the condition in every run. -/
theorem timely_of_patient (crc8 : UInt8 → UInt8 → UInt8)
    {cmdPacket rspPacket : Cpp.Packet} {escapeChar : UInt8}
    (hroom : max 20 (cmdPacket.maxDataLen - 1) ≤ rspPacket.maxDataLen)
    {as : List Action} {s : State}
    (hrun : Run (step crc8) (Patient cmdPacket.maxDataLen)
      (start cmdPacket rspPacket escapeChar) as s) :
    Run (step crc8) (Timely cmdPacket.maxDataLen)
      (start cmdPacket rspPacket escapeChar) as s := by
  apply hrun.mono fun s =>
    Kept crc8 cmdPacket.maxDataLen rspPacket.maxDataLen s ∧ Paired s
  · rintro s act s' ⟨hkept, hpaired⟩ hpatient hstep
    have hkept' := kept_step crc8 hroom s act s' hkept hpatient.guard hstep
    refine ⟨?_, hkept', paired_step hpaired hpatient hstep⟩
    cases act with
    | call cmdPkt =>
        have hle : s.sent.length ≤
            s.returned.length + s.host.recvQueue.length := by
          rw [hpatient.2]
          exact Nat.le_add_right _ _
        exact ⟨hpatient.1, (all_arrived hkept hle).2.2⟩
    | serve env uninit => trivial
    | deliver => trivial
    | finish =>
        intro hqueue
        obtain ⟨k, hwaiting, _⟩ := step_finish hstep
        obtain ⟨hreturned, hsent⟩ := hpaired k hwaiting
        have hpos := List.length_pos_of_ne_nil hqueue
        exact all_arrived hkept (by omega)
  · refine ⟨⟨_, inv_start crc8 cmdPacket rspPacket escapeChar⟩, ?_⟩
    intro k hk
    cases hk

end DuinoBus.LinkRefinement
