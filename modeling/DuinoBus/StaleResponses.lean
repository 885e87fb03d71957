import DuinoBus.LinkRefinement

/-!
# A response that comes too late

A call that times out leaves its response to the next call: nothing takes it
out of the queue, and `send_command_get_response` does not look at the command
of what it finds there.

`stale_for_ever` says what this does to a host that makes its calls only when
nothing is on its way any more, with commands that fit and that the device
knows.  No call but one ever times out.  Up to that
call, all calls return the responses to their own commands; after it, every
call returns at once, with the response to the command before its own, and
this never ends.
-/

namespace DuinoBus.StaleResponses

open DuinoBus.Wire
open DuinoBus.Verified
open DuinoBus.WholeLink
open DuinoBus.LinkRefinement
  (AllKnown getElem?_of_responses getElem?_sent)
open DuinoBus.Cpp.CorePacketHandler (PING DEBUG HEAP_INFO)

/-- A call that has come to its end without a packet. -/
def TimedOut (s : State) (k : Nat) : Prop :=
  k < s.sent.length ∧ s.waiting ≠ some k ∧ ∀ r ∈ s.returned, r.1 ≠ k

instance (s : State) : DecidablePred (TimedOut s) := fun k =>
  inferInstanceAs (Decidable (k < s.sent.length ∧ s.waiting ≠ some k ∧
    ∀ r ∈ s.returned, r.1 ≠ k))

/-- The command whose response a call returns: its own, or the one before if
an earlier call has timed out. -/
def answeredTo (s : State) (call : Nat) : Nat :=
  if ∃ k, k < call ∧ TimedOut s k then call - 1 else call

/-- Calls send commands that fit and that the device knows, when nothing is on
its way.  A call that finds a packet in the queue returns before the receive
thread goes on. -/
def Prompt (capacity : Nat) (s : State) : Action → Prop
  | .call cmdPkt => Fits capacity (cmdPkt.cmd, cmdPkt.data) ∧
      Known cmdPkt.cmd = true ∧ s.up = [] ∧ s.down = []
  | .deliver => s.waiting ≠ none → s.host.recvQueue = []
  | _ => True

instance (capacity : Nat) (s : State) : DecidablePred (Prompt capacity s)
  | .call cmdPkt => inferInstanceAs
      (Decidable (Fits capacity (cmdPkt.cmd, cmdPkt.data) ∧
        Known cmdPkt.cmd = true ∧ s.up = [] ∧ s.down = []))
  | .serve _ _ => .isTrue trivial
  | .deliver => inferInstanceAs (Decidable (_ → _))
  | .finish => .isTrue trivial

/-! ## The invariant -/

/-- Where the calls are.  `late` is the call that has timed out. -/
structure Calls (late : Option Nat) (s : State) : Prop where
  waiting : ∀ k, s.waiting = some k → s.sent.length = k + 1
  counted : s.sent.length =
    s.returned.length + s.waiting.toList.length + late.toList.length
  placed : ∀ k < s.sent.length,
    (∃ r ∈ s.returned, r.1 = k) ∨ s.waiting = some k ∨ late = some k
  timedOut : ∀ k, late = some k → TimedOut s k

/-- Where the responses are.  A call that is made after one has timed out
finds the packet in the queue. -/
structure Responded (late : Option Nat) (t : Progress) (s : State) : Prop where
  stale : s.waiting ≠ none → late ≠ none → s.host.recvQueue.length = 1
  latest : s.host.recvQueue ≠ [] → t.arrived.getLast? =
    some (s.host.packet.cmd, s.host.packet.data)
  returned : ∀ n r, s.returned[n]? = some r →
    t.arrived[n]? = some (r.2.cmd, r.2.data) ∧
      ((r.1 = n ∧ ∀ k, late = some k → n < k) ∨
        r.1 = n + 1 ∧ ∃ k, late = some k ∧ k ≤ n)

structure Stands (crc8 : UInt8 → UInt8 → UInt8) (capacity rspCapacity : Nat)
    (late : Option Nat) (t : Progress) (s : State) : Prop where
  kept : Inv crc8 capacity rspCapacity t s
  known : AllKnown s
  calls : Calls late s
  responded : Responded late t s

theorem stands_start (crc8 : UInt8 → UInt8 → UInt8)
    (cmdPacket rspPacket : Cpp.Packet) (escapeChar : UInt8) :
    Stands crc8 cmdPacket.maxDataLen rspPacket.maxDataLen none
      ⟨[], [], [], [], .idle, .idle⟩
      (start cmdPacket rspPacket escapeChar) where
  kept := inv_start crc8 cmdPacket rspPacket escapeChar
  known := by
    intro f hf
    cases hf
  calls :=
    { waiting := by
        intro k hk
        cases hk
      counted := rfl
      placed := fun k hk => absurd hk (Nat.not_lt_zero k)
      timedOut := by
        intro k hk
        cases hk }
  responded :=
    { stale := fun h => absurd rfl h
      latest := fun h => absurd rfl h
      returned := by
        intro n r hr
        cases hr }

section Steps

variable {crc8 : UInt8 → UInt8 → UInt8} {capacity rspCapacity : Nat}
  {late : Option Nat} {t : Progress} {s : State}

/-- Every command has its response on the way, or is on its way itself. -/
theorem Stands.sent_eq (h : Stands crc8 capacity rspCapacity late t s) :
    s.sent.length =
      t.arrived.length + t.todo.length + t.unserved.length := by
  have hknown : ((t.served.map Prod.fst).map Prod.fst).filter Known =
      (t.served.map Prod.fst).map Prod.fst := by
    apply List.filter_eq_self.mpr
    intro cmd hcmd
    obtain ⟨f, hf, rfl⟩ := List.mem_map.mp hcmd
    apply h.known f
    rw [h.kept.sent]
    exact List.mem_append_left _ hf
  have hcommands := congrArg List.length (responses_commands t.served)
  rw [hknown, h.kept.responses, List.length_map, List.length_map,
    List.length_append] at hcommands
  rw [h.kept.sent, List.length_append, ← hcommands]

/-- The queue has one packet when it has any, if a call waits. -/
theorem Stands.queue_length (h : Stands crc8 capacity rspCapacity late t s)
    (hwaiting : s.waiting ≠ none) (hqueue : s.host.recvQueue ≠ []) :
    s.host.recvQueue.length = 1 := by
  cases hlate : late with
  | some j =>
      exact h.responded.stale hwaiting (by rw [hlate]; exact Option.some_ne_none j)
  | none =>
      obtain ⟨k, hk⟩ := Option.ne_none_iff_exists'.mp hwaiting
      have hsent := h.sent_eq
      have hcalls := h.calls.counted
      have hcounted := h.kept.counted
      have hpos := List.length_pos_of_ne_nil hqueue
      rw [hk, hlate] at hcalls
      simp only [Option.toList_some, Option.toList_none, List.length_singleton,
        List.length_nil] at hcalls
      omega

/-- A call is made when nothing is on its way. -/
theorem Stands.call (h : Stands crc8 capacity rspCapacity late t s)
    (hwaiting : s.waiting = none) (hup : s.up = []) (hdown : s.down = [])
    {f : UInt8 × List UInt8} (hfits : Fits capacity f)
    (hknown : Known f.1 = true) (encoder : Py.PacketEncoder) :
    Stands crc8 capacity rspCapacity late
      { t with unserved := t.unserved ++ [f] }
      { s with
        host := { s.host with encoder }
        up := s.up ++ frame crc8 f.1 f.2
        sent := s.sent ++ [f]
        waiting := some s.sent.length } := by
  have hlength : (s.sent ++ [f]).length = s.sent.length + 1 := by
    rw [List.length_append, List.length_singleton]
  refine
    { kept := h.kept.call hfits encoder (some s.sent.length)
      known := ?_
      calls :=
        { waiting := ?_
          counted := ?_
          placed := ?_
          timedOut := ?_ }
      responded := { h.responded with stale := ?_ } }
  · intro g hg
    rcases List.mem_append.mp hg with hg | hg
    · exact h.known g hg
    · rw [List.mem_singleton.mp hg]
      exact hknown
  · intro k hk
    rw [← Option.some.inj hk]
    exact hlength
  · have hcounted := h.calls.counted
    rw [hwaiting] at hcounted
    simp only [Option.toList_some, Option.toList_none, List.length_singleton,
      List.length_nil, hlength] at hcounted ⊢
    omega
  · intro k hk
    rcases Nat.lt_succ_iff_lt_or_eq.mp (hlength ▸ hk) with hk | rfl
    · rcases h.calls.placed k hk with hplaced | hplaced | hplaced
      · exact .inl hplaced
      · rw [hwaiting] at hplaced
        cases hplaced
      · exact .inr (.inr hplaced)
    · exact .inr (.inl rfl)
  · intro k hk
    obtain ⟨hsent, _, hreturned⟩ := h.calls.timedOut k hk
    refine ⟨by rw [hlength]; exact Nat.lt_succ_of_lt hsent, ?_, hreturned⟩
    intro hsame
    rw [Option.some.inj hsame] at hsent
    exact Nat.lt_irrefl k hsent
  · intro _ hlate
    obtain ⟨j, hj⟩ := Option.ne_none_iff_exists'.mp hlate
    have hsent := h.sent_eq
    have hcounted := h.kept.counted
    have hcalls := h.calls.counted
    rw [h.kept.up.eq_nil_iff.mp hup, h.kept.down.eq_nil_iff.mp hdown] at hsent
    rw [hwaiting, hj] at hcalls
    simp only [Option.toList_some, Option.toList_none, List.length_singleton,
      List.length_nil] at hcalls hsent
    show s.host.recvQueue.length = 1
    omega

/-- The device changes nothing for the host. -/
theorem Stands.serve (h : Stands crc8 capacity rspCapacity late t s)
    {t' : Progress} (harrived : t'.arrived = t.arrived)
    {device : Except Fault (Cpp.Bus Cpp.Surroundings)}
    {up down written : List UInt8} {surroundings : List Cpp.Surroundings}
    (hkept : Inv crc8 capacity rspCapacity t'
      { s with device, up, down, surroundings, written }) :
    Stands crc8 capacity rspCapacity late t'
      { s with device, up, down, surroundings, written } where
  kept := hkept
  known := h.known
  calls := ⟨h.calls.waiting, h.calls.counted, h.calls.placed,
    h.calls.timedOut⟩
  responded :=
    { stale := h.responded.stale
      latest := by
        rw [harrived]
        exact h.responded.latest
      returned := by
        rw [harrived]
        exact h.responded.returned }

/-- The thread polls on only with an empty queue, or when all has arrived. -/
theorem Stands.queue_nil (h : Stands crc8 capacity rspCapacity late t s)
    (hguard : s.waiting ≠ none → s.host.recvQueue = []) (htodo : t.todo ≠ []) :
    s.host.recvQueue = [] := by
  by_cases hwaiting : s.waiting = none
  · have hsent := h.sent_eq
    have hcounted := h.kept.counted
    have hcalls := h.calls.counted
    have hlate := late.length_toList_le
    have hpos := List.length_pos_of_ne_nil htodo
    rw [hwaiting, Option.toList_none, List.length_nil] at hcalls
    apply List.eq_nil_of_length_eq_zero
    omega
  · exact hguard hwaiting

/-- What was returned stays where it is when more responses arrive. -/
private theorem Responded.append (h : Responded late t s) {n : Nat}
    {r : Nat × Py.Packet} (hr : s.returned[n]? = some r)
    (more : List (UInt8 × List UInt8)) :
    (t.arrived ++ more)[n]? = some (r.2.cmd, r.2.data) ∧
      ((r.1 = n ∧ ∀ k, late = some k → n < k) ∨
        r.1 = n + 1 ∧ ∃ k, late = some k ∧ k ≤ n) := by
  obtain ⟨harrived, hcall⟩ := h.returned n r hr
  refine ⟨?_, hcall⟩
  rw [List.getElem?_append_left (List.getElem?_eq_some_iff.mp harrived).1]
  exact harrived

/-- The receive thread polls a byte. -/
theorem Stands.deliver (h : Stands crc8 capacity rspCapacity late t s)
    (hguard : s.waiting ≠ none → s.host.recvQueue = []) {byte : UInt8}
    {bytes : List UInt8} (hdown : s.down = byte :: bytes) :
    ∃ t', Stands crc8 capacity rspCapacity late t'
      { s with
        host := (s.host.receive crc8 (some byte)).2
        alive := (s.host.receive crc8 (some byte)).1.isOk
        down := bytes } := by
  have htodo : t.todo ≠ [] := by
    intro hnil
    rw [h.kept.down.eq_nil_iff.mpr hnil] at hdown
    cases hdown
  have hempty := h.queue_nil hguard htodo
  have hcalls : Calls late { s with
      host := (s.host.receive crc8 (some byte)).2
      alive := (s.host.receive crc8 (some byte)).1.isOk
      down := bytes } :=
    ⟨h.calls.waiting, h.calls.counted, h.calls.placed, h.calls.timedOut⟩
  -- a call that found the stale response would have returned by now
  have hfresh : s.waiting ≠ none → late = none := by
    intro hwaiting
    by_contra hlate
    have hone := h.responded.stale hwaiting hlate
    rw [hempty] at hone
    cases hone
  obtain ⟨t', host, rfl, hkept, _, hcases⟩ := h.kept.deliver hdown
  refine ⟨t', hkept, h.known, hcalls, ?_⟩
  rcases hcases with ⟨ph, rfl, hqueue⟩ | ⟨r, todo, ph, _, rfl, hpacket, hqueue⟩
  · have hnil := hqueue.trans hempty
    exact
      { stale := fun hwaiting hlate => absurd (hfresh hwaiting) hlate
        latest := fun hne => absurd hnil hne
        returned := h.responded.returned }
  ·    exact
      { stale := fun hwaiting hlate => absurd (hfresh hwaiting) hlate
        latest := by
          intro _
          rw [Progress.deliver, List.getLast?_concat, hpacket]
        returned := fun n q hq => h.responded.append hq [r] }

/-- A call times out: there was no other that did. -/
theorem Stands.timeout (h : Stands crc8 capacity rspCapacity late t s) {k : Nat}
    (hwaiting : s.waiting = some k) (hqueue : s.host.recvQueue = []) :
    Stands crc8 capacity rspCapacity (some k) t { s with waiting := none } := by
  have hlate : late = none := by
    by_contra hlate
    have hone := h.responded.stale
      (by rw [hwaiting]; exact Option.some_ne_none k) hlate
    rw [hqueue] at hone
    cases hone
  subst hlate
  have hsent := h.calls.waiting k hwaiting
  have hcounted := h.calls.counted
  rw [hwaiting] at hcounted
  refine
    { kept := { h.kept with }
      known := h.known
      calls :=
        { waiting := ?_
          counted := hcounted
          placed := ?_
          timedOut := ?_ }
      responded :=
        { h.responded with
          stale := fun hne => absurd rfl hne
          returned := ?_ } }
  · intro j hj
    cases hj
  · intro j hj
    rcases h.calls.placed j hj with hplaced | hplaced | hplaced
    · exact .inl hplaced
    · rw [hwaiting] at hplaced
      exact .inr (.inr hplaced)
    · cases hplaced
  · intro j hj
    cases hj
    refine ⟨?_, fun hj => (by cases hj), ?_⟩
    · show k < s.sent.length
      omega
    · intro r hr
      obtain ⟨n, hn⟩ := List.mem_iff_getElem?.mp hr
      obtain ⟨hcall, _⟩ | ⟨_, j, hj, _⟩ := (h.responded.returned n r hn).2
      · have hlt : n < s.returned.length :=
          (List.getElem?_eq_some_iff.mp hn).1
        simp only [Option.toList_some, Option.toList_none,
          List.length_singleton, List.length_nil] at hcounted
        omega
      · cases hj
  · intro n r hr
    obtain ⟨harrived, hcall⟩ := h.responded.returned n r hr
    have hlt : n < s.returned.length := (List.getElem?_eq_some_iff.mp hr).1
    simp only [Option.toList_some, Option.toList_none, List.length_singleton,
      List.length_nil] at hcounted
    refine ⟨harrived, .inl ⟨?_, ?_⟩⟩
    · rcases hcall with ⟨hcall, _⟩ | ⟨_, j, hj, _⟩
      · exact hcall
      · cases hj
    · intro j hj
      cases hj
      omega

/-- A call returns the packet of the queue, which has the last response that
has arrived. -/
theorem Stands.finish (h : Stands crc8 capacity rspCapacity late t s) {k : Nat}
    (hwaiting : s.waiting = some k) {pkt : Py.Ref} {queue : List Py.Ref}
    (hqueue : s.host.recvQueue = pkt :: queue) :
    Stands crc8 capacity rspCapacity late t
      { s with
        host := { s.host with recvQueue := queue }
        waiting := none
        returned := s.returned ++ [(k, s.host.store pkt)] } := by
  have hne : s.host.recvQueue ≠ [] := by
    rw [hqueue]
    exact List.cons_ne_nil pkt queue
  have hone := h.queue_length (by rw [hwaiting]; exact Option.some_ne_none k)
    hne
  rw [hqueue, List.length_cons] at hone
  have hnil : queue = [] := List.eq_nil_of_length_eq_zero (by omega)
  subst hnil
  have hpkt : s.host.store pkt = s.host.packet := by
    rw [h.kept.queued pkt (by rw [hqueue]; exact List.mem_cons_self)]
    rfl
  have hsent := h.calls.waiting k hwaiting
  have hcalls := h.calls.counted
  have hcounted := h.kept.counted
  rw [hqueue, List.length_singleton] at hcounted
  rw [hwaiting, Option.toList_some, List.length_singleton] at hcalls
  have hlast : t.arrived[s.returned.length]? =
      some (s.host.packet.cmd, s.host.packet.data) := by
    rw [← h.responded.latest hne, List.getLast?_eq_getElem?, ← hcounted]
    rfl
  refine
    { kept := h.kept.finish hqueue k
      known := h.known
      calls :=
        { waiting := ?_
          counted := ?_
          placed := ?_
          timedOut := ?_ }
      responded :=
        { stale := fun hwaits => absurd rfl hwaits
          latest := fun hwaits => absurd rfl hwaits
          returned := ?_ } }
  · intro j hj
    cases hj
  · simp only [List.length_append, List.length_singleton, Option.toList_none,
      List.length_nil]
    omega
  · intro j hj
    rcases h.calls.placed j hj with ⟨r, hr, hcall⟩ | hplaced | hplaced
    · exact .inl ⟨r, List.mem_append_left _ hr, hcall⟩
    · rw [hwaiting] at hplaced
      exact .inl ⟨_, List.mem_append_right _ List.mem_cons_self,
        Option.some.inj hplaced⟩
    · exact .inr (.inr hplaced)
  · intro j hj
    obtain ⟨hlt, hwaits, hreturned⟩ := h.calls.timedOut j hj
    refine ⟨hlt, fun hj => (by cases hj), ?_⟩
    intro r hr
    rcases List.mem_append.mp hr with hr | hr
    · exact hreturned r hr
    · rw [List.mem_singleton.mp hr]
      rintro rfl
      exact hwaits hwaiting
  · intro n r hr
    rcases Nat.lt_or_ge n s.returned.length with hn | hn
    · rw [List.getElem?_append_left hn] at hr
      exact h.responded.returned n r hr
    · have hlt := (List.getElem?_eq_some_iff.mp hr).1
      rw [List.length_append, List.length_singleton] at hlt
      obtain rfl : n = s.returned.length := by omega
      rw [List.getElem?_concat_length] at hr
      cases hr
      rw [hpkt]
      refine ⟨hlast, ?_⟩
      cases hlate : late with
      | none =>
          rw [hlate, Option.toList_none, List.length_nil] at hcalls
          exact .inl ⟨by omega, fun j hj => by cases hj⟩
      | some j =>
          obtain ⟨hlt, hwaits, _⟩ := h.calls.timedOut j hlate
          rw [hwaiting] at hwaits
          have hother : k ≠ j := fun hkj => hwaits (by rw [hkj])
          rw [hlate, Option.toList_some, List.length_singleton] at hcalls
          exact .inr ⟨by omega, j, rfl, by omega⟩

end Steps

/-- Everything is somewhere, and at most one call has timed out. -/
def Standing (crc8 : UInt8 → UInt8 → UInt8) (capacity rspCapacity : Nat)
    (s : State) : Prop :=
  ∃ late t, Stands crc8 capacity rspCapacity late t s

/-- **Every prompt step** keeps the invariant. -/
theorem standing_step (crc8 : UInt8 → UInt8 → UInt8)
    {capacity rspCapacity : Nat} (hroom : max 20 (capacity - 1) ≤ rspCapacity)
    (s : State) (a : Action) (s' : State)
    (h : Standing crc8 capacity rspCapacity s) (hguard : Prompt capacity s a)
    (hstep : step crc8 s a = some s') :
    Standing crc8 capacity rspCapacity s' := by
  obtain ⟨late, t, hs⟩ := h
  cases a with
  | call cmdPkt =>
      obtain ⟨hfits, hknown, hup, hdown⟩ := hguard
      obtain ⟨hwaiting, encoder, rfl⟩ := step_call hstep
      exact ⟨late, _, hs.call hwaiting hup hdown hfits hknown encoder⟩
  | serve env uninit =>
      obtain ⟨device, byte, bytes, hdevice, hup, hserves⟩ := step_serve hstep
      obtain ⟨written, device', t', hserve, hkept, hcases⟩ :=
        hs.kept.serve hroom hdevice hup env uninit
      have harrived : t'.arrived = t.arrived := by
        rcases hcases with ⟨ph, rfl, _⟩ | ⟨f, unserved, ph, _, rfl, _⟩
        · rfl
        · rfl
      rcases hserves with ⟨written', device'', hserve', rfl⟩ | ⟨f, hfails⟩
      · cases hserve.symm.trans hserve'
        exact ⟨late, t', hs.serve harrived hkept⟩
      · cases hserve.symm.trans hfails
  | deliver =>
      obtain ⟨byte, bytes, hdown, rfl⟩ := step_deliver hstep
      obtain ⟨t', hs'⟩ := hs.deliver hguard hdown
      exact ⟨late, t', hs'⟩
  | finish =>
      obtain ⟨k, hwaiting, ⟨hqueue, rfl⟩ | ⟨pkt, queue, hqueue, rfl⟩⟩ :=
        step_finish hstep
      · exact ⟨some k, t, hs.timeout hwaiting hqueue⟩
      · exact ⟨late, t, hs.finish hwaiting hqueue⟩

/-! ## The responses that calls return -/

section Calls

variable {crc8 : UInt8 → UInt8 → UInt8} {capacity rspCapacity : Nat}
  {late : Option Nat} {t : Progress} {s : State}

theorem Calls.timedOut_iff (h : Calls late s) (k : Nat) :
    TimedOut s k ↔ late = some k := by
  constructor
  · rintro ⟨hsent, hwaiting, hreturned⟩
    rcases h.placed k hsent with ⟨r, hr, hcall⟩ | hplaced | hplaced
    · exact absurd hcall (hreturned r hr)
    · exact absurd hplaced hwaiting
    · exact hplaced
  · exact h.timedOut k

/-- The command that a packet is the response to. -/
theorem Stands.command_eq (h : Stands crc8 capacity rspCapacity late t s)
    {n : Nat} {r : Nat × Py.Packet} (hr : s.returned[n]? = some r) :
    answeredTo s r.1 = n := by
  unfold answeredTo
  rcases (h.responded.returned n r hr).2 with ⟨hcall, hlate⟩ |
    ⟨hcall, k, hk, hle⟩
  · rw [if_neg]
    · exact hcall
    · rintro ⟨k, hlt, hk⟩
      have hn := hlate k ((h.calls.timedOut_iff k).mp hk)
      omega
  · rw [if_pos ⟨k, by omega, (h.calls.timedOut_iff k).mpr hk⟩, hcall]
    rfl

/-- The packet that is returned as number `n` is the response to command
`n`. -/
theorem Stands.response_eq (h : Stands crc8 capacity rspCapacity late t s)
    {n : Nat} {r : Nat × Py.Packet} (hr : s.returned[n]? = some r) :
    ∃ f env, s.sent[n]? = some f ∧ (s.served crc8)[n]? = some (f, env) ∧
      response env f = some (r.2.cmd, r.2.data) := by
  have harrived := (h.responded.append hr t.todo).1
  rw [← h.kept.responses] at harrived
  have hknown : ∀ x ∈ t.served.dropLast, Known x.1.1 := by
    intro x hx
    apply h.known x.1
    rw [h.kept.sent]
    exact List.mem_append_left _
      (List.mem_map_of_mem ((List.dropLast_sublist _).subset hx))
  obtain ⟨f, env, hserved, hresponse⟩ :=
    getElem?_of_responses hknown harrived
  refine ⟨f, env, getElem?_sent h.kept hserved, ?_, hresponse⟩
  rw [h.kept.served_eq]
  exact hserved

end Calls

/-- **Late once, late for ever.**  In every run in which calls send commands
that fit and that the device knows, are made when nothing is on its way, and
return as soon as they find a packet: at most one call times out; a call that
returns a packet returns what the device answered to its own command if no
call before it has timed out, and what it answered to the command before its
own if one has. -/
theorem stale_for_ever (crc8 : UInt8 → UInt8 → UInt8)
    (cmdPacket rspPacket : Cpp.Packet) (escapeChar : UInt8)
    (hroom : max 20 (cmdPacket.maxDataLen - 1) ≤ rspPacket.maxDataLen)
    (as : List Action) (s : State)
    (hrun : Run (step crc8) (Prompt cmdPacket.maxDataLen)
      (start cmdPacket rspPacket escapeChar) as s) :
    (∀ j k, TimedOut s j → TimedOut s k → j = k) ∧
      ∀ r ∈ s.returned, ∃ f env, s.sent[answeredTo s r.1]? = some f ∧
        (s.served crc8)[answeredTo s r.1]? = some (f, env) ∧
        response env f = some (r.2.cmd, r.2.data) := by
  obtain ⟨late, t, hs⟩ := hrun.invariant (Standing crc8 _ _)
    (standing_step crc8 hroom)
    ⟨none, _, stands_start crc8 cmdPacket rspPacket escapeChar⟩
  constructor
  · intro j k hj hk
    rw [hs.calls.timedOut_iff] at hj hk
    exact Option.some.inj (hj.symm.trans hk)
  · intro r hr
    obtain ⟨n, hn⟩ := List.mem_iff_getElem?.mp hr
    rw [hs.command_eq hn]
    exact hs.response_eq hn

/-- A `PING` whose response is returned, a `DEBUG` that times out, a `PING`
that gets the response to the `DEBUG`, and a `HEAP_INFO` that gets the
response to that `PING`. -/
def staleResponses : List Action :=
  [.call (.new PING [END])] ++ List.replicate 6 (.serve bare 0) ++
    List.replicate 6 .deliver ++ [.finish, .call (.new DEBUG []), .finish] ++
    List.replicate 4 (.serve bare 0) ++ List.replicate 8 .deliver ++
    [.call (.new PING [7]), .finish] ++ List.replicate 5 (.serve bare 0) ++
    List.replicate 5 .deliver ++ [.call (.new HEAP_INFO []), .finish]

theorem stale_for_ever_staleResponses :
    ∃ s, perform (step crc8Poly07) smallStart staleResponses = some s ∧
      s.returned.map (fun r => (r.1, r.2.cmd, r.2.data)) =
        [(0, PING, [END]), (2, DEBUG, [0, 0, 0, 0]), (3, PING, [7])] ∧
      (∀ j k, TimedOut s j → TimedOut s k → j = k) ∧
        ∀ r ∈ s.returned, ∃ f env, s.sent[answeredTo s r.1]? = some f ∧
          (s.served crc8Poly07)[answeredTo s r.1]? = some (f, env) ∧
          response env f = some (r.2.cmd, r.2.data) := by
  have hreturned : (perform (guarded (step crc8Poly07) (Prompt 16)) smallStart
      staleResponses).map (fun s =>
        s.returned.map fun r => (r.1, r.2.cmd, r.2.data)) =
      some [(0, PING, [END]), (2, DEBUG, [0, 0, 0, 0]), (3, PING, [7])] := by
    decide +kernel
  obtain ⟨s, hs, hs'⟩ := Option.map_eq_some_iff.mp hreturned
  have hrun := Run.of_perform_guarded hs
  exact ⟨s, hrun.perform_eq, hs', stale_for_ever crc8Poly07
    (.new (List.replicate 16 0) 0) (.new (List.replicate 20 0) 0) 0 (by decide)
    staleResponses s hrun⟩

end DuinoBus.StaleResponses
