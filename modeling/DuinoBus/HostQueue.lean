import DuinoBus.HostArrival
import DuinoBus.Verified.Guarded

/-!
# Packets on their way through the queue

Frames arrive byte by byte, the receive thread queues a reference to each
received packet, and a consumer takes them out, uses them and drops them.
All references are to the one packet that the decoder fills.

`delivered_of_guarded` says when that is harmless: as long as no frame begins
to be stored while a packet is queued or in use, the packets taken are the
frames received, in order, each unchanged until it is dropped.
-/

namespace DuinoBus.HostQueue

open DuinoBus.Wire
open DuinoBus.Verified
open DuinoBus.Py
open DuinoBus.HostArrival

/-- The bus with its consumer.  `rest` is what has still to arrive, frame by
frame; `held` are the packets in use, each with its place in the order of
takes. -/
structure State where
  bus : Bus
  alive : Bool
  rest : List (List UInt8)
  taken : Nat
  held : List (Nat × Ref)

inductive Action where
  /-- The receive thread polls the next byte. -/
  | arrive
  /-- The consumer takes a packet from the queue. -/
  | take
  /-- The consumer drops one of the packets it holds. -/
  | drop (i : Nat)
  deriving DecidableEq, Repr

/-- One step.  An exception ends the receive thread. -/
def step (crc8 : UInt8 → UInt8 → UInt8) (s : State) :
    Action → Option State
  | .arrive =>
      match s.alive, s.rest with
      | true, (byte :: bytes) :: frames =>
          let (result, bus) := s.bus.receive crc8 (some byte)
          some { s with
            bus
            alive := result.isOk
            rest := restAfter bytes frames }
      | _, _ => none
  | .take =>
      match s.bus.getResponse with
      | ((_, some pkt), bus) =>
          some { s with
            bus
            taken := s.taken + 1
            held := s.held ++ [(s.taken, pkt)] }
      | ((_, none), _) => none
  | .drop i => some { s with held := s.held.eraseIdx i }

/-- A new bus, with frames on the way to it. -/
def start (crc8 : UInt8 → UInt8 → UInt8) (fs : List (UInt8 × List UInt8)) :
    State :=
  ⟨.new, true, fs.map fun f => frame crc8 f.1 f.2, 0, []⟩

/-- Every packet in use is the frame received in its place, the packets taken
and queued are as many as the frames received, and the receive thread goes
on. -/
structure Delivered (fs : List (UInt8 × List UInt8)) (s : State) : Prop where
  alive : s.alive = true
  intact : ∀ h ∈ s.held, ∃ f, fs[h.1]? = some f ∧
    (s.bus.store h.2).cmd = f.1 ∧ (s.bus.store h.2).data = f.2
  counted : s.taken + s.bus.recvQueue.length + s.rest.length = fs.length

/-- The next byte to arrive. -/
def State.next (s : State) : Option UInt8 := s.rest.head?.bind List.head?

/-- No frame begins to be stored while a packet is queued or in use. -/
def Guard (s : State) : Action → Prop
  | .arrive => ∀ byte ∈ s.next, s.bus.decoder.StartsPacket byte →
      s.bus.recvQueue = [] ∧ s.held = []
  | _ => True

instance (s : State) : DecidablePred (Guard s)
  | .arrive => inferInstanceAs (Decidable (∀ byte ∈ s.next, _))
  | .take => .isTrue trivial
  | .drop _ => .isTrue trivial

/-! ## The invariant -/

/-- The packet holds the last frame received, and no body is being stored. -/
def Kept (done : List (UInt8 × List UInt8)) (bus : Bus) (ph : Phase UInt8) :
    Prop :=
  ph.Between ∧ done.getLast? = some (bus.packet.cmd, bus.packet.data)

/-- `done` has been received and `todo` has still to arrive.  At most one
packet is queued or in use; while there is one, it is the last of `done`. -/
structure Inv (crc8 : UInt8 → UInt8 → UInt8)
    (done todo : List (UInt8 × List UInt8)) (ph : Phase UInt8) (s : State) :
    Prop where
  alive : s.alive = true
  arriving : Arriving crc8 todo s.rest ph
  tracks : s.bus.Tracks ph
  counted : s.taken + s.bus.recvQueue.length = done.length
  queued : ∀ pkt ∈ s.bus.recvQueue, pkt = s.bus.decoder.packet
  held : ∀ h ∈ s.held, h = (done.length - 1, s.bus.decoder.packet)
  single : s.bus.recvQueue = [] ∨
    s.bus.recvQueue.length = 1 ∧ s.held = []
  kept : s.bus.recvQueue ≠ [] ∨ s.held ≠ [] → Kept done s.bus ph

section Steps

variable {crc8 : UInt8 → UInt8 → UInt8}
  {done todo : List (UInt8 × List UInt8)} {ph : Phase UInt8} {s : State}

theorem inv_start (fs : List (UInt8 × List UInt8)) :
    Inv crc8 [] fs .idle (start crc8 fs) where
  alive := rfl
  arriving := arriving_of_ready (.inl rfl) fs
  tracks := Bus.tracks_new
  counted := rfl
  queued := by
    intro pkt hpkt
    cases hpkt
  held := by
    intro h hh
    cases hh
  single := .inl rfl
  kept := by
    rintro (h | h)
    · exact absurd rfl h
    · exact absurd rfl h

/-- While a packet is queued or in use, no body is being stored. -/
private theorem Inv.nothing_out (h : Inv crc8 done todo ph s)
    (hph : ¬ ph.Between) : s.bus.recvQueue = [] ∧ s.held = [] := by
  constructor
  · by_contra hqueue
    exact hph (h.kept (.inl hqueue)).1
  · by_contra hheld
    exact hph (h.kept (.inr hheld)).1

/-- A byte that completes no frame. -/
private theorem Inv.arrive_pending (h : Inv crc8 done todo ph s) {byte : UInt8}
    {bytes : List UInt8} {frames : List (List UInt8)}
    (hrest : s.rest = (byte :: bytes) :: frames) (hguard : Guard s .arrive)
    {bus : Bus} {ph' : Phase UInt8}
    (harriving : Arriving crc8 todo (restAfter bytes frames) ph')
    (htracks : bus.Tracks ph') (hqueue : bus.recvQueue = s.bus.recvQueue)
    (howner : s.bus.SameOwner bus)
    (hpacket : ph.Between → ¬ s.bus.decoder.StartsPacket byte →
      bus.packet = s.bus.packet ∧ ph'.Between) :
    Inv crc8 done todo ph'
      { s with bus, alive := true, rest := restAfter bytes frames } where
  alive := rfl
  arriving := harriving
  tracks := htracks
  counted := by
    simp only [hqueue]
    exact h.counted
  queued := by
    simp only [hqueue, howner.1]
    exact h.queued
  held := by
    simp only [howner.1]
    exact h.held
  single := by
    simp only [hqueue]
    exact h.single
  kept := by
    simp only [hqueue]
    intro hsome
    have hkept := h.kept hsome
    have hnot : ¬ s.bus.decoder.StartsPacket byte := by
      intro hstarts
      have hnext : byte ∈ s.next := by
        rw [State.next, hrest]
        rfl
      have hnone := hguard byte hnext hstarts
      rcases hsome with hsome | hsome
      · exact hsome hnone.1
      · exact hsome hnone.2
    have hsame := hpacket hkept.1 hnot
    refine ⟨hsame.2, ?_⟩
    rw [hsame.1]
    exact hkept.2

/-- The last byte of a frame. -/
private theorem Inv.arrive_accepted (h : Inv crc8 done todo ph s)
    {bus : Bus} {f : UInt8 × List UInt8} {todo' : List (UInt8 × List UInt8)}
    {rest : List (List UInt8)} (harriving : Arriving crc8 todo' rest .idle)
    (htracks : bus.Tracks .idle) (hqueue : bus.recvQueue = s.bus.recvQueue)
    (hf : (bus.packet.cmd, bus.packet.data) = f) (hbody : ¬ ph.Between) :
    Inv crc8 (done ++ [f]) todo' .idle
      { s with
        bus := { bus with recvQueue := bus.recvQueue ++ [bus.decoder.packet] }
        alive := true
        rest } := by
  have hout := h.nothing_out hbody
  have hcounted := h.counted
  rw [hout.1] at hcounted hqueue
  exact
    { alive := rfl
      arriving := harriving
      tracks := htracks
      counted := by
        rw [hqueue, List.length_append, List.length_append, ← hcounted]
        rfl
      queued := by
        simp only [hqueue, List.nil_append, List.mem_singleton]
        intro pkt hpkt
        exact hpkt
      held := by
        simp only [hout.2]
        intro p hp
        cases hp
      single := by
        simp only [hqueue]
        exact .inr ⟨rfl, hout.2⟩
      kept := by
        intro _
        refine ⟨.inl rfl, ?_⟩
        rw [List.getLast?_concat, ← hf]
        rfl }

/-- The consumer takes a packet. -/
private theorem Inv.take (h : Inv crc8 done todo ph s) {pkt : Ref}
    {queue : List Ref} (hqueue : s.bus.recvQueue = pkt :: queue) :
    Inv crc8 done todo ph
      { s with
        bus := { s.bus with recvQueue := queue }
        taken := s.taken + 1
        held := s.held ++ [(s.taken, pkt)] } := by
  have hkept := h.kept (.inl (by rw [hqueue]; simp))
  have hpkt := h.queued pkt (by rw [hqueue]; simp)
  have hcounted := h.counted
  rcases h.single with hnone | ⟨hone, hheld⟩
  · rw [hqueue] at hnone
    cases hnone
  · rw [hqueue, List.length_cons] at hone
    have hnil : queue = [] := List.eq_nil_of_length_eq_zero (by omega)
    subst hnil
    rw [hqueue, List.length_singleton] at hcounted
    exact
      { alive := h.alive
        arriving := h.arriving
        tracks := h.tracks
        counted := by
          simp only [List.length_nil]
          omega
        queued := by
          intro pkt hpkt
          cases hpkt
        held := by
          simp only [hheld, List.nil_append, List.mem_singleton]
          rintro _ rfl
          rw [hpkt, show s.taken = done.length - 1 by omega]
        single := .inl rfl
        kept := fun _ => hkept }

/-- The consumer drops a packet. -/
private theorem Inv.drop (h : Inv crc8 done todo ph s) (i : Nat) :
    Inv crc8 done todo ph { s with held := s.held.eraseIdx i } where
  alive := h.alive
  arriving := h.arriving
  tracks := h.tracks
  counted := h.counted
  queued := h.queued
  held := by
    intro p hp
    exact h.held p (List.mem_of_mem_eraseIdx hp)
  single := by
    rcases h.single with hnone | ⟨hone, hheld⟩
    · exact .inl hnone
    · refine .inr ⟨hone, ?_⟩
      simp only [hheld, List.eraseIdx_nil]
  kept := by
    rintro (hqueue | hheld)
    · exact h.kept (.inl hqueue)
    · refine h.kept (.inr ?_)
      rintro hnil
      rw [hnil, List.eraseIdx_nil] at hheld
      exact hheld rfl

/-- A poll of the receive thread. -/
private theorem Inv.arrive (h : Inv crc8 done todo ph s) {byte : UInt8}
    {bytes : List UInt8} {frames : List (List UInt8)}
    (hrest : s.rest = (byte :: bytes) :: frames) (hguard : Guard s .arrive)
    (hfits : ∀ f ∈ todo, f.1 ≠ Bus.LOG ∧ Fits f) :
    ∃ processed bus done' todo' ph',
      s.bus.receive crc8 (some byte) = (.ok processed, bus) ∧
      done' ++ todo' = done ++ todo ∧
      Inv crc8 done' todo' ph'
        { s with bus, alive := true, rest := restAfter bytes frames } := by
  have harriving := h.arriving
  rw [hrest] at harriving
  rcases harriving.receive (fun f hf => (hfits f hf).2) h.tracks with
    ⟨bus, ph', hreceive, hnext, _, htracks, hqueue, howner, hpacket⟩ |
    ⟨bus, f, todo', hreceive, rfl, hnext, htracks, hqueue, _, hf, hbody⟩
  · exact ⟨none, bus, done, todo, ph', hreceive, rfl,
      h.arrive_pending hrest hguard hnext htracks hqueue howner hpacket⟩
  · have hcommand : bus.packet.cmd ≠ Bus.LOG := by
      have hlog := (hfits f List.mem_cons_self).1
      rw [← hf] at hlog
      exact hlog
    rw [Bus.processDecoded_queued hcommand] at hreceive
    exact ⟨some .queued, _, done ++ [f], todo', .idle, hreceive,
      List.append_cons done f todo' ▸ rfl,
      h.arrive_accepted hnext htracks hqueue hf hbody⟩

end Steps

/-- The frames of a bus are split into those received and those to come. -/
def Splits (crc8 : UInt8 → UInt8 → UInt8) (fs : List (UInt8 × List UInt8))
    (s : State) : Prop :=
  ∃ done todo ph, done ++ todo = fs ∧ Inv crc8 done todo ph s

/-- **Every guarded step** keeps the invariant. -/
theorem splits_step (crc8 : UInt8 → UInt8 → UInt8)
    {fs : List (UInt8 × List UInt8)}
    (hfits : ∀ f ∈ fs, f.1 ≠ Bus.LOG ∧ Fits f)
    (s : State) (a : Action) (s' : State) (h : Splits crc8 fs s)
    (hguard : Guard s a) (hstep : step crc8 s a = some s') :
    Splits crc8 fs s' := by
  obtain ⟨done, todo, ph, hfs, hinv⟩ := h
  cases a with
  | arrive =>
      simp only [step] at hstep
      split at hstep
      · next byte bytes frames _ hrest =>
          have htodo : ∀ f ∈ todo, f.1 ≠ Bus.LOG ∧ Fits f := by
            intro f hf
            apply hfits f
            rw [← hfs]
            exact List.mem_append_right done hf
          obtain ⟨processed, bus, done', todo', ph', hreceive, hsplit, hinv'⟩ :=
            hinv.arrive hrest hguard htodo
          rw [hreceive] at hstep
          cases hstep
          exact ⟨done', todo', ph', hsplit.trans hfs, hinv'⟩
      · cases hstep
  | take =>
      simp only [step] at hstep
      cases hqueue : s.bus.recvQueue with
      | nil =>
          simp only [Bus.getResponse, hqueue] at hstep
          cases hstep
      | cons pkt queue =>
          simp only [Bus.getResponse, hqueue] at hstep
          cases hstep
          exact ⟨done, todo, ph, hfs, hinv.take hqueue⟩
  | drop i =>
      cases hstep
      exact ⟨done, todo, ph, hfs, hinv.drop i⟩

/-- The invariant says that the frames are delivered. -/
theorem delivered_of_splits {crc8 : UInt8 → UInt8 → UInt8}
    {fs : List (UInt8 × List UInt8)} {s : State} (h : Splits crc8 fs s) :
    Delivered fs s := by
  obtain ⟨done, todo, ph, hfs, hinv⟩ := h
  refine ⟨hinv.alive, ?_, ?_⟩
  · intro p hp
    have hne : s.held ≠ [] := List.ne_nil_of_mem hp
    have hlast := (hinv.kept (.inr hne)).2
    rw [hinv.held p hp]
    refine ⟨(s.bus.packet.cmd, s.bus.packet.data), ?_, rfl, rfl⟩
    rw [List.getLast?_eq_getElem?] at hlast
    have hlt := (List.getElem?_eq_some_iff.mp hlast).1
    rw [← hfs, List.getElem?_append_left hlt]
    exact hlast
  · have hcounted := hinv.counted
    have hrest := hinv.arriving.length_eq
    rw [← hfs, List.length_append]
    omega

/-- **When packets survive the queue.**  In every run in which no frame
begins to be stored while a packet is queued or in use, the packets taken
are the frames received, in order, and none is lost, duplicated or altered
while it is used. -/
theorem delivered_of_guarded (crc8 : UInt8 → UInt8 → UInt8)
    (fs : List (UInt8 × List UInt8))
    (hfits : ∀ f ∈ fs, f.1 ≠ Bus.LOG ∧ Fits f)
    (as : List Action) (s : State)
    (hrun : Run (step crc8) Guard (start crc8 fs) as s) : Delivered fs s :=
  delivered_of_splits (hrun.invariant (Splits crc8 fs)
    (splits_step crc8 hfits) ⟨[], fs, .idle, rfl, inv_start fs⟩)

/-- Two frames, the first taken and dropped before the second arrives. -/
def twoFrames : List Action :=
  List.replicate 5 .arrive ++ [.take, .drop 0] ++
    List.replicate 7 .arrive ++ [.take]

theorem delivered_of_guarded_twoFrames :
    ∃ s, perform (step crc8Poly07)
        (start crc8Poly07 [(0x10, [1]), (0x11, [END, 2])]) twoFrames =
          some s ∧
      s.held = [(1, 0)] ∧
      Delivered [(0x10, [1]), (0x11, [END, 2])] s := by
  have hheld : (perform (guarded (step crc8Poly07) Guard)
      (start crc8Poly07 [(0x10, [1]), (0x11, [END, 2])]) twoFrames).map
        State.held = some [(1, 0)] := by
    decide +kernel
  obtain ⟨s, hs, hs'⟩ := Option.map_eq_some_iff.mp hheld
  have hrun := Run.of_perform_guarded hs
  exact ⟨s, hrun.perform_eq, hs',
    delivered_of_guarded crc8Poly07 _ (by decide) _ s hrun⟩

/-- Two frames arrive before the first is taken: what is taken first is the
second. -/
theorem delivered_fails :
    ¬ ∀ (fs : List (UInt8 × List UInt8)) (as : List Action) (s : State),
      (∀ f ∈ fs, f.1 ≠ Bus.LOG ∧ Fits f) →
      perform (step crc8Poly07) (start crc8Poly07 fs) as = some s →
      Delivered fs s := by
  intro h
  have htaken : (perform (step crc8Poly07)
      (start crc8Poly07 [(0x10, [1]), (0x11, [2])])
      (List.replicate 10 .arrive ++ [.take])).map
        (fun s => s.held.map fun p => (p.1, (s.bus.store p.2).cmd)) =
      some [(0, 0x11)] := by
    decide +kernel
  obtain ⟨s, hs, htaken⟩ := Option.map_eq_some_iff.mp htaken
  obtain ⟨p, hp, hcmd⟩ := List.mem_map.mp
    (show ((0 : Nat), (0x11 : UInt8)) ∈ s.held.map _ from
      htaken ▸ List.mem_singleton_self _)
  rw [Prod.mk.injEq] at hcmd
  obtain ⟨f, hf, hcmd', _⟩ := (h _ _ s (by decide) hs).intact p hp
  rw [hcmd.1] at hf
  cases hf
  rw [hcmd.2] at hcmd'
  exact absurd hcmd' (by decide)

end DuinoBus.HostQueue
