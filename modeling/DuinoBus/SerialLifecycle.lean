import DuinoBus.Py.SerialBus
import DuinoBus.Verified.Guarded

/-!
# Opening and closing the serial bus

Nothing protects `self.serial` from being set to `None` while the receive
thread is about to use it, so the thread may end in an exception.  But it
ends: `close_stops` says that `close` always comes to an end, and that nothing
is read any more once it has set `self.serial` to `None`.  A byte that the
thread has read before is still decoded then, and may complete a packet.

`one_receiver` says that a bus that is opened and closed again and again, and
not opened while its port is open, has one receive thread at a time, and one
decoder for all that they receive: a frame that is cut by a `close` goes on
with the bytes of the next port.
-/

namespace DuinoBus.SerialLifecycle

open DuinoBus.Wire
open DuinoBus.Verified
open DuinoBus.Py (Bus Packet)
open DuinoBus.Py.SerialBus

/-! ## The invariant -/

/-- The byte that a thread has read, but not decoded yet. -/
def Pc.held : Pc → List UInt8
  | .decode byte => [byte]
  | _ => []

/-- What all threads have read, but not decoded yet. -/
def held (s : State) : List UInt8 := s.threads.flatMap fun t => Pc.held t.pc

/-- The decoder has decoded what was read, up to what is held. -/
def Decoded (crc8 : UInt8 → UInt8 → UInt8) (s : State) : Prop :=
  ∃ decoded, s.received = decoded ++ held s ∧
    s.bus.Tracks ((hostReceiver crc8 Packet.MAX_DATA_LEN).machine.run .idle
      decoded)

/-- What is so where the caller is. -/
def AtCaller (s : State) : Caller → Prop
  | .idle => (∃ port, s.serial = some port ∧ s.isOpen port = true) ∨
      ∀ t ∈ s.threads, t.pc.Ended
  | .closing => ∃ port, s.serial = some port ∧ s.isOpen port = true
  | .forgetting => ∀ port, s.isOpen port = false
  | .joining => s.serial = none

structure Inv (crc8 : UInt8 → UInt8 → UInt8) (s : State) : Prop where
  /-- Only the port of the bus is open. -/
  current : ∀ port, s.isOpen port = true → s.serial = some port
  /-- Only the newest thread goes on. -/
  older : ∀ t ∈ s.threads.tail, t.pc.Ended
  caller : AtCaller s s.caller
  decoded : Decoded crc8 s

theorem inv_start (crc8 : UInt8 → UInt8 → UInt8) : Inv crc8 start where
  current := fun port hopen => by cases hopen
  older := fun t ht => by cases ht
  caller := .inr fun t ht => by cases ht
  decoded := ⟨[], rfl, Bus.tracks_new⟩

section Steps

variable {crc8 : UInt8 → UInt8 → UInt8} {s s' : State}

/-- Threads that have ended hold nothing. -/
theorem held_of_ended {pc : Pc} (h : pc.Ended) : Pc.held pc = [] := by
  cases pc with
  | decode byte => cases h
  | _ => rfl

/-- Only the newest thread holds anything. -/
theorem held_eq {t : Thread} {ts : List Thread} (hthreads : s.threads = t :: ts)
    (holder : ∀ t ∈ s.threads.tail, t.pc.Ended) : held s = Pc.held t.pc := by
  rw [hthreads] at holder
  have hnone : ts.flatMap (fun t => Pc.held t.pc) = [] :=
    List.flatMap_eq_nil_iff.mpr fun u hu => held_of_ended (holder u hu)
  rw [held, hthreads, List.flatMap_cons, hnone, List.append_nil]

/-- What a step reads is what the thread holds after it. -/
theorem held_next (s : State) (t : Thread) (a : Answer) :
    Pc.held (next crc8 s t a) = (reads s t a).toList := by
  obtain ⟨fd, pc⟩ := t
  cases pc with
  | check =>
      simp only [next, reads]
      split <;> rfl
  | poll =>
      simp only [next, reads]
      split
      · rfl
      · split
        · rfl
        · split <;> rfl
  | dataTest =>
      simp only [next, reads]
      split <;> rfl
  | dataLoad => rfl
  | dataPoll serial =>
      cases serial with
      | none => rfl
      | some port =>
          simp only [next, reads]
          split
          · rfl
          · split <;> rfl
  | readTest =>
      simp only [next, reads]
      split <;> rfl
  | readLoad => rfl
  | read serial =>
      cases serial with
      | none => rfl
      | some port =>
          simp only [next, reads]
          split
          · rfl
          · cases a.byte with
            | none => rfl
            | some byte => rfl
  | decode byte =>
      simp only [next, reads]
      split
      · split <;> rfl
      · rfl
  | process =>
      simp only [next, reads]
      split <;> rfl
  | returned => rfl
  | raised => rfl

/-- A step decodes what the thread held before it. -/
theorem tracks_busAfter {t : Thread} {ph : Phase UInt8} (h : s.bus.Tracks ph) :
    (busAfter crc8 s t).Tracks ((hostReceiver crc8
      Packet.MAX_DATA_LEN).machine.run ph (Pc.held t.pc)) := by
  obtain ⟨fd, pc⟩ := t
  cases pc with
  | decode byte =>
      obtain ⟨err, d, _, hprocess, _, htracks⟩ := Bus.processByte_eq crc8 h byte
      simp only [busAfter, hprocess]
      rw [Bus.Tracks, Bus.openDecoder_closeDecoder]
      exact htracks
  | process =>
      obtain ⟨result, queue, hdecoded, _⟩ := s.bus.processDecoded_queue
      simp only [busAfter, hdecoded]
      exact h
  | _ => exact h

theorem Inv.openPort (h : Inv crc8 s) {fd : Nat} (hguard : Guard s (.openPort fd))
    (hstep : step crc8 s (.openPort fd) = some s') : Inv crc8 s' := by
  rw [step] at hstep
  split at hstep
  · next hidle =>
      cases hstep
      have hcaller := h.caller
      rw [hidle] at hcaller
      have hended : ∀ t ∈ s.threads, t.pc.Ended := by
        rcases hcaller with ⟨port, hserial, hopen⟩ | hended
        · have hclosed := hguard port hserial
          rw [hopen] at hclosed
          cases hclosed
        · exact hended
      have hclosed : ∀ port, s.isOpen port = false := by
        intro port
        rw [← Bool.not_eq_true]
        intro hopen
        have hnot := hguard port (h.current port hopen)
        rw [hopen] at hnot
        cases hnot
      refine ⟨?_, hended, ?_, h.decoded⟩
      · intro port hopen
        by_cases hport : port = s.ports
        · rw [hport]
        · have hnot : (if port = s.ports then true else s.isOpen port) =
              false := (if_neg hport).trans (hclosed port)
          cases hnot.symm.trans hopen
      · show AtCaller _ s.caller
        rw [hidle]
        exact .inl ⟨s.ports, rfl, if_pos rfl⟩
  · cases hstep

theorem Inv.close (h : Inv crc8 s) {raises : Bool}
    (hstep : step crc8 s (.close raises) = some s') : Inv crc8 s' := by
  rw [step] at hstep
  split at hstep
  · split at hstep
    · cases hstep
      exact h
    · next port hserial =>
        split at hstep
        · cases hstep
          exact h
        · next hopen =>
            cases hstep
            rw [not_or, Bool.not_eq_false] at hopen
            exact ⟨h.current, h.older, ⟨port, hserial, hopen.1⟩, h.decoded⟩
  · cases hstep

theorem Inv.resume (h : Inv crc8 s)
    (hstep : step crc8 s .resume = some s') : Inv crc8 s' := by
  have hcaller := h.caller
  rw [step, Py.SerialBus.resume] at hstep
  split at hstep
  · next port hcall hserial =>
      cases hstep
      have hclosed : ∀ p,
          (if p = port then false else s.isOpen p) = false := by
        intro p
        split
        · rfl
        · next hp =>
            rw [← Bool.not_eq_true]
            intro hopen
            have hsame := h.current p hopen
            rw [hserial] at hsame
            exact hp (Option.some.inj hsame).symm
      refine ⟨?_, h.older, hclosed, h.decoded⟩
      intro p hopen
      cases (hclosed p).symm.trans hopen
  · next hcall =>
      cases hstep
      rw [hcall] at hcaller
      refine ⟨?_, h.older, rfl, h.decoded⟩
      intro p hopen
      cases (hcaller p).symm.trans hopen
  · next hcall =>
      rw [hcall] at hcaller
      split at hstep
      · next hhead =>
          cases hstep
          refine ⟨h.current, h.older, .inr ?_, h.decoded⟩
          intro t ht
          cases hthreads : s.threads with
          | nil =>
              rw [hthreads] at ht
              cases ht
          | cons t₀ ts =>
              rw [hthreads] at ht
              have holder := h.older
              rw [hthreads] at hhead holder
              rcases List.mem_cons.mp ht with rfl | ht
              · exact hhead t rfl
              · exact holder t ht
      · cases hstep
  · cases hstep

theorem Inv.request (h : Inv crc8 s)
    (hstep : step crc8 s .request = some s') : Inv crc8 s' := by
  rw [step] at hstep
  split at hstep
  · split at hstep
    · cases hstep
      exact h
    · split at hstep
      · cases hstep
        exact h
      · cases hstep
        have hdecoder : s.bus.getResponse.2.openDecoder =
            s.bus.openDecoder := by
          rw [Bus.getResponse]
          split <;> rfl
        obtain ⟨decoded, hreceived, htracks⟩ := h.decoded
        refine ⟨h.current, h.older, h.caller, decoded, hreceived, ?_⟩
        show s.bus.getResponse.2.Tracks _
        rw [Bus.Tracks, hdecoder]
        exact htracks
  · cases hstep

/-- Where all older threads have ended, only the newest takes steps. -/
theorem newest (holder : ∀ t ∈ s.threads.tail, t.pc.Ended) {i : Nat}
    {t : Thread} (ht : s.threads[i]? = some t) (hgoes : ¬ t.pc.Ended) :
    i = 0 ∧ s.threads = t :: s.threads.tail := by
  cases hthreads : s.threads with
  | nil =>
      rw [hthreads] at ht
      cases ht
  | cons t₀ ts =>
      rw [hthreads] at ht
      cases i with
      | zero =>
          cases ht
          exact ⟨rfl, rfl⟩
      | succ i =>
          have hmem : t ∈ s.threads.tail := by
            rw [hthreads]
            exact List.mem_of_getElem? ht
          exact absurd (holder t hmem) hgoes

/-- A step of the newest thread leaves the others alone. -/
theorem threads_runThread {t : Thread}
    (hthreads : s.threads = t :: s.threads.tail) (a : Answer) :
    (runThread crc8 s 0 t a).threads =
      { t with pc := next crc8 s t a } :: s.threads.tail := by
  rw [runThread, hthreads, List.set_cons_zero, List.tail_cons]

theorem Inv.run (h : Inv crc8 s) {i : Nat} {a : Answer}
    (hstep : step crc8 s (.run i a) = some s') : Inv crc8 s' := by
  rw [step] at hstep
  split at hstep
  · cases hstep
  · next t ht =>
      split at hstep
      · cases hstep
      · next hgoes =>
          cases hstep
          obtain ⟨rfl, hthreads⟩ := newest h.older ht hgoes
          have hcaller : ∀ t' : Thread, AtCaller
              { s with threads := s.threads.set 0 t' } s.caller := by
            intro t'
            have hcaller := h.caller
            cases hcall : s.caller with
            | idle =>
                rw [hcall] at hcaller
                rcases hcaller with hopen | hended
                · exact .inl hopen
                · exact absurd (hended t (List.mem_of_getElem? ht)) hgoes
            | closing =>
                rw [hcall] at hcaller
                exact hcaller
            | forgetting =>
                rw [hcall] at hcaller
                exact hcaller
            | joining =>
                rw [hcall] at hcaller
                exact hcaller
          have hset : (runThread crc8 s 0 t a).threads =
              { t with pc := next crc8 s t a } :: s.threads.tail :=
            threads_runThread hthreads a
          have holder : ∀ u ∈ (runThread crc8 s 0 t a).threads.tail,
              u.pc.Ended := by
            rw [hset]
            exact h.older
          refine ⟨h.current, holder, hcaller _, ?_⟩
          obtain ⟨decoded, hreceived, htracks⟩ := h.decoded
          refine ⟨decoded ++ Pc.held t.pc, ?_, ?_⟩
          · have hheld : held (runThread crc8 s 0 t a) =
                (reads s t a).toList := by
              rw [held_eq hset holder, held_next]
            rw [hheld, ← held_eq hthreads h.older, ← hreceived]
            rfl
          · rw [Transducer.run_append]
            exact tracks_busAfter htracks

theorem inv_step (h : Inv crc8 s) (a : Action) (hguard : Guard s a)
    (hstep : step crc8 s a = some s') : Inv crc8 s' := by
  cases a with
  | openPort fd => exact h.openPort hguard hstep
  | close raises => exact h.close hstep
  | resume => exact h.resume hstep
  | request => exact h.request hstep
  | run i a => exact h.run hstep

end Steps

/-- **One receiver.**  However often a bus is opened and closed, and not opened
while its port is open, with its steps and those of its receive threads in any
order: no more than one thread goes on at a time, and none once `close` has
returned; and the decoder of the bus is in the phase of a receiver that has
read the bytes of all threads in a row, but for a byte that a thread still
holds. -/
theorem one_receiver (crc8 : UInt8 → UInt8 → UInt8) {as : List Action}
    {s : State} (hrun : Run (step crc8) Guard start as s) :
    (∀ t ∈ s.threads.tail, t.pc.Ended) ∧
      (s.caller = .idle → s.serial = none → ∀ t ∈ s.threads, t.pc.Ended) ∧
      Decoded crc8 s := by
  have h : Inv crc8 s := hrun.invariant (Inv crc8)
    (fun _ a _ h hguard hstep => inv_step h a hguard hstep) (inv_start crc8)
  refine ⟨h.older, fun hidle hnone => ?_, h.decoded⟩
  have hcaller := h.caller
  rw [hidle] at hcaller
  rcases hcaller with ⟨port, hserial, _⟩ | hended
  · rw [hnone] at hserial
    cases hserial
  · exact hended

/-- The system finds a byte. -/
def finds (byte : UInt8) : Answer := ⟨true, false, some byte, false⟩

/-- A bus is opened and its thread reads a response, and the bus is closed
before the thread has decoded the last byte. -/
def readAndClose : List Action :=
  .openPort 5 ::
    [END, 1, 7].flatMap (fun byte =>
      List.replicate 9 (.run 0 (finds byte))) ++
    List.replicate 8 (.run 0 (finds END)) ++ [.close false, .resume, .resume]

instance (s : State) : DecidablePred (Guard s)
  | .openPort _ => inferInstanceAs (Decidable (∀ port ∈ s.serial, _))
  | .close _ => .isTrue trivial
  | .resume => .isTrue trivial
  | .request => .isTrue trivial
  | .run _ _ => .isTrue trivial

theorem one_receiver_readAndClose :
    ∃ s, perform (step crc8Poly07) start readAndClose = some s ∧
      (s.received, held s) = ([END, 1, 7, END], [END]) ∧
      (∀ t ∈ s.threads.tail, t.pc.Ended) ∧
      (s.caller = .idle → s.serial = none → ∀ t ∈ s.threads, t.pc.Ended) ∧
      Decoded crc8Poly07 s := by
  have hreceived : (perform (guarded (step crc8Poly07) Guard) start
      readAndClose).map (fun s => (s.received, held s)) =
      some ([END, 1, 7, END], [END]) := by
    decide +kernel
  obtain ⟨s, hs, hs'⟩ := Option.map_eq_some_iff.mp hreceived
  have hrun := Run.of_perform_guarded hs
  exact ⟨s, hrun.perform_eq, hs', one_receiver crc8Poly07 hrun⟩

/-! ## After `self.serial = None` -/

/-- How many steps a thread may take while `self.serial` is `None` and every
port is closed. -/
def rank : Pc → Nat
  | .check => 1
  | .poll => 3
  | .dataTest => 2
  | .dataLoad => 2
  | .dataPoll _ => 1
  | .readTest => 2
  | .readLoad => 2
  | .read _ => 1
  | .decode _ => 3
  | .process => 2
  | .returned => 0
  | .raised => 0

theorem rank_le (pc : Pc) : rank pc ≤ 3 := by
  cases pc <;> simp [rank]

/-- How many packets a thread may queue without reading anything. -/
def owed : Pc → Nat
  | .decode _ => 1
  | .process => 1
  | _ => 0

/-- How many packets the newest thread may queue without reading anything. -/
def owes (s : State) : Nat :=
  match s.threads with
  | [] => 0
  | t :: _ => owed t.pc

/-- Whether an action opens the bus. -/
def opens : Action → Bool
  | .openPort _ => true
  | _ => false

/-- A step of a thread, not of the caller. -/
def isRun : Action → Bool
  | .run _ _ => true
  | _ => false

/-- The steps of threads among some actions. -/
def threadSteps (as : List Action) : Nat := as.countP isRun

/-- Since `s₀`, no port is open, nothing was read, and the threads have queued
no more than they owed. -/
structure Closed (s₀ s : State) : Prop where
  serial : s.serial = none
  ports : ∀ port, s.isOpen port = false
  older : ∀ t ∈ s.threads.tail, t.pc.Ended
  owner : s.bus.decoder.packet = s₀.bus.decoder.packet
  queue : ∃ n, s.bus.recvQueue = s₀.bus.recvQueue ++
      List.replicate n s₀.bus.decoder.packet ∧ n + owes s ≤ owes s₀
  same : owes s₀ = 0 → s.bus = s₀.bus
  received : s.received = s₀.received

theorem Inv.closed {crc8 : UInt8 → UInt8 → UInt8} {s : State}
    (h : Inv crc8 s) (hnone : s.serial = none) : Closed s s where
  serial := hnone
  ports := by
    intro port
    rw [← Bool.not_eq_true]
    intro hopen
    have hserial := h.current port hopen
    rw [hnone] at hserial
    cases hserial
  older := h.older
  owner := rfl
  queue := ⟨0, (List.append_nil _).symm, Nat.le_of_eq (Nat.zero_add _)⟩
  same := fun _ => rfl
  received := rfl

/-- The steps that are left to the newest thread. -/
def work (s : State) : Nat :=
  match s.threads with
  | [] => 0
  | t :: _ => rank t.pc

theorem work_le (s : State) : work s ≤ 3 := by
  unfold work
  split
  · decide
  · exact rank_le _

section Closed

variable {crc8 : UInt8 → UInt8 → UInt8} {s₀ s s' : State}

/-- A thread reads nothing, is nearer to its end, and owes nothing new. -/
theorem Closed.nearer (h : Closed s₀ s) {t : Thread} (hgoes : ¬ t.pc.Ended)
    (a : Answer) :
    reads s t a = none ∧ 1 + rank (next crc8 s t a) ≤ rank t.pc ∧
      owed (next crc8 s t a) ≤ owed t.pc := by
  obtain ⟨fd, pc⟩ := t
  cases pc with
  | check =>
      refine ⟨rfl, ?_⟩
      simp only [next, if_pos h.serial]
      decide
  | poll =>
      refine ⟨rfl, ?_⟩
      simp only [next]
      split
      · decide
      · split
        · decide
        · split <;> decide
  | dataTest =>
      refine ⟨rfl, ?_⟩
      simp only [next, if_pos h.serial]
      decide
  | dataLoad => exact ⟨rfl, Nat.le_refl _, Nat.le_refl _⟩
  | dataPoll serial =>
      refine ⟨rfl, ?_⟩
      cases serial with
      | none => exact ⟨Nat.le_refl _, Nat.le_refl _⟩
      | some port =>
          simp only [next, if_pos (Or.inl (h.ports port))]
          exact ⟨Nat.le_refl _, Nat.le_refl _⟩
  | readTest =>
      refine ⟨rfl, ?_⟩
      simp only [next, if_pos h.serial]
      decide
  | readLoad => exact ⟨rfl, Nat.le_refl _, Nat.le_refl _⟩
  | read serial =>
      cases serial with
      | none => exact ⟨rfl, Nat.le_refl _, Nat.le_refl _⟩
      | some port =>
          refine ⟨if_pos (.inl (h.ports port)), ?_⟩
          simp only [next, if_pos (Or.inl (h.ports port))]
          exact ⟨Nat.le_refl _, Nat.le_refl _⟩
  | decode byte =>
      refine ⟨rfl, ?_⟩
      show _ ≤ 3 ∧ _ ≤ 1
      simp only [next]
      split
      · split <;> decide
      · decide
  | process =>
      refine ⟨rfl, ?_⟩
      simp only [next]
      split <;> decide
  | returned => exact absurd trivial hgoes
  | raised => exact absurd trivial hgoes

/-- The decoder keeps its packet. -/
theorem owner_busAfter (crc8 : UInt8 → UInt8 → UInt8) (s : State)
    (t : Thread) :
    (busAfter crc8 s t).decoder.packet = s.bus.decoder.packet := by
  obtain ⟨fd, pc⟩ := t
  cases pc with
  | decode byte =>
      simp only [busAfter]
      split
      · next bus hprocess =>
          obtain ⟨d, rfl⟩ := Bus.eq_closeDecoder_of_processByte hprocess
          rfl
      · rfl
  | process =>
      obtain ⟨result, queue, hdecoded, _⟩ := s.bus.processDecoded_queue
      simp only [busAfter, hdecoded]
  | _ => rfl

/-- A thread that owes nothing leaves the bus alone. -/
theorem busAfter_of_owed {t : Thread} (h : owed t.pc = 0) :
    busAfter crc8 s t = s.bus := by
  obtain ⟨fd, pc⟩ := t
  cases pc with
  | decode byte => cases h
  | process => cases h
  | _ => rfl

/-- What a thread queues is taken off what it owes. -/
theorem queue_busAfter {t : Thread} {a : Answer}
    (howed : owed (next crc8 s t a) ≤ owed t.pc) :
    ∃ n, (busAfter crc8 s t).recvQueue = s.bus.recvQueue ++
        List.replicate n s.bus.decoder.packet ∧
      n + owed (next crc8 s t a) ≤ owed t.pc := by
  have hnone : 0 + owed (next crc8 s t a) ≤ owed t.pc :=
    (Nat.zero_add _).symm ▸ howed
  obtain ⟨fd, pc⟩ := t
  cases pc with
  | decode byte =>
      refine ⟨0, ?_, hnone⟩
      simp only [busAfter]
      split
      · next bus hprocess =>
          obtain ⟨d, rfl⟩ := Bus.eq_closeDecoder_of_processByte hprocess
          exact (List.append_nil _).symm
      · exact (List.append_nil _).symm
  | process =>
      obtain ⟨result, queue, hdecoded, hqueue⟩ := s.bus.processDecoded_queue
      have hdone : owed (next crc8 s ⟨fd, .process⟩ a) = 0 := by
        simp only [next]
        split <;> rfl
      simp only [busAfter, hdecoded, hdone]
      rcases hqueue with rfl | rfl
      · exact ⟨0, (List.append_nil _).symm, by decide⟩
      · exact ⟨1, rfl, by decide⟩
  | _ => exact ⟨0, (List.append_nil _).symm, hnone⟩

/-- A step of the newest thread leaves the bus closed, with some of the
thread's work done. -/
theorem Closed.run (h : Closed s₀ s) {t : Thread}
    (hthreads : s.threads = t :: s.threads.tail) (hgoes : ¬ t.pc.Ended)
    (a : Answer) :
    Closed s₀ (runThread crc8 s 0 t a) ∧
      1 + work (runThread crc8 s 0 t a) ≤ work s := by
  obtain ⟨hreads, hrank, howed⟩ : reads s t a = none ∧
      1 + rank (next crc8 s t a) ≤ rank t.pc ∧
      owed (next crc8 s t a) ≤ owed t.pc := h.nearer hgoes a
  have hset : (runThread crc8 s 0 t a).threads =
      { t with pc := next crc8 s t a } :: s.threads.tail :=
    threads_runThread hthreads a
  have howes : owes s = owed t.pc := by
    rw [owes, hthreads]
  have howes' : owes (runThread crc8 s 0 t a) = owed (next crc8 s t a) := by
    rw [owes, hset]
  refine ⟨⟨h.serial, h.ports, ?_, ?_, ?_, ?_, ?_⟩, ?_⟩
  · rw [hset]
    exact h.older
  · exact (owner_busAfter crc8 s t).trans h.owner
  · obtain ⟨n, hqueue, hn⟩ := h.queue
    obtain ⟨m, hqueue', hm⟩ := queue_busAfter howed
    refine ⟨n + m, ?_, ?_⟩
    · rw [← List.replicate_append_replicate, ← List.append_assoc, ← hqueue,
        ← h.owner]
      exact hqueue'
    · rw [howes']
      omega
  · intro hnone
    obtain ⟨n, _, hn⟩ := h.queue
    have hidle : owed t.pc = 0 := by omega
    exact (busAfter_of_owed hidle).trans (h.same hnone)
  · show s.received ++ (reads s t a).toList = s₀.received
    rw [hreads]
    exact (List.append_nil _).trans h.received
  · rw [work, work, hset, hthreads]
    exact hrank

/-- No action but `open` opens a port, and none reads anything; a thread that
takes a step does some of its work. -/
theorem closed_step (h : Closed s₀ s) (a : Action)
    (hopen : opens a = false) (hstep : step crc8 s a = some s') :
    Closed s₀ s' ∧ (if isRun a then 1 else 0) + work s' ≤ work s := by
  have hnothing : ∀ n, 0 + n ≤ n := fun n => Nat.le_of_eq (Nat.zero_add n)
  cases a with
  | openPort fd => cases hopen
  | close raises =>
      simp only [step, h.serial] at hstep
      split at hstep
      · cases hstep
        exact ⟨h, hnothing _⟩
      · cases hstep
  | resume =>
      rw [step, Py.SerialBus.resume] at hstep
      split at hstep
      · next port _ hserial =>
          rw [h.serial] at hserial
          cases hserial
      · cases hstep
        exact ⟨⟨rfl, h.ports, h.older, h.owner, h.queue, h.same, h.received⟩,
          hnothing _⟩
      · split at hstep
        · cases hstep
          exact ⟨⟨h.serial, h.ports, h.older, h.owner, h.queue, h.same,
            h.received⟩, hnothing _⟩
        · cases hstep
      · cases hstep
  | request =>
      simp only [step, h.serial] at hstep
      split at hstep
      · cases hstep
        exact ⟨h, hnothing _⟩
      · cases hstep
  | run i a =>
      rw [step] at hstep
      split at hstep
      · cases hstep
      · next t ht =>
          split at hstep
          · cases hstep
          · next hgoes =>
              cases hstep
              obtain ⟨rfl, hthreads⟩ := newest h.older ht hgoes
              exact h.run hthreads hgoes a

end Closed

/-- `join` returns once the thread has ended. -/
private theorem resume_isSome {crc8 : UInt8 → UInt8 → UInt8} {s : State}
    (hjoining : s.caller = .joining)
    (hended : ∀ t ∈ s.threads.head?, t.pc.Ended) :
    (step crc8 s .resume).isSome := by
  rw [step, resume, hjoining]
  cases s.serial with
  | none => simp only [if_pos hended, Option.isSome_some]
  | some port => simp only [if_pos hended, Option.isSome_some]

/-- **`close` stops the receiver.**  From when `close` has set `self.serial` to
`None`, in any run, until the bus is opened again: the receive threads take no
more than three steps between them, and nothing is read.  A thread that held a
byte or a complete packet may still queue the packet, once; without such a
thread the bus stays as it is.  And as long as `close` waits for its thread,
either the thread can go on, whatever the system answers, or `close` can
return. -/
theorem close_stops (crc8 : UInt8 → UInt8 → UInt8) {as : List Action}
    {s : State} (hrun : Run (step crc8) Guard start as s)
    (hnone : s.serial = none) {bs : List Action} {s' : State}
    (hbs : perform (step crc8) s bs = some s')
    (hopen : ∀ b ∈ bs, opens b = false) :
    threadSteps bs ≤ 3 ∧ s'.received = s.received ∧
      (∃ n ≤ owes s, s'.bus.recvQueue = s.bus.recvQueue ++
        List.replicate n s.bus.decoder.packet) ∧
      (owes s = 0 → s'.bus = s.bus) ∧
      (s'.caller = .joining →
        (∀ a, (step crc8 s' (.run 0 a)).isSome) ∨
          (step crc8 s' .resume).isSome) := by
  have h : Inv crc8 s := hrun.invariant (Inv crc8)
    (fun _ a _ h hguard hstep => inv_step h a hguard hstep) (inv_start crc8)
  obtain ⟨hclosed, hwork⟩ := perform_bounded (Closed s) isRun work
    (fun _ a _ h hopen hstep => closed_step h a hopen hstep) hbs hopen
    (h.closed hnone)
  have hsteps : threadSteps bs ≤ 3 :=
    Nat.le_trans (Nat.le_trans (Nat.le_add_right _ _) hwork) (work_le s)
  obtain ⟨n, hqueue, hn⟩ := hclosed.queue
  have hqueued : n ≤ owes s := Nat.le_trans (Nat.le_add_right _ _) hn
  refine ⟨hsteps, hclosed.received, ⟨n, hqueued, hqueue⟩, hclosed.same,
    fun hjoining => ?_⟩
  by_cases hended : ∀ t ∈ s'.threads.head?, t.pc.Ended
  · exact .inr (resume_isSome hjoining hended)
  · left
    intro a
    cases hthreads : s'.threads with
    | nil =>
        rw [hthreads] at hended
        exact absurd (fun t ht => by cases ht) hended
    | cons t ts =>
        rw [hthreads] at hended
        have hgoes : ¬ t.pc.Ended := by
          intro hends
          apply hended
          intro u hu
          cases hu
          exact hends
        rw [step, hthreads, List.getElem?_cons_zero]
        simp only [if_neg hgoes, Option.isSome_some]

-- the thread decodes the last byte, queues the packet and returns
theorem close_stops_readAndClose :
    ∃ s, perform (step crc8Poly07) start readAndClose = some s ∧
      ∃ s', perform (step crc8Poly07) s
          (List.replicate 3 (.run 0 (finds END))) = some s' ∧
        s'.bus.recvQueue = [0] ∧
        threadSteps (List.replicate 3 (.run 0 (finds END))) ≤ 3 ∧
        s'.received = s.received ∧
        (∃ n ≤ owes s, s'.bus.recvQueue = s.bus.recvQueue ++
          List.replicate n s.bus.decoder.packet) ∧
        (owes s = 0 → s'.bus = s.bus) ∧
        (s'.caller = .joining →
          (∀ a, (step crc8Poly07 s' (.run 0 a)).isSome) ∨
            (step crc8Poly07 s' .resume).isSome) := by
  have hclosed : (perform (guarded (step crc8Poly07) Guard) start
      readAndClose).map (fun s => (s.serial, (perform (step crc8Poly07) s
        (List.replicate 3 (.run 0 (finds END)))).map (·.bus.recvQueue))) =
      some (none, some [0]) := by
    decide +kernel
  obtain ⟨s, hs, hs'⟩ := Option.map_eq_some_iff.mp hclosed
  have hrun := Run.of_perform_guarded hs
  obtain ⟨hnone, hqueue⟩ := Prod.mk.inj hs'
  obtain ⟨s', hbs, hqueue⟩ := Option.map_eq_some_iff.mp hqueue
  exact ⟨s, hrun.perform_eq, s', hbs, hqueue,
    close_stops crc8Poly07 hrun hnone hbs (by decide)⟩

-- `close` runs between the test of `self.serial` and its use
example : (perform (step crc8Poly07) start
    (.openPort 5 :: List.replicate 3 (.run 0 (finds END)) ++
      [.close false, .resume, .resume] ++
      List.replicate 2 (.run 0 (finds END)))).map
        (fun s => s.threads.map Thread.pc) = some [.raised] := by
  decide +kernel

end DuinoBus.SerialLifecycle
