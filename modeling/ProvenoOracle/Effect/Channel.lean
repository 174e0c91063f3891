import ProvenoOracle.Effect.Guarded

/-! # A producer behind a bounded channel

A producer sends events to a channel that holds `capacity` of them, and waits when it is full. A
consumer takes them out in order. The consumer may leave at any moment; the channel then drops
what it holds, and the next thing the producer sends stops it. The producer may also crash.

Whatever the order of steps, the consumer gets what the producer sends from the front, nothing
twice and nothing out of order (`Link.Inv`), and a link that has come to rest has got all of it to a
consumer who stayed (`Link.Inv.all_delivered`).
-/

set_option autoImplicit false

namespace Effect

/-- How far the producer is. -/
inductive Producer where
  | working
  /-- It has sent everything. -/
  | finished
  /-- It was stopped by a send that nobody receives. -/
  | stopped
  | crashed
  deriving DecidableEq

/-- A producer, its channel and its consumer. -/
structure Link (Event : Type) where
  /-- What the producer has not sent yet. -/
  todo : List Event
  /-- What the channel has accepted. -/
  accepted : List Event
  /-- What the channel holds. -/
  buffer : List Event
  delivered : List Event
  connected : Bool
  producer : Producer

/-- The steps of a link. -/
inductive LinkMove where
  | send
  | finish
  | crash
  | read
  | leave
  deriving DecidableEq

/-- The steps that the producer and a consumer who stays take by themselves. -/
def LinkMove.ordinary : LinkMove → Bool
  | .send => true
  | .finish => true
  | .read => true
  | _ => false

namespace Link

variable {Event : Type}

/-- A producer at its start. -/
def start (script : List Event) : Link Event := ⟨script, [], [], [], true, .working⟩

/-- Send the next event. -/
def send (capacity : Nat) (l : Link Event) : Option (Link Event) :=
  match l.producer, l.todo with
  | .working, ev :: rest =>
      if l.connected then
        -- a full channel makes the producer wait
        if l.buffer.length < capacity then
          some { l with todo := rest, accepted := l.accepted ++ [ev], buffer := l.buffer ++ [ev] }
        else none
      else some { l with producer := .stopped }
  | _, _ => none

/-- One step, if it is possible. -/
def step (capacity : Nat) (l : Link Event) : LinkMove → Option (Link Event)
  | .send => l.send capacity
  | .finish =>
      if l.producer = .working ∧ l.todo = [] then some { l with producer := .finished } else none
  | .crash => if l.producer = .working then some { l with producer := .crashed } else none
  | .read =>
      match l.buffer with
      | [] => none
      | ev :: rest => some { l with buffer := rest, delivered := l.delivered ++ [ev] }
  | .leave => if l.connected then some { l with connected := false, buffer := [] } else none

/-- The producer is at work. -/
def working (l : Link Event) : Bool := decide (l.producer = .working)

variable {capacity : Nat} {l l' : Link Event}

/-! ## Steps -/

theorem send_eq_some (h : l.send capacity = some l') :
    l.producer = .working ∧ ∃ ev rest, l.todo = ev :: rest ∧
      ((l.connected = true ∧ l.buffer.length < capacity ∧
        l' = { l with todo := rest, accepted := l.accepted ++ [ev],
                      buffer := l.buffer ++ [ev] }) ∨
      (l.connected = false ∧ l' = { l with producer := .stopped })) := by
  unfold send at h
  split at h
  · rename_i ev rest hworking htodo
    refine ⟨hworking, ev, rest, htodo, ?_⟩
    split at h
    · rename_i hconnected
      split at h
      · rename_i hroom
        exact Or.inl ⟨hconnected, hroom, (Option.some.inj h).symm⟩
      · cases h
    · rename_i hgone
      exact Or.inr ⟨Bool.eq_false_iff.mpr hgone, (Option.some.inj h).symm⟩
  · cases h

/-- What one step can do. -/
theorem step_cases {m : LinkMove} (h : step capacity l m = some l') :
    (m = .send ∧ l.producer = .working ∧ l.connected = true ∧ l.buffer.length < capacity ∧
      ∃ ev rest, l.todo = ev :: rest ∧
        l' = { l with todo := rest, accepted := l.accepted ++ [ev],
                      buffer := l.buffer ++ [ev] }) ∨
    (m = .send ∧ l.producer = .working ∧ l.connected = false ∧
      l' = { l with producer := .stopped }) ∨
    (m = .finish ∧ l.producer = .working ∧ l.todo = [] ∧ l' = { l with producer := .finished }) ∨
    (m = .crash ∧ l.producer = .working ∧ l' = { l with producer := .crashed }) ∨
    (m = .read ∧ ∃ ev rest, l.buffer = ev :: rest ∧
      l' = { l with buffer := rest, delivered := l.delivered ++ [ev] }) ∨
    (m = .leave ∧ l.connected = true ∧ l' = { l with connected := false, buffer := [] }) := by
  cases m with
  | send =>
      obtain ⟨hworking, ev, rest, htodo, ⟨hconnected, hroom, hl'⟩ | ⟨hgone, hl'⟩⟩ :=
        send_eq_some h
      · exact Or.inl ⟨rfl, hworking, hconnected, hroom, ev, rest, htodo, hl'⟩
      · exact Or.inr (Or.inl ⟨rfl, hworking, hgone, hl'⟩)
  | finish =>
      obtain ⟨⟨hworking, htodo⟩, hl'⟩ := Option.ite_none_right_eq_some.mp h
      exact Or.inr (Or.inr (Or.inl ⟨rfl, hworking, htodo, (Option.some.inj hl').symm⟩))
  | crash =>
      obtain ⟨hworking, hl'⟩ := Option.ite_none_right_eq_some.mp h
      exact Or.inr (Or.inr (Or.inr (Or.inl ⟨rfl, hworking, (Option.some.inj hl').symm⟩)))
  | read =>
      cases hbuffer : l.buffer with
      | nil => simp [step, hbuffer] at h
      | cons ev rest =>
          have hl' : l' = { l with buffer := rest, delivered := l.delivered ++ [ev] } := by
            simpa [step, hbuffer] using h.symm
          exact Or.inr (Or.inr (Or.inr (Or.inr (Or.inl ⟨rfl, ev, rest, rfl, hl'⟩))))
  | leave =>
      obtain ⟨hconnected, hl'⟩ := Option.ite_none_right_eq_some.mp h
      refine Or.inr (Or.inr (Or.inr (Or.inr (Or.inr ⟨rfl, ?_, (Option.some.inj hl').symm⟩))))
      exact hconnected

/-- A producer that has ended does not start again. -/
theorem working_of_step {m : LinkMove} (h : step capacity l m = some l')
    (hended : l.working = false) : l'.working = false := by
  have hnot : l.producer ≠ .working := of_decide_eq_false hended
  rcases step_cases h with ⟨-, hworking, -⟩ | ⟨-, hworking, -⟩ | ⟨-, hworking, -⟩ |
    ⟨-, hworking, -⟩ | ⟨-, ev, rest, -, rfl⟩ | ⟨-, -, rfl⟩
  · exact absurd hworking hnot
  · exact absurd hworking hnot
  · exact absurd hworking hnot
  · exact absurd hworking hnot
  · exact hended
  · exact hended

/-! ## The invariant -/

/-- **What holds in every state**: the channel accepts the script from the front, holds no more
than it can, and the consumer gets what was accepted from the front. -/
structure Inv (capacity : Nat) (script : List Event) (l : Link Event) : Prop where
  script : l.accepted ++ l.todo = script
  bounded : l.buffer.length ≤ capacity
  delivered : l.delivered <+: l.accepted
  inOrder : l.connected = true → l.delivered ++ l.buffer = l.accepted
  dropped : l.connected = false → l.buffer = []
  finished : l.producer = .finished → l.todo = []
  stopped : l.producer = .stopped → l.connected = false

theorem Inv.start (capacity : Nat) (script : List Event) :
    Inv capacity script (Link.start script) where
  script := rfl
  bounded := Nat.zero_le _
  delivered := List.prefix_rfl
  inOrder _ := rfl
  dropped _ := rfl
  finished h := nomatch h
  stopped h := nomatch h

variable {script : List Event}

/-- A step keeps the invariant. -/
theorem Inv.keep {m : LinkMove} (hl : Inv capacity script l)
    (h : step capacity l m = some l') : Inv capacity script l' := by
  rcases step_cases h with ⟨-, hworking, hconnected, hroom, ev, rest, htodo, rfl⟩ |
    ⟨-, hworking, hgone, rfl⟩ | ⟨-, hworking, htodo, rfl⟩ | ⟨-, hworking, rfl⟩ |
    ⟨-, ev, rest, hbuffer, rfl⟩ | ⟨-, hconnected, rfl⟩
  · -- an event is accepted
    refine ⟨?_, ?_, ?_, ?_, ?_, ?_, ?_⟩
    · rw [← hl.script, htodo]
      exact List.append_assoc l.accepted [ev] rest
    · show (l.buffer ++ [ev]).length ≤ capacity
      rw [List.length_append, List.length_singleton]
      exact hroom
    · exact hl.delivered.trans (List.prefix_append _ _)
    · intro _
      show l.delivered ++ (l.buffer ++ [ev]) = l.accepted ++ [ev]
      rw [← hl.inOrder hconnected, List.append_assoc]
    · intro hgone
      exact absurd (hconnected.symm.trans hgone) nofun
    · intro hfinished
      exact absurd (hworking.symm.trans hfinished) nofun
    · intro hstopped
      exact absurd (hworking.symm.trans hstopped) nofun
  · exact ⟨hl.script, hl.bounded, hl.delivered, hl.inOrder, hl.dropped, nofun, fun _ => hgone⟩
  · exact ⟨hl.script, hl.bounded, hl.delivered, hl.inOrder, hl.dropped, fun _ => htodo, nofun⟩
  · exact ⟨hl.script, hl.bounded, hl.delivered, hl.inOrder, hl.dropped, nofun, nofun⟩
  · -- an event is delivered, to a consumer who is still there
    have hconnected : l.connected = true := by
      by_contra hgone
      rw [hl.dropped (Bool.not_eq_true _ ▸ hgone)] at hbuffer
      cases hbuffer
    have hall : l.delivered ++ [ev] ++ rest = l.accepted := by
      rw [← hl.inOrder hconnected, hbuffer, List.append_assoc]
      rfl
    refine ⟨hl.script, ?_, ⟨rest, hall⟩, fun _ => hall, ?_, hl.finished, hl.stopped⟩
    · have hbounded := hl.bounded
      rw [hbuffer] at hbounded
      exact (Nat.le_succ _).trans hbounded
    · intro hgone
      exact absurd (hconnected.symm.trans hgone) nofun
  · exact ⟨hl.script, Nat.zero_le _, hl.delivered, nofun, fun _ => rfl, hl.finished,
      fun _ => rfl⟩

/-- The consumer gets the script from the front. -/
theorem Inv.delivered_prefix (hl : Inv capacity script l) : l.delivered <+: script :=
  hl.delivered.trans ⟨l.todo, hl.script⟩

/-! ## Coming to rest -/

/-- What is left to do: every event is sent and delivered, then the two sides go. -/
def rank (l : Link Event) : Nat :=
  2 * l.todo.length + l.buffer.length + l.working.toNat + l.connected.toNat

/-- **Every step uses something up.** -/
theorem rank_lt {m : LinkMove} (h : step capacity l m = some l') : l'.rank < l.rank := by
  rcases step_cases h with ⟨-, hworking, hconnected, hroom, ev, rest, htodo, rfl⟩ |
    ⟨-, hworking, hgone, rfl⟩ | ⟨-, hworking, htodo, rfl⟩ | ⟨-, hworking, rfl⟩ |
    ⟨-, ev, rest, hbuffer, rfl⟩ | ⟨-, hconnected, rfl⟩
  · simp only [rank, working, htodo, List.length_append, List.length_cons, List.length_nil]
    omega
  · simp [rank, working, hworking]
  · simp [rank, working, hworking]
  · simp [rank, working, hworking]
  · simp only [rank, working, hbuffer, List.length_cons]
    omega
  · simp only [rank, working, hconnected, List.length_nil, Bool.toNat_true, Bool.toNat_false]
    omega

/-- A link at rest: its producer has ended, and its channel is empty. -/
theorem at_rest (hcapacity : 0 < capacity)
    (hrest : ∀ m, LinkMove.ordinary m = true → step capacity l m = none) :
    l.producer ≠ .working ∧ l.buffer = [] := by
  have hbuffer : l.buffer = [] := by
    have hread := hrest .read rfl
    cases h : l.buffer with
    | nil => rfl
    | cons ev rest => simp [step, h] at hread
  refine ⟨?_, hbuffer⟩
  intro hworking
  cases htodo : l.todo with
  | nil =>
      have hfinish := hrest .finish rfl
      simp [step, hworking, htodo] at hfinish
  | cons ev rest =>
      -- the channel is empty, so nothing keeps the producer waiting
      have hsend := hrest .send rfl
      cases hconnected : l.connected with
      | true => simp [step, send, hworking, htodo, hconnected, hbuffer, hcapacity] at hsend
      | false => simp [step, send, hworking, htodo, hconnected] at hsend

/-- **At rest everything has arrived**, if the consumer has stayed and the producer has not
crashed. -/
theorem Inv.all_delivered (hl : Inv capacity script l) (hcapacity : 0 < capacity)
    (hrest : ∀ m, LinkMove.ordinary m = true → step capacity l m = none)
    (hconnected : l.connected = true) (hcrash : l.producer ≠ .crashed) :
    l.delivered = script := by
  obtain ⟨hended, hbuffer⟩ := at_rest hcapacity hrest
  have htodo : l.todo = [] := by
    cases hproducer : l.producer with
    | working => exact absurd hproducer hended
    | finished => exact hl.finished hproducer
    | stopped => exact absurd ((hl.stopped hproducer).symm.trans hconnected) nofun
    | crashed => exact absurd hproducer hcrash
  have hall := hl.inOrder hconnected
  rw [hbuffer, List.append_nil] at hall
  rw [hall, ← hl.script, htodo, List.append_nil]

end Link

end Effect
