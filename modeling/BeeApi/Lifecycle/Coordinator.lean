import BeeApi.Lib.Table
import BeeApi.Lib.Run

/-!
# The billing lifecycle coordinator

`pkg/billinglifecycle/coordinator.go`: billing work is registered as tickets, and a drain waits for all of
them.  A method takes the mutex and is one function on the state; one that waits is a round of its loop.
The `runners` are the goroutines of `Submit` and `StartProducer`.  A `*Ticket` is `nil`, of another
coordinator, or the number of a ticket of this one.
-/

namespace BeeApi.Lifecycle

inductive TicketKind
  | root
  | child
  | sentinel
deriving DecidableEq

structure TicketState where
  name : String
  kind : TicketKind
  running : Bool := false

/-- A `*Ticket` that a caller passes. -/
inductive Ticket
  | nil
  | foreign
  | own (id : ℕ)
deriving DecidableEq

inductive LifecycleError
  | admissionClosed (name : String)
  | childAdmissionClosed
  | producerAdmissionClosed (name : String)
  | producerAlreadyStarted (name : String)
  | draining
  | ticketReleased
  | foreignTicket
  | sentinelMismatch
  | sentinelTicket
  | ticketAlreadySubmitted
  | ticketRunning
  | rootNameEmpty
  | childNameEmpty
  | jobNil
  | producerNameEmpty
  | producerNil (name : String)

/-- `Coordinator`.  The entry of a producer tells whether its context is cancelled. -/
structure Coordinator where
  nextID : ℕ := 0
  rootAdmissionOpen : Bool := true
  producerAdmissionOpen : Bool := true
  draining : Bool := false
  closed : Bool := false
  active : ℤ := 0
  tickets : Table ℕ TicketState := ∅
  sentinelID : ℕ := 0
  producers : Table String Bool := ∅

/-- `reserveTicketLocked`: the coordinator afterwards and the number of the ticket. -/
def reserveTicketLocked (c : Coordinator) (name : String) (kind : TicketKind) : Coordinator × ℕ :=
  let id := c.nextID + 1
  ({ c with nextID := id, tickets := c.tickets.put id { name, kind }, active := c.active + 1 }, id)

def reserveRoot (c : Coordinator) (name : String) : Except LifecycleError (Coordinator × ℕ) :=
  if name = "" then .error .rootNameEmpty
  else if !c.rootAdmissionOpen || c.draining || c.closed then .error (.admissionClosed name)
  else .ok (reserveTicketLocked c name .root)

def ticketStateLocked (c : Coordinator) : Ticket → Except LifecycleError (ℕ × TicketState)
  | .nil => .error .foreignTicket
  | .foreign => .error .foreignTicket
  | .own id =>
    match c.tickets.get? id with
    | some state => .ok (id, state)
    | none => .error .ticketReleased

/-- `ReserveChild`.  A ticket of another coordinator registers its children there. -/
def reserveChild (c : Coordinator) (ticket : Ticket) (name : String) :
    Except LifecycleError (Coordinator × ℕ) :=
  if ticket = .nil ∨ ticket = .foreign then .error .foreignTicket
  else if name = "" then .error .childNameEmpty
  else
    ticketStateLocked c ticket >>= fun _ =>
      if c.closed then .error .childAdmissionClosed
      else .ok (reserveTicketLocked c name .child)

/-- `ReserveFromContext`; a context without a parent carries `nil`. -/
def reserveFromContext (c : Coordinator) (parent : Ticket) (name : String) :
    Except LifecycleError (Coordinator × ℕ) :=
  match parent with
  | .nil => reserveRoot c name
  | .foreign => .error .foreignTicket
  | .own id => reserveChild c (.own id) name

/-- `Submit` up to the start of its goroutine, which works on the returned ticket. -/
def submit (c : Coordinator) (ticket : Ticket) (hasJob : Bool) :
    Except LifecycleError (Coordinator × ℕ) :=
  if ticket = .nil ∨ ticket = .foreign then .error .foreignTicket
  else if !hasJob then .error .jobNil
  else
    ticketStateLocked c ticket >>= fun (id, state) =>
      if state.kind = .sentinel then .error .sentinelTicket
      else if state.running then .error .ticketAlreadySubmitted
      else .ok ({ c with tickets := c.tickets.put id { state with running := true } }, id)

def release (c : Coordinator) (ticket : Ticket) (fromRunner : Bool) :
    Except LifecycleError Coordinator :=
  ticketStateLocked c ticket >>= fun (id, state) =>
    if state.kind = .sentinel then .error .sentinelTicket
    else if state.running && !fromRunner then .error .ticketRunning
    else .ok { c with tickets := c.tickets.erase id, active := c.active - 1 }

/-- `StartProducer` up to the start of its goroutine. -/
def startProducer (c : Coordinator) (name : String) (hasProducer : Bool) :
    Except LifecycleError (Coordinator × ℕ) :=
  if name = "" then .error .producerNameEmpty
  else if !hasProducer then .error (.producerNil name)
  else if !c.producerAdmissionOpen then .error (.producerAdmissionClosed name)
  else if !c.rootAdmissionOpen || c.draining || c.closed then .error (.admissionClosed name)
  else if (c.producers.get? name).isSome then .error (.producerAlreadyStarted name)
  else
    let (c, id) := reserveTicketLocked c name .root
    .ok
      ({ c with
          tickets := c.tickets.modify id fun state => { state with running := true }
          producers := c.producers.put name false }, id)

/-- The critical section of `StopProducers` before it waits for the producers to be gone. -/
def stopProducers (c : Coordinator) : Coordinator :=
  if c.producerAdmissionOpen then
    { c with
      producerAdmissionOpen := false
      producers := c.producers.updateWhere (fun _ _ => true) fun _ => true }
  else c

/-- The last step of the goroutine of a producer. -/
def removeProducer (c : Coordinator) (name : String) : Coordinator :=
  { c with producers := c.producers.erase name }

def beginDrain (c : Coordinator) : Except LifecycleError (Coordinator × ℕ) :=
  if c.draining then .error .draining
  else if c.closed then .error (.childAdmissionClosed)
  else
    let (c, id) := reserveTicketLocked { c with rootAdmissionOpen := false, draining := true }
      "drain-sentinel" .sentinel
    .ok ({ c with sentinelID := id }, id)

def validSentinelLocked (c : Coordinator) : Ticket → Except LifecycleError ℕ
  | .nil => .error .foreignTicket
  | .foreign => .error .foreignTicket
  | .own id =>
    if id ≠ c.sentinelID then .error .sentinelMismatch
    else
      match c.tickets.get? id with
      | none => .error .ticketReleased
      | some state => if state.kind ≠ .sentinel then .error .sentinelMismatch else .ok id

/-- One round of `CloseAdmissionAndWait`: `none` when it has to wait, and otherwise the coordinator
with which it returns `nil`. -/
def closeAdmissionAndWait (c : Coordinator) (sentinel : Ticket) :
    Except LifecycleError (Option Coordinator) :=
  validSentinelLocked c sentinel >>= fun id =>
    if c.active = 1 then
      .ok (some { c with closed := true, tickets := c.tickets.erase id, active := 0 })
    else .ok none

/-- A goroutine of `Submit` or of `StartProducer`.  A producer that has released its ticket still
has its entry to remove. -/
structure Runner where
  producer : Option String := none
  released : Bool := false

/-- The coordinator and the goroutines that it has started, by ticket. -/
structure System where
  coordinator : Coordinator := {}
  runners : Table ℕ Runner := ∅

/-- The steps of callers and goroutines.  A job ends by returning or by a panic that the deferred
function recovers; either way the goroutine releases its ticket. -/
inductive Label
  | reserveRoot (name : String)
  | reserveFromContext (parent : Ticket) (name : String)
  | reserveChild (ticket : Ticket) (name : String)
  | submit (ticket : Ticket) (hasJob : Bool)
  | release (ticket : Ticket)
  | jobEnds (id : ℕ) (panicked : Bool)
  | producerGone (id : ℕ)
  | startProducer (name : String) (hasProducer : Bool)
  | stopProducers
  | beginDrain
  | waitOnly (sentinel : Ticket)
  | closeAdmissionAndWait (sentinel : Ticket)

/-- A call that fails changes nothing. -/
def System.reserved (s : System) : Except LifecycleError (Coordinator × ℕ) → System
  | .ok (coordinator, _) => { s with coordinator }
  | .error _ => s

/-- A call that succeeds starts a goroutine for the ticket. -/
def System.started (s : System) (runner : Runner) :
    Except LifecycleError (Coordinator × ℕ) → System
  | .ok (coordinator, id) => { coordinator, runners := s.runners.put id runner }
  | .error _ => s

/-- The release of a ticket; an error is returned or logged. -/
def System.released (s : System) : Except LifecycleError Coordinator → System
  | .ok coordinator => { s with coordinator }
  | .error _ => s

/-- The deferred function of a goroutine whose job has ended. -/
def System.jobEnds (s : System) (id : ℕ) (runner : Runner) : System :=
  let s := s.released (Lifecycle.release s.coordinator (.own id) true)
  match runner.producer with
  | none => { s with runners := s.runners.erase id }
  | some _ => { s with runners := s.runners.put id { runner with released := true } }

/-- One step; `none` when it is not enabled. -/
def System.step (s : System) : Label → Option System
  | .reserveRoot name => some (s.reserved (reserveRoot s.coordinator name))
  | .reserveFromContext parent name =>
    some (s.reserved (reserveFromContext s.coordinator parent name))
  | .reserveChild ticket name => some (s.reserved (reserveChild s.coordinator ticket name))
  | .submit ticket hasJob => some (s.started {} (submit s.coordinator ticket hasJob))
  | .release ticket => some (s.released (release s.coordinator ticket false))
  | .jobEnds id _ =>
    match s.runners.get? id with
    | some runner => if runner.released then none else some (s.jobEnds id runner)
    | none => none
  | .producerGone id =>
    match s.runners.get? id with
    | some ⟨some name, true⟩ =>
      some { coordinator := removeProducer s.coordinator name, runners := s.runners.erase id }
    | _ => none
  | .startProducer name hasProducer =>
    some (s.started { producer := some name } (startProducer s.coordinator name hasProducer))
  | .stopProducers => some { s with coordinator := stopProducers s.coordinator }
  | .beginDrain => some (s.reserved (beginDrain s.coordinator))
  | .waitOnly _ => some s
  | .closeAdmissionAndWait sentinel =>
    match closeAdmissionAndWait s.coordinator sentinel with
    | .ok (some coordinator) => some { s with coordinator }
    | _ => some s

end BeeApi.Lifecycle
