import Shepherd.Host.Runner

/-!
# The bridge

Any number of clients share one runner through a queue. A worker takes the oldest request, lets the
runner serve it, publishes whether the runner is ready, and replies; clients go on sending
meanwhile, and may drop their receiver at any time, which discards the reply. Requests are known by
tickets, numbered as they are sent. Each move of a client or of the worker is one step of the
bridge, so that every order in which they can happen is a list of moves.
-/

namespace Shepherd.Host
open Sandbox

/-- The number of a request in the order of sending. -/
abbrev Ticket := Nat

/-- What the worker is at. -/
inductive Worker where
  | idle
  /-- A request was taken from the queue. -/
  | holding (ticket : Ticket) (request : Request)
  /-- The runner served the request. -/
  | finished (ticket : Ticket) (response : Response)
  /-- Readiness was published. -/
  | published (ticket : Ticket) (response : Response)

structure Bridge (γ : Type) where
  runner : Runner γ
  /-- The requests that wait, oldest first. -/
  queue : List (Ticket × Request)
  worker : Worker
  /-- Whether the guest is ready, as far as clients know. -/
  ready : Bool
  /-- The next ticket. -/
  sent : Ticket
  /-- The tickets whose receivers were dropped. -/
  dropped : List Ticket
  /-- The replies that were delivered, latest first. -/
  replies : List (Ticket × Response)

/-- What can happen next. -/
inductive Move where
  | send (request : Request)
  | drop (ticket : Ticket)
  | take
  | serve
  | publish
  | reply
  deriving DecidableEq

namespace Request

/-- Whether the guest counts as not ready while the request is served. -/
def suspends : Request → Bool
  | .init | .restart => true
  | _ => false

end Request

/-- The worker's next move. -/
def Worker.next : Worker → Move
  | .idle => .take
  | .holding .. => .serve
  | .finished .. => .publish
  | .published .. => .reply

namespace Bridge

/-- A bridge to a runner, before any request. -/
def spawn (r : Runner γ) : Bridge γ := ⟨r, [], .idle, r.isReady, 0, [], []⟩

/-- Hands a reply over, unless its receiver was dropped. -/
def deliver (b : Bridge γ) (ticket : Ticket) (response : Response) : Bridge γ :=
  if b.dropped.contains ticket then b else { b with replies := (ticket, response) :: b.replies }

/-- The bridge after a move; none where the worker is not at that point. -/
def move? (b : Bridge γ) : Move → Option (Bridge γ)
  | .send request =>
    some { b with queue := b.queue ++ [(b.sent, request)], sent := b.sent + 1 }
  | .drop ticket => some { b with dropped := ticket :: b.dropped }
  | .take =>
    match b.worker, b.queue with
    | .idle, (ticket, request) :: rest =>
      some { b with
        queue := rest
        worker := .holding ticket request
        ready := b.ready && !request.suspends }
    | _, _ => none
  | .serve =>
    match b.worker with
    | .holding ticket request =>
      match b.runner.serve request with
      | (response, r) =>
        some { b with runner := r, worker := .finished ticket response }
    | _ => none
  | .publish =>
    match b.worker with
    | .finished ticket response =>
      some { b with worker := .published ticket response, ready := b.runner.isReady }
    | _ => none
  | .reply =>
    match b.worker with
    | .published ticket response => some ({ b with worker := .idle }.deliver ticket response)
    | _ => none

/-- The bridge after moves in order. -/
def moves? (b : Bridge γ) (ms : List Move) : Option (Bridge γ) := ms.foldlM move? b

/-- Lets the worker make one move, if it can. -/
def work (b : Bridge γ) : Bridge γ := (b.move? b.worker.next).getD b

/-- Lets the worker serve all that waits; a request takes four moves. -/
def drain (b : Bridge γ) : Bridge γ := Nat.repeat work (4 * b.queue.length + 3) b

/-- Sends a request; gives its ticket. -/
def send (b : Bridge γ) (request : Request) : Ticket × Bridge γ :=
  (b.sent, (b.move? (.send request)).getD b)

/-- Gives up the reply to a request. -/
def abandon (b : Bridge γ) (ticket : Ticket) : Bridge γ := (b.move? (.drop ticket)).getD b

/-- The reply to a request, once it was delivered. -/
def reply? (b : Bridge γ) (ticket : Ticket) : Option Response := b.replies.lookup ticket

/-- Sends requests without waiting in between, and then waits for all replies. -/
def askAll (b : Bridge γ) (requests : List Request) : List (Option Response) × Bridge γ :=
  let tickets := (List.range requests.length).map (b.sent + ·)
  let b := (requests.foldl (fun b request => (b.send request).2) b).drain
  (tickets.map b.reply?, b)

/-- Sends a request and waits for its reply. -/
def ask (b : Bridge γ) (request : Request) : Option Response × Bridge γ :=
  let (ticket, b) := b.send request
  let b := b.drain
  (b.reply? ticket, b)

end Bridge

end Shepherd.Host
