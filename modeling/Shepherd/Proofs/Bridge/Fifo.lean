import Mathlib.Data.List.Induction
import Shepherd.Host.Bridge

/-!
# First come, first served

A bridge acts as if its runner served the requests one after the other in the order of sending. The
invariant of all its moves, in whatever order they come, has four parts, each kept by every move:

* `Counted` tells from the moves how far the worker is with which request;
* `InOrder`: what waits are the latest requests, oldest first, and the runner is the one that served
  all earlier ones;
* `FlagHolds`: the ready flag is up only if the runner was ready when that was last published;
* `Answered`: a completed request has one reply, its own, unless its receiver was dropped.

That a dropped receiver matters to nobody else is about two runs: `forget` erases a receiver and its
reply from a bridge, and bridges that are equal up to that stay so.
-/

namespace Shepherd.Host

/-! ### Serving requests one after the other -/

namespace Runner
variable {γ : Type} {r : Runner γ} {requests : List Request} {request : Request}

theorem serveAll_cons (r : Runner γ) (request : Request) (rest : List Request) :
    r.serveAll (request :: rest) =
      ((r.serve request).1 :: ((r.serve request).2.serveAll rest).1,
        ((r.serve request).2.serveAll rest).2) := rfl

theorem serveAll_append (r : Runner γ) (first second : List Request) :
    r.serveAll (first ++ second) =
      ((r.serveAll first).1 ++ ((r.serveAll first).2.serveAll second).1,
        ((r.serveAll first).2.serveAll second).2) := by
  induction first generalizing r with
  | nil => rfl
  | cons request rest ih =>
    rw [List.cons_append, serveAll_cons, serveAll_cons, ih]
    rfl

theorem length_serveAll (r : Runner γ) (requests : List Request) :
    (r.serveAll requests).1.length = requests.length := by
  induction requests generalizing r with
  | nil => rfl
  | cons request rest ih => exact congrArg Nat.succ (ih _)

/-- Responses stay what they are when more requests follow. -/
theorem getElem?_serveAll_append {t : Nat} {response : Response}
    (h : (r.serveAll requests).1[t]? = some response) (more : List Request) :
    (r.serveAll (requests ++ more)).1[t]? = some response := by
  rw [serveAll_append]
  exact List.getElem?_append_left (List.getElem?_eq_some_iff.1 h).1 |>.trans h

/-- The response to a request is the one of the runner that served those before it. -/
theorem getElem?_serveAll {t : Nat} (h : requests[t]? = some request) :
    (r.serveAll requests).1[t]? = some ((r.serveAll (requests.take t)).2.serve request).1 := by
  have ht := (List.getElem?_eq_some_iff.1 h).1
  have hsplit : requests = requests.take t ++ request :: requests.drop (t + 1) := by
    rw [← (List.getElem?_eq_some_iff.1 h).2, ← List.drop_eq_getElem_cons ht,
      List.take_append_drop]
  have hlength : (r.serveAll (requests.take t)).1.length = t := by
    rw [length_serveAll, List.length_take, Nat.min_eq_left (Nat.le_of_lt ht)]
  conv_lhs => rw [hsplit, serveAll_append]
  rw [List.getElem?_append_right (Nat.le_of_eq hlength), hlength, Nat.sub_self]
  rfl

/-- One request further. -/
theorem serveAll_take_succ {t : Nat} (h : requests[t]? = some request) :
    (r.serveAll (requests.take (t + 1))).2 =
      ((r.serveAll (requests.take t)).2.serve request).2 := by
  rw [List.take_add_one, h, serveAll_append]
  rfl

end Runner

namespace Bridge
variable {γ : Type} {r : Runner γ} {ms : List Move} {m : Move} {b b' : Bridge γ}

/-! ### What a move does -/

/-- The moves that are possible, and what each leads to. -/
inductive Step : Bridge γ → Move → Bridge γ → Prop
  | send (b : Bridge γ) (request : Request) :
    Step b (.send request)
      { b with queue := b.queue ++ [(b.sent, request)], sent := b.sent + 1 }
  | drop (b : Bridge γ) (ticket : Ticket) :
    Step b (.drop ticket) { b with dropped := ticket :: b.dropped }
  | take {b : Bridge γ} {ticket : Ticket} {request : Request} {rest : List (Ticket × Request)}
    (worker : b.worker = .idle) (queue : b.queue = (ticket, request) :: rest) :
    Step b .take
      { b with
        queue := rest
        worker := .holding ticket request
        ready := b.ready && !request.suspends }
  | serve {b : Bridge γ} {ticket : Ticket} {request : Request}
    (worker : b.worker = .holding ticket request) :
    Step b .serve
      { b with
        runner := (b.runner.serve request).2
        worker := .finished ticket (b.runner.serve request).1 }
  | publish {b : Bridge γ} {ticket : Ticket} {response : Response}
    (worker : b.worker = .finished ticket response) :
    Step b .publish
      { b with worker := .published ticket response, ready := b.runner.isReady }
  | reply {b : Bridge γ} {ticket : Ticket} {response : Response}
    (worker : b.worker = .published ticket response) :
    Step b .reply ({ b with worker := .idle }.deliver ticket response)

/-- Delivering a reply changes nothing but the replies. -/
theorem deliver_eq (b : Bridge γ) (ticket : Ticket) (response : Response) :
    b.deliver ticket response =
      { b with replies :=
          if b.dropped.contains ticket then b.replies else (ticket, response) :: b.replies } := by
  unfold deliver
  split <;> rfl

theorem step_of_move? (h : b.move? m = some b') : Step b m b' := by
  unfold move? at h
  split at h
  · cases h; exact .send b _
  · cases h; exact .drop b _
  · split at h
    · next hworker hqueue => cases h; exact .take hworker hqueue
    · cases h
  · split at h
    · next hworker => cases h; exact .serve hworker
    · cases h
  · split at h
    · next hworker => cases h; exact .publish hworker
    · cases h
  · split at h
    · next hworker => cases h; exact .reply hworker
    · cases h

end Bridge

/-! ### Counting moves -/

/-- The request that a move sends. -/
def Move.request? : Move → Option Request
  | .send request => some request
  | .drop _ | .take | .serve | .publish | .reply => none

/-- The requests that were sent, after a move. -/
def Move.sentAfter (requests : List Request) : Move → List Request
  | .send request => requests ++ [request]
  | .drop _ | .take | .serve | .publish | .reply => requests

/-- How many requests a move completes. -/
def Move.completed : Move → Nat
  | .reply => 1
  | .send _ | .drop _ | .take | .serve | .publish => 0

namespace Worker

/-- How many requests the worker took and did not complete yet. -/
def takenAhead : Worker → Nat
  | .idle => 0
  | _ => 1

/-- How many requests the runner served and the worker did not complete yet. -/
def servedAhead : Worker → Nat
  | .idle | .holding .. => 0
  | _ => 1

/-- Of how many requests the readiness was published that are not completed yet. -/
def publishedAhead : Worker → Nat
  | .published .. => 1
  | _ => 0

/-- The request that the worker is at. -/
def ticket? : Worker → Option Ticket
  | .idle => none
  | .holding ticket _ | .finished ticket _ | .published ticket _ => some ticket

theorem servedAhead_le_takenAhead (w : Worker) : w.servedAhead ≤ w.takenAhead := by
  cases w <;> simp [servedAhead, takenAhead]

theorem publishedAhead_le_takenAhead (w : Worker) : w.publishedAhead ≤ w.takenAhead := by
  cases w <;> simp [publishedAhead, takenAhead]

end Worker

namespace Bridge
variable {γ : Type} {r : Runner γ} {ms : List Move} {m : Move} {b b' : Bridge γ} {n : Nat}

/-- How often the worker served and published if it completed `n` requests. -/
structure Counted (ms : List Move) (n : Nat) (w : Worker) : Prop where
  serve : ms.count .serve = n + w.servedAhead
  publish : ms.count .publish = n + w.publishedAhead

theorem counted_nil : Counted [] 0 .idle := ⟨rfl, rfl⟩

theorem Counted.step (h : Counted ms n b.worker) (hstep : Step b m b') :
    Counted (ms ++ [m]) (n + m.completed) b'.worker := by
  constructor
  case serve =>
    rw [List.count_append, h.serve]
    cases hstep with
    | send | drop => rfl
    | take worker | serve worker | publish worker => rw [worker]; rfl
    | reply worker => rw [worker, deliver_eq]; rfl
  case publish =>
    rw [List.count_append, h.publish]
    cases hstep with
    | send | drop => rfl
    | take worker | serve worker | publish worker => rw [worker]; rfl
    | reply worker => rw [worker, deliver_eq]; rfl

/-! ### The queue and the worker -/

section Order
variable {requests : List Request}

/-- Requests with their tickets. -/
def ticketed (requests : List Request) : List (Ticket × Request) :=
  requests.zipIdx.map Prod.swap

theorem length_ticketed (requests : List Request) :
    (ticketed requests).length = requests.length := by
  rw [ticketed, List.length_map, List.length_zipIdx]

theorem getElem?_ticketed (requests : List Request) (t : Ticket) :
    (ticketed requests)[t]? = requests[t]?.map (t, ·) := by
  rw [ticketed, List.getElem?_map, List.getElem?_zipIdx, Option.map_map, Nat.zero_add]
  rfl

theorem ticketed_concat (requests : List Request) (request : Request) :
    ticketed (requests ++ [request]) = ticketed requests ++ [(requests.length, request)] := by
  rw [ticketed, List.zipIdx_append, List.map_append, Nat.zero_add]
  rfl

/-- The head of what waits is the next request, and its tail waits on. -/
theorem drop_ticketed_eq_cons {t : Ticket} {request : Request} {rest : List (Ticket × Request)}
    (h : (ticketed requests).drop n = (t, request) :: rest) :
    t = n ∧ requests[n]? = some request ∧ rest = (ticketed requests).drop (n + 1) := by
  have hhead : (ticketed requests)[n]? = some (t, request) := by
    rw [← List.head?_drop, h, List.head?_cons]
  rw [getElem?_ticketed] at hhead
  obtain ⟨first, hfirst, heq⟩ := Option.map_eq_some_iff.1 hhead
  cases heq
  refine ⟨rfl, hfirst, ?_⟩
  rw [← List.tail_drop, h, List.tail_cons]

/-- What the worker has at hand where it completed `n` requests: the next one, or its response. -/
inductive AtHand (r : Runner γ) (requests : List Request) (n : Nat) : Worker → Prop
  | idle : AtHand r requests n .idle
  | holding {request : Request} (next : requests[n]? = some request) :
    AtHand r requests n (.holding n request)
  | finished {response : Response} (next : (r.serveAll requests).1[n]? = some response) :
    AtHand r requests n (.finished n response)
  | published {response : Response} (next : (r.serveAll requests).1[n]? = some response) :
    AtHand r requests n (.published n response)

theorem AtHand.append {w : Worker} (h : AtHand r requests n w) (more : List Request) :
    AtHand r (requests ++ more) n w := by
  cases h with
  | idle => exact .idle
  | holding next =>
    refine .holding ?_
    rw [List.getElem?_append_left (List.getElem?_eq_some_iff.1 next).1, next]
  | finished next => exact .finished (Runner.getElem?_serveAll_append next more)
  | published next => exact .published (Runner.getElem?_serveAll_append next more)

/-- Where `n` of the requests are completed, those that were not taken yet wait in order, and the
runner is the one that served all before them, but for the one at hand. -/
structure InOrder (r : Runner γ) (requests : List Request) (n : Nat) (b : Bridge γ) : Prop where
  sent : b.sent = requests.length
  taken : n + b.worker.takenAhead ≤ requests.length
  queue : b.queue = (ticketed requests).drop (n + b.worker.takenAhead)
  runner : b.runner = (r.serveAll (requests.take (n + b.worker.servedAhead))).2
  worker : AtHand r requests n b.worker

theorem inOrder_spawn (r : Runner γ) : InOrder r [] 0 (spawn r) :=
  ⟨rfl, Nat.le_refl _, rfl, rfl, .idle⟩

/-- Each move keeps the queue in order and the runner in step. -/
theorem InOrder.step (h : InOrder r requests n b) (hstep : Step b m b') :
    InOrder r (m.sentAfter requests) (n + m.completed) b' := by
  obtain ⟨sent, taken, queue, runner, worker⟩ := h
  cases hstep with
  | send request =>
    have hserved := b.worker.servedAhead_le_takenAhead
    refine ⟨?_, ?_, ?_, ?_, worker.append _⟩
    · change b.sent + 1 = (requests ++ [request]).length
      rw [List.length_append, sent]
      rfl
    · change n + b.worker.takenAhead ≤ (requests ++ [request]).length
      rw [List.length_append]
      exact Nat.le_add_right_of_le taken
    · change b.queue ++ [(b.sent, request)] = _
      rw [sent, queue]
      exact (List.drop_append_of_le_length (by rwa [length_ticketed])).symm.trans
        (congrArg _ (ticketed_concat requests request).symm)
    · change b.runner = (r.serveAll ((requests ++ [request]).take (n + b.worker.servedAhead))).2
      rw [List.take_append_of_le_length (by omega), runner]
  | drop ticket =>
    exact ⟨sent, taken, queue, runner, worker⟩
  | take hworker hqueue =>
    rw [hworker] at queue runner
    obtain ⟨rfl, hnext, rfl⟩ := drop_ticketed_eq_cons (queue.symm.trans hqueue)
    exact ⟨sent, (List.getElem?_eq_some_iff.1 hnext).1, rfl, runner, .holding hnext⟩
  | serve hworker =>
    rw [hworker] at taken queue runner worker
    cases worker with
    | holding next =>
      refine ⟨sent, taken, queue, ?_, .finished ?_⟩
      · change _ = (r.serveAll (requests.take (n + 1))).2
        rw [Runner.serveAll_take_succ next, runner]
        rfl
      · change (r.serveAll requests).1[n]? = _
        rw [Runner.getElem?_serveAll next, runner]
        rfl
  | publish hworker =>
    rw [hworker] at taken queue runner worker
    cases worker with
    | finished next => exact ⟨sent, taken, queue, runner, .published next⟩
  | reply hworker =>
    rw [deliver_eq]
    rw [hworker] at taken queue runner
    exact ⟨sent, taken, queue, runner, .idle⟩

/-! ### The flag and the replies -/

/-- A flag that is up tells that the runner was ready when this was last published. It is only ever
lower than that, and only while the worker is at a request. -/
structure FlagHolds (r : Runner γ) (requests : List Request) (n : Nat) (b : Bridge γ) : Prop where
  raised : b.ready = true →
    (r.serveAll (requests.take (n + b.worker.publishedAhead))).2.isReady = true
  settled : b.worker.takenAhead = b.worker.publishedAhead →
    b.ready = (r.serveAll (requests.take (n + b.worker.publishedAhead))).2.isReady

theorem flagHolds_spawn (r : Runner γ) : FlagHolds r [] 0 (spawn r) := ⟨id, fun _ => rfl⟩

theorem FlagHolds.step (h : FlagHolds r requests n b) (order : InOrder r requests n b)
    (hstep : Step b m b') : FlagHolds r (m.sentAfter requests) (n + m.completed) b' := by
  obtain ⟨raised, settled⟩ := h
  cases hstep with
  | send request =>
    have hprefix : (requests ++ [request]).take (n + b.worker.publishedAhead) =
        requests.take (n + b.worker.publishedAhead) :=
      List.take_append_of_le_length
        (Nat.le_trans (Nat.add_le_add_left b.worker.publishedAhead_le_takenAhead n) order.taken)
    rw [← hprefix] at raised settled
    exact ⟨raised, settled⟩
  | drop ticket =>
    exact ⟨raised, settled⟩
  | take hworker hqueue =>
    rw [hworker] at raised
    exact ⟨fun hready => raised (Bool.and_eq_true_iff.1 hready).1, nofun⟩
  | serve hworker =>
    rw [hworker] at raised
    exact ⟨raised, nofun⟩
  | publish hworker =>
    have hrunner := order.runner
    rw [hworker] at hrunner
    have hready : b.runner.isReady = (r.serveAll (requests.take (n + 1))).2.isReady :=
      congrArg Runner.isReady hrunner
    exact ⟨hready.symm.trans, fun _ => hready⟩
  | reply hworker =>
    rw [deliver_eq]
    rw [hworker] at raised settled
    exact ⟨raised, fun _ => settled rfl⟩

/-- Each completed request whose receiver is kept has its reply, and no request has two. -/
structure Answered (r : Runner γ) (requests : List Request) (n : Nat) (b : Bridge γ) : Prop where
  completed : ∀ reply ∈ b.replies, reply.1 < n
  own : ∀ reply ∈ b.replies, (r.serveAll requests).1[reply.1]? = some reply.2
  latestFirst : b.replies.Pairwise fun later earlier => earlier.1 < later.1
  delivered : ∀ t < n, t ∉ b.dropped → ∃ response, (t, response) ∈ b.replies

theorem answered_spawn (r : Runner γ) : Answered r [] 0 (spawn r) := ⟨nofun, nofun, .nil, nofun⟩

theorem Answered.step (h : Answered r requests n b) (order : InOrder r requests n b)
    (hstep : Step b m b') : Answered r (m.sentAfter requests) (n + m.completed) b' := by
  obtain ⟨completed, own, latestFirst, delivered⟩ := h
  cases hstep with
  | send request =>
    exact ⟨completed, fun reply hreply => Runner.getElem?_serveAll_append (own reply hreply) _,
      latestFirst, delivered⟩
  | drop ticket =>
    exact ⟨completed, own, latestFirst,
      fun t ht hkept => delivered t ht fun hdropped => hkept (List.mem_cons_of_mem _ hdropped)⟩
  | take | serve | publish =>
    exact ⟨completed, own, latestFirst, delivered⟩
  | @reply ticket response hworker =>
    rw [deliver_eq]
    have hatHand := order.worker
    rw [hworker] at hatHand
    cases hatHand with
    | published next =>
      -- The reply goes to its receiver, or nowhere if that was dropped.
      by_cases hdropped : n ∈ b.dropped
      · rw [if_pos (List.contains_iff_mem.2 hdropped)]
        refine ⟨fun reply hreply => Nat.lt_succ_of_lt (completed reply hreply), own, latestFirst,
          fun t ht hkept => delivered t ?_ hkept⟩
        exact Nat.lt_of_le_of_ne (Nat.le_of_lt_succ ht) fun heq => hkept (heq ▸ hdropped)
      · rw [if_neg (mt List.contains_iff_mem.1 hdropped)]
        refine ⟨?_, ?_, .cons completed latestFirst, fun t ht hkept => ?_⟩
        · intro reply hreply
          rcases List.mem_cons.1 hreply with rfl | hreply
          · exact Nat.lt_succ_self n
          · exact Nat.lt_succ_of_lt (completed reply hreply)
        · intro reply hreply
          rcases List.mem_cons.1 hreply with rfl | hreply
          · exact next
          · exact own reply hreply
        · rcases Nat.lt_succ_iff_lt_or_eq.1 ht with ht | rfl
          · obtain ⟨answer, hmem⟩ := delivered t ht hkept
            exact ⟨answer, List.mem_cons_of_mem _ hmem⟩
          · exact ⟨response, List.mem_cons_self⟩

end Order

/-! ### Runs -/

/-- The requests that moves send, in order. -/
def sentBy (ms : List Move) : List Request := ms.filterMap Move.request?

theorem sentBy_concat (ms : List Move) (m : Move) :
    sentBy (ms ++ [m]) = m.sentAfter (sentBy ms) := by
  rw [sentBy, List.filterMap_append]
  cases m with
  | send request => rfl
  | drop | take | serve | publish | reply => exact List.append_nil _

theorem moves?_append (b : Bridge γ) (first second : List Move) :
    b.moves? (first ++ second) = (b.moves? first).bind (·.moves? second) :=
  List.foldlM_append

theorem moves?_cons (b : Bridge γ) (m : Move) (ms : List Move) :
    b.moves? (m :: ms) = (b.move? m).bind (·.moves? ms) := List.foldlM_cons

theorem moves?_singleton (b : Bridge γ) (m : Move) : b.moves? [m] = b.move? m := by
  rw [moves?, List.foldlM_cons]
  cases b.move? m <;> rfl

/-- What holds of a bridge after moves, however clients and worker interleave. -/
theorem invariant_of_moves? (h : (spawn r).moves? ms = some b) :
    ∃ n, Counted ms n b.worker ∧ InOrder r (sentBy ms) n b ∧ FlagHolds r (sentBy ms) n b ∧
      Answered r (sentBy ms) n b := by
  induction ms using List.reverseRecOn generalizing b with
  | nil =>
    cases h
    exact ⟨0, counted_nil, inOrder_spawn r, flagHolds_spawn r, answered_spawn r⟩
  | append_singleton ms m ih =>
    rw [moves?_append, Option.bind_eq_some_iff] at h
    obtain ⟨before, hbefore, hmove⟩ := h
    have hstep := step_of_move? ((moves?_singleton before m).symm.trans hmove)
    obtain ⟨n, counted, order, flag, answered⟩ := ih hbefore
    rw [sentBy_concat]
    exact ⟨n + m.completed, counted.step hstep, order.step hstep, flag.step order hstep,
      answered.step order hstep⟩

/-! ### Dropped receivers -/

/-- A bridge but for one receiver and its reply. -/
def forget (t : Ticket) (b : Bridge γ) : Bridge γ :=
  { b with
    dropped := b.dropped.filter (· != t)
    replies := b.replies.filter (·.1 != t) }

theorem forget_drop (t : Ticket) (b : Bridge γ) :
    forget t { b with dropped := t :: b.dropped } = forget t b := by
  simp [forget]

/-- Delivering does not depend on other receivers. -/
theorem forget_deliver (t ticket : Ticket) (response : Response) (b : Bridge γ) :
    forget t ((forget t b).deliver ticket response) = forget t (b.deliver ticket response) := by
  rw [deliver_eq, deliver_eq]
  by_cases ht : ticket = t
  · subst ht
    by_cases hdropped : ticket ∈ b.dropped <;> simp [forget, hdropped]
  · by_cases hdropped : ticket ∈ b.dropped <;> simp [forget, hdropped, ht]

/-- No move depends on a receiver, but for the reply to it. -/
theorem move?_forget (t : Ticket) (b : Bridge γ) (m : Move) :
    ((forget t b).move? m).map (forget t) = (b.move? m).map (forget t) := by
  cases m with
  | send request => simp [move?, forget]
  | drop ticket => by_cases ht : ticket = t <;> simp [move?, forget, ht]
  | take =>
    obtain ⟨runner, queue, worker, ready, sent, dropped, replies⟩ := b
    cases worker <;> cases queue <;> simp [move?, forget]
  | serve =>
    obtain ⟨runner, queue, worker, ready, sent, dropped, replies⟩ := b
    cases worker <;> simp [move?, forget]
  | publish =>
    obtain ⟨runner, queue, worker, ready, sent, dropped, replies⟩ := b
    cases worker <;> simp [move?, forget]
  | reply =>
    obtain ⟨runner, queue, worker, ready, sent, dropped, replies⟩ := b
    cases worker with
    | published ticket response =>
      exact congrArg some (forget_deliver t ticket response
        ⟨runner, queue, .idle, ready, sent, dropped, replies⟩)
    | idle | holding | finished => rfl

/-- Bridges that differ in one receiver go on alike. -/
theorem moves?_forget {t : Ticket} {b b' : Bridge γ} (h : forget t b = forget t b')
    (ms : List Move) : (b.moves? ms).map (forget t) = (b'.moves? ms).map (forget t) := by
  induction ms generalizing b b' with
  | nil => exact congrArg some h
  | cons m ms ih =>
    have hmove : (b.move? m).map (forget t) = (b'.move? m).map (forget t) := by
      rw [← move?_forget, h, move?_forget]
    rw [moves?_cons, moves?_cons]
    cases hb : b.move? m with
    | none =>
      rw [hb, Option.map_none, eq_comm, Option.map_eq_none_iff] at hmove
      rw [hmove]
    | some next =>
      rw [hb, Option.map_some, eq_comm, Option.map_eq_some_iff] at hmove
      obtain ⟨next', hb', hnext⟩ := hmove
      rw [hb', Option.bind_some, Option.bind_some]
      exact ih hnext.symm

/-- Whether a receiver is dropped, and when, matters to its own reply alone. -/
theorem moves?_without_drop {t : Ticket} {before after : List Move}
    (h : b.moves? (before ++ .drop t :: after) = some b') :
    ∃ kept, b.moves? (before ++ after) = some kept ∧ forget t kept = forget t b' := by
  rw [moves?_append, Option.bind_eq_some_iff] at h
  obtain ⟨middle, hbefore, hafter⟩ := h
  have hforget : (middle.moves? after).map (forget t) = some (forget t b') := by
    rw [moves?_forget (forget_drop t middle).symm, ← Option.map_some, ← hafter]
    rfl
  obtain ⟨kept, hkept, heq⟩ := Option.map_eq_some_iff.1 hforget
  exact ⟨kept, by rw [moves?_append, hbefore, Option.bind_some, hkept], heq⟩

/-! ### First come, first served -/

/-- The replies to one request. -/
def repliesTo (b : Bridge γ) (t : Ticket) : List (Ticket × Response) :=
  b.replies.filter (·.1 == t)

theorem mem_repliesTo {b : Bridge γ} {t : Ticket} {reply : Ticket × Response} :
    reply ∈ b.repliesTo t ↔ reply ∈ b.replies ∧ reply.1 = t := by
  rw [repliesTo, List.mem_filter, beq_iff_eq]

section Order
variable {requests : List Request} {t : Ticket}

theorem AtHand.eq_of_ticket? {w : Worker} (h : AtHand r requests n w)
    (ht : w.ticket? = some t) : t = n := by
  cases h <;> cases ht <;> rfl

/-- All served requests but the one at hand are completed. -/
theorem AtHand.lt_of_ticket?_ne {w : Worker} (h : AtHand r requests n w)
    (ht : t < n + w.servedAhead) (hne : w.ticket? ≠ some t) : t < n := by
  cases h with
  | idle | holding => exact ht
  | finished | published =>
    exact Nat.lt_of_le_of_ne (Nat.le_of_lt_succ ht) fun heq => hne (congrArg some heq.symm)

theorem AtHand.takenAhead_eq_zero {w : Worker} (h : AtHand r requests n w)
    (hn : requests.length ≤ n) : w.takenAhead = 0 := by
  have hnone : requests[n]? = none := List.getElem?_eq_none hn
  have hnone' : (r.serveAll requests).1[n]? = none :=
    List.getElem?_eq_none (by rwa [Runner.length_serveAll])
  cases h with
  | idle => rfl
  | holding next => rw [hnone] at next; cases next
  | finished next | published next => rw [hnone'] at next; cases next

/-- No request has two replies. -/
theorem Answered.repliesTo_eq (h : Answered r requests n b) {response : Response}
    (hmem : (t, response) ∈ b.replies) : b.repliesTo t = [(t, response)] := by
  have hmem' : (t, response) ∈ b.repliesTo t := mem_repliesTo.2 ⟨hmem, rfl⟩
  have hpairwise := h.latestFirst.filter (·.1 == t)
  rw [← repliesTo] at hpairwise
  match hreplies : b.repliesTo t with
  | [] => rw [hreplies] at hmem'; cases hmem'
  | [reply] => rw [hreplies] at hmem'; rw [List.mem_singleton.1 hmem']
  | later :: earlier :: rest =>
    rw [hreplies] at hpairwise
    have hlt := List.rel_of_pairwise_cons hpairwise List.mem_cons_self
    have hlater : later ∈ b.repliesTo t := by rw [hreplies]; exact List.mem_cons_self
    have hearlier : earlier ∈ b.repliesTo t := by
      rw [hreplies]; exact List.mem_cons_of_mem _ List.mem_cons_self
    rw [(mem_repliesTo.1 hlater).2, (mem_repliesTo.1 hearlier).2] at hlt
    exact absurd hlt (Nat.lt_irrefl t)

end Order

/-- What clients can rely on after moves `ms` of a bridge to `r`: it is as if `r` had served the
requests one by one in the order of sending. -/
structure Fifo (r : Runner γ) (ms : List Move) (b : Bridge γ) : Prop where
  tickets : b.sent = (sentBy ms).length
  served : ms.count .serve ≤ (sentBy ms).length
  runner : b.runner = (r.serveAll ((sentBy ms).take (ms.count .serve))).2
  /-- A request that was served has its reply, unless its receiver was dropped or the worker is
  still about to hand the reply over. -/
  answered : ∀ t < ms.count .serve, t ∉ b.dropped → b.worker.ticket? ≠ some t →
    b.repliesTo t ≠ []
  /-- No other request has a reply. -/
  unanswered : ∀ t, ms.count .serve ≤ t ∨ b.worker.ticket? = some t → b.repliesTo t = []
  /-- A reply is the response to its own request, and it is not repeated. -/
  own : ∀ t, b.repliesTo t ≠ [] →
    ∃ response, (r.serveAll (sentBy ms)).1[t]? = some response ∧ b.repliesTo t = [(t, response)]
  ready : b.ready = true →
    (r.serveAll ((sentBy ms).take (ms.count .publish))).2.isReady = true
  /-- Who holds the reply to the last request finds out whether the runner is ready now. -/
  last : ∀ t, t + 1 = b.sent → b.repliesTo t ≠ [] →
    b.runner = (r.serveAll (sentBy ms)).2 ∧ b.ready = b.runner.isReady
  /-- The worker goes on as long as a request waits. -/
  progress : b.move? b.worker.next = none → b.worker = .idle ∧ b.queue = []

theorem progress_of_move? (h : b.move? b.worker.next = none) : b.worker = .idle ∧ b.queue = [] := by
  obtain ⟨runner, queue, worker, ready, sent, dropped, replies⟩ := b
  cases worker with
  | idle =>
    cases queue with
    | nil => exact ⟨rfl, rfl⟩
    | cons => cases h
  | holding | finished | published => cases h

theorem fifo (h : (spawn r).moves? ms = some b) : Fifo r ms b := by
  obtain ⟨n, counted, order, flag, answered⟩ := invariant_of_moves? h
  have hserved : n + b.worker.servedAhead ≤ (sentBy ms).length :=
    Nat.le_trans (Nat.add_le_add_left b.worker.servedAhead_le_takenAhead n) order.taken
  constructor
  case tickets => exact order.sent
  case served => rwa [counted.serve]
  case runner => rw [counted.serve, order.runner]
  case answered =>
    intro t ht hkept hne
    rw [counted.serve] at ht
    obtain ⟨response, hmem⟩ := answered.delivered t (order.worker.lt_of_ticket?_ne ht hne) hkept
    exact List.ne_nil_of_mem (mem_repliesTo.2 ⟨hmem, rfl⟩)
  case unanswered =>
    intro t ht
    rw [counted.serve] at ht
    have hn : n ≤ t := by
      rcases ht with ht | ht
      · exact Nat.le_of_add_right_le ht
      · exact Nat.le_of_eq (order.worker.eq_of_ticket? ht).symm
    refine List.eq_nil_iff_forall_not_mem.2 fun reply hreply => ?_
    obtain ⟨hmem, rfl⟩ := mem_repliesTo.1 hreply
    exact Nat.not_le_of_lt (answered.completed reply hmem) hn
  case own =>
    intro t hne
    obtain ⟨⟨_, response⟩, hreply⟩ := List.exists_mem_of_ne_nil _ hne
    obtain ⟨hmem, rfl⟩ := mem_repliesTo.1 hreply
    exact ⟨response, answered.own _ hmem, answered.repliesTo_eq hmem⟩
  case ready => rw [counted.publish]; exact flag.raised
  case last =>
    intro t ht hne
    obtain ⟨reply, hreply⟩ := List.exists_mem_of_ne_nil _ hne
    obtain ⟨hmem, rfl⟩ := mem_repliesTo.1 hreply
    have hn : (sentBy ms).length ≤ n := by
      rw [← order.sent, ← ht]
      exact answered.completed reply hmem
    -- No further request was taken, so that runner and flag are those after all requests.
    have htaken := order.worker.takenAhead_eq_zero hn
    have hpublished := Nat.le_zero.1 (htaken ▸ b.worker.publishedAhead_le_takenAhead)
    have hready := flag.settled (htaken.trans hpublished.symm)
    have hrunner := order.runner
    rw [List.take_of_length_le (Nat.le_add_right_of_le hn)] at hready hrunner
    exact ⟨hrunner, hready.trans (congrArg Runner.isReady hrunner).symm⟩
  case progress => exact progress_of_move?

theorem repliesTo_forget {t u : Ticket} (h : u ≠ t) (b : Bridge γ) :
    (forget t b).repliesTo u = b.repliesTo u := by
  rw [repliesTo, forget, List.filter_filter, repliesTo]
  refine List.filter_congr fun reply _ => ?_
  by_cases heq : reply.1 = u
  · simp [heq, h]
  · simp [heq]

/-- However clients and worker interleave, requests are served first come, first served; and giving
up a receiver takes nothing from anyone else. -/
theorem moves?_linearizes (h : (spawn r).moves? ms = some b) :
    Fifo r ms b ∧
      ∀ before t after, ms = before ++ .drop t :: after →
        ∃ kept, (spawn r).moves? (before ++ after) = some kept ∧
          kept.runner = b.runner ∧ kept.ready = b.ready ∧
            ∀ u ≠ t, kept.repliesTo u = b.repliesTo u := by
  refine ⟨fifo h, fun before t after hms => ?_⟩
  rw [hms] at h
  obtain ⟨kept, hkept, hforget⟩ := moves?_without_drop h
  refine ⟨kept, hkept, ?_, ?_, fun u hu => ?_⟩
  · change (forget t kept).runner = (forget t b).runner
    rw [hforget]
  · change (forget t kept).ready = (forget t b).ready
    rw [hforget]
  · rw [← repliesTo_forget hu, hforget, repliesTo_forget hu]

/-- A guest that faults whenever it executes a script. -/
def faultyGuest : Sandbox.Guest Unit where
  instantiate := some ⟨.zeros 1 64, ()⟩
  showsMemory := true
  onLoad := none
  onStart := none
  malloc := some fun _ now => .done (.ok 1024) now
  tokenize := some fun _ now => .done (.ok 0) now
  parse := some fun _ now => .done (.ok 0) now
  execute := some fun _ now => .done (.error ⟨false, "integer divide by zero"⟩) now

/-- Three requests that wait together; the receiver of the second is dropped meanwhile. -/
def crowdedMoves : List Move :=
  [.send .init, .send (.execute [] []), .take, .send (.tokenize [] []), .serve, .drop 1, .publish,
    .reply, .take, .serve, .publish, .reply, .take, .serve, .publish, .reply]

/-- A request is served although its receiver is gone, and the next one meets a faulted guest. -/
theorem moves?_linearizes_crowded :
    ∃ b, (spawn (.new faultyGuest .default)).moves? crowdedMoves = some b ∧
      b.replies = [(2, .error .faulted), (0, .ok .done)] ∧
      Fifo (.new faultyGuest .default) crowdedMoves b :=
  ⟨_, rfl, rfl, (moves?_linearizes rfl).1⟩

end Bridge

end Shepherd.Host
